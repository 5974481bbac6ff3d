import ChainArchive.Codec.Stream
import ChainArchive.Pool

/-!
# The compression service

Two pools, one whose workers compress and one whose workers decompress.
-/

namespace ChainArchive
set_option autoImplicit false

/-- Why a compression request failed. -/
inductive CompressionError
  /-- The payload could not be compressed. -/
  | compressFailed (reason : String)
  /-- The octets are no compressed stream. -/
  | decompressFailed (reason : String)
  /-- The stream ends early, after so many octets. -/
  | truncatedStream (octets : Nat)
  /-- No worker answered in time. -/
  | timeout (millis : Nat)
  /-- The workers are gone. -/
  | unavailable (reason : String)
deriving Repr, DecidableEq

namespace CompressionError

/-- The text shown for a failed compression request. -/
def message : CompressionError → String
  | .compressFailed reason => s!"Compression failed: {reason}"
  | .decompressFailed reason => s!"Decompression failed: {reason}"
  | .truncatedStream octets => s!"Compressed stream truncated after {octets} bytes"
  | .timeout millis => s!"Compression request timed out after {millis} ms"
  | .unavailable reason => s!"Compression workers unavailable: {reason}"

/-- What a codec failure means for the request. -/
def ofStream : Codec.StreamError → CompressionError
  | .invalid => .decompressFailed "malformed stream"
  | .truncated octets => .truncatedStream octets

/-- What an ask without an answer means for the request. -/
def ofAsk : AskError CompressionError → CompressionError
  | .timeout _ span => .timeout span.millisWord
  | .closed pool => .unavailable pool
  | .rejected e => e

end CompressionError

/-- The two pools. -/
structure CompressionService where
  compressors : Pool Bytes Bytes CompressionError
  decompressors : Pool Bytes Bytes CompressionError

namespace CompressionService

/-- What a compressing worker does. -/
def compressHandler : Pool.Handler Bytes Bytes CompressionError := fun _ raw =>
  match Codec.compressInChunks raw with
  | .ok stream => some (.reply stream)
  | .error reason => some (.reject (.compressFailed reason))

/-- What a decompressing worker does. -/
def decompressHandler : Pool.Handler Bytes Bytes CompressionError := fun _ stream =>
  match Codec.decompress stream with
  | .ok raw => some (.reply raw)
  | .error e => some (.reject (.ofStream e))

/-- Starts both pools. -/
def start (settings : CompressionSettings) : Attempt CompressionError CompressionService := do
  let compressors ← (Pool.start "compressor" settings.compressors).mapError fun e => .unavailable e.message
  let decompressors ← (Pool.start "decompressor" settings.decompressors).mapError fun e => .unavailable e.message
  Attempt.say [.compressionStarted settings.compressors settings.decompressors]
  return ⟨compressors, decompressors⟩

/-- Asks a worker to compress. -/
def compress (s : CompressionService) (raw : Bytes) (timeout : Span) :
    CompressionService × Except CompressionError Bytes :=
  let (pool, result) := s.compressors.call compressHandler raw timeout
  ({ s with compressors := pool }, result.mapError .ofAsk)

/-- Asks a worker to decompress. -/
def decompress (s : CompressionService) (stream : Bytes) (timeout : Span) :
    CompressionService × Except CompressionError Bytes :=
  let (pool, result) := s.decompressors.call decompressHandler stream timeout
  ({ s with decompressors := pool }, result.mapError .ofAsk)

/-- What was logged since the start, also by the workers while they handled requests. -/
def log (s : CompressionService) : List Event :=
  s.compressors.log ++ s.compressors.events (fun raw c => .payloadCompressed raw.length c.length) ++
    s.decompressors.log ++ s.decompressors.events fun stream raw => .payloadDecompressed stream.length raw.length

/-- Stops both pools. -/
def shutdown (s : CompressionService) : CompressionService :=
  ⟨s.compressors.shutdown compressHandler, s.decompressors.shutdown decompressHandler⟩

end CompressionService
end ChainArchive
