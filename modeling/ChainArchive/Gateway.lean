import ChainArchive.Service.Compression
import ChainArchive.Service.Signature

/-!
# Gateways

The archiver sees the services as transforms of payloads. A service that timed
out is a transform that timed out; every other failure of a service is a failed
transform with the service's text.
-/

namespace ChainArchive
set_option autoImplicit false

namespace TransformError

/-- What a failed compression request means for the archiver. -/
def ofCompression : CompressionError → TransformError
  | .timeout millis => .timeout millis
  | other => .failed other.message

/-- What a failed signature request means for the archiver. -/
def ofSignature : Rsa.SignatureError → TransformError
  | .timeout millis => .timeout millis
  | other => .failed other.message

/-- What an ask for a compression has come to, as the archiver sees it. -/
def compressResult (result : Except (AskError CompressionError) Bytes) : Except TransformError Bytes :=
  (result.mapError CompressionError.ofAsk).mapError ofCompression

/-- What an ask for a signature has come to, as the archiver sees it. -/
def signResult (result : Except (AskError Rsa.SignatureError) Bytes) : Except TransformError Bytes :=
  (result.mapError Rsa.SignatureError.ofAsk).mapError ofSignature

end TransformError
end ChainArchive
