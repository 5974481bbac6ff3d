import ChainArchive.Bytes

/-!
# Streams in chunks

An engine takes octets from the front of its input and puts others in a small
buffer. Its caller gathers what it finds there, call after call, until the engine
says that the stream has ended, and gives up when a call does nothing at all.
-/

namespace ChainArchive.Codec
set_option autoImplicit false

/-- The size of the buffer. -/
def chunkSize : Nat := 1024

/-- What one call of an engine did. -/
structure Turn (State : Type) where
  state : State
  /-- How many octets of the input it took. -/
  taken : Nat
  /-- What it put in the buffer. -/
  chunk : Bytes
  /-- The stream has ended. -/
  ended : Bool

/-- A call that did nothing. -/
def Turn.isIdle {State : Type} (turn : Turn State) : Bool := turn.taken == 0 && turn.chunk.isEmpty

/-- An engine. What is left to do grows less with every call that does something. -/
structure Engine (ε : Type) where
  State : Type
  start : State
  /-- Works on the rest of the input. -/
  call : State → Bytes → Except ε (Turn State)
  left : State → Bytes → Nat
  advances : ∀ state input turn, call state input = .ok turn → turn.isIdle = false →
    left turn.state (input.drop turn.taken) < left state input

namespace Engine

variable {ε : Type}

/-- Goes on with an engine that has taken so many octets, behind what was gathered so far. An idle engine is `stuck`. -/
def gather (engine : Engine ε) (stuck : Nat → ε) (state : engine.State) (consumed : Nat) (input : Bytes)
    (output : Array UInt8) : Except ε (Array UInt8) :=
  match _ : engine.call state input with
  | .error e => .error e
  | .ok turn =>
    let output := output ++ turn.chunk
    if turn.ended then .ok output
    else if _ : turn.isIdle then .error (stuck consumed)
    else engine.gather stuck turn.state (consumed + turn.taken) (input.drop turn.taken) output
termination_by engine.left state input
decreasing_by exact engine.advances state input turn ‹_› (Bool.eq_false_iff.2 ‹_›)

/-- All that an engine makes of an input. -/
def run (engine : Engine ε) (stuck : Nat → ε) (input : Bytes) : Except ε Bytes :=
  (engine.gather stuck engine.start 0 input #[]).map Array.toList

end Engine
end ChainArchive.Codec
