/-!
# Spans of time

A span is a number of nanoseconds. Reports count its whole milliseconds. Timers
go by milliseconds too, and a timer is never early. A message shows a span in the
largest of the units nanosecond, microsecond, millisecond and second that leaves
a whole part, with as many decimals as are needed.
-/

namespace ChainArchive
set_option autoImplicit false

/-- A span of time. -/
structure Span where
  nanos : Nat
deriving Repr, DecidableEq, Inhabited

namespace Span

/-- A span of whole seconds. -/
def seconds (n : Nat) : Span := ⟨1000000000 * n⟩

/-- A span of whole milliseconds. -/
def ofMillis (n : Nat) : Span := ⟨1000000 * n⟩

/-- No time at all. -/
def isZero (span : Span) : Bool := span.nanos == 0

/-- The whole milliseconds. -/
def millis (span : Span) : Nat := span.nanos / 1000000

/-- The whole milliseconds as reports count them, in a word of 64 bits. -/
def millisWord (span : Span) : Nat := span.millis % Nat.pow 2 64

/-- The milliseconds that a timer waits which was set for the span. -/
def ticks (span : Span) : Nat := (span.nanos + 999999) / 1000000

/-- The span in a unit of `10 ^ places` nanoseconds. -/
def textIn (unit : String) (places : Nat) (span : Span) : String :=
  let digit (place : Nat) : Char := Nat.digitChar (span.nanos / Nat.pow 10 place % 10)
  let kept := ((List.range places).map digit).dropWhile (· == '0')
  let decimals := if kept.isEmpty then "" else "." ++ String.ofList kept.reverse
  s!"{span.nanos / Nat.pow 10 places}{decimals}{unit}"

/-- The span as messages show it. -/
def text (span : Span) : String :=
  if 1000000000 ≤ span.nanos then span.textIn "s" 9
  else if 1000000 ≤ span.nanos then span.textIn "ms" 6
  else if 1000 ≤ span.nanos then span.textIn "µs" 3
  else span.textIn "ns" 0

example : [seconds 90, ofMillis 61001, ofMillis 1500, ofMillis 999, ⟨1500000⟩, ⟨10001⟩, ⟨7⟩, ⟨0⟩].map text =
    ["90s", "61.001s", "1.5s", "999ms", "1.5ms", "10.001µs", "7ns", "0ns"] := by
  decide +kernel

/-- A timer is not early, and less than a millisecond late. -/
theorem ticks_spec (span : Span) : span.nanos ≤ 1000000 * span.ticks ∧ 1000000 * span.ticks < span.nanos + 1000000 := by
  unfold ticks
  omega

end Span
end ChainArchive
