import ChainArchive.Bytes

/-!
# Repetitions

A text is cut into literal octets and copies of earlier octets. Positions whose
three next octets hash alike are linked, the nearest first. A copy is put off by
one octet when the next position begins a longer one.
-/

namespace ChainArchive.Codec
set_option autoImplicit false

/-- One piece of a text. -/
inductive Token
  | literal (byte : UInt8)
  | copy (length distance : Nat)
deriving Repr, DecidableEq

/-- How many octets of the text a piece stands for. -/
def Token.span : Token → Nat
  | .literal _ => 1
  | .copy length _ => length

/-- The shortest copy. -/
def minCopy : Nat := 3

/-- The longest copy. -/
def maxCopy : Nat := 258

/-- How far back a copy may reach. -/
def windowSize : Nat := 32768

/-- How many candidates are tried for one copy. -/
def maxProbes : Nat := 257

/-- A text whose positions are linked to the nearest earlier one with the same hash, zero for none. -/
structure Linked where
  text : Array UInt8
  links : Array Nat

namespace Linked

/-- The octet at a position. -/
def octet (t : Linked) (i : Nat) : UInt8 := t.text.getD i 0

/-- The hash of three octets, of 15 bits. -/
def hash (a b c : UInt8) : Nat := (a.toNat * 1024 ^^^ b.toNat * 32 ^^^ c.toNat) % 32768

/-- Links every position of a text. -/
def ofText (text : Array UInt8) : Linked :=
  let link (state : Array Nat × Array Nat) (i : Nat) : Array Nat × Array Nat :=
    let (heads, links) := state
    let key := hash (text.getD i 0) (text.getD (i + 1) 0) (text.getD (i + 2) 0)
    let previous := heads.getD key 0
    (heads.set! key i, links.push previous)
  ⟨text, ((List.range (text.size - 2)).foldl link (Array.replicate 32768 0, #[])).2⟩

/-- How many octets from two positions on agree, up to a limit. -/
def agree (t : Linked) (i j : Nat) : Nat → Nat → Nat
  | 0, count => count
  | limit + 1, count =>
    if t.octet (i + count) == t.octet (j + count) then agree t i j limit (count + 1) else count

/-- The best copy among the earlier positions that hash alike, if it is longer than `best`, which is
a length and a distance. -/
def search (t : Linked) (i reach limit : Nat) : Nat → Nat → Nat × Nat → Nat × Nat
  | 0, _, best => best
  | probes + 1, candidate, best =>
    let j := t.links.getD candidate 0
    if j = 0 ∨ reach < i - j then best
    else if t.octet (j + best.1) != t.octet (i + best.1) then search t i reach limit probes j best
    else
      let length := t.agree i j limit 0
      if length ≤ best.1 then search t i reach limit probes j best
      else if length = limit then (length, i - j)
      else search t i reach limit probes j (length, i - j)

/-- A copy longer than `known` that may begin here: its length and distance, or no distance. -/
def copyAt (t : Linked) (i known : Nat) : Nat × Nat :=
  let limit := min maxCopy (t.text.size - i)
  let reach := min i (windowSize - limit)
  let (length, distance) := if limit ≤ known then (known, 0) else t.search i reach limit maxProbes i (known, 0)
  if (length = minCopy ∧ 8192 ≤ distance) ∨ distance = i then (0, 0) else (length, distance)

end Linked

/-- A copy that was found at the octet before and waits for a longer one. -/
structure Waiting where
  octet : UInt8
  length : Nat
  distance : Nat

/-- Cuts the rest of a text from a position on. Every step but the one at the end of a waiting copy goes
on by an octet at least, and a copy waits only once. -/
def cutFrom (t : Linked) : Nat → Nat → Option Waiting → Array Token → Array Token
  | 0, _, _, tokens => tokens
  | fuel + 1, i, waiting, tokens =>
    if t.text.size ≤ i then tokens
    else
      let known := match waiting with
        | some w => w.length
        | none => minCopy - 1
      let (length, distance) := t.copyAt i known
      match waiting with
      | some w =>
        if w.length < length then
          let tokens := tokens.push (.literal w.octet)
          if 128 ≤ length then cutFrom t fuel (i + length) none (tokens.push (.copy length distance))
          else cutFrom t fuel (i + 1) (some ⟨t.octet i, length, distance⟩) tokens
        else cutFrom t fuel (i + w.length - 1) none (tokens.push (.copy w.length w.distance))
      | none =>
        if distance = 0 then cutFrom t fuel (i + 1) none (tokens.push (.literal (t.octet i)))
        else if 128 ≤ length then cutFrom t fuel (i + length) none (tokens.push (.copy length distance))
        else cutFrom t fuel (i + 1) (some ⟨t.octet i, length, distance⟩) tokens

/-- The pieces of a text. -/
def cut (text : Array UInt8) : Array Token :=
  cutFrom (Linked.ofText text) (text.size + 1) 0 none #[]

end ChainArchive.Codec
