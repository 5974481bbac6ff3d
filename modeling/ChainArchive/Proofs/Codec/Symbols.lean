import ChainArchive.Codec.Symbols
import Mathlib.Algebra.Ring.Nat
import Mathlib.Tactic.Common

/-!
# Symbols with extra bits

The values of a symbol begin at its base, and the bases leave no gaps. So each
value of a table's range is that of one symbol, with what is left over written in
its extra bits.
-/

namespace ChainArchive.Codec
set_option autoImplicit false

/-- The symbol's base and the extra bits give the value. -/
structure Encodes (table : Array (Nat × Nat)) (value symbol width rest : Nat) : Prop where
  entry : table[symbol]? = some (value - rest, width)
  rest_le : rest ≤ value
  fits : rest < 2 ^ width

/-- No value lies between the last one of an entry and the base of the next. -/
def Gapless (entries : List (Nat × Nat)) : Prop := entries.IsChain fun a b => b.1 ≤ a.1 + 2 ^ a.2

instance (entries : List (Nat × Nat)) : Decidable (Gapless entries) := inferInstanceAs (Decidable (List.IsChain _ _))

/-- The last entry whose base does not lie beyond a value is the one that the value belongs to. -/
theorem getLast?_takeWhile {entries : List (Nat × Nat)} {first last : Nat × Nat} {value : Nat} (start : Nat)
    (gapless : Gapless (first :: entries)) (low : first.1 ≤ value)
    (end_ : (first :: entries).getLast? = some last) (high : value < last.1 + 2 ^ last.2) : ∃ i entry,
      (((first :: entries).zipIdx start).takeWhile fun ((base, _), _) => base ≤ value).getLast? =
        some (entry, start + i) ∧ (first :: entries)[i]? = some entry ∧ entry.1 ≤ value ∧
          value < entry.1 + 2 ^ entry.2 := by
  induction entries generalizing first start with
  | nil =>
    obtain rfl : first = last := by simpa using end_
    exact ⟨0, first, by simp [low], rfl, low, high⟩
  | cons second entries ih =>
    obtain ⟨step, gapless⟩ := List.isChain_cons_cons.1 gapless
    by_cases low' : second.1 ≤ value
    · obtain ⟨i, entry, found, place, below, above⟩ := ih (start + 1) gapless low' (by simpa using end_)
      refine ⟨i + 1, entry, ?_, place, below, above⟩
      rw [List.zipIdx_cons, List.takeWhile_cons_of_pos (by simpa using low), List.getLast?_cons, found]
      simp [Nat.add_assoc, Nat.add_comm 1]
    · refine ⟨0, first, by simp [low, low'], rfl, low, ?_⟩
      omega

theorem encodes_encodeValue {table : Array (Nat × Nat)} {first last : Nat × Nat} {value : Nat}
    (gapless : Gapless table.toList) (begin_ : table.toList.head? = some first) (low : first.1 ≤ value)
    (end_ : table.toList.getLast? = some last) (high : value < last.1 + 2 ^ last.2) :
    Encodes table value (encodeValue table value).1 (encodeValue table value).2.1 (encodeValue table value).2.2 := by
  obtain ⟨entries, same⟩ := List.head?_eq_some_iff.1 begin_
  rw [same] at gapless end_
  obtain ⟨i, ⟨base, width⟩, found, place, below, above⟩ := getLast?_takeWhile 0 gapless low end_ high
  have code : encodeValue table value = (i, width, value - base) := by
    unfold encodeValue
    rw [same]
    simp only [found, Nat.zero_add]
  simp only at below above
  rw [code]
  refine ⟨?_, Nat.sub_le _ _, by simp only; omega⟩
  rw [Nat.sub_sub_self below, ← Array.getElem?_toList, same]
  exact place

/-- Every copy length has its symbol, -/
theorem encodes_length {length : Nat} (low : 3 ≤ length) (high : length ≤ 258) :
    Encodes lengthTable length (encodeValue lengthTable length).1 (encodeValue lengthTable length).2.1
      (encodeValue lengthTable length).2.2 :=
  encodes_encodeValue (by decide) rfl low rfl (Nat.lt_succ_of_le high)

/-- and so has every distance. -/
theorem encodes_distance {distance : Nat} (low : 1 ≤ distance) (high : distance ≤ 32768) :
    Encodes distanceTable distance (encodeValue distanceTable distance).1 (encodeValue distanceTable distance).2.1
      (encodeValue distanceTable distance).2.2 :=
  encodes_encodeValue (by decide) rfl low rfl (Nat.lt_succ_of_le high)

end ChainArchive.Codec
