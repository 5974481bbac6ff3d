/-!
# Blank text

A character is blank when it has the Unicode property `White_Space`. A text of
blanks only, the empty one included, says nothing and is refused as an
identifier; surrounding blanks are ignored around a configured number.
-/

namespace ChainArchive.Blank
set_option autoImplicit false

/-- The ranges of code points with the property `White_Space`. -/
def ranges : List (Nat × Nat) :=
  [(0x9, 0xD), (0x20, 0x20), (0x85, 0x85), (0xA0, 0xA0), (0x1680, 0x1680), (0x2000, 0x200A),
   (0x2028, 0x2029), (0x202F, 0x202F), (0x205F, 0x205F), (0x3000, 0x3000)]

/-- The character has the property `White_Space`. -/
def isBlank (c : Char) : Bool := ranges.any fun (first, last) => first ≤ c.toNat && c.toNat ≤ last

example : ' '.toNat = 0x20 ∧ isBlank '\t' ∧ isBlank '\u00a0' ∧ isBlank '\u3000' ∧ !isBlank '\u200b' := by decide

/-- The text holds no visible character. -/
def isBlankText (text : String) : Bool := text.toList.all isBlank

/-- The characters between the first and the last that are not blank. -/
def trim (text : List Char) : List Char :=
  ((text.dropWhile isBlank).reverse.dropWhile isBlank).reverse

end ChainArchive.Blank
