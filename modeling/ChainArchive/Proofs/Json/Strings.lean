import ChainArchive.Json.Scan
import ChainArchive.Json.Writer
import Mathlib.Tactic.Common

/-!
# Strings are read back

A character is written as an escape or as its UTF-8 octets. The octets of a
character beyond ASCII are 128 and more, so none of them is taken for the quote
at the end, a backslash or a control character. Either way what is read of a
character are its UTF-8 octets, and all of them together are those of the text.
-/

namespace ChainArchive.Json
set_option autoImplicit false

variable {read rest : Bytes}

/-! ## One octet, one escape -/

/-- An octet that stands for itself inside a string. -/
def isPlain (byte : UInt8) : Bool := 32 ≤ byte && byte != 34 && byte != 92

theorem readOctets_plain {plain : Bytes} (h : ∀ byte ∈ plain, isPlain byte = true) :
    readOctets .text none read (plain ++ rest) = readOctets .text none (plain.reverse ++ read) rest := by
  induction plain generalizing read with
  | nil => rfl
  | cons byte plain ih =>
    obtain ⟨first, others⟩ := List.forall_mem_cons.1 h
    obtain ⟨⟨printable, noQuote⟩, noBackslash⟩ : (32 ≤ byte ∧ byte ≠ 34) ∧ byte ≠ 92 := by
      simpa [isPlain] using first
    have step : readOctets .text none read (byte :: (plain ++ rest)) =
        readOctets .text none (byte :: read) (plain ++ rest) := by
      rw [readOctets] <;> simp [noQuote, noBackslash, loneLead, UInt8.not_lt.2 printable]
    rw [List.cons_append, step, ih others, List.reverse_cons, List.append_assoc, List.singleton_append]

theorem readOctets_letter {letter byte : UInt8} (h : letterEscape? letter = some byte) :
    readOctets .text none read (92 :: letter :: rest) = readOctets .text none (byte :: read) rest := by
  have noUnit : letter ≠ 117 := by
    rintro rfl
    cases h
  rw [readOctets] <;> simp [noUnit, loneLead, h]

/-- A `\u` escape of an ASCII character. -/
theorem readOctets_unit {a b c d : UInt8} {code : Nat} (h : hexUnit? a b c d = some code) (ascii : code < 0x80) :
    readOctets .text none read (92 :: 117 :: a :: b :: c :: d :: rest) =
      readOctets .text none (UInt8.ofNat code :: read) rest := by
  have noLead : isLead code = false := by simp [isLead]; omega
  have noTrail : isTrail code = false := by simp [isTrail]; omega
  rw [readOctets]
  simp [h, takeUnit, noLead, noTrail, codeOctets, ascii]

/-! ## Texts and their octets -/

theorem ofText_eq_flatMap (text : String) : Bytes.ofText text = text.toList.flatMap String.utf8EncodeChar := by
  rw [Bytes.ofText, String.toUTF8, ← String.utf8Encode_toList, List.utf8Encode]
  simp

theorem utf8EncodeChar_of_ascii {c : Char} (ascii : c.toNat < 0x80) : String.utf8EncodeChar c = [UInt8.ofNat c.toNat] :=
  if_pos (Nat.le_of_lt_succ ascii)

theorem isPlain_ofNat {n : Nat} (small : n < 0x100) (printable : 0x20 ≤ n) (noQuote : n ≠ 34) (noBackslash : n ≠ 92) :
    isPlain (UInt8.ofNat n) = true := by
  have value : (UInt8.ofNat n).toNat = n := by rw [UInt8.toNat_ofNat', Nat.mod_eq_of_lt small]
  simp only [isPlain, Bool.and_eq_true, decide_eq_true_eq, bne_iff_ne, ne_eq, UInt8.le_iff_toNat_le,
    ← UInt8.toNat_inj, value]
  exact ⟨⟨printable, noQuote⟩, noBackslash⟩

/-- The octets of a character that needs no escape are plain. -/
theorem isPlain_of_mem {c : Char} (noQuote : c ≠ '"') (noBackslash : c ≠ '\\') (printable : 0x20 ≤ c.toNat)
    {byte : UInt8} (member : byte ∈ String.utf8EncodeChar c) : isPlain byte = true := by
  by_cases ascii : c.toNat < 0x80
  · rw [utf8EncodeChar_of_ascii ascii, List.mem_singleton] at member
    have other {d : Char} (ne : c ≠ d) : c.toNat ≠ d.toNat := fun same => ne (Char.toNat_inj.1 same)
    exact member ▸ isPlain_ofNat (by omega) printable (other noQuote) (other noBackslash)
  · -- all of them are 128 and more
    have high {n : Nat} (small : n < 0x100) (high : 0x80 ≤ n) (here : byte = UInt8.ofNat n) : isPlain byte = true :=
      here ▸ isPlain_ofNat small (by omega) (by omega) (by omega)
    have beyond : ¬ c.val.toNat ≤ 127 := fun small => ascii (Nat.lt_succ_of_le small)
    simp only [String.utf8EncodeChar, if_neg beyond, apply_ite (byte ∈ ·), List.mem_cons, List.not_mem_nil, or_false]
      at member
    split_ifs at member
    · rcases member with here | here <;> exact high (by omega) (by omega) here
    · rcases member with here | here | here <;> exact high (by omega) (by omega) here
    · rcases member with here | here | here | here <;> exact high (by omega) (by omega) here

/-! ## Characters -/

/-- The octet of a hexadecimal digit. -/
def digitOctet (value : Nat) : UInt8 := UInt8.ofNat (Hex.digit value).toNat

theorem value?_digitOctet : ∀ value < 16, Hex.value? (Char.ofNat (digitOctet value).toNat) = some value := by
  decide

theorem utf8EncodeChar_digit : ∀ value < 16, String.utf8EncodeChar (Hex.digit value) = [digitOctet value] := by
  decide

/-- Four digits are read as the number that they were written for. -/
theorem hexUnit?_ofNat {n : Nat} (small : n < 0x10000) : ∃ a b c d,
    (Hex.ofNat 4 n).flatMap String.utf8EncodeChar = [a, b, c, d] ∧ hexUnit? a b c d = some n := by
  have digit (m : Nat) : m % 16 < 16 := Nat.mod_lt m (by decide)
  refine ⟨digitOctet (n / 16 / 16 / 16 % 16), digitOctet (n / 16 / 16 % 16), digitOctet (n / 16 % 16),
    digitOctet (n % 16), ?_, ?_⟩
  · simp only [Hex.ofNat, List.nil_append, List.cons_append, List.flatMap_cons, List.flatMap_nil,
      utf8EncodeChar_digit _ (digit _)]
  · simp only [hexUnit?, value?_digitOctet _ (digit _), Option.bind_eq_bind, Option.bind_some, Option.pure_def,
      Option.some.injEq]
    omega

/-- What is read of a character are its UTF-8 octets. -/
theorem readOctets_escape (c : Char) : readOctets .text none read (escape c ++ rest) =
    readOctets .text none ((String.utf8EncodeChar c).reverse ++ read) rest := by
  unfold escape
  split
  iterate 7 exact readOctets_letter rfl
  · split
    · next control =>
      obtain ⟨a, b, d, e, written, value⟩ := hexUnit?_ofNat (Nat.lt_trans control (by decide : 0x20 < 0x10000))
      rw [ofText_eq_flatMap, String.toList_ofList, List.flatMap_cons, List.flatMap_cons, written,
        utf8EncodeChar_of_ascii (Nat.lt_trans control (by decide))]
      exact readOctets_unit value (Nat.lt_trans control (by decide))
    · next noQuote noBackslash _ _ _ _ _ printable =>
      exact readOctets_plain fun _ => isPlain_of_mem noQuote noBackslash (Nat.le_of_not_lt printable)

theorem readOctets_escapes (text : List Char) : readOctets .text none read (text.flatMap escape ++ 34 :: rest) =
    .ok (read.reverse ++ text.flatMap String.utf8EncodeChar, rest) := by
  induction text generalizing read with
  | nil => simp [readOctets, loneLead, Except.map]
  | cons c text ih =>
    rw [List.flatMap_cons, List.append_assoc, readOctets_escape, ih]
    simp

/-- A text is read back from what stands between its quotes. -/
theorem readTextString_escapes (text : String) :
    readTextString (text.toList.flatMap escape ++ 34 :: rest) = .ok (text, rest) := by
  have octets : readOctets .text none [] (text.toList.flatMap escape ++ 34 :: rest) = .ok (Bytes.ofText text, rest) := by
    rw [readOctets_escapes, ofText_eq_flatMap, List.reverse_nil, List.nil_append]
  rw [readTextString, octets]
  simp only [bind, Except.bind, Bytes.text?_ofText]
  rfl

end ChainArchive.Json
