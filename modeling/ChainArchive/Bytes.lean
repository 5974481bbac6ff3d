/-!
# Byte strings

Payloads, signatures, compressed streams and files are lists of octets. The
module also fixes how text becomes bytes (UTF-8) and how a natural number is
written in big-endian octets.
-/

namespace ChainArchive
set_option autoImplicit false

/-- A string of octets. -/
abbrev Bytes := List UInt8

namespace Bytes

/-- The UTF-8 octets of a text. -/
def ofText (text : String) : Bytes := text.toUTF8.data.toList

/-- The text that these octets are the UTF-8 form of, if they are one. -/
def text? (bytes : Bytes) : Option String := String.fromUTF8? ⟨bytes.toArray⟩

theorem text?_ofText (text : String) : text? (ofText text) = some text := by
  have valid : ByteArray.IsValidUTF8 ⟨(ofText text).toArray⟩ := by
    simpa [ofText] using text.isValidUTF8
  simp only [text?, String.fromUTF8?, valid, dif_pos]
  simp [ofText, String.fromUTF8]

/-- The number whose big-endian octets these are. -/
def toNat (bytes : Bytes) : Nat := bytes.foldl (fun n byte => n * 256 + byte.toNat) 0

/-- The lowest `width` octets of `n`, the most significant first. -/
def ofNat : Nat → Nat → Bytes
  | 0, _ => []
  | width + 1, n => ofNat width (n / 256) ++ [UInt8.ofNat n]

@[simp] theorem length_ofNat (width n : Nat) : (ofNat width n).length = width := by
  induction width generalizing n with
  | zero => rfl
  | succ width ih => simp [ofNat, ih]

theorem toNat_concat (bytes : Bytes) (byte : UInt8) :
    toNat (bytes ++ [byte]) = toNat bytes * 256 + byte.toNat := by
  simp [toNat, List.foldl_append]

theorem toNat_ofNat (width n : Nat) : toNat (ofNat width n) = n % Nat.pow 256 width := by
  rw [Nat.pow_eq]
  induction width generalizing n with
  | zero => simp [ofNat, toNat, Nat.mod_one]
  | succ width ih =>
    have last : (UInt8.ofNat n).toNat = n % 256 := by simp
    rw [ofNat, toNat_concat, ih, last, Nat.pow_succ, Nat.mul_comm (256 ^ width) 256, Nat.mod_mul]
    omega

/-- The number of octets that `n` needs. -/
def width (n : Nat) : Nat := if n = 0 then 0 else n.log2 / 8 + 1

end Bytes
end ChainArchive
