import ChainArchive.StatementId
import Mathlib.Algebra.Ring.Nat

/-!
# Texts of statement ids

The text of an id is its thirty-two digits with hyphens between the groups.
Taking the hyphens out gives the digits back, and their pairs the octets, so an
id is read back from its text.
-/

namespace ChainArchive
set_option autoImplicit false

/-! ## Digits -/

namespace Hex

theorem length_encode (bytes : Bytes) : (encode bytes).length = 2 * bytes.length := by
  induction bytes with
  | nil => rfl
  | cons byte bytes ih =>
    rw [encode, List.flatMap_cons, List.length_append, ← encode, ih, ofByte, List.length_cons]
    simp only [List.length_cons, List.length_nil]
    omega

theorem decode?_encode (bytes : Bytes) : decode? (encode bytes) = some bytes := by
  induction bytes with
  | nil => rfl
  | cons byte bytes ih =>
    have high : byte.toNat / 16 < 16 := by
      have := byte.toNat_lt
      omega
    have low : byte.toNat % 16 < 16 := Nat.mod_lt _ (by decide)
    rw [encode, List.flatMap_cons, ← encode, ofByte, List.cons_append, List.cons_append, List.nil_append, decode?,
      value?_digit _ high, value?_digit _ low, ih]
    simp only [Option.bind_eq_bind, Option.bind_some, Option.pure_def, Nat.div_add_mod, UInt8.ofNat_toNat]

/-- Every character of a written byte string is a digit. -/
theorem digit_of_mem {bytes : Bytes} {c : Char} (member : c ∈ encode bytes) : ∃ value < 16, c = digit value := by
  obtain ⟨byte, -, member⟩ := List.mem_flatMap.1 member
  have := byte.toNat_lt
  rcases (by simpa [ofByte] using member : c = digit (byte.toNat / 16) ∨ c = digit (byte.toNat % 16)) with rfl | rfl
  · exact ⟨_, by omega, rfl⟩
  · exact ⟨_, by omega, rfl⟩

end Hex

namespace StatementId

/-! ## Groups -/

theorem mem_hyphenate {sizes : List Nat} {digits : List Char} {c : Char} (member : c ∈ hyphenate sizes digits) :
    c = '-' ∨ c ∈ digits := by
  fun_induction hyphenate sizes digits with
  | case1 | case2 => exact .inr member
  | case3 sizes digits size more ih =>
    simp only [List.mem_append, List.mem_cons] at member
    rcases member with member | rfl | member
    · exact .inr (List.mem_of_mem_take member)
    · exact .inl rfl
    · exact (ih member).imp_right List.mem_of_mem_drop

/-- The hyphens between groups can be taken out again. -/
theorem ungroup?_hyphenate {sizes : List Nat} (some : sizes ≠ []) {digits : List Char} (fits : digits.length = sizes.sum) :
    ungroup? sizes (hyphenate sizes digits) = .some digits := by
  fun_induction hyphenate sizes digits with
  | case1 => exact absurd rfl some
  | case2 digits size => exact if_pos (by simpa using fits)
  | case3 size sizes digits more ih =>
    rw [List.sum_cons] at fits
    have group : (digits.take size).length = size := by
      rw [List.length_take]
      omega
    have rest := ih more (by rw [List.length_drop]; omega)
    rw [ungroup?, List.drop_left' group]
    · simp only [rest, List.take_left' group, Option.map_some, List.take_append_drop]
    · exact more

theorem length_hyphenate {sizes : List Nat} (some : sizes ≠ []) {digits : List Char} (fits : digits.length = sizes.sum) :
    (hyphenate sizes digits).length + 1 = digits.length + sizes.length := by
  fun_induction hyphenate sizes digits with
  | case1 => exact absurd rfl some
  | case2 => rfl
  | case3 size sizes digits more ih =>
    rw [List.sum_cons] at fits
    have rest := ih more (by rw [List.length_drop]; omega)
    simp only [List.length_append, List.length_take, List.length_cons, List.length_drop] at rest ⊢
    omega

/-! ## Texts -/

/-- A text is made of digits and hyphens. -/
theorem mem_text {id : StatementId} {c : Char} (member : c ∈ id.text.toList) :
    c = '-' ∨ ∃ value < 16, c = Hex.digit value := by
  rw [text, String.toList_ofList] at member
  exact (mem_hyphenate member).imp_right Hex.digit_of_mem

/-- The text of a statement id is a single line. -/
theorem newline_not_mem_text (id : StatementId) : '\n' ∉ id.text.toList := by
  intro member
  have digits : ∀ value < 16, '\n' ≠ Hex.digit value := by decide
  rcases mem_text member with hyphen | ⟨value, small, digit⟩
  · cases hyphen
  · exact digits value small digit

/-- Nothing is wrapped around a text. -/
theorem unwrap_text (id : StatementId) : unwrap id.text.toList = (.plain, id.text.toList) := by
  have noBrace : id.text.toList.head? ≠ some '{' := by
    intro brace
    have digits : ∀ value < 16, '{' ≠ Hex.digit value := by decide
    rcases mem_text (List.mem_of_mem_head? brace) with hyphen | ⟨value, small, digit⟩
    · cases hyphen
    · exact digits value small digit
  have noLead : (id.text.toList.take 9).map Char.toLower ≠ urnLead := by
    intro lead
    have digits : ∀ value < 16, (Hex.digit value).toLower ≠ 'u' := by decide
    obtain ⟨c, member, lower⟩ := List.mem_map.1 (lead ▸ (by decide) : 'u' ∈ (id.text.toList.take 9).map Char.toLower)
    rcases mem_text (List.mem_of_mem_take member) with rfl | ⟨value, small, rfl⟩
    · cases lower
    · exact digits value small lower
  rw [unwrap, if_neg fun braced => noBrace braced.2.1, if_neg noLead]

/-- An id is read back from its text. -/
theorem read_text (id : StatementId) : read id.text.toList = .ok id := by
  have fits : (Hex.encode id.bytes).length = groups.sum := by
    rw [Hex.length_encode, id.length_eq]
    rfl
  have length := length_hyphenate (by decide) fits
  have digits : digits? id.text.toList = some (Hex.encode id.bytes) := by
    rw [digits?, unwrap_text, text, String.toList_ofList, if_neg, ungroup?_hyphenate (by decide) fits]
    rw [fits] at length
    have : groups.sum + groups.length = 37 := rfl
    omega
  simp only [read, digits, Option.bind_some, Hex.decode?_encode, id.length_eq, dif_pos]

end StatementId
end ChainArchive
