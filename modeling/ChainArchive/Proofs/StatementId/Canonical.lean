import ChainArchive.Proofs.StatementId
import Mathlib.Data.Char
import Mathlib.Data.List.TakeDrop
import Mathlib.Order.Compare
import Mathlib.Tactic.Common

/-!
# The canonical text of a statement id

Thirty-two digits of either case can be written in four ways, and each way reads
as the id whose octets the digits are. The text shown for an id is one of them,
in lower case, so it stands for all; and as digits are ordered like the octets
they write, ids are ordered like their texts.
-/

namespace ChainArchive
set_option autoImplicit false

/-! ## Digits of either case -/

namespace Hex

/-- The digits, in lower case. -/
def alphabet : List Char := "0123456789abcdef".toList

/-- A character with a value is a digit, in lower case that of the value. -/
theorem toLower_of_value? {c : Char} {value : Nat} (known : value? c = some value) :
    value < 16 ∧ c.toLower = digit value := by
  have ascii : ∀ n < 128, ∀ v ∈ value? (Char.ofNat n), v < 16 ∧ (Char.ofNat n).toLower = digit v := by decide
  have small : c.toNat < 128 := by
    simp only [value?, Char.le_def, UInt32.le_iff_toNat_le] at known
    change c.val.toNat < 128
    split at known
    · next decimal => exact Nat.lt_of_le_of_lt decimal.2 (by decide)
    · split at known
      · next lower => exact Nat.lt_of_le_of_lt lower.2 (by decide)
      · split at known
        · next upper => exact Nat.lt_of_le_of_lt upper.2 (by decide)
        · cases known
  rw [← Char.ofNat_toNat c] at known ⊢
  exact ascii _ small value known

/-- The case of a digit does not matter. -/
theorem value?_toLower (c : Char) : value? c.toLower = value? c := by
  by_cases small : c.toNat < 128
  · have ascii : ∀ n < 128, value? (Char.ofNat n).toLower = value? (Char.ofNat n) := by decide
    rw [← Char.ofNat_toNat c]
    exact ascii _ small
  · have same : c.toLower = c := by
      apply dif_neg
      rintro ⟨-, upper⟩
      exact small (Nat.lt_of_le_of_lt (UInt32.le_iff_toNat_le.1 upper) (by decide))
    rw [same]

theorem value?_of_toLower {c : Char} {value : Nat} (small : value < 16) (lower : c.toLower = digit value) :
    value? c = some value := by
  rw [← value?_toLower, lower, value?_digit value small]

theorem mem_alphabet_of_mem {bytes : Bytes} {c : Char} (member : c ∈ encode bytes) : c ∈ alphabet := by
  have all : ∀ value < 16, digit value ∈ alphabet := by decide
  obtain ⟨value, small, rfl⟩ := digit_of_mem member
  exact all value small

/-- Digits of either case spell the octets that they write in lower case. -/
theorem decode?_eq_some_iff {digits : List Char} {bytes : Bytes} :
    decode? digits = some bytes ↔ digits.map Char.toLower = encode bytes := by
  fun_induction decode? digits generalizing bytes with
  | case1 =>
    cases bytes with
    | nil => simp [encode]
    | cons byte bytes => simp [encode, ofByte]
  | case2 c =>
    cases bytes with
    | nil => simp [encode]
    | cons byte bytes => simp [encode, ofByte]
  | case3 high low rest ih =>
    simp only [Option.bind_eq_bind, Option.pure_def, Option.bind_eq_some_iff, Option.some.injEq]
    constructor
    · rintro ⟨h, high', l, low', octets, rest', rfl⟩
      obtain ⟨hSmall, hLower⟩ := toLower_of_value? high'
      obtain ⟨lSmall, lLower⟩ := toLower_of_value? low'
      have small : 16 * h + l < 256 := by omega
      have octet : (UInt8.ofNat (16 * h + l)).toNat = 16 * h + l := UInt8.toNat_ofNat_of_lt' small
      have upper : (16 * h + l) / 16 = h := by omega
      have lower : (16 * h + l) % 16 = l := by omega
      rw [encode, List.flatMap_cons, ← encode, ofByte, octet, upper, lower, ← ih.1 rest', ← hLower, ← lLower]
      rfl
    · intro lower
      cases bytes with
      | nil => cases lower
      | cons byte bytes =>
        rw [encode, List.flatMap_cons, ← encode, ofByte] at lower
        obtain ⟨high', low', rest'⟩ : high.toLower = digit (byte.toNat / 16) ∧ low.toLower = digit (byte.toNat % 16) ∧
            rest.map Char.toLower = encode bytes := by simpa using lower
        have := byte.toNat_lt
        refine ⟨_, value?_of_toLower (by omega) high', _, value?_of_toLower (by omega) low', bytes, ih.2 rest', ?_⟩
        rw [Nat.div_add_mod, UInt8.ofNat_toNat]

end Hex

namespace StatementId

/-! ## Spellings -/

/-- The text is thirty-two digits in groups of 8, 4, 4, 4 and 12, with a hyphen between one group and the next. -/
def Hyphenated (digits text : List Char) : Prop :=
  ∃ a b c d e : List Char, digits = a ++ b ++ c ++ d ++ e ∧
    text = a ++ ['-'] ++ b ++ ['-'] ++ c ++ ['-'] ++ d ++ ['-'] ++ e ∧
    a.length = 8 ∧ b.length = 4 ∧ c.length = 4 ∧ d.length = 4 ∧ e.length = 12

/-- The ways to lay thirty-two digits out: bare, hyphenated, hyphenated in braces, hyphenated after the lead-in of a URN,
which may be in any case. -/
inductive Layout (digits : List Char) : List Char → Prop
  | bare (whole : digits.length = 32) : Layout digits digits
  | hyphenated {text : List Char} (groups : Hyphenated digits text) : Layout digits text
  | braced {text : List Char} (groups : Hyphenated digits text) : Layout digits (['{'] ++ text ++ ['}'])
  | urn {lead text : List Char} (urn : lead.map Char.toLower = "urn:uuid:".toList) (groups : Hyphenated digits text) :
    Layout digits (lead ++ text)

/-- The text spells the digits, which may be in any case. -/
structure Spelling (digits text : List Char) : Prop where
  known : ∀ c ∈ digits, c.toLower ∈ Hex.alphabet
  layout : Layout digits text

theorem hyphenated_iff {digits text : List Char} :
    Hyphenated digits text ↔ digits.length = 32 ∧ text = hyphenate groups digits := by
  constructor
  · rintro ⟨a, b, c, d, e, rfl, rfl, la, lb, lc, ld, le⟩
    refine ⟨by simp only [List.length_append]; omega, ?_⟩
    simp only [groups, hyphenate, List.append_assoc, List.take_left' la, List.drop_left' la, List.take_left' lb,
      List.drop_left' lb, List.take_left' lc, List.drop_left' lc, List.take_left' ld, List.drop_left' ld,
      List.cons_append, List.nil_append]
  · rintro ⟨whole, rfl⟩
    refine ⟨digits.take 8, (digits.drop 8).take 4, (digits.drop 12).take 4, (digits.drop 16).take 4, digits.drop 20,
      ?_, ?_, ?_⟩
    · conv_lhs => rw [← List.take_append_drop 8 digits, ← List.take_append_drop 4 (digits.drop 8), List.drop_drop,
        ← List.take_append_drop 4 (digits.drop 12), List.drop_drop, ← List.take_append_drop 4 (digits.drop 16),
        List.drop_drop]
      simp only [List.append_assoc]
    · simp only [groups, hyphenate, List.drop_drop, List.append_assoc, List.cons_append, List.nil_append]
    · simp only [List.length_take, List.length_drop]
      omega

theorem Hyphenated.length {digits text : List Char} (groups : Hyphenated digits text) :
    digits.length = 32 ∧ text.length = 36 := by
  obtain ⟨a, b, c, d, e, rfl, rfl, la, lb, lc, ld, le⟩ := groups
  simp only [List.length_append, List.length_singleton]
  omega

theorem Hyphenated.ungroup? {digits text : List Char} (groups : Hyphenated digits text) :
    StatementId.ungroup? StatementId.groups text = some digits := by
  obtain ⟨whole, rfl⟩ := hyphenated_iff.1 groups
  exact ungroup?_hyphenate (by decide) whole

/-- Hyphens taken out from between groups can be put back. -/
theorem hyphenate_of_ungroup? {sizes : List Nat} {text digits : List Char}
    (ungrouped : ungroup? sizes text = some digits) :
    digits.length = sizes.sum ∧ text = hyphenate sizes digits := by
  fun_induction ungroup? sizes text generalizing digits with
  | case1 => cases ungrouped
  | case2 text =>
    cases ungrouped
    exact ⟨(Nat.add_zero _).symm, rfl⟩
  | case3 => cases ungrouped
  | case4 size sizes text more rest hyphen ih =>
    obtain ⟨digits', ungrouped', rfl⟩ := Option.map_eq_some_iff.1 ungrouped
    obtain ⟨fits, rfl⟩ := ih ungrouped'
    have long : size < text.length := by
      by_contra short
      rw [List.drop_of_length_le (Nat.le_of_not_lt short)] at hyphen
      cases hyphen
    have group : (text.take size).length = size := List.length_take_of_le (Nat.le_of_lt long)
    refine ⟨by rw [List.length_append, group, fits, List.sum_cons], ?_⟩
    rw [hyphenate, List.take_left' group, List.drop_left' group, ← hyphen, List.take_append_drop]
    exact more
  | case5 => cases ungrouped

/-! ## Reading -/

/-- A text with its wrapping off. -/
theorem unwrap_cases (text : List Char) : text = ['{'] ++ (unwrap text).2 ++ ['}'] ∨
    (∃ lead, text = lead ++ (unwrap text).2 ∧ lead.map Char.toLower = "urn:uuid:".toList) ∨ text = (unwrap text).2 := by
  unfold unwrap
  split
  · next braces =>
    obtain ⟨long, opened, closed⟩ := braces
    obtain ⟨rest, rfl⟩ := List.head?_eq_some_iff.1 opened
    have some : rest ≠ [] := by
      rintro rfl
      exact absurd long (by decide)
    have last : rest.getLast some = '\x7d' := by
      rw [List.getLast?_cons_of_ne_nil some, List.getLast?_eq_some_getLast some] at closed
      exact Option.some.inj closed
    left
    change _ = _ ++ rest.dropLast ++ _
    rw [List.append_assoc, ← last, List.dropLast_concat_getLast]
    rfl
  · split
    · next urn => exact .inr (.inl ⟨text.take 9, (List.take_append_drop 9 text).symm, urn⟩)
    · exact .inr (.inr rfl)

theorem unwrap_braced (text : List Char) : (unwrap (['{'] ++ text ++ ['}'])).2 = text := by
  have braces : 2 ≤ (['{'] ++ text ++ ['}']).length ∧ (['{'] ++ text ++ ['}']).head? = some '{' ∧
      (['{'] ++ text ++ ['}']).getLast? = some '}' :=
    ⟨by simp, rfl, List.getLast?_concat⟩
  rw [unwrap, if_pos braces]
  exact List.dropLast_concat

theorem unwrap_urn {lead : List Char} (urn : lead.map Char.toLower = "urn:uuid:".toList) (text : List Char) :
    (unwrap (lead ++ text)).2 = text := by
  have nine : lead.length = 9 := by
    rw [← List.length_map, urn]
    rfl
  obtain ⟨first, lead, rfl⟩ := List.exists_cons_of_length_eq_add_one nine
  have u : first.toLower = 'u' := (List.cons.inj urn).1
  rw [unwrap, if_neg, if_pos]
  · exact List.drop_left' nine
  · rw [List.take_left' nine]
    exact urn
  · rintro ⟨-, opened, -⟩
    obtain rfl : first = '{' := Option.some.inj opened
    exact absurd u (by decide)

/-- A text that begins with a digit is not wrapped. -/
theorem unwrap_hyphenated {digits text : List Char} (groups : Hyphenated digits text)
    (known : ∀ c ∈ digits, c.toLower ∈ Hex.alphabet) : (unwrap text).2 = text := by
  obtain ⟨a, b, c, d, e, rfl, rfl, eight, -⟩ := groups
  obtain ⟨first, a, rfl⟩ := List.exists_cons_of_length_eq_add_one eight
  have digit : first.toLower ∈ Hex.alphabet := known first (by simp only [List.cons_append, List.mem_cons, true_or])
  rw [unwrap, if_neg, if_neg]
  · intro urn
    have u : first.toLower = 'u' := (List.cons.inj urn).1
    rw [u] at digit
    exact absurd digit (by decide)
  · rintro ⟨-, opened, -⟩
    obtain rfl : first = '{' := Option.some.inj opened
    exact absurd digit (by decide)

/-- The digits of a spelling are found. -/
theorem Spelling.digits? {digits text : List Char} (spelling : Spelling digits text) :
    StatementId.digits? text = some digits := by
  obtain ⟨known, layout⟩ := spelling
  cases layout with
  | bare whole => exact if_pos whole
  | hyphenated groups =>
    rw [StatementId.digits?, if_neg, unwrap_hyphenated groups known, groups.ungroup?]
    rw [groups.length.2]
    decide
  | braced groups =>
    rw [StatementId.digits?, if_neg, unwrap_braced, groups.ungroup?]
    simp only [List.length_append, groups.length.2]
    decide
  | urn urn groups =>
    rw [StatementId.digits?, if_neg, unwrap_urn urn, groups.ungroup?]
    rw [List.length_append, groups.length.2]
    omega

/-- What is found to be the digits is laid out in the text. -/
theorem layout_of_digits? {digits text : List Char} (found : digits? text = some digits) : Layout digits text := by
  unfold digits? at found
  split at found
  · next whole =>
    cases found
    exact .bare whole
  · obtain ⟨whole, body⟩ := hyphenate_of_ungroup? found
    have groups : Hyphenated digits (unwrap text).2 := hyphenated_iff.2 ⟨whole, body⟩
    rcases unwrap_cases text with braced | ⟨lead, urn, lower⟩ | plain
    · exact braced ▸ .braced groups
    · exact urn ▸ .urn lower groups
    · exact plain ▸ .hyphenated groups

theorem read_eq_ok_iff {text : List Char} {id : StatementId} :
    read text = .ok id ↔ (digits? text).bind Hex.decode? = some id.bytes := by
  unfold read
  cases decoded : (digits? text).bind Hex.decode? with
  | none => simp only [reduceCtorEq]
  | some bytes =>
    obtain ⟨octets, sixteen⟩ := id
    simp only [Option.some.injEq]
    constructor
    · intro accepted
      split at accepted
      · cases accepted
        rfl
      · cases accepted
    · rintro rfl
      rw [dif_pos sixteen]

/-- The text of an id is its octets in lower-case digits. -/
theorem hyphenated_text {digits : List Char} {id : StatementId} :
    Hyphenated digits id.text.toList ↔ digits = Hex.encode id.bytes := by
  have whole : (Hex.encode id.bytes).length = 32 := by rw [Hex.length_encode, id.length_eq]
  have written : Hyphenated (Hex.encode id.bytes) id.text.toList :=
    hyphenated_iff.2 ⟨whole, String.toList_ofList⟩
  constructor
  · intro groups
    exact Option.some.inj (groups.ungroup?.symm.trans written.ungroup?)
  · rintro rfl
    exact written

/-- A text is read as an id exactly if it spells the digits of the id's own text, in either case. -/
theorem parse_eq_ok_iff {raw : String} {id : StatementId} : parse raw = .ok id ↔
    ∃ digits, Spelling digits raw.toList ∧ Hyphenated (digits.map Char.toLower) id.text.toList := by
  have accepted : parse raw = .ok id ↔ read raw.toList = .ok id := by
    unfold parse
    cases read raw.toList <;> simp [Except.mapError]
  rw [accepted, read_eq_ok_iff]
  constructor
  · intro decoded
    obtain ⟨digits, found, decoded⟩ := Option.bind_eq_some_iff.1 decoded
    have lower : digits.map Char.toLower = Hex.encode id.bytes := Hex.decode?_eq_some_iff.1 decoded
    have known : ∀ c ∈ digits, c.toLower ∈ Hex.alphabet := fun c member =>
      Hex.mem_alphabet_of_mem (lower ▸ List.mem_map_of_mem member)
    exact ⟨digits, ⟨known, layout_of_digits? found⟩, hyphenated_text.2 lower⟩
  · rintro ⟨digits, spelling, groups⟩
    rw [spelling.digits?, Option.bind_some]
    exact Hex.decode?_eq_some_iff.2 (hyphenated_text.1 groups)

/-! ## Order -/

theorem compare_append {α : Type} [Ord α] {a b : List α} (same : a.length = b.length) (s t : List α) :
    compare (a ++ s) (b ++ t) = (compare a b).then (compare s t) := by
  induction a generalizing b with
  | nil =>
    obtain rfl := List.eq_nil_of_length_eq_zero same.symm
    rfl
  | cons x a ih =>
    obtain ⟨y, b, rfl⟩ := List.exists_cons_of_length_eq_add_one same.symm
    rw [List.cons_append, List.cons_append, List.compare_cons_cons, List.compare_cons_cons,
      ih (Nat.succ.inj same), Ordering.then_assoc]

/-- Two digits are ordered like the octet that they write. -/
theorem compare_ofByte (a b : UInt8) : compare (Hex.ofByte a) (Hex.ofByte b) = compare a b := by
  have digit : ∀ n < 16, ∀ m < 16, compare (Hex.digit n) (Hex.digit m) = compare n m := by decide
  have halves (n m : Nat) : (compare (n / 16) (m / 16)).then (compare (n % 16) (m % 16)) = compare n m := by
    simp only [Nat.compare_eq_ite_lt]
    split_ifs <;> first | rfl | omega
  have octet : compare a.toNat b.toNat = compare a b := by
    change compareOfLessAndEq _ _ = compareOfLessAndEq _ _
    simp only [compareOfLessAndEq, UInt8.lt_iff_toNat_lt, ← UInt8.toNat_inj]
  have := a.toNat_lt
  have := b.toNat_lt
  rw [Hex.ofByte, Hex.ofByte, List.compare_cons_cons, List.compare_cons_cons, digit _ (by omega) _ (by omega),
    digit _ (by omega) _ (by omega), List.compare_nil_nil, Ordering.then_eq, halves, octet]

theorem compare_encode (a b : Bytes) : compare (Hex.encode a) (Hex.encode b) = compare a b := by
  induction a generalizing b with
  | nil =>
    cases b with
    | nil => rfl
    | cons y b => rfl
  | cons x a ih =>
    cases b with
    | nil => rfl
    | cons y b =>
      have two : (Hex.ofByte x).length = (Hex.ofByte y).length := rfl
      rw [Hex.encode, Hex.encode, List.flatMap_cons, List.flatMap_cons, ← Hex.encode, ← Hex.encode,
        compare_append two, compare_ofByte, ih, ← List.compare_cons_cons]

/-- Hyphens in the same places do not change the order. -/
theorem compare_hyphenate {sizes : List Nat} {a b : List Char} (same : a.length = b.length) :
    compare (hyphenate sizes a) (hyphenate sizes b) = compare a b := by
  fun_induction hyphenate sizes a generalizing b with
  | case1 | case2 => rw [hyphenate]
  | case3 size sizes a more ih =>
    have group : (a.take size).length = (b.take size).length := by rw [List.length_take, List.length_take, same]
    have rest := ih (b := b.drop size) (by rw [List.length_drop, List.length_drop, same])
    have hyphen : compare '-' '-' = Ordering.eq := by decide
    calc compare (a.take size ++ '-' :: hyphenate sizes (a.drop size)) (hyphenate (size :: sizes) b)
        = compare (a.take size ++ '-' :: hyphenate sizes (a.drop size))
            (b.take size ++ '-' :: hyphenate sizes (b.drop size)) := by
          rw [hyphenate]
          exact more
      _ = (compare (a.take size) (b.take size)).then (compare (a.drop size) (b.drop size)) := by
          rw [compare_append group, List.compare_cons_cons, hyphen, Ordering.eq_then, rest]
      _ = compare a b := by
          rw [← compare_append group, List.take_append_drop, List.take_append_drop]

/-- Ids are ordered like their texts. -/
theorem compare_text (id id' : StatementId) : compare id.text.toList id'.text.toList = compare id id' := by
  have same : (Hex.encode id.bytes).length = (Hex.encode id'.bytes).length := by
    rw [Hex.length_encode, Hex.length_encode, id.length_eq, id'.length_eq]
  rw [text, text, String.toList_ofList, String.toList_ofList, compare_hyphenate same, compare_encode]
  rfl

/-! ## One meaning, one text -/

/-- The text of an id is thirty-six characters, hyphens between lower-case digits. It reads as the id, and so do all
spellings of its digits and nothing else. So two texts that are read have one meaning exactly if their digits agree up to
case, and ids are ordered like their texts. -/
theorem one_meaning_one_text :
    (∀ id : StatementId, parse id.text = .ok id ∧ id.text.length = 36 ∧
      ∃ digits, Hyphenated digits id.text.toList ∧ ∀ c ∈ digits, c ∈ "0123456789abcdef".toList) ∧
    (∀ (id : StatementId) (digits : List Char) (raw : String), Hyphenated (digits.map Char.toLower) id.text.toList →
      Spelling digits raw.toList → parse raw = .ok id) ∧
    (∀ (raw : String) (id : StatementId), parse raw = .ok id → ∃ digits, Spelling digits raw.toList ∧
      Hyphenated (digits.map Char.toLower) id.text.toList) ∧
    (∀ (raw raw' : String) (id id' : StatementId) (digits digits' : List Char), parse raw = .ok id → parse raw' = .ok id' →
      Spelling digits raw.toList → Spelling digits' raw'.toList →
        (id = id' ↔ digits.map Char.toLower = digits'.map Char.toLower)) ∧
    ∀ id id' : StatementId, compare id id' = compare id.text.toList id'.text.toList := by
  have denoted {raw : String} {id : StatementId} {digits : List Char} (accepted : parse raw = .ok id)
      (spelling : Spelling digits raw.toList) : digits.map Char.toLower = Hex.encode id.bytes := by
    obtain ⟨digits', spelling', groups⟩ := parse_eq_ok_iff.1 accepted
    obtain rfl : digits = digits' := Option.some.inj (spelling.digits?.symm.trans spelling'.digits?)
    exact hyphenated_text.1 groups
  refine ⟨?_, ?_, ?_, ?_, ?_⟩
  · intro id
    have groups : Hyphenated (Hex.encode id.bytes) id.text.toList := hyphenated_text.2 rfl
    refine ⟨?_, groups.length.2, _, groups, fun c => Hex.mem_alphabet_of_mem⟩
    unfold parse
    rw [read_text, Except.mapError]
  · intro id digits raw groups spelling
    exact parse_eq_ok_iff.2 ⟨digits, spelling, groups⟩
  · intro raw id accepted
    exact parse_eq_ok_iff.1 accepted
  · intro raw raw' id id' digits digits' accepted accepted' spelling spelling'
    rw [denoted accepted spelling, denoted accepted' spelling']
    constructor
    · rintro rfl
      rfl
    · intro same
      have bytes : id.bytes = id'.bytes := by
        apply Option.some.inj
        rw [← Hex.decode?_encode id.bytes, same, Hex.decode?_encode]
      cases id
      cases id'
      cases bytes
      rfl
  · intro id id'
    exact (compare_text id id').symm

/-- A URN in upper case and the bare digits are one id. -/
theorem one_meaning_one_text_example :
    let id : StatementId :=
      ⟨[0x67, 0xe5, 0x50, 0x44, 0x10, 0xb1, 0x42, 0x6f, 0x92, 0x47, 0xbb, 0x68, 0x0e, 0x5f, 0xe0, 0xc8], rfl⟩
    let urn := "URN:UUID:67E55044-10B1-426F-9247-BB680E5FE0C8"
    let upper := "67E5504410B1426F9247BB680E5FE0C8".toList
    let bare := "67e5504410b1426f9247bb680e5fe0c8"
    Hyphenated (upper.map Char.toLower) id.text.toList ∧ Hyphenated (bare.toList.map Char.toLower) id.text.toList ∧
      Spelling upper urn.toList ∧ Spelling bare.toList bare.toList ∧ parse urn = .ok id ∧ parse bare = .ok id ∧
      upper.map Char.toLower = bare.toList.map Char.toLower := by
  intro id urn upper bare
  have groups : Hyphenated (upper.map Char.toLower) id.text.toList :=
    ⟨"67e55044".toList, "10b1".toList, "426f".toList, "9247".toList, "bb680e5fe0c8".toList, by decide⟩
  have groups' : Hyphenated (bare.toList.map Char.toLower) id.text.toList :=
    ⟨"67e55044".toList, "10b1".toList, "426f".toList, "9247".toList, "bb680e5fe0c8".toList, by decide⟩
  have hyphenated : Hyphenated upper "67E55044-10B1-426F-9247-BB680E5FE0C8".toList :=
    ⟨"67E55044".toList, "10B1".toList, "426F".toList, "9247".toList, "BB680E5FE0C8".toList, by decide⟩
  have lead : "URN:UUID:".toList.map Char.toLower = "urn:uuid:".toList := by decide
  have known (digits : List Char) (all : digits.all (Hex.alphabet.contains ·.toLower) = true) :
      ∀ c ∈ digits, c.toLower ∈ Hex.alphabet :=
    fun c member => List.contains_iff_mem.1 (List.all_eq_true.1 all c member)
  have whole : urn.toList = "URN:UUID:".toList ++ "67E55044-10B1-426F-9247-BB680E5FE0C8".toList := by decide
  have spelledUrn : Spelling upper urn.toList := ⟨known upper rfl, whole ▸ .urn lead hyphenated⟩
  have spelledBare : Spelling bare.toList bare.toList := ⟨known bare.toList (by decide), .bare (by decide)⟩
  obtain ⟨-, spelled, -, same, -⟩ := one_meaning_one_text
  have first : parse urn = .ok id := spelled id upper urn groups spelledUrn
  have second : parse bare = .ok id := spelled id bare.toList bare groups' spelledBare
  have digits : upper.map Char.toLower = bare.toList.map Char.toLower :=
    (same urn bare id id upper bare.toList first second spelledUrn spelledBare).1 rfl
  exact ⟨groups, groups', spelledUrn, spelledBare, first, second, digits⟩

end StatementId
end ChainArchive
