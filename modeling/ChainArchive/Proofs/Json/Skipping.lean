import ChainArchive.Proofs.Json.Literals
import ChainArchive.Proofs.Json.Spelling
import Mathlib.Data.List.Basic

/-!
# What is skipped is a value

The machine that skips a value takes one octet at a time. Its mode says what of
the innermost value is still to come, and its stack what of the containers
around it. So whatever the machine passes over, one octet added in front of what
is owed then is owed now, and in the end what has been skipped is one value.
-/

namespace ChainArchive.Json
set_option autoImplicit false

variable {text text' rest : Bytes}

/-! ## Whitespace in front -/

theorem Stands.of_skipSpace {place : Place} {value : Value} (h : Stands place value text rest)
    (same : skipSpace text' = skipSpace text) : Stands place value text' rest := by
  cases h with
  | null word => exact .null (same.trans word)
  | false word => exact .false (same.trans word)
  | true word => exact .true (same.trans word)
  | number numeral here => exact .number numeral (same.trans here)
  | string quote literal => exact .string (same.trans quote) literal
  | array bracket elements => exact .array (same.trans bracket) elements
  | object brace entries => exact .object (same.trans brace) entries

theorem Elements.of_skipSpace {places : Nat → Place} {first : Bool} {values : List Value}
    (h : Elements places first values text rest) (same : skipSpace text' = skipSpace text) :
    Elements places first values text' rest := by
  cases h with
  | close bracket => exact .close (same.trans bracket)
  | cons next stands more =>
    cases first with
    | true =>
      obtain rfl := next
      exact .cons rfl (stands.of_skipSpace same) more
    | false => exact .cons (same.trans next) stands more

theorem Entries.of_skipSpace {place : Bytes → Place} {first : Bool} {entries : List (Bytes × Value)}
    (h : Entries place first entries text rest) (same : skipSpace text' = skipSpace text) :
    Entries place first entries text' rest := by
  cases h with
  | close brace => exact .close (same.trans brace)
  | cons next quote literal colon stands more =>
    cases first with
    | true =>
      obtain rfl := next
      exact .cons rfl (same.trans quote) literal colon stands more
    | false => exact .cons (same.trans next) quote literal colon stands more

theorem skipSpace_space {byte : UInt8} (space : isSpace byte = true) (text : Bytes) :
    skipSpace (byte :: text) = skipSpace text := by
  rw [skipSpace, List.dropWhile_cons_of_pos space, skipSpace]

/-! ## What is owed -/

/-- Behind a value, the text goes on with the other items of the containers around it, to their ends. -/
def Finishes : List Container → Bytes → Bytes → Prop
  | [], text, rest => text = rest
  | .array :: outer, text, rest =>
    ∃ values after, Elements Place.json.element false values text after ∧ Finishes outer after rest
  | .object :: outer, text, rest =>
    ∃ entries after, Entries Place.json.entry false entries text after ∧ Finishes outer after rest

/-- A value is owed. -/
def OwesValue (stack : List Container) (text rest : Bytes) : Prop :=
  ∃ value after, Stands .json value text after ∧ Finishes stack after rest

/-- A colon and a value are owed. -/
def OwesField (stack : List Container) (text rest : Bytes) : Prop :=
  ∃ field, skipSpace text = 58 :: field ∧ OwesValue stack field rest

/-- The rest of a string is owed, and a value behind it if the string is a key. -/
def OwesString (isKey : Bool) (stack : List Container) (text rest : Bytes) : Prop :=
  ∃ octets after, Literal .json octets text after ∧
    if isKey then OwesField stack after rest else Finishes stack after rest

/-- What may be missing of a number. -/
def Remains : SkipMode → Bytes → Prop
  | .minus, literal => ∃ whole fraction exponent, literal = whole ++ (fraction ++ exponent) ∧ Whole whole ∧
    Fraction fraction ∧ Exponent exponent
  | .zero, literal => ∃ fraction exponent, literal = fraction ++ exponent ∧ Fraction fraction ∧ Exponent exponent
  | .whole, literal => ∃ digits fraction exponent, literal = digits ++ (fraction ++ exponent) ∧
    (∀ byte ∈ digits, isDigit byte = true) ∧ Fraction fraction ∧ Exponent exponent
  | .point, literal => ∃ digits exponent, literal = digits ++ exponent ∧ Digits digits ∧ Exponent exponent
  | .fraction, literal => ∃ digits exponent, literal = digits ++ exponent ∧ (∀ byte ∈ digits, isDigit byte = true) ∧
    Exponent exponent
  | .exponent, literal => ∃ sign digits, literal = sign ++ digits ∧ (sign = [] ∨ sign = [43] ∨ sign = [45]) ∧ Digits digits
  | .exponentSign, literal => Digits literal
  | .power, literal => ∀ byte ∈ literal, isDigit byte = true
  | _, _ => False

/-- The rest of a number is owed. -/
def OwesNumber (mode : SkipMode) (stack : List Container) (text rest : Bytes) : Prop :=
  ∃ literal after, text = literal ++ after ∧ Remains mode literal ∧ Finishes stack after rest

/-- What the machine still needs in this mode, with these containers open. -/
def Owes : SkipMode → List Container → Bytes → Bytes → Prop
  | .value, stack, text, rest => OwesValue stack text rest
  | .firstElement, stack, text, rest => ∀ outer, stack = .array :: outer →
    ∃ values after, Elements Place.json.element true values text after ∧ Finishes outer after rest
  | .firstKey, stack, text, rest => ∀ outer, stack = .object :: outer →
    ∃ entries after, Entries Place.json.entry true entries text after ∧ Finishes outer after rest
  | .key, stack, text, rest => ∃ key, skipSpace text = 34 :: key ∧ OwesString true stack key rest
  | .colon, stack, text, rest => OwesField stack text rest
  | .after, stack, text, rest => stack ≠ [] → Finishes stack text rest
  | .word letters, stack, text, rest => ∃ after, text = letters ++ after ∧ Finishes stack after rest
  | .inString isKey, stack, text, rest => OwesString isKey stack text rest
  | .escape isKey, stack, text, rest => OwesString isKey stack (92 :: text) rest
  | .hexEscape isKey left sound, stack, text, rest => 0 < left → sound = true ∧ ∀ digits : Bytes,
    digits.length + left = 4 → (∀ byte ∈ digits, (Hex.value? (Char.ofNat byte.toNat)).isSome = true) →
      OwesString isKey stack (92 :: 117 :: (digits ++ text)) rest
  | mode, stack, text, rest => OwesNumber mode stack text rest

/-- What is owed after a move, counted from before the octet. -/
def Pays (move : SkipMove) (byte : UInt8) (text rest : Bytes) : Prop :=
  match move with
  | .go mode stack => Owes mode stack text rest
  | .endBefore => byte :: text = rest
  | .endAfter => text = rest
  | .fail _ => False

/-! ## Containers -/

section Steps

variable {stack outer : List Container} {byte : UInt8}

/-- Of a value that ended with this octet nothing is owed; what follows is up to the containers. -/
theorem finishes_of_valueEnded (h : Pays (valueEnded stack) byte text rest) : Finishes stack text rest := by
  cases stack with
  | nil => exact h
  | cons container outer => exact h (List.cons_ne_nil _ _)

theorem Finishes.space (h : Finishes stack text rest) (some : stack ≠ []) (space : isSpace byte = true) :
    Finishes stack (byte :: text) rest := by
  have same : skipSpace (byte :: text) = skipSpace text := skipSpace_space space text
  match stack, some, h with
  | .array :: outer, _, ⟨values, after, elements, finishes⟩ =>
    exact ⟨values, after, elements.of_skipSpace same, finishes⟩
  | .object :: outer, _, ⟨entries, after, entries', finishes⟩ =>
    exact ⟨entries, after, entries'.of_skipSpace same, finishes⟩

/-- A key that is owed behind a comma continues its object. -/
theorem entries_of_owesKey {first : Bool} {item key : Bytes} (next : Next first text item)
    (quote : skipSpace item = 34 :: key) (h : OwesString true (.object :: outer) key rest) :
    ∃ entries after, Entries Place.json.entry first entries text after ∧ Finishes outer after rest := by
  obtain ⟨name, behind, literal, field, colon, value, after, stands, entries, end', more, finishes⟩ := h
  exact ⟨_, end', .cons next quote literal colon stands more, finishes⟩

theorem finishes_of_afterValue (some : stack ≠ []) (h : Pays (afterValue stack byte) byte text rest) :
    Finishes stack (byte :: text) rest := by
  unfold afterValue at h
  split at h
  · next space => exact (h some).space some space
  · split at h
    · exact absurd rfl some
    · obtain ⟨value, after, stands, values, end', more, finishes⟩ := h
      exact ⟨value :: values, end', .cons (skipSpace_cons (by decide) text) stands more, finishes⟩
    · obtain ⟨key, quote, owes⟩ := h
      exact entries_of_owesKey (skipSpace_cons (by decide) text) quote owes
    · exact ⟨[], text, .close (skipSpace_cons (by decide) text), finishes_of_valueEnded h⟩
    · exact ⟨[], text, .close (skipSpace_cons (by decide) text), finishes_of_valueEnded h⟩
    · exact h.elim

/-- A number that ended before this octet. -/
theorem finishes_of_afterNumber (h : Pays (afterNumber stack byte) byte text rest) : Finishes stack (byte :: text) rest := by
  unfold afterNumber at h
  cases stack with
  | nil => exact h
  | cons container outer => exact finishes_of_afterValue (List.cons_ne_nil _ _) h

/-! ## Numbers -/

theorem owesNumber_of_afterWhole (h : Pays (afterWhole stack byte) byte text rest) :
    OwesNumber .zero stack (byte :: text) rest := by
  unfold afterWhole at h
  split at h
  · next point =>
    obtain rfl : byte = 46 := eq_of_beq point
    obtain ⟨_, after, rfl, ⟨digits, exponent, rfl, some, isExponent⟩, finishes⟩ := h
    exact ⟨46 :: (digits ++ exponent), after, rfl,
      ⟨46 :: digits, exponent, rfl, .inr ⟨digits, rfl, some⟩, isExponent⟩, finishes⟩
  · split at h
    · next mark =>
      obtain ⟨_, after, rfl, ⟨sign, digits, rfl, isSign, some⟩, finishes⟩ := h
      have isMark : byte = 101 ∨ byte = 69 := by simpa using mark
      exact ⟨byte :: (sign ++ digits), after, rfl,
        ⟨[], byte :: (sign ++ digits), rfl, .inl rfl, .inr ⟨byte, sign, digits, rfl, isMark, isSign, some⟩⟩, finishes⟩
    · exact ⟨[], byte :: text, rfl, ⟨[], [], rfl, .inl rfl, .inl rfl⟩, finishes_of_afterNumber h⟩

/-- An octet in front of what remains of a number. -/
theorem OwesNumber.push {mode mode' : SkipMode} (h : OwesNumber mode stack text rest)
    (push : ∀ literal, Remains mode literal → Remains mode' (byte :: literal)) :
    OwesNumber mode' stack (byte :: text) rest := by
  obtain ⟨literal, after, rfl, remains, finishes⟩ := h
  exact ⟨byte :: literal, after, rfl, push literal remains, finishes⟩

/-- A number that may end here. -/
theorem OwesNumber.ended {mode : SkipMode} (h : Finishes stack text rest) (none : Remains mode []) :
    OwesNumber mode stack text rest :=
  ⟨[], text, rfl, none, h⟩

theorem forall_cons_digit {digits : Bytes} (digit : isDigit byte = true) (all : ∀ byte ∈ digits, isDigit byte = true) :
    ∀ byte' ∈ byte :: digits, isDigit byte' = true :=
  List.forall_mem_cons.2 ⟨digit, all⟩

/-- One octet of a number. -/
theorem owesNumber_of_skipMove {mode : SkipMode}
    (number : mode ∈ [.minus, .zero, .whole, .point, .fraction, .exponent, .exponentSign, .power])
    (h : Pays (skipMove mode stack byte) byte text rest) : OwesNumber mode stack (byte :: text) rest := by
  cases mode with
  | minus =>
    simp only [skipMove] at h
    split at h
    · next zero =>
      obtain rfl : byte = 48 := eq_of_beq zero
      apply OwesNumber.push h
      rintro _ ⟨fraction, exponent, rfl, parts⟩
      exact ⟨[48], fraction, exponent, rfl, .inl rfl, parts⟩
    · next noZero =>
      split at h
      · next digit =>
        apply OwesNumber.push h
        rintro _ ⟨digits, fraction, exponent, rfl, all, parts⟩
        refine ⟨byte :: digits, fraction, exponent, rfl,
          .inr ⟨⟨List.cons_ne_nil _ _, forall_cons_digit digit all⟩, ?_⟩, parts⟩
        intro zero
        exact noZero (beq_iff_eq.2 (Option.some.inj zero))
      · exact h.elim
  | zero =>
    simp only [skipMove] at h
    split at h
    · exact h.elim
    · exact owesNumber_of_afterWhole h
  | whole =>
    simp only [skipMove] at h
    split at h
    · next digit =>
      apply OwesNumber.push h
      rintro _ ⟨digits, fraction, exponent, rfl, all, parts⟩
      exact ⟨byte :: digits, fraction, exponent, rfl, forall_cons_digit digit all, parts⟩
    · obtain ⟨_, after, whole, ⟨fraction, exponent, rfl, parts⟩, finishes⟩ := owesNumber_of_afterWhole h
      exact ⟨_, after, whole, ⟨[], fraction, exponent, rfl, nofun, parts⟩, finishes⟩
  | point =>
    simp only [skipMove] at h
    split at h
    · next digit =>
      apply OwesNumber.push h
      rintro _ ⟨digits, exponent, rfl, all, isExponent⟩
      exact ⟨byte :: digits, exponent, rfl, ⟨List.cons_ne_nil _ _, forall_cons_digit digit all⟩, isExponent⟩
    · exact h.elim
  | fraction =>
    simp only [skipMove] at h
    split at h
    · next digit =>
      apply OwesNumber.push h
      rintro _ ⟨digits, exponent, rfl, all, isExponent⟩
      exact ⟨byte :: digits, exponent, rfl, forall_cons_digit digit all, isExponent⟩
    · split at h
      · next mark =>
        have isMark : byte = 101 ∨ byte = 69 := by simpa using mark
        apply OwesNumber.push h
        rintro _ ⟨sign, digits, rfl, isSign, some⟩
        exact ⟨[], _, rfl, nofun, .inr ⟨byte, sign, digits, rfl, isMark, isSign, some⟩⟩
      · exact .ended (finishes_of_afterNumber h) ⟨[], [], rfl, nofun, .inl rfl⟩
  | exponent =>
    simp only [skipMove] at h
    split at h
    · next sign =>
      have isSign : byte = 43 ∨ byte = 45 := by simpa using sign
      apply OwesNumber.push h
      intro digits some
      exact ⟨[byte], digits, rfl, .inr (isSign.imp (congrArg ([·])) (congrArg ([·]))), some⟩
    · split at h
      · next digit =>
        apply OwesNumber.push h
        intro digits all
        exact ⟨[], byte :: digits, rfl, .inl rfl, List.cons_ne_nil _ _, forall_cons_digit digit all⟩
      · exact h.elim
  | exponentSign =>
    simp only [skipMove] at h
    split at h
    · next digit =>
      apply OwesNumber.push h
      intro digits all
      exact ⟨List.cons_ne_nil _ _, forall_cons_digit digit all⟩
    · exact h.elim
  | power =>
    simp only [skipMove] at h
    split at h
    · next digit =>
      apply OwesNumber.push h
      intro digits all
      exact forall_cons_digit digit all
    · exact .ended (finishes_of_afterNumber h) nofun
  | _ => simp at number

/-! ## Strings -/

/-- The escape of a code in front of a literal. -/
theorem Literal.escape {a b c d : UInt8} {code : Nat} {octets : Bytes} (digits : hexUnit? a b c d = some code)
    (more : Literal .json octets text rest) :
    ∃ octets, Literal .json octets (92 :: 117 :: a :: b :: c :: d :: text) rest := by
  by_cases isTrail' : isTrail code = true
  · exact ⟨_, .lone nofun digits (.inr isTrail') more⟩
  · by_cases isLead' : isLead code = true
    · by_cases follows : TrailFollows text
      · obtain ⟨a', b', c', d', trail, tail, rfl, digits', isTrail''⟩ := follows
        obtain ⟨char, pair⟩ := exists_pair isLead' isTrail''
        have behind : ∃ octets, Literal .json octets tail rest := by
          cases more with
          | plain _ noBackslash => exact absurd rfl noBackslash
          | letter stands => cases stands
          | unit _ more => exact ⟨_, more⟩
          | lone _ _ _ more => exact ⟨_, more⟩
          | pair first _ isLead'' =>
            rw [digits'] at first
            cases first
            rw [isTrail_of_isLead isLead''] at isTrail''
            cases isTrail''
        obtain ⟨octets, behind⟩ := behind
        exact ⟨_, .pair digits digits' isLead' isTrail'' pair behind⟩
      · exact ⟨_, .lone nofun digits (.inl ⟨isLead', follows⟩) more⟩
    · obtain ⟨c, rfl⟩ := exists_char (Nat.lt_trans (lt_of_hexUnit? digits) (by decide)) (eq_false_of_ne_true isLead')
        (eq_false_of_ne_true isTrail')
      exact ⟨_, .unit digits more⟩

theorem exists_hexUnit {a b c d : UInt8}
    (known : ∀ byte ∈ [a, b, c, d], (Hex.value? (Char.ofNat byte.toNat)).isSome = true) :
    ∃ code, hexUnit? a b c d = some code := by
  simp only [List.forall_mem_cons, Option.isSome_iff_exists] at known
  obtain ⟨⟨a', ha⟩, ⟨b', hb⟩, ⟨c', hc⟩, ⟨d', hd⟩, -⟩ := known
  exact ⟨a' * 4096 + b' * 256 + c' * 16 + d', by simp only [hexUnit?, ha, hb, hc, hd]; rfl⟩

theorem OwesString.push {isKey : Bool} {text' : Bytes} (h : OwesString isKey stack text rest)
    (push : ∀ octets after, Literal .json octets text after → ∃ octets, Literal .json octets text' after) :
    OwesString isKey stack text' rest := by
  obtain ⟨octets, after, literal, follows⟩ := h
  obtain ⟨octets', literal'⟩ := push octets after literal
  exact ⟨octets', after, literal', follows⟩

/-- One octet inside a string. -/
theorem owesString_of_skipMove {isKey : Bool} (h : Pays (skipMove (.inString isKey) stack byte) byte text rest) :
    OwesString isKey stack (byte :: text) rest := by
  simp only [skipMove] at h
  split at h
  · next quote =>
    obtain rfl : byte = 34 := eq_of_beq quote
    refine ⟨[], text, .close, ?_⟩
    cases isKey with
    | true => exact h
    | false => exact finishes_of_valueEnded h
  · next noQuote =>
    split at h
    · next backslash =>
      obtain rfl : byte = 92 := eq_of_beq backslash
      exact h
    · next noBackslash =>
      split at h
      · exact h.elim
      · next printable =>
        apply OwesString.push h
        intro octets after literal
        exact ⟨byte :: octets, .plain (by simpa using noQuote) (by simpa using noBackslash)
          (fun _ => UInt8.not_lt.1 printable) literal⟩

/-- One octet of an escape. -/
theorem owesString_of_escape {isKey : Bool} (h : Pays (skipMove (.escape isKey) stack byte) byte text rest) :
    OwesString isKey stack (92 :: byte :: text) rest := by
  simp only [skipMove] at h
  split at h
  · next unit =>
    obtain rfl : byte = 117 := eq_of_beq unit
    exact (h (by decide)).2 [] rfl nofun
  · split at h
    · next known =>
      obtain ⟨stands, known⟩ := Option.isSome_iff_exists.1 known
      apply OwesString.push h
      intro octets after literal
      exact ⟨stands :: octets, .letter known literal⟩
    · exact h.elim

/-- One digit of an escape. -/
theorem owes_of_hexEscape {isKey sound : Bool} {left : Nat}
    (h : Pays (skipMove (.hexEscape isKey left sound) stack byte) byte text rest) :
    Owes (.hexEscape isKey left sound) stack (byte :: text) rest := by
  intro some
  simp only [skipMove] at h
  split at h
  · next more =>
    obtain ⟨sound', owes⟩ := h (by omega)
    obtain ⟨sound, digit⟩ := Bool.and_eq_true_iff.1 sound'
    refine ⟨sound, fun digits length all => ?_⟩
    have owes' := owes (digits ++ [byte]) (by rw [List.length_append, List.length_singleton]; omega)
      (List.forall_mem_append.2 ⟨all, List.forall_mem_singleton.2 digit⟩)
    rwa [List.append_assoc] at owes'
  · next last =>
    split at h
    · next sound' =>
      obtain ⟨sound, digit⟩ := Bool.and_eq_true_iff.1 sound'
      refine ⟨sound, fun digits length all => ?_⟩
      obtain ⟨a, b, c, rfl⟩ := List.length_eq_three.1 (show digits.length = 3 by omega)
      obtain ⟨code, unit⟩ := exists_hexUnit (List.forall_mem_append.2 ⟨all, List.forall_mem_singleton.2 digit⟩)
      exact OwesString.push h fun _ _ literal => literal.escape unit
    · exact h.elim

/-! ## Steps -/

/-- The first octet of a value. -/
theorem owesValue_of_beginValue (visible : isSpace byte = false) (h : Pays (beginValue stack byte) byte text rest) :
    OwesValue stack (byte :: text) rest := by
  have here : skipSpace (byte :: text) = byte :: text := skipSpace_cons visible text
  have number {mode : SkipMode} (h : OwesNumber mode stack text rest)
      (push : ∀ literal, Remains mode literal → Numeral (byte :: literal)) : OwesValue stack (byte :: text) rest := by
    obtain ⟨literal, after, rfl, remains, finishes⟩ := h
    exact ⟨_, after, .number (push literal remains) here, finishes⟩
  unfold beginValue at h
  split at h
  · obtain ⟨after, rfl, finishes⟩ := h
    exact ⟨.null, after, .null here, finishes⟩
  · obtain ⟨after, rfl, finishes⟩ := h
    exact ⟨.boolean true, after, .true here, finishes⟩
  · obtain ⟨after, rfl, finishes⟩ := h
    exact ⟨.boolean false, after, .false here, finishes⟩
  · obtain ⟨octets, after, literal, finishes⟩ := h
    exact ⟨.string octets, after, .string here literal, finishes⟩
  · apply number h
    rintro _ ⟨whole, fraction, exponent, rfl, parts⟩
    exact ⟨[45], whole, fraction, exponent, rfl, .inr rfl, parts⟩
  · apply number h
    rintro _ ⟨fraction, exponent, rfl, parts⟩
    exact ⟨[], [48], fraction, exponent, rfl, .inl rfl, .inl rfl, parts⟩
  · obtain ⟨values, after, elements, finishes⟩ := h stack rfl
    exact ⟨.array values, after, .array here elements, finishes⟩
  · obtain ⟨entries, after, entries', finishes⟩ := h stack rfl
    exact ⟨.object entries, after, .object here entries', finishes⟩
  · next noZero _ _ =>
    split at h
    · next digit =>
      apply number h
      rintro _ ⟨digits, fraction, exponent, rfl, all, parts⟩
      refine ⟨[], byte :: digits, fraction, exponent, rfl, .inl rfl,
        .inr ⟨⟨List.cons_ne_nil _ _, forall_cons_digit digit all⟩, ?_⟩, parts⟩
      intro zero
      exact noZero (Option.some.inj zero)
    · exact h.elim

/-- One octet: what is owed behind it is owed, with the octet, before. -/
theorem owes_of_skipMove {mode : SkipMode} (h : Pays (skipMove mode stack byte) byte text rest) :
    Owes mode stack (byte :: text) rest := by
  have skipped (space : isSpace byte = true) : skipSpace (byte :: text) = skipSpace text := skipSpace_space space text
  have visible (noSpace : ¬ isSpace byte = true) : skipSpace (byte :: text) = byte :: text :=
    skipSpace_cons (eq_false_of_ne_true noSpace) text
  cases mode with
  | value =>
    simp only [skipMove] at h
    split at h
    · next space =>
      obtain ⟨value, after, stands, finishes⟩ := h
      exact ⟨value, after, stands.of_skipSpace (skipped space), finishes⟩
    · next noSpace => exact owesValue_of_beginValue (eq_false_of_ne_true noSpace) h
  | firstElement =>
    rintro outer rfl
    simp only [skipMove] at h
    split at h
    · next space =>
      obtain ⟨values, after, elements, finishes⟩ := h outer rfl
      exact ⟨values, after, elements.of_skipSpace (skipped space), finishes⟩
    · next noSpace =>
      split at h
      · next bracket =>
        obtain rfl : byte = 93 := eq_of_beq bracket
        exact ⟨[], text, .close (visible noSpace), finishes_of_valueEnded h⟩
      · obtain ⟨value, after, stands, values, end', more, finishes⟩ :=
          owesValue_of_beginValue (eq_false_of_ne_true noSpace) h
        exact ⟨value :: values, end', .cons rfl stands more, finishes⟩
  | firstKey =>
    rintro outer rfl
    simp only [skipMove] at h
    split at h
    · next space =>
      obtain ⟨entries, after, entries', finishes⟩ := h outer rfl
      exact ⟨entries, after, entries'.of_skipSpace (skipped space), finishes⟩
    · next noSpace =>
      split at h
      · next brace =>
        obtain rfl : byte = 125 := eq_of_beq brace
        exact ⟨[], text, .close (visible noSpace), finishes_of_valueEnded h⟩
      · split at h
        · next quote =>
          obtain rfl : byte = 34 := eq_of_beq quote
          exact entries_of_owesKey rfl (visible noSpace) h
        · exact h.elim
  | key =>
    simp only [skipMove] at h
    split at h
    · next space =>
      obtain ⟨key, quote, owes⟩ := h
      exact ⟨key, (skipped space).trans quote, owes⟩
    · next noSpace =>
      split at h
      · next quote =>
        obtain rfl : byte = 34 := eq_of_beq quote
        exact ⟨text, visible noSpace, h⟩
      · exact h.elim
  | colon =>
    simp only [skipMove] at h
    split at h
    · next space =>
      obtain ⟨field, colon, owes⟩ := h
      exact ⟨field, (skipped space).trans colon, owes⟩
    · next noSpace =>
      split at h
      · next colon =>
        obtain rfl : byte = 58 := eq_of_beq colon
        exact ⟨text, visible noSpace, h⟩
      · exact h.elim
  | after => exact fun some => finishes_of_afterValue some h
  | word letters =>
    cases letters with
    | nil => exact h.elim
    | cons letter letters =>
      simp only [skipMove] at h
      split at h
      · exact h.elim
      · next same =>
        obtain rfl : byte = letter := by simpa using same
        split at h
        · next last =>
          obtain rfl := List.isEmpty_iff.1 last
          exact ⟨text, rfl, finishes_of_valueEnded h⟩
        · obtain ⟨after, rfl, finishes⟩ := h
          exact ⟨after, rfl, finishes⟩
  | inString isKey => exact owesString_of_skipMove h
  | escape isKey => exact owesString_of_escape h
  | hexEscape isKey left sound => exact owes_of_hexEscape h
  | minus | zero | whole | point | fraction | exponent | exponentSign | power => exact owesNumber_of_skipMove (by decide) h

end Steps

/-! ## Runs -/

/-- A number may end where the text does. -/
theorem owes_of_skipEnd {mode : SkipMode} {stack : List Container} (h : skipEnd mode stack = .ok rest) :
    Owes mode stack [] rest := by
  have ended (none : Remains mode [])
      (ends : (if stack.isEmpty then .ok [] else .error .truncated : Except Fault Bytes) = .ok rest) :
      OwesNumber mode stack [] rest := by
    split at ends
    · next outermost =>
      obtain rfl := List.isEmpty_iff.1 outermost
      exact .ended (Except.ok.inj ends) none
    · cases ends
  cases mode with
  | zero => exact ended ⟨[], [], rfl, .inl rfl, .inl rfl⟩ h
  | whole => exact ended ⟨[], [], [], rfl, nofun, .inl rfl, .inl rfl⟩ h
  | fraction => exact ended ⟨[], [], rfl, nofun, .inl rfl⟩ h
  | power => exact ended nofun h
  | _ => cases h

/-- What the machine passes over is what it needs. -/
theorem owes_of_skipFrom {mode : SkipMode} {stack : List Container} (h : skipFrom mode stack text = .ok rest) :
    Owes mode stack text rest := by
  induction text generalizing mode stack with
  | nil => exact owes_of_skipEnd h
  | cons byte text ih =>
    apply owes_of_skipMove
    rw [skipFrom] at h
    cases move : skipMove mode stack byte with
    | go mode stack =>
      rw [move] at h
      exact ih h
    | endBefore =>
      rw [move] at h
      exact Except.ok.inj h
    | endAfter =>
      rw [move] at h
      exact Except.ok.inj h
    | fail fault =>
      rw [move] at h
      cases h

/-- What is skipped is a value. -/
theorem skipValue_sound (h : skipValue text = .ok rest) : ∃ value, Stands .json value text rest := by
  obtain ⟨value, after, stands, rfl⟩ := owes_of_skipFrom h
  exact ⟨value, stands⟩

/-- A control character has to be escaped, also in a key; a lone surrogate may stand. -/
example : skipValue (Bytes.ofText "\x7b\"a\\tb\":\"\\ud800\"\x7d") = .ok [] ∧
    skipValue (Bytes.ofText "\x7b\"a\tb\":1\x7d") = .error .malformed ∧
    skipValue (Bytes.ofText "[\"a\tb\"]") = .error .malformed := ⟨rfl, rfl, rfl⟩

end ChainArchive.Json
