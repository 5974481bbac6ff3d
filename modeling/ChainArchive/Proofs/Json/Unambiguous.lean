import ChainArchive.Proofs.Json.Literals
import ChainArchive.Proofs.Json.Spelling
import Mathlib.Tactic.Common

/-!
# A text is one value at most

How a value begins tells of what kind it is, and from there on each rule of the
grammar leaves one way to go on, whatever is read there. Only a number might end
early; but behind the items of a list, and at the end of a document, there stands
what no number goes on with.
-/

namespace ChainArchive.Json
set_option autoImplicit false

variable {text rest rest' : Bytes}

/-! ## Numbers -/

/-- An octet that may stand in a number. -/
def isNumeric (byte : UInt8) : Bool :=
  isDigit byte || byte == 43 || byte == 45 || byte == 46 || byte == 69 || byte == 101

theorem isNumeric_of_isDigit {byte : UInt8} (digit : isDigit byte = true) : isNumeric byte = true := by
  simp [isNumeric, digit]

theorem Numeral.numeric {literal : Bytes} (numeral : Numeral literal) : ∀ byte ∈ literal, isNumeric byte = true := by
  have numeric {digits : Bytes} (digits' : Digits digits) : ∀ byte ∈ digits, isNumeric byte = true :=
    fun byte member => isNumeric_of_isDigit (digits'.2 byte member)
  obtain ⟨sign, whole, fraction, exponent, rfl, isSign, isWhole, isFraction, isExponent⟩ := numeral
  refine List.forall_mem_append.2 ⟨?_, List.forall_mem_append.2 ⟨?_, List.forall_mem_append.2 ⟨?_, ?_⟩⟩⟩
  · rcases isSign with rfl | rfl
    · exact nofun
    · exact List.forall_mem_singleton.2 rfl
  · rcases isWhole with rfl | ⟨digits, -⟩
    · exact List.forall_mem_singleton.2 rfl
    · exact numeric digits
  · rcases isFraction with rfl | ⟨digits, rfl, isDigits⟩
    · exact nofun
    · exact List.forall_mem_cons.2 ⟨rfl, numeric isDigits⟩
  · rcases isExponent with rfl | ⟨mark, sign, digits, rfl, isMark, isSign, isDigits⟩
    · exact nofun
    · refine List.forall_mem_cons.2 ⟨?_, List.forall_mem_append.2 ⟨?_, numeric isDigits⟩⟩
      · rcases isMark with rfl | rfl <;> rfl
      · rcases isSign with rfl | rfl | rfl
        · exact nofun
        · exact List.forall_mem_singleton.2 rfl
        · exact List.forall_mem_singleton.2 rfl

/-- What no number goes on with. -/
def Ended (rest : Bytes) : Prop := ∀ byte ∈ rest.head?, isNumeric byte = false

theorem isNumeric_of_isSpace {byte : UInt8} (space : isSpace byte = true) : isNumeric byte = false := by
  simp only [isSpace, Bool.or_eq_true, beq_iff_eq] at space
  rcases space with ((rfl | rfl) | rfl) | rfl <;> rfl

/-- A number ends at whitespace, and at what stands behind it. -/
theorem ended_of_skipSpace (apart : ∀ byte ∈ (skipSpace rest).head?, isNumeric byte = false) : Ended rest := by
  cases rest with
  | nil => exact nofun
  | cons byte rest =>
    intro first here
    obtain rfl := Option.some.inj here
    by_cases space : isSpace byte = true
    · exact isNumeric_of_isSpace space
    · rw [skipSpace_cons (eq_false_of_ne_true space)] at apart
      exact apart byte rfl

theorem ended_of_begins {byte : UInt8} {more : Bytes} (begins : skipSpace rest = byte :: more)
    (apart : isNumeric byte = false) : Ended rest :=
  ended_of_skipSpace (by simp [begins, apart])

theorem takeWhile_numeral {literal : Bytes} (numeral : Numeral literal) (ended : Ended rest) :
    (literal ++ rest).takeWhile isNumeric = literal := by
  rw [List.takeWhile_append_of_pos numeral.numeric]
  cases rest with
  | nil => simp
  | cons byte rest => simp [ended byte rfl]

theorem Numeral.ne_nil {literal : Bytes} (numeral : Numeral literal) : literal ≠ [] := by
  obtain ⟨sign, whole, fraction, exponent, rfl, -, isWhole, -, -⟩ := numeral
  have some : whole ≠ [] := by
    rcases isWhole with rfl | ⟨digits, -⟩
    · exact List.cons_ne_nil _ _
    · exact digits.1
  simp [some]

theorem Numeral.unique {literal literal' : Bytes} (numeral : Numeral literal) (numeral' : Numeral literal')
    (ended : Ended rest) (ended' : Ended rest') (same : literal ++ rest = literal' ++ rest') :
    literal = literal' ∧ rest = rest' := by
  have longest : literal = literal' := by
    rw [← takeWhile_numeral numeral ended, same, takeWhile_numeral numeral' ended']
  subst longest
  exact ⟨rfl, List.append_cancel_left same⟩

/-! ## Literals -/

theorem Literal.unique {kind kind' : LiteralKind} {octets octets' : Bytes} (literal : Literal kind octets text rest)
    (literal' : Literal kind' octets' text rest') : octets = octets' ∧ rest = rest' := by
  have read := readByteString_eq_ok_iff.2 literal.asOctets
  rw [readByteString_eq_ok_iff.2 literal'.asOctets] at read
  cases read
  exact ⟨rfl, rfl⟩

/-! ## Kinds -/

/-- What a value is before it is looked into. -/
inductive Kind
  | null
  | false
  | true
  | number
  | string
  | array
  | object

def Value.kind : Value → Kind
  | .null => .null
  | .boolean false => .false
  | .boolean true => .true
  | .number _ => .number
  | .string _ => .string
  | .array _ => .array
  | .object _ => .object

/-- The kind of value that begins with an octet, if any does. -/
def Kind.opened (byte : UInt8) : Option Kind :=
  if isNumeric byte then some .number
  else if byte = 110 then some .null
  else if byte = 102 then some .false
  else if byte = 116 then some .true
  else if byte = 34 then some .string
  else if byte = 91 then some .array
  else if byte = 123 then some .object
  else none

theorem Stands.opened {place : Place} {value : Value} (stands : Stands place value text rest) :
    (skipSpace text).head?.bind Kind.opened = some value.kind := by
  cases stands with
  | null start | false start | true start | string start | array start | object start =>
    rw [start]
    rfl
  | number numeral here =>
    obtain ⟨byte, more, rfl⟩ := List.exists_cons_of_ne_nil numeral.ne_nil
    rw [here]
    exact if_pos (numeral.numeric byte List.mem_cons_self)

/-! ## Lists -/

theorem Elements.ended {places : Nat → Place} {values : List Value} (elements : Elements places false values text rest) :
    Ended text := by
  cases elements with
  | close bracket => exact ended_of_begins bracket rfl
  | cons next => exact ended_of_begins next rfl

theorem Entries.ended {place : Bytes → Place} {entries : List (Bytes × Value)}
    (elements : Entries place false entries text rest) : Ended text := by
  cases elements with
  | close brace => exact ended_of_begins brace rfl
  | cons next => exact ended_of_begins next rfl

theorem Next.unique {first : Bool} {item item' : Bytes} (next : Next first text item) (next' : Next first text item') :
    item = item' := by
  cases first with
  | true => exact (show item = text from next).trans (show item' = text from next').symm
  | false => exact (List.cons.inj ((show skipSpace text = 44 :: item from next).symm.trans next')).2

/-- An item that begins where the list is closed begins with the bracket. -/
theorem Next.closed {first : Bool} {item : Bytes} {bracket : UInt8} (next : Next first text item)
    (here : skipSpace text = bracket :: rest) (noComma : bracket ≠ 44) : skipSpace item = bracket :: rest := by
  cases first with
  | true => rwa [show item = text from next]
  | false => exact absurd (List.cons.inj (here.symm.trans next)).1 noComma

theorem Elements.not_closed {place : Place} {first : Bool} {value : Value} {item after rest' : Bytes}
    (next : Next first text item) (stands : Stands place value item after) : skipSpace text ≠ 93 :: rest' := by
  intro closed
  have opened := stands.opened
  rw [next.closed closed (by decide)] at opened
  cases opened

theorem Entries.not_closed {first : Bool} {item key rest' : Bytes} (next : Next first text item)
    (quote : skipSpace item = 34 :: key) : skipSpace text ≠ 125 :: rest' := by
  intro closed
  rw [next.closed closed (by decide)] at quote
  cases quote

/-! ## Values -/

mutual

theorem Stands.unique {place place' : Place} {value value' : Value} {text rest rest' : Bytes}
    (stands : Stands place value text rest) (stands' : Stands place' value' text rest') (ended : Ended rest)
    (ended' : Ended rest') : value = value' ∧ rest = rest' := by
  -- both begin with the same octet, so the second stands by the same rule as the first
  have same : value.kind = value'.kind := Option.some.inj (stands.opened.symm.trans stands'.opened)
  cases stands with
  | null word =>
    cases stands' with
    | null word' => exact ⟨rfl, List.append_cancel_left (word.symm.trans word')⟩
    | _ => cases same
  | false word =>
    cases stands' with
    | false word' => exact ⟨rfl, List.append_cancel_left (word.symm.trans word')⟩
    | _ => cases same
  | true word =>
    cases stands' with
    | true word' => exact ⟨rfl, List.append_cancel_left (word.symm.trans word')⟩
    | _ => cases same
  | number numeral here =>
    cases stands' with
    | number numeral' here' =>
      obtain ⟨rfl, left⟩ := numeral.unique numeral' ended ended' (here.symm.trans here')
      exact ⟨rfl, left⟩
    | _ => cases same
  | string quote literal =>
    cases stands' with
    | string quote' literal' =>
      obtain ⟨-, rfl⟩ := List.cons.inj (quote.symm.trans quote')
      obtain ⟨rfl, left⟩ := literal.unique literal'
      exact ⟨rfl, left⟩
    | _ => cases same
  | array bracket elements =>
    cases stands' with
    | array bracket' elements' =>
      obtain ⟨-, rfl⟩ := List.cons.inj (bracket.symm.trans bracket')
      obtain ⟨rfl, left⟩ := Elements.unique elements elements'
      exact ⟨rfl, left⟩
    | _ => cases same
  | object brace entries =>
    cases stands' with
    | object brace' entries' =>
      obtain ⟨-, rfl⟩ := List.cons.inj (brace.symm.trans brace')
      obtain ⟨rfl, left⟩ := Entries.unique entries entries'
      exact ⟨rfl, left⟩
    | _ => cases same

theorem Elements.unique {places places' : Nat → Place} {first : Bool} {values values' : List Value}
    {text rest rest' : Bytes} (elements : Elements places first values text rest)
    (elements' : Elements places' first values' text rest') : values = values' ∧ rest = rest' := by
  cases elements with
  | close bracket =>
    cases elements' with
    | close bracket' => exact ⟨rfl, (List.cons.inj (bracket.symm.trans bracket')).2⟩
    | cons next' stands' => exact absurd bracket (Elements.not_closed next' stands')
  | cons next stands more =>
    cases elements' with
    | close bracket' => exact absurd bracket' (Elements.not_closed next stands)
    | cons next' stands' more' =>
      obtain rfl := next.unique next'
      obtain ⟨rfl, rfl⟩ := Stands.unique stands stands' more.ended more'.ended
      obtain ⟨rfl, left⟩ := Elements.unique more more'
      exact ⟨rfl, left⟩

theorem Entries.unique {place place' : Bytes → Place} {first : Bool} {entries entries' : List (Bytes × Value)}
    {text rest rest' : Bytes} (elements : Entries place first entries text rest)
    (elements' : Entries place' first entries' text rest') : entries = entries' ∧ rest = rest' := by
  cases elements with
  | close brace =>
    cases elements' with
    | close brace' => exact ⟨rfl, (List.cons.inj (brace.symm.trans brace')).2⟩
    | cons next' quote' => exact absurd brace (Entries.not_closed next' quote')
  | cons next quote literal colon stands more =>
    cases elements' with
    | close brace' => exact absurd brace' (Entries.not_closed next quote)
    | cons next' quote' literal' colon' stands' more' =>
      obtain rfl := next.unique next'
      obtain ⟨-, rfl⟩ := List.cons.inj (quote.symm.trans quote')
      obtain ⟨rfl, rfl⟩ := literal.unique literal'
      obtain ⟨-, rfl⟩ := List.cons.inj (colon.symm.trans colon')
      obtain ⟨rfl, rfl⟩ := Stands.unique stands stands' more.ended more'.ended
      obtain ⟨rfl, left⟩ := Entries.unique more more'
      exact ⟨rfl, left⟩

end

/-- A text is one value at most, whatever is read in it. -/
theorem Document.unique {place place' : Place} {value value' : Value} (document : Document place value text)
    (document' : Document place' value' text) : value = value' := by
  obtain ⟨rest, stands, blank⟩ := document
  obtain ⟨rest', stands', blank'⟩ := document'
  refine (stands.unique stands' ?_ ?_).1
  · exact ended_of_skipSpace (by simp [blank])
  · exact ended_of_skipSpace (by simp [blank'])

end ChainArchive.Json
