import ChainArchive.Json.Scan
import ChainArchive.Json.Reader

/-!
# The grammar of JSON

What a JSON text says, whoever reads it. Each rule tells how a piece of text
begins, what it stands for, and what text is left behind it.

A literal is read into octets. In a text they have to be the UTF-8 form of it;
elsewhere a lone surrogate may stand in a literal too, so a string is known by
its octets. A control character has to be escaped. Only where a byte string is
read may it stand in a literal as it is, and so the rules know what is read at
their place.
-/

namespace ChainArchive.Json
set_option autoImplicit false

/-! ## Literals -/

/-- The text goes on with the escape of a trail surrogate. -/
def TrailFollows (text : Bytes) : Prop :=
  ∃ a b c d code rest, text = 92 :: 117 :: a :: b :: c :: d :: rest ∧ hexUnit? a b c d = some code ∧ isTrail code = true

/-- How a literal is written: for a text, as JSON has it, or for any octets. -/
inductive LiteralKind
  | text
  | json
  | octets
deriving Repr, DecidableEq

/-- The literals that are read as strings of a kind. -/
def StringKind.literal : StringKind → LiteralKind
  | .text => .text
  | .octets => .octets

/-- From behind its opening quote, the text is a literal for these octets, and then the rest. -/
inductive Literal (kind : LiteralKind) : Bytes → Bytes → Bytes → Prop
  | close {rest : Bytes} : Literal kind [] (34 :: rest) rest
  /-- An octet that stands for itself. -/
  | plain {byte : UInt8} {octets text rest : Bytes} (noQuote : byte ≠ 34) (noBackslash : byte ≠ 92)
      (printable : kind ≠ .octets → 32 ≤ byte) (more : Literal kind octets text rest) :
    Literal kind (byte :: octets) (byte :: text) rest
  /-- A backslash and a letter. -/
  | letter {letter byte : UInt8} {octets text rest : Bytes} (stands : letterEscape? letter = some byte)
      (more : Literal kind octets text rest) : Literal kind (byte :: octets) (92 :: letter :: text) rest
  /-- The code of a character. -/
  | unit {a b c d : UInt8} {char : Char} {octets text rest : Bytes} (digits : hexUnit? a b c d = some char.toNat)
      (more : Literal kind octets text rest) :
    Literal kind (String.utf8EncodeChar char ++ octets) (92 :: 117 :: a :: b :: c :: d :: text) rest
  /-- The code of a character as a pair of surrogates. -/
  | pair {a b c d a' b' c' d' : UInt8} {lead trail : Nat} {char : Char} {octets text rest : Bytes}
      (first : hexUnit? a b c d = some lead) (second : hexUnit? a' b' c' d' = some trail) (isLead : isLead lead = true)
      (isTrail : isTrail trail = true) (code : char.toNat = pairCode lead trail) (more : Literal kind octets text rest) :
    Literal kind (String.utf8EncodeChar char ++ octets)
      (92 :: 117 :: a :: b :: c :: d :: 92 :: 117 :: a' :: b' :: c' :: d' :: text) rest
  /-- A surrogate that belongs to no pair. -/
  | lone {a b c d : UInt8} {code : Nat} {octets text rest : Bytes} (loose : kind ≠ .text)
      (digits : hexUnit? a b c d = some code) (surrogate : isLead code = true ∧ ¬ TrailFollows text ∨ isTrail code = true)
      (more : Literal kind octets text rest) :
    Literal kind (codeOctets code ++ octets) (92 :: 117 :: a :: b :: c :: d :: text) rest

/-- A literal is one where more may stand in it. -/
theorem Literal.loosen {kind kind' : LiteralKind} {octets text rest : Bytes} (literal : Literal kind octets text rest)
    (control : kind' ≠ .octets → kind ≠ .octets) (lone : kind ≠ .text → kind' ≠ .text) : Literal kind' octets text rest := by
  induction literal with
  | close => exact .close
  | plain noQuote noBackslash printable _ ih => exact .plain noQuote noBackslash (printable ∘ control) ih
  | letter stands _ ih => exact .letter stands ih
  | unit digits _ ih => exact .unit digits ih
  | pair first second isLead isTrail code _ ih => exact .pair first second isLead isTrail code ih
  | lone loose digits surrogate _ ih => exact .lone (lone loose) digits surrogate ih

/-- What is a literal in a text is one anywhere. -/
theorem Literal.ofText {kind : LiteralKind} {octets text rest : Bytes} (literal : Literal .text octets text rest) :
    Literal kind octets text rest :=
  literal.loosen (fun _ => nofun) (absurd rfl)

/-- What is a literal anywhere is one for octets. -/
theorem Literal.asOctets {kind : LiteralKind} {octets text rest : Bytes} (literal : Literal kind octets text rest) :
    Literal .octets octets text rest :=
  literal.loosen (absurd rfl) fun _ => nofun

/-! ## Numbers -/

/-- At least one digit. -/
def Digits (digits : Bytes) : Prop := digits ≠ [] ∧ ∀ byte ∈ digits, isDigit byte = true

/-- What stands before the point: a zero, or digits that do not begin with one. -/
def Whole (whole : Bytes) : Prop := whole = [48] ∨ Digits whole ∧ whole.head? ≠ some 48

/-- A point and digits, or nothing. -/
def Fraction (fraction : Bytes) : Prop := fraction = [] ∨ ∃ digits, fraction = 46 :: digits ∧ Digits digits

/-- A power of ten, or nothing. -/
def Exponent (exponent : Bytes) : Prop := exponent = [] ∨ ∃ mark sign digits, exponent = mark :: (sign ++ digits) ∧
  (mark = 101 ∨ mark = 69) ∧ (sign = [] ∨ sign = [43] ∨ sign = [45]) ∧ Digits digits

/-- The text of a number. -/
def Numeral (literal : Bytes) : Prop := ∃ sign whole fraction exponent,
  literal = sign ++ (whole ++ (fraction ++ exponent)) ∧ (sign = [] ∨ sign = [45]) ∧ Whole whole ∧ Fraction fraction ∧
    Exponent exponent

/-! ## Values -/

/-- A value, with strings as octets and numbers as they are written. -/
inductive Value
  | null
  | boolean (value : Bool)
  | number (literal : Bytes)
  | string (octets : Bytes)
  | array (values : List Value)
  | object (entries : List (Bytes × Value))

/-- The next item of a list begins here: at once if it is the first, otherwise behind a comma. -/
def Next (first : Bool) (text item : Bytes) : Prop := if first then item = text else skipSpace text = 44 :: item

theorem Next.first {first : Bool} (isFirst : first = true) (text : Bytes) : Next first text text := by
  subst isFirst
  rfl

theorem Next.comma {first : Bool} {text item : Bytes} (later : ¬ first = true) (comma : skipSpace text = 44 :: item) :
    Next first text item := by
  obtain rfl := eq_false_of_ne_true later
  exact comma

/-- What is read here: JSON, or octets, which may be written as a string that holds them as they are; or a list, or a
record of named fields in order, with such places in it. -/
inductive Place
  | json
  | octets
  | list (items : Place)
  | record (names bytes : List String)
deriving Repr, DecidableEq

/-- What a string is here. -/
def Place.literal : Place → LiteralKind
  | .octets => .octets
  | _ => .json

/-- The place of a field, given the fields that are byte strings. -/
def Place.field (bytes : List String) (name : String) : Place := if name ∈ bytes then .octets else .json

/-- The places of the elements, if there is an array here. -/
def Place.element : Place → Nat → Place
  | .list items, _ => items
  | .record names bytes, i => (names[i]?).elim .json (field bytes)
  | _, _ => .json

/-- The places of the entries, if there is an object here. -/
def Place.entry : Place → Bytes → Place
  | .record _ bytes, name => if name ∈ bytes.map Bytes.ofText then .octets else .json
  | _, _ => .json

mutual

/-- The text begins with this value, and the rest follows it. -/
inductive Stands : Place → Value → Bytes → Bytes → Prop
  | null {place : Place} {text rest : Bytes} (word : skipSpace text = Bytes.ofText "null" ++ rest) :
    Stands place .null text rest
  | false {place : Place} {text rest : Bytes} (word : skipSpace text = Bytes.ofText "false" ++ rest) :
    Stands place (.boolean false) text rest
  | true {place : Place} {text rest : Bytes} (word : skipSpace text = Bytes.ofText "true" ++ rest) :
    Stands place (.boolean true) text rest
  | number {place : Place} {literal text rest : Bytes} (numeral : Numeral literal)
      (here : skipSpace text = literal ++ rest) : Stands place (.number literal) text rest
  | string {place : Place} {octets text body rest : Bytes} (quote : skipSpace text = 34 :: body)
      (literal : Literal place.literal octets body rest) : Stands place (.string octets) text rest
  | array {place : Place} {values : List Value} {text body rest : Bytes} (bracket : skipSpace text = 91 :: body)
      (elements : Elements place.element true values body rest) : Stands place (.array values) text rest
  | object {place : Place} {entries : List (Bytes × Value)} {text body rest : Bytes} (brace : skipSpace text = 123 :: body)
      (elements : Entries place.entry true entries body rest) : Stands place (.object entries) text rest

/-- The text begins with these elements, at these places in turn, and the end of an array. -/
inductive Elements : (Nat → Place) → Bool → List Value → Bytes → Bytes → Prop
  | close {places : Nat → Place} {first : Bool} {text rest : Bytes} (bracket : skipSpace text = 93 :: rest) :
    Elements places first [] text rest
  | cons {places : Nat → Place} {first : Bool} {value : Value} {values : List Value} {text item after rest : Bytes}
      (next : Next first text item) (stands : Stands (places 0) value item after)
      (more : Elements (fun i => places (i + 1)) false values after rest) : Elements places first (value :: values) text rest

/-- The text begins with these entries, each at the place of its name, and the end of an object. -/
inductive Entries : (Bytes → Place) → Bool → List (Bytes × Value) → Bytes → Bytes → Prop
  | close {place : Bytes → Place} {first : Bool} {text rest : Bytes} (brace : skipSpace text = 125 :: rest) :
    Entries place first [] text rest
  | cons {place : Bytes → Place} {first : Bool} {name : Bytes} {value : Value} {entries : List (Bytes × Value)}
      {text item key behind field after rest : Bytes} (next : Next first text item) (quote : skipSpace item = 34 :: key)
      (literal : Literal .json name key behind) (colon : skipSpace behind = 58 :: field)
      (stands : Stands (place name) value field after) (more : Entries place false entries after rest) :
    Entries place first ((name, value) :: entries) text rest

end

/-- The text is this value, with whitespace at most around it. -/
def Document (place : Place) (value : Value) (text : Bytes) : Prop :=
  ∃ rest, Stands place value text rest ∧ skipSpace rest = []

/-- What a record says about a field: the values under its name in an object, and in its place in an array. All names
are given in order. -/
def Value.fields (names : List String) (name : String) : Value → List Value
  | .object entries => (entries.filter fun entry => entry.1 == Bytes.ofText name).map (·.2)
  | .array values => ((names.zip values).filter fun entry => entry.1 == name).map (·.2)
  | _ => []

end ChainArchive.Json
