import ChainArchive.Proofs.Json.Records

/-!
# Texts that are cut

A written text that is cut off somewhere is not taken for another one. The cut
falls inside a string, inside a name or behind the beginning of a number. A
number that is cut is a number too, but then the text has come to its end and
the array or the object around it is still open.
-/

namespace ChainArchive.Json
set_option autoImplicit false

variable {α δ ρ : Type} {part rest read : Bytes}

/-- What is cut from two texts is cut from the first of them, or is the first and a part of the second. -/
theorem prefix_append_cases {first second : Bytes} (isPart : part <+: first ++ second) :
    (part <+: first ∧ part ≠ first) ∨ ∃ tail, part = first ++ tail ∧ tail <+: second := by
  rcases List.prefix_or_prefix_of_prefix isPart (List.prefix_append first second) with inside | ⟨tail, rfl⟩
  · by_cases whole : part = first
    · exact .inr ⟨[], by rw [whole, List.append_nil], List.nil_prefix⟩
    · exact .inl ⟨inside, whole⟩
  · exact .inr ⟨tail, rfl, (List.prefix_append_right_inj first).1 isPart⟩

/-- What is cut from a text lacks its last octet. -/
theorem prefix_of_strict (text : Bytes) (last : UInt8) (isPart : part <+: text ++ [last])
    (less : part ≠ text ++ [last]) : part <+: text :=
  (List.prefix_concat_iff.1 isPart).resolve_left less

/-! ## Readers at the end of a text -/

/-- Of every text that is cut from this one the reader says that it ends early. -/
def Truncates (item : Bytes → Scan α) (text : Bytes) : Prop :=
  ∀ part, part <+: text → part ≠ text → item part = .error .truncated

/-- Of a text that is cut from this one the reader says that it ends early, or it takes all of it for a value. -/
def RunsOut (item : Bytes → Scan α) (text : Bytes) : Prop :=
  ∀ part, part <+: text → part ≠ text → item part = .error .truncated ∨ ∃ value, item part = .ok (value, [])

theorem Truncates.runsOut {item : Bytes → Scan α} {text : Bytes} (h : Truncates item text) : RunsOut item text :=
  fun part isPart less => .inl (h part isPart less)

/-! ## Strings -/

/-- A character is a backslash and a letter, a backslash and four digits after `u`, or octets that stand for themselves. -/
theorem escape_cases (c : Char) : (∃ letter, escape c = [92, letter]) ∨ (∃ a b d e, escape c = [92, 117, a, b, d, e]) ∨
    ∀ byte ∈ escape c, isPlain byte = true := by
  unfold escape
  split
  iterate 7 exact .inl ⟨_, rfl⟩
  · split
    · next control =>
      obtain ⟨a, b, d, e, written, -⟩ := hexUnit?_ofNat (Nat.lt_trans control (by decide : 0x20 < 0x10000))
      refine .inr (.inl ⟨a, b, d, e, ?_⟩)
      rw [ofText_eq_flatMap, String.toList_ofList, List.flatMap_cons, List.flatMap_cons, written]
      rfl
    · next noQuote noBackslash _ _ _ _ _ printable =>
      exact .inr (.inr fun _ => isPlain_of_mem noQuote noBackslash (Nat.le_of_not_lt printable))

theorem readOctets_cut_unit {digits : Bytes} (short : digits.length < 4) :
    readOctets .text none read (92 :: 117 :: digits) = .error .truncated := by
  match digits, short with
  | [], _ => rfl
  | [_], _ => rfl
  | [_, _], _ => rfl
  | [_, _, _], _ => rfl

theorem readOctets_cut_escape {c : Char} (isPart : part <+: escape c) (less : part ≠ escape c) :
    readOctets .text none read part = .error .truncated := by
  rcases escape_cases c with ⟨letter, written⟩ | ⟨a, b, d, e, written⟩ | plain
  · rw [written] at isPart less
    rcases List.prefix_cons_iff.1 (prefix_of_strict [92] letter isPart less) with rfl | ⟨tail, rfl, nothing⟩
    · rfl
    · rw [List.prefix_nil.1 nothing]
      rfl
  · rw [written] at isPart less
    rcases List.prefix_cons_iff.1 (prefix_of_strict [92, 117, a, b, d] e isPart less) with rfl | ⟨tail, rfl, unit⟩
    · rfl
    · rcases List.prefix_cons_iff.1 unit with rfl | ⟨digits, rfl, more⟩
      · rfl
      · exact readOctets_cut_unit (Nat.lt_succ_of_le more.length_le)
  · have all : ∀ byte ∈ part, isPlain byte = true := fun byte member => plain byte (isPart.subset member)
    have ends : readOctets .text none read (part ++ []) = _ := readOctets_plain all
    rw [List.append_nil] at ends
    rw [ends, readOctets]

theorem readOctets_cut (text : List Char) (isPart : part <+: text.flatMap escape) :
    readOctets .text none read part = .error .truncated := by
  induction text generalizing part read with
  | nil =>
    rw [List.prefix_nil.1 isPart]
    rfl
  | cons c text ih =>
    rw [List.flatMap_cons] at isPart
    rcases prefix_append_cases isPart with ⟨inside, less⟩ | ⟨tail, rfl, behind⟩
    · exact readOctets_cut_escape inside less
    · rw [readOctets_escape]
      exact ih behind

theorem readTextString_cut {text : String} (isPart : part <+: text.toList.flatMap escape) :
    readTextString part = .error .truncated := by
  rw [readTextString, readOctets_cut text.toList isPart]
  rfl

theorem readText_cut {text : String} (expected : String) (isPart : part <+: quoted text) (less : part ≠ quoted text) :
    readText expected part = .error .truncated := by
  rw [quoted, ← List.cons_append] at isPart less
  rcases List.prefix_cons_iff.1 (prefix_of_strict _ _ isPart less) with rfl | ⟨tail, rfl, inside⟩
  · rfl
  · rw [readText, skipSpace_cons (by decide)]
    exact readTextString_cut inside

/-! ## Fields -/

theorem readWord_cut {letters : Bytes} (isPart : part <+: letters) (less : part ≠ letters) :
    readWord letters part = .error .truncated := by
  induction letters generalizing part with
  | nil => exact absurd (List.prefix_nil.1 isPart) less
  | cons letter letters ih =>
    rcases List.prefix_cons_iff.1 isPart with rfl | ⟨tail, rfl, behind⟩
    · rfl
    · rw [readWord, if_pos rfl]
      exact ih behind fun whole => less (by rw [whole])

theorem id_truncates (id : TransactionId) : Truncates readId id.toJson := by
  intro part isPart less
  rw [readId, readText_cut "a string" isPart less]
  rfl

theorem statementId_truncates (id : StatementId) : Truncates readStatementId id.toJson := by
  intro part isPart less
  rw [readStatementId, readText_cut "a formatted UUID string" isPart less]
  rfl

theorem optionalId_truncates (previous : Option TransactionId) :
    Truncates readOptionalId (orNull (previous.map TransactionId.toJson)) := by
  intro part isPart less
  cases previous with
  | none =>
    have named : part <+: 110 :: Bytes.ofText "ull" := isPart
    rcases List.prefix_cons_iff.1 named with rfl | ⟨tail, rfl, behind⟩
    · rfl
    · have cut := readWord_cut behind fun whole => less (by rw [whole]; rfl)
      rw [readOptionalId, skipSpace_cons (by decide)]
      simp only [cut, Except.map]
  | some id =>
    have cut := id_truncates id part isPart less
    rcases List.prefix_cons_iff.1 isPart with rfl | ⟨tail, rfl, behind⟩
    · rfl
    · rw [readOptionalId, skipSpace_cons (by decide)]
      show (readId (34 :: tail)).map _ = _
      rw [cut]
      rfl

/-- The digits of a number begin with those of a smaller one. -/
theorem decimal_of_prefix {n : Nat} (isPart : part <+: decimal n) : part = [] ∨ ∃ m ≤ n, part = decimal m := by
  induction n using Nat.strongRecOn with
  | ind n ih =>
    by_cases whole : part = decimal n
    · exact .inr ⟨n, Nat.le_refl n, whole⟩
    · rcases Nat.lt_or_ge n 10 with small | large
      · rw [decimal_of_lt small] at isPart whole
        exact .inl (List.prefix_nil.1 (prefix_of_strict [] _ isPart whole))
      · rw [decimal_of_le large] at isPart whole
        rcases ih (n / 10) (by omega) (prefix_of_strict _ _ isPart whole) with nothing | ⟨m, smaller, written⟩
        · exact .inl nothing
        · exact .inr ⟨m, by omega, written⟩

theorem natBelow_runsOut {n bound : Nat} (below : n < bound) (bounded : bound ≤ 2 ^ 64) (expected : String) :
    RunsOut (readNatBelow bound expected) (decimal n) := by
  intro part isPart _
  rcases decimal_of_prefix isPart with rfl | ⟨m, smaller, rfl⟩
  · exact .inl rfl
  · have number := (spells_natBelow (Nat.lt_of_le_of_lt smaller below) bounded expected).reads [] closes_nil
    rw [List.append_nil] at number
    exact .inr ⟨m, number⟩

theorem position_runsOut {number : Nat} (small : number < 2 ^ 32) : RunsOut readPosition (decimal number) :=
  natBelow_runsOut small (by decide) "u32"

theorem octet_runsOut (byte : UInt8) : RunsOut readOctet (decimal byte.toNat) := by
  intro part isPart less
  rcases natBelow_runsOut (UInt8.toNat_lt byte) (by decide) "u8" part isPart less with cut | ⟨value, taken⟩
  · rw [readOctet, cut]
    exact .inl rfl
  · rw [readOctet, taken]
    exact .inr ⟨_, rfl⟩

/-! ## Arrays -/

section Arrays

variable {item : Bytes → Scan α} {write : α → Bytes} {values : List α}

theorem closes_of_part {texts : List Bytes} (isPart : part <+: commas texts) : Closes part := by
  cases texts with
  | nil =>
    rw [List.prefix_nil.1 isPart]
    exact closes_nil
  | cons text texts =>
    rcases List.prefix_cons_iff.1 isPart with rfl | ⟨tail, rfl, -⟩
    · exact closes_nil
    · exact closes_cons _ (by decide)

/-- No text is left for an element. -/
theorem readElements_nil (item : Bytes → Scan α) (fuel : Nat) (first : Bool) (taken : List α) :
    readElements item fuel first taken [] = .error .truncated := by
  cases fuel <;> rfl

/-- An element begins as its text does. -/
theorem nextElement_of_prefix {text : Bytes} {value : α} (h : Spells item text value) (isPart : part <+: text)
    (some : part ≠ []) :
    nextElement true part = .ok (.element part) ∧ nextElement false (44 :: part) = .ok (.element part) := by
  obtain ⟨byte, tail, rfl, visible, more⟩ := h.begins
  rcases List.prefix_cons_iff.1 isPart with rfl | ⟨tail, rfl, -⟩
  · exact absurd rfl some
  · constructor
    · simp only [nextElement, skipSpace_cons visible]
      split <;> simp_all
    · simp [nextElement, skipSpace_cons (show isSpace 44 = false by decide), skipSpace_cons visible, more]

/-- Where the text ends within an element, or right behind it, it ends within the array. -/
theorem readElements_runsOut (ends : item part = .error .truncated ∨ ∃ value, item part = .ok (value, [])) {first : Bool}
    {text : Bytes} (element : nextElement first text = .ok (.element part)) (fuel : Nat) (taken : List α) :
    readElements item fuel first taken text = .error .truncated := by
  cases fuel with
  | zero => rfl
  | succ fuel =>
    rw [readElements, element]
    rcases ends with cut | ⟨value, whole⟩
    · simp only [cut]
    · simp only [whole, readElements_nil]

/-- An element, whole or cut, at the beginning of an array or behind a comma. -/
theorem readElements_element {text : Bytes} {value : α} {texts : List Bytes} (spelled : Spells item text value)
    (runsOut : RunsOut item text)
    (behind : ∀ fuel taken tail, tail <+: commas texts → readElements item fuel false taken tail = .error .truncated)
    (isPart : part <+: text ++ commas texts) (fuel : Nat) (taken : List α) :
    readElements item fuel true taken part = .error .truncated ∧
      readElements item fuel false taken (44 :: part) = .error .truncated := by
  cases fuel with
  | zero => exact ⟨rfl, rfl⟩
  | succ fuel =>
    rcases prefix_append_cases isPart with ⟨inside, less⟩ | ⟨tail, rfl, others⟩
    · by_cases nothing : part = []
      · rw [nothing]
        exact ⟨rfl, rfl⟩
      · obtain ⟨first, later⟩ := nextElement_of_prefix spelled inside nothing
        have ends := runsOut part inside less
        exact ⟨readElements_runsOut ends first _ taken, readElements_runsOut ends later _ taken⟩
    · have reads := spelled.reads tail (closes_of_part others)
      constructor
      · rw [readElements, nextElement_first spelled]
        simp only [reads, behind fuel _ tail others]
      · rw [readElements, nextElement_comma spelled]
        simp only [reads, behind fuel _ tail others]

theorem readElements_cut (spelled : ∀ value ∈ values, Spells item (write value) value)
    (runsOut : ∀ value ∈ values, RunsOut item (write value)) (fuel : Nat) (taken : List α)
    (isPart : part <+: commas (values.map write)) : readElements item fuel false taken part = .error .truncated := by
  induction values generalizing part fuel taken with
  | nil =>
    rw [List.prefix_nil.1 isPart]
    exact readElements_nil item fuel false taken
  | cons value values ih =>
    obtain ⟨spelledFirst, spelledOthers⟩ := List.forall_mem_cons.1 spelled
    obtain ⟨first, others⟩ := List.forall_mem_cons.1 runsOut
    rcases List.prefix_cons_iff.1 isPart with rfl | ⟨tail, rfl, inside⟩
    · exact readElements_nil item fuel false taken
    · exact (readElements_element spelledFirst first (fun fuel taken _ => ih spelledOthers others fuel taken) inside fuel
        taken).2

/-- A part of an array ends early. -/
theorem array_truncates (spelled : ∀ value ∈ values, Spells item (write value) value)
    (runsOut : ∀ value ∈ values, RunsOut item (write value)) (expected : String) :
    Truncates (readArray item expected) (array (values.map write)) := by
  intro part isPart less
  rw [array, ← List.cons_append] at isPart less
  rcases List.prefix_cons_iff.1 (prefix_of_strict _ _ isPart less) with rfl | ⟨tail, rfl, inside⟩
  · rfl
  · have bracket : readArray item expected (91 :: tail) = readElements item (tail.length + 1) true [] tail := by
      simp [readArray, skipSpace_cons (show isSpace 91 = false by decide)]
    rw [bracket]
    cases values with
    | nil =>
      rw [List.prefix_nil.1 inside]
      rfl
    | cons value values =>
      obtain ⟨spelledFirst, spelledOthers⟩ := List.forall_mem_cons.1 spelled
      obtain ⟨first, others⟩ := List.forall_mem_cons.1 runsOut
      rw [List.map_cons, flatten_intersperse] at inside
      exact (readElements_element spelledFirst first
        (fun fuel taken _ => readElements_cut spelledOthers others fuel taken) inside _ []).1

theorem octets_truncates (bytes : Bytes) : Truncates readBytes (octets bytes) := by
  intro part isPart less
  have cut := array_truncates (fun byte _ => spells_octet byte) (fun byte _ => octet_runsOut byte) "a byte array" part
    isPart less
  rw [octets, array, ← List.cons_append] at isPart less
  rcases List.prefix_cons_iff.1 (prefix_of_strict _ _ isPart less) with rfl | ⟨tail, rfl, -⟩
  · rfl
  · rw [readBytes, skipSpace_cons (by decide)]
    exact cut

end Arrays

/-! ## Objects -/

section Objects

/-- As `Fills`, and of each text that is cut from an entry's the field's reader runs out. -/
inductive Cuts (fields : List (Field δ)) : δ → List (String × Bytes) → Prop
  | nil {draft : δ} : Cuts fields draft []
  | cons {draft next : δ} {name : String} {text : Bytes} {entries : List (String × Bytes)} {field : Field δ} :
      fields.find? (·.name == name) = some field → field.isSet draft = false → Spells (field.read draft) text next →
      RunsOut (field.read draft) text → Cuts fields next entries → Cuts fields draft ((name, text) :: entries)

variable {fields : List (Field δ)} {draft next : δ} {entries : List (String × Bytes)}

theorem readEntries_nil (fields : List (Field δ)) (fuel : Nat) (first : Bool) (draft : δ) :
    readEntries fields fuel first draft [] = .error .truncated := by
  cases fuel <;> rfl

/-- Where the text ends within an entry, or right behind it, it ends within the object. -/
theorem readEntries_runsOut
    (ends : readEntry fields draft part = .error .truncated ∨ ∃ next, readEntry fields draft part = .ok (next, []))
    {first : Bool} {text : Bytes} (key : nextEntry first text = .ok (.key part)) (fuel : Nat) :
    readEntries fields fuel first draft text = .error .truncated := by
  cases fuel with
  | zero => rfl
  | succ fuel =>
    rw [readEntries, key]
    rcases ends with cut | ⟨next, whole⟩
    · simp only [cut]
    · simp only [whole, readEntries_nil]

/-- Of an entry that is cut behind the quote of its key the reader runs out. -/
theorem readEntry_runsOut {name : String} {text : Bytes} {field : Field δ}
    (known : fields.find? (·.name == name) = some field) (fresh : field.isSet draft = false)
    (runsOut : RunsOut (field.read draft) text) (isPart : 34 :: part <+: entryText (name, text))
    (less : 34 :: part ≠ entryText (name, text)) :
    readEntry fields draft part = .error .truncated ∨ ∃ next, readEntry fields draft part = .ok (next, []) := by
  have whole : entryText (name, text) = 34 :: (name.toList.flatMap escape ++ 34 :: 58 :: text) := by
    simp [entryText, quoted]
  rw [whole] at isPart less
  rcases prefix_append_cases ((List.prefix_append_right_inj [34]).1 isPart) with ⟨inKey, -⟩ | ⟨tail, rfl, behind⟩
  · rw [readEntry, readTextString_cut inKey]
    exact .inl rfl
  · rcases List.prefix_cons_iff.1 behind with rfl | ⟨tail, rfl, value⟩
    · rw [List.append_nil, readEntry, readTextString_cut List.prefix_rfl]
      exact .inl rfl
    · have key : readEntry fields draft (name.toList.flatMap escape ++ 34 :: tail) =
          (afterColon tail).bind (field.read draft) := by
        simp only [readEntry, readTextString_escapes, bind, Except.bind, known, fresh]
        rfl
      rw [key]
      rcases List.prefix_cons_iff.1 value with rfl | ⟨tail, rfl, inside⟩
      · exact .inl rfl
      · have colon : afterColon (58 :: tail) = .ok tail := by
          simp [afterColon, skipSpace_cons (show isSpace 58 = false by decide)]
        rw [colon]
        exact runsOut tail inside fun same => less (by rw [same])

/-- An entry, whole or cut, at the beginning of an object or behind a comma. -/
theorem readEntries_entry {name : String} {text : Bytes} {field : Field δ} {texts : List Bytes}
    (known : fields.find? (·.name == name) = some field) (fresh : field.isSet draft = false)
    (spelled : Spells (field.read draft) text next) (runsOut : RunsOut (field.read draft) text)
    (behind : ∀ fuel tail, tail <+: commas texts → readEntries fields fuel false next tail = .error .truncated)
    (isPart : part <+: entryText (name, text) ++ commas texts) (fuel : Nat) :
    readEntries fields fuel true draft part = .error .truncated ∧
      readEntries fields fuel false draft (44 :: part) = .error .truncated := by
  have keys (tail : Bytes) :
      nextEntry true (34 :: tail) = .ok (.key tail) ∧ nextEntry false (44 :: 34 :: tail) = .ok (.key tail) := by
    simp [nextEntry, skipSpace_cons (show isSpace 44 = false by decide),
      skipSpace_cons (show isSpace 34 = false by decide)]
  cases fuel with
  | zero => exact ⟨rfl, rfl⟩
  | succ fuel =>
    rcases prefix_append_cases isPart with ⟨inside, less⟩ | ⟨tail, rfl, others⟩
    · rcases List.prefix_cons_iff.1 inside with rfl | ⟨key, rfl, -⟩
      · exact ⟨rfl, rfl⟩
      · have ends := readEntry_runsOut known fresh runsOut inside less
        exact ⟨readEntries_runsOut ends (keys key).1 _, readEntries_runsOut ends (keys key).2 _⟩
    · obtain ⟨key, whole, read⟩ := readEntry_entryText known fresh spelled (closes_of_part others)
      rw [whole]
      constructor
      · rw [readEntries, (keys key).1]
        simp only [read, behind fuel tail others]
      · rw [readEntries, (keys key).2]
        simp only [read, behind fuel tail others]

theorem readEntries_cut (h : Cuts fields draft entries) (fuel : Nat) (isPart : part <+: commas (entries.map entryText)) :
    readEntries fields fuel false draft part = .error .truncated := by
  induction h generalizing part fuel with
  | nil =>
    rw [List.prefix_nil.1 isPart]
    exact readEntries_nil fields fuel false _
  | cons known fresh spelled runsOut _ ih =>
    rcases List.prefix_cons_iff.1 isPart with rfl | ⟨tail, rfl, inside⟩
    · exact readEntries_nil fields fuel false _
    · exact (readEntries_entry known fresh spelled runsOut (fun fuel _ => ih fuel) inside fuel).2

/-- A part of an object ends early. -/
theorem object_truncates {shape : Shape δ ρ} (h : Cuts shape.fields shape.empty entries) :
    Truncates shape.readRecord (object entries) := by
  intro part isPart less
  rw [object, ← List.cons_append] at isPart less
  rcases List.prefix_cons_iff.1 (prefix_of_strict _ _ isPart less) with rfl | ⟨tail, rfl, inside⟩
  · rfl
  · suffices cut : readEntries shape.fields (tail.length + 1) true shape.empty tail = .error .truncated by
      rw [Shape.readRecord, skipSpace_cons (by decide)]
      simp only [cut, bind, Except.bind]
    cases h with
    | nil =>
      rw [List.prefix_nil.1 inside]
      rfl
    | @cons _ _ name text entries _ known fresh spelled runsOut others =>
      have joined : tail <+: entryText (name, text) ++ commas (entries.map entryText) := by
        rw [← flatten_intersperse]
        exact inside
      exact (readEntries_entry known fresh spelled runsOut (fun fuel _ => readEntries_cut others fuel) joined _).1

end Objects

/-! ## Records -/

theorem field_runsOut {name : String} {get : δ → Option α} {set : δ → α → δ} {read : Bytes → Scan α} {text : Bytes}
    (h : RunsOut read text) (draft : δ) : RunsOut ((Field.of name get set read).read draft) text := by
  intro part isPart less
  rcases h part isPart less with cut | ⟨value, taken⟩
  · simp only [Field.of, cut]
    exact .inl rfl
  · simp only [Field.of, taken]
    exact .inr ⟨_, rfl⟩

theorem transaction_truncates (t : Transaction) : Truncates transactionShape.readRecord t.toJson := by
  refine object_truncates (?_ : Cuts _ _ _)
  exact .cons rfl rfl (spells_field (spells_id t.id) _) (field_runsOut (id_truncates t.id).runsOut _) <|
    .cons rfl rfl (spells_field (spells_optionalId t.previous) _)
      (field_runsOut (optionalId_truncates t.previous).runsOut _) <|
    .cons rfl rfl (spells_field (spells_octets t.payload) _) (field_runsOut (octets_truncates t.payload).runsOut _) .nil

theorem archived_truncates {r : ArchivedTransaction} (small : r.number < 2 ^ 32) :
    Truncates archivedShape.readRecord r.toJson := by
  refine object_truncates (?_ : Cuts _ _ _)
  exact .cons rfl rfl (spells_field (spells_statementId r.statement) _)
      (field_runsOut (statementId_truncates r.statement).runsOut _) <|
    .cons rfl rfl (spells_field (spells_id r.id) _) (field_runsOut (id_truncates r.id).runsOut _) <|
    .cons rfl rfl (spells_field (spells_position small) _) (field_runsOut (position_runsOut small) _) <|
    .cons rfl rfl (spells_field (spells_octets r.compressed) _)
      (field_runsOut (octets_truncates r.compressed).runsOut _) <|
    .cons rfl rfl (spells_field (spells_octets r.signature) _) (field_runsOut (octets_truncates r.signature).runsOut _) .nil

/-- A document that ends early is said to. -/
theorem Truncates.readDocument {item : Bytes → Scan α} {text : Bytes} (h : Truncates item text) (isPart : part <+: text)
    (less : part ≠ text) : readDocument item part = .error .truncated := by
  rw [Json.readDocument, h part isPart less]
  rfl

end ChainArchive.Json

namespace ChainArchive
set_option autoImplicit false
open Json

/-! ## The whole -/

/-- A seed file that was cut off, anywhere within the text written for a list of records, is refused because it ends
early; so is every part of an archived record's text. -/
theorem cut_text_never_loads :
    (∀ (ts : List Transaction) (part : Bytes), part <+: Transaction.listToJson ts → part ≠ Transaction.listToJson ts →
      Transaction.listOfJson part = .error .truncated ∧ ∀ (files : Files) (path : String), files path = .ok part →
        (loadSeed files path).result = .error (.malformed path .truncated)) ∧
    ∀ (r : ArchivedTransaction) (part : Bytes), r.number < 2 ^ 32 → part <+: r.toJson → part ≠ r.toJson →
      ArchivedTransaction.ofJson part = .error .truncated := by
  constructor
  · intro ts part isPart less
    have list : Truncates (readArray transactionShape.readRecord "a sequence") (Transaction.listToJson ts) :=
      array_truncates (fun t _ => spells_transaction t) (fun t _ => (transaction_truncates t).runsOut) "a sequence"
    have cut : Transaction.listOfJson part = .error .truncated := list.readDocument isPart less
    refine ⟨cut, fun files path content => ?_⟩
    simp only [loadSeed, content, Except.mapError, bind, Attempt.of, Attempt.andThen, cut]
  · intro r part small isPart less
    exact (archived_truncates small).readDocument isPart less

/-- A cut between the two octets of a character, and one before the last brace. -/
theorem cut_text_never_loads_example :
    (Transaction.listToJson exampleTransactions).take 24 ≠ Transaction.listToJson exampleTransactions ∧
      ((Transaction.listToJson exampleTransactions).take 24).getLast? = some 0xc3 ∧
      (loadSeed (fun _ => .ok ((Transaction.listToJson exampleTransactions).take 24)) "seed.json").result =
        .error (.malformed "seed.json" .truncated) ∧
      exampleArchived.toJson.dropLast ≠ exampleArchived.toJson ∧
      ArchivedTransaction.ofJson exampleArchived.toJson.dropLast = .error .truncated := by
  have less : (Transaction.listToJson exampleTransactions).take 24 ≠ Transaction.listToJson exampleTransactions := by
    decide +kernel
  have less' : exampleArchived.toJson.dropLast ≠ exampleArchived.toJson := by decide +kernel
  have seed := cut_text_never_loads.1 exampleTransactions _ (List.take_prefix 24 _) less
  have archived := cut_text_never_loads.2 exampleArchived _ (by decide) (List.dropLast_prefix _) less'
  exact ⟨less, by decide +kernel, seed.2 _ "seed.json" rfl, less', archived⟩

end ChainArchive
