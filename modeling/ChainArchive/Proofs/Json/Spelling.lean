import ChainArchive.Json.Reader
import ChainArchive.Proofs.Json.Strings

/-!
# What is written is read back

A text spells a value for a reader if the reader takes it off the front of any
longer text, as far as what follows cannot be taken for more of a number. Arrays
and objects of such texts spell the lists and records of their values, so a
reader and a writer agree on a type as soon as they do on its parts.
-/

namespace ChainArchive.Json
set_option autoImplicit false

variable {α δ ρ : Type}

/-- What may follow a value: nothing that a number could go on with. -/
def Closes (rest : Bytes) : Prop := ∀ byte ∈ rest.head?, isDigit byte = false ∧ byte ≠ 46 ∧ byte ≠ 69 ∧ byte ≠ 101

@[simp]
theorem closes_nil : Closes [] := by simp [Closes]

/-- A comma or the end of an array or an object. -/
theorem closes_cons {byte : UInt8} (rest : Bytes) (delimiter : byte ∈ [44, 93, 125]) : Closes (byte :: rest) := by
  intro first head
  obtain rfl : byte = first := Option.some.inj head
  simp only [List.mem_cons, List.not_mem_nil, or_false] at delimiter
  rcases delimiter with rfl | rfl | rfl <;> decide

/-- The text spells the value for the reader. It begins with an octet that is neither whitespace nor the end of an
array. -/
structure Spells (item : Bytes → Scan α) (text : Bytes) (value : α) : Prop where
  begins : ∃ byte tail, text = byte :: tail ∧ isSpace byte = false ∧ byte ≠ 93
  reads : ∀ rest, Closes rest → item (text ++ rest) = .ok (value, rest)

/-- A value alone is a document. -/
theorem Spells.readDocument {item : Bytes → Scan α} {text : Bytes} {value : α} (h : Spells item text value) :
    readDocument item text = .ok value := by
  have whole := h.reads [] closes_nil
  rw [List.append_nil] at whole
  rw [Json.readDocument, whole]
  rfl

theorem skipSpace_cons {byte : UInt8} (visible : isSpace byte = false) (text : Bytes) :
    skipSpace (byte :: text) = byte :: text := by
  simp [skipSpace, visible]

/-! ## Commas -/

/-- The texts, each behind a comma. -/
def commas (texts : List Bytes) : Bytes := texts.flatMap (44 :: ·)

@[simp]
theorem commas_nil : commas [] = [] := rfl

@[simp]
theorem commas_cons (text : Bytes) (texts : List Bytes) : commas (text :: texts) = 44 :: (text ++ commas texts) := rfl

/-- Between texts there is a comma: one stands before each but the first. -/
theorem flatten_intersperse (text : Bytes) (texts : List Bytes) :
    ((text :: texts).intersperse [44]).flatten = text ++ commas texts := by
  induction texts generalizing text with
  | nil => simp
  | cons second texts ih =>
    rw [List.intersperse_cons_cons, List.flatten_cons, List.flatten_cons, ih]
    rfl

theorem closes_commas {rest : Bytes} (h : Closes rest) (texts : List Bytes) : Closes (commas texts ++ rest) := by
  cases texts with
  | nil => exact h
  | cons text texts => exact closes_cons _ (by decide)

theorem length_le_commas (texts : List Bytes) : texts.length ≤ (commas texts).length := by
  induction texts with
  | nil => exact Nat.le_refl 0
  | cons text texts ih =>
    simp only [commas_cons, List.length_cons, List.length_append]
    omega

/-! ## Arrays -/

section Arrays

variable {item : Bytes → Scan α} {write : α → Bytes} {values : List α} {rest : Bytes}

theorem nextElement_first {text : Bytes} {value : α} (h : Spells item text value) (rest : Bytes) :
    nextElement true (text ++ rest) = .ok (.element (text ++ rest)) := by
  obtain ⟨byte, tail, rfl, visible, more⟩ := h.begins
  simp only [nextElement, List.cons_append, skipSpace_cons visible]
  split <;> simp_all

theorem nextElement_comma {text : Bytes} {value : α} (h : Spells item text value) (rest : Bytes) :
    nextElement false (44 :: (text ++ rest)) = .ok (.element (text ++ rest)) := by
  obtain ⟨byte, tail, rfl, visible, more⟩ := h.begins
  simp [nextElement, skipSpace_cons (show isSpace 44 = false by decide), skipSpace_cons visible, more]

/-- The elements after the first. -/
theorem readElements_commas (h : ∀ value ∈ values, Spells item (write value) value) {fuel : Nat}
    (enough : values.length < fuel) {read : List α} :
    readElements item fuel false read (commas (values.map write) ++ 93 :: rest) = .ok (read.reverse ++ values, rest) := by
  induction values generalizing fuel read with
  | nil =>
    obtain ⟨fuel, rfl⟩ := Nat.exists_eq_succ_of_ne_zero (Nat.ne_zero_of_lt enough)
    simp [readElements, nextElement, skipSpace_cons (show isSpace 93 = false by decide)]
  | cons value values ih =>
    obtain ⟨fuel, rfl⟩ := Nat.exists_eq_succ_of_ne_zero (Nat.ne_zero_of_lt enough)
    obtain ⟨spelled, others⟩ := List.forall_mem_cons.1 h
    have closes : Closes (commas (values.map write) ++ 93 :: rest) := closes_commas (closes_cons _ (by decide)) _
    rw [List.map_cons, commas_cons, List.cons_append, List.append_assoc, readElements, nextElement_comma spelled]
    simp only [spelled.reads _ closes, ih others (Nat.lt_of_succ_lt_succ enough),
      List.reverse_cons, List.append_assoc, List.singleton_append]

/-- An array of texts spells the list of their values. -/
theorem spells_array (h : ∀ value ∈ values, Spells item (write value) value) (expected : String) :
    Spells (readArray item expected) (array (values.map write)) values := by
  refine ⟨⟨91, _, rfl, by decide, by decide⟩, fun rest _ => ?_⟩
  have bracket (text : Bytes) :
      readArray item expected (91 :: text) = readElements item (text.length + 1) true [] text := by
    simp [readArray, skipSpace_cons (show isSpace 91 = false by decide)]
  rw [array, List.cons_append, bracket]
  cases values with
  | nil => rfl
  | cons value values =>
    obtain ⟨spelled, others⟩ := List.forall_mem_cons.1 h
    have enough := length_le_commas (values.map write)
    rw [List.length_map] at enough
    have closes : Closes (commas (values.map write) ++ 93 :: rest) := closes_commas (closes_cons _ (by decide)) _
    rw [List.map_cons, flatten_intersperse, List.append_assoc, List.append_assoc, readElements,
      nextElement_first spelled, List.singleton_append]
    simp only [spelled.reads _ closes]
    rw [readElements_commas others (by simp only [List.length_append, List.length_cons]; omega)]
    rfl

end Arrays

/-! ## Objects -/

/-- The entries fill the draft: each of them is the first for its field, and its text spells the value for it. -/
inductive Fills (fields : List (Field δ)) : δ → List (String × Bytes) → δ → Prop
  | nil {draft : δ} : Fills fields draft [] draft
  | cons {draft next last : δ} {name : String} {text : Bytes} {entries : List (String × Bytes)} {field : Field δ} :
      fields.find? (·.name == name) = some field → field.isSet draft = false → Spells (field.read draft) text next →
      Fills fields next entries last → Fills fields draft ((name, text) :: entries) last

section Objects

variable {fields : List (Field δ)} {draft next last : δ} {entries : List (String × Bytes)} {rest : Bytes}

/-- The text of one entry. -/
def entryText (entry : String × Bytes) : Bytes := quoted entry.1 ++ 58 :: entry.2

/-- An entry is read after the quote that its key begins with. -/
theorem readEntry_entryText {name : String} {text : Bytes} {field : Field δ}
    (known : fields.find? (·.name == name) = some field) (fresh : field.isSet draft = false)
    (spelled : Spells (field.read draft) text next) (closes : Closes rest) :
    ∃ tail, entryText (name, text) ++ rest = 34 :: tail ∧ readEntry fields draft tail = .ok (next, rest) := by
  refine ⟨name.toList.flatMap escape ++ 34 :: 58 :: (text ++ rest), by simp [entryText, quoted], ?_⟩
  have colon : afterColon (58 :: (text ++ rest)) = .ok (text ++ rest) := by
    simp [afterColon, skipSpace_cons (show isSpace 58 = false by decide)]
  simp only [readEntry, readTextString_escapes, bind, Except.bind, known, fresh, colon]
  exact spelled.reads rest closes

theorem readEntries_commas (h : Fills fields draft entries last) {fuel : Nat} (enough : entries.length < fuel) :
    readEntries fields fuel false draft (commas (entries.map entryText) ++ 125 :: rest) = .ok (last, rest) := by
  induction h generalizing fuel with
  | nil =>
    obtain ⟨fuel, rfl⟩ := Nat.exists_eq_succ_of_ne_zero (Nat.ne_zero_of_lt enough)
    simp [readEntries, nextEntry, skipSpace_cons (show isSpace 125 = false by decide)]
  | @cons _ _ _ _ _ entries _ known fresh spelled _ ih =>
    obtain ⟨fuel, rfl⟩ := Nat.exists_eq_succ_of_ne_zero (Nat.ne_zero_of_lt enough)
    have closes : Closes (commas (entries.map entryText) ++ 125 :: rest) := closes_commas (closes_cons _ (by decide)) _
    obtain ⟨tail, text, read⟩ := readEntry_entryText known fresh spelled closes
    have comma : nextEntry false (44 :: 34 :: tail) = .ok (.key tail) := by
      simp [nextEntry, skipSpace_cons (show isSpace 44 = false by decide),
        skipSpace_cons (show isSpace 34 = false by decide)]
    rw [List.map_cons, commas_cons, List.cons_append, List.append_assoc, text, readEntries, comma]
    simp only [read, ih (Nat.lt_of_succ_lt_succ enough)]

theorem object_cons (entry : String × Bytes) (entries : List (String × Bytes)) :
    object (entry :: entries) = 123 :: (entryText entry ++ (commas (entries.map entryText) ++ [125])) := by
  rw [← List.append_assoc, ← flatten_intersperse]
  rfl

/-- An object whose entries fill a draft spells the record that the draft becomes. -/
theorem spells_object {shape : Shape δ ρ} {record : ρ} (h : Fills shape.fields shape.empty entries last)
    (made : shape.finish last = .ok record) : Spells shape.readRecord (object entries) record := by
  refine ⟨⟨123, _, rfl, by decide, by decide⟩, fun rest _ => ?_⟩
  suffices read : ∀ text : Bytes, object entries ++ rest = 123 :: text →
      readEntries shape.fields (text.length + 1) true shape.empty text = .ok (last, rest) by
    rw [show object entries ++ rest = 123 :: _ from rfl, Shape.readRecord, skipSpace_cons (by decide)]
    simp only [bind, Except.bind, read _ rfl, Shape.conclude, made]
    rfl
  intro text whole
  cases h with
  | nil =>
    cases whole
    rfl
  | @cons _ _ _ _ _ entries _ known fresh spelled others =>
    have closes : Closes (commas (entries.map entryText) ++ 125 :: rest) := closes_commas (closes_cons _ (by decide)) _
    obtain ⟨tail, first, read⟩ := readEntry_entryText known fresh spelled closes
    obtain rfl : 34 :: tail = text := by simpa [object_cons, first] using whole
    have enough : entries.length ≤ tail.length := by
      have := length_le_commas (entries.map entryText)
      have := congrArg List.length first
      simp only [List.length_append, List.length_cons, List.length_map, entryText, quoted] at *
      omega
    have key : nextEntry true (34 :: tail) = .ok (.key tail) := by
      simp [nextEntry, skipSpace_cons (show isSpace 34 = false by decide)]
    rw [readEntries, key]
    simp only [read]
    exact readEntries_commas others (Nat.lt_succ_of_le enough)

end Objects
end ChainArchive.Json
