import ChainArchive.Proofs.Json.Readers
import ChainArchive.Proofs.Json.Unambiguous
import ChainArchive.Seed
import ChainArchive.Store

/-!
# No blank id gets in

The id of a record is what the record says in the field for it, whatever else it
says and in whatever way it is written, and a string becomes an id only if it has
a visible character. As an id is never made otherwise, none in a store is blank.
-/

namespace ChainArchive
set_option autoImplicit false
open Json

/-- The text has a visible character. -/
def Visible (text : String) : Prop := ∃ c ∈ text.toList, Blank.isBlank c = false

theorem visible_iff {text : String} : Visible text ↔ Blank.isBlankText text = false := by
  simp only [Visible, Blank.isBlankText, List.all_eq_false, Bool.not_eq_true]

/-- A text is an id as it stands, if it is visible. -/
theorem TransactionId.parse_cases (raw : String) :
    (Visible raw ∧ ∃ id, TransactionId.parse raw = .ok id ∧ id.text = raw) ∨
      ¬ Visible raw ∧ TransactionId.parse raw = .error .emptyTransactionId := by
  by_cases visible : Visible raw
  · exact .inl ⟨visible, ⟨raw, visible_iff.1 visible⟩, parse_eq_ok_iff.2 rfl, rfl⟩
  · refine .inr ⟨visible, dif_neg ?_⟩
    rwa [visible_iff] at visible

namespace Json

/-! ## Ids -/

/-- The string of an id, untrimmed. -/
def Value.ofId (id : TransactionId) : Value := .string (Bytes.ofText id.text)

/-- The string of an id, or null. -/
def Value.ofOptionalId : Option TransactionId → Value
  | some id => .ofId id
  | none => .null

section Ids

variable {place : Place}

theorem readId_sound : Sound place readId fun id value => value = .ofId id := by
  intro text id rest h
  obtain ⟨⟨raw, after⟩, read, h⟩ := bind_eq_ok.1 h
  simp only at h
  split at h
  · next parsed =>
    cases h
    obtain rfl := TransactionId.parse_eq_ok_iff.1 parsed
    exact ⟨_, readText_sound read, rfl⟩
  · cases h

theorem readOptionalId_sound : Sound place readOptionalId fun previous value => value = .ofOptionalId previous := by
  intro text previous rest h
  unfold readOptionalId at h
  split at h
  · next body n =>
    obtain ⟨⟨_, after⟩, word, made⟩ := map_eq_ok.1 h
    cases made
    have whole : skipSpace text = Bytes.ofText "null" ++ rest := by
      rw [n, readWord_sound word]
      rfl
    exact ⟨.null, .null whole, rfl⟩
  · obtain ⟨⟨id, after⟩, read, made⟩ := map_eq_ok.1 h
    cases made
    obtain ⟨value, stands, same⟩ := readId_sound read
    exact ⟨value, stands.of_skipped, same⟩

end Ids

/-! ## Fields -/

section Fields

variable {α δ : Type} {place : Place} {names : List String} {view : String → δ → Option Value}

/-- A field whose value is put to one place of the draft, which is all that is looked at under its name. -/
theorem shows_of {name : String} {get : δ → Option α} {set : δ → α → δ} {read : Bytes → Scan α} {means : α → Value → Prop}
    (sound : Sound place read means)
    (sets : ∀ draft answer value, means answer value → ∀ other ∈ names,
      view other (set draft answer) = if other = name then some value else view other draft)
    (fresh : name ∈ names → ∀ draft, get draft = none → view name draft = none) :
    (Field.of name get set read).Shows names view place := by
  constructor
  · intro draft draft' text rest h
    obtain ⟨⟨answer, after⟩, taken, made⟩ := map_eq_ok.1 h
    cases made
    obtain ⟨value, stands, meant⟩ := sound taken
    exact ⟨value, stands, sets draft answer value meant⟩
  · intro looked draft unset
    exact fresh looked draft (Option.isNone_iff_eq_none.1 (by simpa [Field.of] using unset))

end Fields

/-! ## Records -/

/-- What the draft of a live record shows of its ids. -/
def TransactionDraft.view (name : String) (draft : TransactionDraft) : Option Value :=
  if name = "id" then draft.id.map .ofId else draft.previous.map .ofOptionalId

theorem transactionShape_shows : ∀ field ∈ transactionShape.fields,
    field.Shows ["id", "previous_id"] TransactionDraft.view (.field ["payload"] field.name) := by
  simp only [transactionShape, List.forall_mem_cons]
  refine ⟨shows_of readId_sound ?_ ?_, shows_of readOptionalId_sound ?_ ?_, shows_of readBytes_sound ?_ ?_, nofun⟩
  · rintro draft id _ rfl other looked
    rcases List.mem_pair.1 looked with rfl | rfl <;> rfl
  · rintro _ draft none
    exact congrArg (Option.map Value.ofId) none
  · rintro draft id _ rfl other looked
    rcases List.mem_pair.1 looked with rfl | rfl <;> rfl
  · rintro _ draft none
    exact congrArg (Option.map Value.ofOptionalId) none
  · rintro draft payload value - other looked
    rcases List.mem_pair.1 looked with rfl | rfl <;> rfl
  · intro looked
    exact absurd looked (by decide)

theorem archivedShape_shows : ∀ field ∈ archivedShape.fields,
    field.Shows ["transaction_id"] (fun _ draft => draft.id.map .ofId)
      (.field ["compressed_payload", "signature"] field.name) := by
  have elsewhere {place : Place} {α : Type} {name : String} {get : ArchivedDraft → Option α}
      {set : ArchivedDraft → α → ArchivedDraft} {read : Bytes → Scan α} (sound : Sound place read fun _ _ => True) (other : "transaction_id" ≠ name)
      (keeps : ∀ draft answer, (set draft answer).id = draft.id) :
      (Field.of name get set read).Shows ["transaction_id"] (fun _ draft => draft.id.map Value.ofId) place := by
    refine shows_of sound ?_ ?_
    · rintro draft answer value - looked own
      obtain rfl := List.mem_singleton.1 own
      rw [if_neg other, keeps]
    · intro own
      exact absurd (List.mem_singleton.1 own).symm other
  have statement {place : Place} : Sound place readStatementId fun _ _ => True := by
    intro text id rest h
    obtain ⟨⟨raw, after⟩, read, h⟩ := bind_eq_ok.1 h
    simp only at h
    split at h
    · cases h
      exact ⟨_, readText_sound read, trivial⟩
    · cases h
  have position {place : Place} : Sound place readPosition fun _ _ => True := Sound.forget (readNatBelow_sound _ _)
  simp only [archivedShape, List.forall_mem_cons]
  refine ⟨elsewhere statement (by decide) fun _ _ => rfl, shows_of readId_sound ?_ ?_,
    elsewhere position (by decide) fun _ _ => rfl, elsewhere readBytes_sound (by decide) fun _ _ => rfl,
    elsewhere readBytes_sound (by decide) fun _ _ => rfl, nofun⟩
  · rintro draft id _ rfl other looked
    rw [if_pos (List.mem_singleton.1 looked)]
    rfl
  · rintro _ draft none
    exact congrArg (Option.map Value.ofId) none

/-! ## Documents -/

/-- The fields of a live record, in order. -/
def transactionNames : List String := ["id", "previous_id", "payload"]

/-- The fields of an archived record, in order. -/
def archivedNames : List String :=
  ["statement_id", "transaction_id", "transaction_number", "compressed_payload", "signature"]

/-- The place of a live record. -/
def transactionPlace : Place := .record transactionNames ["payload"]

/-- The place of an archived record. -/
def archivedPlace : Place := .record archivedNames ["compressed_payload", "signature"]

/-- The ids of a live record are the strings that a value has for them, and they are visible. -/
structure Identifies (t : Transaction) (value : Value) : Prop where
  id : value.fields transactionNames "id" = [.ofId t.id]
  previous : match t.previous with
    | some previous => value.fields transactionNames "previous_id" = [.ofId previous]
    | none => value.fields transactionNames "previous_id" = [] ∨ value.fields transactionNames "previous_id" = [.null]
  visible : ∀ id ∈ t.id :: t.previous.toList, Visible id.text

theorem readTransaction_sound : Sound transactionPlace transactionShape.readRecord Identifies := by
  intro text t rest h
  obtain ⟨value, stands, ⟨id, previous, payload⟩, finished, shown⟩ :=
    readRecord_sound transactionShape_shows (by decide) (by decide) (by decide) h
  refine ⟨value, stands, ?_⟩
  have shownId : value.fields transactionNames "id" = (id.map Value.ofId).toList := shown "id" (by decide)
  have shownPrevious : value.fields transactionNames "previous_id" = (previous.map Value.ofOptionalId).toList :=
    shown "previous_id" (by decide)
  cases id with
  | none => cases finished
  | some id =>
    cases payload with
    | none => cases finished
    | some payload =>
      cases finished
      refine ⟨shownId, ?_, fun id _ => visible_iff.2 id.visible⟩
      cases previous with
      | none => exact .inl shownPrevious
      | some previous =>
        cases previous with
        | none => exact .inr shownPrevious
        | some previous => exact shownPrevious

theorem readArchived_sound : Sound archivedPlace archivedShape.readRecord fun r value =>
    value.fields archivedNames "transaction_id" = [.ofId r.id] := by
  intro text r rest h
  obtain ⟨value, stands, draft, finished, shown⟩ :=
    readRecord_sound archivedShape_shows (by decide) (by decide) (by decide) h
  refine ⟨value, stands, ?_⟩
  have shownId : value.fields archivedNames "transaction_id" = (draft.id.map Value.ofId).toList :=
    shown "transaction_id" (by decide)
  have id : draft.id = some r.id := by
    obtain ⟨statement, id, number, compressed, signature⟩ := draft
    cases statement <;> cases id <;> cases number <;> cases compressed <;> cases signature <;> cases finished
    rfl
  exact shownId.trans (by rw [id]; rfl)

end Json

/-- All ids in a store. -/
def Store.ids (s : Store) : List TransactionId :=
  (s.live.flatMap fun entry => entry.1 :: entry.2.id :: entry.2.previous.toList) ++ s.archive.map (·.id) ++ s.failing

/-- A string is read as an id exactly as its text is. -/
theorem readId_string {raw : String} {text body rest : Bytes} (quote : skipSpace text = 34 :: body)
    (literal : Literal .text (Bytes.ofText raw) body rest) : readId text = match TransactionId.parse raw with
      | .ok id => .ok (id, rest)
      | .error e => .error (.unfit e.message) := by
  have read : readText "a string" text = .ok (raw, rest) := by
    rw [readText, quote]
    exact readTextString_eq_ok_iff.2 literal
  simp only [readId, read, bind, Except.bind]
  cases TransactionId.parse raw <;> rfl

/-- The records of a seed are read from the text of its file. -/
theorem listOfJson_of_loadSeed {files : Files} {path : String} {ts : List Transaction}
    (h : (loadSeed files path).result = .ok ts) : ∃ text, files path = .ok text ∧ Transaction.listOfJson text = .ok ts := by
  cases content : files path with
  | error reason =>
    simp only [loadSeed, content] at h
    cases h
  | ok text =>
    cases read : Transaction.listOfJson text with
    | error fault =>
      simp only [loadSeed, content, Except.mapError, bind, Attempt.of, Attempt.andThen, read] at h
      cases h
    | ok ts' =>
      simp only [loadSeed, content, Except.mapError, bind, Attempt.of, Attempt.andThen, read] at h
      cases h
      exact ⟨text, rfl, read⟩

/-- An id is a text with a visible character, as it stands. Every JSON string is read as an id exactly if its text is one,
in whatever way it is spelled. A text is one value at most, whatever is read in it, the ids of loaded records are the
strings which that value has for them, and no id in a store is blank. -/
theorem no_blank_id_enters :
    (∀ raw : String, (∃ id, TransactionId.parse raw = .ok id) ↔ Visible raw) ∧
    (∀ (raw : String) (id : TransactionId), TransactionId.parse raw = .ok id → id.text = raw) ∧
    (∀ (raw : String) (text body rest : Bytes), skipSpace text = 34 :: body →
      Literal .text (Bytes.ofText raw) body rest → readId text = match TransactionId.parse raw with
        | .ok id => .ok (id, rest)
        | .error e => .error (.unfit e.message)) ∧
    (∀ (text : Bytes) (place place' : Place) (value value' : Value), Document place value text →
      Document place' value' text → value = value') ∧
    (∀ (files : Files) (path : String) (ts : List Transaction), (loadSeed files path).result = .ok ts →
      ∃ text values, files path = .ok text ∧ Document (.list transactionPlace) (.array values) text ∧
        List.Forall₂ Identifies ts values) ∧
    (∀ (text : Bytes) (r : ArchivedTransaction), ArchivedTransaction.ofJson text = .ok r →
      Visible r.id.text ∧
        ∃ value, Document archivedPlace value text ∧ value.fields archivedNames "transaction_id" = [.ofId r.id]) ∧
    ∀ (s : Store), ∀ id ∈ s.ids, Visible id.text := by
  refine ⟨?_, fun _ _ => TransactionId.parse_eq_ok_iff.1, fun _ _ _ _ => readId_string,
    fun _ _ _ _ _ => Document.unique, ?_, ?_, ?_⟩
  · intro raw
    rcases TransactionId.parse_cases raw with ⟨visible, id, parsed, -⟩ | ⟨blank, refused⟩
    · exact ⟨fun _ => visible, fun _ => ⟨id, parsed⟩⟩
    · rw [refused]
      exact ⟨nofun, fun visible => absurd visible blank⟩
  · intro files path ts loaded
    obtain ⟨text, content, read⟩ := listOfJson_of_loadSeed loaded
    have each (i : Nat) : Sound ((Place.list transactionPlace).element i) transactionShape.readRecord Identifies :=
      readTransaction_sound
    obtain ⟨_, document, values, rfl, all⟩ := readDocument_sound (readArray_sound each _) read
    exact ⟨text, values, content, document, all⟩
  · intro text r read
    exact ⟨visible_iff.2 r.id.visible, readDocument_sound readArchived_sound read⟩
  · intro s id _
    exact visible_iff.2 id.visible

/-- Ids are loaded from escapes, from behind unknown fields and by position, and a tab from the string of a payload. The
escape of a no-break space is refused. -/
theorem no_blank_id_enters_example :
    let seed := Bytes.ofText
      "[\x7b\"x\":[\x7b\"id\":1\x7d],\"payload\":[1],\"id\":\"\\u00a0a\"\x7d, [\"b\",\"\\ud83d\\ude00\",\"\t2\"] ]"
    let ts : List Transaction :=
      [⟨⟨"\u00a0a", by decide⟩, none, [1]⟩, ⟨⟨"b", by decide⟩, some ⟨"😀", by decide⟩, [9, 50]⟩]
    let archived := Bytes.ofText "[\"00112233445566778899AABBCCDDEEFF\", \"\\tx\", 7, \"\", [255]]"
    let id : TransactionId := ⟨"\tx", by decide⟩
    (loadSeed (fun _ => .ok seed) "seed.json").result = .ok ts ∧
      (∃ text values, Except.ok seed = (.ok text : Except String Bytes) ∧
        Document (.list transactionPlace) (.array values) text ∧ List.Forall₂ Identifies ts values) ∧
      (∃ value, Document archivedPlace value archived ∧ value.fields archivedNames "transaction_id" = [.ofId id]) ∧
      readId (Bytes.ofText " \"\\u00a0\"") = .error (.unfit "Transaction id must not be empty") ∧
      ∀ id ∈ (Store.ofList 10 ts).ids, Visible id.text := by
  intro seed ts archived id
  obtain ⟨-, -, string, -, seeds, archives, stores⟩ := no_blank_id_enters
  have loaded : (loadSeed (fun _ => .ok seed) "seed.json").result = .ok ts := rfl
  obtain ⟨r, read, same⟩ : ∃ r, ArchivedTransaction.ofJson archived = .ok r ∧ r.id = id := ⟨_, rfl, rfl⟩
  have literal : Literal .text (Bytes.ofText "\u00a0") (Bytes.ofText "\\u00a0\"") [] := by
    have char : hexUnit? 48 48 97 48 = some '\u00a0'.toNat := rfl
    exact .unit char .close
  exact ⟨loaded, seeds _ "seed.json" ts loaded, same ▸ (archives archived r read).2,
    string "\u00a0" (Bytes.ofText " \"\\u00a0\"") _ [] rfl literal, stores _⟩

end ChainArchive
