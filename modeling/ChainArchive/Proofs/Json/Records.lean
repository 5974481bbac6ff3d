import ChainArchive.Proofs.Json.Numbers
import ChainArchive.Proofs.StatementId
import ChainArchive.Seed

/-!
# Records are read back

Each field of a record is read back from what was written for it: an id from its
text, which may hold any characters, a statement id from its digits, a missing
predecessor from `null`. So the records are, and so is a list of them, as a seed
file holds it.
-/

namespace ChainArchive
set_option autoImplicit false
open Json

/-! ## Fields -/

namespace Json

variable {α δ : Type} {rest : Bytes}

theorem readText_quoted (text expected : String) : readText expected (quoted text ++ rest) = .ok (text, rest) := by
  rw [quoted, List.cons_append, readText, skipSpace_cons (by decide), List.append_assoc]
  exact readTextString_escapes text

theorem spells_id (id : TransactionId) : Spells readId id.toJson id := by
  refine ⟨⟨34, _, rfl, by decide, by decide⟩, fun rest _ => ?_⟩
  simp only [readId, TransactionId.toJson, readText_quoted, bind, Except.bind, TransactionId.parse_eq_ok_iff.2 rfl]
  rfl

theorem spells_statementId (id : StatementId) : Spells readStatementId id.toJson id := by
  refine ⟨⟨34, _, rfl, by decide, by decide⟩, fun rest _ => ?_⟩
  simp only [readStatementId, StatementId.toJson, readText_quoted, bind, Except.bind, StatementId.read_text]
  rfl

theorem spells_optionalId (previous : Option TransactionId) :
    Spells readOptionalId (orNull (previous.map TransactionId.toJson)) previous := by
  cases previous with
  | none => exact ⟨⟨110, _, rfl, by decide, by decide⟩, fun rest _ => rfl⟩
  | some id =>
    obtain ⟨begins, reads⟩ := spells_id id
    refine ⟨begins, fun rest closes => ?_⟩
    have quote : skipSpace (id.toJson ++ rest) = id.toJson ++ rest := skipSpace_cons (by decide) _
    show readOptionalId (id.toJson ++ rest) = _
    rw [readOptionalId, quote]
    show (readId (id.toJson ++ rest)).map _ = _
    rw [reads rest closes]
    rfl

theorem spells_position {number : Nat} (small : number < 2 ^ 32) : Spells readPosition (decimal number) number :=
  spells_natBelow small (by decide) "u32"

/-- What a text spells for a field's reader it spells for the field, which puts the value into the draft. -/
theorem spells_field {name : String} {get : δ → Option α} {set : δ → α → δ} {read : Bytes → Scan α} {text : Bytes}
    {value : α} (h : Spells read text value) (draft : δ) :
    Spells ((Field.of name get set read).read draft) text (set draft value) := by
  refine ⟨h.begins, fun rest closes => ?_⟩
  simp only [Field.of, h.reads rest closes]
  rfl

/-! ## Records -/

theorem spells_transaction (t : Transaction) : Spells transactionShape.readRecord t.toJson t := by
  refine spells_object (?_ : Fills _ _ _ ⟨some t.id, some t.previous, some t.payload⟩) rfl
  exact .cons rfl rfl (spells_field (spells_id t.id) _) <|
    .cons rfl rfl (spells_field (spells_optionalId t.previous) _) <|
    .cons rfl rfl (spells_field (spells_octets t.payload) _) .nil

theorem spells_archived {r : ArchivedTransaction} (small : r.number < 2 ^ 32) :
    Spells archivedShape.readRecord r.toJson r := by
  refine spells_object
    (?_ : Fills _ _ _ ⟨some r.statement, some r.id, some r.number, some r.compressed, some r.signature⟩) rfl
  exact .cons rfl rfl (spells_field (spells_statementId r.statement) _) <|
    .cons rfl rfl (spells_field (spells_id r.id) _) <|
    .cons rfl rfl (spells_field (spells_position small) _) <|
    .cons rfl rfl (spells_field (spells_octets r.compressed) _) <|
    .cons rfl rfl (spells_field (spells_octets r.signature) _) .nil

end Json

/-! ## The whole -/

/-- Every record, and every list of them, is read back from the JSON text that is written for it; a seed file with such a
text holds the list. -/
theorem records_read_back : (∀ t : Transaction, Transaction.ofJson t.toJson = .ok t) ∧
    (∀ ts : List Transaction, Transaction.listOfJson (Transaction.listToJson ts) = .ok ts) ∧
    (∀ r : ArchivedTransaction, r.number < 2 ^ 32 → ArchivedTransaction.ofJson r.toJson = .ok r) ∧
    ∀ (files : Files) (path : String) (ts : List Transaction), files path = .ok (Transaction.listToJson ts) →
      (loadSeed files path).result = .ok ts := by
  have lists (ts : List Transaction) : Transaction.listOfJson (Transaction.listToJson ts) = .ok ts :=
    (spells_array (fun t _ => spells_transaction t) "a sequence").readDocument
  refine ⟨fun t => (spells_transaction t).readDocument, lists, fun r small => (spells_archived small).readDocument,
    fun files path ts content => ?_⟩
  simp only [loadSeed, content, Except.mapError, bind, Attempt.of, Attempt.andThen, lists]
  rfl

/-! ## An example -/

/-- An id with a quote, a backslash, control characters, characters beyond ASCII and blanks around it. -/
def exampleId : TransactionId := ⟨" \"tx\\\n\x07é𝄞\u3000", by decide⟩

def exampleTransactions : List Transaction := [⟨exampleId, none, [0, 10, 255]⟩, ⟨⟨"tx", by decide⟩, some exampleId, []⟩]

def exampleArchived : ArchivedTransaction :=
  ⟨⟨List.replicate 16 0xab, rfl⟩, exampleId, 4294967295, [120, 156], [7]⟩

theorem records_read_back_example :
    exampleTransactions.map (fun t => Transaction.ofJson t.toJson) = exampleTransactions.map .ok ∧
      ArchivedTransaction.ofJson exampleArchived.toJson = .ok exampleArchived ∧
      (loadSeed (fun _ => .ok (Transaction.listToJson exampleTransactions)) "seed.json").result =
        .ok exampleTransactions :=
  ⟨List.map_congr_left fun t _ => records_read_back.1 t, records_read_back.2.2.1 exampleArchived (by decide),
    records_read_back.2.2.2 _ "seed.json" exampleTransactions rfl⟩

end ChainArchive
