import ChainArchive.Proofs.Store.Relocation
import ChainArchive.Proofs.World.Sound

/-!
# The ledger of a world

However many runs share a store, and however they interleave, fail and are
dropped, the store only ever goes on by relocations. So what an item archived is
in exactly one new record, and no two items, of one run or of two, archived the
same transaction.
-/

namespace ChainArchive
set_option autoImplicit false

open Archiver (Work)
open Pipeline (Item)

/-- Nothing is inserted from outside, and what a caller relocates is archived under its own id. -/
def World.Action.keepsLedger : World.Action → Prop
  | .insert _ => False
  | .relocate record original => record.id = original
  | _ => True

instance : DecidablePred World.Action.keepsLedger
  | .insert _ => isFalse id
  | .relocate record original => decEq record.id original
  | .go _ | .wake _ | .abandon _ | .signal .. | .proceedLookup _ | .refuseLookup .. | .begin .. | .drop _ | .tick _ =>
    isTrue trivial

/-- The transactions that a run has archived, in the order in which it walked them. -/
def Run.archived (r : Run) : List TransactionId :=
  (r.pipeline.items.filter (·.phase.isDone)).map (·.request.transaction.id)

theorem Run.mem_archived {r : Run} {id : TransactionId} : id ∈ r.archived ↔
    ∃ (i : Nat) (item : Item Work), r.pipeline.items[i]? = some item ∧ item.phase.isDone = true ∧
      item.request.transaction.id = id := by
  simp only [archived, List.mem_map, List.mem_filter]
  constructor
  · rintro ⟨item, ⟨member, done⟩, rfl⟩
    obtain ⟨i, inside⟩ := List.mem_iff_getElem?.1 member
    exact ⟨i, item, inside, done, rfl⟩
  · rintro ⟨i, item, inside, done, rfl⟩
    exact ⟨item, ⟨List.mem_of_getElem? inside, done⟩, rfl⟩

namespace World

variable {outputs : Transforms} {w v : World} {action : Action}

/-- Item `i` of run `k` is done, and archived this request. -/
def Done (w : World) (k i : Nat) (request : ArchivalRequest) : Prop :=
  ∃ (r : Run) (item : Item Work), w.runs[k]? = some r ∧ r.pipeline.items[i]? = some item ∧
    item.request = request ∧ item.phase.isDone = true

theorem runs_setRun_self {k : Nat} {r r' : Run} (found : w.runs[k]? = some r) :
    (w.setRun k r').runs[k]? = some r' := by
  have inside := (List.getElem?_eq_some_iff.1 found).1
  simp [setRun, inside]

theorem runs_setRun_ne {k j : Nat} {r' : Run} (other : j ≠ k) : (w.setRun k r').runs[j]? = w.runs[j]? := by
  simp [setRun, Ne.symm other]

/-- What one step does to the store and to the items that are done. -/
inductive Books (outputs : Transforms) (w : World) : Action → World → Prop
  /-- Neither changes. -/
  | neither {action : Action} {v : World} : v.store = w.store → (∀ k i request, v.Done k i request ↔ w.Done k i request) →
      Books outputs w action v
  /-- An item becomes done while the store takes its record. -/
  | item {k i : Nat} {r : Run} {request : ArchivalRequest} {record : ArchivedTransaction} {v : World} :
      w.runs[k]? = some r → request.statement = r.statement → RecordOf outputs request record →
      w.store.relocate record record.id = .ok v.store → (∀ request', ¬ w.Done k i request') →
      (∀ k' i' request', v.Done k' i' request' ↔
        w.Done k' i' request' ∨ k' = k ∧ i' = i ∧ request' = request) →
      Books outputs w (.go (.item k i)) v
  /-- A caller inserts a record, -/
  | inserted (t : Transaction) : Books outputs w (.insert t) { w with store := w.store.insert t }
  /-- or relocates one. -/
  | moved {record : ArchivedTransaction} {original : TransactionId} {store : Store} :
      w.store.relocate record original = .ok store → Books outputs w (.relocate record original) { w with store }

/-- A step of one run, after which the same of its items are done. -/
theorem done_setRun {k : Nat} {r r' : Run} (found : w.runs[k]? = some r)
    (keeps : ∀ (i : Nat) (item : Item Work), r.pipeline.items[i]? = some item → item.phase.isDone = true →
      ∃ x, r'.pipeline.items[i]? = some ⟨item.request, x⟩ ∧ x.isDone = true)
    (was : ∀ (i : Nat) (item : Item Work), r'.pipeline.items[i]? = some item → item.phase.isDone = true →
      ∃ x, r.pipeline.items[i]? = some ⟨item.request, x⟩ ∧ x.isDone = true) (j i : Nat) (request : ArchivalRequest) :
    (w.setRun k r').Done j i request ↔ w.Done j i request := by
  by_cases here : j = k
  · subst here
    constructor
    · rintro ⟨s, item, there, inside, rfl, done⟩
      rw [runs_setRun_self found, Option.some.injEq] at there
      subst there
      obtain ⟨x, before, done⟩ := was i item inside done
      exact ⟨r, _, found, before, rfl, done⟩
    · rintro ⟨s, item, there, inside, rfl, done⟩
      rw [found, Option.some.injEq] at there
      subst there
      obtain ⟨x, after, done⟩ := keeps i item inside done
      exact ⟨r', _, runs_setRun_self found, after, rfl, done⟩
  · simp only [Done, runs_setRun_ne here]

/-- What a step does to the books. -/
theorem Sound.books (h : w.Sound outputs) (change : Change outputs w action v) : Books outputs w action v := by
  cases change with
  | run found step =>
    have sound := (h _ _ found).1
    refine .neither rfl (done_setRun found (fun i item inside done => ?_) fun i item inside done => ?_)
    · obtain ⟨x, after, keeps⟩ := step.keeps sound inside
      exact ⟨x, after, keeps done⟩
    · exact step.was_done sound inside done
  | @relocated k i r r' request record store found isRecord step =>
    have sound := (h _ _ found).1
    obtain ⟨x, before, fresh⟩ := step.inside
    refine .item found (sound.numbered i _ before).1 isRecord (isRecord.id ▸ step.taken) ?_ ?_
    · rintro request' ⟨s, item, there, inside, rfl, done⟩
      rw [found, Option.some.injEq] at there
      subst there
      rw [before, Option.some.injEq] at inside
      subst inside
      simp [fresh] at done
    · intro k' i' request'
      show (w.setRun k r').Done k' i' request' ↔ _
      by_cases here : k' = k
      · subst here
        constructor
        · rintro ⟨s, item, there, inside, rfl, done⟩
          rw [runs_setRun_self found, Option.some.injEq] at there
          subst there
          rcases step.was_done sound inside done with ⟨x, was, done⟩ | ⟨rfl, same⟩
          · exact .inl ⟨r, _, found, was, rfl, done⟩
          · exact .inr ⟨rfl, rfl, same⟩
        · rintro (⟨s, item, there, inside, rfl, done⟩ | ⟨-, rfl, rfl⟩)
          · rw [found, Option.some.injEq] at there
            subst there
            obtain ⟨x, after, keeps⟩ := step.keeps sound inside
            exact ⟨r', _, runs_setRun_self found, after, rfl, keeps done⟩
          · obtain ⟨x, after, done⟩ := step.done
            exact ⟨r', _, runs_setRun_self found, after, rfl, done⟩
      · simp [Done, runs_setRun_ne here, here]
  | @begun settings statement last r begun =>
    refine .neither rfl fun k i request => ⟨?_, ?_⟩
    · rintro ⟨s, item, there, inside, same, done⟩
      rcases runs_append there with there | ⟨-, rfl⟩
      · exact ⟨s, item, there, inside, same, done⟩
      · simp [Run.items_begin begun] at inside
    · rintro ⟨s, item, there, inside, same, done⟩
      have bound := (List.getElem?_eq_some_iff.1 there).1
      exact ⟨s, item, by simpa [List.getElem?_append_left bound] using there, inside, same, done⟩
  | inserted t => exact .inserted t
  | moved taken => exact .moved taken
  | ticked => exact .neither rfl fun _ _ _ => Iff.rfl

/-! ## The invariant -/

/-- What the store and the items that are done say about each other, since the store was the first one. -/
structure Ledger (outputs : Transforms) (first : Store) (new : List ArchivedTransaction) (w : World) : Prop where
  sound : w.Sound outputs
  moved : first.Moved new w.store
  recorded : ∀ k i request, w.Done k i request → ∃ record ∈ new, RecordOf outputs request record
  distinct : ∀ k i request k' i' request', w.Done k i request → w.Done k' i' request' →
    request.transaction.id = request'.transaction.id → k = k' ∧ i = i'

namespace Ledger

variable {first : Store} {new : List ArchivedTransaction}

theorem start (idle : w.runs = []) : Ledger outputs w.store [] w := by
  have nothing : ∀ k i request, ¬ w.Done k i request := by
    rintro k i request ⟨r, item, found, -⟩
    simp [idle] at found
  exact ⟨.start idle, .refl _, fun k i request done => absurd done (nothing k i request),
    fun k i request _ _ _ done => absurd done (nothing k i request)⟩

/-- What an item archived is not live. -/
theorem not_live (h : Ledger outputs first new w) {k i : Nat} {request : ArchivalRequest} (done : w.Done k i request) :
    w.store.find? request.transaction.id = none := by
  obtain ⟨record, member, isRecord⟩ := h.recorded k i request done
  rw [h.moved.find?, if_pos]
  exact List.mem_map.2 ⟨record, member, isRecord.id⟩

/-- A step adds at most one record to the books. -/
theorem change (h : Ledger outputs first new w) (change : Change outputs w action v) (keeps : action.keepsLedger) :
    ∃ more, Ledger outputs first (new ++ more) v := by
  have sound := h.sound.change change
  cases h.sound.books change with
  | neither store done =>
    refine ⟨[], sound, ?_, ?_, ?_⟩
    · rw [store, List.append_nil]
      exact h.moved
    · simpa [done] using h.recorded
    · simpa [done] using h.distinct
  | @item k i r request record v found statement isRecord taken fresh done =>
    have live : ∀ k' i' request', w.Done k' i' request' → request'.transaction.id ≠ request.transaction.id := by
      intro k' i' request' was same
      have gone := h.not_live was
      have here := (Store.relocate_eq_ok taken).1
      rw [same, ← isRecord.id] at gone
      simp [Store.isLive, gone] at here
    refine ⟨[record], sound, h.moved.relocate taken, ?_, ?_⟩
    · intro k' i' request' now
      rcases (done k' i' request').1 now with was | ⟨-, -, rfl⟩
      · obtain ⟨other, member, isOther⟩ := h.recorded k' i' request' was
        exact ⟨other, by simp [member], isOther⟩
      · exact ⟨record, by simp, isRecord⟩
    · intro k₁ i₁ request₁ k₂ i₂ request₂ now₁ now₂ same
      rcases (done k₁ i₁ request₁).1 now₁ with was₁ | ⟨rfl, rfl, rfl⟩
      · rcases (done k₂ i₂ request₂).1 now₂ with was₂ | ⟨rfl, rfl, rfl⟩
        · exact h.distinct k₁ i₁ request₁ k₂ i₂ request₂ was₁ was₂ same
        · exact absurd same (live k₁ i₁ request₁ was₁)
      · rcases (done k₂ i₂ request₂).1 now₂ with was₂ | ⟨rfl, rfl, rfl⟩
        · exact absurd same.symm (live k₂ i₂ request₂ was₂)
        · exact ⟨rfl, rfl⟩
  | inserted t => exact absurd keeps id
  | @moved record original store taken =>
    obtain rfl : record.id = original := keeps
    refine ⟨[record], sound, h.moved.relocate taken, ?_, h.distinct⟩
    intro k i request now
    obtain ⟨other, member, isOther⟩ := h.recorded k i request now
    exact ⟨other, by simp [member], isOther⟩

/-- The books of every state that a world without runs can reach. -/
theorem reachable {w v : World} (idle : w.runs = []) (reach : Reachable
    (Restricted (fun w action => action.keepsLedger ∧ w.Answers outputs action) (Steps World.step)) w v) :
    ∃ new, Ledger outputs w.store new v := by
  refine reach.invariant (P := fun v => ∃ new, Ledger outputs w.store new v) ⟨[], .start idle⟩ ?_
  rintro s action t ⟨new, ledger⟩ ⟨⟨keeps, answers⟩, step⟩
  obtain ⟨more, ledger⟩ := ledger.change (ledger.sound.change_of_step step answers) keeps
  exact ⟨new ++ more, ledger⟩

/-- A run that ended well has archived as many transactions as it says, each in a new record of its statement. -/
theorem archived_of_success (h : Ledger outputs first new w) {k : Nat} {r : Run} {receipt : Receipt}
    (found : w.runs[k]? = some r) (success : r.result? = some (.ok receipt)) : r.archived.length = receipt.archived ∧
      ∀ id ∈ r.archived, ∃ record ∈ new, record.statement = receipt.statement ∧ record.id = id := by
  have sound := (h.sound k r found).1
  obtain ⟨statement, count, ended⟩ := sound.of_success success
  have all : r.pipeline.items.filter (·.phase.isDone) = r.pipeline.items := by
    apply List.filter_eq_self.2
    intro item member
    obtain ⟨i, inside⟩ := List.mem_iff_getElem?.1 member
    rw [ended i item inside]
    rfl
  refine ⟨by simp [Run.archived, all, count], fun id member => ?_⟩
  obtain ⟨i, item, inside, done, rfl⟩ := Run.mem_archived.1 member
  obtain ⟨record, there, isRecord⟩ := h.recorded k i _ ⟨r, item, found, inside, rfl, done⟩
  refine ⟨record, there, ?_, isRecord.id⟩
  rw [isRecord.statement, statement]
  exact (sound.numbered i item inside).1

/-- Two runs have archived nothing in common. -/
theorem disjoint (h : Ledger outputs first new w) {k j : Nat} {r s : Run} (other : k ≠ j) (found : w.runs[k]? = some r)
    (found' : w.runs[j]? = some s) : r.archived.Disjoint s.archived := by
  intro id member member'
  obtain ⟨i, item, inside, done, same⟩ := Run.mem_archived.1 member
  obtain ⟨i', item', inside', done', same'⟩ := Run.mem_archived.1 member'
  have first : w.Done k i item.request := ⟨r, item, found, inside, rfl, done⟩
  have second : w.Done j i' item'.request := ⟨s, item', found', inside', rfl, done'⟩
  exact other (h.distinct _ _ _ _ _ _ first second (same.trans same'.symm)).1

end Ledger

/-! ## Nothing is lost, nothing is archived twice -/

/-- From a store that has archived nothing of what it holds live, each live transaction is at any time either live as it
was or in exactly one new record, and nothing else is archived. A run that ended well has archived as many as it says,
under its statement, and no two runs have archived the same. -/
theorem transactions_conserved {w v : World} (idle : w.runs = [])
    (unarchived : ∀ record ∈ w.store.archive, w.store.isLive record.id = false)
    (reach : Reachable (Restricted (fun _ action => action.keepsLedger) (Steps World.step)) w v) :
    ∃ new, v.store.archive = w.store.archive ++ new ∧ (∀ record ∈ new, w.store.isLive record.id = true) ∧
      (∀ id t, w.store.find? id = some t →
        (v.store.find? id = some t ∧ v.store.archive.countP (·.id == id) = 0) ∨
          (v.store.find? id = none ∧ v.store.archive.countP (·.id == id) = 1 ∧ new.countP (·.id == id) = 1)) ∧
      (∀ (k : Nat) (r : Run) (receipt : Receipt), v.runs[k]? = some r → r.result? = some (.ok receipt) →
        r.archived.length = receipt.archived ∧
          ∀ id ∈ r.archived, ∃ record ∈ new, record.statement = receipt.statement ∧ record.id = id) ∧
      ∀ (k j : Nat) (r s : Run), k ≠ j → v.runs[k]? = some r → v.runs[j]? = some s → r.archived.Disjoint s.archived := by
  -- whatever the transforms answer will do
  have reach' : Reachable (Restricted (fun w action => action.keepsLedger ∧ w.Answers (fun _ _ _ => True) action)
      (Steps World.step)) w v := by
    refine reach.mono fun w action keeps => ⟨keeps, ?_⟩
    unfold Answers
    split <;> simp
  obtain ⟨new, ledger⟩ := Ledger.reachable idle reach'
  refine ⟨new, ledger.moved.archive, ledger.moved.was_live, fun id t was => ?_,
    fun k r receipt => ledger.archived_of_success, fun k j r s => ledger.disjoint⟩
  have before : w.store.archive.countP (·.id == id) = 0 := by
    apply List.countP_eq_zero.2
    intro record member same
    have dead := unarchived record member
    rw [beq_iff_eq.1 same, Store.isLive, was] at dead
    cases dead
  rw [ledger.moved.archive, List.countP_append, before, Nat.zero_add]
  rcases ledger.moved.kept_or_moved was with ⟨kept, none⟩ | ⟨gone, once⟩
  · exact .inl ⟨kept, none⟩
  · exact .inr ⟨gone, once, once⟩

/-! ## An example -/

/-- A chain of two records. -/
def exampleWorld : World :=
  let older : TransactionId := ⟨"older", by decide⟩
  { store := .ofList 10 [⟨older, none, [1, 2]⟩, ⟨⟨"newer", by decide⟩, some older, [3, 4, 5]⟩] }

/-- The id at which the example begins. -/
def exampleTail : TransactionId := ⟨"newer", by decide⟩

/-- The statement that the example writes. -/
def exampleStatement : StatementId := .ofRandom []

/-- Transforms for the example. -/
def exampleTransform : TransformStage → Bytes → Bytes
  | .compress, payload => payload.reverse
  | .sign, payload => [UInt8.ofNat payload.length]

/-- What happens after the run of the example has begun: both items are under way at the same time, and the second one
is done first. -/
def exampleActions : List Action :=
  let answers (item : Nat) (payload : Bytes) : List Action :=
    [.signal 0 item (.answer .sign (.ok (exampleTransform .sign payload))),
      .signal 0 item (.answer .compress (.ok (exampleTransform .compress payload)))]
  let walks (steps : Nat) : List Action := List.replicate steps (.go (.walker 0))
  let drives (steps : Nat) : List Action := List.replicate steps (.go (.driver 0))
  let works (item steps : Nat) : List Action := List.replicate steps (.go (.item 0 item))
  walks 16 ++ [Action.wake 0] ++ drives 7 ++ works 0 1 ++ works 1 1 ++ answers 1 [1, 2] ++ works 1 5 ++ answers 0 [3, 4, 5] ++
    works 0 5 ++ drives 11 ++ walks 1

theorem transactions_conserved_example : ∃ v, follow (fun _ action => decide action.keepsLedger) World.step exampleWorld
      (.begin {} exampleStatement exampleTail :: exampleActions) = some v ∧
    ∃ new, v.store.archive = [] ++ new ∧ (∀ record ∈ new, exampleWorld.store.isLive record.id = true) ∧
      (∀ id t, exampleWorld.store.find? id = some t →
        (v.store.find? id = some t ∧ v.store.archive.countP (·.id == id) = 0) ∨
          (v.store.find? id = none ∧ v.store.archive.countP (·.id == id) = 1 ∧ new.countP (·.id == id) = 1)) := by
  have possible : (follow (fun _ action => decide action.keepsLedger) World.step exampleWorld
      (.begin {} exampleStatement exampleTail :: exampleActions)).isSome = true := by decide +kernel
  obtain ⟨v, followed⟩ := Option.isSome_iff_exists.1 possible
  obtain ⟨new, archive, was_live, each, -⟩ := transactions_conserved (w := exampleWorld) rfl
    (by decide) (reachable_of_follow followed fun _ _ => of_decide_eq_true)
  exact ⟨v, followed, new, archive, was_live, each⟩

end World
end ChainArchive
