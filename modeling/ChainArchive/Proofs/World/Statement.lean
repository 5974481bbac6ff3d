import ChainArchive.Proofs.Run.Trail
import ChainArchive.Proofs.World.Ledger
import Mathlib.Data.List.Perm.Basic

/-!
# What a successful run has written

A run over a fresh statement is alone to write it. Its records enter the archive
in the order in which its items are done, which is any order; but each item that
is done has its one record there, and each record is that of an item. A run that
ended well has all items done, and they are the chain as it was when the run
began.
-/

namespace ChainArchive
set_option autoImplicit false

open Archiver (Work)
open Pipeline (Item)

/-- The requests that a chain becomes under a statement, numbered in the order of the walk. -/
def requests (statement : StatementId) (chain : List Transaction) : List ArchivalRequest :=
  chain.mapIdx fun i t => ⟨statement, i + firstNumber, t⟩

/-- Nothing is inserted from outside, and nobody else writes under the statement. -/
def World.Action.spares (statement : StatementId) : World.Action → Prop
  | .insert _ => False
  | .begin _ other _ => other ≠ statement
  | .relocate record _ => record.statement ≠ statement
  | _ => True

instance (statement : StatementId) : DecidablePred (World.Action.spares statement)
  | .insert _ => isFalse id
  | .begin _ other _ => inferInstanceAs (Decidable (other ≠ statement))
  | .relocate record _ => inferInstanceAs (Decidable (record.statement ≠ statement))
  | .go _ | .wake _ | .abandon _ | .signal .. | .proceedLookup _ | .refuseLookup .. | .drop _ | .tick _ => isTrue trivial

/-- Every live record stands under its own id. -/
def Store.Keyed (s : Store) : Prop := ∀ id t, s.find? id = some t → t.id = id

/-- No run and no record has the statement. -/
structure World.Unused (w : World) (statement : StatementId) : Prop where
  archive : w.store.archivedFor statement = []
  runs : ∀ (k : Nat) (r : Run), w.runs[k]? = some r → r.statement ≠ statement

namespace Store

theorem Keyed.insert {s : Store} (h : s.Keyed) (t : Transaction) : (s.insert t).Keyed := by
  intro id t' found
  rw [find?_insert] at found
  split at found
  · next same =>
    cases found
    exact same.symm
  · exact h id t' found

theorem Keyed.relocate {s after : Store} (h : s.Keyed) {record : ArchivedTransaction} {original : TransactionId}
    (taken : s.relocate record original = .ok after) : after.Keyed := by
  intro id t found
  rw [find?_relocate taken] at found
  split at found
  · cases found
  · exact h id t found

/-- A store that was filled by insertions has every record under its own id. -/
theorem keyed_ofList (capacity : Nat) (transactions : List Transaction) : (ofList capacity transactions).Keyed := by
  have all : ∀ (transactions : List Transaction) (s : Store), s.Keyed → (transactions.foldl Store.insert s).Keyed := by
    intro transactions
    induction transactions with
    | nil => exact fun _ h => h
    | cons t transactions ih => exact fun s h => ih _ (h.insert t)
  exact all transactions _ fun id t found => by simp [find?] at found

/-- After a relocation the table holds nothing that it did not hold before. -/
theorem find?_of_relocate {s after : Store} {record : ArchivedTransaction} {original id : TransactionId} {t : Transaction}
    (taken : s.relocate record original = .ok after) (found : after.find? id = some t) : s.find? id = some t := by
  rw [find?_relocate taken] at found
  split at found
  · cases found
  · exact found

/-- What is not live does not come back. -/
theorem find?_relocate_eq_none {s after : Store} {record : ArchivedTransaction} {original id : TransactionId}
    (taken : s.relocate record original = .ok after) (gone : s.find? id = none) : after.find? id = none := by
  rw [find?_relocate taken]
  split
  · rfl
  · exact gone

end Store

/-- The requests of a sound run are those of what it walked. -/
theorem Run.Sound.requests_eq {r : Run} (h : r.Sound) :
    r.pipeline.items.map (·.request) = requests r.statement r.transactions := by
  apply List.ext_getElem?
  intro i
  simp only [requests, transactions, List.getElem?_map, List.getElem?_mapIdx]
  cases inside : r.pipeline.items[i]? with
  | none => rfl
  | some item =>
    obtain ⟨statement, number⟩ := h.numbered i item inside
    simp only [Option.map_some, Option.some.injEq]
    rw [← statement, ← number]

namespace World

variable {outputs : Transforms} {find : TransactionId → Option Transaction} {first : TransactionId}
  {statement : StatementId} {n : Nat} {w v : World} {action : Action}

theorem keyed_change (h : w.store.Keyed) (change : Change outputs w action v) : v.store.Keyed := by
  cases change with
  | run | begun | ticked => exact h
  | relocated _ _ step => exact h.relocate step.taken
  | inserted t => exact h.insert t
  | moved taken => exact h.relocate taken

/-- Run `n` writes the statement, along the chain that begins with `first` in a table of which part is still live. -/
structure Writing (outputs : Transforms) (find : TransactionId → Option Transaction) (first : TransactionId)
    (statement : StatementId) (n : Nat) (w : World) : Prop where
  sound : w.Sound outputs
  part : ∀ id t, w.store.find? id = some t → find id = some t
  run : ∃ r, w.runs[n]? = some r ∧ r.statement = statement ∧ r.Follows find first
  alone : ∀ (k : Nat) (r : Run), w.runs[k]? = some r → r.statement = statement → k = n
  -- the items that are done, in the order in which their records came to the archive
  booked : ∃ order : List Nat, order.Nodup ∧ (∀ i, i ∈ order ↔ ∃ request, w.Done n i request) ∧
    List.Forall₂ (fun i record => ∃ request, w.Done n i request ∧ RecordOf outputs request record) order
      (w.store.archivedFor statement)
  gone : ∀ i request, w.Done n i request → w.store.find? request.transaction.id = none

namespace Writing

/-- The run goes on along its trail, and no other run gets its statement. -/
theorem runs (h : Writing outputs find first statement n w) (keyed : ∀ id t, find id = some t → t.id = id)
    (change : Change outputs w action v) (spares : action.spares statement) :
    (∃ r, v.runs[n]? = some r ∧ r.statement = statement ∧ r.Follows find first) ∧
      ∀ (k : Nat) (r : Run), v.runs[k]? = some r → r.statement = statement → k = n := by
  obtain ⟨r, found, mine, follows⟩ := h.run
  -- a step of run `k` that keeps its statement
  have set : ∀ (k : Nat) (s s' : Run), w.runs[k]? = some s → s'.statement = s.statement →
      (s.Follows find first → s'.Follows find first) →
      (∃ r, (w.setRun k s').runs[n]? = some r ∧ r.statement = statement ∧ r.Follows find first) ∧
        ∀ (j : Nat) (r : Run), (w.setRun k s').runs[j]? = some r → r.statement = statement → j = n := by
    intro k s s' there same follows'
    constructor
    · by_cases here : n = k
      · subst here
        rw [found, Option.some.injEq] at there
        subst there
        exact ⟨s', runs_setRun_self found, same.trans mine, follows' follows⟩
      · exact ⟨r, (runs_setRun_ne here).trans found, mine, follows⟩
    · intro j r' there' theirs
      rcases runs_setRun there there' with ⟨rfl, rfl⟩ | ⟨-, there'⟩
      · exact h.alone j s there (same.symm.trans theirs)
      · exact h.alone j r' there' theirs
  cases change with
  | run there step =>
    have sound := (h.sound _ _ there).1
    exact set _ _ _ there (step.pipeline sound).1 fun follows => follows.step sound keyed h.part step
  | relocated there _ step =>
    have sound := (h.sound _ _ there).1
    exact set _ _ _ there step.inner.statement fun follows => follows.inner sound step.inner
  | @begun settings other last r' begun =>
    have bound := (List.getElem?_eq_some_iff.1 found).1
    refine ⟨⟨r, by simpa [List.getElem?_append_left bound] using found, mine, follows⟩, ?_⟩
    intro k s there theirs
    rcases runs_append there with there | ⟨-, rfl⟩
    · exact h.alone k s there theirs
    · exact absurd ((Run.statement_begin begun).symm.trans theirs) spares
  | inserted | moved | ticked => exact ⟨⟨r, found, mine, follows⟩, h.alone⟩

/-- Every step keeps the books of the statement. -/
theorem change (h : Writing outputs find first statement n w) (keyed : ∀ id t, find id = some t → t.id = id)
    (change : Change outputs w action v) (spares : action.spares statement) :
    Writing outputs find first statement n v := by
  have sound := h.sound.change change
  obtain ⟨run, alone⟩ := h.runs keyed change spares
  obtain ⟨order, nodup, mem, records⟩ := h.booked
  cases h.sound.books change with
  | neither store done =>
    refine ⟨sound, store ▸ h.part, run, alone, ⟨order, nodup, ?_, ?_⟩, ?_⟩
    · simpa [done] using mem
    · simpa [done, store] using records
    · simpa [done, store] using h.gone
  | @item k i r request record v found own isRecord taken fresh done =>
    have part : ∀ id t, v.store.find? id = some t → find id = some t :=
      fun id t there => h.part id t (Store.find?_of_relocate taken there)
    have archived := Store.archivedFor_relocate taken statement
    by_cases here : k = n
    · subst here
      obtain ⟨r', found', mine, -⟩ := h.run
      rw [found, Option.some.injEq] at found'
      subst found'
      rw [if_pos (isRecord.statement.trans (own.trans mine))] at archived
      refine ⟨sound, part, run, alone, ⟨order ++ [i], ?_, ?_, ?_⟩, ?_⟩
      · refine List.nodup_append.2 ⟨nodup, by simp, ?_⟩
        rintro j member _ last rfl
        obtain rfl : j = i := by simpa using last
        obtain ⟨request', was⟩ := (mem j).1 member
        exact fresh request' was
      · intro j
        simp only [List.mem_append, List.mem_singleton, mem, done]
        constructor
        · rintro (⟨request', was⟩ | rfl)
          · exact ⟨request', .inl was⟩
          · exact ⟨request, .inr ⟨trivial, rfl, rfl⟩⟩
        · rintro ⟨request', was | ⟨-, rfl, -⟩⟩
          · exact .inl ⟨request', was⟩
          · exact .inr rfl
      · rw [archived]
        refine List.rel_append (records.imp ?_) (.cons ⟨request, (done _ _ _).2 (.inr ⟨rfl, rfl, rfl⟩), isRecord⟩ .nil)
        rintro j other ⟨request', was, isOther⟩
        exact ⟨request', (done _ _ _).2 (.inl was), isOther⟩
      · intro j request' now
        rcases (done _ _ _).1 now with was | ⟨-, -, rfl⟩
        · exact Store.find?_relocate_eq_none taken (h.gone j request' was)
        · rw [Store.find?_relocate taken, if_pos isRecord.id.symm]
    · have other : record.statement ≠ statement := by
        intro same
        exact here (h.alone k r found (own.symm.trans (isRecord.statement.symm.trans same)))
      rw [if_neg other, List.append_nil] at archived
      have same : ∀ j request', v.Done n j request' ↔ w.Done n j request' := by
        intro j request'
        rw [done]
        exact or_iff_left fun is => here is.1.symm
      refine ⟨sound, part, run, alone, ⟨order, nodup, ?_, ?_⟩, ?_⟩
      · simpa [same] using mem
      · simpa [same, archived] using records
      · intro j request' now
        exact Store.find?_relocate_eq_none taken (h.gone j request' ((same j request').1 now))
  | inserted => exact absurd spares id
  | @moved record original store taken =>
    have archived := Store.archivedFor_relocate taken statement
    rw [if_neg spares, List.append_nil] at archived
    refine ⟨sound, fun id t there => h.part id t (Store.find?_of_relocate taken there), run, alone,
      ⟨order, nodup, mem, ?_⟩, ?_⟩
    · rw [archived]
      exact records
    · intro j request now
      exact Store.find?_relocate_eq_none taken (h.gone j request now)

/-- A run begins to write a statement that nobody has used. -/
theorem begin {settings : GenerationSettings} (sound : w.Sound outputs) (unused : w.Unused statement)
    (begun : w.step (.begin settings statement first) = some v) :
    Writing outputs w.store.find? first statement w.runs.length v := by
  simp only [step] at begun
  split at begun <;> cases begun
  next r started =>
    have last : (w.runs ++ [r])[w.runs.length]? = some r := by simp
    have nothing : ∀ i request, ¬ World.Done { w with runs := w.runs ++ [r] } w.runs.length i request := by
      rintro i request ⟨r', item, found, inside, -⟩
      rw [last, Option.some.injEq] at found
      subst found
      simp [Run.items_begin started] at inside
    refine ⟨sound.change (.begun started), fun _ _ found => found,
      ⟨r, last, Run.statement_begin started, .begin started⟩, ?_, ⟨[], List.nodup_nil, ?_, ?_⟩, ?_⟩
    · intro k s there theirs
      rcases runs_append there with there | ⟨rfl, -⟩
      · exact absurd theirs (unused.runs k s there)
      · rfl
    · simp [nothing]
    · rw [unused.archive]
      exact .nil
    · exact fun i request now => absurd now (nothing i request)

/-- When the run has ended well, its statement holds the records of the whole chain and nothing else. -/
theorem exact (h : Writing outputs find first statement n w) (keyed : ∀ id t, find id = some t → t.id = id) {r : Run}
    {receipt : Receipt} (found : w.runs[n]? = some r) (success : r.result? = some (.ok receipt)) :
    ∃ chain, Chain find [] first chain .head ∧ (chain.map (·.id)).Nodup ∧ receipt = ⟨statement, chain.length⟩ ∧
      (∃ records, records.Perm (w.store.archivedFor statement) ∧
        List.Forall₂ (RecordOf outputs) (requests statement chain) records) ∧
      ∀ t ∈ chain, w.store.find? t.id = none := by
  obtain ⟨r', found', mine, follows⟩ := h.run
  rw [found, Option.some.injEq] at found'
  subst found'
  have sound := (h.sound n r found).1
  obtain ⟨chain, nodup⟩ := follows.chain keyed success
  obtain ⟨same, count, ended⟩ := sound.of_success success
  have length : r.transactions.length = r.pipeline.items.length := by simp [Run.transactions]
  -- every item is done, with the request that the chain gives it
  have done : ∀ i request, w.Done n i request ↔ (requests statement r.transactions)[i]? = some request := by
    intro i request
    rw [← mine, ← sound.requests_eq, List.getElem?_map, Option.map_eq_some_iff]
    constructor
    · rintro ⟨s, item, there, inside, rfl, -⟩
      rw [found, Option.some.injEq] at there
      subst there
      exact ⟨item, inside, rfl⟩
    · rintro ⟨item, inside, rfl⟩
      refine ⟨r, item, found, inside, rfl, ?_⟩
      rw [ended i item inside]
      rfl
  refine ⟨r.transactions, chain, nodup, ?_, ?_, ?_⟩
  · rw [length, ← count, ← mine, ← same]
  · obtain ⟨order, distinct, mem, records⟩ := h.booked
    have all : (List.range (requests statement r.transactions).length).Perm order := by
      refine (List.perm_ext_iff_of_nodup List.nodup_range distinct).2 fun i => ?_
      simp [mem, done, List.getElem?_eq_some_iff]
    obtain ⟨sorted, forward, perm⟩ := List.perm_comp_forall₂ all records
    refine ⟨sorted, perm, List.forall₂_iff_get.2 ⟨by simpa using forward.length_eq, fun i inside inside' => ?_⟩⟩
    obtain ⟨request, now, isRecord⟩ := (List.forall₂_iff_get.1 forward).2 i (by simpa using inside) inside'
    simp only [List.get_eq_getElem, List.getElem_range, done, List.getElem?_eq_some_iff] at now
    obtain ⟨_, rfl⟩ := now
    exact isRecord
  · intro t member
    obtain ⟨i, inside⟩ := List.mem_iff_getElem?.1 member
    refine h.gone i ⟨statement, i + firstNumber, t⟩ ((done _ _).2 ?_)
    simp [requests, inside]

/-- What a run that begins over a fresh statement keeps true, whatever the others do. -/
theorem reachable (keyed : ∀ id t, find id = some t → t.id = id) (h : Writing outputs find first statement n w)
    (after : Reachable (Restricted (fun w action => w.Answers outputs action ∧ action.spares statement)
      (Steps World.step)) w v) : Writing outputs find first statement n v := by
  apply after.invariant h
  rintro s action t writing ⟨⟨answers, spares⟩, step⟩
  exact writing.change keyed (writing.sound.change_of_step step answers) spares

end Writing

/-- What every world that began without runs keeps true. -/
theorem sound_reachable (idle : w.runs = []) (keyed : w.store.Keyed)
    (before : Reachable (Restricted (Answers outputs) (Steps World.step)) w v) : v.Sound outputs ∧ v.store.Keyed := by
  refine before.invariant (P := fun v => v.Sound outputs ∧ v.store.Keyed) ⟨.start idle, keyed⟩ ?_
  rintro s action t ⟨sound, keyed⟩ ⟨answers, step⟩
  have change := sound.change_of_step step answers
  exact ⟨sound.change change, keyed_change keyed change⟩

/-- A run begins over a statement that nobody has used. Whatever other runs do before and meanwhile, when it ends well it
has walked from the last id to the head through pairwise different records, as they were live when it began, and says
how many; the archive holds under its statement one record of each of them and nothing else, with its place on the
walk, what the compressor made of its payload and what the signer made of the same payload; and none is live. -/
theorem statement_exact {w₀ w₁ w₂ w₃ : World} {settings : GenerationSettings} {last : TransactionId} {r : Run}
    {receipt : Receipt} (idle : w₀.runs = []) (keyed : w₀.store.Keyed)
    (before : Reachable (Restricted (Answers outputs) (Steps World.step)) w₀ w₁) (unused : w₁.Unused statement)
    (begun : w₁.step (.begin settings statement last) = some w₂)
    (meanwhile : Reachable (Restricted (fun w action => w.Answers outputs action ∧ action.spares statement)
      (Steps World.step)) w₂ w₃)
    (found : w₃.runs[w₁.runs.length]? = some r) (success : r.result? = some (.ok receipt)) :
    ∃ chain, Chain w₁.store.find? [] last chain .head ∧ (chain.map (·.id)).Nodup ∧
      receipt = ⟨statement, chain.length⟩ ∧
      (∃ records, records.Perm (w₃.store.archivedFor statement) ∧
        List.Forall₂ (RecordOf outputs) (requests statement chain) records) ∧
      ∀ t ∈ chain, w₃.store.find? t.id = none := by
  obtain ⟨sound, keyed⟩ := sound_reachable idle keyed before
  have writing := (Writing.begin sound unused begun).reachable keyed meanwhile
  exact writing.exact keyed found success

/-- The answers in a list of actions are those of one function. -/
def answersWith (transform : TransformStage → Bytes → Bytes) (w : World) : Action → Bool
  | .signal run item (.answer stage (.ok octets)) =>
    ((w.runs[run]?).bind (·.work? item)).all fun (request, _) => octets == transform stage (Archiver.input request stage)
  | _ => true

theorem answers_of_answersWith {transform : TransformStage → Bytes → Bytes} (h : w.answersWith transform action = true) :
    w.Answers (fun stage payload octets => octets = transform stage payload) action := by
  unfold Answers
  split
  · next run item stage octets =>
    intro r request work found busy
    simpa [answersWith, found, busy] using h
  · trivial

theorem statement_exact_example : ∃ (w₂ w₃ : World) (r : Run),
    exampleWorld.step (.begin {} exampleStatement exampleTail) = some w₂ ∧ w₃.runs[0]? = some r ∧ r.result? = some (.ok ⟨exampleStatement, 2⟩) ∧
    ∃ chain, Chain exampleWorld.store.find? [] exampleTail chain .head ∧ (chain.map (·.id)).Nodup ∧
      (⟨exampleStatement, 2⟩ : Receipt) = ⟨exampleStatement, chain.length⟩ ∧
      (∃ records, records.Perm (w₃.store.archivedFor exampleStatement) ∧
        List.Forall₂ (RecordOf fun stage payload octets => octets = exampleTransform stage payload)
          (requests exampleStatement chain) records) ∧
      ∀ t ∈ chain, w₃.store.find? t.id = none := by
  have possible : ((exampleWorld.step (.begin {} exampleStatement exampleTail)).bind fun w₂ =>
      (follow (fun w action => w.answersWith exampleTransform action && decide (action.spares exampleStatement))
        World.step w₂ exampleActions).bind fun w₃ => (w₃.runs[0]?).bind Run.result?) =
      some (.ok ⟨exampleStatement, 2⟩) := by decide +kernel
  simp only [Option.bind_eq_some_iff] at possible
  obtain ⟨w₂, begun, w₃, followed, r, found, success⟩ := possible
  refine ⟨w₂, w₃, r, begun, found, success, ?_⟩
  refine statement_exact rfl (Store.keyed_ofList _ _) (.refl _ _) ⟨rfl, by simp [exampleWorld]⟩ begun ?_ found success
  apply reachable_of_follow followed
  intro w action allowed
  obtain ⟨answers, spares⟩ := Bool.and_eq_true_iff.1 allowed
  exact ⟨answers_of_answersWith answers, of_decide_eq_true spares⟩

end World
end ChainArchive
