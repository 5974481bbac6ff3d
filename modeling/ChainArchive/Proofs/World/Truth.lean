import ChainArchive.Proofs.World.Statement
import ChainArchive.World.Turn

/-!
# What an item says about the store

What an item does to the store is seen in the steps of its own task. None of them
changes the store but the one that relocates the item's record, and with that step
its work is done. So an item that is done has relocated its record, and an item
that has come to any other end, or to none yet, has left the store as it was. It
does not matter how the transforms answer, whenever a timeout is over, the task is
stopped or somebody raises the flag.
-/

namespace ChainArchive
set_option autoImplicit false

open Archiver (Work)
open Pipeline (Item)

namespace World

variable {outputs : Transforms} {w v : World}

/-! ## What an item does -/

/-- What can happen in a world where anybody may raise the flag of a run at any time. -/
inductive Happening
  | step (action : Action)
  | raise (run : Nat)

/-- The state after something has happened, if it is possible. -/
def happen (w : World) : Happening → Option World
  | .step action => w.step action
  | .raise run => w.onRun run fun r => some { r with pipeline := r.pipeline.abort }

/-- The item whose task is concerned, if one is. -/
def Happening.item? : Happening → Option Task
  | .step action => action.item?
  | .raise _ => none

/-- Transforms answer as they may. -/
def Happening.Answers (outputs : Transforms) (w : World) : Happening → Prop
  | .step action => w.Answers outputs action
  | .raise _ => True

/-- The store before and after a step, if it is one of this task and changes the store. -/
def deed (task : Task) (w : World) (happening : Happening) (v : World) : List (Store × Store) :=
  if happening.item? = some task ∧ v.store ≠ w.store then [(w.store, v.store)] else []

/-- All that a task does to the store while these things happen. -/
def deeds (task : Task) : World → List Happening → List (Store × Store)
  | _, [] => []
  | w, happening :: rest =>
    match w.happen happening with
    | some v => deed task w happening v ++ deeds task v rest
    | none => []

/-! ## One step -/

/-- The work, the items and the walker do not depend on the flag. -/
theorem Sound.raise (h : w.Sound outputs) {k : Nat} (raised : w.happen (.raise k) = some v) :
    v.Sound outputs ∧ v.store = w.store ∧ ∀ j i request, v.Done j i request ↔ w.Done j i request := by
  obtain ⟨r, r', found, same, rfl⟩ := onRun_eq_some raised
  cases same
  obtain ⟨sound, faithful⟩ := h k r found
  have moves : Pipeline.Moves (fun _ => Work.unstarted) r.pipeline .abort r.pipeline.abort := .abort
  refine ⟨fun j s there => ?_, rfl, ?_⟩
  · rcases runs_setRun found there with ⟨-, rfl⟩ | ⟨-, there⟩
    · exact ⟨⟨sound.coherent.step moves, sound.numbered, sound.positioned⟩, faithful⟩
    · exact h j s there
  · exact done_setRun found (fun i item inside done => ⟨_, inside, done⟩) fun i item inside done => ⟨_, inside, done⟩

theorem Sound.happen (h : w.Sound outputs) {happening : Happening} (happens : w.happen happening = some v)
    (answers : happening.Answers outputs w) : v.Sound outputs := by
  cases happening with
  | step action => exact h.change (h.change_of_step happens answers)
  | raise run => exact (h.raise happens).1

/-- A step of an item's task leaves the store alone, or it relocates the item's record and then the item is done. No
other step makes the item done. -/
theorem Sound.deed_cases (h : w.Sound outputs) {happening : Happening} (happens : w.happen happening = some v)
    (answers : happening.Answers outputs w) (k i : Nat) :
    (deed (.item k i) w happening v = [] ∧ ∀ request, v.Done k i request ↔ w.Done k i request) ∨
      ∃ request record, deed (.item k i) w happening v = [(w.store, v.store)] ∧ (∀ request', ¬ w.Done k i request') ∧
        v.Done k i request ∧ RecordOf outputs request record ∧ w.store.relocate record record.id = .ok v.store := by
  have none (same : happening.item? = some (.item k i) → v.store = w.store) : deed (.item k i) w happening v = [] :=
    if_neg fun ⟨own, changed⟩ => changed (same own)
  cases happening with
  | raise run =>
    obtain ⟨-, -, done⟩ := h.raise happens
    exact .inl ⟨none nofun, done k i⟩
  | step action =>
    cases h.books (h.change_of_step happens answers) with
    | neither same done => exact .inl ⟨none fun _ => same, done k i⟩
    | inserted t => exact .inl ⟨none nofun, fun _ => Iff.rfl⟩
    | moved => exact .inl ⟨none nofun, fun _ => Iff.rfl⟩
    | @item k' i' r request record v _ _ isRecord taken fresh done =>
      by_cases own : k = k' ∧ i = i'
      · obtain ⟨rfl, rfl⟩ := own
        have changed : v.store ≠ w.store := by
          intro same
          have grown := congrArg List.length (Store.archive_relocate taken)
          rw [same, List.length_append, List.length_singleton] at grown
          omega
        refine .inr ⟨request, record, if_pos ⟨rfl, changed⟩, fresh, ?_, isRecord, taken⟩
        exact (done k i request).2 (.inr ⟨rfl, rfl, rfl⟩)
      · refine .inl ⟨none fun mine => ?_, fun request' => ?_⟩
        · cases mine
          exact absurd ⟨rfl, rfl⟩ own
        · rw [done k i request']
          exact or_iff_left fun ⟨run, item, _⟩ => own ⟨run, item⟩

/-! ## A whole run -/

/-- Over any course of things an item's task does nothing to the store and the item is not made done, or the task does
one thing: it relocates the item's record, and the item is made done. -/
theorem Sound.deeds_cases (h : w.Sound outputs) {happenings : List Happening}
    (path : Path (Restricted (fun w happening => happening.Answers outputs w) (Steps World.happen)) w happenings v)
    (k i : Nat) :
    (deeds (.item k i) w happenings = [] ∧ ∀ request, v.Done k i request ↔ w.Done k i request) ∨
      ∃ before after request record, deeds (.item k i) w happenings = [(before, after)] ∧
        (∀ request', ¬ w.Done k i request') ∧ v.Done k i request ∧ RecordOf outputs request record ∧
        before.relocate record record.id = .ok after := by
  induction path with
  | nil w => exact .inl ⟨rfl, fun _ => Iff.rfl⟩
  | @cons w u v happening rest step path ih =>
    obtain ⟨answers, happens⟩ := step
    have next : w.happen happening = some u := happens
    have parts : deeds (.item k i) w (happening :: rest) =
        deed (.item k i) w happening u ++ deeds (.item k i) u rest := by rw [deeds, next]
    rw [parts]
    rcases h.deed_cases happens answers k i with ⟨idle, same⟩ | ⟨request, record, own, fresh, done, isRecord, taken⟩
    · simp only [idle, List.nil_append, ← same]
      exact ih (h.happen happens answers)
    · rcases ih (h.happen happens answers) with ⟨idle, same⟩ | ⟨-, -, -, -, -, undone, -⟩
      · rw [own, idle]
        exact .inr ⟨_, _, request, record, rfl, fresh, (same request).2 done, isRecord, taken⟩
      · exact absurd done (undone request)

/-- An item that is there is done if it has come to that end, and with no request but its own. -/
theorem done_iff {k i : Nat} {r : Run} {item : Item Work} {request : ArchivalRequest} (found : w.runs[k]? = some r)
    (inside : r.pipeline.items[i]? = some item) :
    w.Done k i request ↔ item.request = request ∧ item.phase.ending? = some .done := by
  constructor
  · rintro ⟨s, j, there, here, rfl, done⟩
    cases found.symm.trans there
    cases inside.symm.trans here
    exact ⟨rfl, beq_iff_eq.1 done⟩
  · rintro ⟨rfl, ending⟩
    exact ⟨r, item, found, inside, rfl, beq_iff_eq.2 ending⟩

/-- What an item says is true. An item is done if and only if it has relocated its record, which then is all that its
task has done to the store. An item that has failed in any way, was stopped, has panicked or has not come to its end
has changed nothing. -/
theorem result_tells_truth {happenings : List Happening} {k i : Nat} {r : Run} {item : Item Work} (idle : w.runs = [])
    (path : Path (Restricted (fun w happening => happening.Answers outputs w) (Steps World.happen)) w happenings v)
    (found : v.runs[k]? = some r) (inside : r.pipeline.items[i]? = some item) :
    (item.phase.ending? = some .done ↔ ∃ before after record, deeds (.item k i) w happenings = [(before, after)] ∧
      RecordOf outputs item.request record ∧ before.relocate record item.request.transaction.id = .ok after) ∧
    (item.phase.ending? ≠ some .done → deeds (.item k i) w happenings = []) := by
  have start : w.Sound outputs := .start idle
  have nothing (request : ArchivalRequest) : ¬ w.Done k i request := by
    rintro ⟨s, -, there, -⟩
    simp [idle] at there
  rcases start.deeds_cases path k i with ⟨none, same⟩ | ⟨before, after, request, record, one, -, done, isRecord, taken⟩
  · have undone : item.phase.ending? ≠ some .done := fun ending =>
      nothing item.request ((same _).1 ((done_iff found inside).2 ⟨rfl, ending⟩))
    refine ⟨⟨fun ending => absurd ending undone, ?_⟩, fun _ => none⟩
    rintro ⟨before, after, record, one, -⟩
    rw [none] at one
    cases one
  · obtain ⟨rfl, ending⟩ := (done_iff found inside).1 done
    exact ⟨⟨fun _ => ⟨before, after, record, one, isRecord, isRecord.id ▸ taken⟩, fun _ => ending⟩, absurd ending⟩

/-- Two items are under way; when the first one is done, somebody raises the flag, and only then the transforms of the
second one answer. -/
def raisedMeanwhile : List Happening :=
  let answers (item : Nat) (payload : Bytes) : List Action :=
    [.signal 0 item (.answer .sign (.ok (exampleTransform .sign payload))),
      .signal 0 item (.answer .compress (.ok (exampleTransform .compress payload)))]
  let walks (steps : Nat) : List Action := List.replicate steps (.go (.walker 0))
  let drives (steps : Nat) : List Action := List.replicate steps (.go (.driver 0))
  let works (item steps : Nat) : List Action := List.replicate steps (.go (.item 0 item))
  let before := [Action.begin {} exampleStatement exampleTail] ++ walks 16 ++ [Action.wake 0] ++ drives 7 ++ works 0 1 ++
    works 1 1 ++ answers 0 [3, 4, 5] ++ works 0 5
  before.map .step ++ [Happening.raise 0] ++ (answers 1 [1, 2] ++ works 1 1).map .step

theorem result_tells_truth_example : ∃ (v : World) (r : Run) (first second : Item Work) (before after : Store)
    (record : ArchivedTransaction), v.runs[0]? = some r ∧
    r.pipeline.items[0]? = some first ∧ first.phase.ending? = some .done ∧
    deeds (.item 0 0) exampleWorld raisedMeanwhile = [(before, after)] ∧
    before.relocate record first.request.transaction.id = .ok after ∧
    r.pipeline.items[1]? = some second ∧ second.phase.ending? = some (.failed .aborted) ∧
    deeds (.item 0 1) exampleWorld raisedMeanwhile = [] := by
  let allowed (w : World) : Happening → Bool
    | .step action => w.answersWith exampleTransform action
    | .raise _ => true
  have possible : (follow allowed World.happen exampleWorld raisedMeanwhile).any fun (v : World) =>
      (v.runs[0]?).any fun (r : Run) => ((r.pipeline.items[0]?).any fun (first : Item Work) => first.phase.ending? == some .done) &&
        ((r.pipeline.items[1]?).any fun (second : Item Work) => second.phase.ending? == some (.failed .aborted)) := by
    decide +kernel
  simp only [Option.any_eq_true, Bool.and_eq_true, beq_iff_eq] at possible
  obtain ⟨v, followed, r, found, ⟨first, inside, done⟩, second, inside', failed⟩ := possible
  have path : Path (Restricted (fun w happening => happening.Answers
      (fun stage payload octets => octets = exampleTransform stage payload) w) (Steps World.happen)) exampleWorld
      raisedMeanwhile v := by
    refine restricted_of_follow followed fun w happening answers => ?_
    cases happening with
    | step action => exact answers_of_answersWith answers
    | raise run => trivial
  obtain ⟨before, after, record, one, -, taken⟩ := (result_tells_truth rfl path found inside).1.1 done
  have none := (result_tells_truth rfl path found inside').2 (by simp [failed])
  exact ⟨v, r, first, second, before, after, record, found, inside, done, one, taken, inside', failed, none⟩

end World
end ChainArchive
