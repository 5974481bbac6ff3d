import ChainArchive.Proofs.Run.Sound

/-!
# Sound worlds

Every run of a world stays sound, and all work stays faithful to the payload of
its own item, whatever the other runs do. A step of a run leaves its items with
their requests and makes none of them done; only a relocation does that, and
only of the item whose record the store takes.
-/

namespace ChainArchive
set_option autoImplicit false

open Archiver (Work)
open Pipeline (Phase Item Moves)

/-! ## A step of a run, seen from its pipeline -/

namespace Run

variable {outputs : Transforms} {store after : Store} {now : Nat} {gated : Bool} {r r' : Run}

/-- A step of the pipeline that makes no item done and gives no item a result that is not its own. -/
structure Plain (outputs : Transforms) (r : Run) (action : Pipeline.Action Work) : Prop where
  not_done : ∀ i, action ≠ .finishWork i .done
  faithful : ∀ i new, action = .setWork i new → ∀ request old, r.work? i = some (request, old) →
    new.Faithful outputs request

/-- The walker changes the pipeline by its producer's steps only, and leaves the work on items alone. -/
theorem Walks.pipeline (sound : r.Sound) (step : Walks store now gated r r') : r'.statement = r.statement ∧
    (r'.pipeline = r.pipeline ∨
      ∃ action, action.isOfWork = false ∧ Moves (fun _ => .unstarted) r.pipeline action r'.pipeline) := by
  cases step with
  | @finds current asked t => exact ⟨rfl, .inl rfl⟩
  | misses => exact ⟨rfl, .inl rfl⟩
  | @calls t => exact ⟨rfl, .inr ⟨.call ⟨r.statement, r.visited.length, t⟩, rfl, Pipeline.moves_call _⟩⟩
  | resumes _ _ resumed => exact ⟨rfl, .inr ⟨_, rfl, Pipeline.moves_of_resume resumed⟩⟩
  | unwinds _ _ unwound => exact ⟨rfl, .inr ⟨_, rfl, Pipeline.moves_of_unwind unwound⟩⟩
  | aborts => exact ⟨rfl, .inr ⟨_, rfl, .abort⟩⟩
  | completes state =>
    have quiet : r.pipeline.NoneCalling := sound.positioned.noneCalling (by simp [state]) (by simp [state])
    exact ⟨rfl, .inr ⟨_, rfl, .complete (Pipeline.isCalling_eq_false_iff.2 quiet)⟩⟩
  | @ends outcome result =>
    cases outcome.result result <;> exact ⟨rfl, .inl rfl⟩
  | withdraws _ withdrawn => exact ⟨rfl, .inr ⟨_, rfl, Pipeline.moves_of_withdraw withdrawn⟩⟩
  | leaves _ unwound => exact ⟨rfl, .inr ⟨_, rfl, Pipeline.moves_of_unwind unwound⟩⟩
  | drops _ nobody => exact ⟨rfl, .inr ⟨_, rfl, .dropHandle nobody⟩⟩
  | _ => exact ⟨rfl, .inl rfl⟩

theorem Plain.of_isOfWork {action : Pipeline.Action Work} (other : action.isOfWork = false) : r.Plain outputs action := by
  constructor
  · rintro i rfl
    cases other
  · rintro i new rfl
    cases other

theorem Step.pipeline (sound : r.Sound) (step : Step outputs store now gated r r') : r'.statement = r.statement ∧
    (r'.pipeline = r.pipeline ∨
      ∃ action, r.Plain outputs action ∧ Moves (fun _ => .unstarted) r.pipeline action r'.pipeline) := by
  cases step with
  | walk walked =>
    obtain ⟨statement, same | ⟨action, other, moves⟩⟩ := (walks_of_walk walked).pipeline sound
    · exact ⟨statement, .inl same⟩
    · exact ⟨statement, .inr ⟨action, .of_isOfWork other, moves⟩⟩
  | inner step not_done faithful => exact ⟨step.statement, .inr ⟨_, ⟨not_done, faithful⟩, step.moves⟩⟩
  | proceed | refuse | drop => exact ⟨rfl, .inl rfl⟩

/-- Items keep their requests, and what is done stays done. -/
theorem Step.keeps (sound : r.Sound) (step : Step outputs store now gated r r') {i : Nat} {item : Item Work}
    (inside : r.pipeline.items[i]? = some item) :
    ∃ x, r'.pipeline.items[i]? = some ⟨item.request, x⟩ ∧ (item.phase.isDone = true → x.isDone = true) := by
  rcases step.pipeline sound with ⟨-, same | ⟨action, -, moves⟩⟩
  · exact ⟨item.phase, by rw [same]; exact inside, id⟩
  · obtain ⟨x, now, moved⟩ := Pipeline.moved_of_moves sound.coherent moves inside
    exact ⟨x, now, Phase.isDone_of_moved moved⟩

/-- No item becomes done by a step of the run alone. -/
theorem Step.was_done (sound : r.Sound) (step : Step outputs store now gated r r') {i : Nat} {item : Item Work}
    (inside : r'.pipeline.items[i]? = some item) (done : item.phase.isDone = true) :
    ∃ x, r.pipeline.items[i]? = some ⟨item.request, x⟩ ∧ x.isDone = true := by
  rcases step.pipeline sound with ⟨-, same | ⟨action, plain, moves⟩⟩
  · exact ⟨item.phase, by rw [← same]; exact inside, done⟩
  · rcases Pipeline.origin_of_moves sound.coherent moves inside with ⟨x, before, moved⟩ | ⟨-, -, begins⟩
    · rcases Phase.finishWork_of_isDone moved done with already | ⟨-, finishes⟩
      · exact ⟨x, before, already⟩
      · exact absurd finishes (plain.not_done i)
    · obtain is | is | is := begins <;> simp [is, Phase.isDone, Phase.ending?] at done

namespace Relocates

variable {item : Nat} {request : ArchivalRequest} {record : ArchivedTransaction}

theorem keeps (step : Relocates store r item request record after r') (sound : r.Sound) {i : Nat} {other : Item Work}
    (inside : r.pipeline.items[i]? = some other) :
    ∃ x, r'.pipeline.items[i]? = some ⟨other.request, x⟩ ∧ (other.phase.isDone = true → x.isDone = true) := by
  obtain ⟨x, now, moved⟩ := Pipeline.moved_of_moves sound.coherent step.inner.moves inside
  exact ⟨x, now, Phase.isDone_of_moved moved⟩

/-- The item is there before and was not done. -/
theorem inside (step : Relocates store r item request record after r') :
    ∃ x, r.pipeline.items[item]? = some ⟨request, x⟩ ∧ x.isDone = false := by
  obtain ⟨start, asked, found⟩ := step.work
  exact ⟨_, items_of_work? found, rfl⟩

/-- The item is done. -/
theorem done (step : Relocates store r item request record after r') :
    ∃ x, r'.pipeline.items[item]? = some ⟨request, x⟩ ∧ x.isDone = true := by
  obtain ⟨start, asked, found⟩ := step.work
  have here := items_of_work? found
  have moves := step.inner.moves
  generalize r'.pipeline = q at moves ⊢
  cases moves with
  | finishWork =>
    refine ⟨.ended .done, ?_, rfl⟩
    rw [Pipeline.items_setPhase here, if_pos rfl]

/-- No other item becomes done. -/
theorem was_done (step : Relocates store r item request record after r') (sound : r.Sound) {i : Nat} {other : Item Work}
    (inside : r'.pipeline.items[i]? = some other) (done : other.phase.isDone = true) :
    (∃ x, r.pipeline.items[i]? = some ⟨other.request, x⟩ ∧ x.isDone = true) ∨
      (i = item ∧ other.request = request) := by
  rcases Pipeline.origin_of_moves sound.coherent step.inner.moves inside with ⟨x, before, moved⟩ | ⟨-, called, -⟩
  · rcases Phase.finishWork_of_isDone moved done with already | ⟨-, finishes⟩
    · exact .inl ⟨x, before, already⟩
    · obtain rfl : item = i := by simpa using finishes
      obtain ⟨y, here, -⟩ := step.inside
      rw [here, Option.some.injEq, Item.mk.injEq] at before
      exact .inr ⟨rfl, before.1.symm⟩
  · cases called

end Relocates

/-! ## Faithful work -/

/-- Work that begins or goes on by a plain step of the pipeline is faithful. -/
theorem Faithful.moves {action : Pipeline.Action Work} (h : r.Faithful outputs) (sound : r.Sound)
    (plain : ∀ i new, action = .setWork i new → ∀ request old, r.work? i = some (request, old) →
      new.Faithful outputs request)
    (moves : Moves (fun _ => .unstarted) r.pipeline action r'.pipeline) : r'.Faithful outputs := by
  intro i request work busy
  obtain ⟨x, before, moved⟩ | ⟨-, -, begins⟩ :=
    Pipeline.origin_of_moves sound.coherent moves (items_of_work? busy)
  · have old : ∀ {work : Work}, x = .working work → r.work? i = some (request, work) := by
      rintro work rfl
      simp only [work?, before]
    cases moved with
    | same => exact h i request work (old rfl)
    | next step => cases step; trivial
    | withdraw _ _ _ given => simp at given
    | work previous set => exact plain i work set request previous (old rfl)
  · simp at begins

theorem Faithful.step (h : r.Faithful outputs) (sound : r.Sound) (step : Step outputs store now gated r r') :
    r'.Faithful outputs := by
  rcases step.pipeline sound with ⟨-, same | ⟨action, plain, moves⟩⟩
  · intro i request work busy
    apply h i request work
    rw [← busy]
    unfold work?
    rw [same]
  · exact h.moves sound plain.faithful moves

end Run

/-! ## All runs -/

namespace World

/-- All runs are sound and work with results of their own payloads. -/
def Sound (outputs : Transforms) (w : World) : Prop :=
  ∀ (k : Nat) (r : Run), w.runs[k]? = some r → r.Sound ∧ r.Faithful outputs

variable {outputs : Transforms} {w v : World} {action : Action}

theorem runs_setRun {k j : Nat} {r r' s : Run} (found : w.runs[k]? = some r)
    (h : (w.setRun k r').runs[j]? = some s) : (j = k ∧ s = r') ∨ (j ≠ k ∧ w.runs[j]? = some s) := by
  have inside := (List.getElem?_eq_some_iff.1 found).1
  simp only [setRun, List.getElem?_set] at h
  split at h
  · next here =>
    subst here
    exact .inl ⟨rfl, by simpa [inside] using h.symm⟩
  · next other => exact .inr ⟨Ne.symm other, h⟩

theorem runs_append {j : Nat} {r s : Run} (h : (w.runs ++ [r])[j]? = some s) :
    w.runs[j]? = some s ∨ (j = w.runs.length ∧ s = r) := by
  rw [List.getElem?_append] at h
  split at h
  · exact .inl h
  · rw [List.getElem?_singleton] at h
    split at h <;> cases h
    exact .inr ⟨by omega, rfl⟩

theorem Sound.start (none : w.runs = []) : w.Sound outputs := by
  intro k r found
  simp [none] at found

theorem Sound.change (h : w.Sound outputs) (change : Change outputs w action v) : v.Sound outputs := by
  cases change with
  | run found step =>
    obtain ⟨sound, faithful⟩ := h _ _ found
    intro j s there
    rcases runs_setRun found there with ⟨-, rfl⟩ | ⟨-, there⟩
    · exact ⟨sound.step step, faithful.step sound step⟩
    · exact h j s there
  | relocated found _ step =>
    obtain ⟨sound, faithful⟩ := h _ _ found
    intro j s there
    rcases runs_setRun found there with ⟨-, rfl⟩ | ⟨-, there⟩
    · exact ⟨sound.inner step.inner, faithful.moves sound (by simp) step.inner.moves⟩
    · exact h j s there
  | begun begun =>
    intro j s there
    rcases runs_append there with there | ⟨-, rfl⟩
    · exact h j s there
    · refine ⟨.begin begun, fun i request work busy => ?_⟩
      have := Run.items_of_work? busy
      rw [Run.items_begin begun] at this
      simp at this
  | inserted | moved | ticked => exact h

/-- The request of an item. -/
def request? (w : World) (run item : Nat) : Option ArchivalRequest :=
  (w.runs[run]?).bind fun r => (r.pipeline.items[item]?).map (·.request)

/-- Items stay, with their requests. -/
theorem Sound.request? (h : w.Sound outputs) (change : Change outputs w action v) {run item : Nat}
    {request : ArchivalRequest} (asked : w.request? run item = some request) : v.request? run item = some request := by
  simp only [World.request?, Option.bind_eq_some_iff, Option.map_eq_some_iff] at asked ⊢
  obtain ⟨r, found, i, inside, rfl⟩ := asked
  have bound := (List.getElem?_eq_some_iff.1 found).1
  -- a step of run `k` that keeps its items
  have set : ∀ (k : Nat) (s s' : Run), w.runs[k]? = some s →
      (∀ i : Item Work, s.pipeline.items[item]? = some i → ∃ x, s'.pipeline.items[item]? = some ⟨i.request, x⟩) →
      ∃ r, (w.setRun k s').runs[run]? = some r ∧ ∃ j, r.pipeline.items[item]? = some j ∧ j.request = i.request := by
    intro k s s' there keeps
    simp only [setRun, List.getElem?_set]
    split
    · next here =>
      subst here
      rw [found, Option.some.injEq] at there
      subst there
      obtain ⟨x, now⟩ := keeps i inside
      exact ⟨s', if_pos bound, _, now, rfl⟩
    · exact ⟨r, found, i, inside, rfl⟩
  cases change with
  | run there step =>
    apply set _ _ _ there
    intro i inside
    obtain ⟨x, now, -⟩ := step.keeps (h _ _ there).1 inside
    exact ⟨x, now⟩
  | relocated there _ step =>
    apply set _ _ _ there
    intro i inside
    obtain ⟨x, now, -⟩ := step.keeps (h _ _ there).1 inside
    exact ⟨x, now⟩
  | begun => exact ⟨r, by simpa [List.getElem?_append_left bound] using found, i, inside, rfl⟩
  | inserted | moved | ticked => exact ⟨r, found, i, inside, rfl⟩

/-- Every possible step of a sound world is one of the listed ones. -/
theorem Sound.change_of_step (h : w.Sound outputs) (step : w.step action = some v) (answers : w.Answers outputs action) :
    Change outputs w action v :=
  World.change_of_step step (fun k r found => (h k r found).2) answers

end World
end ChainArchive
