import ChainArchive.Proofs.World.Steps

/-!
# The walker

Every way in which the walker of a run can go on, with the condition under
which it does. Later modules split the walker's step by these cases.
-/

namespace ChainArchive.Run
set_option autoImplicit false

open Archiver (Work)

/-- The steps of the walker, one constructor for each way in which one can go. -/
inductive Walks (store : Store) (now : Nat) (gated : Bool) (r : Run) : Run → Prop
  | seesFlag {current : TransactionId} : r.walker = .checking current → r.pipeline.raised = true →
      Walks store now gated r (r.goTo (.walked .closed))
  | revisits {current : TransactionId} : r.walker = .checking current → r.pipeline.raised = false →
      current ∈ r.visited → Walks store now gated r (r.goTo (.walked (.failed (.chainCycle current))))
  | asks {current : TransactionId} : r.walker = .checking current → r.pipeline.raised = false →
      current ∉ r.visited → Walks store now gated r
        { r with
          walker := .finding current now !gated, visited := r.visited ++ [current], lookups := r.lookups + 1 }
  | finds {current : TransactionId} {asked : Nat} {t : Transaction} : r.walker = .finding current asked true →
      store.find? current = some t → Walks store now gated r (r.find current (.ok t))
  | misses {current : TransactionId} {asked : Nat} : r.walker = .finding current asked true →
      store.find? current = none → Walks store now gated r (r.find current (.error (.notFound current)))
  | calls {t : Transaction} : r.walker = .resolved t → Walks store now gated r (r.enqueue t)
  | resumes {item : Nat} {previous : Option TransactionId} {pipeline : Pipeline Work} :
      r.walker = .enqueueing item previous → r.pipeline.accepted? item = none →
      r.pipeline.resume item = some pipeline →
      Walks store now gated r { r with walker := .enqueueing item previous, pipeline }
  | unwinds {item : Nat} {previous : Option TransactionId} {pipeline : Pipeline Work} :
      r.walker = .enqueueing item previous → r.pipeline.accepted? item = none →
      r.pipeline.unwind item = some pipeline →
      Walks store now gated r { r with walker := .enqueueing item previous, pipeline }
  | isRefused {item : Nat} {previous : Option TransactionId} : r.walker = .enqueueing item previous →
      r.pipeline.accepted? item = some false → Walks store now gated r (r.goTo (.walked .closed))
  | goesOn {item : Nat} {id : TransactionId} : r.walker = .enqueueing item (some id) →
      r.pipeline.accepted? item = some true → Walks store now gated r (r.goTo (.checking id))
  | reachesHead {item : Nat} : r.walker = .enqueueing item none →
      r.pipeline.accepted? item = some true → Walks store now gated r (r.goTo (.walked .complete))
  | aborts {cause : GenerationError} : r.walker = .walked (.failed cause) →
      Walks store now gated r { r with walker := .closing (.failed cause), pipeline := r.pipeline.abort }
  | closes {outcome : WalkEnd} : r.walker = .walked outcome → (∀ cause, outcome ≠ .failed cause) →
      Walks store now gated r (r.goTo (.closing outcome))
  | completes {outcome : WalkEnd} : r.walker = .closing outcome →
      Walks store now gated r { r with walker := .awaiting outcome, pipeline := r.pipeline.complete }
  | ends {outcome : WalkEnd} {result : Except GenerationError Nat} : r.walker = .awaiting outcome →
      r.pipeline.driver = .finished result → Walks store now gated r (r.finish (outcome.result result))
  | withdraws {item : Nat} {pipeline : Pipeline Work} : r.walker = .leaving →
      r.pipeline.withdraw item = some pipeline → Walks store now gated r { r with walker := .leaving, pipeline }
  | leaves {item : Nat} {pipeline : Pipeline Work} : r.walker = .leaving →
      r.pipeline.unwind item = some pipeline → Walks store now gated r { r with walker := .leaving, pipeline }
  | drops : r.walker = .leaving → r.pipeline.isCalling = false →
      Walks store now gated r { r with walker := .dropped, pipeline := r.pipeline.dropHandle }

variable {store : Store} {now : Nat} {gated : Bool} {r r' : Run}

/-- Every step of the walker is one of the listed ones. -/
theorem walks_of_walk (h : r.walk store now gated = some r') : Walks store now gated r r' := by
  unfold walk at h
  cases state : r.walker with
  | checking current =>
    simp only [state, Option.some.injEq] at h
    subst h
    unfold check
    split
    · next raised => exact .seesFlag state raised
    · next raised =>
      split
      · next seen => exact .revisits state (by simpa using raised) (by simpa using seen)
      · next seen => exact .asks state (by simpa using raised) (by simpa using seen)
  | finding current asked answering =>
    simp only [state, Option.ite_none_right_eq_some, Option.some.injEq] at h
    obtain ⟨rfl, rfl⟩ := h
    cases found : store.find? current with
    | some t => simpa [Store.lookup, found] using Walks.finds state found
    | none => simpa [Store.lookup, found] using Walks.misses state found
  | resolved t =>
    simp only [state, Option.some.injEq] at h
    subst h
    exact .calls state
  | enqueueing item previous =>
    simp only [state] at h
    split at h
    · next pending =>
      simp only [Option.map_eq_some_iff, Option.or_eq_some_iff] at h
      rcases h with ⟨pipeline, resumed | ⟨-, unwound⟩, rfl⟩
      · exact .resumes state pending resumed
      · exact .unwinds state pending unwound
    · next refused => cases h; exact .isRefused state refused
    · next accepted =>
      split at h <;> cases h
      · exact .goesOn state accepted
      · exact .reachesHead state accepted
  | walked outcome =>
    simp only [state] at h
    cases outcome with
    | failed cause => cases h; exact .aborts state
    | complete | closed => cases h; exact .closes state (by simp)
  | closing outcome =>
    simp only [state, Option.some.injEq] at h
    subst h
    exact .completes state
  | awaiting outcome =>
    simp only [state] at h
    split at h
    · next result finished => cases h; exact .ends state finished
    · cases h
  | leaving =>
    simp only [state] at h
    split at h
    · simp only [Option.map_eq_some_iff, Option.or_eq_some_iff] at h
      rcases h with ⟨pipeline, withdrawn | ⟨-, unwound⟩, rfl⟩
      · exact .withdraws state withdrawn
      · exact .leaves state unwound
    · next nobody =>
      cases h
      refine .drops state ?_
      simpa [Pipeline.isCalling, List.findIdx?_eq_none_iff] using nobody
  | finished | dropped => simp [state] at h

end ChainArchive.Run
