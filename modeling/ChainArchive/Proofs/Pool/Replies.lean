import ChainArchive.Proofs.Pool.Moves

/-!
# Every reply belongs to its request

An ask keeps its request, and what it is answered is what a worker made of that
very request: the worker takes the ask out of its mailbox whole, and answers the
ask that it took.
-/

namespace ChainArchive.Pool
set_option autoImplicit false

variable {ρ α ε : Type}

/-- What the asker was answered, if it was. -/
def Phase.answer? : Phase α ε → Option (Except ε α)
  | .answered answer => some answer
  | .over (.ok answer) => some (.ok answer)
  | .over (.error (.rejected cause)) => some (.error cause)
  | _ => none

/-- Every answer is what a worker makes of the request of the same ask. -/
def Honest (handler : Handler ρ α ε) (p : Pool ρ α ε) : Prop :=
  ∀ (i : Nat) (a : Ask ρ α ε) (answer : Except ε α), p.asks[i]? = some a → a.phase.answer? = some answer →
    ∃ worker handling, handler worker a.request = some handling ∧ handling.answer? = some answer

variable {handler : Handler ρ α ε} {p q : Pool ρ α ε} {action : Action ρ α ε}

theorem asks_setPhase {i j : Nat} {x : Phase α ε} {a : Ask ρ α ε} (found : p.asks[j]? = some a) :
    (p.setPhase i x).asks[j]? = some (if i = j then { a with phase := x } else a) := by
  simp only [setPhase, List.getElem?_modify, found]
  split <;> simp

/-- After a change of one phase every ask is as it was, or it is the one that was changed. -/
theorem asks_of_setPhase {i j : Nat} {x : Phase α ε} {b : Ask ρ α ε} (found : (p.setPhase i x).asks[j]? = some b) :
    ∃ a, p.asks[j]? = some a ∧ (b = a ∨ i = j ∧ b = { a with phase := x }) := by
  cases before : p.asks[j]? with
  | none => simp [setPhase, List.getElem?_modify, before] at found
  | some a =>
    rw [asks_setPhase before, Option.some.injEq] at found
    refine ⟨a, rfl, ?_⟩
    split at found
    · next here => exact .inr ⟨here, found.symm⟩
    · exact .inl found.symm

/-- A worker's answer goes to the ask that it took, or to nobody. -/
theorem conclude_cases (p : Pool ρ α ε) (worker ask : Nat) (answer : Except ε α) :
    (p.conclude worker ask answer).asks = p.asks ∨
      (p.conclude worker ask answer) = p.setPhase ask (.answered answer) := by
  unfold conclude
  split
  · exact .inr rfl
  · exact .inl rfl

/-- Asks stay, with their requests. -/
theorem asks_of_moves (moves : Moves p action q) {i : Nat} {a : Ask ρ α ε} (found : p.asks[i]? = some a) :
    ∃ b, q.asks[i]? = some b ∧ b.request = a.request := by
  have changed : ∀ (r : Pool ρ α ε) (j : Nat) (x : Phase α ε), r.asks = p.asks →
      ∃ b, (r.setPhase j x).asks[i]? = some b ∧ b.request = a.request := by
    intro r j x same
    refine ⟨_, asks_setPhase (same ▸ found), ?_⟩
    split <;> rfl
  cases moves with
  | ask =>
    have bound := (List.getElem?_eq_some_iff.1 found).1
    exact ⟨a, by simpa [begin, List.getElem?_append_left bound] using found, rfl⟩
  | enter => exact changed p _ _ rfl
  | take | panic | close => exact ⟨a, found, rfl⟩
  | @finish worker ask handling answer w =>
    obtain same | set := conclude_cases
      (p.setWorker worker { w with current := none, handled := w.handled ++ [(ask, handling)] }) worker ask answer
    · exact ⟨a, by rw [same]; exact found, rfl⟩
    · rw [set]
      exact changed _ _ _ rfl
  | receive | notice | expire | cancel => exact changed p _ _ rfl

namespace Honest

theorem start {name : String} {size : Nat} (h : (Pool.start name size).result = .ok p) : Honest handler p := by
  unfold Pool.start at h
  split at h
  · cases h
  · cases h
    intro i a answer found
    simp at found

/-- The change of one phase keeps the pool honest if the new answer, if it is one, was there or is the handler's. -/
theorem setPhase (h : Honest handler p) {i : Nat} {x : Phase α ε}
    (honest : ∀ (a : Ask ρ α ε) (answer : Except ε α), p.asks[i]? = some a → x.answer? = some answer →
      ∃ worker handling, handler worker a.request = some handling ∧ handling.answer? = some answer) :
    Honest handler (p.setPhase i x) := by
  intro j b answer found answered
  rcases asks_of_setPhase found with ⟨a, before, rfl | ⟨rfl, rfl⟩⟩
  · exact h j b answer before answered
  · exact honest a answer before answered

theorem moves [DecidableEq α] [DecidableEq ε] (h : Honest handler p) (allowed : p.obeys handler action = true)
    (moves : Moves p action q) : Honest handler q := by
  cases moves with
  | @ask request timeout =>
    intro i a answer found answered
    simp only [begin, List.getElem?_append] at found
    split at found
    · exact h i a answer found answered
    · rw [List.getElem?_singleton] at found
      split at found <;> cases found
      cases answered
  | enter => exact h.setPhase (by simp [Phase.answer?])
  | take | panic | close => exact h
  | @finish worker ask handling answer w there busy answers =>
    have kept : Honest handler
        (p.setWorker worker { w with current := none, handled := w.handled ++ [(ask, handling)] }) := h
    obtain same | set := conclude_cases
      (p.setWorker worker { w with current := none, handled := w.handled ++ [(ask, handling)] }) worker ask answer
    · intro i a answer' found
      rw [same] at found
      exact h i a answer' found
    · rw [set]
      apply kept.setPhase
      intro a answer' found answered
      cases answered
      -- the worker has made of the request what the handler says
      have here : p.asks[ask]? = some a := found
      simp only [obeys, there, busy, Option.bind_some, here, Option.any_some, beq_iff_eq] at allowed
      exact ⟨worker, handling, allowed, answers⟩
  | @receive ask a answer found answered =>
    apply h.setPhase
    intro a' answer' found' answered'
    rw [found, Option.some.injEq] at found'
    subst found'
    have same : a.phase.answer? = some answer' := by
      rw [answered]
      cases answer <;> exact answered'
    exact h ask a answer' found same
  | notice | expire | cancel => exact h.setPhase (by simp [Phase.answer?])

theorem step [DecidableEq α] [DecidableEq ε] (h : Honest handler p) (allowed : p.obeys handler action = true)
    (step : p.step action = some q) : Honest handler q := h.moves allowed (moves_of_step step)

/-- A successful result is a worker's reply to the request of the same ask. -/
theorem of_result (h : Honest handler p) {i : Nat} {reply : α} (result : p.result? i = some (.ok reply)) :
    ∃ a worker, p.asks[i]? = some a ∧ handler worker a.request = some (.reply reply) := by
  unfold result? at result
  split at result
  · next request timeout worker result' found =>
    cases result
    obtain ⟨worker', handling, handled, answers⟩ := h i _ (.ok reply) found rfl
    refine ⟨_, worker', found, ?_⟩
    rw [handled]
    cases handling <;> simp_all [Handling.answer?]
  · cases result

end Honest
end ChainArchive.Pool
