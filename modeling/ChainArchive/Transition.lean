/-!
# Transitions

A machine moves from state to state by actions. Most machines here are partial
step functions: an action leads from a state to one other state, or is not
possible in it. A path is a run of actions, a state is reachable if some path
leads to it, and what the start has and every move keeps holds in every
reachable state.
-/

namespace ChainArchive
set_option autoImplicit false

variable {σ α : Type}

/-- The moves of a step function. -/
def Steps (step : σ → α → Option σ) : σ → α → σ → Prop := fun s a t => step s a = some t

/-- The moves whose actions are allowed in the states where they are taken. -/
def Restricted (allowed : σ → α → Prop) (moves : σ → α → σ → Prop) : σ → α → σ → Prop :=
  fun s a t => allowed s a ∧ moves s a t

/-- The actions lead from the first state to the last. -/
inductive Path (moves : σ → α → σ → Prop) : σ → List α → σ → Prop
  | nil (s : σ) : Path moves s [] s
  | cons {s t u : σ} {a : α} {actions : List α} :
      moves s a t → Path moves t actions u → Path moves s (a :: actions) u

/-- Some actions lead from the first state to the last. -/
def Reachable (moves : σ → α → σ → Prop) (s t : σ) : Prop := ∃ actions, Path moves s actions t

theorem Path.append {moves : σ → α → σ → Prop} {s t u : σ} {first second : List α}
    (h : Path moves s first t) (h' : Path moves t second u) : Path moves s (first ++ second) u := by
  induction h with
  | nil => exact h'
  | cons hs _ ih => exact .cons hs (ih h')

theorem Path.invariant {moves : σ → α → σ → Prop} {P : σ → Prop} {s t : σ} {actions : List α}
    (h : Path moves s actions t) (start : P s) (keep : ∀ s a t, P s → moves s a t → P t) : P t := by
  induction h with
  | nil => exact start
  | cons hs _ ih => exact ih (keep _ _ _ start hs)

/-- On a path every move is by one of its actions. -/
theorem Path.restricted {moves : σ → α → σ → Prop} {s t : σ} {actions : List α} (h : Path moves s actions t) :
    Path (Restricted (fun _ a => a ∈ actions) moves) s actions t := by
  suffices all : ∀ whole : List α, actions ⊆ whole → Path (Restricted (fun _ a => a ∈ whole) moves) s actions t from
    all actions fun _ member => member
  intro whole inside
  induction h with
  | nil s => exact .nil s
  | cons hs _ ih =>
    obtain ⟨first, rest⟩ := List.cons_subset.1 inside
    exact .cons ⟨first, hs⟩ (ih rest)

theorem Path.of_restricted {allowed : σ → α → Prop} {moves : σ → α → σ → Prop} {s t : σ} {actions : List α}
    (h : Path (Restricted allowed moves) s actions t) : Path moves s actions t := by
  induction h with
  | nil s => exact .nil s
  | cons hs _ ih => exact .cons hs.2 ih

/-- A path is no longer than a rank is high that every move lowers. -/
theorem Path.length_le {moves : σ → α → σ → Prop} {P : σ → Prop} {s t : σ} {actions : List α} (h : Path moves s actions t)
    (rank : σ → Nat) (lowers : ∀ s a t, P s → moves s a t → P t ∧ rank t < rank s) (start : P s) :
    P t ∧ actions.length + rank t ≤ rank s := by
  induction h with
  | nil => exact ⟨start, by simp⟩
  | cons hs _ ih =>
    obtain ⟨kept, lower⟩ := lowers _ _ _ start hs
    obtain ⟨kept, bound⟩ := ih kept
    exact ⟨kept, by simp only [List.length_cons]; omega⟩

theorem Reachable.refl (moves : σ → α → σ → Prop) (s : σ) : Reachable moves s s := ⟨[], .nil s⟩

theorem Reachable.tail {moves : σ → α → σ → Prop} {s t u : σ} {a : α}
    (h : Reachable moves s t) (hs : moves t a u) : Reachable moves s u := by
  obtain ⟨actions, h⟩ := h
  exact ⟨actions ++ [a], h.append (.cons hs (.nil u))⟩

theorem Reachable.trans {moves : σ → α → σ → Prop} {s t u : σ} (h : Reachable moves s t) (h' : Reachable moves t u) :
    Reachable moves s u := by
  obtain ⟨first, h⟩ := h
  obtain ⟨second, h'⟩ := h'
  exact ⟨first ++ second, h.append h'⟩

theorem Reachable.invariant {moves : σ → α → σ → Prop} {P : σ → Prop} {s t : σ}
    (h : Reachable moves s t) (start : P s) (keep : ∀ s a t, P s → moves s a t → P t) : P t := by
  obtain ⟨_, h⟩ := h
  exact h.invariant start keep

theorem Reachable.mono {allowed allowed' : σ → α → Prop} {moves : σ → α → σ → Prop} {s t : σ}
    (h : Reachable (Restricted allowed moves) s t) (weaker : ∀ s a, allowed s a → allowed' s a) :
    Reachable (Restricted allowed' moves) s t := by
  obtain ⟨actions, h⟩ := h
  refine ⟨actions, ?_⟩
  induction h with
  | nil s => exact .nil s
  | cons hs _ ih => exact .cons ⟨weaker _ _ hs.1, hs.2⟩ ih

theorem Reachable.of_restricted {allowed : σ → α → Prop} {moves : σ → α → σ → Prop} {s t : σ}
    (h : Reachable (Restricted allowed moves) s t) : Reachable moves s t :=
  h.invariant (Reachable.refl moves s) fun _ _ _ before step => before.tail step.2

/-- Where every state that has not ended has a move to a state of lower rank, one that has ended can be reached. -/
theorem Reachable.of_descent {ρ : Type} [WellFoundedRelation ρ] {moves : σ → α → σ → Prop} {P ended : σ → Prop}
    (rank : σ → ρ) (descend : ∀ s, P s → ¬ ended s →
      ∃ a t, moves s a t ∧ P t ∧ WellFoundedRelation.rel (rank t) (rank s)) (s : σ) (h : P s) :
    ∃ t, Reachable moves s t ∧ P t ∧ ended t := by
  by_cases done : ended s
  · exact ⟨s, .refl moves s, h, done⟩
  · obtain ⟨a, t, step, kept, lower⟩ := descend s h done
    obtain ⟨u, rest, kept, done⟩ := of_descent rank descend t kept
    exact ⟨u, Reachable.trans ⟨[a], .cons step (.nil t)⟩ rest, kept, done⟩
termination_by rank s

/-- Takes these actions one after the other, as long as they are allowed and possible. -/
def follow (allowed : σ → α → Bool) (step : σ → α → Option σ) : σ → List α → Option σ
  | s, [] => some s
  | s, a :: rest => if allowed s a then (step s a).bind fun t => follow allowed step t rest else none

theorem path_of_follow {step : σ → α → Option σ} {s t : σ} {actions : List α}
    (h : follow (fun _ _ => true) step s actions = some t) : Path (Steps step) s actions t := by
  induction actions generalizing s with
  | nil =>
    cases h
    exact .nil _
  | cons a rest ih =>
    simp only [follow, if_true, Option.bind_eq_some_iff] at h
    obtain ⟨u, first, h⟩ := h
    exact .cons first (ih h)

theorem restricted_of_follow {allowed : σ → α → Bool} {permitted : σ → α → Prop} {step : σ → α → Option σ} {s t : σ}
    {actions : List α} (h : follow allowed step s actions = some t)
    (sound : ∀ s a, allowed s a = true → permitted s a) : Path (Restricted permitted (Steps step)) s actions t := by
  induction actions generalizing s with
  | nil =>
    cases h
    exact .nil _
  | cons a rest ih =>
    simp only [follow, Option.ite_none_right_eq_some, Option.bind_eq_some_iff] at h
    obtain ⟨may, u, first, h⟩ := h
    exact .cons ⟨sound _ a may, first⟩ (ih h)

theorem reachable_of_follow {allowed : σ → α → Bool} {permitted : σ → α → Prop} {step : σ → α → Option σ} {s t : σ}
    {actions : List α} (h : follow allowed step s actions = some t)
    (sound : ∀ s a, allowed s a = true → permitted s a) : Reachable (Restricted permitted (Steps step)) s t :=
  ⟨actions, restricted_of_follow h sound⟩

/-- The first state goes on by itself until it rests in the last. -/
inductive Settles (advance : σ → Option σ) : σ → σ → Prop
  | rest {s : σ} : advance s = none → Settles advance s s
  | next {s t u : σ} : advance s = some t → Settles advance t u → Settles advance s u

/-- Goes on until the state rests, for so many steps at most. -/
def settle (advance : σ → Option σ) : Nat → σ → σ
  | 0, s => s
  | fuel + 1, s =>
    match advance s with
    | some t => settle advance fuel t
    | none => s

theorem settles_settle {advance : σ → Option σ} {fuel : Nat} {s : σ}
    (rests : advance (settle advance fuel s) = none) : Settles advance s (settle advance fuel s) := by
  induction fuel generalizing s with
  | zero => exact .rest rests
  | succ fuel ih =>
    unfold settle at rests ⊢
    cases h : advance s with
    | none => exact .rest h
    | some t =>
      rw [h] at rests
      exact .next h (ih rests)

/-- A state rests in time if each of its steps lowers a rank that is no higher than the number of steps allowed. -/
theorem rests_settle {advance : σ → Option σ} {P : σ → Prop} (rank : σ → Nat)
    (lowers : ∀ s t, P s → advance s = some t → P t ∧ rank t < rank s) {fuel : Nat} {s : σ} (h : P s)
    (enough : rank s ≤ fuel) : P (settle advance fuel s) ∧ advance (settle advance fuel s) = none := by
  induction fuel generalizing s with
  | zero =>
    refine ⟨h, Option.eq_none_iff_forall_ne_some.2 fun t step => ?_⟩
    have := (lowers s t h step).2
    omega
  | succ fuel ih =>
    unfold settle
    cases step : advance s with
    | none => exact ⟨h, step⟩
    | some t =>
      obtain ⟨kept, lower⟩ := lowers s t h step
      exact ih kept (by omega)

end ChainArchive
