import ChainArchive.Proofs.Pool.Faults

/-!
# Asks that end without an answer

An asker is told that its time is over only when its own time is: an ask keeps
the timeout that it came with. Besides that it can be told that the worker is
gone, or what the worker refused its own request with.
-/

namespace ChainArchive.Pool
set_option autoImplicit false

variable {ρ α ε : Type} {handler : Handler ρ α ε} {p q : Pool ρ α ε} {action : Action ρ α ε} {i : Nat}

theorem Ask.Next.timeout {a b : Ask ρ α ε} (h : a.Next p i action b) : b.timeout = a.timeout := by cases h <;> rfl

/-- Asks stay, with their timeouts. -/
theorem timeout_of_moves (moves : Moves p action q) {timeout : Span} (set : (p.asks[i]?).map (·.timeout) = some timeout) :
    (q.asks[i]?).map (·.timeout) = some timeout := by
  obtain ⟨a, found, rfl⟩ := Option.map_eq_some_iff.1 set
  obtain ⟨b, later, -⟩ := asks_of_moves moves found
  refine Option.map_eq_some_iff.2 ⟨b, later, ?_⟩
  rcases ask_of_moves moves later with ⟨a', before, next⟩ | ⟨_, _, -, beyond, -⟩
  · rw [next.timeout, Option.some.inj (before.symm.trans found)]
  · exact absurd (List.getElem?_eq_some_iff.1 found).1 (by omega)

/-- Whoever was told that the time is over had waited for as long as it meant to. -/
def Punctual (p : Pool ρ α ε) : Prop :=
  ∀ (i : Nat) (a : Ask ρ α ε) (name : String) (span : Span), p.asks[i]? = some a →
    a.phase = .over (.error (.timeout name span)) → span = a.timeout

namespace Punctual

theorem start {name : String} {size : Nat} (h : (Pool.start name size).result = .ok p) : Punctual p := by
  unfold Pool.start at h
  split at h
  · cases h
  · cases h
    intro i a name span found
    cases found

theorem moves (h : Punctual p) (moves : Moves p action q) : Punctual q := by
  intro i b name span found late
  rcases ask_of_moves moves found with ⟨a, before, next⟩ | ⟨request, timeout, -, -, rfl⟩
  · rw [next.timeout]
    cases next with
    | same => exact h i b name span before late
    | expire =>
      cases late
      rfl
    | enter | answer | notice | cancel => cases late
    | @receive answer => cases answer <;> cases late
  · cases late

theorem step (h : Punctual p) (step : p.step action = some q) : Punctual q := h.moves (moves_of_step step)

end Punctual

/-- An asker that waits can always find its time over, and is told so. -/
theorem exists_expire {a : Ask ρ α ε} (found : p.asks[i]? = some a) (waits : a.isWaiting = true) :
    ∃ q, p.step (.expire i) = some q ∧ q.result? i = some (.error (.timeout p.name a.timeout)) := by
  refine ⟨_, step_of_moves (.expire found waits), result?_of_over (a := { a with phase := _ }) ?_ rfl⟩
  simp [say, asks_setPhase found]

/-- Why an ask with this timeout has no answer, where the worker may refuse its request so. -/
inductive Missed (timeout : Span) (refuses : ε → Prop) : AskError ε → Prop
  | late {name : String} : Missed timeout refuses (.timeout name timeout)
  | lost {name : String} : Missed timeout refuses (.closed name)
  | refused {cause : ε} : refuses cause → Missed timeout refuses (.rejected cause)

/-- An ask without an answer ran out of its own time, or its worker is gone or has refused its request. -/
theorem missed_of_result (punctual : Punctual p) (honest : Honest handler p) {a : Ask ρ α ε} {e : AskError ε}
    (found : p.asks[i]? = some a) (told : p.result? i = some (.error e)) :
    Missed a.timeout (fun cause => ∃ worker, handler worker a.request = some (.reject cause)) e := by
  obtain ⟨a', found', ended⟩ := phase_of_result told
  obtain rfl : a' = a := Option.some.inj (found'.symm.trans found)
  cases e with
  | timeout name span =>
    obtain rfl := punctual i a' name span found ended
    exact .late
  | closed => exact .lost
  | rejected cause =>
    obtain ⟨worker, handling, handled, answers⟩ := honest i a' (.error cause) found (by rw [ended]; rfl)
    refine .refused ⟨worker, ?_⟩
    rw [handled]
    cases handling <;> cases answers
    rfl

end ChainArchive.Pool
