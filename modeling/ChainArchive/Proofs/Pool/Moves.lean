import ChainArchive.Pool
import Mathlib.Tactic.Common

/-!
# What a step of a pool can be

Every possible step, with the condition under which it is taken and the state
that it leads to. Later modules split a step by these cases and never unfold the
machine.
-/

namespace ChainArchive
set_option autoImplicit false

/-- What a handling answers to the asker. -/
def Handling.answer? {α ε : Type} : Handling α ε → Option (Except ε α)
  | .reply answer => some (.ok answer)
  | .reject cause => some (.error cause)
  | .panic => none

namespace Pool

variable {ρ α ε : Type}

/-- The steps of a pool, one constructor for each way in which one can go. -/
inductive Moves (p : Pool ρ α ε) : Action ρ α ε → Pool ρ α ε → Prop
  | ask {request : ρ} {timeout : Span} : p.closing = false → Moves p (.ask request timeout) (p.begin request timeout)
  | enter {ask : Nat} {a : Ask ρ α ε} {w : Worker α ε} : p.asks[ask]? = some a → p.workers[a.worker]? = some w →
      a.phase = .waiting → w.alive = true → w.mailbox.length < mailboxCapacity →
      Moves p (.enter ask) ((p.setPhase ask .queued).setWorker a.worker { w with mailbox := w.mailbox ++ [ask] })
  | take {worker ask : Nat} {rest : List Nat} {w : Worker α ε} : p.workers[worker]? = some w → w.mailbox = ask :: rest →
      w.current = none → w.alive = true →
      Moves p (.take worker) (p.setWorker worker { w with mailbox := rest, current := some ask })
  | finish {worker ask : Nat} {handling : Handling α ε} {answer : Except ε α} {w : Worker α ε} :
      p.workers[worker]? = some w → w.current = some ask → handling.answer? = some answer →
      Moves p (.finish worker handling)
        ((p.setWorker worker { w with current := none, handled := w.handled ++ [(ask, handling)] }).conclude worker ask
          answer)
  | panic {worker ask : Nat} {w : Worker α ε} : p.workers[worker]? = some w → w.current = some ask →
      Moves p (.finish worker .panic) (p.setWorker worker
        { w with current := none, handled := w.handled ++ [(ask, .panic)], mailbox := [], alive := false })
  | receive {ask : Nat} {a : Ask ρ α ε} {answer : Except ε α} : p.asks[ask]? = some a → a.phase = .answered answer →
      Moves p (.receive ask) (p.setPhase ask (.over (resultOf answer)))
  | notice {ask : Nat} {a : Ask ρ α ε} {w : Worker α ε} : p.asks[ask]? = some a → p.workers[a.worker]? = some w →
      a.isWaiting = true → w.alive = false → Moves p (.notice ask) (p.setPhase ask (.over (.error (.closed p.name))))
  | expire {ask : Nat} {a : Ask ρ α ε} : p.asks[ask]? = some a → a.isWaiting = true →
      Moves p (.expire ask) ((p.setPhase ask (.over (.error (.timeout p.name a.timeout)))).say
        (.askTimedOut p.name a.worker a.timeout))
  | cancel {ask : Nat} {a : Ask ρ α ε} : p.asks[ask]? = some a → a.isPending = true →
      Moves p (.cancel ask) (p.setPhase ask .cancelled)
  | close : p.asks.any Ask.isPending = false → Moves p .close { p with closing := true }

/-- Every step of a pool is one of the listed ones. -/
theorem moves_of_step {p q : Pool ρ α ε} {action : Action ρ α ε} (h : p.step action = some q) : Moves p action q := by
  cases action with
  | ask request timeout =>
    simp only [step, Option.ite_none_left_eq_some, Option.some.injEq] at h
    obtain ⟨isOpen, rfl⟩ := h
    exact .ask (by simpa using isOpen)
  | enter ask =>
    simp only [step, Option.bind_eq_bind, Option.bind_eq_some_iff] at h
    obtain ⟨a, found, w, there, h⟩ := h
    split at h
    · next waits =>
      simp only [Option.ite_none_right_eq_some, Option.some.injEq, Bool.and_eq_true, decide_eq_true_eq] at h
      obtain ⟨⟨alive, room⟩, rfl⟩ := h
      exact .enter found there waits alive room
    · cases h
  | take worker =>
    simp only [step, Option.bind_eq_bind, Option.bind_eq_some_iff] at h
    obtain ⟨w, there, h⟩ := h
    split at h
    · next ask rest waiting idle =>
      simp only [Option.ite_none_right_eq_some, Option.some.injEq] at h
      obtain ⟨alive, rfl⟩ := h
      exact .take there waiting idle alive
    · cases h
  | finish worker handling =>
    simp only [step, Option.bind_eq_bind, Option.bind_eq_some_iff] at h
    obtain ⟨w, there, ask, busy, h⟩ := h
    cases handling with
    | reply answer => cases h; exact .finish there busy rfl
    | reject cause => cases h; exact .finish there busy rfl
    | panic => cases h; exact .panic there busy
  | receive ask =>
    simp only [step, Option.bind_eq_bind, Option.bind_eq_some_iff] at h
    obtain ⟨a, found, h⟩ := h
    split at h
    · next answer answered => cases h; exact .receive found answered
    · cases h
  | notice ask =>
    simp only [step, Option.bind_eq_bind, Option.bind_eq_some_iff] at h
    obtain ⟨a, found, w, there, h⟩ := h
    split at h
    · next waits =>
      simp only [Option.ite_none_left_eq_some, Option.some.injEq] at h
      obtain ⟨gone, rfl⟩ := h
      exact .notice found there (by simp [Ask.isWaiting, waits]) (by simpa using gone)
    · next waits =>
      simp only [Option.ite_none_left_eq_some, Option.some.injEq] at h
      obtain ⟨gone, rfl⟩ := h
      exact .notice found there (by simp [Ask.isWaiting, waits]) (by simpa using gone)
    · cases h
  | expire ask =>
    simp only [step, Option.bind_eq_bind, Option.bind_eq_some_iff, Option.ite_none_right_eq_some,
      Option.some.injEq] at h
    obtain ⟨a, found, waits, rfl⟩ := h
    exact .expire found waits
  | cancel ask =>
    simp only [step, Option.bind_eq_bind, Option.bind_eq_some_iff, Option.ite_none_right_eq_some,
      Option.some.injEq] at h
    obtain ⟨a, found, pending, rfl⟩ := h
    exact .cancel found pending
  | close =>
    simp only [step, Option.ite_none_left_eq_some, Option.some.injEq] at h
    obtain ⟨quiet, rfl⟩ := h
    exact .close (by simpa using quiet)

/-- And every listed step is possible. -/
theorem step_of_moves {p q : Pool ρ α ε} {action : Action ρ α ε} (moves : Moves p action q) : p.step action = some q := by
  cases moves with
  | ask isOpen => simp [step, isOpen]
  | enter found there waits alive room => simp [step, found, there, waits, alive, room]
  | take there waiting idle alive => simp [step, there, waiting, idle, alive]
  | @finish worker ask handling answer w there busy answers =>
    cases handling with
    | reply | reject =>
      cases answers
      simp [step, there, busy]
    | panic => cases answers
  | panic there busy => simp [step, there, busy]
  | receive found answered => simp [step, found, answered]
  | @notice ask a w found there waits gone =>
    cases phase : a.phase <;> simp [Ask.isWaiting, phase] at waits <;> simp [step, found, there, phase, gone]
  | expire found waits => simp [step, found, waits]
  | cancel found pending => simp [step, found, pending]
  | close quiet => simp [step, quiet]

end Pool
end ChainArchive
