import ChainArchive.Proofs.Pool.Mailboxes
import Mathlib.Data.Int.CardIntervalMod

/-!
# Whose turn it is

The asks are dealt out in turn, whatever has become of the earlier ones: a step
changes how far an ask has come, and never what it asks for or whom it was dealt
to. So as long as their counter does not overflow, ask number `k` of a pool of
`size` workers is with worker `k % size`, and no worker is dealt more than one
ask more than another.
-/

namespace ChainArchive.Pool
set_option autoImplicit false

variable {ρ α ε : Type} {p q : Pool ρ α ε} {action : Action ρ α ε}

/-! ## What a step makes of an ask -/

/-- How the ask number `i` goes on: it is entered, answered by the worker that has it at hand, received, told that the
worker is gone, it times out or its asker goes away. -/
inductive Ask.Next (p : Pool ρ α ε) (i : Nat) (a : Ask ρ α ε) : Action ρ α ε → Ask ρ α ε → Prop
  | same {action : Action ρ α ε} : Next p i a action a
  | enter : a.phase = .waiting → Next p i a (.enter i) { a with phase := .queued }
  | answer {k : Nat} {w : Worker α ε} {handling : Handling α ε} {answer : Except ε α} : p.workers[k]? = some w →
      w.current = some i → handling.answer? = some answer →
      Next p i a (.finish k handling) { a with phase := .answered answer }
  | receive {answer : Except ε α} : a.phase = .answered answer →
      Next p i a (.receive i) { a with phase := .over (resultOf answer) }
  | notice {w : Worker α ε} : a.isWaiting = true → p.workers[a.worker]? = some w → w.alive = false →
      Next p i a (.notice i) { a with phase := .over (.error (.closed p.name)) }
  | expire : a.isWaiting = true →
      Next p i a (.expire i) { a with phase := .over (.error (.timeout p.name a.timeout)) }
  | cancel : a.isPending = true → Next p i a (.cancel i) { a with phase := .cancelled }

namespace Ask.Next

variable {i : Nat} {a b : Ask ρ α ε}

theorem worker (h : a.Next p i action b) : b.worker = a.worker := by cases h <;> rfl

theorem request (h : a.Next p i action b) : b.request = a.request := by cases h <;> rfl

end Ask.Next

/-- Where one ask goes on, the others are as they were. -/
theorem next_of_setPhase {i j : Nat} {x : Phase α ε} {a b : Ask ρ α ε} (source : p.asks[j]? = some a)
    (next : a.Next p j action { a with phase := x }) (found : (p.setPhase j x).asks[i]? = some b) :
    ∃ a, p.asks[i]? = some a ∧ a.Next p i action b := by
  obtain ⟨c, before, rfl | ⟨rfl, rfl⟩⟩ := asks_of_setPhase found
  · exact ⟨b, before, .same⟩
  · rw [source, Option.some.injEq] at before
    subst before
    exact ⟨a, source, next⟩

/-- Every ask was there before, or it is the one that now begins. -/
theorem ask_of_moves (moves : Moves p action q) {i : Nat} {b : Ask ρ α ε} (found : q.asks[i]? = some b) :
    (∃ a, p.asks[i]? = some a ∧ a.Next p i action b) ∨
      ∃ request timeout, action = .ask request timeout ∧ i = p.asks.length ∧
        b = { request, timeout, worker := p.nextWorker } := by
  cases moves with
  | @ask request timeout =>
    simp only [begin, List.getElem?_append] at found
    split at found
    · exact .inl ⟨b, found, .same⟩
    · next beyond =>
      rw [List.getElem?_singleton] at found
      split at found
      · next last => exact .inr ⟨request, timeout, rfl, by omega, (Option.some.inj found).symm⟩
      · cases found
  | take | panic | close => exact .inl ⟨b, found, .same⟩
  | enter source _ waits => exact .inl (next_of_setPhase source (.enter waits) found)
  | @finish k j handling answer w there busy answers =>
    obtain same | set := conclude_cases
      (p.setWorker k { w with current := none, handled := w.handled ++ [(j, handling)] }) k j answer
    · rw [same] at found
      exact .inl ⟨b, found, .same⟩
    · rw [set] at found
      obtain ⟨a, before, rfl | ⟨rfl, rfl⟩⟩ := asks_of_setPhase found
      · exact .inl ⟨b, before, .same⟩
      · exact .inl ⟨a, before, .answer there busy answers⟩
  | receive source answered => exact .inl (next_of_setPhase source (.receive answered) found)
  | notice source there waits gone => exact .inl (next_of_setPhase source (.notice waits there gone) found)
  | expire source waits => exact .inl (next_of_setPhase source (.expire waits) found)
  | cancel source pending => exact .inl (next_of_setPhase source (.cancel pending) found)

/-! ## Dealing -/

/-- Every ask is with the worker whose turn it was. -/
def Dealt (p : Pool ρ α ε) : Prop := ∀ (i : Nat) (a : Ask ρ α ε), p.asks[i]? = some a → a.worker = turnOf p.size i

theorem size_of_moves (moves : Moves p action q) : q.size = p.size := length_workers moves

namespace Dealt

theorem start {name : String} {size : Nat} (h : (Pool.start name size).result = .ok p) : Dealt p := by
  unfold Pool.start at h
  split at h
  · cases h
  · cases h
    intro i a found
    cases found

theorem moves (h : Dealt p) (moves : Moves p action q) : Dealt q := by
  intro i b found
  rw [size_of_moves moves]
  rcases ask_of_moves moves found with ⟨a, before, next⟩ | ⟨request, timeout, -, rfl, rfl⟩
  · rw [next.worker]
    exact h i a before
  · rfl

/-- Before the counter overflows, the turns go round. -/
theorem worker_eq (h : Dealt p) (few : p.asks.length < 2 ^ 64) {i : Nat} {a : Ask ρ α ε} (found : p.asks[i]? = some a) :
    a.worker = i % p.size := by
  have inside : i < counterLimit := Nat.lt_trans (List.getElem?_eq_some_iff.1 found).1 few
  rw [h i a found, turnOf, Nat.mod_eq_of_lt inside]

/-- Each worker has its share of the asks: one for each full round, and one more if the last round has come to it. -/
theorem countP_eq (h : Dealt p) (few : p.asks.length < 2 ^ 64) {k : Nat} (inside : k < p.size) :
    p.asks.countP (·.worker == k) =
      p.asks.length / p.size + if k < p.asks.length % p.size then 1 else 0 := by
  have turns : p.asks.map Ask.worker = (List.range p.asks.length).map (· % p.size) := by
    refine List.ext_getElem (by simp) fun i bound _ => ?_
    rw [List.length_map] at bound
    simpa using h.worker_eq few (List.getElem?_eq_getElem bound)
  calc p.asks.countP (·.worker == k)
    _ = (p.asks.map Ask.worker).countP (· == k) := by
      rw [List.countP_map]
      rfl
    _ = (List.range p.asks.length).countP (· ≡ k [MOD p.size]) := by
      rw [turns, List.countP_map]
      refine List.countP_congr fun i _ => ?_
      simp [Nat.ModEq, Nat.mod_eq_of_lt inside]
    _ = p.asks.length / p.size + if k % p.size < p.asks.length % p.size then 1 else 0 :=
      Nat.count_modEq_card p.asks.length (Nat.zero_lt_of_lt inside) k
    _ = _ := by rw [Nat.mod_eq_of_lt inside]

/-- No worker is dealt more than one ask more than another. -/
theorem countP_le (h : Dealt p) (few : p.asks.length < 2 ^ 64) {k l : Nat} (hk : k < p.size) (hl : l < p.size) :
    p.asks.countP (·.worker == k) ≤ p.asks.countP (·.worker == l) + 1 := by
  rw [h.countP_eq few hk, h.countP_eq few hl]
  split <;> split <;> omega

end Dealt
end ChainArchive.Pool
