import ChainArchive.Chain
import ChainArchive.Proofs.World.Sound

/-!
# The trail of a run

The items of a run are, in order, the records that the pointers lead through in
the table as it was when the run began. The table only loses records while the
run goes on, so what the walker finds in it was there from the start; and a
walker that has reached the head has the whole chain behind it.
-/

namespace ChainArchive
set_option autoImplicit false

open Archiver (Work)
open Pipeline (Moves)

/-! ## Trails -/

/-- From the first id on, the pointers lead through these records, and on to the next id. -/
inductive Trail (find : TransactionId → Option Transaction) (first : TransactionId) :
    List Transaction → Option TransactionId → Prop
  | start : Trail find first [] (some first)
  | step {passed : List Transaction} {id : TransactionId} {t : Transaction} : Trail find first passed (some id) →
      find id = some t → Trail find first (passed ++ [t]) t.previous

namespace Trail

variable {find : TransactionId → Option Transaction} {first : TransactionId} {passed rest : List Transaction}
  {next : Option TransactionId}

/-- What the pointers lead through from the end of a trail on, they lead through from its start on. -/
theorem chain (h : Trail find first passed next) (keyed : ∀ id t, find id = some t → t.id = id)
    (nodup : (passed.map (·.id)).Nodup) {id : TransactionId} {stop : ChainEnd} (goesOn : next = some id)
    (onward : Chain find (passed.map (·.id)) id rest stop) : Chain find [] first (passed ++ rest) stop := by
  induction h generalizing id rest with
  | start =>
    cases goesOn
    exact onward
  | @step passed here t trail found ih =>
    obtain rfl := keyed here t found
    rw [List.map_append, List.map_singleton] at nodup onward
    obtain ⟨before, -, apart⟩ := List.nodup_append.1 nodup
    have fresh : t.id ∉ passed.map (·.id) := fun member => apart _ member _ (by simp) rfl
    have := ih before rfl (.next fresh found goesOn onward)
    rwa [List.append_assoc]

/-- A trail that ends nowhere is a chain up to its head. -/
theorem chain_of_head (h : Trail find first passed none) (keyed : ∀ id t, find id = some t → t.id = id)
    (nodup : (passed.map (·.id)).Nodup) : Chain find [] first passed .head := by
  generalize ends : (none : Option TransactionId) = next at h
  cases h with
  | start => cases ends
  | @step passed id t trail found =>
    obtain rfl := keyed id t found
    rw [List.map_append, List.map_singleton] at nodup
    obtain ⟨before, -, apart⟩ := List.nodup_append.1 nodup
    have fresh : t.id ∉ passed.map (·.id) := fun member => apart _ member _ (by simp) rfl
    exact trail.chain keyed before rfl (.head fresh found ends.symm)

end Trail

/-! ## Where the walker is on its trail -/

namespace Run

/-- The records that the walker has handed to the pipeline, in order. -/
def transactions (r : Run) : List Transaction := r.pipeline.items.map (·.request.transaction)

/-- A walker that went to these ids, all different, found these records, and goes on from there. -/
structure Passed (find : TransactionId → Option Transaction) (first : TransactionId) (found : List Transaction)
    (ids : List TransactionId) (next : Option TransactionId) : Prop where
  trail : Trail find first found next
  eq_ids : ids = found.map (·.id)
  nodup : ids.Nodup

/-- What the walker's place says about the way behind it. -/
def Follows (find : TransactionId → Option Transaction) (first : TransactionId) (r : Run) : Prop :=
  match r.walker with
  | .checking id => Passed find first r.transactions r.visited (some id)
  | .finding id _ _ => ∃ ids, r.visited = ids ++ [id] ∧ id ∉ ids ∧ Passed find first r.transactions ids (some id)
  | .resolved t => ∃ ids, r.visited = ids ++ [t.id] ∧ t.id ∉ ids ∧ find t.id = some t ∧
      Passed find first r.transactions ids (some t.id)
  | .enqueueing _ previous => Passed find first r.transactions r.visited previous
  | .walked .complete | .closing .complete | .awaiting .complete | .finished (.ok _) =>
      Passed find first r.transactions r.visited none
  | _ => True

variable {outputs : Transforms} {find : TransactionId → Option Transaction} {first : TransactionId} {store : Store}
  {now : Nat} {gated : Bool} {r r' : Run}

/-- No step but a call changes what was handed over. -/
theorem transactions_of_moves {action : Pipeline.Action Work} (sound : r.Sound)
    (noCall : ∀ request, action ≠ .call request)
    (moves : Moves (fun _ => Work.unstarted) r.pipeline action r'.pipeline) : r'.transactions = r.transactions := by
  apply List.ext_getElem?
  intro i
  simp only [transactions, List.getElem?_map]
  cases inside : r.pipeline.items[i]? with
  | some item =>
    obtain ⟨x, now, -⟩ := Pipeline.moved_of_moves sound.coherent moves inside
    rw [now]
    rfl
  | none =>
    have length := Pipeline.length_of_moves moves noCall
    rw [List.getElem?_eq_none (by rw [length]; exact List.getElem?_eq_none_iff.1 inside)]

namespace Follows

theorem begin {settings : GenerationSettings} {statement : StatementId} (h : Run.begin settings statement first = .ok r) :
    r.Follows find first := by
  have none := items_begin h
  unfold Run.begin at h
  cases started : Pipeline.start (σ := Work) settings.parallelism with
  | error cause => simp [started, Except.map] at h
  | ok p =>
    simp only [started, Except.map, Except.ok.injEq] at h
    subst h
    have empty : p.items = [] := none
    refine ⟨?_, ?_, ?_⟩
    · simpa [transactions, empty] using Trail.start
    · simp [transactions, empty]
    · simp

/-- An item or the driver takes a step. -/
theorem inner {action : Pipeline.Action Work} (h : r.Follows find first) (sound : r.Sound) (step : r.Inner action r') :
    r'.Follows find first := by
  have noCall : ∀ request, action ≠ .call request := by
    rintro request rfl
    exact absurd step.inner (by simp [Pipeline.Action.isInner])
  have same := transactions_of_moves sound noCall step.moves
  unfold Follows at h ⊢
  rw [step.walker, step.visited, same]
  exact h

/-- The walker hands over the record that it found. -/
theorem enqueue (h : r.Follows find first) {t : Transaction} (state : r.walker = .resolved t) :
    (r.enqueue t).Follows find first := by
  simp only [Follows, state] at h
  obtain ⟨ids, visited, fresh, found, passed⟩ := h
  obtain ⟨x, items, -⟩ := r.pipeline.items_call ⟨r.statement, r.visited.length, t⟩
  have handed : (r.enqueue t).transactions = r.transactions ++ [t] := by
    simp [transactions, Run.enqueue, items]
  refine ⟨?_, ?_, ?_⟩
  · rw [handed]
    exact passed.trail.step found
  · rw [handed, List.map_append, ← passed.eq_ids]
    exact visited
  · show r.visited.Nodup
    rw [visited]
    exact List.nodup_append.2 ⟨passed.nodup, by simp, by rintro id member _ last rfl; simp_all⟩

/-- The item that was handed over goes on, and the walker waits for it. -/
theorem waits {action : Pipeline.Action Work} {item : Nat} {previous : Option TransactionId} {pipeline : Pipeline Work}
    (h : Passed find first r.transactions r.visited previous) (sound : r.Sound)
    (noCall : ∀ request, action ≠ .call request)
    (moves : Moves (fun _ => Work.unstarted) r.pipeline action pipeline) :
    Follows find first { r with walker := .enqueueing item previous, pipeline } := by
  have same : Run.transactions { r with walker := .enqueueing item previous, pipeline } = r.transactions :=
    transactions_of_moves sound noCall moves
  simp only [Follows, same]
  exact h

/-- The walker goes on along a table of which the store holds nothing but a part. -/
theorem walks (h : r.Follows find first) (sound : r.Sound) (keyed : ∀ id t, find id = some t → t.id = id)
    (part : ∀ id t, store.find? id = some t → find id = some t) (step : Walks store now gated r r') :
    r'.Follows find first := by
  cases step with
  | seesFlag | revisits | misses | isRefused | drops | withdraws | leaves | aborts => trivial
  | asks state _ fresh =>
    simp only [Follows, state] at h
    exact ⟨r.visited, rfl, fresh, h⟩
  | @finds id asked t state found =>
    simp only [Follows, state] at h
    obtain ⟨ids, visited, fresh, passed⟩ := h
    have was := part id t found
    obtain rfl := keyed id t was
    exact ⟨ids, visited, fresh, was, passed⟩
  | calls state => exact h.enqueue state
  | resumes state _ resumed =>
    simp only [Follows, state] at h
    exact waits h sound (by simp) (Pipeline.moves_of_resume resumed)
  | unwinds state _ unwound =>
    simp only [Follows, state] at h
    exact waits h sound (by simp) (Pipeline.moves_of_unwind unwound)
  | goesOn state | reachesHead state =>
    simp only [Follows, state] at h
    exact h
  | @closes outcome state other =>
    simp only [Follows, state] at h
    cases outcome with
    | complete => exact h
    | closed | failed => trivial
  | @completes outcome state =>
    simp only [Follows, state] at h
    cases outcome with
    | complete => exact h
    | closed | failed => trivial
  | @ends outcome result state finished =>
    cases ok : outcome.result result with
    | error cause => trivial
    | ok archived =>
      obtain rfl := WalkEnd.complete_of_result ok
      simp only [Follows, state] at h
      exact h

theorem step (h : r.Follows find first) (sound : r.Sound) (keyed : ∀ id t, find id = some t → t.id = id)
    (part : ∀ id t, store.find? id = some t → find id = some t) (step : r.Step outputs store now gated r') :
    r'.Follows find first := by
  cases step with
  | walk walked => exact h.walks sound keyed part (walks_of_walk walked)
  | inner step => exact h.inner sound step
  | proceed state =>
    simp only [Follows, state] at h
    exact h
  | refuse | drop => trivial

/-- A run that ended well has walked a whole chain. -/
theorem chain (h : r.Follows find first) (keyed : ∀ id t, find id = some t → t.id = id) {receipt : Receipt}
    (success : r.result? = some (.ok receipt)) :
    Chain find [] first r.transactions .head ∧ (r.transactions.map (·.id)).Nodup := by
  have state : r.walker = .finished (.ok receipt) := by
    unfold result? at success
    split at success <;> simp_all
  simp only [Follows, state] at h
  have nodup := h.eq_ids ▸ h.nodup
  exact ⟨h.trail.chain_of_head keyed nodup, nodup⟩

end Follows
end Run
end ChainArchive
