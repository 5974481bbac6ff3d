import ChainArchive.Proofs.World.Turns

/-!
# Where a walk has been

The ids that a walker went to are those of the records that it has handed over,
in their order, and at most one more. It goes to no id twice, so all items of a
run have different ids, and it asks the store once for every id that it goes to.
-/

namespace ChainArchive
set_option autoImplicit false

open Archiver (Work)

/-- The ids that the walker went to beyond the records that it has handed over. -/
def Walker.Ahead (walker : Walker) (rest : List TransactionId) : Prop :=
  match walker with
  | .checking _ | .enqueueing .. => rest = []
  | .finding current .. => rest = [current]
  | .resolved t => rest = [t.id]
  | _ => rest.length ≤ 1

theorem Walker.Ahead.length_le {walker : Walker} {rest : List TransactionId} (h : walker.Ahead rest) :
    rest.length ≤ 1 := by
  unfold Ahead at h
  split at h <;> simp_all

namespace Run

/-- The walker has been where it says, once each. -/
structure Itinerary (r : Run) : Prop where
  nodup : r.visited.Nodup
  counted : r.lookups = r.visited.length
  visited : ∃ rest, r.visited = r.transactions.map (·.id) ++ rest ∧ r.walker.Ahead rest

variable {r r' : Run} {store after : Store} {now : Nat} {gated : Bool} {i j : Nat} {item item' : Pipeline.Item Work}

theorem transactions_enqueue {t : Transaction} : (r.enqueue t).transactions = r.transactions ++ [t] := by
  obtain ⟨x, items, -⟩ := r.pipeline.items_call ⟨r.statement, r.visited.length, t⟩
  simp [transactions, Run.enqueue, items]

/-- An effect on the work leaves the requests as they are. -/
theorem transactions_apply {n : Nat} {effect : Archiver.Effect} :
    ({ r with relocations := n }.apply i effect).transactions = r.transactions := by
  have kept (x : Pipeline.Phase Work) :
      (r.pipeline.setPhase i x).items.map (·.request.transaction) = r.transactions := by
    apply List.ext_getElem?
    intro j
    simp only [Pipeline.setPhase, transactions, List.getElem?_map, List.getElem?_modify]
    split <;> cases r.pipeline.items[j]? <;> rfl
  unfold apply
  cases effect.next <;> exact kept _

/-- The walker hands over nothing but the record that it has. -/
theorem Walks.transactions (step : Walks store now gated r r') (sound : r.Sound) :
    r'.transactions = r.transactions ∨ ∃ t, r.walker = .resolved t ∧ r'.transactions = r.transactions ++ [t] := by
  cases step with
  | @calls t place => exact .inr ⟨t, place, transactions_enqueue⟩
  | resumes _ _ resumed => exact .inl (transactions_of_moves sound (by simp) (Pipeline.moves_of_resume resumed))
  | unwinds _ _ unwound => exact .inl (transactions_of_moves sound (by simp) (Pipeline.moves_of_unwind unwound))
  | withdraws _ withdrawn => exact .inl (transactions_of_moves sound (by simp) (Pipeline.moves_of_withdraw withdrawn))
  | leaves _ unwound => exact .inl (transactions_of_moves sound (by simp) (Pipeline.moves_of_unwind unwound))
  | drops _ nobody => exact .inl (transactions_of_moves sound (by simp) (.dropHandle nobody))
  | @ends outcome result => cases outcome.result result <;> exact .inl rfl
  | _ => exact .inl rfl

namespace Itinerary

theorem begin {settings : GenerationSettings} {statement : StatementId} {last : TransactionId}
    (h : Run.begin settings statement last = .ok r) : r.Itinerary := by
  have none := items_begin h
  unfold Run.begin at h
  cases started : Pipeline.start (σ := Work) settings.parallelism with
  | error cause => simp [started, Except.map] at h
  | ok p =>
    simp only [started, Except.map, Except.ok.injEq] at h
    subst h
    have empty : p.items = [] := none
    exact ⟨List.nodup_nil, rfl, [], by simp [transactions, empty], rfl⟩

/-- The walker goes elsewhere, with nothing new behind it. -/
theorem goesTo (h : r.Itinerary) (visited : r'.visited = r.visited) (lookups : r'.lookups = r.lookups)
    (handed : r'.transactions = r.transactions) (ahead : ∀ rest, r.walker.Ahead rest → r'.walker.Ahead rest) :
    r'.Itinerary := by
  obtain ⟨rest, eq, was⟩ := h.visited
  refine ⟨?_, ?_, rest, ?_, ahead rest was⟩
  · rw [visited]
    exact h.nodup
  · rw [visited, lookups]
    exact h.counted
  · rw [visited, handed]
    exact eq

/-- The walker goes to an id that is new. -/
theorem asks (h : r.Itinerary) {current : TransactionId} (state : r.walker = .checking current)
    (fresh : current ∉ r.visited) : Itinerary
      { r with walker := .finding current now !gated, visited := r.visited ++ [current], lookups := r.lookups + 1 } := by
  obtain ⟨rest, eq, ahead⟩ := h.visited
  simp only [Walker.Ahead, state] at ahead
  subst ahead
  refine ⟨?_, ?_, [current], ?_, rfl⟩
  · refine List.nodup_append.2 ⟨h.nodup, by simp, ?_⟩
    rintro id member _ last rfl
    exact fresh (List.mem_singleton.1 last ▸ member)
  · simp [h.counted]
  · show r.visited ++ [current] = r.transactions.map (·.id) ++ [current]
    rw [eq, List.append_nil]

/-- The walker hands over the record that it has. -/
theorem enqueue (h : r.Itinerary) {t : Transaction} (state : r.walker = .resolved t) : (r.enqueue t).Itinerary := by
  obtain ⟨rest, eq, ahead⟩ := h.visited
  simp only [Walker.Ahead, state] at ahead
  subst ahead
  refine ⟨h.nodup, h.counted, [], ?_, rfl⟩
  rw [transactions_enqueue, List.map_append, List.append_nil]
  exact eq

theorem walks (h : r.Itinerary) (sound : r.Sound) (keyed : store.Keyed) (step : Walks store now gated r r') :
    r'.Itinerary := by
  have inside (pipeline : Pipeline Work) {b : Pipeline.Action Work} (noCall : ∀ request, b ≠ .call request)
      (moves : Pipeline.Moves (fun _ => Work.unstarted) r.pipeline b pipeline) :
      transactions { r with pipeline } = r.transactions := transactions_of_moves sound noCall moves
  have anywhere {rest : List TransactionId} (ahead : r.walker.Ahead rest) : rest.length ≤ 1 := ahead.length_le
  cases step with
  | asks state _ fresh => exact h.asks state fresh
  | calls state => exact h.enqueue state
  | @finds current asked t state found =>
    refine h.goesTo rfl rfl rfl fun rest ahead => ?_
    simp only [Walker.Ahead, state] at ahead
    show rest = [t.id]
    rw [ahead, keyed current t found]
  | resumes state _ resumed =>
    exact h.goesTo rfl rfl (inside _ (by simp) (Pipeline.moves_of_resume resumed)) fun rest ahead => by rwa [state] at ahead
  | unwinds state _ unwound =>
    exact h.goesTo rfl rfl (inside _ (by simp) (Pipeline.moves_of_unwind unwound)) fun rest ahead => by rwa [state] at ahead
  | goesOn state => exact h.goesTo rfl rfl rfl fun rest ahead => by rwa [state] at ahead
  | seesFlag | revisits | misses | isRefused | reachesHead | closes | aborts | completes =>
    exact h.goesTo rfl rfl rfl fun rest ahead => anywhere ahead
  | drops _ nobody =>
    exact h.goesTo rfl rfl (inside _ (by simp) (.dropHandle nobody)) fun rest ahead => anywhere ahead
  | withdraws _ withdrawn =>
    exact h.goesTo rfl rfl (inside _ (by simp) (Pipeline.moves_of_withdraw withdrawn)) fun rest ahead => anywhere ahead
  | leaves _ unwound =>
    exact h.goesTo rfl rfl (inside _ (by simp) (Pipeline.moves_of_unwind unwound)) fun rest ahead => anywhere ahead
  | @ends outcome result =>
    cases outcome.result result <;> exact h.goesTo rfl rfl rfl fun rest ahead => anywhere ahead

theorem ids_nodup (h : r.Itinerary) : (r.transactions.map (·.id)).Nodup := by
  obtain ⟨rest, eq, -⟩ := h.visited
  have all := h.nodup
  rw [eq] at all
  exact all.of_append_left

/-- What the walker is about to hand over has not been handed over. -/
theorem fresh (h : r.Itinerary) {t : Transaction} (place : r.walker = .resolved t) :
    t.id ∉ r.transactions.map (·.id) := by
  obtain ⟨rest, eq, ahead⟩ := h.visited
  simp only [Walker.Ahead, place] at ahead
  subst ahead
  have all := h.nodup
  rw [eq] at all
  exact fun member => (List.nodup_append.1 all).2.2 _ member _ (by simp) rfl

/-- Two items of a run have different ids. -/
theorem eq_of_id (h : r.Itinerary) (inside : r.pipeline.items[i]? = some item) (inside' : r.pipeline.items[j]? = some item')
    (same : item.request.transaction.id = item'.request.transaction.id) : i = j := by
  have bound : i < (r.transactions.map (·.id)).length := by
    simpa [transactions] using (List.getElem?_eq_some_iff.1 inside).1
  refine (List.getElem?_inj bound h.ids_nodup).1 ?_
  simp [transactions, inside, inside', same]

end Itinerary

end Run

namespace World

variable {w₀ w : World} {action : Action} {k : Nat} {r r' : Run} {after : Store}

/-- What else than its own step can happen to the walker of run `k`. -/
inductive Aside (k : Nat) : Action → Walker → Walker → Prop
  | stays (action : Action) (walker : Walker) : Aside k action walker walker
  | answers (current : TransactionId) (asked : Nat) :
      Aside k (.proceedLookup k) (.finding current asked false) (.finding current asked true)
  | fails (current : TransactionId) (asked : Nat) (cause : StoreError) :
      Aside k (.refuseLookup k cause) (.finding current asked false) (.walked (.failed (.ofLookup current cause)))
  | leaves (walker : Walker) : Aside k (.drop k) walker .leaving

/-- The walker takes a step, or the walk is where it was. -/
theorem Does.walk (does : w.Does k r action after r') (sound : r.Sound) : Run.Walks w.store w.now w.gated r r' ∨
    (r'.transactions = r.transactions ∧ r'.visited = r.visited ∧ r'.lookups = r.lookups ∧
      Aside k action r.walker r'.walker) := by
  cases does with
  | walks step => exact .inl step
  | drives _ own moves =>
    refine .inr ⟨Run.transactions_of_moves sound ?_ moves, rfl, rfl, .stays _ _⟩
    rintro request rfl
    simp at own
  | works step =>
    right
    cases step with
    | unwinds unwound =>
      exact ⟨Run.transactions_of_moves sound (by simp) (Pipeline.moves_of_unwind unwound), rfl, rfl, .stays _ _⟩
    | goesOn => exact ⟨Run.transactions_apply, rfl, rfl, .stays _ _⟩
  | hears => exact .inr ⟨Run.transactions_apply (n := r.relocations), rfl, rfl, .stays _ _⟩
  | proceeds place => exact .inr ⟨rfl, rfl, rfl, place ▸ .answers _ _⟩
  | refuses place => exact .inr ⟨rfl, rfl, rfl, place ▸ .fails _ _ _⟩
  | drops => exact .inr ⟨rfl, rfl, rfl, .leaves _⟩

theorem Does.itinerary (does : w.Does k r action after r') (sound : r.Sound) (keyed : w.store.Keyed) (h : r.Itinerary) :
    r'.Itinerary := by
  rcases does.walk sound with step | ⟨handed, visited, lookups, aside⟩
  · exact h.walks sound keyed step
  · refine h.goesTo visited lookups handed fun rest ahead => ?_
    generalize r.walker = before at aside ahead
    generalize r'.walker = now at aside
    cases aside with
    | stays | answers => exact ahead
    | fails | leaves => exact ahead.length_le

/-- A store that was keyed when no run had begun stays so. -/
theorem keyed_reachable (idle : w₀.runs = []) (keyed : w₀.store.Keyed) (reach : Reachable (Steps World.step) w₀ w) :
    w.store.Keyed := by
  have kept : w.Sound (fun _ _ _ => True) ∧ w.store.Keyed := by
    refine reach.invariant (P := fun w => w.Sound (fun _ _ _ => True) ∧ w.store.Keyed) ⟨.start idle, keyed⟩ ?_
    rintro s action t ⟨sound, keyed⟩ step
    have change := sound.change_of_any_step step
    exact ⟨sound.change change, keyed_change keyed change⟩
  exact kept.2

theorem itinerary_reachable (idle : w₀.runs = []) (keyed : w₀.store.Keyed) (reach : Reachable (Steps World.step) w₀ w)
    (found : w.runs[k]? = some r) : r.Itinerary := by
  refine forall_runs (P := Run.Itinerary) idle (fun _ _ _ _ begun => .begin begun) ?_ reach k r found
  intro w k r action after r' before sound does _ h
  exact does.itinerary sound (keyed_reachable idle keyed before) h

end World
end ChainArchive
