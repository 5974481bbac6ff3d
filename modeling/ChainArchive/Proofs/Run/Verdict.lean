import ChainArchive.Proofs.Run.Itinerary

/-!
# What a walk answers

In a table with finitely many records every chain comes to an end, and to one
only. A walker meets what is left of the table: all but records that its own
items have taken out, and it goes to none of these again. So it finds each record
of the chain just as it was, and where it stops the chain has its end.
-/

namespace ChainArchive
set_option autoImplicit false

open Archiver (Work)
open Pipeline (Phase Item)

/-! ## Where chains end -/

namespace Chain

variable {find : TransactionId → Option Transaction} {passed : List TransactionId} {id : TransactionId}
  {chain : List Transaction} {stop : ChainEnd}

/-- If only these ids have records, every chain comes to an end. -/
theorem exists_of_finite {ids : List TransactionId} (finite : ∀ id t, find id = some t → id ∈ ids)
    (passed : List TransactionId) (id : TransactionId) : ∃ chain stop, Chain find passed id chain stop := by
  by_cases member : id ∈ passed
  · exact ⟨[], _, .cycle member⟩
  cases found : find id with
  | none => exact ⟨[], _, .missing member found⟩
  | some t =>
    cases more : t.previous with
    | none => exact ⟨[t], _, .head member found more⟩
    | some previous =>
      -- one id fewer is left to pass
      have fewer : (ids.filter fun i => i ∉ passed ++ [id]).length < (ids.filter fun i => i ∉ passed).length := by
        have split : ids.filter (fun i => i ∉ passed ++ [id]) = (ids.filter fun i => i ∉ passed).filter fun i => i ≠ id := by
          simp [List.filter_filter, not_or, and_comm]
        rw [split]
        apply List.length_filter_lt_length_iff_exists.2
        exact ⟨id, List.mem_filter.2 ⟨finite id t found, by simpa using member⟩, by simp⟩
      obtain ⟨chain, stop, rest⟩ := exists_of_finite finite (passed ++ [id]) previous
      exact ⟨t :: chain, stop, .next member found more rest⟩
termination_by (ids.filter fun i => i ∉ passed).length
decreasing_by exact fewer

/-- The records of a chain have different ids, all of them new. -/
theorem nodup (h : Chain find passed id chain stop) (keyed : ∀ id t, find id = some t → t.id = id) :
    (chain.map (·.id)).Nodup ∧ ∀ t ∈ chain, t.id ∉ passed := by
  induction h with
  | cycle | missing => exact ⟨List.nodup_nil, by simp⟩
  | @head passed id t fresh found =>
    obtain rfl := keyed id t found
    exact ⟨by simp, by simpa using fresh⟩
  | @next passed id previous t rest stop fresh found _ _ ih =>
    obtain rfl := keyed id t found
    obtain ⟨nodup, apart⟩ := ih
    refine ⟨List.nodup_cons.2 ⟨fun member => ?_, nodup⟩, ?_⟩
    · obtain ⟨t', inside, same⟩ := List.mem_map.1 member
      exact apart t' inside (by simp [same])
    · rintro t' (_ | ⟨_, inside⟩)
      · exact fresh
      · exact fun member => apart t' inside (by simp [member])

/-- A chain is no longer than its table. -/
theorem length_le (h : Chain find passed id chain stop) (keyed : ∀ id t, find id = some t → t.id = id)
    {ids : List TransactionId} (finite : ∀ id t, find id = some t → id ∈ ids) : chain.length ≤ ids.length := by
  have inside : chain.map (·.id) ⊆ ids := by
    intro i member
    obtain ⟨t, there, rfl⟩ := List.mem_map.1 member
    obtain ⟨j, found⟩ := h.find_of_mem there
    exact keyed j t found ▸ finite j t found
  simpa using (List.subperm_of_subset (h.nodup keyed).1 inside).length_le

end Chain

/-- Whoever comes along a chain has a beginning of it behind him. -/
theorem Trail.isPrefix {find : TransactionId → Option Transaction} {first : TransactionId} {passed chain : List Transaction}
    {next : Option TransactionId} {stop : ChainEnd} (h : Trail find first passed next)
    (keyed : ∀ id t, find id = some t → t.id = id) (nodup : (passed.map (·.id)).Nodup)
    {ids : List TransactionId} (finite : ∀ id t, find id = some t → id ∈ ids) (whole : Chain find [] first chain stop) :
    passed <+: chain := by
  cases goesOn : next with
  | none =>
    obtain ⟨rfl, -⟩ := (chain_of_head (goesOn ▸ h) keyed nodup).unique whole
    exact List.prefix_rfl
  | some id =>
    obtain ⟨rest, stop', onward⟩ := Chain.exists_of_finite finite (passed.map (·.id)) id
    obtain ⟨rfl, -⟩ := (h.chain keyed nodup goesOn onward).unique whole
    exact List.prefix_append ..

/-! ## What the end of a chain means -/

/-- What a run along a chain of so many records and with this end answers, if none of its items fails. -/
def ChainEnd.verdict (statement : StatementId) (count : Nat) : ChainEnd → Except GenerationError Receipt
  | .head => .ok ⟨statement, count⟩
  | .missing id => .error (.notFound id)
  | .cycle id => .error (.chainCycle id)

namespace Run

/-- An item of the run has failed by itself, or has panicked. -/
def Faulty (r : Run) : Prop :=
  r.pipeline.Panicked ∨ ∃ i x cause, r.pipeline.phase? i = some x ∧ x.ending? = some (.failed cause) ∧ cause ≠ .aborted

/-- The records that the run has handed over are a whole chain, whose end means this. -/
def Comes (find : TransactionId → Option Transaction) (first : TransactionId) (r : Run)
    (result : Except GenerationError Receipt) : Prop :=
  ∃ stop, Chain find [] first r.transactions stop ∧ result = stop.verdict r.statement r.transactions.length

/-- The run's answer is what the end of its chain means, unless one of its items has failed. -/
def Judged (find : TransactionId → Option Transaction) (first : TransactionId) (r : Run) : Prop :=
  match r.walker with
  | .walked (.failed cause) | .closing (.failed cause) | .awaiting (.failed cause) => r.Comes find first (.error cause)
  | .finished result => r.Faulty ∨ r.Comes find first result
  | _ => True

/-- The run walks along its chain. -/
structure Tracks (find : TransactionId → Option Transaction) (first : TransactionId) (r : Run) : Prop where
  follows : r.Follows find first
  trail : ∃ next, Trail find first r.transactions next
  itinerary : r.Itinerary
  judged : r.Judged find first

variable {find : TransactionId → Option Transaction} {first : TransactionId} {store : Store} {now : Nat} {gated : Bool}
  {r r' : Run}

theorem statement_of_goes (sound : r.Sound) (step : r' = r ∨ r.Goes r') : r'.statement = r.statement := by
  rcases step with rfl | step
  · rfl
  cases step with
  | alone step => exact (step.pipeline sound).1
  | stored step => exact step.inner.statement

/-- An item that has failed stays so. -/
theorem Faulty.goes (faulty : r.Faulty) (sound : r.Sound) (step : r' = r ∨ r.Goes r') : r'.Faulty := by
  rcases step with rfl | step
  · exact faulty
  rcases step.pipeline sound with same | ⟨action, moves⟩
  · rwa [Faulty, same]
  rcases faulty with panicked | ⟨i, x, cause, found, failed, own⟩
  · exact .inl (panicked.moves sound.coherent moves)
  · obtain ⟨request, inside⟩ := Pipeline.items_of_phase? found
    obtain ⟨y, now, moved⟩ := Pipeline.moved_of_moves sound.coherent moves inside
    exact .inr ⟨i, y, cause, Pipeline.phase?_of_items now, Phase.ending?_of_moved moved failed, own⟩

/-- The walker asks a store that answers by itself. -/
theorem Walks.finding (step : Walks store now gated r r') {current : TransactionId} {asked : Nat} {answering : Bool}
    (place : r'.walker = .finding current asked answering) : answering = !gated := by
  cases step with
  | asks =>
    cases place
    rfl
  | @ends outcome own => cases told : outcome.result own <;> simp [told, finish, goTo, say] at place
  | _ => cases place

/-- If no item has failed, a driver fails only because the flag was raised from outside. -/
theorem Accountable.aborted_of_driver (h : r.Accountable) (calm : ¬ r.Faulty) {cause : GenerationError}
    (failed : r.pipeline.driver = .finished (.error cause)) : cause = .aborted ∧ r.walker.mayRaise = true := by
  have blame := h.traced.blamed.cause cause (by simp [failed, Pipeline.Driver.cause?])
  cases blame with
  | item tells own =>
    obtain ⟨i, x, found, told⟩ := tells
    exact absurd (.inr ⟨i, x, cause, found, Phase.ending?_of_told? told, own⟩) calm
  | panic panicked => exact absurd (.inl panicked) calm
  | outside raised => exact ⟨rfl, raised⟩

/-- A run without failed items answers what the end of its chain means. -/
theorem Tracks.comes_of_ends (h : r.Tracks find first) (sound : r.Sound) (accountable : r.Accountable)
    (keyed : ∀ id t, find id = some t → t.id = id) (calm : ¬ r.Faulty) {outcome : WalkEnd}
    {own : Except GenerationError Nat} (place : r.walker = .awaiting outcome) (ended : r.pipeline.driver = .finished own)
    (sound' : (r.finish (outcome.result own)).Sound) :
    r.Comes find first ((outcome.result own).map fun archived => ⟨r.statement, archived⟩) := by
  have follows := h.follows
  have judged := h.judged
  have explained := accountable.explained
  simp only [Follows, Judged, Explained, place] at follows judged explained
  cases outcome with
  | complete =>
    cases own with
    | ok count =>
      have chain := follows.trail.chain_of_head keyed h.itinerary.ids_nodup
      have success : (r.finish (.ok count)).result? = some (.ok ⟨r.statement, count⟩) := rfl
      obtain ⟨-, archived, -⟩ := sound'.of_success success
      have all : count = r.transactions.length := archived.trans (List.length_map _).symm
      exact ⟨.head, chain, by rw [← all]; rfl⟩
    | error cause =>
      have raises := (accountable.aborted_of_driver calm ended).2
      simp [place, Walker.mayRaise] at raises
  | closed =>
    cases own with
    | ok count => exact absurd ended (Accountable.not_ok_of_troubled sound.coherent explained)
    | error cause =>
      have raises := (accountable.aborted_of_driver calm ended).2
      simp [place, Walker.mayRaise] at raises
  | failed cause =>
    cases own with
    | ok count => exact judged
    | error other =>
      obtain ⟨rfl, -⟩ := accountable.aborted_of_driver calm ended
      exact judged

theorem Tracks.begin {settings : GenerationSettings} {statement : StatementId}
    (h : Run.begin settings statement first = .ok r) : r.Tracks find first := by
  have empty : r.transactions = [] := by simp [transactions, items_begin h]
  refine ⟨.begin h, ⟨some first, empty ▸ .start⟩, .begin h, ?_⟩
  unfold Run.begin Pipeline.start at h
  split at h <;> cases h
  trivial

/-- The walker goes on in a table of which part is still live: all but what it has handed over. -/
theorem Tracks.walks (h : r.Tracks find first) (sound : r.Sound) (sound' : r'.Sound) (accountable : r.Accountable)
    (goes : r' = r ∨ r.Goes r') (keyed : ∀ id t, find id = some t → t.id = id)
    (part : ∀ id t, store.find? id = some t → find id = some t)
    (kept : ∀ id, id ∉ r.transactions.map (·.id) → store.find? id = find id) (step : Walks store now gated r r') :
    r'.Tracks find first := by
  have follows := h.follows
  have judged := h.judged
  have nodup := h.itinerary.ids_nodup
  have stays : Store.Keyed store := fun id t found => keyed id t (part id t found)
  refine ⟨follows.walks sound keyed part step, ?_, h.itinerary.walks sound stays step, ?_⟩
  · rcases step.transactions sound with same | ⟨t, place, added⟩
    · exact same ▸ h.trail
    · simp only [Follows, place] at follows
      obtain ⟨ids, -, -, found, passed⟩ := follows
      exact ⟨t.previous, added ▸ passed.trail.step found⟩
  · unfold Judged at judged
    unfold Follows at follows
    cases step with
    | @revisits current place _ member =>
      simp only [place] at follows
      have chain := follows.trail.chain keyed nodup rfl (.cycle (follows.eq_ids ▸ member))
      rw [List.append_nil] at chain
      exact ⟨.cycle current, chain, rfl⟩
    | @misses current asked place gone =>
      simp only [place] at follows
      obtain ⟨ids, -, fresh, passed⟩ := follows
      have new : current ∉ r.transactions.map (·.id) := passed.eq_ids ▸ fresh
      have chain := passed.trail.chain keyed nodup rfl (.missing new (kept current new ▸ gone))
      rw [List.append_nil] at chain
      exact ⟨.missing current, chain, rfl⟩
    | aborts place =>
      simp only [place] at judged
      exact judged
    | @closes outcome place other =>
      cases outcome with
      | failed cause => exact absurd rfl (other cause)
      | complete | closed => trivial
    | @completes outcome place =>
      simp only [place] at judged
      cases outcome with
      | failed cause => exact judged
      | complete | closed => trivial
    | @ends outcome own place ended =>
      by_cases calm : r.Faulty
      · have faulty := calm.goes sound goes
        cases told : outcome.result own <;> rw [told] at faulty <;> exact .inl faulty
      · have comes := h.comes_of_ends sound accountable keyed calm place ended sound'
        cases told : outcome.result own <;> rw [told] at comes <;> exact .inr comes
    | _ => trivial

end Run
end ChainArchive
