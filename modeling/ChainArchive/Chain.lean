import ChainArchive.Record

/-!
# Chains

Who follows the pointers from an id comes to a head, to an id without a record,
or back to an id that was passed before.
-/

namespace ChainArchive
set_option autoImplicit false

/-- Where a chain leads to. -/
inductive ChainEnd
  /-- The last record has no predecessor. -/
  | head
  /-- There is no record of this id. -/
  | missing (id : TransactionId)
  /-- This id was passed before. -/
  | cycle (id : TransactionId)
deriving Repr, DecidableEq

/-- From an id on, with some ids passed before, the pointers lead through these records to this end. -/
inductive Chain (find : TransactionId → Option Transaction) :
    List TransactionId → TransactionId → List Transaction → ChainEnd → Prop
  | cycle {passed : List TransactionId} {id : TransactionId} : id ∈ passed → Chain find passed id [] (.cycle id)
  | missing {passed : List TransactionId} {id : TransactionId} :
      id ∉ passed → find id = none → Chain find passed id [] (.missing id)
  | head {passed : List TransactionId} {id : TransactionId} {t : Transaction} :
      id ∉ passed → find id = some t → t.previous = none → Chain find passed id [t] .head
  | next {passed : List TransactionId} {id previous : TransactionId} {t : Transaction} {rest : List Transaction}
      {stop : ChainEnd} : id ∉ passed → find id = some t → t.previous = some previous →
      Chain find (passed ++ [id]) previous rest stop → Chain find passed id (t :: rest) stop

theorem Chain.unique {find : TransactionId → Option Transaction} {passed : List TransactionId} {id : TransactionId}
    {first second : List Transaction} {stop stop' : ChainEnd}
    (h : Chain find passed id first stop) (h' : Chain find passed id second stop') : first = second ∧ stop = stop' := by
  induction h generalizing second stop' with
  | cycle passedBefore =>
    cases h' with
    | cycle => exact ⟨rfl, rfl⟩
    | missing fresh => exact absurd passedBefore fresh
    | head fresh => exact absurd passedBefore fresh
    | next fresh => exact absurd passedBefore fresh
  | missing fresh absent =>
    cases h' with
    | cycle passedBefore => exact absurd passedBefore fresh
    | missing => exact ⟨rfl, rfl⟩
    | head _ found => simp [absent] at found
    | next _ found => simp [absent] at found
  | head fresh found last =>
    cases h' with
    | cycle passedBefore => exact absurd passedBefore fresh
    | missing _ absent => simp [absent] at found
    | head _ found' =>
      obtain rfl := Option.some.inj (found.symm.trans found')
      exact ⟨rfl, rfl⟩
    | next _ found' more =>
      obtain rfl := Option.some.inj (found.symm.trans found')
      simp [last] at more
  | next fresh found more _ ih =>
    cases h' with
    | cycle passedBefore => exact absurd passedBefore fresh
    | missing _ absent => simp [absent] at found
    | head _ found' last =>
      obtain rfl := Option.some.inj (found.symm.trans found')
      simp [last] at more
    | next _ found' more' rest =>
      obtain rfl := Option.some.inj (found.symm.trans found')
      obtain rfl := Option.some.inj (more.symm.trans more')
      obtain ⟨rfl, rfl⟩ := ih rest
      exact ⟨rfl, rfl⟩

/-- The records of a chain were found. -/
theorem Chain.find_of_mem {find : TransactionId → Option Transaction} {passed : List TransactionId} {id : TransactionId}
    {chain : List Transaction} {stop : ChainEnd} (h : Chain find passed id chain stop) {t : Transaction}
    (member : t ∈ chain) : ∃ id, find id = some t := by
  induction h with
  | cycle | missing => cases member
  | head _ found =>
    obtain rfl := List.mem_singleton.1 member
    exact ⟨_, found⟩
  | next _ found _ _ ih =>
    obtain rfl | member := List.mem_cons.1 member
    · exact ⟨_, found⟩
    · exact ih member

end ChainArchive
