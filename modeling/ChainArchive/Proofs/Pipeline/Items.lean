import ChainArchive.Proofs.Pipeline.Coherent

/-!
# What a step does to an item

Items are never removed and keep their requests. A step moves each of them on
by one phase at most. Which items the pipeline has taken, and which of them are
done, is never taken back.
-/

namespace ChainArchive.Pipeline
set_option autoImplicit false

variable {σ : Type}

/-- One phase follows another in a pipeline, for an item whose task begins with `first`. What its work, its caller and
its own failure do is left out. -/
inductive Phase.Next (p : Pipeline σ) (first : σ) : Phase σ → Phase σ → Prop
  | grant : p.budgetClosed = false → Next p first .waiting .granted
  | refuseWaiting : p.budgetClosed = true → Next p first .waiting (.over .refused)
  | hold : p.budgetClosed = false → Next p first .granted .holding
  | refuseGranted : p.budgetClosed = true → Next p first .granted (.over .refused)
  | count (inFlight : Nat) : Next p first .holding (.counted inFlight)
  | note (inFlight : Nat) : Next p first (.counted inFlight) .noted
  | enqueue : p.queueClosed = false → Next p first .noted .queued
  | refuseNoted : p.queueClosed = true → Next p first .noted (.ended .refused)
  | begin : p.driver = .receiving → Next p first .queued (.working first)
  | discard : (∃ cause, p.driver = .draining cause) ∨ p.abandoned = true → Next p first .queued (.ended .discarded)
  | cancel (work : σ) : p.cancelling = true → Next p first (.working work) (.ended .cancelled)
  | shut (cause : GenerationError) : Next p first (.recorded cause) (.shut cause)
  | flag (cause : GenerationError) : Next p first (.shut cause) (.flagged cause)
  | discountFailed (cause : GenerationError) : Next p first (.flagged cause) (.uncounted (.failed cause))
  | discount {ending : Ending} : (∀ cause, ending ≠ .failed cause) → Next p first (.ended ending) (.uncounted ending)
  | freeTask {ending : Ending} : ending.isOfTask = true → Next p first (.uncounted ending) (.freed ending)
  | freeCall {ending : Ending} : ending.isOfTask = false → Next p first (.uncounted ending) (.over ending)
  | finish (ending : Ending) : Next p first (.freed ending) (.finished ending)
  | join (ending : Ending) : Next p first (.finished ending) (.over ending)

/-- What an action makes of the phase of item `i`. -/
inductive Phase.Moved (p : Pipeline σ) (first : σ) (action : Action σ) (i : Nat) : Phase σ → Phase σ → Prop
  | same (x : Phase σ) : Moved p first action i x x
  | next {x y : Phase σ} : Phase.Next p first x y → Moved p first action i x y
  | withdraw {x y : Phase σ} : action = .withdraw i → x.isCalling = true → x.ending? = none →
      y = .over .withdrawn ∨ y = .ended .withdrawn → Moved p first action i x y
  | work (old : σ) {new : σ} : action = .setWork i new → Moved p first action i (.working old) (.working new)
  | done (work : σ) {ending : Ending} : action = .finishWork i ending → ending.isOfWork = true →
      Moved p first action i (.working work) (.ended ending)
  | record (cause : GenerationError) : action = .unwind i →
      Moved p first action i (.ended (.failed cause)) (.recorded cause)

/-! ## Items after a change -/

section Items

variable {p q : Pipeline σ} {fresh : ArchivalRequest → σ} {action : Action σ}

theorem items_setPhase {i j : Nat} {y : Phase σ} {item : Item σ} (found : p.items[j]? = some item) :
    (p.setPhase i y).items[j]? = some (if i = j then { item with phase := y } else item) := by
  simp only [setPhase, List.getElem?_modify, found]
  split <;> simp

theorem items_discardQueue {j : Nat} {item : Item σ} (found : p.items[j]? = some item) :
    p.discardQueue.items[j]? = some (if j ∈ p.queue then { item with phase := .ended .discarded } else item) := by
  have all : ∀ (queue : List Nat) (p : Pipeline σ) (item : Item σ), p.items[j]? = some item →
      (queue.foldl (fun p i => p.setPhase i (.ended .discarded)) p).items[j]? =
        some (if j ∈ queue then { item with phase := .ended .discarded } else item) := by
    intro queue
    induction queue with
    | nil => exact fun _ _ found => by simpa using found
    | cons i queue ih =>
      intro p item found
      rw [List.foldl_cons, ih _ _ (items_setPhase found)]
      rcases eq_or_ne i j with rfl | other
      · simp
      · simp [other, Ne.symm other]
  exact all p.queue p item found

theorem phase?_of_items {j : Nat} {item : Item σ} (found : p.items[j]? = some item) : p.phase? j = some item.phase := by
  simp [phase?, found]

theorem items_of_phase? {j : Nat} {x : Phase σ} (found : p.phase? j = some x) :
    ∃ request, p.items[j]? = some ⟨request, x⟩ := by
  simp only [phase?, Option.map_eq_some_iff] at found
  obtain ⟨⟨request, x⟩, found, rfl⟩ := found
  exact ⟨request, found⟩

/-- The change of one phase moves every item on. -/
theorem moved_setPhase {i j : Nat} {x y : Phase σ} {item : Item σ} (inside : p.items[j]? = some item)
    (found : p.phase? i = some x) (moved : i = j → Phase.Moved p (fresh item.request) action j x y) :
    ∃ z, (p.setPhase i y).items[j]? = some ⟨item.request, z⟩ ∧
      Phase.Moved p (fresh item.request) action j item.phase z := by
  rw [items_setPhase inside]
  split
  · next here =>
    subst here
    obtain rfl : item.phase = x := by simpa [phase?_of_items inside] using found
    exact ⟨y, rfl, moved rfl⟩
  · exact ⟨item.phase, rfl, .same _⟩

/-- The change of one phase, after which a permit may go to an item that waits for one. -/
theorem moved_release {i j : Nat} {x y : Phase σ} {item : Item σ} (inside : p.items[j]? = some item)
    (found : p.phase? i = some x) (moved : i = j → Phase.Moved p (fresh item.request) action j x y)
    (notWaiting : y ≠ .waiting) :
    ∃ z, (p.setPhase i y).release.items[j]? = some ⟨item.request, z⟩ ∧
      Phase.Moved p (fresh item.request) action j item.phase z := by
  obtain ⟨z, now, step⟩ := moved_setPhase inside found moved
  rcases release_cases (p.setPhase i y) with ⟨-, same⟩ | ⟨k, waits, isOpen, granted⟩
  · exact ⟨z, by rw [same]; exact now, step⟩
  · rw [granted, items_setPhase now]
    split
    · next here =>
      subst here
      have z_waits : z = .waiting := by simpa [phase?_of_items now] using waits
      have other : i ≠ k := by
        rintro rfl
        rw [items_setPhase inside, if_pos rfl, Option.some.injEq, Item.mk.injEq] at now
        exact notWaiting (now.2.trans z_waits)
      have still : item.phase = .waiting := by
        rw [items_setPhase inside, if_neg other, Option.some.injEq] at now
        rw [now]
        exact z_waits
      exact ⟨.granted, rfl, still ▸ .next (.grant isOpen)⟩
    · exact ⟨z, rfl, step⟩

/-- Every step keeps the items that are there, with their requests, and moves them on. -/
theorem moved_of_moves (coherent : Coherent p) (moves : Moves fresh p action q) {j : Nat} {item : Item σ}
    (inside : p.items[j]? = some item) : ∃ z, q.items[j]? = some ⟨item.request, z⟩ ∧
      Phase.Moved p (fresh item.request) action j item.phase z := by
  have stay : q.items = p.items → ∃ z, q.items[j]? = some ⟨item.request, z⟩ ∧
      Phase.Moved p (fresh item.request) action j item.phase z :=
    fun same => ⟨item.phase, by rw [same]; exact inside, .same _⟩
  have discards (stopped : (∃ cause, p.driver = .draining cause) ∨ p.abandoned = true) :
      ∃ z, p.discardQueue.items[j]? = some ⟨item.request, z⟩ ∧
        Phase.Moved p (fresh item.request) action j item.phase z := by
    rw [items_discardQueue inside]
    split
    · next member =>
      have queued : item.phase = .queued := by
        simpa [phase?_of_items inside] using (coherent.mem_queue j).1 member
      exact ⟨_, rfl, queued ▸ .next (.discard stopped)⟩
    · exact ⟨_, rfl, .same _⟩
  cases moves with
  | callRefused | callWaits | callHolds =>
    refine ⟨item.phase, ?_, .same _⟩
    simpa [List.getElem?_append_left (List.getElem?_eq_some_iff.1 inside).1] using inside
  | refuseWaiting found closed => exact moved_setPhase inside found fun _ => .next (.refuseWaiting closed)
  | refuseGranted found closed => exact moved_release inside found (fun _ => .next (.refuseGranted closed)) (by simp)
  | hold found isOpen => exact moved_setPhase inside found fun _ => .next (.hold isOpen)
  | count found => exact moved_setPhase inside found fun _ => .next (.count _)
  | note found => exact moved_setPhase inside found fun _ => .next (.note _)
  | refuseNoted found closed => exact moved_setPhase inside found fun _ => .next (.refuseNoted closed)
  | enqueue found isOpen => exact moved_setPhase inside found fun _ => .next (.enqueue isOpen)
  | withdrawWaiting found => exact moved_setPhase inside found fun here => .withdraw (here ▸ rfl) rfl rfl (.inl rfl)
  | withdrawGranted found => exact moved_release inside found (fun here => .withdraw (here ▸ rfl) rfl rfl (.inl rfl)) (by simp)
  | withdrawHolding found => exact moved_release inside found (fun here => .withdraw (here ▸ rfl) rfl rfl (.inl rfl)) (by simp)
  | withdrawCounted found => exact moved_setPhase inside found fun here => .withdraw (here ▸ rfl) rfl rfl (.inr rfl)
  | withdrawNoted found => exact moved_setPhase inside found fun here => .withdraw (here ▸ rfl) rfl rfl (.inr rfl)
  | complete | abort => exact stay rfl
  | dropHandle => exact stay (by unfold dropHandle; split <;> rfl)
  | setWork found => exact moved_setPhase inside found fun here => .work _ (here ▸ rfl)
  | finishWork found own => exact moved_setPhase inside found fun here => .done _ (here ▸ rfl) own
  | cancelWork found told => exact moved_setPhase inside found fun _ => .next (.cancel _ told)
  | record found => exact moved_setPhase inside found fun here => .record _ (here ▸ rfl)
  | shut found => exact moved_setPhase inside found fun _ => .next (.shut _)
  | flag found => exact moved_setPhase inside found fun _ => .next (.flag _)
  | discountFailed found => exact moved_setPhase inside found fun _ => .next (.discountFailed _)
  | discount found other => exact moved_setPhase inside found fun _ => .next (.discount other)
  | freeTask found task => exact moved_release inside found (fun _ => .next (.freeTask task)) (by simp)
  | freeCall found call => exact moved_release inside found (fun _ => .next (.freeCall call)) (by simp)
  | finish found => exact moved_setPhase inside found fun _ => .next (.finish _)
  | join state waiting found =>
    have same : ∀ (p : Pipeline σ) (ending : Ending), (p.join ending).items = p.items := by
      intro p ending
      cases ending <;> rfl
    rw [same]
    exact moved_setPhase inside found fun _ => .next (.join _)
  | drain state waiting found => exact moved_setPhase inside found fun _ => .next (.join _)
  | @spawn i rest state known waiting =>
    have found : p.phase? i = some .queued := (coherent.mem_queue i).1 (by simp [waiting])
    obtain ⟨request, here⟩ := items_of_phase? found
    have items : (p.spawn fresh i rest).items = (p.setPhase i (.working (fresh request))).items := by
      simp [Pipeline.spawn, here, Pipeline.setPhase]
    rw [items]
    apply moved_setPhase inside found
    intro same
    subst same
    obtain rfl : item = ⟨request, .queued⟩ := by simpa [inside] using here
    exact .next (.begin state)
  | fail state => exact discards (.inl ⟨_, state⟩)
  | abandon _ told => exact discards (.inr told)
  | _ => exact stay rfl

/-- Only a call adds an item, behind all others. -/
theorem items_of_moves (moves : Moves fresh p action q) : q.items.length = p.items.length ∨
    ∃ request, ∃ x : Phase σ, action = .call request ∧ q.items = p.items ++ [⟨request, x⟩] ∧
      (x = .over .refused ∨ x = .waiting ∨ x = .holding) := by
  have release : ∀ p : Pipeline σ, p.release.items.length = p.items.length := by
    intro p
    rcases release_cases p with ⟨-, same⟩ | ⟨k, -, -, granted⟩
    · rw [same]
    · simp [granted, setPhase]
  have discard : ∀ (queue : List Nat) (p : Pipeline σ),
      (queue.foldl (fun p i => p.setPhase i (.ended .discarded)) p).items.length = p.items.length := by
    intro queue
    induction queue with
    | nil => exact fun _ => rfl
    | cons i queue ih => exact fun p => (ih _).trans (by simp [setPhase])
  cases moves with
  | callRefused => exact .inr ⟨_, _, rfl, rfl, .inl rfl⟩
  | callWaits => exact .inr ⟨_, _, rfl, rfl, .inr (.inl rfl)⟩
  | callHolds => exact .inr ⟨_, _, rfl, rfl, .inr (.inr rfl)⟩
  | refuseGranted | withdrawGranted | withdrawHolding | freeTask | freeCall => exact .inl (by simp [release, setPhase])
  | dropHandle => exact .inl (by unfold dropHandle; split <;> rfl)
  | @join i rest ending => exact .inl (by cases ending <;> simp [Pipeline.join, setPhase])
  | @spawn i rest => exact .inl (by simp only [Pipeline.spawn]; split <;> simp [setPhase])
  | fail | abandon => exact .inl (discard p.queue p)
  | _ => exact .inl (by simp [setPhase, Pipeline.complete, Pipeline.abort])

/-- Every item of the next state was there before, or has just been called for. -/
theorem origin_of_moves (coherent : Coherent p) (moves : Moves fresh p action q) {j : Nat} {item : Item σ}
    (inside : q.items[j]? = some item) :
    (∃ old, p.items[j]? = some ⟨item.request, old⟩ ∧ Phase.Moved p (fresh item.request) action j old item.phase) ∨
      (j = p.items.length ∧ action = .call item.request ∧
        (item.phase = .over .refused ∨ item.phase = .waiting ∨ item.phase = .holding)) := by
  by_cases before : j < p.items.length
  · have there := List.getElem?_eq_getElem before
    obtain ⟨z, now, moved⟩ := moved_of_moves coherent moves there
    rw [inside, Option.some.injEq] at now
    subst now
    exact .inl ⟨_, there, moved⟩
  · rcases items_of_moves moves with same | ⟨request, x, rfl, added, begins⟩
    · have := (List.getElem?_eq_some_iff.1 inside).1
      omega
    · have here : j = p.items.length := by
        have := (List.getElem?_eq_some_iff.1 inside).1
        simp [added] at this
        omega
      subst here
      obtain rfl : (⟨request, x⟩ : Item σ) = item := by simpa [added] using inside
      exact .inr ⟨rfl, rfl, begins⟩

/-- A step that is not a call changes no request and adds no item. -/
theorem phase?_of_moves (coherent : Coherent p) (moves : Moves fresh p action q)
    (noCall : ∀ request, action ≠ .call request) {i : Nat} {y : Phase σ} (found : q.phase? i = some y) :
    ∃ first x, p.phase? i = some x ∧ Phase.Moved p first action i x y := by
  obtain ⟨request, inside⟩ := items_of_phase? found
  obtain ⟨x, before, moved⟩ | ⟨-, call, -⟩ := origin_of_moves coherent moves inside
  · exact ⟨_, x, phase?_of_items before, moved⟩
  · exact absurd call (noCall _)

theorem length_of_moves (moves : Moves fresh p action q) (noCall : ∀ request, action ≠ .call request) :
    q.items.length = p.items.length := by
  obtain same | ⟨request, -, call, -⟩ := items_of_moves moves
  · exact same
  · exact absurd call (noCall request)

end Items

/-! ## What is never taken back -/

namespace Phase

/-- The pipeline took the item. -/
def isTaken : Phase σ → Bool
  | .waiting | .granted | .holding | .counted _ | .noted => false
  | .queued | .working _ | .recorded _ | .shut _ | .flagged _ => true
  | .ended e | .uncounted e | .freed e | .finished e | .over e => e != .refused && e != .withdrawn

variable {p : Pipeline σ} {first : σ} {action : Action σ} {i : Nat} {x y : Phase σ}

/-- A taken item is with the pipeline, not with its caller. -/
theorem isCalling_of_isTaken (taken : x.isTaken = true) : x.isCalling = false := by
  cases x with
  | ended e | uncounted e => cases e <;> simp_all [isTaken, isCalling, Ending.isOfTask]
  | _ => simp_all [isTaken, isCalling]

theorem isTaken_of_moved (h : Moved p first action i x y) (taken : x.isTaken = true) : y.isTaken = true := by
  cases h with
  | same => exact taken
  | next h => cases h <;> first | exact taken | simp_all [isTaken]
  | withdraw _ calling => simp [isCalling_of_isTaken taken] at calling
  | work | record => rfl
  | @done _ ending _ own => cases ending <;> simp_all [isTaken, Ending.isOfWork]

/-- An item that has ended keeps its ending. -/
theorem ending?_of_moved (h : Moved p first action i x y) {ending : Ending} (ended : x.ending? = some ending) :
    y.ending? = some ending := by
  cases h with
  | same => exact ended
  | next h => cases h <;> first | exact ended | cases ended
  | withdraw _ _ going => simp [going] at ended
  | record => exact ended
  | work | done => cases ended

/-- What brings an item to its end. -/
inductive Ends (p : Pipeline σ) (action : Action σ) (i : Nat) : Phase σ → Ending → Prop
  | refused (x : Phase σ) : p.budgetClosed = true ∨ p.queueClosed = true → Ends p action i x .refused
  | withdrawn (x : Phase σ) : action = .withdraw i → Ends p action i x .withdrawn
  | discarded (x : Phase σ) : (∃ cause, p.driver = .draining cause) ∨ p.abandoned = true → Ends p action i x .discarded
  | cancelled (x : Phase σ) : p.cancelling = true → Ends p action i x .cancelled
  | own (work : σ) {ending : Ending} : action = .finishWork i ending → ending.isOfWork = true →
      Ends p action i (.working work) ending

theorem ends_of_moved (h : Moved p first action i x y) {ending : Ending} (ended : y.ending? = some ending) :
    x.ending? = some ending ∨ Ends p action i x ending := by
  cases h with
  | same => exact .inl ended
  | next h =>
    cases h with
    | refuseWaiting closed | refuseGranted closed => cases ended; exact .inr (.refused _ (.inl closed))
    | refuseNoted closed => cases ended; exact .inr (.refused _ (.inr closed))
    | discard stopped => cases ended; exact .inr (.discarded _ stopped)
    | cancel work told => cases ended; exact .inr (.cancelled _ told)
    | _ => exact .inl ended
  | withdraw same _ _ given => obtain rfl | rfl := given <;> cases ended <;> exact .inr (.withdrawn _ same)
  | work => cases ended
  | done work same own => cases ended; exact .inr (.own work same own)
  | record => exact .inl ended

theorem isDone_of_moved (h : Moved p first action i x y) (done : x.isDone = true) : y.isDone = true := by
  rw [isDone, beq_iff_eq] at done ⊢
  exact ending?_of_moved h done

/-- An item becomes done only when its work ends so. -/
theorem finishWork_of_isDone (h : Moved p first action i x y) (done : y.isDone = true) :
    x.isDone = true ∨ (∃ work, x = .working work) ∧ action = .finishWork i .done := by
  rw [isDone, beq_iff_eq] at done
  rw [isDone, beq_iff_eq]
  cases ends_of_moved h done with
  | inl already => exact .inl already
  | inr ends =>
    cases ends with
    | own work same => exact .inr ⟨⟨work, rfl⟩, same⟩

/-- An item does not go back to its caller. -/
theorem isCalling_of_moved (h : Moved p first action i x y) (quiet : x.isCalling = false) : y.isCalling = false := by
  cases h with
  | same => exact quiet
  | next h => cases h <;> first | exact quiet | rfl
  | withdraw _ calling => simp [calling] at quiet
  | work | record => rfl
  | @done _ ending _ own => cases ending <;> simp_all [isCalling, Ending.isOfWork, Ending.isOfTask]

/-- Only its caller gives an item up. -/
theorem withdraw_of_moved (h : Moved p first action i x y) (given : y.ending? = some .withdrawn) :
    x.ending? = some .withdrawn ∨ action = .withdraw i := by
  cases ends_of_moved h given with
  | inl already => exact .inl already
  | inr ends =>
    cases ends with
    | withdrawn _ same => exact .inr same
    | own _ _ own => cases own

end Phase
end ChainArchive.Pipeline
