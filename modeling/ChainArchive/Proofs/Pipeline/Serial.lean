import ChainArchive.Proofs.Pipeline.Announced
import ChainArchive.Proofs.Pipeline.Causes
import ChainArchive.Proofs.Pipeline.Permits
import ChainArchive.Proofs.Run.Sound

/-!
# One permit

With a single permit the items are worked on one after the other, in the order of
the calls, and only as long as all goes well. The permit comes back from an item
before the next one gets it, and an item that was not done leaves the pipeline
closed: a failure closes the budget before the permit is back, and work is
stopped or thrown away only after the driver has failed or the handle was
dropped.
-/

namespace ChainArchive.Pipeline
set_option autoImplicit false

variable {σ : Type} {p q : Pipeline σ} {fresh : ArchivalRequest → σ} {action : Action σ} {i j : Nat} {x y : Phase σ}

/-! ## Who has the permit -/

namespace Phase

variable {first : σ}

/-- A call gets its permit for good when it goes on with it. -/
theorem hold_of_moved (h : Moved p first action i x y) (denied : x.isDenied = true) (served : y.isDenied = false) :
    x = .granted := by
  cases h with
  | same => simp [denied] at served
  | next step =>
    cases step with
    | hold => rfl
    | grant | refuseWaiting | refuseGranted => cases served
    | @discount ending | @freeTask ending | @freeCall ending | finish ending | join ending =>
      cases ending <;> simp_all [isDenied, ending?]
    | _ => cases denied
  | withdraw _ _ _ given => obtain rfl | rfl := given <;> cases served
  | work | done | record => cases denied

/-- Nothing is left to do with the item but to end its task. -/
def isServed (x : Phase σ) : Bool := x.isDone && !x.hasPermit

theorem isServed_of_moved (h : Moved p first action i x y) (served : x.isServed = true) : y.isServed = true := by
  cases h with
  | same => exact served
  | next step =>
    cases step with
    | finish ending | join ending => cases ending <;> first | rfl | cases served
    | @freeTask ending => cases ending <;> first | rfl | cases served
    | @freeCall ending => cases ending <;> first | rfl | cases served
    | @discount ending => cases ending <;> cases served
    | _ => cases served
  | withdraw _ calling going given =>
    rw [isServed, Bool.and_eq_true, isDone, going] at served
    cases served.1
  | work | done | record => cases served

end Phase

namespace Balanced

/-- While the one permit is free, nobody has it. -/
theorem hasPermit_eq_false (h : Balanced 1 p) (free : p.free ≠ 0) (found : p.phase? i = some x) :
    x.hasPermit = false := by
  by_contra permit
  have one : [i].length ≤ p.tally Phase.hasPermit :=
    length_le_tally (by simp) (by simpa using ⟨x, found, by simpa using permit⟩)
  have all := h.permits
  simp only [List.length_singleton] at one
  omega

/-- Two items do not have the one permit. -/
theorem hasPermit_eq_false_of_ne (h : Balanced 1 p) (other : i ≠ j) (found : p.phase? i = some x)
    (found' : p.phase? j = some y) (permit : y.hasPermit = true) : x.hasPermit = false := by
  by_contra both
  have two : [i, j].length ≤ p.tally Phase.hasPermit :=
    length_le_tally (by simpa using other) (by simpa using ⟨⟨x, found, by simpa using both⟩, y, found', permit⟩)
  have all := h.permits
  simp only [List.length_cons, List.length_nil] at two
  omega

end Balanced

/-! ## The order of the items -/

/-- What holds of a pipeline with one permit whose items are called for one at a time. -/
structure Serial (p : Pipeline σ) : Prop where
  /-- An item that has got its permit comes after items that are done with theirs. -/
  served : ∀ i j x y, i < j → p.phase? i = some x → p.phase? j = some y → y.isDenied = false → x.isServed = true
  /-- Only the last call may be under way. -/
  single : ∀ i x, i + 1 < p.items.length → p.phase? i = some x → x.isTaken = true
  stopping : p.cancelling = true → p.Closed
  quiet : p.inputOpen = false → p.NoneCalling

namespace Serial

theorem start {parallelism : Nat} (h : Pipeline.start parallelism = .ok p) : Serial p := by
  unfold Pipeline.start at h
  split at h <;> cases h
  constructor <;> simp [phase?]

/-- As long as something further is taken, an item that the pipeline took and that has no permit is done. -/
theorem isServed_of_taken (h : p.Serial) (announced : Announced p) (orderly : Orderly p) (sane : ¬ p.Panicked)
    (isOpen : ¬ p.Closed) (found : p.phase? i = some x) (taken : x.isTaken = true) (permit : x.hasPermit = false) :
    x.isServed = true := by
  have done : x.isDone = true := by
    have ended {e : Ending} (ends : x.ending? = some e) (loud : ∀ cause, e = .failed cause → 1 ≤ x.announced)
        (given : e ≠ .withdrawn) : e = .done := by
      cases e with
      | done => rfl
      | failed cause => exact absurd (.inr (announced.shut i x found (loud cause rfl))) isOpen
      | panicked => exact absurd ⟨i, x, found, ends⟩ sane
      | cancelled => exact absurd (h.stopping (orderly.cancelled i x found ends)) isOpen
      | discarded => exact absurd (orderly.unwanted i x found (.inr ends)) isOpen
      | refused => exact absurd (orderly.unwanted i x found (.inl ends)) isOpen
      | withdrawn => exact absurd rfl given
    cases x with
    | freed e | finished e | «over» e =>
      obtain rfl : e = .done := by
        refine ended rfl ?_ ?_
        · rintro cause rfl
          simp [Phase.announced]
        · rintro rfl
          cases taken
      rfl
    | waiting | granted | holding | counted | noted => cases taken
    | queued | working | recorded | shut | flagged | ended | uncounted => cases permit
  simp [Phase.isServed, done, permit]

/-- Tasks are told to stop only when nothing further is taken. -/
theorem stopping_of_moves (h : p.Serial) (coherent : Coherent p) (orderly : Orderly p) (moves : Moves fresh p action q)
    (told : q.cancelling = true) : q.Closed := by
  have kept (before : p.cancelling = true) : q.Closed := (h.stopping before).moves moves
  have next := signals_of_moves moves
  have inOrder := orderly.signals.next coherent next
  change q.signals.cancelling = true at told
  change q.signals.inputOpen = false ∨ q.signals.budgetClosed = true
  change p.cancelling = true → q.signals.inputOpen = false ∨ q.signals.budgetClosed = true at kept
  generalize q.signals = s at next inOrder told kept
  cases next with
  | cancelTasks state =>
    refine .inr (orderly.signals.shut ?_)
    simp [signals, state, Driver.measures]
  | abandon left => exact .inl (orderly.signals.left left)
  | _ => exact kept told

/-- Nobody calls once the input is closed. -/
theorem quiet_of_moves (h : p.Serial) (coherent : Coherent p) (moves : Moves fresh p action q)
    (closed : q.inputOpen = false) : q.NoneCalling := by
  have idle (other : ∀ request, action ≠ .call request) (quiet : p.NoneCalling) : q.NoneCalling :=
    quiet.moves coherent moves other
  by_cases ends : action = .complete ∨ action = .dropHandle
  · refine idle (by rintro request rfl; simp at ends) ?_
    rcases ends with rfl | rfl
    · cases moves with
      | complete quiet => exact isCalling_eq_false_iff.1 quiet
    · cases moves with
      | dropHandle quiet => exact isCalling_eq_false_iff.1 quiet
  · obtain ⟨complete, dropHandle⟩ := not_or.1 ends
    rw [inputOpen_of_moves moves complete dropHandle] at closed
    have quiet := h.quiet closed
    intro i y found
    obtain ⟨request, inside⟩ := items_of_phase? found
    obtain ⟨x, before, moved⟩ | ⟨here, called, -⟩ := origin_of_moves coherent moves inside
    · exact Phase.isCalling_of_moved moved (quiet i x (phase?_of_items before))
    · subst here called
      cases moves with
      | callRefused =>
        obtain rfl : Phase.over .refused = y := by simpa [phase?] using found
        rfl
      | callWaits isOpen | callHolds isOpen => simp [closed] at isOpen

/-- Only the last call may be under way, if a call comes only when the items before it have been taken. -/
theorem single_of_moves (h : p.Serial) (coherent : Coherent p) (moves : Moves fresh p action q)
    (turn : ∀ request, action = .call request → p.AllTaken) (before : i + 1 < q.items.length)
    (found : q.phase? i = some y) : y.isTaken = true := by
  obtain ⟨request, inside⟩ := items_of_phase? found
  obtain ⟨x, there, moved⟩ | ⟨here, called, -⟩ := origin_of_moves coherent moves inside
  · refine Phase.isTaken_of_moved moved ?_
    by_cases calls : ∃ request, action = .call request
    · obtain ⟨request', called⟩ := calls
      exact turn request' called i x (phase?_of_items there)
    · refine h.single i x ?_ (phase?_of_items there)
      rwa [length_of_moves moves fun request called => calls ⟨request, called⟩] at before
  · subst here called
    cases moves <;> simp at before

/-- Whoever gets his permit comes after items that are done with theirs. -/
theorem served_of_moves (h : p.Serial) (coherent : Coherent p) (balanced : Balanced 1 p) (announced : Announced p)
    (orderly : Orderly p) (sane : ¬ p.Panicked) (moves : Moves fresh p action q)
    (turn : ∀ request, action = .call request → p.AllTaken) (before : i < j) (found : q.phase? i = some x)
    (found' : q.phase? j = some y) (permitted : y.isDenied = false) : x.isServed = true := by
  obtain ⟨request, inside⟩ := items_of_phase? found
  obtain ⟨request', inside'⟩ := items_of_phase? found'
  have bound := (List.getElem?_eq_some_iff.1 inside').1
  obtain ⟨x₀, there, moved⟩ | ⟨here, called, -⟩ := origin_of_moves coherent moves inside
  · refine Phase.isServed_of_moved moved ?_
    have there := phase?_of_items there
    obtain ⟨y₀, there', moved'⟩ | ⟨here', called, begins⟩ := origin_of_moves coherent moves inside'
    · have earlier := (List.getElem?_eq_some_iff.1 there').1
      have there' := phase?_of_items there'
      cases denied : y₀.isDenied with
      | false => exact h.served i j x₀ y₀ before there there' denied
      | true =>
        -- the call goes on with its permit, which is the only one
        obtain rfl := Phase.hold_of_moved moved' denied permitted
        have permit := balanced.hasPermit_eq_false_of_ne (Nat.ne_of_lt before) there there' rfl
        have isOpen : ¬ p.Closed := by
          rintro (closed | closed)
          · cases h.quiet closed j _ there'
          · have still := isDenied_of_moves coherent closed moves
              (fun z inside => by rw [← Option.some.inj (there'.symm.trans inside)]; rfl) found'
            simp [permitted] at still
        exact h.isServed_of_taken announced orderly sane isOpen there (h.single i x₀ (by omega) there) permit
    · subst called
      cases moves with
      | callHolds isOpen budget free =>
        refine h.isServed_of_taken announced orderly sane ?_ there (turn _ rfl i x₀ there)
          (balanced.hasPermit_eq_false free there)
        rintro (closed | closed)
        · simp [isOpen] at closed
        · simp [budget] at closed
      | callRefused | callWaits =>
        subst here'
        simp only [List.getElem?_concat_length, Option.some.injEq, Item.mk.injEq] at inside'
        simp [← inside'.2, Phase.isDenied] at permitted
  · subst here called
    cases moves <;> simp at bound <;> omega

/-- Every step keeps the order, as long as items are called for one at a time and none panics. -/
theorem moves (h : p.Serial) (coherent : Coherent p) (balanced : Balanced 1 p) (announced : Announced p)
    (orderly : Orderly p) (sane : ¬ p.Panicked) (moves : Moves fresh p action q)
    (turn : ∀ request, action = .call request → p.AllTaken) : q.Serial where
  served _ _ _ _ := h.served_of_moves coherent balanced announced orderly sane moves turn
  single _ _ := h.single_of_moves coherent moves turn
  stopping := h.stopping_of_moves coherent orderly moves
  quiet := h.quiet_of_moves coherent moves

/-- The items that are done are the first ones. -/
theorem isDone_of_lt (h : p.Serial) (before : i < j) (found : p.phase? i = some x) (found' : p.phase? j = some y)
    (done : y.isDone = true) : x.isDone = true := by
  have permitted : y.isDenied = false := by
    cases y with
    | ended e | uncounted e | freed e | finished e | «over» e => cases e <;> first | rfl | cases done
    | _ => cases done
  have served := h.served i j x y before found found' permitted
  rw [Phase.isServed, Bool.and_eq_true] at served
  exact served.1

/-- Those before an item that has failed are done, and none after it is. -/
theorem isDone_iff_of_failed (h : p.Serial) {cause : GenerationError} (found : p.phase? i = some x)
    (failed : x.ending? = some (.failed cause)) (found' : p.phase? j = some y) : y.isDone = true ↔ j < i := by
  have permitted : x.isDenied = false := by
    cases x with
    | ended | uncounted | freed | finished | «over» =>
      cases failed
      rfl
    | recorded | shut | flagged => rfl
    | _ => cases failed
  have undone : x.isDone = false := by simp [Phase.isDone, failed]
  constructor
  · intro done
    rcases Nat.lt_trichotomy j i with before | rfl | after
    · exact before
    · obtain rfl := Option.some.inj (found.symm.trans found')
      simp [undone] at done
    · simp [h.isDone_of_lt after found found' done] at undone
  · intro before
    have served := h.served j i y x before found' found permitted
    rw [Phase.isServed, Bool.and_eq_true] at served
    exact served.1

end Serial
end ChainArchive.Pipeline
