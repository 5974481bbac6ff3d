import ChainArchive.Proofs.Run.Itinerary
import ChainArchive.Proofs.World.Quiet

/-!
# A failure stops its run

Once the task of an item has announced its failure, its run is mute: whatever
gets its results later is not relocated, whoever waits for a permit is refused,
and the walker asks the store for nothing more. What the run has relocated
before stays so, and the record of the item that failed is still where it was.
-/

namespace ChainArchive
set_option autoImplicit false

open Archiver (Work)
open Pipeline (Phase Item)

/-! ## The run after a failure -/

namespace Run

variable {store : Store} {now : Nat} {gated : Bool} {r r' s : Run}

/-- A call is given up only by who drops the run. -/
def OwnsCalls (r : Run) : Prop :=
  ∀ i x, r.pipeline.phase? i = some x → x.ending? = some .withdrawn → r.walker.isGone = true

/-- A step of the pipeline that gives no call up. -/
theorem OwnsCalls.moves {action : Pipeline.Action Work} (h : r.OwnsCalls) (sound : r.Sound)
    (other : ∀ i, action ≠ .withdraw i) (moves : Pipeline.Moves (fun _ => .unstarted) r.pipeline action r'.pipeline)
    (gone : r.walker.isGone = true → r'.walker.isGone = true) : r'.OwnsCalls := by
  intro i y found given
  obtain ⟨request, inside⟩ := Pipeline.items_of_phase? found
  obtain ⟨x, before, moved⟩ | ⟨-, -, begins⟩ := Pipeline.origin_of_moves sound.coherent moves inside
  · have already := (Phase.withdraw_of_moved moved given).resolve_right (other i)
    exact gone (h i x (Pipeline.phase?_of_items before) already)
  · dsimp only at begins
    obtain rfl | rfl | rfl := begins <;> cases given

theorem OwnsCalls.goes (h : r.OwnsCalls) (sound : r.Sound) (step : r.Goes r') : r'.OwnsCalls := by
  have inner {action : Pipeline.Action Work} (step : r.Inner action r') : r'.OwnsCalls :=
    h.moves sound (by rintro i rfl; cases step.inner) step.moves fun gone => step.walker ▸ gone
  cases step with
  | stored step => exact inner step.inner
  | alone step =>
    cases step with
    | inner step => exact inner step
    | proceed place | refuse _ place =>
      intro i x found given
      have gone := h i x found given
      simp [place, Walker.isGone] at gone
    | drop => exact fun _ _ _ _ => rfl
    | walk walked =>
      have step := walks_of_walk walked
      have gone := step.before.gone
      cases step with
      | withdraws | leaves | drops => exact fun _ _ _ _ => rfl
      | calls => exact h.moves sound (by simp) (Pipeline.moves_call _) gone
      | resumes _ _ resumed => exact h.moves sound (by simp) (Pipeline.moves_of_resume resumed) gone
      | unwinds _ _ unwound => exact h.moves sound (by simp) (Pipeline.moves_of_unwind unwound) gone
      | aborts => exact h.moves sound (by simp) .abort gone
      | completes place =>
        have quiet : r.pipeline.NoneCalling := sound.positioned.noneCalling (by simp [place]) (by simp [place])
        exact h.moves sound (by simp) (.complete (Pipeline.isCalling_eq_false_iff.2 quiet)) gone
      | @ends outcome result place =>
        have kept : (r.finish (outcome.result result)).pipeline = r.pipeline := by
          cases outcome.result result <;> rfl
        exact fun i x found given => gone (h i x (kept ▸ found) given)
      | _ => exact fun i x found given => gone (h i x found given)

/-- A step leaves the items of the run with their requests, and what is done stays done. -/
theorem Goes.keeps (step : r.Goes r') (sound : r.Sound) {i : Nat} {item : Item Work}
    (inside : r.pipeline.items[i]? = some item) :
    ∃ x, r'.pipeline.items[i]? = some ⟨item.request, x⟩ ∧ (item.phase.isDone = true → x.isDone = true) := by
  rcases step.pipeline sound with same | ⟨action, moves⟩
  · exact ⟨item.phase, same ▸ inside, id⟩
  · obtain ⟨x, now, moved⟩ := Pipeline.moved_of_moves sound.coherent moves inside
    exact ⟨x, now, Phase.isDone_of_moved moved⟩

/-- `s` is what has become of `r`, in which a failure had been announced. -/
structure Halted (r s : Run) : Prop where
  closed : s.pipeline.budgetClosed = true
  raised : s.pipeline.raised = true
  lookups : s.lookups = r.lookups
  denied : ∀ j, (∀ x, r.pipeline.phase? j = some x → x = .waiting ∨ x = .granted) →
    ∀ x, s.pipeline.phase? j = some x → x.isDenied = true
  handed : ∀ (j : Nat) (item : Item Work), r.pipeline.items[j]? = some item →
    ∃ x, s.pipeline.items[j]? = some ⟨item.request, x⟩

theorem Halted.start (announced : r.pipeline.Announced) {i : Nat} {x : Phase Work}
    (found : r.pipeline.phase? i = some x) (flagged : x.hasFlagged = true) : r.Halted r := by
  have told : x.announced = 2 := by simpa [Phase.hasFlagged] using flagged
  refine ⟨announced.shut i x found (by omega), announced.flagged i x found (by omega), rfl, fun j waits y inside => ?_,
    fun j item inside => ⟨item.phase, inside⟩⟩
  rcases waits y inside with rfl | rfl <;> rfl

/-- The walker begins a lookup only while the flag is down. -/
theorem Walks.lookups (step : Walks store now gated r r') (raised : r.pipeline.raised = true) :
    r'.lookups = r.lookups := by
  cases step with
  | asks _ calm => simp [raised] at calm
  | @ends outcome result => cases outcome.result result <;> rfl
  | @finds current asked t => rfl
  | _ => rfl

/-- The call for item `j`, if there is one, was refused, is refused as soon as it goes on, or was given up together with
the run. -/
def Refuses (r : Run) (j : Nat) : Prop :=
  ∀ x, r.pipeline.phase? j = some x → r.pipeline.accepted? j = some false ∨
    (r.pipeline.accepted? j = none ∧ ∃ q, r.pipeline.resume j = some q ∧ q.accepted? j = some false) ∨
    (x.ending? = some .withdrawn ∧ r.walker.isGone = true)

theorem refuses_of_isDenied (owns : s.OwnsCalls) (closed : s.pipeline.budgetClosed = true) {j : Nat}
    (denied : ∀ x, s.pipeline.phase? j = some x → x.isDenied = true) : s.Refuses j := by
  intro x found
  have isDenied := denied x found
  have goesOn (waits : x = .waiting ∨ x = .granted) : s.pipeline.accepted? j = none ∧
      ∃ q, s.pipeline.resume j = some q ∧ q.accepted? j = some false := by
    refine ⟨?_, Pipeline.refused_of_waiting closed found waits⟩
    rcases waits with rfl | rfl <;> simp [Pipeline.accepted?, found]
  unfold Phase.isDenied at isDenied
  split at isDenied
  · exact .inr (.inl (goesOn (.inl rfl)))
  · exact .inr (.inl (goesOn (.inr rfl)))
  · exact .inl (by simp [Pipeline.accepted?, found])
  · have given : x.ending? = some .withdrawn := by simpa using isDenied
    exact .inr (.inr ⟨given, owns j x found given⟩)

/-! ## Records that the run holds -/

/-- The record of this id that the run has, or has handed over, is the live one as long as its item is not done. -/
structure Held (live : Option Transaction) (id : TransactionId) (r : Run) : Prop where
  resolved : ∀ t, r.walker = .resolved t → t.id = id → live = some t
  handed : ∀ (i : Nat) (item : Item Work), r.pipeline.items[i]? = some item → item.request.transaction.id = id →
    item.phase.isDone = false → live = some item.request.transaction

theorem Held.begin {settings : GenerationSettings} {statement : StatementId} {last id : TransactionId}
    {live : Option Transaction} (h : Run.begin settings statement last = .ok r) : r.Held live id := by
  have empty := items_begin h
  refine ⟨fun t place => ?_, fun i item inside => by simp [empty] at inside⟩
  rw [walker_begin h] at place
  cases place

/-- The walker has a record because the store had it. -/
theorem Walks.resolved (step : Walks store now gated r r') {t : Transaction} (place : r'.walker = .resolved t) :
    ∃ id, store.find? id = some t := by
  cases step with
  | @finds current asked t' _ found =>
    cases place
    exact ⟨current, found⟩
  | @ends outcome result => cases told : outcome.result result <;> simp [told, finish, goTo, say] at place
  | _ => cases place

end Run

namespace World

variable {w₀ w₁ w v u : World} {action : Action} {k : Nat} {r r' s : Run} {after : Store} {id : TransactionId}

theorem ownsCalls_reachable (idle : w₀.runs = []) (reach : Reachable (Steps World.step) w₀ w)
    (found : w.runs[k]? = some r) : r.OwnsCalls := by
  refine forall_runs (P := Run.OwnsCalls) idle (fun r _ _ _ begun i x inside => ?_) ?_ reach k r found
  · simp [Pipeline.phase?, Run.items_begin begun] at inside
  · rintro w k r action after r' - sound - (rfl | goes) h
    · exact h
    · exact h.goes sound goes

theorem Does.halted (does : w.Does k r action after r') (goes : r' = r ∨ r.Goes r') (sound : r.Sound)
    (h : s.Halted r) : s.Halted r' := by
  have lookups : r'.lookups = r.lookups := by
    rcases does.walk sound with step | ⟨-, -, same, -⟩
    · exact step.lookups h.raised
    · exact same
  rcases goes with rfl | goes
  · exact h
  have handed (j : Nat) (item : Item Work) (inside : s.pipeline.items[j]? = some item) :
      ∃ x, r'.pipeline.items[j]? = some ⟨item.request, x⟩ := by
    obtain ⟨x, inside⟩ := h.handed j item inside
    obtain ⟨y, inside, -⟩ := goes.keeps sound inside
    exact ⟨y, inside⟩
  rcases goes.pipeline sound with same | ⟨b, moves⟩
  · exact ⟨same ▸ h.closed, same ▸ h.raised, lookups.trans h.lookups, same ▸ h.denied, handed⟩
  · have later := Pipeline.later_of_moves moves
    refine ⟨later.budget h.closed, later.raised h.raised, lookups.trans h.lookups, fun j waits x found => ?_, handed⟩
    exact Pipeline.isDenied_of_moves sound.coherent h.closed moves (h.denied j waits) found

/-- The archive only grows. -/
theorem Books.archive {outputs : Transforms} (books : Books outputs w action v) :
    w.store.archive <+: v.store.archive := by
  cases books with
  | neither store => rw [store]
  | item _ _ _ taken => exact ⟨_, (Store.archive_relocate taken).symm⟩
  | inserted t => exact List.prefix_rfl
  | moved taken => exact ⟨_, (Store.archive_relocate taken).symm⟩

/-- A failure had been announced in run `k` when the world was `w₁`. -/
structure Halted (k : Nat) (w₁ w : World) : Prop where
  muted : Muted k w
  run : ∃ r s, w₁.runs[k]? = some r ∧ w.runs[k]? = some s ∧ r.Halted s
  done : ∀ j request, w.Done k j request ↔ w₁.Done k j request
  archive : w₁.store.archive <+: w.store.archive

theorem Halted.step (h : Halted k w₁ w) (step : w.step action = some v) : Halted k w₁ v := by
  have sound := h.muted.sound
  obtain ⟨muted, silent⟩ := h.muted.step step
  obtain ⟨r, s, first, found, halted⟩ := h.run
  have books := sound.books (sound.change_of_any_step step)
  refine ⟨muted, ?_, fun j request => ?_, h.archive.trans books.archive⟩
  · obtain ⟨s', found', -⟩ := muted.run
    refine ⟨r, s', first, found', ?_⟩
    have goes := sound.goes_of_step step found found'
    rcases run_of_step step found' with ⟨t, there, ⟨-, rfl⟩ | ⟨-, does⟩⟩ | ⟨beyond, -⟩
    · rwa [← Option.some.inj (found.symm.trans there)]
    · obtain rfl := Option.some.inj (found.symm.trans there)
      exact does.halted goes (sound k s found).1 halted
    · exact absurd (List.getElem?_eq_some_iff.1 found).1 (by simp [beyond])
  · refine Iff.trans ?_ (h.done j request)
    cases books with
    | neither _ done => exact done k j request
    | @item k' i r' request' record _ _ _ _ taken _ done =>
      -- a mute run has no item that becomes done, for the store would take its record
      have other : k ≠ k' := by
        rintro rfl
        have grown := Store.archive_relocate taken
        rw [silent rfl] at grown
        simp at grown
      rw [done]
      exact or_iff_left fun is => other is.1
    | inserted | moved => exact Iff.rfl

/-! ## The record of the item that failed -/

/-- The run goes on, and what it holds is live as before. -/
theorem Does.held (does : w.Does k r action after r') (goes : r' = r ∨ r.Goes r') (sound : r.Sound)
    (keyed : w.store.Keyed) (h : r.Held (w.store.find? id) id) : r'.Held (w.store.find? id) id := by
  refine ⟨fun t place same => ?_, fun i item inside same going => ?_⟩
  · rcases does.walk sound with step | ⟨-, -, -, aside⟩
    · obtain ⟨current, found⟩ := step.resolved place
      rw [← same, keyed current t found]
      exact found
    · rw [place] at aside
      generalize before : r.walker = walker at aside
      cases aside with
      | stays => exact h.resolved t before same
  · cases old : r.pipeline.items[i]? with
    | some item' =>
      rcases goes with rfl | goes
      · exact h.handed i item inside same going
      · obtain ⟨x, now, keeps⟩ := goes.keeps sound old
        obtain rfl := Option.some.inj (inside.symm.trans now)
        exact h.handed i item' old same (Bool.eq_false_iff.2 fun done => by simp [keeps done] at going)
    | none =>
      -- the walker has just handed it over
      have handed : r'.transactions[i]? = some item.request.transaction := by simp [Run.transactions, inside]
      have beyond : r.transactions[i]? = none := by simp [Run.transactions, old]
      rcases does.walk sound with step | ⟨kept, -⟩
      · rcases step.transactions sound with kept | ⟨t, place, added⟩
        · simp [kept, beyond] at handed
        · rw [added, List.getElem?_append_right (List.getElem?_eq_none_iff.1 beyond), List.getElem?_singleton] at handed
          split at handed <;> cases handed
          exact h.resolved _ place same
      · simp [kept, beyond] at handed

/-- Run `k` goes on, and holds what it held: a record leaves the store together with its item, which is done. -/
theorem held_of_step (sound : w.Sound fun _ _ _ => True) (keyed : w.store.Keyed) (step : w.step action = some v)
    (own : action.run? = some k) (found : w.runs[k]? = some r) (found' : v.runs[k]? = some r') (itinerary : r'.Itinerary)
    (h : r.Held (w.store.find? id) id) : r'.Held (v.store.find? id) id := by
  have goes := sound.goes_of_step step found found'
  have kept : r'.Held (w.store.find? id) id := by
    rcases run_of_step step found' with ⟨t, there, ⟨other, -⟩ | ⟨-, does⟩⟩ | ⟨beyond, -⟩
    · exact absurd own other
    · obtain rfl := Option.some.inj (found.symm.trans there)
      exact does.held goes (sound k r found).1 keyed h
    · exact absurd (List.getElem?_eq_some_iff.1 found).1 (by simp [beyond])
  cases sound.books (sound.change_of_any_step step) with
  | neither store =>
    rw [store]
    exact kept
  | @item k' i _ request record _ _ _ isRecord taken _ done =>
    obtain rfl : k' = k := by simpa [Action.run?] using own
    rw [Store.find?_relocate taken]
    split
    · next same =>
      -- the item whose record was taken is the only one with this id, and it is done
      obtain ⟨s, item, there, inside, rfl, isDone⟩ := (done k' i request).2 (.inr ⟨rfl, rfl, rfl⟩)
      obtain rfl := Option.some.inj (found'.symm.trans there)
      have id' : item.request.transaction.id = id := by rw [same, isRecord.id]
      refine ⟨fun t place theirs => ?_, fun j other inside' theirs going => ?_⟩
      · have handed : item.request.transaction.id ∈ r'.transactions.map (·.id) := by
          simp only [Run.transactions, List.map_map, List.mem_map]
          exact ⟨item, List.mem_of_getElem? inside, rfl⟩
        exact absurd (id'.trans theirs.symm ▸ handed) (itinerary.fresh place)
      · obtain rfl := itinerary.eq_of_id inside' inside (theirs.trans id'.symm)
        obtain rfl := Option.some.inj (inside.symm.trans inside')
        simp [isDone] at going
    · exact kept
  | inserted | moved => cases own

/-- A turn that changes the record of this id only if it is one of run `k` leaves live what the run holds. -/
theorem held_of_turn (idle : w₀.runs = []) (keyed : w₀.store.Keyed) (before : Reachable Turn w₀ w)
    (turn : Undisturbed Turn k (fun store => store.find? id) w action u)
    (h : ∀ r, w.runs[k]? = some r → r.Held (w.store.find? id) id) :
    ∀ r, u.runs[k]? = some r → r.Held (u.store.find? id) id := by
  obtain ⟨turn, spared⟩ := turn
  by_cases own : action.run? = some k
  · have goesOn (s t : World) (b : Action) (mine : b.run? = some k) (step : s.step b = some t)
        (before : Reachable (Steps World.step) w₀ s ∧ ∀ r, s.runs[k]? = some r → r.Held (s.store.find? id) id) :
        Reachable (Steps World.step) w₀ t ∧ ∀ r, t.runs[k]? = some r → r.Held (t.store.find? id) id := by
      refine ⟨before.1.tail step, fun r' found' => ?_⟩
      obtain ⟨r, _, _, found, -⟩ := does_of_step step mine
      have sound := (accountable_reachable idle before.1).1
      exact held_of_step sound (keyed_reachable idle keyed before.1) step mine found found'
        (itinerary_reachable idle keyed (before.1.tail step) found') (before.2 r found)
    refine (turn.invariant (P := fun u => Reachable (Steps World.step) w₀ u ∧
      ∀ r, u.runs[k]? = some r → r.Held (u.store.find? id) id) (fun v step => ?_) fun s t task mine step before => ?_).2
    · exact goesOn w v action own step ⟨steps_of_turns before, h⟩
    · exact goesOn s t _ ((run?_of_item? mine).trans own) step before
  · have same : u.store.find? id = w.store.find? id := spared.resolve_left own
    rw [same]
    have kept : ∀ r, u.runs[k]? = some r → w.runs[k]? = some r ∨
        ∃ settings statement last, Run.begin settings statement last = .ok r := by
      refine turn.invariant (P := fun u => ∀ r, u.runs[k]? = some r → w.runs[k]? = some r ∨
        ∃ settings statement last, Run.begin settings statement last = .ok r) (fun v step r found => ?_) ?_
      · rcases run_of_step step found with ⟨s, there, ⟨-, rfl⟩ | ⟨mine, -⟩⟩ | ⟨-, settings, statement, last, -, begun⟩
        · exact .inl there
        · exact absurd mine own
        · exact .inr ⟨_, _, _, begun⟩
      · intro s t task mine step before r found
        rcases run_of_step step found with ⟨s, there, ⟨-, rfl⟩ | ⟨same, -⟩⟩ | ⟨-, _, _, _, other, -⟩
        · exact before _ there
        · exact absurd ((run?_of_item? mine).symm.trans same) own
        · cases other
    intro r found
    rcases kept r found with there | ⟨_, _, _, begun⟩
    · exact h r there
    · exact .begin begun

/-- Once the task of an item has failed and raised the flag, its run changes the store no more. Whatever happens then, the
run has the same items done as before and what it has archived stays; its walker begins no further lookup; every call
that had no permit is refused, unless the run is dropped; and the record of the item that failed is live, unless
somebody else has taken it away. -/
theorem fail_stop {i : Nat} {request : ArchivalRequest} {x : Phase Work} (idle : w₀.runs = [])
    (ungated : w₀.gated = false) (keyed : w₀.store.Keyed) (before : Reachable Turn w₀ w₁)
    (found : w₁.runs[k]? = some r) (inside : r.pipeline.items[i]? = some ⟨request, x⟩) (flagged : x.hasFlagged = true) :
    w₁.Quiet k ∧ ∀ w₂, Reachable Turn w₁ w₂ → ∃ s, w₂.runs[k]? = some s ∧
      (∀ j request, w₂.Done k j request ↔ w₁.Done k j request) ∧ w₁.store.archive <+: w₂.store.archive ∧
      s.lookups = r.lookups ∧
      (∀ j, (∀ y, r.pipeline.phase? j = some y → y = .waiting ∨ y = .granted) → s.Refuses j) ∧
      ∀ w, Reachable Turn w₀ w → w.runs.length ≤ k →
        Reachable (Undisturbed Turn k fun store => store.find? request.transaction.id) w w₁ →
        Reachable (Undisturbed Turn k fun store => store.find? request.transaction.id) w₁ w₂ →
        w₂.store.find? request.transaction.id = some request.transaction := by
  obtain ⟨sound, accountable⟩ := accountable_reachable idle (steps_of_turns before)
  have announced := (warned_reachable idle (steps_of_turns before) found).announced
  have between := betweenTurns_reachable idle ungated before
  have halted := Run.Halted.start announced (Pipeline.phase?_of_items inside) flagged
  have muted : Muted k w₁ :=
    ⟨sound, accountable, between.ungated, r, found, between.nothing k r found, .inl halted.raised⟩
  refine ⟨muted.quiet, fun w₂ after => ?_⟩
  have now : Halted k w₁ w₂ := (steps_of_turns after).invariant (P := Halted k w₁)
    ⟨muted, ⟨r, r, found, found, halted⟩, fun _ _ => Iff.rfl, List.prefix_rfl⟩ fun _ _ _ h step => h.step step
  obtain ⟨_, s, first, found', halted'⟩ := now.run
  obtain rfl := Option.some.inj (found.symm.trans first)
  have owns := ownsCalls_reachable idle (steps_of_turns (before.trans after)) found'
  refine ⟨s, found', now.done, now.archive, halted'.lookups,
    fun j waits => Run.refuses_of_isDenied owns halted'.closed (halted'.denied j waits), ?_⟩
  intro w earlier fresh undisturbed undisturbed'
  obtain ⟨-, held⟩ := (undisturbed.trans undisturbed').invariant
    (P := fun u => Reachable Turn w₀ u ∧
      ∀ r, u.runs[k]? = some r → r.Held (u.store.find? request.transaction.id) request.transaction.id)
    ⟨earlier, fun r there => absurd (List.getElem?_eq_some_iff.1 there).1 (by omega)⟩
    fun _ _ _ before turn => ⟨before.1.tail turn.1, held_of_turn idle keyed before.1 turn before.2⟩
  obtain ⟨y, inside'⟩ := halted'.handed i _ inside
  refine (held s found').handed i _ inside' rfl (Bool.eq_false_iff.2 fun done => ?_)
  -- the item has failed, so it was not done and has not become so
  obtain ⟨_, item, there, was, -, isDone⟩ := (now.done i _).1 ⟨s, _, found', inside', rfl, done⟩
  obtain rfl := Option.some.inj (found.symm.trans there)
  obtain rfl := Option.some.inj (inside.symm.trans was)
  simp [Phase.isDone_of_hasFlagged flagged] at isDone

/-- The signer refuses the first item of a run over `exampleWorld` while the second one is under way. -/
def refusingActions : List Action :=
  List.replicate 16 (Action.go (.walker 0)) ++ [Action.wake 0] ++ List.replicate 7 (Action.go (.driver 0)) ++
    [Action.go (.item 0 0), .go (.item 0 1), .signal 0 0 (.answer .sign (.error (.failed "no key")))]

/-- Both transforms of the second item answer afterwards. It is not relocated, and the first record is live. -/
theorem fail_stop_example : ∃ (w₁ w₂ : World) (r s : Run) (item : Item Work),
    Reachable Turn exampleWorld w₁ ∧ w₁.runs[0]? = some r ∧ r.pipeline.items[0]? = some item ∧
      item.phase = .finished (.failed (.transformFailure exampleTail .sign "no key")) ∧
    Reachable Turn w₁ w₂ ∧ w₂.runs[0]? = some s ∧ s.pipeline.phase? 1 = some (.finished (.failed .aborted)) ∧
    w₁.Quiet 0 ∧ s.lookups = r.lookups ∧ w₂.store.find? exampleTail = some item.request.transaction := by
  have possible : (exampleWorld.takeTurn (.begin {} exampleStatement exampleTail)).any fun (w : World) =>
      w.store == exampleWorld.store &&
      (follow (fun _ action => decide (action.run? = some 0)) takeTurn w refusingActions).any fun (w₁ : World) =>
        (w₁.runs[0]?).any fun (r : Run) =>
          (r.pipeline.items[0]?).any (fun item => item.request.transaction.id == exampleTail &&
            item.phase == .finished (.failed (.transformFailure exampleTail .sign "no key"))) &&
          (follow (fun _ action => decide (action.run? = some 0)) takeTurn w₁
            [.signal 0 1 (.answer .sign (.ok [2])), .signal 0 1 (.answer .compress (.ok [2, 1]))]).any fun (w₂ : World) =>
              (w₂.runs[0]?).any fun (s : Run) => s.pipeline.phase? 1 == some (.finished (.failed .aborted)) := by
    decide +kernel
  simp only [Option.any_eq_true, Bool.and_eq_true, beq_iff_eq] at possible
  obtain ⟨w, begun, same, w₁, followed, r, found, ⟨item, inside, id, phase⟩, w₂, followed', s, found', aborted⟩ := possible
  have first : Undisturbed Turn 0 (fun store => store.find? item.request.transaction.id) exampleWorld _ w :=
    ⟨turn_of_takeTurn begun, .inr (by rw [same])⟩
  have before := ((Reachable.refl _ _).tail first).trans (undisturbed_of_takeTurn followed)
  have after : Reachable (Undisturbed Turn 0 fun store => store.find? item.request.transaction.id) w₁ w₂ :=
    undisturbed_of_takeTurn followed'
  have flagged : item.phase.hasFlagged = true := by
    rw [phase]
    rfl
  obtain ⟨quiet, later⟩ :=
    fail_stop rfl rfl (Store.keyed_ofList _ _) (Undisturbed.reachable before) found inside flagged
  obtain ⟨s', there, -, -, lookups, -, live⟩ := later w₂ (Undisturbed.reachable after)
  obtain rfl := Option.some.inj (found'.symm.trans there)
  exact ⟨w₁, w₂, r, s, item, Undisturbed.reachable before, found, inside, phase, Undisturbed.reachable after, found',
    aborted, quiet, lookups, id ▸ live exampleWorld (.refl _ _) (Nat.le_refl 0) before after⟩

end World
end ChainArchive
