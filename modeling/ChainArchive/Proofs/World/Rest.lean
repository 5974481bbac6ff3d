import ChainArchive.Proofs.Run.Measure
import ChainArchive.Proofs.World.Causes

/-!
# Where a run rests

A run that has not come to its end is never stuck. Some item can go on or waits
for an answer, or the driver can go on or has a reason to wake up, or the walker
can. It follows that every run can come to its end, unless it is dropped: whatever
its items still wait for, the answers bring them on.
-/

namespace ChainArchive
set_option autoImplicit false

open Archiver (Work)
open Pipeline (Phase Moves Coherent)

/-- The work does not panic by itself. -/
theorem Archiver.calm_of_advance {store after : Store} {now : Nat} {raised gated : Bool} {request : ArchivalRequest}
    {work : Work} {effect : Effect} (h : advance store now raised gated request work = some (after, effect)) :
    effect.next ≠ .ended .panicked := by
  unfold advance at h
  split at h
  · cases h
    simp [Archiver.begin]
  · cases h
    unfold submit
    split <;> simp [Effect.fail]
  · simp only [Option.some.injEq, Archiver.relocate] at h
    split at h <;> cases h <;> simp [refused, Effect.fail]
  · cases h

/-- What work waits for comes to it: the result of a transform that has none yet, or the answer of the store. -/
theorem Archiver.receive_of_isWaiting (settings : GenerationSettings) (request : ArchivalRequest) {work : Work}
    (waiting : work.isWaiting = true) :
    ∃ s new, s ≠ .cancel ∧ receive settings request work s = some ⟨.working new, []⟩ := by
  cases work with
  | unstarted => cases waiting
  | transforming start compressed signature =>
    cases compressed with
    | none => exact ⟨.answer .compress (.ok []), _, by simp, rfl⟩
    | some octets =>
      cases signature with
      | none => exact ⟨.answer .sign (.ok []), _, by simp, rfl⟩
      | some => cases waiting
  | storing start asked record answering =>
    cases answering with
    | false => exact ⟨.proceed, _, by simp, rfl⟩
    | true => cases waiting

/-! ## A call that rests -/

/-- A call goes on, unless it waits for a permit that somebody else has. -/
theorem Pipeline.call_rests {σ : Type} {p : Pipeline σ} {limit i : Nat} {x : Phase σ} (positive : limit ≠ 0)
    (coherent : Coherent p) (balanced : Balanced limit p) (prompt : Prompt p) (found : p.phase? i = some x)
    (pending : p.accepted? i = none) :
    (∃ q, (p.resume i).or (p.unwind i) = some q) ∨
      x = .waiting ∧ p.budgetClosed = false ∧ ∃ j y, p.phase? j = some y ∧ y.hasPermit = true := by
  cases x with
  | waiting =>
    cases budget : p.budgetClosed with
    | true => exact .inl ⟨_, by simp [resume, found, budget]; rfl⟩
    | false =>
      refine .inr ⟨rfl, rfl, ?_⟩
      have none : p.free = 0 := by
        by_contra some
        exact prompt budget some i _ found rfl
      have held : 0 < p.tally Phase.hasPermit := by
        have := balanced.permits
        omega
      obtain ⟨item, member, holds⟩ := List.countP_pos_iff.1 held
      obtain ⟨j, there⟩ := mem_items_iff.1 ⟨item, member, rfl⟩
      exact ⟨j, _, there, holds⟩
  | granted | holding | counted =>
    refine .inl ?_
    simp only [resume, found, Option.bind_eq_bind, Option.bind_some]
    first | exact ⟨_, rfl⟩ | (split <;> exact ⟨_, rfl⟩)
  | noted =>
    refine .inl ?_
    have room := balanced.room coherent found
    rw [← balanced.parallelism] at room
    simp only [resume, found, Option.bind_eq_bind, Option.bind_some, room, if_true]
    split <;> exact ⟨_, rfl⟩
  | ended ending | uncounted ending =>
    cases ending with
    | refused => exact .inl ⟨_, by simp [resume, unwind, found, Ending.isOfTask]; rfl⟩
    | _ => simp [accepted?, found] at pending
  | «over» ending => cases ending <;> simp [accepted?, found] at pending
  | _ => simp [accepted?, found] at pending

/-- Who has a permit and neither gets it nor works nor leaves waits in the queue. -/
theorem Pipeline.Phase.eq_queued_of_hasPermit {σ : Type} {x : Phase σ} (holds : x.hasPermit = true)
    (quiet : x.isCalling = false) (still : x.isLeaving = false) (idle : ∀ work, x ≠ .working work) : x = .queued := by
  cases x with
  | queued => rfl
  | working work => exact absurd rfl (idle work)
  | granted | holding | counted | noted => cases quiet
  | ended | recorded | shut | flagged | uncounted => cases still
  | _ => cases holds

/-! ## What keeps a run going -/

namespace Run

variable {store : Store} {now i : Nat} {gated : Bool} {r r' : Run}

/-- What keeps a run going: it has permits and loses none, nobody misses that one is free or that there is nothing left
to do, and who waits for the pipeline has closed its input. -/
structure Lively (r : Run) : Prop where
  positive : r.settings.parallelism ≠ 0
  balanced : r.pipeline.Balanced r.settings.parallelism
  prompt : r.pipeline.Prompt
  announced : r.pipeline.Announced
  busy : r.pipeline.Busy
  awaiting : ∀ outcome, r.walker = .awaiting outcome → r.pipeline.inputOpen = false

namespace Lively

theorem begin {settings : GenerationSettings} {statement : StatementId} {last : TransactionId}
    (h : Run.begin settings statement last = .ok r) : Lively r := by
  unfold Run.begin at h
  cases started : Pipeline.start (σ := Work) settings.parallelism with
  | error cause => simp [started, Except.map] at h
  | ok p =>
    simp only [started, Except.map, Except.ok.injEq] at h
    subst h
    refine ⟨fun none => ?_, .start started, .start started, .start started, .start started, by simp⟩
    change settings.parallelism = 0 at none
    simp [Pipeline.start, none] at started

theorem goes (h : Lively r) (sound : r.Sound) (step : r.Goes r') : Lively r' := by
  have settings := step.settings
  have awaiting : ∀ outcome, r'.walker = .awaiting outcome → r'.pipeline.inputOpen = false := by
    intro outcome place
    cases step with
    | alone step =>
      cases step with
      | walk walked =>
        cases walks_of_walk walked with
        | completes => rfl
        | @ends outcome own => cases told : outcome.result own <;> simp [finish, goTo, say, told] at place
        | _ => cases place
      | inner step =>
        rw [step.walker] at place
        exact (Pipeline.later_of_moves step.moves).input (h.awaiting outcome place)
      | proceed | drop => cases place
      | refuse => simp [find, goTo] at place
    | stored step =>
      rw [step.inner.walker] at place
      exact (Pipeline.later_of_moves step.inner.moves).input (h.awaiting outcome place)
  rcases step.pipeline sound with same | ⟨action, moves⟩
  · exact ⟨settings ▸ h.positive, by rw [settings, same]; exact h.balanced, same ▸ h.prompt, same ▸ h.announced,
      same ▸ h.busy, awaiting⟩
  · exact ⟨settings ▸ h.positive, settings ▸ h.balanced.step sound.coherent moves, h.prompt.step moves,
      h.announced.step moves, h.busy.step sound.coherent moves, awaiting⟩

end Lively

/-! ## A run that rests -/

/-- The task of an item goes on, unless it waits for an answer or has none. -/
theorem advanceItem_isSome (store : Store) (now : Nat) (gated : Bool) {x : Phase Work} (found : r.pipeline.phase? i = some x)
    (goes : x.isLeaving = true ∨ ∃ work, x = .working work ∧ work.isWaiting = false) :
    ∃ after r', r.advanceItem store now gated i = some (after, r') := by
  obtain ⟨request, inside⟩ := Pipeline.items_of_phase? found
  rcases goes with leaving | ⟨work, rfl, going⟩
  · obtain ⟨q, unwound⟩ := Pipeline.unwind_of_isLeaving found leaving
    have idle : r.work? i = none := by
      unfold work?
      rw [inside]
      cases x <;> first | rfl | cases leaving
    exact ⟨store, { r with pipeline := q }, by simp only [advanceItem, idle, unwound, Option.map_some]⟩
  · have busy : r.work? i = some (request, work) := by simp only [work?, inside]
    obtain ⟨⟨after, effect⟩, advanced⟩ :
        ∃ result, Archiver.advance store now r.pipeline.raised gated request work = some result := by
      cases work with
      | unstarted => exact ⟨_, rfl⟩
      | transforming start compressed signature =>
        cases compressed <;> cases signature <;> first | exact ⟨_, rfl⟩ | cases going
      | storing start asked record answering => cases answering <;> first | exact ⟨_, rfl⟩ | cases going
    exact ⟨after, _, by simp only [advanceItem, busy, advanced]; rfl⟩

/-- A driver that goes on, or wakes up for a reason. -/
def Drives (r : Run) : Prop := (∃ r', r.drive = some r') ∨ r.pipeline.isAwaited = true ∧ ∃ q, r.pipeline.wake = some q

/-- The walker waits for a store that does not answer at once. -/
def AwaitsStore (r : Run) : Prop := ∃ current asked, r.walker = .finding current asked false

/-- A walker waits for nobody but the store and its pipeline, and while no item is at work or on its way out one of them
goes on. -/
theorem driver_or_walker_goes_on (store : Store) (now : Nat) (gated : Bool) (lively : r.Lively) (sound : r.Sound)
    (accountable : r.Accountable) (here : r.walker.isGone = false) (unfinished : r.result? = none)
    (still : ∀ i x, r.pipeline.phase? i = some x → x.isLeaving = false)
    (idle : ∀ i work, r.pipeline.phase? i ≠ some (.working work)) :
    r.Drives ∨ (∃ r', r.walk store now gated = some r') ∨ r.AwaitsStore := by
  have coherent := sound.coherent
  have signals := accountable.traced.orderly.signals
  have drives (going : r.pipeline.isSettled = false) : r.Drives ∨ r.pipeline.inputOpen = true ∧ r.pipeline.queue = [] := by
    obtain ⟨q, drive⟩ | woken | rest :=
      Pipeline.driver_rests (fun _ => Work.unstarted) coherent lively.busy still idle going
    · exact .inl (.inl ⟨{ r with pipeline := q }, by simp [Run.drive, drive]⟩)
    · exact .inl (.inr woken)
    · exact .inr rest
  have gone : r.pipeline.driver ≠ .dropped := fun dropped => by
    simp [accountable.abandoned (signals.dropped dropped)] at here
  have walks (goes : (r.walk store now gated).isSome = true) :
      r.Drives ∨ (∃ r', r.walk store now gated = some r') ∨ r.AwaitsStore := .inr (.inl (Option.isSome_iff_exists.1 goes))
  cases place : r.walker with
  | checking | resolved | closing => exact walks (by simp [walk, place])
  | finding current asked answering =>
    cases answering with
    | true => exact walks (by simp [walk, place])
    | false => exact .inr (.inr ⟨current, asked, place⟩)
  | walked outcome => cases outcome <;> exact walks (by simp [walk, place])
  | awaiting outcome =>
    cases going : r.pipeline.isSettled with
    | false => exact .inl ((drives going).resolve_right fun rest => by simp [lively.awaiting outcome place] at rest)
    | true =>
      obtain ⟨result, driver⟩ := (Pipeline.driver_of_isSettled going).resolve_right gone
      exact walks (by simp [walk, place, driver])
  | enqueueing item previous =>
    have positioned := sound.positioned
    simp only [Positioned, place] at positioned
    obtain ⟨-, length, taken, -⟩ := positioned
    cases pending : r.pipeline.accepted? item with
    | some accepted =>
      cases accepted <;> cases previous <;> exact walks (by simp [walk, place, pending])
    | none =>
      have found := Pipeline.phase?_of_items (List.getElem?_eq_getElem (l := r.pipeline.items) (i := item) (by omega))
      rcases Pipeline.call_rests lively.positive coherent lively.balanced lively.prompt found pending with
        ⟨q, goes⟩ | ⟨waits, isOpen, j, y, there, holds⟩
      · exact walks (by simp [walk, place, pending, goes])
      · -- whoever has the permit is neither at work nor on its way out nor being enqueued, so it is queued
        have queued : y = .queued := by
          have other : j ≠ item := by
            rintro rfl
            rw [found, waits, Option.some.injEq] at there
            subst there
            cases holds
          obtain ⟨_, inside⟩ := Pipeline.items_of_phase? there
          have bound := (List.getElem?_eq_some_iff.1 inside).1
          exact Pipeline.Phase.eq_queued_of_hasPermit holds (Phase.isCalling_of_isTaken (taken j y there (by omega)))
            (still j y there) fun work => by
              rintro rfl
              exact idle j work there
        subst queued
        have waiting := List.ne_nil_of_mem ((coherent.mem_queue j).2 there)
        cases going : r.pipeline.isSettled with
        | false => exact .inl ((drives going).resolve_right fun rest => waiting rest.2)
        | true =>
          obtain ⟨result, driver⟩ := (Pipeline.driver_of_isSettled going).resolve_right gone
          cases result with
          | ok count => obtain is | is | is := (coherent.over_of_success driver).2 j _ there <;> cases is
          | error cause =>
            have shut : r.pipeline.budgetClosed = true :=
              signals.shut (by simp [Pipeline.signals, driver, Pipeline.Driver.measures])
            simp [isOpen] at shut
  | finished result => simp [result?, place] at unfinished
  | leaving | dropped => simp [place, Walker.isGone] at here

/-! ## Steps that bring a run on -/

/-- A step of the work by which it does not panic makes no item panic. -/
theorem panicked_of_apply {n : Nat} {effect : Archiver.Effect} (calm : effect.next ≠ .ended .panicked)
    (panicked : (({ r with relocations := n } : Run).apply i effect).pipeline.Panicked) : r.pipeline.Panicked := by
  rw [pipeline_apply] at panicked
  by_contra none
  have sane : effect.next.phase.ending? ≠ some .panicked := by
    cases next : effect.next with
    | working work => simp [Archiver.Next.phase, Pipeline.Phase.ending?]
    | ended ending =>
      rintro ⟨⟩
      exact calm next
  obtain ⟨j, x, found, is⟩ := panicked
  exact Pipeline.forall_setPhase (P := fun x => x.ending? ≠ some .panicked) (fun j x found is => none ⟨j, x, found, is⟩)
    sane j x found is

/-- No item panics by what its task does by itself. -/
theorem panicked_of_advanceItem {after : Store} (coherent : r.pipeline.Coherent)
    (h : r.advanceItem store now gated i = some (after, r')) (panicked : r'.pipeline.Panicked) :
    r.pipeline.Panicked := by
  obtain ⟨request, work, effect, n, -, advanced, rfl⟩ | ⟨pipeline, unwound, rfl, rfl⟩ := advanceItem_eq_some h
  · exact panicked_of_apply (Archiver.calm_of_advance advanced) panicked
  · have moves : Moves (fun _ => Work.unstarted) _ _ _ := Pipeline.moves_of_unwind unwound
    exact Pipeline.panicked_of_moves coherent moves (by simp) panicked

/-- A walker that goes on does not leave its run. -/
theorem Walks.here (step : Walks store now gated r r') (here : r.walker.isGone = false) : r'.walker.isGone = false := by
  cases step with
  | withdraws place | leaves place | drops place => simp [place, Walker.isGone] at here
  | @ends outcome own => cases told : outcome.result own <;> rfl
  | _ => rfl

end Run

namespace World

variable {w₀ w v : World} {action : Action} {k : Nat} {r : Run}

/-- All runs are kept going. -/
def Lively (w : World) : Prop := ∀ (k : Nat) (r : Run), w.runs[k]? = some r → r.Lively

theorem Lively.change {outputs : Transforms} (h : w.Lively) (sound : w.Sound outputs)
    (change : Change outputs w action v) : v.Lively := by
  intro k r' found
  obtain ⟨r, before, rfl | goes⟩ | ⟨-, settings, statement, last, begun⟩ := change.origin found
  · exact h k _ before
  · exact (h k r before).goes (sound k r before).1 goes
  · exact .begin begun

theorem lively_reachable (idle : w₀.runs = []) (reach : Reachable (Steps World.step) w₀ w) : w.Lively := by
  have kept : w.Sound (fun _ _ _ => True) ∧ w.Lively := by
    refine reach.invariant (P := fun w => w.Sound (fun _ _ _ => True) ∧ w.Lively)
      ⟨.start idle, fun k r found => by simp [idle] at found⟩ ?_
    rintro s action t ⟨sound, lively⟩ step
    have change := sound.change_of_any_step step
    exact ⟨sound.change change, lively.change sound change⟩
  exact kept.2

/-- The world can take a step that leaves this run less before it, drops nobody and makes no item panic. -/
def Advances (w : World) (k : Nat) (r : Run) : Prop :=
  ∃ action v r', w.step action = some v ∧ v.runs[k]? = some r' ∧ r'.walker.isGone = false ∧
    (r'.pipeline.Panicked → r.pipeline.Panicked) ∧ r'.ahead v.store < r.ahead w.store

theorem advances_of_onRun {s : Run} {f : Run → Option Run} (found : w.runs[k]? = some r) (action : Action)
    (is : w.step action = w.onRun k f) (step : f r = some s) (here : s.walker.isGone = false)
    (sane : s.pipeline.Panicked → r.pipeline.Panicked) (less : s.ahead w.store < r.ahead w.store) :
    w.Advances k r := by
  refine ⟨action, w.setRun k s, s, ?_, runs_setRun_self found, here, sane, less⟩
  rw [is, onRun, found]
  simp [step]

/-- A run that has not come to its end can be brought on: by itself, or by the answer of a transform or of the store. -/
theorem advances_of_unfinished (found : w.runs[k]? = some r) (sound : r.Sound) (accountable : r.Accountable)
    (lively : r.Lively) (here : r.walker.isGone = false) (unfinished : r.result? = none) : w.Advances k r := by
  have coherent := sound.coherent
  have goes {i : Nat} {x : Phase Work} (inside : r.pipeline.phase? i = some x)
      (goes : x.isLeaving = true ∨ ∃ work, x = .working work ∧ work.isWaiting = false) : w.Advances k r := by
    obtain ⟨after, r', step⟩ := Run.advanceItem_isSome w.store w.now w.gated inside goes
    refine ⟨.go (.item k i), { w.setRun k r' with store := after }, r', ?_, runs_setRun_self found, ?_,
      Run.panicked_of_advanceItem coherent step, Run.ahead_lt_of_advanceItem coherent step⟩
    · simp [World.step, advance, found, step]
    · rw [Run.walker_of_advanceItem step]
      exact here
  by_cases leaving : ∃ i x, r.pipeline.phase? i = some x ∧ x.isLeaving = true
  · obtain ⟨i, x, inside, leaving⟩ := leaving
    exact goes inside (.inl leaving)
  by_cases working : ∃ i work, r.pipeline.phase? i = some (.working work)
  · obtain ⟨i, work, inside⟩ := working
    obtain ⟨request, there⟩ := Pipeline.items_of_phase? inside
    have busy : r.work? i = some (request, work) := by simp only [Run.work?, there]
    cases waiting : work.isWaiting with
    | false => exact goes inside (.inr ⟨work, rfl, waiting⟩)
    | true =>
      obtain ⟨s, new, uncalled, received⟩ := Archiver.receive_of_isWaiting r.settings request waiting
      have step : r.signal i s = some (r.apply i ⟨.working new, []⟩) := by
        cases s with
        | cancel => exact absurd rfl uncalled
        | _ => simp only [Run.signal, busy, received, Option.bind_eq_bind, Option.bind_some, if_true, Option.pure_def]
      exact advances_of_onRun found (.signal k i s) rfl step here
        (Run.panicked_of_apply (n := r.relocations) (by simp)) (Run.ahead_lt_of_signal step)
  push Not at leaving working
  have still : ∀ i x, r.pipeline.phase? i = some x → x.isLeaving = false := fun i x inside => by
    simpa using leaving i x inside
  have pipeline {action : Pipeline.Action Work} {q : Pipeline Work} (other : ∀ i, action ≠ .finishWork i .panicked)
      (moves : Moves (fun _ => .unstarted) r.pipeline action q) : q.Panicked → r.pipeline.Panicked :=
    Pipeline.panicked_of_moves coherent moves other
  rcases Run.driver_or_walker_goes_on w.store w.now w.gated lively sound accountable here unfinished still working with
    (⟨r', drive⟩ | ⟨awaited, q, woken⟩) | ⟨r', walk⟩ | ⟨current, asked, place⟩
  · obtain ⟨q, drive', rfl⟩ := Option.map_eq_some_iff.1 drive
    have moves := Pipeline.moves_of_drive drive'
    exact advances_of_onRun found (.go (.driver k)) rfl drive here (pipeline (by simp) moves)
      (Run.ahead_lt_of_driver (s := { r with pipeline := q }) coherent lively.announced moves rfl (.inl rfl))
  · have moves : Moves (fun _ => Work.unstarted) r.pipeline .wake q := Pipeline.moves_of_wake woken
    exact advances_of_onRun (s := { r with pipeline := q }) found (.wake k) rfl (by rw [woken]; rfl) here
      (pipeline (by simp) moves)
      (Run.ahead_lt_of_driver (s := { r with pipeline := q }) coherent lively.announced moves rfl (.inr (.inl ⟨rfl, awaited⟩)))
  · have walks := Run.walks_of_walk walk
    refine advances_of_onRun found (.go (.walker k)) rfl walk (walks.here here) ?_ (Run.ahead_lt_of_walks sound walks)
    obtain ⟨-, same | ⟨action, other, moves⟩⟩ := walks.pipeline sound
    · rw [same]
      exact id
    · exact pipeline (by rintro i rfl; cases other) moves
  · exact advances_of_onRun (s := r.goTo (.finding current asked true)) found (.proceedLookup k) rfl
      (by simp only [place]) rfl id (Run.ahead_lt_of_proceed place)

/-- Every run can come to its end without being dropped, unless it was dropped before. No item needs to panic for it. -/
theorem comes_to_result (idle : w₀.runs = []) (before : Reachable (Steps World.step) w₀ w) (found : w.runs[k]? = some r)
    (here : r.walker.isGone = false) :
    ∃ v r' result, Reachable (Steps World.step) w v ∧ v.runs[k]? = some r' ∧
      (r'.pipeline.Panicked → r.pipeline.Panicked) ∧ r'.result? = some result := by
  let On (v : World) : Prop := Reachable (Steps World.step) w₀ v ∧
    ∃ r', v.runs[k]? = some r' ∧ r'.walker.isGone = false ∧ (r'.pipeline.Panicked → r.pipeline.Panicked)
  obtain ⟨v, further, ⟨-, r', found', -, sane⟩, ended⟩ : ∃ v, Reachable (Steps World.step) w v ∧ On v ∧
      ∀ r', v.runs[k]? = some r' → r'.result? ≠ none := by
    refine Reachable.of_descent (fun v => (v.runs[k]?).elim 0 fun r => r.ahead v.store) ?_ w
      ⟨before, r, found, here, id⟩
    rintro v ⟨reach, r', found', here', sane⟩ going
    have unfinished : r'.result? = none := by
      by_contra finished
      exact going fun s there => Option.some.inj (found'.symm.trans there) ▸ finished
    obtain ⟨sound, accountable⟩ := accountable_reachable idle reach
    obtain ⟨action, u, s, step, there, here'', calm, less⟩ := advances_of_unfinished found' (sound k r' found').1
      (accountable k r' found') (lively_reachable idle reach k r' found') here' unfinished
    refine ⟨action, u, step, ⟨reach.tail step, s, there, here'', sane ∘ calm⟩, ?_⟩
    simp only [found', there, Option.elim_some]
    exact less
  obtain ⟨result, answered⟩ := Option.ne_none_iff_exists'.1 (ended r' found')
  exact ⟨v, r', result, further, found', sane, answered⟩

end World
end ChainArchive
