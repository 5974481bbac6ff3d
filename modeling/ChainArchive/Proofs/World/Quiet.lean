import ChainArchive.Proofs.Pipeline.Announced
import ChainArchive.Proofs.Pipeline.Progress
import ChainArchive.Proofs.World.Turns

/-!
# Runs that are over are quiet

A run changes the store only when the task of an item looks at the flag, finds it
down and hands its record over. Once the flag is raised between two turns that
does not happen any more. A run that has its result has no task left; one that
was dropped has raised the flag, unless its driver had come to its end before.
-/

namespace ChainArchive
set_option autoImplicit false

open Archiver (Work)
open Pipeline (Phase)

/-! ## The flag of a run that was dropped -/

namespace Run

/-- What failed items have announced is so, and a run that was dropped has raised the flag or has no driver left that
could start a task. -/
structure Warned (r : Run) : Prop where
  announced : r.pipeline.Announced
  dropped : r.walker = .dropped → r.pipeline.raised = true ∨ ∃ own, r.pipeline.driver = .finished own

theorem Warned.begin {r : Run} {settings : GenerationSettings} {statement : StatementId} {last : TransactionId}
    (h : Run.begin settings statement last = .ok r) : r.Warned := by
  unfold Run.begin at h
  cases started : Pipeline.start (σ := Work) settings.parallelism with
  | error cause => simp [started, Except.map] at h
  | ok p =>
    simp only [started, Except.map, Except.ok.injEq] at h
    subst h
    exact ⟨.start started, nofun⟩

variable {r r' : Run}

/-- A driver that has its result keeps it. -/
theorem Goes.finished (step : r.Goes r') (sound : r.Sound) {own : Except GenerationError Nat}
    (ended : r.pipeline.driver = .finished own) : r'.pipeline.driver = .finished own := by
  rcases step.pipeline sound with same | ⟨action, moves⟩
  · rwa [same]
  · exact Pipeline.driver_of_moves moves ended

/-- The flag stays raised. -/
theorem Goes.raised (step : r.Goes r') (sound : r.Sound) (up : r.pipeline.raised = true) :
    r'.pipeline.raised = true := by
  rcases step.pipeline sound with same | ⟨action, moves⟩
  · rwa [same]
  · exact (Pipeline.later_of_moves moves).raised up

theorem Goes.stopped (step : r.Goes r') (sound : r.Sound)
    (stopped : r.pipeline.raised = true ∨ ∃ own, r.pipeline.driver = .finished own) :
    r'.pipeline.raised = true ∨ ∃ own, r'.pipeline.driver = .finished own :=
  stopped.imp (step.raised sound) fun ⟨own, ended⟩ => ⟨own, step.finished sound ended⟩

/-- Dropping the handle raises the flag, unless the driver has its result. -/
theorem stopped_of_dropHandle {p : Pipeline Work} (orderly : p.Orderly) (announced : p.Announced) :
    p.dropHandle.raised = true ∨ ∃ own, p.dropHandle.driver = .finished own := by
  unfold Pipeline.dropHandle
  split
  · next settled =>
    obtain ⟨own, ended⟩ | dropped := Pipeline.driver_of_isSettled settled
    · exact .inr ⟨own, ended⟩
    · exact .inl (announced.abandoned (orderly.signals.dropped dropped))
  · exact .inl rfl

/-- A walker that gives up what its run holds can go on, until nothing is left. -/
theorem walk_of_leaving (store : Store) (now : Nat) (gated : Bool) (sound : r.Sound) (leaving : r.walker = .leaving) :
    ∃ r', r.walk store now gated = some r' ∧
      (r'.walker = .dropped ∨ r'.walker = .leaving ∧ r'.pipeline.distance < r.pipeline.distance) := by
  cases nobody : r.pipeline.items.findIdx? fun i => i.phase.isCalling with
  | none =>
    refine ⟨{ r with walker := .dropped, pipeline := r.pipeline.dropHandle }, ?_, .inl rfl⟩
    simp [walk, leaving, nobody]
  | some i =>
    obtain ⟨q, goes⟩ : ∃ q, (r.pipeline.withdraw i).or (r.pipeline.unwind i) = some q := by
      obtain ⟨inside, calling, -⟩ := List.findIdx?_eq_some_iff_getElem.1 nobody
      have found := Pipeline.phase?_of_items (List.getElem?_eq_getElem inside)
      cases x : r.pipeline.items[i].phase with
      | ended ending | uncounted ending =>
        rw [x] at calling found
        cases ending <;> simp_all [Phase.isCalling, Pipeline.Ending.isOfTask, Pipeline.withdraw, Pipeline.unwind]
      | _ => simp_all [Phase.isCalling, Pipeline.withdraw]
    refine ⟨{ r with pipeline := q }, by simp [walk, leaving, nobody, goes], .inr ⟨leaving, ?_⟩⟩
    rcases Option.or_eq_some_iff.1 goes with withdrawn | ⟨-, unwound⟩
    · have moves : Pipeline.Moves (fun _ => Work.unstarted) _ _ _ := Pipeline.moves_of_withdraw withdrawn
      exact Pipeline.distance_lt_of_item sound.coherent moves rfl
    · have moves : Pipeline.Moves (fun _ => Work.unstarted) _ _ _ := Pipeline.moves_of_unwind unwound
      exact Pipeline.distance_lt_of_item sound.coherent moves rfl

end Run

namespace World

variable {w₀ w v u : World} {action : Action} {k : Nat} {r r' : Run}

theorem Does.warned {after : Store} (does : w.Does k r action after r') (goes : r' = r ∨ r.Goes r') (sound : r.Sound)
    (accountable : r.Accountable) (h : r.Warned) : r'.Warned := by
  have announced : r'.pipeline.Announced := by
    rcases goes with rfl | goes
    · exact h.announced
    · rcases goes.pipeline sound with same | ⟨b, moves⟩
      · rw [same]
        exact h.announced
      · exact h.announced.step moves
  have kept (same : r'.walker = r.walker) (gone : r'.walker = .dropped) :
      r'.pipeline.raised = true ∨ ∃ own, r'.pipeline.driver = .finished own := by
    have before := h.dropped (same.symm.trans gone)
    rcases goes with rfl | goes
    · exact before
    · exact goes.stopped sound before
  refine ⟨announced, fun gone => ?_⟩
  cases does with
  | walks step =>
    cases step with
    | drops => exact Run.stopped_of_dropHandle accountable.traced.orderly h.announced
    | @ends outcome result => cases told : outcome.result result <;> simp [told, Run.finish, Run.goTo, Run.say] at gone
    | _ => cases gone
  | drives | hears => exact kept rfl gone
  | works step => cases step <;> exact kept rfl gone
  | proceeds | refuses | drops => cases gone

theorem warned_reachable (idle : w₀.runs = []) (reach : Reachable (Steps World.step) w₀ w) (found : w.runs[k]? = some r) :
    r.Warned := by
  refine forall_runs (P := fun r => r.Accountable ∧ r.Warned) idle (fun r settings statement last begun => ?_) ?_ reach k r
    found |>.2
  · exact ⟨.begin begun, .begin begun⟩
  · rintro w k r action after r' - sound does goes ⟨accountable, warned⟩
    refine ⟨?_, does.warned goes sound accountable warned⟩
    rcases goes with rfl | goes
    · exact accountable
    · exact accountable.goes sound goes

/-! ## Mute runs -/

/-- Run `k` does not change the store any more: no record of it is on its way, and the flag is raised or no task is
left. -/
structure Muted (k : Nat) (w : World) : Prop where
  sound : w.Sound fun _ _ _ => True
  accountable : w.Accountable
  ungated : w.gated = false
  run : ∃ r, w.runs[k]? = some r ∧ r.NothingStoring ∧
    (r.pipeline.raised = true ∨ ∃ own, r.pipeline.driver = .finished own)

/-- A run whose driver has its result has no work left. -/
theorem nothingStoring_of_finished (accountable : r.Accountable) {own : Except GenerationError Nat}
    (ended : r.pipeline.driver = .finished own) : r.NothingStoring := by
  intro i request work busy
  have running := accountable.traced.orderly.stopped own ended i _ (Run.phase?_of_work? busy)
  cases running

/-- A mute run stays mute and leaves the store as it is. -/
theorem Muted.step (h : Muted k w) (step : w.step action = some v) :
    Muted k v ∧ (action.run? = some k → v.store = w.store) := by
  obtain ⟨r, found, nothing, stopped⟩ := h.run
  have change := h.sound.change_of_any_step step
  have accountable := h.accountable.change h.sound change
  obtain ⟨r', found'⟩ : ∃ r', v.runs[k]? = some r' :=
    ⟨_, List.getElem?_eq_getElem (Nat.lt_of_lt_of_le (List.getElem?_eq_some_iff.1 found).1 change.length_le)⟩
  have sound := (h.sound k r found).1
  have stopped' : r'.pipeline.raised = true ∨ ∃ own, r'.pipeline.driver = .finished own := by
    rcases h.sound.goes_of_step step found found' with rfl | goes
    · exact stopped
    · exact goes.stopped sound stopped
  have next : r'.NothingStoring ∧ (action.run? = some k → v.store = w.store) := by
    rcases run_of_step step found' with ⟨s, there, ⟨other, rfl⟩ | ⟨-, does⟩⟩ | ⟨beyond, -⟩
    · obtain rfl : r = r' := Option.some.inj (found.symm.trans there)
      exact ⟨nothing, fun own => absurd own other⟩
    · obtain rfl : r = s := Option.some.inj (found.symm.trans there)
      refine ⟨?_, fun _ => does.store nothing⟩
      rcases stopped with raised | ⟨own, ended⟩
      · intro i request work busy
        by_contra storing
        rcases does.storing sound h.ungated busy (by simpa using storing) with same | ⟨-, down, -⟩ | ⟨_, _, -, was, stored⟩
        · exact storing (nothing i request work same)
        · simp [raised] at down
        · simp [nothing i request _ was] at stored
      · have ended' : r'.pipeline.driver = .finished own := by
          rcases h.sound.goes_of_step step found found' with rfl | goes
          · exact ended
          · exact goes.finished sound ended
        exact nothingStoring_of_finished (accountable k r' found') ended'
    · exact absurd (List.getElem?_eq_some_iff.1 found).1 (by simp [beyond])
  exact ⟨⟨h.sound.change change, accountable, (gated_of_step step).trans h.ungated, r', found', next.1, stopped'⟩, next.2⟩

theorem Muted.turn (h : Muted k w) (turn : Turn w action u) :
    Muted k u ∧ (action.run? = some k → u.store = w.store) := by
  refine turn.invariant (P := fun u => Muted k u ∧ (action.run? = some k → u.store = w.store)) (fun _ => h.step) ?_
  rintro s t task own step ⟨muted, same⟩
  obtain ⟨muted, same'⟩ := muted.step step
  exact ⟨muted, fun mine => (same' ((run?_of_item? own).trans mine)).trans (same mine)⟩

/-- A run that is over is mute. -/
theorem muted_of_isOver (idle : w₀.runs = []) (ungated : w₀.gated = false) (reach : Reachable Turn w₀ w)
    (found : w.runs[k]? = some r) (ended : r.isOver = true) : Muted k w := by
  have between := betweenTurns_reachable idle ungated reach
  obtain ⟨sound, accountable⟩ := accountable_reachable idle (steps_of_turns reach)
  refine ⟨sound, accountable, between.ungated, r, found, between.nothing k r found, ?_⟩
  unfold Run.isOver at ended
  split at ended
  · next result finished => exact .inr ((accountable k r found).settled result finished)
  · next dropped => exact (warned_reachable idle (steps_of_turns reach) found).dropped dropped
  · cases ended

/-! ## Runs that are dropped -/

/-- A run that is being dropped gives up what it holds, with the store as it is. -/
theorem settles_of_leaving {w : World} {r : Run} (sound : w.Sound fun _ _ _ => True) (found : w.runs[k]? = some r)
    (leaving : r.walker = .leaving) : ∃ v r', Settles (fun w => w.advance (.walker k)) w v ∧ v.store = w.store ∧
      v.runs[k]? = some r' ∧ r'.isOver = true := by
  obtain ⟨r', walked, gone⟩ := Run.walk_of_leaving w.store w.now w.gated (sound k r found).1 leaving
  have first : w.step (.go (.walker k)) = some (w.setRun k r') := by simp [World.step, advance, onRun, found, walked]
  have found' : (w.setRun k r').runs[k]? = some r' := runs_setRun_self found
  rcases gone with dropped | ⟨leaving', closer⟩
  · have rests : (w.setRun k r').advance (.walker k) = none := by simp [advance, onRun, found', Run.walk, dropped]
    exact ⟨_, r', .next first (.rest rests), rfl, found', by simp [Run.isOver, dropped]⟩
  · have sound' := sound.change (sound.change_of_any_step first)
    obtain ⟨v, s, settles, store, last, ended⟩ := settles_of_leaving sound' found' leaving'
    exact ⟨v, s, .next first settles, store, last, ended⟩
termination_by r.pipeline.distance

theorem reachable_of_settles (settles : Settles (fun w => w.advance (.walker k)) w v) : Reachable Turn w v := by
  induction settles with
  | rest => exact .refl _ _
  | @next w v u first _ ih =>
    have turn : Turn w (.go (.walker k)) v := .mk first (.nobody v)
    exact ((Reachable.refl _ _).tail turn).trans ih

/-- Whatever happens from here on, no turn of run `k` changes the store. -/
def Quiet (k : Nat) (w : World) : Prop :=
  ∀ (v : World) (action : Action) (u : World), Reachable Turn w v → Turn v action u → action.run? = some k →
    u.store = v.store

theorem Muted.quiet (h : Muted k w) : w.Quiet k := by
  intro v action u reach turn own
  have muted : Muted k v := reach.invariant h fun _ _ _ muted turn => (muted.turn turn).1
  exact (muted.turn turn).2 own

/-- A run that has answered, well or not, or that was dropped does not change the store any more, whatever its items
were doing. One that is under way can be dropped wherever it is, which leaves the store as it is, and is quiet from
then on. -/
theorem quiet_when_over (idle : w₀.runs = []) (ungated : w₀.gated = false) (before : Reachable Turn w₀ w)
    (found : w.runs[k]? = some r) : (r.isOver = true → w.Quiet k) ∧
      (r.isOver = false → ∃ v u, w.step (.drop k) = some v ∧ Settles (fun w => w.advance (.walker k)) v u ∧
        u.store = w.store ∧ u.Quiet k) := by
  refine ⟨fun ended => (muted_of_isOver idle ungated before found ended).quiet, fun running => ?_⟩
  have step : w.step (.drop k) = some (w.setRun k (r.goTo .leaving)) := by
    simp [World.step, onRun, found, Run.drop, running]
  have found' : (w.setRun k (r.goTo .leaving)).runs[k]? = some (r.goTo .leaving) := runs_setRun_self found
  have before' := before.tail (.mk step (.nobody _))
  have sound := (accountable_reachable idle (steps_of_turns before')).1
  obtain ⟨u, r', settles, store, last, ended⟩ := settles_of_leaving sound found' rfl
  have reach := before'.trans (reachable_of_settles settles)
  exact ⟨_, u, step, settles, store, (muted_of_isOver idle ungated reach last ended).quiet⟩

/-- What happens in a run over `exampleWorld` until its first item has its signature. -/
def underWayActions : List Action :=
  Action.begin {} exampleStatement exampleTail :: List.replicate 16 (.go (.walker 0)) ++ [Action.wake 0] ++
    List.replicate 7 (Action.go (.driver 0)) ++ [Action.go (.item 0 0), .signal 0 0 (.answer .sign (.ok [3]))]

/-- The run is dropped while its first item waits for the compressor. The item gets its answer nevertheless, fails
because of the flag, and both records stay live. -/
theorem quiet_when_over_example : ∃ (w v : World) (r : Run),
    follow (fun _ _ => true) takeTurn exampleWorld (underWayActions ++ [.drop 0, .go (.walker 0)]) = some w ∧
    w.runs[0]? = some r ∧ r.isOver = true ∧ w.Quiet 0 ∧
    w.takeTurn (.signal 0 0 (.answer .compress (.ok [5, 4, 3]))) = some v ∧
    v.store = w.store ∧ v.store = exampleWorld.store := by
  have possible : (follow (fun _ _ => true) takeTurn exampleWorld
      (underWayActions ++ [.drop 0, .go (.walker 0)])).any fun (w : World) =>
        (w.runs[0]?).any (fun (r : Run) => r.isOver) && (w.store == exampleWorld.store) &&
          (w.takeTurn (.signal 0 0 (.answer .compress (.ok [5, 4, 3])))).isSome := by decide +kernel
  simp only [Option.any_eq_true, Bool.and_eq_true, beq_iff_eq, Option.isSome_iff_exists] at possible
  obtain ⟨w, followed, ⟨⟨r, found, ended⟩, same⟩, v, taken⟩ := possible
  have quiet := (quiet_when_over rfl rfl (reachable_of_takeTurn followed) found).1 ended
  have kept := quiet w _ v (.refl _ _) (turn_of_takeTurn taken) rfl
  exact ⟨w, v, r, followed, found, ended, quiet, taken, kept, kept.trans same⟩

end World
end ChainArchive
