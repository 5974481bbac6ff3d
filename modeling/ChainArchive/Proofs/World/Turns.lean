import ChainArchive.Proofs.World.Causes
import ChainArchive.World.Turn

/-!
# Whose step it is

Every action belongs to one run or to none. It leaves all other runs as they are,
and its own run goes on in one of a few ways. A store that is not gated takes a
record in the same turn in which the record is handed to it, so between turns
none is on its way: the store changes only while the task of an item is alone.
-/

namespace ChainArchive
set_option autoImplicit false

open Archiver (Work Effect Signal)

/-- The record was handed to the store, which has not answered. -/
def Archiver.Work.isStoring : Work → Bool
  | .storing .. => true
  | _ => false

/-! ## The work on an item -/

namespace Archiver

variable {store after : Store} {now : Nat} {raised gated : Bool} {request : ArchivalRequest} {work new : Work}
  {effect : Effect}

/-- Work that goes on by itself hands its record to the store only while the flag is down. -/
theorem storing_of_advance (h : advance store now raised gated request work = some (after, effect))
    (next : effect.next = .working new) (storing : new.isStoring = true) :
    raised = false ∧ ∃ start asked record, new = .storing start asked record !gated := by
  unfold advance at h
  split at h
  · cases h
    cases next
    cases storing
  · cases h
    unfold submit at next
    split at next
    · cases next
    · next down =>
      cases next
      exact ⟨by simpa using down, _, _, _, rfl⟩
  · simp only [relocate] at h
    split at h <;> cases h <;> cases next
  · cases h

/-- What comes from outside does not hand a record to the store. -/
theorem storing_of_receive {settings : GenerationSettings} {s : Signal}
    (h : receive settings request work s = some effect) (next : effect.next = .working new)
    (storing : new.isStoring = true) : work.isStoring = true := by
  cases s with
  | answer stage result =>
    simp only [receive, answer] at h
    split at h
    · split at h <;> cases h <;> cases next <;> cases storing
    · cases h
  | proceed =>
    simp only [receive] at h
    split at h
    · rfl
    · cases h
  | refuse cause =>
    simp only [receive] at h
    split at h
    · rfl
    · cases h
  | expire | crash | cancel =>
    simp only [receive, Option.ite_none_right_eq_some, Option.some.injEq] at h
    obtain ⟨-, rfl⟩ := h
    cases next

/-- Work changes the store only while the store has its record. -/
theorem store_of_advance (h : advance store now raised gated request work = some (after, effect))
    (quiet : work.isStoring = false) : after = store := by
  unfold advance at h
  split at h
  · cases h
    rfl
  · cases h
    rfl
  · cases quiet
  · cases h

end Archiver

/-! ## The task of an item -/

namespace Run

variable {r r' : Run} {store after : Store} {now : Nat} {gated : Bool} {i j : Nat} {request request' : ArchivalRequest}
  {work work' : Work} {effect : Effect}

/-- No work of the run has its record with the store. -/
def NothingStoring (r : Run) : Prop := ∀ i request work, r.work? i = some (request, work) → work.isStoring = false

/-- The task of an item goes on: it is on its way out, or its work is. -/
inductive Works (store : Store) (now : Nat) (gated : Bool) (r : Run) (i : Nat) : Store → Run → Prop
  | unwinds {pipeline : Pipeline Work} : r.pipeline.unwind i = some pipeline →
      Works store now gated r i store { r with pipeline }
  | goesOn {request : ArchivalRequest} {work : Work} {after : Store} {effect : Effect} {n : Nat} :
      r.work? i = some (request, work) →
      Archiver.advance store now r.pipeline.raised gated request work = some (after, effect) →
      Works store now gated r i after ({ r with relocations := n }.apply i effect)

theorem works_of_advanceItem (h : r.advanceItem store now gated i = some (after, r')) :
    Works store now gated r i after r' := by
  unfold advanceItem at h
  split at h
  · next request work found =>
    simp only [Option.bind_eq_bind, Option.bind_eq_some_iff] at h
    obtain ⟨⟨store', effect⟩, advanced, h⟩ := h
    simp only [Option.pure_def, Option.some.injEq, Prod.mk.injEq] at h
    obtain ⟨rfl, rfl⟩ := h
    split
    · exact .goesOn found advanced
    · exact .goesOn (n := r.relocations) found advanced
  · simp only [Option.map_eq_some_iff, Prod.mk.injEq] at h
    obtain ⟨pipeline, unwound, rfl, rfl⟩ := h
    exact .unwinds unwound

/-- What the work on an item is after an effect on one. -/
theorem work?_apply {n : Nat} (found : r.work? i = some (request, work))
    (busy : ({ r with relocations := n }.apply i effect).work? j = some (request', work')) :
    j ≠ i ∧ r.work? j = some (request', work') ∨
      j = i ∧ request' = request ∧ effect.next = .working work' := by
  have items : ∃ x, (∀ w, x = .working w → effect.next = .working w) ∧
      ({ r with relocations := n }.apply i effect).pipeline.items = (r.pipeline.setPhase i x).items := by
    simp only [apply, say, Pipeline.setWork, Pipeline.finishWork]
    cases effect.next with
    | working new => exact ⟨.working new, by simp, rfl⟩
    | ended ending => exact ⟨.ended ending, by simp, rfl⟩
  obtain ⟨x, next, items⟩ := items
  have inside := items_of_work? busy
  rw [items] at inside
  have here := items_of_work? found
  cases before : r.pipeline.items[j]? with
  | none => simp [Pipeline.setPhase, List.getElem?_modify, before] at inside
  | some item =>
    rw [Pipeline.items_setPhase before, Option.some.injEq] at inside
    split at inside
    · next same =>
      subst same
      obtain rfl : item = ⟨request, .working work⟩ := Option.some.inj (before.symm.trans here)
      cases inside
      exact .inr ⟨rfl, rfl, next _ rfl⟩
    · next other =>
      subst inside
      exact .inl ⟨Ne.symm other, by simp only [work?, before]⟩

/-- A step of the pipeline that is not one of the work on an item leaves all work as it is, or begins some. -/
theorem work?_of_moves {action : Pipeline.Action Work} (sound : r.Sound) (quiet : action.isOfWork = false)
    (moves : Pipeline.Moves (fun _ => .unstarted) r.pipeline action r'.pipeline)
    (busy : r'.work? j = some (request, work)) : r.work? j = some (request, work) ∨ work = .unstarted := by
  obtain ⟨x, before, moved⟩ | ⟨-, -, begins⟩ := Pipeline.origin_of_moves sound.coherent moves (items_of_work? busy)
  · cases moved with
    | same => exact .inl (by simp only [work?, before])
    | next step => cases step; exact .inr rfl
    | withdraw _ _ _ given => simp at given
    | work _ set => rw [set] at quiet; cases quiet
  · simp at begins

end Run

/-! ## The steps of a run -/

namespace World

/-- The run that an action belongs to. -/
def Action.run? : Action → Option Nat
  | .go (.walker run) | .go (.driver run) | .go (.item run _) => some run
  | .wake run | .abandon run | .signal run .. | .proceedLookup run | .refuseLookup run _ | .drop run => some run
  | .begin .. | .insert _ | .relocate .. | .tick _ => none

/-- How an action of run `k`, which is `r`, leads it and the store on. -/
inductive Does (w : World) (k : Nat) (r : Run) : Action → Store → Run → Prop
  | walks {r' : Run} : Run.Walks w.store w.now w.gated r r' → Does w k r (.go (.walker k)) w.store r'
  | drives {action : Action} {b : Pipeline.Action Work} {pipeline : Pipeline Work} : action.item? = none →
      b = .drive ∨ b = .wake ∨ b = .abandon → Pipeline.Moves (fun _ => .unstarted) r.pipeline b pipeline →
      Does w k r action w.store { r with pipeline }
  | works {i : Nat} {after : Store} {r' : Run} : r.Works w.store w.now w.gated i after r' →
      Does w k r (.go (.item k i)) after r'
  | hears {i : Nat} {s : Signal} {request : ArchivalRequest} {work : Work} {effect : Effect} :
      r.work? i = some (request, work) → Archiver.receive r.settings request work s = some effect →
      Does w k r (.signal k i s) w.store (r.apply i effect)
  | proceeds {current : TransactionId} {asked : Nat} : r.walker = .finding current asked false →
      Does w k r (.proceedLookup k) w.store (r.goTo (.finding current asked true))
  | refuses {current : TransactionId} {asked : Nat} {cause : StoreError} : r.walker = .finding current asked false →
      Does w k r (.refuseLookup k cause) w.store (r.find current (.error cause))
  | drops : r.isOver = false → Does w k r (.drop k) w.store (r.goTo .leaving)

variable {w v u : World} {action : Action} {k : Nat} {r r' : Run}

/-- An action of a run leads this run on, and the store with it. -/
theorem does_of_step (step : w.step action = some v) (own : action.run? = some k) : ∃ r after r',
    w.runs[k]? = some r ∧ w.Does k r action after r' ∧ v = { w.setRun k r' with store := after } := by
  cases action with
  | go task =>
    cases task with
    | walker run =>
      cases own
      obtain ⟨r, r', found, walk, rfl⟩ := onRun_eq_some step
      exact ⟨r, _, r', found, .walks (Run.walks_of_walk walk), rfl⟩
    | driver run =>
      cases own
      obtain ⟨r, r', found, drive, rfl⟩ := onRun_eq_some step
      simp only [Run.drive, Option.map_eq_some_iff] at drive
      obtain ⟨pipeline, drive, rfl⟩ := drive
      exact ⟨r, _, _, found, .drives rfl (.inl rfl) (Pipeline.moves_of_drive drive), rfl⟩
    | item run item =>
      cases own
      simp only [World.step, advance, Option.bind_eq_bind, Option.bind_eq_some_iff, Option.pure_def,
        Option.some.injEq] at step
      obtain ⟨r, found, ⟨store, r'⟩, advanced, rfl⟩ := step
      exact ⟨r, _, r', found, .works (Run.works_of_advanceItem advanced), rfl⟩
  | wake run =>
    cases own
    obtain ⟨r, r', found, woken, rfl⟩ := onRun_eq_some step
    simp only [Option.map_eq_some_iff] at woken
    obtain ⟨pipeline, woken, rfl⟩ := woken
    exact ⟨r, _, _, found, .drives rfl (.inr (.inl rfl)) (Pipeline.moves_of_wake woken), rfl⟩
  | abandon run =>
    cases own
    obtain ⟨r, r', found, left, rfl⟩ := onRun_eq_some step
    simp only [Option.map_eq_some_iff] at left
    obtain ⟨pipeline, left, rfl⟩ := left
    exact ⟨r, _, _, found, .drives rfl (.inr (.inr rfl)) (Pipeline.moves_of_abandon left), rfl⟩
  | signal run item s =>
    cases own
    obtain ⟨r, r', found, signalled, rfl⟩ := onRun_eq_some step
    simp only [Run.signal, Option.bind_eq_bind, Option.bind_eq_some_iff, Option.ite_none_right_eq_some,
      Option.pure_def] at signalled
    obtain ⟨⟨request, work⟩, busy, -, effect, received, same⟩ := signalled
    cases same
    exact ⟨r, _, _, found, .hears busy received, rfl⟩
  | proceedLookup run =>
    cases own
    obtain ⟨r, r', found, answered, rfl⟩ := onRun_eq_some step
    split at answered
    · next waits =>
      cases answered
      exact ⟨r, _, _, found, .proceeds waits, rfl⟩
    · cases answered
  | refuseLookup run cause =>
    cases own
    obtain ⟨r, r', found, answered, rfl⟩ := onRun_eq_some step
    split at answered
    · next waits =>
      cases answered
      exact ⟨r, _, _, found, .refuses waits, rfl⟩
    · cases answered
  | drop run =>
    cases own
    obtain ⟨r, r', found, dropped, rfl⟩ := onRun_eq_some step
    simp only [Run.drop, Option.ite_none_left_eq_some, Option.some.injEq] at dropped
    obtain ⟨running, rfl⟩ := dropped
    exact ⟨r, _, _, found, .drops (by simpa using running), rfl⟩
  | begin | insert | relocate | tick => cases own

/-- An action that belongs to no run begins one, or leaves all as they are. -/
theorem outside_of_step (step : w.step action = some v) (nobody : action.run? = none) :
    (∃ settings statement last r, action = .begin settings statement last ∧
      Run.begin settings statement last = .ok r ∧ v = { w with runs := w.runs ++ [r] }) ∨
      v.runs = w.runs ∧ v.gated = w.gated := by
  cases action with
  | go task => cases task <;> cases nobody
  | begin settings statement last =>
    simp only [World.step] at step
    split at step <;> cases step
    next r begun => exact .inl ⟨settings, statement, last, r, rfl, begun, rfl⟩
  | insert t =>
    cases step
    exact .inr ⟨rfl, rfl⟩
  | relocate record original =>
    simp only [World.step] at step
    split at step <;> cases step
    exact .inr ⟨rfl, rfl⟩
  | tick now =>
    simp only [World.step, Option.ite_none_right_eq_some, Option.some.injEq] at step
    obtain ⟨-, rfl⟩ := step
    exact .inr ⟨rfl, rfl⟩
  | _ => cases nobody

/-- An action leaves the runs that it does not belong to as they are. -/
theorem runs_of_other (step : w.step action = some v) (other : action.run? ≠ some k) (inside : k < w.runs.length) :
    v.runs[k]? = w.runs[k]? := by
  cases own : action.run? with
  | some j =>
    obtain ⟨r, after, r', -, -, rfl⟩ := does_of_step step own
    exact runs_setRun_ne fun same => other (by rw [own, same])
  | none =>
    rcases outside_of_step step own with ⟨_, _, _, r, -, -, rfl⟩ | ⟨same, -⟩
    · exact List.getElem?_append_left inside
    · rw [same]

/-- Every run of the next world was there before, and its own action has led it on or another one has left it alone;
or it has just begun. -/
theorem run_of_step (step : w.step action = some v) (found : v.runs[k]? = some r') :
    (∃ r, w.runs[k]? = some r ∧ (action.run? ≠ some k ∧ r' = r ∨ action.run? = some k ∧ w.Does k r action v.store r')) ∨
      (k = w.runs.length ∧ ∃ settings statement last,
        action = .begin settings statement last ∧ Run.begin settings statement last = .ok r') := by
  by_cases own : action.run? = some k
  · obtain ⟨r, after, next, before, does, rfl⟩ := does_of_step step own
    obtain rfl : next = r' := Option.some.inj ((runs_setRun_self before).symm.trans found)
    exact .inl ⟨r, before, .inr ⟨own, does⟩⟩
  · by_cases inside : k < w.runs.length
    · exact .inl ⟨r', (runs_of_other step own inside).symm.trans found, .inl ⟨own, rfl⟩⟩
    · have beyond := (List.getElem?_eq_some_iff.1 found).1
      cases other : action.run? with
      | some j =>
        obtain ⟨r, after, next, -, -, rfl⟩ := does_of_step step other
        simp only [setRun, List.length_set] at beyond
        exact absurd beyond inside
      | none =>
        rcases outside_of_step step other with ⟨settings, statement, last, r, rfl, begun, rfl⟩ | ⟨same, -⟩
        · rcases runs_append found with before | ⟨here, rfl⟩
          · exact absurd (List.getElem?_eq_some_iff.1 before).1 inside
          · exact .inr ⟨here, _, _, _, rfl, begun⟩
        · exact absurd (same ▸ beyond) inside

/-- A world stays gated, or stays not gated. -/
theorem gated_of_step (step : w.step action = some v) : v.gated = w.gated := by
  cases own : action.run? with
  | some j =>
    obtain ⟨r, after, next, -, -, rfl⟩ := does_of_step step own
    rfl
  | none =>
    rcases outside_of_step step own with ⟨_, _, _, r, -, -, rfl⟩ | ⟨-, same⟩
    · rfl
    · exact same

/-- A run stays as it is or takes a step. -/
theorem Sound.goes_of_step (sound : w.Sound fun _ _ _ => True) (step : w.step action = some v)
    (found : w.runs[k]? = some r) (found' : v.runs[k]? = some r') : r' = r ∨ r.Goes r' := by
  obtain ⟨s, before, goes⟩ | ⟨beyond, -⟩ := (sound.change_of_any_step step).origin found'
  · rwa [Option.some.inj (found.symm.trans before)]
  · exact absurd (List.getElem?_eq_some_iff.1 found).1 (by simp [beyond])

/-- What all runs keep from their beginning on holds of every run of every world that began without runs. -/
theorem forall_runs {P : Run → Prop} {w₀ : World} (idle : w₀.runs = [])
    (begin : ∀ r settings statement last, Run.begin settings statement last = .ok r → P r)
    (keep : ∀ (w : World) (k : Nat) (r : Run) (action : Action) (after : Store) (r' : Run),
      Reachable (Steps World.step) w₀ w → r.Sound → w.Does k r action after r' → r' = r ∨ r.Goes r' → P r → P r')
    (reach : Reachable (Steps World.step) w₀ w) : ∀ (k : Nat) (r : Run), w.runs[k]? = some r → P r := by
  have kept : Reachable (Steps World.step) w₀ w ∧ ∀ (k : Nat) (r : Run), w.runs[k]? = some r → P r := by
    refine reach.invariant (P := fun w => Reachable (Steps World.step) w₀ w ∧
      ∀ (k : Nat) (r : Run), w.runs[k]? = some r → P r) ⟨.refl _ _, fun k r found => by simp [idle] at found⟩ ?_
    rintro w action v ⟨before, all⟩ step
    refine ⟨before.tail step, fun k r' found => ?_⟩
    rcases run_of_step step found with ⟨r, there, ⟨-, rfl⟩ | ⟨-, does⟩⟩ | ⟨-, settings, statement, last, -, begun⟩
    · exact all k r' there
    · have sound := (accountable_reachable idle before).1
      exact keep w k r action v.store r' before (sound k r there).1 does (sound.goes_of_step step there found)
        (all k r there)
    · exact begin r' settings statement last begun
  exact kept.2

/-- The moves during which only run `k` changes this part of the store. -/
def Undisturbed {β : Type} (moves : World → Action → World → Prop) (k : Nat) (part : Store → β) :
    World → Action → World → Prop :=
  fun w action v => moves w action v ∧ (action.run? = some k ∨ part v.store = part w.store)

/-! ## Records on their way to the store -/

/-- A record is with the store because it was there before, because the task of its item has just handed it over, the
flag being down, or because the store was told what to do with it. -/
theorem Does.storing {after : Store} {i : Nat} {request : ArchivalRequest} {work : Work}
    (does : w.Does k r action after r') (sound : r.Sound) (ungated : w.gated = false) (busy : r'.work? i = some (request, work))
    (storing : work.isStoring = true) : r.work? i = some (request, work) ∨
      (action = .go (.item k i) ∧ r.pipeline.raised = false ∧
        ∃ start asked record, work = .storing start asked record true) ∨
      ∃ s work', action = .signal k i s ∧ r.work? i = some (request, work') ∧ work'.isStoring = true := by
  -- a step that is not one of the work on an item
  have plain {b : Pipeline.Action Work} (quiet : b.isOfWork = false)
      (moves : Pipeline.Moves (fun _ => .unstarted) r.pipeline b r'.pipeline) : r.work? i = some (request, work) := by
    rcases Run.work?_of_moves sound quiet moves busy with same | rfl
    · exact same
    · cases storing
  cases does with
  | walks step =>
    rcases (step.pipeline sound).2 with same | ⟨b, quiet, moves⟩
    · left
      rw [← busy]
      simp only [Run.work?, same]
    · exact .inl (plain quiet moves)
  | drives _ own moves =>
    refine .inl (plain ?_ moves)
    rcases own with rfl | rfl | rfl <;> rfl
  | works step =>
    cases step with
    | unwinds unwound => exact .inl (plain rfl (Pipeline.moves_of_unwind unwound))
    | goesOn found advanced =>
      rcases Run.work?_apply found busy with ⟨-, same⟩ | ⟨rfl, rfl, next⟩
      · exact .inl same
      · obtain ⟨down, start, asked, record, rfl⟩ := Archiver.storing_of_advance advanced next storing
        rw [ungated]
        exact .inr (.inl ⟨rfl, down, start, asked, record, rfl⟩)
  | @hears _ s _ _ _ found received =>
    rcases Run.work?_apply (n := r.relocations) found busy with ⟨-, same⟩ | ⟨rfl, rfl, next⟩
    · exact .inl same
    · exact .inr (.inr ⟨s, _, rfl, found, Archiver.storing_of_receive received next storing⟩)
  | proceeds | refuses | drops => exact .inl busy

/-- A run changes the store only while a record of its own is with the store. -/
theorem Does.store {after : Store} (does : w.Does k r action after r') (quiet : r.NothingStoring) : after = w.store := by
  cases does with
  | works step =>
    cases step with
    | unwinds => rfl
    | goesOn found advanced => exact Archiver.store_of_advance advanced (quiet _ _ _ found)
  | _ => rfl

/-- Only this task has a record with the store, and the store is about to answer it. -/
def OnlyStoring (task : Option Task) (w : World) : Prop :=
  ∀ (k : Nat) (r : Run) (i : Nat) (request : ArchivalRequest) (work : Work), w.runs[k]? = some r →
    r.work? i = some (request, work) → work.isStoring = true →
    task = some (.item k i) ∧ ∃ start asked record, work = .storing start asked record true

/-- No record is with the store. -/
def NothingStoring (w : World) : Prop := ∀ (k : Nat) (r : Run), w.runs[k]? = some r → r.NothingStoring

/-- A step hands over one record at most, which is that of the item whose task takes it. -/
theorem OnlyStoring.step (sound : w.Sound fun _ _ _ => True) (ungated : w.gated = false) (step : w.step action = some v)
    (h : w.NothingStoring ∨ ∃ task, action = .go task ∧ w.OnlyStoring (some task)) : v.OnlyStoring action.item? := by
  intro k r' i request work found busy storing
  have before {r : Run} (there : w.runs[k]? = some r) {work' : Work} (busy : r.work? i = some (request, work'))
      (storing : work'.isStoring = true) : action.item? = some (.item k i) ∧ action = .go (.item k i) ∧
        ∃ start asked record, work' = .storing start asked record true := by
    rcases h with nothing | ⟨task, rfl, only⟩
    · simp [nothing k r there i request work' busy] at storing
    · obtain ⟨same, kind⟩ := only k r i request work' there busy storing
      cases same
      exact ⟨rfl, rfl, kind⟩
  rcases run_of_step step found with ⟨r, there, ⟨-, rfl⟩ | ⟨-, does⟩⟩ | ⟨-, _, _, _, -, begun⟩
  · obtain ⟨same, -, kind⟩ := before there busy storing
    exact ⟨same, kind⟩
  · rcases does.storing (sound k r there).1 ungated busy storing with same | ⟨rfl, -, kind⟩ | ⟨s, work', rfl, was, stored⟩
    · obtain ⟨same, -, kind⟩ := before there same storing
      exact ⟨same, kind⟩
    · exact ⟨rfl, kind⟩
    · obtain ⟨-, other, -⟩ := before there was stored
      cases other
  · have inside := Run.items_of_work? busy
    simp [Run.items_begin begun] at inside

/-- A task that waits has no record with a store that answers. -/
theorem OnlyStoring.nothing {task : Task} (h : w.OnlyStoring (some task)) (rests : w.advance task = none) :
    w.NothingStoring := by
  intro k r found i request work busy
  by_contra storing
  obtain ⟨same, start, asked, record, rfl⟩ := h k r i request work found busy (by simpa using storing)
  cases same
  simp [advance, found, Run.advanceItem, busy, Archiver.advance] at rests

/-- What holds between turns of a world whose store is not gated. -/
structure BetweenTurns (w : World) : Prop where
  sound : w.Sound fun _ _ _ => True
  ungated : w.gated = false
  nothing : w.NothingStoring

theorem item_of_item? {task : Task} (own : action.item? = some task) : ∃ k i, task = .item k i := by
  cases action with
  | go task => cases task <;> cases own; exact ⟨_, _, rfl⟩
  | signal => cases own; exact ⟨_, _, rfl⟩
  | _ => cases own

theorem BetweenTurns.turn (h : w.BetweenTurns) (turn : Turn w action u) : u.BetweenTurns := by
  obtain ⟨step, finishes⟩ := turn
  have sound := h.sound.change (h.sound.change_of_any_step step)
  have ungated := (gated_of_step step).trans h.ungated
  have only := OnlyStoring.step h.sound h.ungated step (.inl h.nothing)
  cases own : action.item? with
  | none =>
    rw [own] at finishes only
    cases finishes
    refine ⟨sound, ungated, fun k r found i request work busy => ?_⟩
    by_contra storing
    exact absurd (only k r i request work found busy (by simpa using storing)).1 (by simp)
  | some task =>
    rw [own] at finishes only
    obtain ⟨k, i, rfl⟩ := item_of_item? own
    cases finishes with
    | task settles =>
      -- the item is alone until it waits again
      clear step own
      induction settles with
      | rest rests => exact ⟨sound, ungated, only.nothing rests⟩
      | @next s t _ first _ ih =>
        have step : s.step (.go (.item k i)) = some t := first
        exact ih (sound.change (sound.change_of_any_step step)) ((gated_of_step step).trans ungated)
          (OnlyStoring.step sound ungated step (.inr ⟨_, rfl, only⟩))

/-- Between turns no record is on its way. -/
theorem betweenTurns_reachable (idle : w.runs = []) (ungated : w.gated = false) (reach : Reachable Turn w u) :
    u.BetweenTurns := by
  refine reach.invariant ⟨.start idle, ungated, fun k r found => ?_⟩ fun _ _ _ between turn => between.turn turn
  simp [idle] at found

/-! ## Turns as steps -/

/-- What the steps of a turn keep, the turn keeps: they are the action itself and steps of the task that it concerns. -/
theorem Turn.invariant {P : World → Prop} (turn : Turn w action u) (first : ∀ v, w.step action = some v → P v)
    (rest : ∀ s t task, action.item? = some task → s.step (.go task) = some t → P s → P t) : P u := by
  obtain ⟨step, finishes⟩ := turn
  have begun := first _ step
  cases own : action.item? with
  | none =>
    rw [own] at finishes
    cases finishes
    exact begun
  | some task =>
    rw [own] at finishes
    cases finishes with
    | task settles =>
      clear step
      induction settles with
      | rest => exact begun
      | next advanced _ ih => exact ih (rest _ _ task own advanced begun)

theorem Turn.steps (turn : Turn w action u) : Reachable (Steps World.step) w u :=
  turn.invariant (fun _ step => (Reachable.refl _ _).tail step) fun _ _ _ _ step before => before.tail step

/-- Turns are made of steps. -/
theorem steps_of_turns (reach : Reachable Turn w u) : Reachable (Steps World.step) w u :=
  reach.invariant (Reachable.refl _ _) fun _ _ _ before turn => before.trans turn.steps

/-- The steps of a turn all belong to the run of its action. -/
theorem run?_of_item? {task : Task} (own : action.item? = some task) : (Action.go task).run? = action.run? := by
  cases action with
  | go task => cases task <;> cases own; rfl
  | signal => cases own; rfl
  | _ => cases own

theorem Undisturbed.reachable {β : Type} {moves : World → Action → World → Prop} {part : Store → β}
    (reach : Reachable (Undisturbed moves k part) w u) : Reachable moves w u :=
  reach.invariant (Reachable.refl _ _) fun _ _ _ before move => before.tail move.1

/-- One turn, computed; an item that does not rest after so many steps has none. -/
def takeTurn (w : World) (action : Action) : Option World :=
  (w.step action).bind fun v =>
    match action.item? with
    | none => some v
    | some task =>
      let u := settle (fun w => w.advance task) 10 v
      if (u.advance task).isNone then some u else none

theorem turn_of_takeTurn (taken : w.takeTurn action = some u) : Turn w action u := by
  simp only [takeTurn, Option.bind_eq_some_iff] at taken
  obtain ⟨v, step, taken⟩ := taken
  refine ⟨step, ?_⟩
  cases own : action.item? with
  | none =>
    simp only [own, Option.some.injEq] at taken
    exact taken ▸ .nobody v
  | some task =>
    simp only [own, Option.ite_none_right_eq_some, Option.some.injEq, Option.isNone_iff_eq_none] at taken
    obtain ⟨rests, rfl⟩ := taken
    exact .task (settles_settle rests)

theorem reachable_of_takeTurn {actions : List Action}
    (followed : follow (fun _ _ => true) takeTurn w actions = some u) : Reachable Turn w u :=
  (reachable_of_follow followed fun _ _ _ => trivial).of_restricted.invariant (Reachable.refl _ _)
    fun _ _ _ before taken => before.tail (turn_of_takeTurn taken)

/-- A run that is alone is undisturbed. -/
theorem undisturbed_of_follow {β : Type} {part : Store → β} {actions : List Action}
    (followed : follow (fun _ action => decide (action.run? = some k)) World.step w actions = some u) :
    Reachable (Undisturbed (Steps World.step) k part) w u :=
  (reachable_of_follow followed fun _ _ => of_decide_eq_true).invariant (Reachable.refl _ _)
    fun _ _ _ before step => before.tail ⟨step.2, .inl step.1⟩

theorem undisturbed_of_takeTurn {β : Type} {part : Store → β} {actions : List Action}
    (followed : follow (fun _ action => decide (action.run? = some k)) takeTurn w actions = some u) :
    Reachable (Undisturbed Turn k part) w u :=
  (reachable_of_follow followed fun _ _ => of_decide_eq_true).invariant (Reachable.refl _ _)
    fun _ _ _ before taken => before.tail ⟨turn_of_takeTurn taken.2, .inl taken.1⟩

end World
end ChainArchive
