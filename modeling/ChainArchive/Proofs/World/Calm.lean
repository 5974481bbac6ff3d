import ChainArchive.Proofs.World.Faultless

/-!
# A world left to itself

What a world does by itself brings its runs on, each of its steps by something,
so it comes to rest. A run in which nothing has gone wrong rests only when it is
over, or when an item of it waits for its transforms.
-/

namespace ChainArchive.World
set_option autoImplicit false

open Archiver (Work)
open Pipeline (Phase Moves)

variable {w v : World} {action : Action} {k i : Nat} {r r' : Run}

/-- What may happen by itself: a task goes on, a driver is stopped whose run was dropped, an item is stopped where it
waits, and a driver wakes up that has not seen something. -/
def Own (w : World) : Action → Prop
  | .go _ | .abandon _ | .signal _ _ .cancel => True
  | .wake run => ∃ r, w.runs[run]? = some r ∧ r.pipeline.isAwaited = true
  | _ => False

theorem Own.calm (own : w.Own action) : action.isCalm = true := by
  cases action with
  | go | wake | abandon => rfl
  | signal run item s => cases s <;> first | rfl | cases own
  | _ => cases own

theorem Own.run (own : w.Own action) : ∃ k, action.run? = some k := by
  cases action with
  | go task => cases task <;> exact ⟨_, rfl⟩
  | wake | abandon | signal => exact ⟨_, rfl⟩
  | _ => cases own

/-! ## What comes next -/

theorem mem_places : (k, i) ∈ w.places ↔ ∃ r, w.runs[k]? = some r ∧ i < r.pipeline.items.length := by
  simp only [places, List.mem_flatMap, List.mem_map, List.mem_range, Prod.exists, List.mk_mem_zipIdx_iff_getElem?,
    Prod.mk.injEq]
  constructor
  · rintro ⟨r, _, found, _, bound, rfl, rfl⟩
    exact ⟨r, found, bound⟩
  · rintro ⟨r, found, bound⟩
    exact ⟨r, k, found, i, bound, rfl, rfl⟩

/-- An item that does something is there. -/
theorem mem_places_of_step (item : action.item? = some (.item k i)) (step : w.step action = some v) :
    (k, i) ∈ w.places := by
  obtain ⟨r, after, r', found, does, -⟩ := does_of_step step (k := k) (run?_of_item? item).symm
  have bound {x : Phase Work} (inside : r.pipeline.phase? i = some x) : (k, i) ∈ w.places := by
    obtain ⟨request, there⟩ := Pipeline.items_of_phase? inside
    exact mem_places.2 ⟨r, found, (List.getElem?_eq_some_iff.1 there).1⟩
  cases does with
  | works step =>
    cases item
    cases step with
    | unwinds unwound =>
      simp only [Pipeline.unwind, Option.bind_eq_bind, Option.bind_eq_some_iff] at unwound
      exact bound unwound.choose_spec.1
    | goesOn busy => exact bound (Run.phase?_of_work? busy)
  | hears busy =>
    cases item
    exact bound (Run.phase?_of_work? busy)
  | drives none => rw [none] at item; cases item
  | walks | proceeds | refuses | drops => cases item

/-- The next thing that happens is possible. -/
theorem own_of_nextAction (h : w.nextAction = some action) : w.Own action ∧ ∃ v, w.step action = some v := by
  have first {actions : List Action} (own : ∀ a ∈ actions, w.Own a) (is : w.firstPossible actions = some action) :
      w.Own action ∧ ∃ v, w.step action = some v :=
    ⟨own action (List.mem_of_find?_eq_some is), Option.isSome_iff_exists.1 (by simpa using List.find?_some is)⟩
  unfold nextAction at h
  dsimp only at h
  split at h
  · next found =>
    cases h
    obtain ⟨place, -, is⟩ := List.exists_of_findSome?_eq_some found
    exact first (by simp [itemActions, Own]) is
  · split at h
    · next found =>
      cases h
      obtain ⟨run, -, is⟩ := List.exists_of_findSome?_eq_some found
      refine first (fun a member => ?_) is
      simp only [driverActions, List.cons_append, List.nil_append, List.mem_cons] at member
      rcases member with rfl | rfl | member
      · trivial
      · trivial
      · split at member
        · next awaited =>
          obtain rfl := List.mem_singleton.1 member
          obtain ⟨r, found, awaited⟩ := (Option.any_eq_true ..).1 awaited
          exact ⟨r, found, awaited⟩
        · cases member
    · refine first (fun a member => ?_) h
      obtain ⟨run, -, rfl⟩ := List.mem_map.1 member
      trivial

/-- A world that rests can do nothing by itself. -/
theorem step_of_rest (h : w.nextAction = none) (own : w.Own action) : w.step action = none := by
  by_contra possible
  obtain ⟨v, step⟩ := Option.ne_none_iff_exists'.1 possible
  have none {actions : List Action} (is : w.firstPossible actions = none) : action ∉ actions := by
    intro member
    have := List.find?_eq_none.1 is action member
    simp [step] at this
  unfold nextAction at h
  dsimp only at h
  split at h
  · cases h
  next items =>
  split at h
  · cases h
  next drivers =>
  have driver {k : Nat} (own : action.run? = some k) : action ∉ w.driverActions k := by
    obtain ⟨r, _, _, found, -⟩ := does_of_step step own
    exact none (List.findSome?_eq_none_iff.1 drivers k (List.mem_range.2 (List.getElem?_eq_some_iff.1 found).1))
  have item {k i : Nat} (own : action.item? = some (.item k i)) : action ∉ itemActions (k, i) :=
    none (List.findSome?_eq_none_iff.1 items (k, i) (mem_places_of_step own step))
  cases action with
  | go task =>
    cases task with
    | walker run =>
      obtain ⟨r, _, _, found, -⟩ := does_of_step step (k := run) rfl
      exact none h (List.mem_map.2 ⟨run, List.mem_range.2 (List.getElem?_eq_some_iff.1 found).1, rfl⟩)
    | driver run => exact driver rfl (by simp [driverActions])
    | item run i => exact item rfl (by simp [itemActions])
  | wake run =>
    obtain ⟨r, found, awaited⟩ := own
    exact driver rfl (by simp [driverActions, found, awaited])
  | abandon run => exact driver rfl (by simp [driverActions])
  | signal run i s =>
    cases s with
    | cancel => exact item rfl (by simp [itemActions])
    | _ => cases own
  | _ => cases own

/-! ## Coming to rest -/

/-- In a calm, every step of a run leaves it less to do. -/
theorem ahead_lt_of_step (found : w.runs[k]? = some r) (sound : r.Sound) (lively : r.Lively)
    (calm : action.isCalm = true) (awaited : action = .wake k → r.pipeline.isAwaited = true)
    (own : action.run? = some k) (step : w.step action = some v) (found' : v.runs[k]? = some r') :
    r'.ahead v.store < r.ahead w.store := by
  have alone {f : Run → Option Run} (is : w.onRun k f = some v) (less : ∀ s, f r = some s → s.ahead w.store < r.ahead w.store) :
      r'.ahead v.store < r.ahead w.store := by
    obtain ⟨s, t, there, goes, rfl⟩ := onRun_eq_some is
    obtain rfl := Option.some.inj (found.symm.trans there)
    obtain rfl := Option.some.inj ((runs_setRun_self found).symm.trans found')
    exact less _ goes
  have driver {b : Pipeline.Action Work} {f : Pipeline Work → Option (Pipeline Work)}
      (moves : ∀ q, f r.pipeline = some q → Moves (fun _ => .unstarted) r.pipeline b q)
      (mine : b = .drive ∨ (b = .wake ∧ r.pipeline.isAwaited = true) ∨ b = .abandon) (s : Run)
      (is : (f r.pipeline).map (fun pipeline => { r with pipeline }) = some s) : s.ahead w.store < r.ahead w.store := by
    obtain ⟨q, goes, rfl⟩ := Option.map_eq_some_iff.1 is
    exact Run.ahead_lt_of_driver (s := { r with pipeline := q }) sound.coherent lively.announced (moves q goes) rfl mine
  cases action with
  | go task =>
    cases task with
    | walker run =>
      cases own
      exact alone step fun s walk => Run.ahead_lt_of_walks sound (Run.walks_of_walk walk)
    | driver run =>
      cases own
      exact alone step (driver (fun _ => Pipeline.moves_of_drive) (.inl rfl))
    | item run item =>
      cases own
      simp only [World.step, advance, Option.bind_eq_bind, Option.bind_eq_some_iff, Option.pure_def,
        Option.some.injEq] at step
      obtain ⟨s, there, ⟨store, t⟩, advanced, rfl⟩ := step
      obtain rfl := Option.some.inj (found.symm.trans there)
      obtain rfl := Option.some.inj ((runs_setRun_self found).symm.trans found')
      exact Run.ahead_lt_of_advanceItem sound.coherent advanced
  | wake run =>
    cases own
    exact alone step (driver (fun _ => Pipeline.moves_of_wake) (.inr (.inl ⟨rfl, awaited rfl⟩)))
  | abandon run =>
    cases own
    exact alone step (driver (fun _ => Pipeline.moves_of_abandon) (.inr (.inr rfl)))
  | signal run item s =>
    cases own
    exact alone step fun t => Run.ahead_lt_of_signal
  | _ => cases calm

/-- A run in which nothing has gone wrong and that can do nothing by itself is over, or an item of it waits for a
transform. -/
theorem waits_of_rest (found : w.runs[k]? = some r) (smooth : r.Smooth) (sound : r.Sound) (accountable : r.Accountable)
    (lively : r.Lively) (rests : ∀ action v, w.Own action → w.step action ≠ some v) (unfinished : r.result? = none) :
    ∃ i request start compressed signature, r.work? i = some (request, .transforming start compressed signature) ∧
      (compressed = none ∨ signature = none) := by
  have item {i : Nat} {x : Phase Work} (inside : r.pipeline.phase? i = some x)
      (goes : x.isLeaving = true ∨ ∃ work, x = .working work ∧ work.isWaiting = false) : False := by
    obtain ⟨after, r', step⟩ := Run.advanceItem_isSome w.store w.now w.gated inside goes
    exact rests (.go (.item k i)) { w.setRun k r' with store := after } trivial (by simp [World.step, advance, found, step])
  have run {f : Run → Option Run} {s : Run} (action : Action) (own : w.Own action) (is : w.step action = w.onRun k f)
      (goes : f r = some s) : False := by
    refine rests action (w.setRun k s) own ?_
    rw [is, onRun, found]
    simp [goes]
  by_cases working : ∃ i work, r.pipeline.phase? i = some (.working work)
  · obtain ⟨i, work, inside⟩ := working
    obtain ⟨request, there⟩ := Pipeline.items_of_phase? inside
    have busy : r.work? i = some (request, work) := by simp only [Run.work?, there]
    cases waiting : work.isWaiting with
    | false => exact (item inside (.inr ⟨work, rfl, waiting⟩)).elim
    | true =>
      cases work with
      | unstarted => cases waiting
      | transforming start compressed signature =>
        exact ⟨i, request, start, compressed, signature, busy, by simpa [Work.isWaiting] using waiting⟩
      | storing start asked record answering =>
        cases answering with
        | true => cases waiting
        | false => exact absurd busy (smooth.stored i request start asked record)
  push Not at working
  have still (i : Nat) (x : Phase Work) (inside : r.pipeline.phase? i = some x) : x.isLeaving = false :=
    Bool.eq_false_iff.2 fun leaving => item inside (.inl leaving)
  exfalso
  rcases Run.driver_or_walker_goes_on w.store w.now w.gated lively sound accountable smooth.here unfinished still working
    with (⟨r', drive⟩ | ⟨awaited, q, woken⟩) | ⟨r', walk⟩ | waits
  · exact run (.go (.driver k)) trivial rfl drive
  · exact run (s := { r with pipeline := q }) (.wake k) ⟨r, found, awaited⟩ rfl (by rw [woken]; rfl)
  · exact run (.go (.walker k)) trivial rfl walk
  · exact smooth.found waits

end ChainArchive.World
