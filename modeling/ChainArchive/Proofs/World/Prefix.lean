import ChainArchive.Proofs.Pipeline.Serial
import ChainArchive.Proofs.World.Verdict
import ChainArchive.Proofs.World.WalkFailure

/-!
# The archive of a run with one permit

A run that works on one item at a time archives a beginning of its chain, in the
order of the walk: whenever one looks, and whatever has become of the run. If an
item fails, that beginning ends before it, and it and all records behind it are
live as before.
-/

namespace ChainArchive
set_option autoImplicit false

open Archiver (Work)

namespace Run

variable {r r' : Run}

/-- What a step of a run does to its pipeline. It calls for an item only when the items before it have been taken. -/
theorem Goes.turn (step : r.Goes r') (sound : r.Sound) : r'.pipeline = r.pipeline ∨
    ∃ action, Pipeline.Moves (fun _ => .unstarted) r.pipeline action r'.pipeline ∧
      ∀ request, action = .call request → r.pipeline.AllTaken := by
  have inner {action : Pipeline.Action Work} (step : r.Inner action r') :
      ∃ action, Pipeline.Moves (fun _ => .unstarted) r.pipeline action r'.pipeline ∧
        ∀ request, action = .call request → r.pipeline.AllTaken := by
    refine ⟨action, step.moves, ?_⟩
    rintro request rfl
    cases step.inner
  cases step with
  | stored step => exact .inr (inner step.inner)
  | alone step =>
    cases step with
    | inner step => exact .inr (inner step)
    | proceed | refuse | drop => exact .inl rfl
    | walk walked =>
      have walks := walks_of_walk walked
      obtain ⟨-, same | ⟨action, -, moves⟩⟩ := walks.pipeline sound
      · exact .inl same
      refine .inr ⟨action, moves, ?_⟩
      rintro request rfl
      rcases walks.transactions sound with same | ⟨t, place, -⟩
      · have length := congrArg List.length same
        simp only [transactions, List.length_map] at length
        generalize r'.pipeline = q at length moves
        cases moves <;> simp at length
      · have positioned := sound.positioned
        simp only [Positioned, place] at positioned
        exact positioned.2

/-- A run with one permit works on its items in order, unless one panics. -/
theorem Lively.serial (h : r.Lively) (sound : r.Sound) (accountable : r.Accountable) (single : r.settings.parallelism = 1)
    (step : r.Goes r') (before : r.pipeline.Panicked ∨ r.pipeline.Serial) :
    r'.pipeline.Panicked ∨ r'.pipeline.Serial := by
  by_cases panicked : r.pipeline.Panicked
  · exact .inl (step.panicked sound panicked)
  have serial := before.resolve_left panicked
  rcases step.turn sound with same | ⟨action, moves, turn⟩
  · exact .inr (same ▸ serial)
  · exact .inr (serial.moves sound.coherent (single ▸ h.balanced) h.announced accountable.traced.orderly panicked moves
      turn)

end Run

namespace World

variable {outputs : Transforms} {statement : StatementId} {n m : Nat} {w₀ w₁ w₂ w₃ w v : World} {action : Action}
  {find : TransactionId → Option Transaction} {first : TransactionId} {settings : GenerationSettings} {r : Run}

theorem serial_reachable (idle : w₀.runs = []) (reach : Reachable (Steps World.step) w₀ w) (found : w.runs[n]? = some r)
    (single : r.settings.parallelism = 1) : r.pipeline.Panicked ∨ r.pipeline.Serial := by
  refine (forall_runs (P := fun r => r.Lively ∧ r.Accountable ∧
    (r.settings.parallelism = 1 → r.pipeline.Panicked ∨ r.pipeline.Serial)) idle ?_ ?_ reach n r found).2.2 single
  · intro r settings statement last begun
    refine ⟨.begin begun, .begin begun, fun _ => .inr ?_⟩
    unfold Run.begin at begun
    cases started : Pipeline.start (σ := Work) settings.parallelism with
    | error cause => simp [started, Except.map] at begun
    | ok p =>
      simp only [started, Except.map, Except.ok.injEq] at begun
      subst begun
      exact .start started
  · rintro w k r action after r' - sound - (rfl | goes) ⟨lively, accountable, serial⟩
    · exact ⟨lively, accountable, serial⟩
    · refine ⟨lively.goes sound goes, accountable.goes sound goes, fun single => ?_⟩
      rw [goes.settings] at single
      exact lively.serial sound accountable single goes (serial single)

/-- What is done stays done. -/
theorem Books.done {k i : Nat} {request : ArchivalRequest} (books : Books outputs w action v) (done : w.Done k i request) :
    v.Done k i request := by
  cases books with
  | neither _ same => exact (same k i request).2 done
  | item _ _ _ _ _ same => exact (same k i request).2 (.inl done)
  | inserted | moved => exact done

/-! ## The order of the archive -/

/-- The first items of run `n`, so many of them, are done, and their records are those under the statement, in order. -/
structure Prefixed (outputs : Transforms) (statement : StatementId) (n m : Nat) (w : World) : Prop where
  done : ∀ i, (∃ request, w.Done n i request) ↔ i < m
  records : List.Forall₂ (fun i record => ∃ request, w.Done n i request ∧ RecordOf outputs request record) (List.range m)
    (w.store.archivedFor statement)

namespace Prefixed

theorem begin (unused : w.Unused statement) (started : Run.begin settings statement first = .ok r) :
    Prefixed outputs statement w.runs.length 0 { w with runs := w.runs ++ [r] } := by
  refine ⟨fun i => ⟨?_, by simp⟩, ?_⟩
  · rintro ⟨request, s, item, found, inside, -⟩
    obtain rfl : r = s := by simpa using found
    simp [Run.items_begin started] at inside
  · rw [List.range_zero, unused.archive]
    exact .nil

/-- Every step keeps the order, as long as run `n` works on its items in order. -/
theorem change (h : Prefixed outputs statement n m w) (writing : Writing outputs find first statement n w)
    (change : Change outputs w action v) (spares : action.spares statement)
    (serial : ∀ r, v.runs[n]? = some r → r.pipeline.Serial) : ∃ m', Prefixed outputs statement n m' v := by
  cases writing.sound.books change with
  | neither store done => exact ⟨m, by simpa [done] using h.done, by simpa [done, store] using h.records⟩
  | @item k i r request record v found own isRecord taken fresh done =>
    have archived := Store.archivedFor_relocate taken statement
    by_cases here : k = n
    · subst here
      obtain ⟨r', found', mine, -⟩ := writing.run
      obtain rfl := Option.some.inj (found.symm.trans found')
      rw [if_pos (isRecord.statement.trans (own.trans mine))] at archived
      -- all items before this one are done, and it was the first that was not
      obtain rfl : i = m := by
        refine Nat.le_antisymm (Nat.le_of_not_lt fun beyond => ?_) (Nat.le_of_not_lt fun already => ?_)
        · obtain ⟨s, item, there, inside, -, isDone⟩ := (done k i request).2 (.inr ⟨rfl, rfl, rfl⟩)
          have length := (List.getElem?_eq_some_iff.1 inside).1
          have inside' := List.getElem?_eq_getElem (Nat.lt_trans beyond length)
          have before := (serial s there).isDone_of_lt beyond (Pipeline.phase?_of_items inside')
            (Pipeline.phase?_of_items inside) isDone
          rcases (done k m _).1 ⟨s, _, there, inside', rfl, before⟩ with was | ⟨-, rfl, -⟩
          · exact Nat.lt_irrefl m ((h.done m).1 ⟨_, was⟩)
          · exact Nat.lt_irrefl _ beyond
        · obtain ⟨request', was⟩ := (h.done i).2 already
          exact fresh request' was
      refine ⟨i + 1, fun j => ?_, ?_⟩
      · rw [Nat.lt_succ_iff_lt_or_eq, ← h.done]
        simp only [done, true_and]
        constructor
        · rintro ⟨request', was | ⟨rfl, -⟩⟩
          · exact .inl ⟨request', was⟩
          · exact .inr rfl
        · rintro (⟨request', was⟩ | rfl)
          · exact ⟨request', .inl was⟩
          · exact ⟨request, .inr ⟨rfl, rfl⟩⟩
      · rw [archived, List.range_succ]
        refine List.rel_append (h.records.imp ?_) (.cons ⟨request, (done _ _ _).2 (.inr ⟨rfl, rfl, rfl⟩), isRecord⟩ .nil)
        rintro j other ⟨request', was, isOther⟩
        exact ⟨request', (done _ _ _).2 (.inl was), isOther⟩
    · have other : record.statement ≠ statement := by
        intro same
        exact here (writing.alone k r found (own.symm.trans (isRecord.statement.symm.trans same)))
      rw [if_neg other, List.append_nil] at archived
      have same (j : Nat) (request' : ArchivalRequest) : v.Done n j request' ↔ w.Done n j request' := by
        rw [done]
        exact or_iff_left fun is => here is.1.symm
      exact ⟨m, by simpa [same] using h.done, by simpa [same, archived] using h.records⟩
  | inserted => exact absurd spares id
  | @moved record original store taken =>
    have archived := Store.archivedFor_relocate taken statement
    rw [if_neg spares, List.append_nil] at archived
    refine ⟨m, h.done, ?_⟩
    rw [archived]
    exact h.records

/-- Those that are done are those before an item that has failed. -/
theorem eq_of_failed (h : Prefixed outputs statement n m w) (serial : r.pipeline.Serial) (found : w.runs[n]? = some r)
    {i : Nat} {x : Pipeline.Phase Work} {cause : GenerationError} (inside : r.pipeline.phase? i = some x)
    (failed : x.ending? = some (.failed cause)) : m = i := by
  refine Nat.le_antisymm (Nat.le_of_not_lt fun more => ?_) (Nat.le_of_not_lt fun fewer => ?_)
  · obtain ⟨request, s, item, there, here, -, isDone⟩ := (h.done i).2 more
    obtain rfl := Option.some.inj (found.symm.trans there)
    exact Nat.lt_irrefl i ((serial.isDone_iff_of_failed inside failed (Pipeline.phase?_of_items here)).1 isDone)
  · obtain ⟨own, inside'⟩ := Pipeline.items_of_phase? inside
    have here := List.getElem?_eq_getElem (Nat.lt_trans fewer (List.getElem?_eq_some_iff.1 inside').1)
    have isDone := (serial.isDone_iff_of_failed inside failed (Pipeline.phase?_of_items here)).2 fewer
    exact Nat.lt_irrefl m ((h.done m).1 ⟨_, r, _, found, here, rfl, isDone⟩)

/-- When the items that are done have their places on a chain, their records are those of its beginning. -/
theorem along (h : Prefixed outputs statement n m w) {chain : List Transaction}
    (places : ∀ i request, w.Done n i request → (requests statement chain)[i]? = some request) : m ≤ chain.length ∧
      List.Forall₂ (RecordOf outputs) ((requests statement chain).take m) (w.store.archivedFor statement) := by
  have short : m ≤ chain.length := by
    by_contra beyond
    obtain ⟨request, now⟩ := (h.done chain.length).2 (Nat.lt_of_not_le beyond)
    have inside := (List.getElem?_eq_some_iff.1 (places _ _ now)).1
    simp [requests] at inside
  refine ⟨short, List.forall₂_iff_get.2 ⟨?_, fun i before inside => ?_⟩⟩
  · simpa [requests, short] using h.records.length_eq
  · have counted : i < (List.range m).length := by
      rw [h.records.length_eq]
      exact inside
    obtain ⟨request, now, isRecord⟩ := (List.forall₂_iff_get.1 h.records).2 i counted inside
    simp only [List.get_eq_getElem, List.getElem_range] at now
    obtain ⟨_, rfl⟩ := List.getElem?_eq_some_iff.1 (places i request now)
    simpa using isRecord

end Prefixed

/-! ## The records that stay -/

/-- The table is as it was but for the records of the items of run `n` that are done. -/
def Leaves (find : TransactionId → Option Transaction) (n : Nat) (w : World) : Prop :=
  ∀ id, (∀ i request, w.Done n i request → request.transaction.id ≠ id) → w.store.find? id = find id

theorem Leaves.step (h : w.Leaves find n) (sound : w.Sound fun _ _ _ => True)
    (step : Undisturbed (Steps World.step) n Store.find? w action v) : v.Leaves find n := by
  intro id spared
  have books := sound.books (sound.change_of_any_step step.1)
  have before : w.store.find? id = find id := h id fun i request done => spared i request (books.done done)
  rw [← before]
  rcases step.2 with own | same
  · cases books with
    | neither store => rw [store]
    | @item k i _ request record _ _ _ isRecord taken _ done =>
      obtain rfl : k = n := by simpa [Action.run?] using own
      rw [Store.find?_relocate taken, if_neg]
      rintro rfl
      exact spared i request ((done k i request).2 (.inr ⟨rfl, rfl, rfl⟩)) isRecord.id.symm
    | inserted | moved => cases own
  · rw [same]

theorem leaves_reachable (idle : w₀.runs = []) (reach : Reachable (Steps World.step) w₀ w₂) (start : w₂.store.find? = find)
    (alone : Reachable (Undisturbed (Steps World.step) n Store.find?) w₂ w₃) : w₃.Leaves find n := by
  have kept : Reachable (Steps World.step) w₀ w₃ ∧ w₃.Leaves find n := by
    refine alone.invariant (P := fun w => Reachable (Steps World.step) w₀ w ∧ w.Leaves find n)
      ⟨reach, fun id _ => by rw [start]⟩ ?_
    rintro s action t ⟨before, leaves⟩ step
    exact ⟨before.tail step.1, leaves.step (accountable_reachable idle before).1 step⟩
  exact kept.2

/-- Behind the records of the items that are done, the chain is live. -/
theorem Leaves.live {last : TransactionId} {chain : List Transaction} {stop : ChainEnd} (h : w.Leaves find n)
    (keyed : ∀ id t, find id = some t → t.id = id) (whole : Chain find [] last chain stop)
    (done : ∀ i request, w.Done n i request → i < m ∧ (requests statement chain)[i]? = some request) :
    ∀ t ∈ chain.drop m, w.store.find? t.id = some t := by
  intro t member
  obtain ⟨j, onward⟩ := List.mem_iff_getElem?.1 member
  rw [List.getElem?_drop] at onward
  have live : find t.id = some t := by
    obtain ⟨id, known⟩ := whole.find_of_mem (List.mem_of_getElem? onward)
    rw [keyed id t known]
    exact known
  rw [h t.id, live]
  intro i request now same
  -- no record comes twice on the chain
  obtain ⟨earlier, known⟩ := done i request now
  have before : (chain.map (·.id))[i]? = some request.transaction.id := by
    simp only [requests, List.getElem?_mapIdx, Option.map_eq_some_iff] at known
    obtain ⟨t', known, rfl⟩ := known
    simp [known]
  have after : (chain.map (·.id))[m + j]? = some t.id := by simp [onward]
  have inside := (List.getElem?_eq_some_iff.1 before).1
  have equal := (List.getElem?_inj inside (whole.nodup keyed).1).1 (before.trans (same ▸ after.symm))
  omega

/-! ## All of it -/

/-- An item that is done has archived what the chain has at its place. -/
theorem request_of_done {chain : List Transaction} {i : Nat} {request : ArchivalRequest} (sound : r.Sound)
    (found : w.runs[n]? = some r) (mine : r.statement = statement) (handed : r.transactions <+: chain)
    (done : w.Done n i request) : (requests statement chain)[i]? = some request := by
  obtain ⟨s, item, there, inside, rfl, -⟩ := done
  obtain rfl := Option.some.inj (found.symm.trans there)
  obtain ⟨rest, rfl⟩ := handed
  have own : (requests statement r.transactions)[i]? = some item.request := by
    rw [← mine, ← sound.requests_eq, List.getElem?_map, inside]
    rfl
  have inside' := (List.getElem?_eq_some_iff.1 own).1
  rw [requests, List.mapIdx_append]
  exact (List.getElem?_append_left inside').trans own

/-- Records along a chain are numbered no higher than there are transactions on it. -/
theorem number_le_of_records {chain : List Transaction} {records : List ArchivedTransaction}
    (each : List.Forall₂ (RecordOf outputs) ((requests statement chain).take m) records) :
    ∀ record ∈ records, record.number ≤ chain.length := by
  intro record member
  obtain ⟨i, inside, rfl⟩ := List.mem_iff_getElem.1 member
  have before := each.length_eq ▸ inside
  have number : records[i].number = i + firstNumber := by
    simpa [requests] using (each.get before inside).number
  have bound : i < chain.length := by
    simp only [requests, List.length_take, List.length_mapIdx] at before
    exact Nat.lt_of_lt_of_le before (Nat.min_le_right _ _)
  rw [number]
  exact bound

/-- Run `n` has one permit and writes the statement along its chain, one record after the other. -/
structure OneByOne (outputs : Transforms) (find : TransactionId → Option Transaction) (first : TransactionId)
    (statement : StatementId) (n : Nat) (w : World) : Prop where
  writing : Writing outputs find first statement n w
  single : ∀ r, w.runs[n]? = some r → r.settings.parallelism = 1
  trail : ∀ r, w.runs[n]? = some r → ∃ next, Trail find first r.transactions next
  prefixed : ∀ r, w.runs[n]? = some r → r.pipeline.Panicked ∨ ∃ m, Prefixed outputs statement n m w

namespace OneByOne

theorem begin (sound : w.Sound outputs) (unused : w.Unused statement) (single : settings.parallelism = 1)
    (begun : w.step (.begin settings statement first) = some v) :
    OneByOne outputs w.store.find? first statement w.runs.length v := by
  have writing := Writing.begin sound unused begun
  simp only [step] at begun
  split at begun <;> cases begun
  next r started =>
    have own {s : Run} (there : (w.runs ++ [r])[w.runs.length]? = some s) : r = s := by simpa using there
    refine ⟨writing, fun s there => ?_, fun s there => ⟨some first, ?_⟩, fun s there => .inr ⟨0, .begin unused started⟩⟩
    · rw [← own there, Run.settings_begin started, single]
    · rw [← own there, Run.transactions, Run.items_begin started]
      exact .start

/-- Every step keeps the order, unless an item panics. -/
theorem step (h : OneByOne outputs find first statement n w) (idle : w₀.runs = [])
    (reach : Reachable (Steps World.step) w₀ w) (keyed : ∀ id t, find id = some t → t.id = id)
    (step : w.step action = some v) (answers : w.Answers outputs action) (spares : action.spares statement) :
    OneByOne outputs find first statement n v := by
  obtain ⟨r, found, -, follows⟩ := h.writing.run
  have sound := (h.writing.sound n r found).1
  have change := h.writing.sound.change_of_step step answers
  have writing := h.writing.change keyed change spares
  have goes {r' : Run} (found' : v.runs[n]? = some r') : r' = r ∨ r.Goes r' :=
    (accountable_reachable idle reach).1.goes_of_step step found found'
  have single (r' : Run) (found' : v.runs[n]? = some r') : r'.settings.parallelism = 1 := by
    rcases goes found' with rfl | goes
    · exact h.single _ found
    · rw [goes.settings, h.single r found]
  refine ⟨writing, single, fun r' found' => ?_, fun r' found' => ?_⟩
  · rcases run_of_step step found' with ⟨s, there, ⟨-, rfl⟩ | ⟨-, does⟩⟩ | ⟨beyond, -⟩
    · exact h.trail _ there
    · obtain rfl := Option.some.inj (found.symm.trans there)
      rcases does.walk sound with walks | ⟨kept, -⟩
      · rcases walks.transactions sound with kept | ⟨t, place, added⟩
        · exact kept ▸ h.trail r found
        · simp only [Run.Follows, place] at follows
          obtain ⟨ids, -, -, known, passed⟩ := follows
          exact ⟨t.previous, added ▸ passed.trail.step known⟩
      · exact kept ▸ h.trail r found
    · exact absurd (List.getElem?_eq_some_iff.1 found).1 (by simp [beyond])
  · have panics (panicked : r.pipeline.Panicked) : r'.pipeline.Panicked := by
      rcases goes found' with rfl | goes
      · exact panicked
      · exact goes.panicked sound panicked
    rcases h.prefixed r found with panicked | ⟨m, order⟩
    · exact .inl (panics panicked)
    rcases serial_reachable idle (reach.tail step) found' (single r' found') with panicked | serial
    · exact .inl panicked
    · refine .inr (order.change h.writing change spares fun s there => ?_)
      rwa [← Option.some.inj (found'.symm.trans there)]

end OneByOne

/-- With one permit the archive is always a beginning of the chain. A run begins over a statement that nobody has used.
Whatever happens then, panics of its items apart, and whenever one looks: the archive holds under its statement the
records of the first so many transactions of the chain, as it was live when the run began, in the order of the walk and
numbered from the first. Numbers are kept in words of 32 bits: they fit if fewer than `2 ^ 32` records were live. If an
item of the run has failed, the records are those before it; and as long as nobody else changes the table, it and all
behind it on the chain are live. -/
theorem archive_is_prefix {last : TransactionId} (idle : w₀.runs = []) (keyed : w₀.store.Keyed)
    (before : Reachable (Restricted (Answers outputs) (Steps World.step)) w₀ w₁) (unused : w₁.Unused statement)
    (begun : w₁.step (.begin settings statement last) = some w₂) (single : settings.parallelism = 1)
    (meanwhile : Reachable (Restricted (fun w action => w.Answers outputs action ∧ action.spares statement)
      (Steps World.step)) w₂ w₃)
    (found : w₃.runs[w₁.runs.length]? = some r) (sane : ¬ r.pipeline.Panicked) :
    ∃ chain stop m, Chain w₁.store.find? [] last chain stop ∧ m ≤ chain.length ∧
      List.Forall₂ (RecordOf outputs) ((requests statement chain).take m) (w₃.store.archivedFor statement) ∧
      (w₁.store.live.length < 2 ^ 32 → ∀ record ∈ w₃.store.archivedFor statement, record.number < 2 ^ 32) ∧
      ∀ i x cause, r.pipeline.phase? i = some x → x.ending? = some (.failed cause) → m = i ∧
        (Reachable (Undisturbed (Steps World.step) w₁.runs.length Store.find?) w₂ w₃ →
          ∀ t ∈ chain.drop i, w₃.store.find? t.id = some t) := by
  obtain ⟨sound, keyed'⟩ := sound_reachable idle keyed before
  have finite (id : TransactionId) (t : Transaction) (known : w₁.store.find? id = some t) : id ∈ w₁.store.liveIds :=
    Store.mem_liveIds known
  obtain ⟨chain, stop, whole⟩ := Chain.exists_of_finite finite [] last
  have start : Reachable (Steps World.step) w₀ w₂ := before.of_restricted.tail begun
  obtain ⟨reach, oneByOne⟩ := meanwhile.invariant
    (P := fun w => Reachable (Steps World.step) w₀ w ∧
      OneByOne outputs w₁.store.find? last statement w₁.runs.length w)
    ⟨start, .begin sound unused single begun⟩
    fun _ _ _ ⟨reach, h⟩ ⟨⟨answers, spares⟩, step⟩ => ⟨reach.tail step, h.step idle reach keyed' step answers spares⟩
  obtain ⟨m, order⟩ := (oneByOne.prefixed r found).resolve_left sane
  obtain ⟨s, there, mine, -⟩ := oneByOne.writing.run
  obtain rfl := Option.some.inj (found.symm.trans there)
  have handed : r.transactions <+: chain := by
    obtain ⟨next, trail⟩ := oneByOne.trail r found
    exact trail.isPrefix keyed' (itinerary_reachable idle keyed reach found).ids_nodup finite whole
  have places (i : Nat) (request : ArchivalRequest) (now : w₃.Done w₁.runs.length i request) :
      (requests statement chain)[i]? = some request :=
    request_of_done (oneByOne.writing.sound _ r found).1 found mine handed now
  obtain ⟨short, each⟩ := order.along places
  refine ⟨chain, stop, m, whole, short, each, fun few record member => ?_, fun i x cause inside failed => ?_⟩
  · exact Nat.lt_of_le_of_lt (Nat.le_trans (number_le_of_records each record member) (length_le_live keyed' whole)) few
  · have serial := (serial_reachable idle reach found (oneByOne.single r found)).resolve_left sane
    obtain rfl := order.eq_of_failed serial found inside failed
    refine ⟨rfl, fun alone => ?_⟩
    have fresh : w₂.store.find? = w₁.store.find? := by
      simp only [World.step] at begun
      split at begun <;> cases begun
      rfl
    exact (leaves_reachable idle start fresh alone).live keyed' whole fun j request now =>
      ⟨(order.done j).1 ⟨request, now⟩, places j request now⟩

/-- What happens in a run over `exampleWorld` with one permit after it has begun: the second item gets the permit when
the first one is done, and then the signer refuses it. -/
def singleFileActions : List Action :=
  let walks (steps : Nat) : List Action := List.replicate steps (.go (.walker 0))
  let drives (steps : Nat) : List Action := List.replicate steps (.go (.driver 0))
  let works (item steps : Nat) : List Action := List.replicate steps (.go (.item 0 item))
  walks 6 ++ [Action.wake 0] ++ drives 3 ++ walks 4 ++ works 0 1 ++
    [Action.signal 0 0 (.answer .sign (.ok (exampleTransform .sign [3, 4, 5]))),
      .signal 0 0 (.answer .compress (.ok (exampleTransform .compress [3, 4, 5])))] ++ works 0 5 ++ walks 4 ++
    drives 9 ++ works 1 1 ++ [Action.signal 0 1 (.answer .sign (.error (.failed "no key")))] ++ works 1 6

theorem archive_is_prefix_example : ∃ (w₂ w₃ : World) (r : Run) (chain : List Transaction) (stop : ChainEnd),
    exampleWorld.step (.begin { parallelism := 1 } exampleStatement exampleTail) = some w₂ ∧ w₃.runs[0]? = some r ∧
    r.pipeline.phase? 1 = some (.finished (.failed (.transformFailure ⟨"older", by decide⟩ .sign "no key"))) ∧
    Chain exampleWorld.store.find? [] exampleTail chain stop ∧
    List.Forall₂ (RecordOf fun stage payload octets => octets = exampleTransform stage payload)
      ((requests exampleStatement chain).take 1) (w₃.store.archivedFor exampleStatement) ∧
    (∀ record ∈ w₃.store.archivedFor exampleStatement, record.number < 2 ^ 32) ∧
    ∀ t ∈ chain.drop 1, w₃.store.find? t.id = some t := by
  have possible : (exampleWorld.step (.begin { parallelism := 1 } exampleStatement exampleTail)).any fun (w₂ : World) =>
      (follow (fun w action => (w.answersWith exampleTransform action && decide (action.spares exampleStatement)) &&
        decide (action.run? = some 0)) World.step w₂ singleFileActions).any fun (w₃ : World) =>
          (w₃.runs[0]?).any fun (r : Run) => (r.pipeline.phase? 1 ==
            some (.finished (.failed (.transformFailure ⟨"older", by decide⟩ .sign "no key")))) &&
          r.pipeline.items.all (·.phase.ending? != some .panicked) := by decide +kernel
  simp only [Option.any_eq_true, Bool.and_eq_true, beq_iff_eq, List.all_eq_true, bne_iff_ne] at possible
  obtain ⟨w₂, begun, w₃, followed, r, found, failed, sane⟩ := possible
  have meanwhile : Reachable (Restricted (fun w action =>
      w.Answers (fun stage payload octets => octets = exampleTransform stage payload) action ∧
        action.spares exampleStatement) (Steps World.step)) w₂ w₃ := by
    refine reachable_of_follow followed fun w action allowed => ?_
    simp only [Bool.and_eq_true, decide_eq_true_eq] at allowed
    exact ⟨answers_of_answersWith allowed.1.1, allowed.1.2⟩
  have alone : Reachable (Undisturbed (Steps World.step) 0 Store.find?) w₂ w₃ := by
    have own : Reachable (Restricted (fun _ action => action.run? = some 0) (Steps World.step)) w₂ w₃ :=
      reachable_of_follow followed fun _ _ allowed => of_decide_eq_true (Bool.and_eq_true_iff.1 allowed).2
    exact own.invariant (Reachable.refl _ _) fun _ _ _ before step => before.tail ⟨step.2, .inl step.1⟩
  have idle : exampleWorld.runs = [] := rfl
  obtain ⟨chain, stop, m, whole, -, records, fits, ends⟩ := archive_is_prefix idle (Store.keyed_ofList _ _) (.refl _ _)
    ⟨rfl, by simp [exampleWorld]⟩ begun rfl meanwhile found (Pipeline.sane_of_items sane)
  obtain ⟨rfl, live⟩ := ends 1 _ _ failed rfl
  exact ⟨w₂, w₃, r, chain, stop, begun, found, failed, whole, records, fits (by decide), live alone⟩

end World
end ChainArchive
