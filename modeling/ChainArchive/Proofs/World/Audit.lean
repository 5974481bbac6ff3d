import ChainArchive.Proofs.Run.Log

/-!
# The log as an audit of the archive

Whatever becomes of the runs, the log tells of exactly the records that they put
into the archive. It does so after every single step, and so wherever all tasks
wait. A run that answers a receipt has counted its records twice, once where its
walker went and once where its pipeline completed them; the log has both counts,
and both are the number of its records.
-/

namespace ChainArchive
set_option autoImplicit false

/-- What is logged when a record enters the archive. -/
def ArchivedTransaction.notice (record : ArchivedTransaction) : Event :=
  .relocated record.statement record.id record.number

/-- The walker has come to the head of the chain, and no failure has stopped it. -/
def Walker.isAtHead : Walker → Bool
  | .walked .complete | .closing .complete | .awaiting .complete | .finished (.ok _) => true
  | _ => false

/-- No caller puts a record into the archive under the statement. -/
def World.Action.leaves (statement : StatementId) : World.Action → Prop
  | .relocate record _ => record.statement ≠ statement
  | _ => True

instance (statement : StatementId) : DecidablePred (World.Action.leaves statement)
  | .relocate record _ => inferInstanceAs (Decidable (record.statement ≠ statement))
  | .go _ | .wake _ | .abandon _ | .signal .. | .proceedLookup _ | .refuseLookup .. | .begin .. | .drop _ | .insert _
  | .tick _ => isTrue trivial

/-! ## Searching a log -/

section Search

variable {α β : Type} {l l' more : List β} {runs : List α} {f : α → List β} {k : Nat} {a b : α}

/-- What is found in a log after more has been logged. -/
theorem perm_filter_append (added : l'.Perm (l ++ more)) (p : β → Bool) :
    (l'.filter p).Perm (l.filter p ++ more.filter p) := by
  rw [← List.filter_append]
  exact added.filter p

/-- What one of them logs is added to what they have all logged. -/
theorem perm_flatMap_set (found : runs[k]? = some a) (added : (f b).Perm (f a ++ more)) :
    ((runs.set k b).flatMap f).Perm (runs.flatMap f ++ more) := by
  induction runs generalizing k with
  | nil => cases found
  | cons first rest ih =>
    cases k with
    | zero =>
      cases found
      calc f b ++ rest.flatMap f
        _ |>.Perm (f a ++ more ++ rest.flatMap f) := added.append_right _
        _ |>.Perm (f a ++ rest.flatMap f ++ more) := by
          simpa only [List.append_assoc] using List.perm_append_comm.append_left (f a)
    | succ k =>
      have added := (ih found).append_left (f first)
      rwa [← List.append_assoc] at added

/-- What they have all logged, when all but one have logged nothing. -/
theorem flatMap_of_alone (found : runs[k]? = some a) (silent : ∀ j b, runs[j]? = some b → j ≠ k → f b = []) :
    runs.flatMap f = f a := by
  induction runs generalizing k with
  | nil => cases found
  | cons first rest ih =>
    cases k with
    | zero =>
      cases found
      have nothing : rest.flatMap f = [] := by
        refine List.flatMap_eq_nil_iff.2 fun b member => ?_
        obtain ⟨j, there⟩ := List.mem_iff_getElem?.1 member
        exact silent (j + 1) b there (Nat.succ_ne_zero j)
      rw [List.flatMap_cons, nothing, List.append_nil]
    | succ k =>
      rw [List.flatMap_cons, silent 0 first rfl (Nat.succ_ne_zero k).symm, List.nil_append]
      exact ih found fun j b there other => silent (j + 1) b there fun same => other (Nat.succ.inj same)

end Search

/-! ## What a step tells -/

namespace Run

variable {store after : Store} {r r' : Run} {other : StatementId} {said : List Event}

namespace Tells

theorem statement (tells : r.Tells store said after r') : r'.statement = r.statement := by
  cases tells with
  | aside step => exact step.statement
  | relocation | success => rfl

theorem added (tells : r.Tells store said after r') : r'.events.Perm (r.events ++ said) := by
  cases tells with
  | aside step => exact step.added
  | relocation => exact events_apply
  | success => exact events_perm_of_log rfl rfl

/-- The relocations of a statement that a step tells are the records that it adds to the archive under it. -/
theorem relocations (tells : r.Tells store said after r') (statement : StatementId) : ∃ more,
    after.archivedFor statement = store.archivedFor statement ++ more ∧
      said.filter (·.tellsRelocation statement) = more.map (·.notice) := by
  cases tells with
  | aside step => exact ⟨[], (List.append_nil _).symm, (Event.filter_of_plain step.plain).1⟩
  | @relocation i n request work record after busy isOf isFor numbered taken =>
    refine ⟨_, Store.archivedFor_relocate taken statement, ?_⟩
    rw [← isOf, ← isFor, ← numbered]
    split
    · next same => simp [same, ArchivedTransaction.notice]
    · next foreign => simp [foreign]
  | success => exact ⟨[], (List.append_nil _).symm, by simp⟩

/-- A run tells of no statement but its own. -/
theorem silent (tells : r.Tells store said after r') (sound : r.Sound) (foreign : other ≠ r.statement) :
    said.filter (·.tellsRelocation other) = [] ∧ said.filter (·.tellsSuccess other) = [] := by
  cases tells with
  | aside step => exact Event.filter_of_plain step.plain
  | @relocation i n request work record after busy =>
    have mine : request.statement = r.statement := (sound.numbered _ _ (items_of_work? busy)).1
    simp [mine, Ne.symm foreign]
  | success => simp [Ne.symm foreign]

/-- The items that become done are told, by their place in the walk. -/
theorem done (tells : r.Tells store said after r') (sound : r.Sound) :
    ((∀ i, r'.ending? i = some .done ↔ r.ending? i = some .done) ∧ said.filter (·.tellsRelocation r.statement) = []) ∨
      ∃ i id, r.ending? i ≠ some .done ∧ (∀ j, r'.ending? j = some .done ↔ r.ending? j = some .done ∨ j = i) ∧
        said.filter (·.tellsRelocation r.statement) = [.relocated r.statement id (i + firstNumber)] := by
  cases tells with
  | aside step => exact .inl ⟨step.done, (Event.filter_of_plain step.plain).1⟩
  | success => exact .inl ⟨fun _ => Iff.rfl, by simp⟩
  | @relocation i n request work record after busy =>
    obtain ⟨mine, place⟩ : request.statement = r.statement ∧ request.number = i + firstNumber :=
      sound.numbered _ _ (items_of_work? busy)
    refine .inr ⟨i, request.transaction.id, by simp [ending?, phase?_of_work? busy, Pipeline.Phase.ending?], fun j => ?_,
      by simp [mine, place]⟩
    rw [ending?_apply busy]
    by_cases same : i = j
    · simp [same, Archiver.Next.ending?]
    · simp [same, Ne.symm same]

/-- What a run counts is told. -/
theorem counts (tells : r.Tells store said after r') :
    (r'.tally? = r.tally? ∧ said.filter (·.tellsSuccess r.statement) = []) ∨
      r.tally? = none ∧ ∃ archived enqueued peak, r'.tally? = some (archived, enqueued) ∧
        said.filter (·.tellsSuccess r.statement) = [.statementGenerated r.statement archived enqueued peak] := by
  cases tells with
  | aside step => exact .inl ⟨step.tally, (Event.filter_of_plain step.plain).2⟩
  | relocation => exact .inl ⟨rfl, by simp⟩
  | @success archived before => exact .inr ⟨before, archived, r.visited.length, r.pipeline.peak, rfl, by simp⟩

end Tells

/-! ## What a run has told -/

/-- What the log of a run has told of its statement, and of no other. -/
structure Audited (r : Run) : Prop where
  own : ∀ other, other ≠ r.statement → r.events.filter (·.tellsRelocation other) = [] ∧
    r.events.filter (·.tellsSuccess other) = []
  /-- It has told the relocations of the items that are done, with their numbers. -/
  done : ∃ told : List (Nat × TransactionId), (told.map Prod.fst).Nodup ∧
    (∀ i, i ∈ told.map Prod.fst ↔ r.ending? i = some .done) ∧
    (r.events.filter (·.tellsRelocation r.statement)).Perm
      (told.map fun (i, id) => .relocated r.statement id (i + firstNumber))
  /-- It has told that the statement is complete if the run has counted, with what it has counted. -/
  counts : ∃ peak, r.events.filter (·.tellsSuccess r.statement) =
    (r.tally?.map fun (archived, enqueued) => .statementGenerated r.statement archived enqueued peak).toList

theorem plain_begin {settings : GenerationSettings} {statement : StatementId} {last : TransactionId}
    (begun : Run.begin settings statement last = .ok r) : r.events.all Event.isPlain = true := by
  unfold Run.begin Pipeline.start at begun
  split at begun <;> cases begun
  rfl

namespace Audited

theorem begin {settings : GenerationSettings} {statement : StatementId} {last : TransactionId}
    (begun : Run.begin settings statement last = .ok r) : r.Audited := by
  have nothing (i : Nat) : r.ending? i = none := by rw [ending?, Pipeline.phase?, items_begin begun]; rfl
  have plain := plain_begin begun
  have uncounted : r.tally? = none := by simp only [tally?, walker_begin begun]
  refine ⟨fun _ _ => Event.filter_of_plain plain, ⟨[], List.nodup_nil, fun i => by simp [nothing], ?_⟩, 0, ?_⟩
  · rw [(Event.filter_of_plain plain).1]
    exact .nil
  · rw [(Event.filter_of_plain plain).2, uncounted]
    rfl

theorem step (h : r.Audited) (sound : r.Sound) (tells : r.Tells store said after r') : r'.Audited := by
  refine ⟨fun other foreign => ?_, ?_, ?_⟩
  · rw [tells.statement] at foreign
    obtain ⟨silent, silent'⟩ := tells.silent sound foreign
    obtain ⟨before, before'⟩ := h.own other foreign
    constructor
    · simpa [before, silent] using perm_filter_append tells.added (·.tellsRelocation other)
    · simpa [before', silent'] using perm_filter_append tells.added (·.tellsSuccess other)
  · obtain ⟨told, nodup, mem, before⟩ := h.done
    have found := perm_filter_append tells.added (·.tellsRelocation r.statement)
    rw [tells.statement]
    obtain ⟨same, silent⟩ | ⟨i, id, undone, now, last⟩ := tells.done sound
    · rw [silent, List.append_nil] at found
      exact ⟨told, nodup, fun i => (mem i).trans (same i).symm, found.trans before⟩
    · rw [last] at found
      refine ⟨told ++ [(i, id)], ?_, fun j => ?_, ?_⟩
      · rw [List.map_append]
        refine List.nodup_append.2 ⟨nodup, List.nodup_singleton i, ?_⟩
        rintro j member _ last rfl
        obtain rfl : j = i := List.mem_singleton.1 last
        exact undone ((mem j).1 member)
      · rw [List.map_append, List.mem_append, mem, now, List.map_singleton, List.mem_singleton]
      · rw [List.map_append, List.map_singleton]
        exact found.trans (before.append_right _)
  · obtain ⟨peak, told⟩ := h.counts
    have found := perm_filter_append tells.added (·.tellsSuccess r.statement)
    rw [tells.statement]
    obtain ⟨same, silent⟩ | ⟨before, archived, enqueued, peak', now, last⟩ := tells.counts
    · refine ⟨peak, ?_⟩
      rw [silent, List.append_nil, told] at found
      rw [same]
      cases counted : r.tally? with
      | none =>
        rw [counted] at found
        exact found.eq_nil
      | some tally =>
        rw [counted] at found
        exact List.perm_singleton.1 found
    · refine ⟨peak', ?_⟩
      rw [told, before, last] at found
      rw [now]
      exact List.perm_singleton.1 found

end Audited

/-! ## The two counts -/

/-- At the head of the chain, the walker has handed over a record for every id that it went to. -/
def HandsAll (r : Run) : Prop := r.walker.isAtHead = true → r.visited.length = r.pipeline.items.length

theorem HandsAll.walks {now : Nat} {gated : Bool} (h : r.HandsAll) (sound : r.Sound)
    (step : Walks store now gated r r') : r'.HandsAll := by
  intro head
  cases step with
  | reachesHead place =>
    have before := sound.positioned
    simp only [Positioned, place] at before
    exact before.1.trans before.2.1.symm
  | @closes outcome place | @completes outcome place =>
    cases outcome with
    | complete => exact h (by rw [place]; rfl)
    | closed | failed => cases head
  | @ends outcome result place =>
    cases answer : outcome.result result with
    | error cause =>
      rw [answer] at head
      cases head
    | ok archived =>
      obtain rfl := WalkEnd.complete_of_result answer
      exact h (by rw [place]; rfl)
  | _ => cases head

/-- A run that answers a receipt has told so once, with both counts, and has told as many relocations. -/
theorem Audited.of_success (h : r.Audited) (sound : r.Sound) (hands : r.HandsAll) {receipt : Receipt}
    (success : r.result? = some (.ok receipt)) {n : Nat}
    (told : (r.events.filter (·.tellsRelocation r.statement)).length = n) : receipt = ⟨r.statement, n⟩ ∧
      ∃ peak, r.events.filter (·.tellsSuccess r.statement) = [.statementGenerated r.statement n n peak] := by
  obtain ⟨statement, archived, finished⟩ := sound.of_success success
  have place := walker_of_result success
  have handed : r.visited.length = r.pipeline.items.length := hands (by rw [place]; rfl)
  have tally : r.tally? = some (receipt.archived, r.visited.length) := by simp only [tally?, place]
  obtain ⟨order, nodup, mem, count⟩ := h.done
  have all : (order.map Prod.fst).Perm (List.range r.pipeline.items.length) := by
    refine (List.perm_ext_iff_of_nodup nodup List.nodup_range).2 fun i => ?_
    rw [mem, List.mem_range, ending?_eq_some]
    constructor
    · rintro ⟨item, inside, -⟩
      exact (List.getElem?_eq_some_iff.1 inside).1
    · intro bound
      have inside := List.getElem?_eq_getElem bound
      exact ⟨_, inside, by rw [finished i _ inside]; rfl⟩
  have done : r.pipeline.items.length = n := by
    rw [← told, count.length_eq, List.length_map]
    simpa using all.length_eq.symm
  obtain ⟨peak, once⟩ := h.counts
  rw [tally, archived, handed, done] at once
  cases receipt
  cases statement
  exact ⟨by rw [← done, ← archived], peak, once⟩

/-- The records that a run has told of are no more than it has handed over, and numbered no higher. -/
theorem Audited.number_le (h : r.Audited) {records : List ArchivedTransaction}
    (told : (r.events.filter (·.tellsRelocation r.statement)).Perm (records.map (·.notice))) :
    records.length ≤ r.pipeline.items.length ∧ ∀ record ∈ records, record.number ≤ r.pipeline.items.length := by
  obtain ⟨order, nodup, mem, same⟩ := h.done
  have inside : order.map Prod.fst ⊆ List.range r.pipeline.items.length := by
    intro i member
    obtain ⟨item, there, -⟩ := ending?_eq_some.1 ((mem i).1 member)
    exact List.mem_range.2 (List.getElem?_eq_some_iff.1 there).1
  have same := told.symm.trans same
  constructor
  · have count : records.length = order.length := by simpa using same.length_eq
    simpa [count] using (List.subperm_of_subset nodup inside).length_le
  · intro record member
    obtain ⟨⟨i, id⟩, known, is⟩ := List.mem_map.1 (same.subset (List.mem_map_of_mem member))
    have number : i + firstNumber = record.number := (Event.relocated.inj is).2.2
    rw [← number]
    exact List.mem_range.1 (inside (List.mem_map_of_mem known))

/-- A run that answers no receipt has not told of one. -/
theorem Audited.of_other (h : r.Audited) (other : ∀ receipt, r.result? ≠ some (.ok receipt)) :
    r.events.filter (·.tellsSuccess r.statement) = [] := by
  obtain ⟨peak, told⟩ := h.counts
  have uncounted : r.tally? = none := by
    unfold tally?
    split
    · next receipt place => exact absurd (by rw [result?, place]) (other receipt)
    · rfl
  rw [told, uncounted]
  rfl

end Run

namespace World

variable {w w₀ v : World} {action : Action} {k : Nat} {r r' : Run} {statement : StatementId}

theorem handsAll_reachable (idle : w₀.runs = []) (reach : Reachable (Steps World.step) w₀ w)
    (found : w.runs[k]? = some r) : r.HandsAll := by
  refine forall_runs (P := Run.HandsAll) idle (fun _ _ _ _ begun head => ?_) ?_ reach k r found
  · rw [Run.walker_begin begun] at head
    cases head
  · intro w k r action after r' _ sound does _ h
    rcases does.walk sound with step | ⟨handed, visited, -, aside⟩
    · exact h.walks sound step
    · have items : r'.pipeline.items.length = r.pipeline.items.length := by
        simpa only [Run.transactions, List.length_map] using congrArg List.length handed
      intro head
      rw [visited, items]
      apply h
      generalize r.walker = before at aside ⊢
      generalize r'.walker = now at aside head
      cases aside with
      | stays => exact head
      | answers | fails | leaves => cases head

/-- What belongs to no run leaves the records of the statement as they are, unless it puts one there. -/
theorem archivedFor_of_outside (step : w.step action = some v) (nobody : action.run? = none)
    (leaves : action.leaves statement) : v.store.archivedFor statement = w.store.archivedFor statement := by
  cases action with
  | relocate record original =>
    simp only [World.step] at step
    split at step <;> cases step
    next taken => rw [Store.archivedFor_relocate taken, if_neg leaves, List.append_nil]
  | begin settings statement last =>
    simp only [World.step] at step
    split at step <;> cases step
    rfl
  | insert t =>
    cases step
    rfl
  | tick now =>
    simp only [World.step, Option.ite_none_right_eq_some, Option.some.injEq] at step
    obtain ⟨-, rfl⟩ := step
    rfl
  | go task => cases task <;> cases nobody
  | _ => cases nobody

/-- What the log, the runs and the archive say about each other, since the store was the first one. -/
structure Audit (first : Store) (statement : StatementId) (new : List ArchivedTransaction) (w : World) : Prop where
  sound : w.Sound fun _ _ _ => True
  audited : ∀ (k : Nat) (r : Run), w.runs[k]? = some r → r.Audited
  archive : w.store.archivedFor statement = first.archivedFor statement ++ new
  log : (w.events.filter (·.tellsRelocation statement)).Perm (new.map (·.notice))

namespace Audit

variable {first : Store} {new : List ArchivedTransaction}

theorem start (idle : w.runs = []) : Audit w.store statement [] w :=
  ⟨.start idle, fun k r found => by simp [idle] at found, (List.append_nil _).symm, by simp [events, idle]⟩

theorem step (h : Audit first statement new w) (step : w.step action = some v) (leaves : action.leaves statement) :
    ∃ more, Audit first statement (new ++ more) v := by
  have sound := h.sound.change (h.sound.change_of_any_step step)
  cases own : action.run? with
  | some k =>
    obtain ⟨r, after, r', found, does, rfl⟩ := does_of_step step own
    obtain ⟨mine, faithful⟩ := h.sound k r found
    obtain ⟨said, tells⟩ := does.tells mine faithful
    obtain ⟨more, archive, told⟩ := tells.relocations statement
    refine ⟨more, sound, fun j s there => ?_, ?_, ?_⟩
    · rcases runs_setRun found there with ⟨-, rfl⟩ | ⟨-, there⟩
      · exact (h.audited k r found).step mine tells
      · exact h.audited j s there
    · rw [archive, h.archive, List.append_assoc]
    · have added := perm_flatMap_set (f := Run.events) found tells.added
      rw [List.map_append, ← told]
      exact (perm_filter_append added _).trans (h.log.append_right _)
  | none =>
    have archive := (archivedFor_of_outside step own leaves).trans h.archive
    refine ⟨[], ?_⟩
    rw [List.append_nil]
    rcases outside_of_step step own with ⟨settings, other, last, r, rfl, begun, rfl⟩ | ⟨same, -⟩
    · have audited := Run.Audited.begin begun
      refine ⟨sound, fun j s there => ?_, archive, ?_⟩
      · rcases runs_append there with there | ⟨-, rfl⟩
        · exact h.audited j s there
        · exact audited
      · have quiet : r.events.filter (·.tellsRelocation statement) = [] :=
          (Event.filter_of_plain (Run.plain_begin begun)).1
        simpa only [events, List.flatMap_append, List.flatMap_singleton, List.filter_append, quiet, List.append_nil]
          using h.log
    · refine ⟨sound, ?_, archive, ?_⟩
      · rw [same]
        exact h.audited
      · rw [events, same]
        exact h.log

theorem reachable (idle : w₀.runs = [])
    (reach : Reachable (Restricted (fun _ action => action.leaves statement) (Steps World.step)) w₀ w) :
    ∃ new, Audit w₀.store statement new w := by
  refine reach.invariant (P := fun w => ∃ new, Audit w₀.store statement new w) ⟨[], .start idle⟩ ?_
  rintro s action t ⟨new, audit⟩ ⟨leaves, step⟩
  obtain ⟨more, audit⟩ := audit.step step leaves
  exact ⟨new ++ more, audit⟩

/-- The log tells of a statement what its only run has told. -/
theorem filter_of_alone (h : Audit first statement new w) (found : w.runs[k]? = some r)
    (alone : ∀ j r', w.runs[j]? = some r' → r'.statement = statement → j = k) :
    w.events.filter (·.tellsRelocation statement) = r.events.filter (·.tellsRelocation statement) ∧
      w.events.filter (·.tellsSuccess statement) = r.events.filter (·.tellsSuccess statement) := by
  have silent (j : Nat) (s : Run) (there : w.runs[j]? = some s) (other : j ≠ k) :=
    (h.audited j s there).own statement fun same => other (alone j s there same.symm)
  rw [events, List.filter_flatMap, List.filter_flatMap]
  exact ⟨flatMap_of_alone found fun j s there other => (silent j s there other).1,
    flatMap_of_alone found fun j s there other => (silent j s there other).2⟩

end Audit

/-! ## The log is an audit -/

/-- Whatever the runs have come to, the relocations that the log tells of a statement are the records that they put
under it, one for one, with the same ids and numbers. When one run writes the statement, its receipt counts these
records, and the log tells once that the statement is complete, with their number as both counts; a run that is not
over, is dropped or has failed has not told so. Numbers and counts are kept in words of 32 bits: they fit as long as the
run has not handed over `2 ^ 32` records. -/
theorem log_audits_archive {w₀ w : World} {statement : StatementId} (idle : w₀.runs = [])
    (reach : Reachable (Restricted (fun _ action => action.leaves statement) (Steps World.step)) w₀ w) :
    ∃ new, w.store.archivedFor statement = w₀.store.archivedFor statement ++ new ∧
      (w.events.filter (·.tellsRelocation statement)).Perm
        (new.map fun record => .relocated record.statement record.id record.number) ∧
      ∀ (k : Nat) (r : Run), w.runs[k]? = some r → r.statement = statement →
        (∀ j r', w.runs[j]? = some r' → r'.statement = statement → j = k) →
        (∀ receipt, r.result? = some (.ok receipt) → receipt = ⟨statement, new.length⟩ ∧
          ∃ peak, w.events.filter (·.tellsSuccess statement) =
            [.statementGenerated statement new.length new.length peak]) ∧
        ((∀ receipt, r.result? ≠ some (.ok receipt)) → w.events.filter (·.tellsSuccess statement) = []) ∧
        (r.pipeline.items.length < 2 ^ 32 → new.length < 2 ^ 32 ∧ ∀ record ∈ new, record.number < 2 ^ 32) := by
  obtain ⟨new, audit⟩ := Audit.reachable idle reach
  refine ⟨new, audit.archive, audit.log, fun k r found own alone => ?_⟩
  obtain ⟨relocations, successes⟩ := audit.filter_of_alone found alone
  have audited := audit.audited k r found
  have told := audit.log
  rw [relocations] at told
  have count : (r.events.filter (·.tellsRelocation statement)).length = new.length := by
    rw [told.length_eq, List.length_map]
  rw [successes]
  subst own
  refine ⟨fun receipt success => ?_, audited.of_other, fun few => ?_⟩
  · exact audited.of_success (audit.sound k r found).1 (handsAll_reachable idle reach.of_restricted found) success count
  · obtain ⟨counted, numbered⟩ := audited.number_le told
    exact ⟨Nat.lt_of_le_of_lt counted few, fun record member => Nat.lt_of_le_of_lt (numbered record member) few⟩

/-- The run of the example ends well, after which another one finds its first record gone and is dropped. -/
theorem log_audits_archive_example : ∃ w r,
    follow (fun _ action => decide (action.leaves exampleStatement)) World.step exampleWorld
      (.begin {} exampleStatement exampleTail :: exampleActions ++
        .begin {} (.ofRandom [1]) exampleTail :: List.replicate 4 (.go (.walker 1)) ++ [.drop 1]) = some w ∧
    w.runs[0]? = some r ∧ r.result? = some (.ok ⟨exampleStatement, 2⟩) ∧
    ∃ new, w.store.archivedFor exampleStatement = [] ++ new ∧ new.length = 2 ∧
      (w.events.filter (·.tellsRelocation exampleStatement)).Perm
        (new.map fun record => .relocated record.statement record.id record.number) ∧
      (∃ peak, w.events.filter (·.tellsSuccess exampleStatement) = [.statementGenerated exampleStatement 2 2 peak]) ∧
      ∀ record ∈ new, record.number < 2 ^ 32 := by
  have possible : (follow (fun _ action => decide (action.leaves exampleStatement)) World.step exampleWorld
      (.begin {} exampleStatement exampleTail :: exampleActions ++
        .begin {} (.ofRandom [1]) exampleTail :: List.replicate 4 (.go (.walker 1)) ++ [.drop 1])).any
      (fun (w : World) => w.runs.map (·.statement) == [exampleStatement, .ofRandom [1]] &&
        (w.runs[0]?).any fun (r : Run) => r.result? == some (.ok ⟨exampleStatement, 2⟩) &&
          decide (r.pipeline.items.length < 2 ^ 32)) = true := by decide +kernel
  obtain ⟨w, followed, here⟩ := (Option.any_eq_true ..).1 possible
  simp only [Bool.and_eq_true, beq_iff_eq, Option.any_eq_true, decide_eq_true_eq] at here
  obtain ⟨statements, r, found, answered, few⟩ := here
  have named {j : Nat} {r' : Run} (there : w.runs[j]? = some r') :
      [exampleStatement, .ofRandom [1]][j]? = some r'.statement := by
    rw [← statements, List.getElem?_map, there]
    rfl
  have alone (j : Nat) (r' : Run) (there : w.runs[j]? = some r') (same : r'.statement = exampleStatement) : j = 0 := by
    have is := named there
    rw [same] at is
    match j with
    | 0 => rfl
    | 1 => exact absurd is (by decide +kernel)
    | j + 2 => cases is
  obtain ⟨new, archive, relocations, counts⟩ :=
    log_audits_archive rfl (reachable_of_follow followed fun _ _ => of_decide_eq_true)
  have own : r.statement = exampleStatement := (Option.some.inj (named found)).symm
  obtain ⟨succeeds, -, fits⟩ := counts 0 r found own alone
  obtain ⟨same, peak, told⟩ := succeeds _ answered
  have two : new.length = 2 := (congrArg Receipt.archived same).symm
  rw [two] at told
  exact ⟨w, r, followed, found, answered, new, archive, two, relocations, ⟨peak, told⟩, (fits few).2⟩

end World
end ChainArchive
