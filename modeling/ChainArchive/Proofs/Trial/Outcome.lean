import ChainArchive.Trial.Archiver
import Mathlib.Tactic.Common

/-!
# How the work on an item can end

Under a virtual clock each transform has its end: its answer, or its timeout if that
is over before. Until the work has ended there is a next thing that comes to it, and
what has come so far tells what that can be. So there are three ways to the end: a
failure that no other comes before, the flag when both transforms have succeeded, and
the store's answer.
-/

namespace ChainArchive.Trial
set_option autoImplicit false

open Archiver (Work Effect Next)
open Pipeline (Ending)

/-! ## What comes first -/

namespace Due

variable {α : Type}

/-- The first one comes earlier, or at the same moment and with no higher rank. -/
def Precedes (a b : Due α) : Prop := a.time < b.time ∨ a.time = b.time ∧ a.rank ≤ b.rank

/-- Of some that are due, the first precedes all. -/
theorem first_spec {dues : List (Due α)} (nonempty : dues ≠ []) :
    ∃ due ∈ dues, first dues = some due ∧ ∀ other ∈ dues, due.Precedes other := by
  induction dues with
  | nil => exact absurd rfl nonempty
  | cons a rest ih =>
    have self : a.Precedes a := .inr ⟨rfl, Nat.le_refl _⟩
    by_cases none : rest = []
    · subst none
      exact ⟨a, List.mem_singleton_self a, rfl, by simpa using self⟩
    · obtain ⟨b, member, found, least⟩ := ih none
      simp only [first, found]
      split
      · next before =>
        have here : a.Precedes b := by simpa [Precedes] using before
        refine ⟨a, List.mem_cons_self, rfl, List.forall_mem_cons.2 ⟨self, fun other inside => ?_⟩⟩
        have there := least other inside
        unfold Precedes at here there ⊢
        omega
      · next behind =>
        have here : b.Precedes a := by
          simp only [Bool.or_eq_true, Bool.and_eq_true, decide_eq_true_eq, beq_iff_eq] at behind
          unfold Precedes
          omega
        exact ⟨b, List.mem_cons_of_mem a member, rfl, List.forall_mem_cons.2 ⟨here, least⟩⟩

end Due

/-! ## The ends of the transforms -/

/-- After how long a transform answers that is given a timeout, and what, if it ever does. -/
def ScriptedTransform.answer? (double : ScriptedTransform) (timeout : Span) (payload : Bytes) :
    Option (Nat × Except TransformError Bytes) :=
  let (delay, ending) := double.react payload
  match ending with
  | .tagged => some (delay, .ok (double.tag ++ payload))
  | .output octets => some (delay, .ok octets)
  | .fail message => some (delay, .error (.failed message))
  | .timeout millis => some (delay, .error (.timeout (millis.getD timeout.millisWord)))
  | .stall | .panic => none

namespace ArchiverTrial

/-- After how long a transform ends and how: it answers, or its timeout is over before. -/
def stageEnd (t : ArchiverTrial) (stage : TransformStage) : Nat × Except TransformError Bytes :=
  let timeout := Archiver.stageTimeout t.settings stage
  let overdue := (timeout.ticks, .error (.timeout timeout.millisWord))
  match (t.scripts.transform stage).answer? timeout t.request.transaction.payload with
  | some (delay, result) => if delay ≤ timeout.ticks then (delay, result) else overdue
  | none => overdue

/-- The item's timeout. -/
def limit (t : ArchiverTrial) : Nat := t.settings.itemTimeout.ticks

/-- How a transform can end the work: after so long, with that error. -/
def stageFailure? (t : ArchiverTrial) (stage : TransformStage) : Option (Nat × GenerationError) :=
  match t.stageEnd stage with
  | (time, .error cause) => some (time, .ofTransform t.request.transaction.id stage cause)
  | (_, .ok _) => none

/-- All failures that can end the work before the store answers: those of the transforms, and the item's timeout. -/
def failures (t : ArchiverTrial) : List (Nat × GenerationError) :=
  [TransformStage.compress, .sign].filterMap t.stageFailure? ++
    [(t.limit, .itemTimeout t.request.transaction.id t.settings.itemTimeout.millisWord)]

/-- Both transforms succeed, after so long each and with these results. -/
structure Succeeds (t : ArchiverTrial) (c s : Nat) (compressed signature : Bytes) : Prop where
  compress : t.stageEnd .compress = (c, .ok compressed)
  sign : t.stageEnd .sign = (s, .ok signature)

/-- The flag is raised by then. -/
def raisedAfter (t : ArchiverTrial) (elapsed : Nat) : Bool := t.raiseAt.any (· ≤ t.now + elapsed)

/-- What the store's verdict makes of the item, and of the store. -/
def verdict (t : ArchiverTrial) (compressed signature : Bytes) : Ending × Store :=
  let id := t.request.transaction.id
  match t.store.relocate (Archiver.recordOf t.request compressed signature) id with
  | .ok store => (.done, store)
  | .error cause => (.failed (.storageFailure id cause.message), t.store)

variable {t : ArchiverTrial} {r : Nat}

theorem mem_failures {failure : Nat × GenerationError} : failure ∈ t.failures ↔
    (∃ stage, t.stageFailure? stage = some failure) ∨
      failure = (t.limit, .itemTimeout t.request.transaction.id t.settings.itemTimeout.millisWord) := by
  have stages : (∃ stage, t.stageFailure? stage = some failure) ↔
      t.stageFailure? .compress = some failure ∨ t.stageFailure? .sign = some failure :=
    ⟨fun ⟨stage, is⟩ => by cases stage <;> simp [is], fun is => is.elim (⟨_, ·⟩) (⟨_, ·⟩)⟩
  simp [failures, stages]

theorem stageEnd_of_failure {stage : TransformStage} {failure : Nat × GenerationError}
    (fails : t.stageFailure? stage = some failure) : ∃ cause, t.stageEnd stage = (failure.1, .error cause) := by
  unfold stageFailure? at fails
  split at fails
  · next time cause ends =>
    cases fails
    exact ⟨cause, ends⟩
  · cases fails

theorem Succeeds.unique {c s c' s' : Nat} {compressed signature compressed' signature' : Bytes}
    (h : t.Succeeds c s compressed signature) (h' : t.Succeeds c' s' compressed' signature') :
    c' = c ∧ s' = s ∧ compressed' = compressed ∧ signature' = signature := by
  have compress := h'.compress.symm.trans h.compress
  have sign := h'.sign.symm.trans h.sign
  simp only [Prod.mk.injEq, Except.ok.injEq] at compress sign
  exact ⟨compress.1, sign.1, compress.2, sign.2⟩

theorem Succeeds.no_failure {c s : Nat} {compressed signature : Bytes} (h : t.Succeeds c s compressed signature)
    (stage : TransformStage) : t.stageFailure? stage = none := by
  unfold stageFailure?
  cases stage with
  | compress => rw [h.compress]
  | sign => rw [h.sign]

/-- No transform panics over the payload of the item. -/
def Calm (t : ArchiverTrial) : Prop :=
  ∀ stage, ((t.scripts.transform stage).react t.request.transaction.payload).2 ≠ .panic

/-- What comes of a transform comes at its end, and before the item's timeout if that is over at the same moment. -/
theorem exists_transformDue (calm : t.Calm) (stage : TransformStage) :
    ∃ rank ≤ 1, t.scripts.transformDue t.settings t.request.transaction.payload t.now stage =
      ⟨t.now + (t.stageEnd stage).1, rank, .answer stage (t.stageEnd stage).2⟩ := by
  let timeout := Archiver.stageTimeout t.settings stage
  let overdue : Due Archiver.Signal := ⟨t.now + timeout.ticks, 1, .answer stage (Archiver.overdue t.settings stage)⟩
  have due : t.scripts.transformDue t.settings t.request.transaction.payload t.now stage =
      match (t.scripts.transform stage).answer? timeout t.request.transaction.payload with
      | some (delay, result) => if delay ≤ timeout.ticks then ⟨t.now + delay, 0, .answer stage result⟩ else overdue
      | none => overdue := by
    have quiet := calm stage
    simp only [Scripts.transformDue, ScriptedTransform.answer?]
    generalize (t.scripts.transform stage).react t.request.transaction.payload = reaction at quiet ⊢
    obtain ⟨delay, ending⟩ := reaction
    cases ending with
    | panic => exact absurd rfl quiet
    | tagged | output | fail | timeout | stall => rfl
  rw [due, stageEnd]
  cases (t.scripts.transform stage).answer? timeout t.request.transaction.payload with
  | none => exact ⟨1, Nat.le_refl 1, rfl⟩
  | some answer =>
    obtain ⟨delay, result⟩ := answer
    dsimp only
    split
    · exact ⟨0, Nat.zero_le 1, rfl⟩
    · exact ⟨1, Nat.le_refl 1, rfl⟩

/-! ## Where a trial can stand -/

/-- The trial when it has run so long. -/
def later (t : ArchiverTrial) (elapsed : Nat) (next : Next) (store : Store) (relocations : Nat) (log : List Event) :
    ArchiverTrial :=
  { t with now := t.now + elapsed, next, store, relocations, log }

/-- How the work on an item ends, and after how long, if the store takes so long to answer. -/
inductive Outcome (t : ArchiverTrial) (r : Nat) : Nat → Ending → Store → Prop
  /-- It ends with a failure that no other comes before. -/
  | fails {failure : Nat × GenerationError} : failure ∈ t.failures →
      (∀ other ∈ t.failures, failure.1 ≤ other.1) →
      (∀ c s compressed signature, t.Succeeds c s compressed signature →
        t.limit < max c s + r ∧ (max c s ≤ t.limit → t.raisedAfter (max c s) = false)) →
      Outcome t r failure.1 (.failed failure.2) t.store
  /-- The flag is raised when both transforms have succeeded. -/
  | aborts {c s : Nat} {compressed signature : Bytes} : t.Succeeds c s compressed signature → max c s ≤ t.limit →
      t.raisedAfter (max c s) = true → Outcome t r (max c s) (.failed .aborted) t.store
  /-- The store answers. -/
  | answers {c s : Nat} {compressed signature : Bytes} : t.Succeeds c s compressed signature →
      max c s + r ≤ t.limit → t.raisedAfter (max c s) = false →
      Outcome t r (max c s + r) (t.verdict compressed signature).1 (t.verdict compressed signature).2

/-- What has come of the transforms after so long: some have succeeded, the last one just now, and the others have not
ended. -/
structure Transformed (t : ArchiverTrial) (results : TransformStage → Option Bytes) (elapsed : Nat) : Prop where
  succeeded : ∀ stage octets, results stage = some octets → ∃ time ≤ elapsed, t.stageEnd stage = (time, .ok octets)
  pending : ∀ stage, results stage = none → elapsed ≤ (t.stageEnd stage).1
  justNow : elapsed = 0 ∨ ∃ stage, (t.stageEnd stage).1 = elapsed
  inTime : elapsed ≤ t.limit

/-- What the work can be after so long. -/
inductive Along (t : ArchiverTrial) (r : Nat) : Next → Nat → Store → Prop
  | unstarted : Along t r (.working .unstarted) 0 t.store
  | transforming {results : TransformStage → Option Bytes} {elapsed : Nat} : t.Transformed results elapsed →
      Along t r (.working (.transforming t.now (results .compress) (results .sign))) elapsed t.store
  /-- The store has not answered, -/
  | asking {c s : Nat} {compressed signature : Bytes} : t.Succeeds c s compressed signature → max c s ≤ t.limit →
      t.raisedAfter (max c s) = false →
      Along t r (.working (.storing t.now (t.now + max c s) (Archiver.recordOf t.request compressed signature) false))
        (max c s) t.store
  /-- or it has. -/
  | answering {c s : Nat} {compressed signature : Bytes} : t.Succeeds c s compressed signature →
      max c s + r ≤ t.limit → t.raisedAfter (max c s) = false →
      Along t r (.working (.storing t.now (t.now + max c s) (Archiver.recordOf t.request compressed signature) true))
        (max c s + r) t.store
  | ended {ending : Ending} {elapsed : Nat} {store : Store} : t.Outcome r elapsed ending store →
      Along t r (.ended ending) elapsed store

/-- How many steps are left at most. -/
def rank : Next → Nat
  | .working .unstarted => 6
  | .working (.transforming _ compressed signature) =>
    3 + (if compressed.isNone then 1 else 0) + (if signature.isNone then 1 else 0)
  | .working (.storing _ _ _ false) => 2
  | .working (.storing _ _ _ true) => 1
  | .ended _ => 0

theorem rank_pos (work : Work) : 0 < rank (.working work) := by
  cases work with
  | unstarted => exact Nat.zero_lt_succ 5
  | transforming start compressed signature =>
    simp only [rank]
    omega
  | storing start asked record answering => cases answering <;> simp [rank]

/-! ## The transforms -/

namespace Transformed

variable {results : TransformStage → Option Bytes} {elapsed time : Nat} {stage : TransformStage}

/-- The transform that ends first succeeds. -/
theorem succeed (h : t.Transformed results elapsed) {octets : Bytes} (waits : results stage = none)
    (ends : t.stageEnd stage = (time, .ok octets))
    (first : ∀ other, results other = none → time ≤ (t.stageEnd other).1) (inTime : time ≤ t.limit) :
    t.Transformed (Function.update results stage (some octets)) time := by
  have later : elapsed ≤ time := by simpa [ends] using h.pending stage waits
  refine ⟨fun other octets' result => ?_, fun other none => ?_, .inr ⟨stage, by rw [ends]⟩, inTime⟩
  · by_cases same : other = stage
    · subst same
      rw [Function.update_self, Option.some.injEq] at result
      exact ⟨time, Nat.le_refl _, result ▸ ends⟩
    · rw [Function.update_of_ne same] at result
      obtain ⟨before, early, ended⟩ := h.succeeded other octets' result
      exact ⟨before, Nat.le_trans early later, ended⟩
  · by_cases same : other = stage
    · simp [same] at none
    · rw [Function.update_of_ne same] at none
      exact first other none

/-- What comes no later than the pending transforms and the item's timeout comes no later than any failure: a transform
that fails has not ended. -/
theorem le_failure (h : t.Transformed results elapsed)
    (first : ∀ other, results other = none → time ≤ (t.stageEnd other).1) (inTime : time ≤ t.limit) :
    ∀ failure ∈ t.failures, time ≤ failure.1 := by
  intro failure member
  rcases mem_failures.1 member with ⟨other, fails⟩ | rfl
  · obtain ⟨cause, ends⟩ := stageEnd_of_failure fails
    have pending : results other = none := by
      refine Option.eq_none_iff_forall_ne_some.2 fun octets result => ?_
      obtain ⟨_, -, ended⟩ := h.succeeded other octets result
      simp [ended] at ends
    simpa [ends] using first other pending
  · exact inTime

/-- The transform that ends first fails. -/
theorem fail (h : t.Transformed results elapsed) {cause : TransformError} (ends : t.stageEnd stage = (time, .error cause))
    (first : ∀ other, results other = none → time ≤ (t.stageEnd other).1) (inTime : time ≤ t.limit) :
    t.Outcome r time (.failed (.ofTransform t.request.transaction.id stage cause)) t.store := by
  have fails : t.stageFailure? stage = some (time, .ofTransform t.request.transaction.id stage cause) := by
    rw [stageFailure?, ends]
  refine .fails (mem_failures.2 (.inl ⟨stage, fails⟩)) (h.le_failure first inTime) fun c s _ _ succeeds => ?_
  rw [succeeds.no_failure stage] at fails
  cases fails

/-- The item's timeout is over before another transform ends. -/
theorem expire (h : t.Transformed results elapsed) (waits : results stage = none)
    (first : ∀ other, results other = none → t.limit < (t.stageEnd other).1) :
    t.Outcome r t.limit (.failed (.itemTimeout t.request.transaction.id t.settings.itemTimeout.millisWord)) t.store := by
  have least := h.le_failure (fun other none => Nat.le_of_lt (first other none)) (Nat.le_refl _)
  refine .fails (mem_failures.2 (.inr rfl)) least fun c s _ _ succeeds => ?_
  have late := first stage waits
  have before : (t.stageEnd stage).1 ≤ max c s := by
    cases stage with
    | compress =>
      rw [succeeds.compress]
      exact Nat.le_max_left c s
    | sign =>
      rw [succeeds.sign]
      exact Nat.le_max_right c s
  exact ⟨by omega, fun _ => by omega⟩

/-- Both transforms have succeeded, the later one just now. -/
theorem both (h : t.Transformed results elapsed) {compressed signature : Bytes}
    (compress : results .compress = some compressed) (sign : results .sign = some signature) :
    ∃ c s, t.Succeeds c s compressed signature ∧ elapsed = max c s := by
  obtain ⟨c, before, compress⟩ := h.succeeded _ _ compress
  obtain ⟨s, before', sign⟩ := h.succeeded _ _ sign
  refine ⟨c, s, ⟨compress, sign⟩, ?_⟩
  rcases h.justNow with now | ⟨stage, now⟩
  · omega
  · cases stage with
    | compress =>
      rw [compress] at now
      omega
    | sign =>
      rw [sign] at now
      omega

end Transformed

/-! ## One step -/

/-- The trial goes on to a place that it can be in, and is nearer to its end. -/
def GoesOn (t : ArchiverTrial) (r : Nat) (u : ArchiverTrial) : Prop :=
  ∃ elapsed next store relocations log, u.advance = some (t.later elapsed next store relocations log) ∧
    t.Along r next elapsed store ∧ rank next < rank u.next

/-- Work that waits gets what comes first. -/
theorem advance_of_first (elapsed : Nat) (store : Store) (n : Nat) (log : List Event) {time : Nat} {work : Work}
    {due : Due Archiver.Signal} {effect : Effect} (waits : work.isWaiting = true)
    (first : Due.first (t.scripts.itemDues t.settings t.bounded t.request work) = some due)
    (comes : due.time = t.now + time) (received : Archiver.receive t.settings t.request work due.what = some effect) :
    (t.later elapsed (.working work) store n log).advance =
      some (t.later (max elapsed time) effect.next store n (log ++ effect.log)) := by
  have stuck : Archiver.advance store (t.now + elapsed) (t.later elapsed (.working work) store n log).raised true
      t.request work = none := by
    unfold Work.isWaiting at waits
    unfold Archiver.advance
    split <;> simp_all
  unfold advance wake later at *
  simp only [stuck, first, received, Option.bind_eq_bind, Option.bind_some, Option.pure_def, apply, comes,
    Nat.add_max_add_left]

/-- The results when one more transform has succeeded. -/
theorem receive_ok {results : TransformStage → Option Bytes} {stage : TransformStage} {start : Nat} {octets : Bytes}
    (pending : results stage = none) :
    Archiver.receive t.settings t.request (.transforming start (results .compress) (results .sign))
        (.answer stage (.ok octets)) =
      some ⟨.working (.transforming start (Function.update results stage (some octets) .compress)
        (Function.update results stage (some octets) .sign)), []⟩ := by
  cases stage <;> simp [Archiver.receive, Archiver.answer, pending]

theorem receive_error {results : TransformStage → Option Bytes} {stage : TransformStage} {start : Nat}
    {cause : TransformError} (pending : results stage = none) :
    Archiver.receive t.settings t.request (.transforming start (results .compress) (results .sign))
        (.answer stage (.error cause)) =
      some (.fail (.ofTransform t.request.transaction.id stage cause)
        [.transformFailed t.request.transaction.id stage cause]) := by
  cases stage <;> simp [Archiver.receive, Archiver.answer, pending]

/-- What can come to work that waits for transforms: their ends, and the item's timeout. -/
theorem mem_itemDues (results : TransformStage → Option Bytes) {due : Due Archiver.Signal} (bounded : t.bounded = true) :
    due ∈ t.scripts.itemDues t.settings t.bounded t.request
        (.transforming t.now (results .compress) (results .sign)) ↔
      (∃ stage, results stage = none ∧
        due = t.scripts.transformDue t.settings t.request.transaction.payload t.now stage) ∨
      due = ⟨t.now + t.limit, 2, .expire⟩ := by
  have one (stage : TransformStage) (d : Due Archiver.Signal) :
      due ∈ (if (results stage).isNone = true then [d] else []) ↔ results stage = none ∧ due = d := by
    cases results stage <;> simp
  simp only [Scripts.itemDues, bounded, if_true, List.mem_append, one, List.mem_singleton]
  refine or_congr_left ⟨?_, ?_⟩
  · rintro (is | is)
    · exact ⟨_, is⟩
    · exact ⟨_, is⟩
  · rintro ⟨stage, is⟩
    cases stage with
    | compress => exact .inl is
    | sign => exact .inr is

/-- The item's timeout ends what waits. -/
theorem receive_expire {work : Work} (waits : work.isWaiting = true) :
    Archiver.receive t.settings t.request work .expire =
      some (.fail (.itemTimeout t.request.transaction.id t.settings.itemTimeout.millisWord)
        [.itemTimedOut t.request.transaction.id t.settings.itemTimeout]) := by
  simp [Archiver.receive, waits]

/-- While a transform has not ended, the next thing is that one ends or that the item's timeout is over. -/
theorem goesOn_of_pending {results : TransformStage → Option Bytes} {elapsed n : Nat} {log : List Event}
    {stage : TransformStage} (bounded : t.bounded = true) (calm : t.Calm) (h : t.Transformed results elapsed)
    (waits : results stage = none) : t.GoesOn r
      (t.later elapsed (.working (.transforming t.now (results .compress) (results .sign))) t.store n log) := by
  have waiting : (Work.transforming t.now (results .compress) (results .sign)).isWaiting = true := by
    cases stage <;> simp [Work.isWaiting, waits]
  have expires := (mem_itemDues results bounded).2 (.inr rfl)
  obtain ⟨due, member, found, least⟩ := Due.first_spec (List.ne_nil_of_mem expires)
  rcases (mem_itemDues results bounded).1 member with ⟨first, pending, rfl⟩ | rfl
  · -- the end of a transform
    obtain ⟨rank', low, due⟩ := exists_transformDue calm first
    rw [due] at found least
    have early (other : TransformStage) (none : results other = none) :
        (t.stageEnd first).1 ≤ (t.stageEnd other).1 := by
      obtain ⟨_, -, due'⟩ := exists_transformDue calm other
      have precedes := least _ ((mem_itemDues results bounded).2 (.inl ⟨other, none, rfl⟩))
      rw [due'] at precedes
      simp only [Due.Precedes] at precedes
      omega
    have inTime : (t.stageEnd first).1 ≤ t.limit := by
      have precedes := least _ expires
      simp only [Due.Precedes] at precedes
      omega
    have after := h.pending first pending
    rcases ends : t.stageEnd first with ⟨time, result⟩
    rw [ends] at found early inTime after
    have now : max elapsed time = time := Nat.max_eq_right after
    cases result with
    | ok octets =>
      have step := advance_of_first elapsed t.store n log waiting found rfl
        (receive_ok pending)
      rw [now] at step
      refine ⟨_, _, _, _, _, step, .transforming (h.succeed pending ends early inTime), ?_⟩
      cases first <;> simp [rank, later, pending]
    | error cause =>
      have step := advance_of_first elapsed t.store n log waiting found rfl
        (receive_error pending)
      rw [now] at step
      exact ⟨_, _, _, _, _, step, .ended (h.fail ends early inTime), rank_pos _⟩
  · -- the timeout
    have late (other : TransformStage) (none : results other = none) : t.limit < (t.stageEnd other).1 := by
      obtain ⟨rank', low, due'⟩ := exists_transformDue calm other
      have precedes := least _ ((mem_itemDues results bounded).2 (.inl ⟨other, none, rfl⟩))
      rw [due'] at precedes
      simp only [Due.Precedes] at precedes
      omega
    have step := advance_of_first elapsed t.store n log waiting found rfl
      (receive_expire waiting)
    rw [Nat.max_eq_right h.inTime] at step
    exact ⟨_, _, _, _, _, step, .ended (h.expire waits late), rank_pos _⟩

/-- With all transforms done, the flag decides. -/
theorem goesOn_of_both {results : TransformStage → Option Bytes} {elapsed n : Nat} {log : List Event}
    {compressed signature : Bytes} (h : t.Transformed results elapsed) (compress : results .compress = some compressed)
    (sign : results .sign = some signature) : t.GoesOn r
      (t.later elapsed (.working (.transforming t.now (results .compress) (results .sign))) t.store n log) := by
  obtain ⟨c, s, succeeds, rfl⟩ := h.both compress sign
  rw [compress, sign]
  let effect := Archiver.submit (t.now + max c s) (t.raisedAfter (max c s)) true t.request t.now compressed signature
  have step : (t.later (max c s) (.working (.transforming t.now (some compressed) (some signature))) t.store n
      log).advance = some (t.later (max c s) effect.next t.store (if effect.submits then n + 1 else n)
        (log ++ effect.log)) := rfl
  refine ⟨_, _, _, _, _, step, ?_⟩
  unfold effect Archiver.submit
  cases raised : t.raisedAfter (max c s) with
  | true => exact ⟨.ended (.aborts succeeds h.inTime raised), rank_pos _⟩
  | false => exact ⟨.asking succeeds h.inTime raised, by simp [rank, later]⟩

/-! ## The store -/

/-- When both transforms succeed, only the item's timeout can come before the store's answer. -/
theorem Succeeds.failures_eq {c s : Nat} {compressed signature : Bytes} (h : t.Succeeds c s compressed signature) :
    t.failures = [(t.limit, .itemTimeout t.request.transaction.id t.settings.itemTimeout.millisWord)] := by
  simp [failures, h.no_failure]

/-- While the store has not answered, the next thing is that it answers or that the item's timeout is over. -/
theorem goesOn_of_asking {c s n : Nat} {compressed signature : Bytes} {log : List Event} (bounded : t.bounded = true)
    (answers : t.scripts.store.reactRelocate t.request.transaction.id = (r, .pass))
    (succeeds : t.Succeeds c s compressed signature) (inTime : max c s ≤ t.limit)
    (quiet : t.raisedAfter (max c s) = false) : t.GoesOn r (t.later (max c s) (.working (.storing t.now (t.now + max c s)
      (Archiver.recordOf t.request compressed signature) false)) t.store n log) := by
  let answer : Due Archiver.Signal := ⟨t.now + (max c s + r), 0, .proceed⟩
  let timeout : Due Archiver.Signal := ⟨t.now + t.limit, 2, .expire⟩
  have dues : t.scripts.itemDues t.settings t.bounded t.request (.storing t.now (t.now + max c s)
      (Archiver.recordOf t.request compressed signature) false) = [answer, timeout] := by
    simp [Scripts.itemDues, answers, bounded, limit, Nat.add_assoc, answer, timeout]
  obtain ⟨due, member, found, least⟩ := Due.first_spec (List.cons_ne_nil answer [timeout])
  rw [← dues] at found
  obtain rfl | rfl : due = answer ∨ due = timeout := by simpa using member
  · have precedes := least timeout (by simp)
    simp only [Due.Precedes, answer, timeout] at precedes
    have step := advance_of_first (max c s) t.store n log rfl found rfl rfl
    rw [Nat.max_eq_right (Nat.le_add_right _ r)] at step
    exact ⟨_, _, _, _, _, step, .answering succeeds (by omega) quiet, by simp [rank, later]⟩
  · have precedes := least answer (by simp)
    simp only [Due.Precedes, answer, timeout] at precedes
    have step := advance_of_first (max c s) t.store n log rfl found rfl
      (receive_expire rfl)
    rw [Nat.max_eq_right inTime] at step
    refine ⟨_, _, _, _, _, step, .ended (.fails (mem_failures.2 (.inr rfl)) ?_ fun c' s' _ _ succeeds' => ?_), rank_pos _⟩
    · simp [succeeds.failures_eq]
    · obtain ⟨rfl, rfl, -, -⟩ := succeeds.unique succeeds'
      exact ⟨by omega, fun _ => quiet⟩

/-- When the store answers, its verdict ends the work. -/
theorem goesOn_of_answering {c s n : Nat} {compressed signature : Bytes} {log : List Event}
    (succeeds : t.Succeeds c s compressed signature) (inTime : max c s + r ≤ t.limit)
    (quiet : t.raisedAfter (max c s) = false) : t.GoesOn r (t.later (max c s + r) (.working (.storing t.now
      (t.now + max c s) (Archiver.recordOf t.request compressed signature) true)) t.store n log) := by
  have ends : ∃ said, Archiver.relocate t.store t.request (Archiver.recordOf t.request compressed signature) =
      ((t.verdict compressed signature).2, ⟨.ended (t.verdict compressed signature).1, said⟩) := by
    unfold Archiver.relocate verdict
    dsimp only
    cases t.store.relocate (Archiver.recordOf t.request compressed signature) t.request.transaction.id <;> exact ⟨_, rfl⟩
  obtain ⟨said, ends⟩ := ends
  have step : (t.later (max c s + r) (.working (.storing t.now (t.now + max c s)
      (Archiver.recordOf t.request compressed signature) true)) t.store n log).advance =
      some (t.later (max c s + r) (.ended (t.verdict compressed signature).1) (t.verdict compressed signature).2 n
        (log ++ said)) := by
    simp [advance, later, Archiver.advance, ends, apply, Effect.submits]
  exact ⟨_, _, _, _, _, step, .ended (.answers succeeds inTime quiet), rank_pos _⟩

/-! ## From the begin to the end -/

/-- Wherever a trial can stand, its work has ended or it goes on. -/
theorem Along.goesOn {elapsed : Nat} {next : Next} {store : Store} (n : Nat) (log : List Event) (h : t.Along r next elapsed store)
    (bounded : t.bounded = true) (calm : t.Calm)
    (answers : t.scripts.store.reactRelocate t.request.transaction.id = (r, .pass)) :
    (∃ ending, next = .ended ending) ∨ t.GoesOn r (t.later elapsed next store n log) := by
  cases h with
  | unstarted =>
    have none : t.Transformed (fun _ => none) 0 := ⟨nofun, fun _ _ => Nat.zero_le _, .inl rfl, Nat.zero_le _⟩
    exact .inr ⟨0, _, t.store, n, _, rfl, .transforming none, Nat.lt_succ_self 5⟩
  | @transforming results elapsed h =>
    refine .inr ?_
    rcases Option.eq_none_or_eq_some (results .compress) with compress | ⟨compressed, compress⟩
    · exact goesOn_of_pending bounded calm h compress
    rcases Option.eq_none_or_eq_some (results .sign) with sign | ⟨signature, sign⟩
    · exact goesOn_of_pending bounded calm h sign
    · exact goesOn_of_both h compress sign
  | asking succeeds inTime quiet => exact .inr (goesOn_of_asking bounded answers succeeds inTime quiet)
  | answering succeeds inTime quiet => exact .inr (goesOn_of_answering succeeds inTime quiet)
  | ended => exact .inl ⟨_, rfl⟩

/-- The work comes to its end, in one of the listed ways. -/
theorem exists_outcome (fresh : t.next = .working .unstarted) (bounded : t.bounded = true) (calm : t.Calm)
    (answers : t.scripts.store.reactRelocate t.request.transaction.id = (r, .pass)) :
    ∃ elapsed ending, t.run.now = t.now + elapsed ∧ t.run.next = .ended ending ∧
      t.Outcome r elapsed ending t.run.store := by
  let Stands (u : ArchiverTrial) : Prop :=
    ∃ elapsed next store n log, u = t.later elapsed next store n log ∧ t.Along r next elapsed store
  have start : Stands t := by
    refine ⟨0, _, t.store, t.relocations, t.log, ?_, .unstarted⟩
    rw [later, ← fresh, Nat.add_zero]
  have lowers (u v : ArchiverTrial) (stands : Stands u) (step : u.advance = some v) :
      Stands v ∧ rank v.next < rank u.next := by
    obtain ⟨elapsed, next, store, n, log, rfl, along⟩ := stands
    rcases along.goesOn n log bounded calm answers with ⟨ending, rfl⟩ | ⟨_, _, _, _, _, step', along', lower⟩
    · cases step
    · rw [step', Option.some.injEq] at step
      subst step
      exact ⟨⟨_, _, _, _, _, rfl, along'⟩, lower⟩
  have enough : rank t.next ≤ 6 := by
    rw [fresh]
    exact Nat.le_refl 6
  obtain ⟨⟨elapsed, next, store, n, log, stands, along⟩, rests⟩ :=
    rests_settle (fun u => rank u.next) lowers start enough
  have ended : ∃ ending, next = .ended ending := by
    rcases along.goesOn n log bounded calm answers with ended | ⟨_, _, _, _, _, step, -⟩
    · exact ended
    · rw [stands, step] at rests
      cases rests
  obtain ⟨ending, rfl⟩ := ended
  rw [run, stands]
  cases along with
  | ended outcome => exact ⟨elapsed, ending, rfl, rfl, outcome⟩

end ArchiverTrial
end ChainArchive.Trial
