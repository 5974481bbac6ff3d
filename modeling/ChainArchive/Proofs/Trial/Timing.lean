import ChainArchive.Proofs.Trial.Outcome
import Mathlib.Data.List.Nodup

/-!
# When the work on an item ends

Under a virtual clock it can be told in advance when the work on an item ends and
how. The first failure ends it, be it of a transform or of the item's timeout. If
both transforms succeed, the work goes on when the later of them has ended: to the
store, unless the flag is raised by then, and to the store's answer, unless the
item's timeout is over before.
-/

namespace ChainArchive.Trial
set_option autoImplicit false

open Pipeline (Ending)

namespace ArchiverTrial

variable {t : ArchiverTrial} {r : Nat}

/-- The trial comes to its end after so long, in this way and with this store. -/
structure Ends (t : ArchiverTrial) (elapsed : Nat) (ending : Ending) (store : Store) : Prop where
  now : t.run.now = t.now + elapsed
  next : t.run.next = .ended ending
  store : t.run.store = store

/-- The failures come at different moments, so that one of them is the first. -/
def Distinct (t : ArchiverTrial) : Prop := (t.failures.map (·.1)).Nodup

theorem Distinct.eq (h : t.Distinct) {failure failure' : Nat × GenerationError} (member : failure ∈ t.failures)
    (member' : failure' ∈ t.failures) (same : failure.1 = failure'.1) : failure = failure' :=
  List.inj_on_of_nodup_map h member member' same

/-- When both transforms succeed, there is only one failure. -/
theorem Succeeds.distinct {c s : Nat} {compressed signature : Bytes} (h : t.Succeeds c s compressed signature) :
    t.Distinct := by
  rw [Distinct, h.failures_eq]
  exact List.nodup_singleton _

/-- Both transforms succeed, or one of them fails. -/
theorem succeeds_or_fails (t : ArchiverTrial) : (∃ c s compressed signature, t.Succeeds c s compressed signature) ∨
    ∃ stage failure, t.stageFailure? stage = some failure ∧ failure.1 = (t.stageEnd stage).1 := by
  rcases compress : t.stageEnd .compress with ⟨c, cause | compressed⟩
  · exact .inr ⟨.compress, _, by rw [stageFailure?, compress], by rw [compress]⟩
  rcases sign : t.stageEnd .sign with ⟨s, cause | signature⟩
  · exact .inr ⟨.sign, _, by rw [stageFailure?, sign], by rw [sign]⟩
  · exact .inl ⟨c, s, compressed, signature, compress, sign⟩

/-- An end comes no later than the item's timeout, and no later than the store's answer when the later one of the
transforms has ended. -/
theorem Outcome.elapsed_le {elapsed : Nat} {ending : Ending} {store : Store} (h : t.Outcome r elapsed ending store) :
    elapsed ≤ t.limit ∧ elapsed ≤ max (t.stageEnd .compress).1 (t.stageEnd .sign).1 + r := by
  cases h with
  | @fails failure member least late =>
    have inTime := least _ (mem_failures.2 (.inr rfl))
    refine ⟨inTime, ?_⟩
    rcases t.succeeds_or_fails with ⟨c, s, _, _, succeeds⟩ | ⟨stage, other, fails, time⟩
    · have := (late c s _ _ succeeds).1
      rw [succeeds.compress, succeeds.sign]
      omega
    · have before := least other (mem_failures.2 (.inl ⟨stage, fails⟩))
      rw [time] at before
      cases stage <;> omega
  | aborts succeeds inTime =>
    rw [succeeds.compress, succeeds.sign]
    exact ⟨inTime, Nat.le_add_right _ r⟩
  | answers succeeds inTime =>
    rw [succeeds.compress, succeeds.sign]
    exact ⟨inTime, Nat.le_refl _⟩

/-- The timing of an item whose transforms do not panic, over a store that takes `r` to answer. The work ends with the
first failure, unless both transforms succeed in time and the flag is raised by then, or the store's answer comes before
too. If the flag is raised when both have succeeded, the work ends there, and else with the store's verdict, `r` later.
It never lasts longer than the item's timeout, nor longer than the slower one of the transforms and the store. -/
theorem timing_law (fresh : t.next = .working .unstarted) (bounded : t.bounded = true) (calm : t.Calm)
    (answers : t.scripts.store.reactRelocate t.request.transaction.id = (r, .pass)) (distinct : t.Distinct) :
    (∀ failure ∈ t.failures, (∀ other ∈ t.failures, failure.1 ≤ other.1) →
      (∀ c s compressed signature, t.Succeeds c s compressed signature →
        t.limit < max c s + r ∧ (max c s ≤ t.limit → t.raisedAfter (max c s) = false)) →
      t.Ends failure.1 (.failed failure.2) t.store) ∧
    (∀ c s compressed signature, t.Succeeds c s compressed signature →
      (max c s ≤ t.limit → t.raisedAfter (max c s) = true → t.Ends (max c s) (.failed .aborted) t.store) ∧
      (max c s + r ≤ t.limit → t.raisedAfter (max c s) = false →
        t.Ends (max c s + r) (t.verdict compressed signature).1 (t.verdict compressed signature).2)) ∧
    t.run.now ≤ t.now + t.limit ∧
    t.run.now ≤ t.now + (max (t.stageEnd .compress).1 (t.stageEnd .sign).1 + r) := by
  obtain ⟨elapsed, ending, now, next, outcome⟩ := exists_outcome fresh bounded calm answers
  have ends : t.Ends elapsed ending t.run.store := ⟨now, next, rfl⟩
  obtain ⟨inTime, overlap⟩ := outcome.elapsed_le
  refine ⟨fun failure member least undecided => ?_, fun c s compressed signature succeeds => ⟨fun early raised => ?_,
    fun early quiet => ?_⟩, by omega, by omega⟩
  · generalize t.run.store = store at outcome ends
    cases outcome with
    | @fails failure' member' least' =>
      obtain rfl := distinct.eq member member' (Nat.le_antisymm (least _ member') (least' _ member))
      exact ends
    | aborts succeeds early raised =>
      obtain ⟨-, quiet⟩ := undecided _ _ _ _ succeeds
      rw [quiet early] at raised
      cases raised
    | answers succeeds early =>
      obtain ⟨late, -⟩ := undecided _ _ _ _ succeeds
      omega
  · generalize t.run.store = store at outcome ends
    cases outcome with
    | fails _ _ late =>
      rw [(late _ _ _ _ succeeds).2 early] at raised
      cases raised
    | aborts succeeds' =>
      obtain ⟨rfl, rfl, -, -⟩ := succeeds.unique succeeds'
      exact ends
    | answers succeeds' _ quiet =>
      obtain ⟨rfl, rfl, -, -⟩ := succeeds.unique succeeds'
      rw [quiet] at raised
      cases raised
  · generalize t.run.store = store at outcome ends
    cases outcome with
    | fails _ _ late =>
      have := (late _ _ _ _ succeeds).1
      omega
    | aborts succeeds' _ raised =>
      obtain ⟨rfl, rfl, -, -⟩ := succeeds.unique succeeds'
      rw [quiet] at raised
      cases raised
    | answers succeeds' =>
      obtain ⟨rfl, rfl, rfl, rfl⟩ := succeeds.unique succeeds'
      exact ends

/-- The record of an example. -/
def exampleRecord : Transaction := ⟨⟨"item", by decide⟩, none, [1]⟩

/-- A trial over a store that holds only its record. -/
def exampleTrial (settings : GenerationSettings) (raiseAt : Option Nat) (compressor : List TransformRule)
    (relocate : List StoreRule) : ArchiverTrial where
  settings := settings
  scripts := ⟨.compressor compressor, .signer [], ⟨[], relocate⟩⟩
  request := ⟨.ofRandom [], 1, exampleRecord⟩
  bounded := true
  raiseAt := raiseAt
  store := .ofList 10 [exampleRecord]

/-- The compressor never answers. -/
def stalledTrial : ArchiverTrial :=
  exampleTrial { compressTimeout := .ofMillis 20, itemTimeout := .ofMillis 30 } none [⟨none, none, .stall⟩] []

/-- The transforms take 3 and 2, the flag is raised from the begin, and the store would answer only after the item's
timeout. -/
def hurriedTrial : ArchiverTrial := exampleTrial { itemTimeout := .ofMillis 10 } (some 0) [] [⟨none, some 20, .pass⟩]

theorem hurried_calm : hurriedTrial.Calm := by
  intro stage
  cases stage <;> exact nofun

theorem hurried_succeeds : ∃ compressed signature, hurriedTrial.Succeeds 3 2 compressed signature := ⟨_, _, rfl, rfl⟩

theorem timing_law_example :
    stalledTrial.Ends 20 (.failed (.transformTimeout exampleRecord.id .compress 20)) stalledTrial.store ∧
      hurriedTrial.Ends 3 (.failed .aborted) hurriedTrial.store := by
  refine ⟨?_, ?_⟩
  · have failures : stalledTrial.failures = [(20, .transformTimeout exampleRecord.id .compress 20),
        (30, .itemTimeout exampleRecord.id 30)] := rfl
    have calm : stalledTrial.Calm := by
      intro stage
      cases stage <;> exact nofun
    have distinct : stalledTrial.Distinct := by
      rw [Distinct, failures]
      decide
    refine (timing_law rfl rfl calm rfl distinct).1 (20, _) ?_ ?_ fun c s _ _ succeeds => ?_
    · rw [failures]
      exact List.mem_cons_self
    · rw [failures]
      simp
    · cases succeeds.compress
  · obtain ⟨compressed, signature, succeeds⟩ := hurried_succeeds
    exact ((timing_law rfl rfl hurried_calm rfl succeeds.distinct).2.1 3 2 _ _ succeeds).1 (by decide) (by decide)

/-- It is not so that the item's timeout ends the work whenever it comes before the store's answer: the flag may be
raised when the transforms have succeeded, and that is earlier. -/
theorem flag_overtakes_timeout : ¬ ∀ (t : ArchiverTrial) (r : Nat), t.next = .working .unstarted → t.bounded = true →
    t.Calm → t.scripts.store.reactRelocate t.request.transaction.id = (r, .pass) → t.Distinct →
    (∀ stage, 0 < (Archiver.stageTimeout t.settings stage).ticks) → 0 < t.limit →
    ∀ failure ∈ t.failures, (∀ other ∈ t.failures, failure.1 ≤ other.1) →
      (∀ c s compressed signature, t.Succeeds c s compressed signature → failure.1 < max c s + r) →
      t.Ends failure.1 (.failed failure.2) t.store := by
  intro law
  obtain ⟨compressed, signature, succeeds⟩ := hurried_succeeds
  have positive (stage : TransformStage) : 0 < (Archiver.stageTimeout hurriedTrial.settings stage).ticks := by
    cases stage <;> decide
  have ends := law hurriedTrial 20 rfl rfl hurried_calm rfl succeeds.distinct positive (by decide) _
    (mem_failures.2 (.inr rfl)) (by simp [succeeds.failures_eq]) fun c s _ _ succeeds' => by
      obtain ⟨rfl, rfl, -, -⟩ := succeeds.unique succeeds'
      decide
  have now : hurriedTrial.run.now = 3 := by decide +kernel
  rw [ends.now] at now
  cases now

end ArchiverTrial
end ChainArchive.Trial
