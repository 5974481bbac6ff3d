import ChainArchive.Proofs.Run.Causes
import ChainArchive.Proofs.World.Statement

/-!
# Failures that runs answer

Every run of a world stays accountable, whatever the other runs do. So a run
answers root causes only, and none of the failures that pass between its walker,
its pipeline and its items.
-/

namespace ChainArchive
set_option autoImplicit false

open Archiver (Work)

namespace Run

variable {store : Store} {now : Nat} {gated : Bool} {r r' : Run}

/-- The run has taken a step, alone or with the store. -/
inductive Goes (r r' : Run) : Prop
  | alone {outputs : Transforms} {store : Store} {now : Nat} {gated : Bool} :
      r.Step outputs store now gated r' → Goes r r'
  | stored {store after : Store} {item : Nat} {request : ArchivalRequest} {record : ArchivedTransaction} :
      r.Relocates store item request record after r' → Goes r r'

theorem Walks.settings (step : Walks store now gated r r') : r'.settings = r.settings := by
  cases step with
  | @ends outcome result => cases h : outcome.result result <;> simp [finish, goTo, say]
  | _ => rfl

theorem Goes.settings (step : r.Goes r') : r'.settings = r.settings := by
  cases step with
  | alone step =>
    cases step with
    | walk walked => exact (walks_of_walk walked).settings
    | inner step => exact step.settings
    | proceed | refuse | drop => rfl
  | stored step => exact step.inner.settings

/-- What a step of a run does to its pipeline is a step of the pipeline, if it is anything. -/
theorem Goes.pipeline (step : r.Goes r') (sound : r.Sound) : r'.pipeline = r.pipeline ∨
    ∃ action, Pipeline.Moves (fun _ => .unstarted) r.pipeline action r'.pipeline := by
  cases step with
  | alone step => exact (step.pipeline sound).2.imp_right fun ⟨action, _, moves⟩ => ⟨action, moves⟩
  | stored step => exact .inr ⟨_, step.inner.moves⟩

theorem Accountable.goes (h : r.Accountable) (sound : r.Sound) (step : r.Goes r') : r'.Accountable := by
  cases step with
  | alone step => exact h.step sound step
  | stored step => exact h.inner sound.coherent step.inner (by simp)

theorem settings_begin {settings : GenerationSettings} {statement : StatementId} {last : TransactionId}
    (h : Run.begin settings statement last = .ok r) : r.settings = settings := by
  unfold Run.begin Pipeline.start at h
  split at h <;> cases h
  rfl

/-- What a run has answered instead of a receipt is a root cause. -/
theorem Accountable.root_of_failed (h : r.Accountable) {e : GenerationError} (failed : r.result? = some (.error e)) :
    r.RootCause e := by
  have explained := h.explained
  simpa only [Explained, walker_of_result failed] using explained

end Run

namespace World

/-- All runs are accountable. -/
def Accountable (w : World) : Prop := ∀ (k : Nat) (r : Run), w.runs[k]? = some r → r.Accountable

variable {outputs : Transforms} {w v : World} {action : Action}

/-- What a step of the world is for its runs: each stays, takes a step or begins. -/
theorem Change.origin (change : Change outputs w action v) {k : Nat} {r' : Run} (found : v.runs[k]? = some r') :
    (∃ r, w.runs[k]? = some r ∧ (r' = r ∨ r.Goes r')) ∨
      (k = w.runs.length ∧ ∃ settings statement last, Run.begin settings statement last = .ok r') := by
  cases change with
  | run there step =>
    rcases runs_setRun there found with ⟨rfl, rfl⟩ | ⟨-, before⟩
    · exact .inl ⟨_, there, .inr (.alone step)⟩
    · exact .inl ⟨r', before, .inl rfl⟩
  | relocated there _ step =>
    rcases runs_setRun there found with ⟨rfl, rfl⟩ | ⟨-, before⟩
    · exact .inl ⟨_, there, .inr (.stored step)⟩
    · exact .inl ⟨r', before, .inl rfl⟩
  | begun begun =>
    rcases runs_append found with before | ⟨last, rfl⟩
    · exact .inl ⟨r', before, .inl rfl⟩
    · exact .inr ⟨last, _, _, _, begun⟩
  | inserted | moved | ticked => exact .inl ⟨r', found, .inl rfl⟩

/-- No run is removed. -/
theorem Change.length_le (change : Change outputs w action v) : w.runs.length ≤ v.runs.length := by
  cases change <;> simp [setRun]

theorem Accountable.change (h : w.Accountable) (sound : w.Sound outputs) (change : Change outputs w action v) :
    v.Accountable := by
  intro k r' found
  obtain ⟨r, before, rfl | goes⟩ | ⟨-, settings, statement, last, begun⟩ := change.origin found
  · exact h k _ before
  · exact (h k r before).goes (sound k r before).1 goes
  · exact .begin begun

/-- Every possible step is one of the listed ones, when transforms may answer anything. -/
theorem Sound.change_of_any_step (h : w.Sound fun _ _ _ => True) (step : w.step action = some v) :
    Change (fun _ _ _ => True) w action v := by
  refine h.change_of_step step ?_
  unfold Answers
  split <;> simp

/-- What every world that began without runs keeps true of the failures of its runs. -/
theorem accountable_reachable (idle : w.runs = []) (reach : Reachable (Steps World.step) w v) :
    v.Sound (fun _ _ _ => True) ∧ v.Accountable := by
  refine reach.invariant (P := fun v => v.Sound (fun _ _ _ => True) ∧ v.Accountable)
    ⟨.start idle, fun k r found => by simp [idle] at found⟩ ?_
  rintro s action t ⟨sound, accountable⟩ step
  have change := sound.change_of_any_step step
  exact ⟨sound.change change, accountable.change sound change⟩

/-- A run stays, and keeps what its own steps keep. -/
theorem run_reachable {P : Run → Prop} {k : Nat} {r : Run} (sound : w.Sound fun _ _ _ => True)
    (accountable : w.Accountable) (found : w.runs[k]? = some r) (h : P r)
    (keep : ∀ r r', r.Sound → r.Accountable → r.Goes r' → P r → P r') (reach : Reachable (Steps World.step) w v) :
    ∃ r', v.runs[k]? = some r' ∧ r'.Sound ∧ r'.Accountable ∧ P r' := by
  have kept : v.Sound (fun _ _ _ => True) ∧ v.Accountable ∧ k < v.runs.length ∧ ∀ r', v.runs[k]? = some r' → P r' := by
    refine reach.invariant (P := fun v => v.Sound (fun _ _ _ => True) ∧ v.Accountable ∧ k < v.runs.length ∧
      ∀ r', v.runs[k]? = some r' → P r') ⟨sound, accountable, (List.getElem?_eq_some_iff.1 found).1, ?_⟩ ?_
    · intro r' found'
      rw [← Option.some.inj (found.symm.trans found')]
      exact h
    · rintro s action t ⟨sound, accountable, inside, h⟩ step
      have change := sound.change_of_any_step step
      refine ⟨sound.change change, accountable.change sound change, Nat.lt_of_lt_of_le inside change.length_le, ?_⟩
      intro r' found'
      obtain ⟨r, before, rfl | goes⟩ | ⟨beyond, -⟩ := change.origin found'
      · exact h _ before
      · exact keep r r' (sound k r before).1 (accountable k r before) goes (h r before)
      · exact absurd inside (by simp [beyond])
  obtain ⟨sound, accountable, inside, h⟩ := kept
  have found' := List.getElem?_eq_getElem inside
  exact ⟨_, found', (sound k _ found').1, accountable k _ found', h _ found'⟩

/-- Only root causes escape: with settings that fit the store a run can always be begun, and whatever happens then, what
it answers instead of a receipt is its walk's own failure, a failure that one of its items has come to by its own
transform, timeout or relocation, or a panic. It is never that the run was aborted, the pipeline closed or the settings
invalid. -/
theorem failure_is_root_cause {w₀ w₁ : World} {settings : GenerationSettings} {capacity : Nat} {statement : StatementId}
    {last : TransactionId} (valid : settings.validate capacity = .ok ()) (idle : w₀.runs = [])
    (before : Reachable (Steps World.step) w₀ w₁) :
    ∃ w₂, w₁.step (.begin settings statement last) = some w₂ ∧
      ∀ w₃, Reachable (Steps World.step) w₂ w₃ → ∃ r, w₃.runs[w₁.runs.length]? = some r ∧ r.settings = settings ∧
        ∀ e, r.result? = some (.error e) →
          r.RootCause e ∧ e ≠ .aborted ∧ e ≠ .pipelineClosed ∧ ∀ reason, e ≠ .config reason := by
  have some_parallelism : settings.parallelism ≠ 0 := by
    rintro none
    simp [GenerationSettings.validate, none] at valid
  obtain ⟨r₂, begun⟩ : ∃ r, Run.begin settings statement last = .ok r :=
    ⟨_, by rw [Run.begin, Pipeline.start, if_neg some_parallelism]; rfl⟩
  have step : w₁.step (.begin settings statement last) = some { w₁ with runs := w₁.runs ++ [r₂] } := by
    simp only [World.step, begun]
  refine ⟨_, step, fun w₃ after => ?_⟩
  obtain ⟨sound, accountable⟩ := accountable_reachable idle (before.tail step)
  obtain ⟨r, found, -, accountable, same⟩ := run_reachable (P := fun r => r.settings = settings) sound accountable
    (k := w₁.runs.length) (r := r₂) (by simp) (Run.settings_begin begun)
    (fun r r' _ _ goes same => goes.settings.trans same) after
  refine ⟨r, found, same, fun e failed => ?_⟩
  have root := accountable.root_of_failed failed
  exact ⟨root, root.escapes⟩

/-- A run over `exampleWorld` fails: while both items are under way the signer refuses the first one, which tells the
other one to stop. -/
def failingActions : List Action :=
  let walks (steps : Nat) : List Action := List.replicate steps (.go (.walker 0))
  let drives (steps : Nat) : List Action := List.replicate steps (.go (.driver 0))
  let works (item steps : Nat) : List Action := List.replicate steps (.go (.item 0 item))
  walks 16 ++ [Action.wake 0] ++ drives 7 ++ works 0 1 ++ works 1 1 ++
    [Action.signal 0 1 (.answer .sign (.ok [2])), .signal 0 1 (.answer .compress (.ok [2, 1])),
      .signal 0 0 (.answer .sign (.error (.failed "no key")))] ++
    works 0 3 ++ works 1 7 ++ works 0 3 ++ drives 9 ++ walks 1

theorem failure_is_root_cause_example : ∃ (w₂ w₃ : World) (r : Run) (e : GenerationError),
    exampleWorld.step (.begin {} exampleStatement exampleTail) = some w₂ ∧ Reachable (Steps World.step) w₂ w₃ ∧
    w₃.runs[0]? = some r ∧ r.pipeline.phase? 1 = some (.over (.failed .aborted)) ∧ r.result? = some (.error e) ∧
    e = .transformFailure exampleTail .sign "no key" ∧ r.RootCause e := by
  obtain ⟨w₂, begun, escapes⟩ :=
    @failure_is_root_cause exampleWorld exampleWorld {} 10 exampleStatement exampleTail rfl rfl (Reachable.refl _ _)
  have possible : ((exampleWorld.step (.begin {} exampleStatement exampleTail)).bind fun (w₂ : World) =>
      (follow (fun _ _ => true) World.step w₂ failingActions).bind fun (w₃ : World) =>
        (w₃.runs[0]?).bind fun (r : Run) =>
          if r.pipeline.phase? 1 = some (.over (.failed .aborted)) then r.result? else none) =
      some (.error (.transformFailure exampleTail .sign "no key")) := by decide +kernel
  simp only [begun, Option.bind_eq_some_iff, Option.some.injEq, Option.ite_none_right_eq_some] at possible
  obtain ⟨_, rfl, w₃, followed, r, found, aborted, failed⟩ := possible
  have after : Reachable (Steps World.step) w₂ w₃ := (reachable_of_follow followed fun _ _ _ => trivial).of_restricted
  obtain ⟨_, found', -, root⟩ := escapes w₃ after
  cases found.symm.trans found'
  exact ⟨w₂, w₃, r, _, begun, after, found, aborted, failed, rfl, (root _ failed).1⟩

end World
end ChainArchive
