import ChainArchive.Proofs.Deployment.Start
import ChainArchive.Proofs.Pool.Shutdown
import ChainArchive.Proofs.World.Causes

/-!
# What is checked at the start

The settings are checked in front, against the capacity that they name. The
pools, the generator and every pipeline check their part of them again, the
generator against the store itself. These checks agree: settings that pass, over
a store that serves as many items as may be in flight, start everything, and from
then on none of the later checks finds a fault.
-/

namespace ChainArchive
set_option autoImplicit false

theorem Attempt.log_bind_of_error {ε α β : Type} {x : Attempt ε α} {f : α → Attempt ε β} {e : ε}
    (error : x.result = .error e) : (x >>= f).log = x.log := by
  change (x.andThen f).log = _
  simp only [andThen, error]

namespace Deployment

variable {settings : Settings} {store : Store} {keys : Rsa.KeyPair} {d d' : Deployment} {action : Action}

/-- The store of a deployment answers at once, or only when it is told to, and may then fail. -/
def gate (d : Deployment) (gated : Bool) : Deployment := { d with world := { d.world with gated } }

/-- What the later checks look at. -/
structure Checked (settings : Settings) (d : Deployment) : Prop where
  settings_eq : d.settings = settings
  pools_eq : d.pools = settings.pools

namespace Checked

theorem setCompressors (h : d.Checked settings) {b : Pool.Action Bytes Bytes CompressionError}
    {pool : Pool Bytes Bytes CompressionError} (step : d.compression.compressors.step b = some pool) :
    (d.setCompressors pool).Checked settings := by
  have moves := Pool.moves_of_step step
  refine ⟨h.settings_eq, ?_⟩
  rw [← h.pools_eq]
  simp only [pools, Deployment.setCompressors, Pool.name_of_moves moves, Pool.size_of_moves moves]

theorem setSigners (h : d.Checked settings) {b : Pool.Action Bytes Bytes Rsa.SignatureError}
    {pool : Pool Bytes Bytes Rsa.SignatureError} (step : d.signature.signers.step b = some pool) :
    (d.setSigners pool).Checked settings := by
  have moves := Pool.moves_of_step step
  refine ⟨h.settings_eq, ?_⟩
  rw [← h.pools_eq]
  simp only [pools, Deployment.setSigners, Pool.name_of_moves moves, Pool.size_of_moves moves]

/-- Nothing that happens in a deployment changes its settings or the size of a pool. -/
theorem step (h : d.Checked settings) (step : d.step action = some d') : d'.Checked settings := by
  cases action with
  | world action =>
    simp only [Deployment.step, Option.ite_none_right_eq_some, Option.map_eq_some_iff] at step
    obtain ⟨-, world, -, rfl⟩ := step
    exact ⟨h.settings_eq, h.pools_eq⟩
  | compressor action =>
    simp only [Deployment.step, Option.ite_none_right_eq_some, Option.map_eq_some_iff] at step
    obtain ⟨-, pool, step, rfl⟩ := step
    exact h.setCompressors step
  | signer action =>
    simp only [Deployment.step, Option.ite_none_right_eq_some, Option.map_eq_some_iff] at step
    obtain ⟨-, pool, step, rfl⟩ := step
    exact h.setSigners step
  | ask run item stage =>
    simp only [Deployment.step] at step
    split at step
    · cases step
    · obtain ⟨payload, -, asks⟩ := Option.bind_eq_some_iff.1 step
      cases stage with
      | compress =>
        simp only [askFor, Option.map_eq_some_iff] at asks
        obtain ⟨pool, asked, rfl⟩ := asks
        exact ⟨(h.setCompressors asked).settings_eq, (h.setCompressors asked).pools_eq⟩
      | sign =>
        simp only [askFor, Option.map_eq_some_iff] at asks
        obtain ⟨pool, asked, rfl⟩ := asks
        exact ⟨(h.setSigners asked).settings_eq, (h.setSigners asked).pools_eq⟩
  | answer run item stage =>
    simp only [Deployment.step, Option.bind_eq_some_iff, answerItem, Option.map_eq_some_iff] at step
    obtain ⟨result, -, world, -, rfl⟩ := step
    exact ⟨h.settings_eq, h.pools_eq⟩
  | overdue run item stage =>
    simp only [Deployment.step, answerItem, Option.map_eq_some_iff] at step
    obtain ⟨world, -, rfl⟩ := step
    exact ⟨h.settings_eq, h.pools_eq⟩

end Checked

/-- What happens in a deployment is, for its world, what happens in a world. -/
theorem Sound.reachable_world (h : d.Sound keys) (after : Reachable (Steps Deployment.step) d d') :
    Reachable (Steps World.step) d.world d'.world := by
  refine (after.invariant (P := fun e => e.Sound keys ∧ Reachable (Steps World.step) d.world e.world)
    ⟨h, .refl _ _⟩ ?_).2
  rintro e action e' ⟨sound, reach⟩ step
  obtain ⟨sound', same | ⟨move, step, -⟩⟩ := sound.step step
  · exact ⟨sound', same ▸ reach⟩
  · exact ⟨sound', reach.tail step⟩

/-- A deployment that has started has been checked, and no run has begun in it. -/
theorem checked_of_start (started : (start settings store keys).result = .ok d) :
    settings.validate = .ok () ∧ settings.generation.validate store.capacity = .ok () ∧ d.Checked settings ∧
      d.Fresh settings store keys := by
  have valid : settings.validate = .ok () := by
    obtain ⟨⟨⟩, valid, -⟩ := Attempt.result_bind_eq_ok started
    cases ok : settings.validate with
    | ok => rfl
    | error e => simp [ok, Except.mapError] at valid
  obtain ⟨d', fresh, pools, result⟩ := start_of_valid store keys valid
  rw [started] at result
  cases fits : settings.generation.validate store.capacity with
  | error cause => simp [fits, Except.mapError, Except.map] at result
  | ok =>
    rw [fits] at result
    cases result
    exact ⟨valid, rfl, ⟨fresh.settings_eq, pools⟩, fresh⟩

/-- The checks in front decide about the start. Everything starts exactly if the settings are not refused and the store
serves as many items as may be in flight. Refused settings are told as such, before any pool has been started; a store
that serves too few is told by the generator. And whatever happens in a deployment that has started, over a store that
may fail: its pools have the sizes that were set, none of which is zero, its pipelines start, and none of its runs tells
that the settings are invalid. -/
theorem validation_decides_start (settings : Settings) (store : Store) (keys : Rsa.KeyPair) :
    ((∃ d, (start settings store keys).result = .ok d) ↔
      settings.validate = .ok () ∧ settings.generation.parallelism ≤ store.capacity) ∧
    (∀ e, settings.validate = .error e →
      (start settings store keys).result = .error (.settings e) ∧ (start settings store keys).log = []) ∧
    (settings.validate = .ok () → store.capacity < settings.generation.parallelism →
      (start settings store keys).result = .error (.generation (.config
        s!"parallelism {settings.generation.parallelism} exceeds store capacity {store.capacity}"))) ∧
    ∀ d gated d', (start settings store keys).result = .ok d → Reachable (Steps step) (d.gate gated) d' →
      (d'.pools = settings.pools ∧ ∀ pool ∈ d'.pools, pool.2 ≠ 0) ∧
      (∀ statement last, ∃ r, Run.begin d'.settings.generation statement last = .ok r) ∧
      ∀ (k : Nat) (r : Run) (e : GenerationError), d'.world.runs[k]? = some r → r.result? = some (.error e) →
        ∀ reason, e ≠ .config reason := by
  refine ⟨⟨?_, ?_⟩, ?_, ?_, ?_⟩
  · rintro ⟨d, started⟩
    obtain ⟨valid, fits, -⟩ := checked_of_start started
    exact ⟨valid, (GenerationSettings.validate_eq_ok_iff.1 fits).2.1⟩
  · rintro ⟨valid, enough⟩
    obtain ⟨d, -, -, result⟩ := start_of_valid store keys valid
    have fits := GenerationSettings.validate_of_validate (Settings.validate_eq_ok valid).2 store.capacity
    rw [if_neg (by omega)] at fits
    exact ⟨d, by rw [result, fits]; rfl⟩
  · intro e refused
    have first : (Attempt.of (settings.validate.mapError StartError.settings)).result = .error (.settings e) := by
      rw [Attempt.result_of, refused]
      rfl
    exact ⟨Attempt.result_bind_of_error first, Attempt.log_bind_of_error first⟩
  · intro valid few
    obtain ⟨d, -, -, result⟩ := start_of_valid store keys valid
    have misfit := GenerationSettings.validate_of_validate (Settings.validate_eq_ok valid).2 store.capacity
    rw [if_pos few] at misfit
    rw [result, misfit]
    rfl
  · intro d gated d' started after
    obtain ⟨valid, fits, checked, fresh⟩ := checked_of_start started
    have sound := (start_eq_ok started).2
    have opened : (d.gate gated).Sound keys := ⟨sound.keys_eq, sound.world, sound.compressors, sound.signers, sound.errands⟩
    have still : d'.Checked settings :=
      after.invariant ⟨checked.settings_eq, checked.pools_eq⟩ fun _ _ _ checked step => checked.step step
    refine ⟨⟨still.pools_eq, ?_⟩, fun statement last => ?_, fun k r e found failed => ?_⟩
    · rw [still.pools_eq]
      exact (Settings.validate_eq_ok valid).1
    · have some := GenerationSettings.positive_of_validate fits
      rw [still.settings_eq]
      exact ⟨_, by rw [Run.begin, Pipeline.start, if_neg (by omega)]; rfl⟩
    · have idle : (d.gate gated).world.runs = [] := by
        show d.world.runs = []
        rw [fresh.world]
      have accountable := (World.accountable_reachable idle (opened.reachable_world after)).2
      exact ((accountable k r found).root_of_failed failed).escapes.2.2

/-- A run over a gated store whose first lookup fails. -/
def unreachableStoreActions : List Action :=
  let walks (steps : Nat) : List Action := List.replicate steps (.world (.go (.walker 0)))
  let drives (steps : Nat) : List Action := List.replicate steps (.world (.go (.driver 0)))
  [Action.world (.begin {} World.exampleStatement World.exampleTail)] ++ walks 1 ++
    [Action.world (.refuseLookup 0 (.unavailable "disk gone"))] ++ walks 2 ++ [Action.world (.wake 0)] ++ drives 6 ++ walks 1

theorem validation_decides_start_example :
    (start { requestTimeout := ⟨0⟩ } exampleStore exampleKeys).result = .error (.settings .zeroRequestTimeout) ∧
    (start { generation := { parallelism := 4 } } { capacity := 2 } exampleKeys).result =
      .error (.generation (.config "parallelism 4 exceeds store capacity 2")) ∧
    ∃ (d d' : Deployment) (r : Run) (e : GenerationError), (start {} exampleStore exampleKeys).result = .ok d ∧
      Reachable (Steps step) (d.gate true) d' ∧ d'.world.runs[0]? = some r ∧ r.result? = some (.error e) ∧
      e = .storageFailure World.exampleTail "Store unavailable: disk gone" ∧ (∀ reason, e ≠ .config reason) ∧
      d'.pools = [("compressor", 16), ("decompressor", 16), ("signer", 16), ("verifier", 16)] := by
  obtain ⟨starts, -, -, later⟩ := validation_decides_start {} exampleStore exampleKeys
  obtain ⟨-, refused, -⟩ := validation_decides_start { requestTimeout := ⟨0⟩ } exampleStore exampleKeys
  obtain ⟨-, -, small, -⟩ := validation_decides_start { generation := { parallelism := 4 } } { capacity := 2 } exampleKeys
  refine ⟨(refused .zeroRequestTimeout (by decide)).1, small (by decide) (by decide), ?_⟩
  obtain ⟨d, started⟩ := starts.2 ⟨by decide, by decide +kernel⟩
  have possible : ((start {} exampleStore exampleKeys).result.toOption.bind fun d =>
      (follow (fun _ _ => true) step (d.gate true) unreachableStoreActions).bind fun d' =>
        (d'.world.runs[0]?).bind Run.result?) =
      some (.error (.storageFailure World.exampleTail "Store unavailable: disk gone")) := by decide +kernel
  simp only [started, Except.toOption, Option.bind_some, Option.bind_eq_some_iff] at possible
  obtain ⟨d', followed, r, found, failed⟩ := possible
  have after : Reachable (Steps step) (d.gate true) d' := ⟨_, path_of_follow followed⟩
  obtain ⟨⟨pools, -⟩, -, unconfigured⟩ := later d true d' started after
  exact ⟨d, d', r, _, started, after, found, failed, rfl, unconfigured 0 r _ found failed, pools⟩

end Deployment
end ChainArchive
