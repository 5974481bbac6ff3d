import ChainArchive.Proofs.Deployment
import ChainArchive.Proofs.Pool.Rest

/-!
# What a deployment starts with

A deployment starts if its settings are right and its keys can be loaded, and
nothing else can keep it from it. It starts with pools in which nothing has been
asked, over the store that it was given.
-/

namespace ChainArchive
set_option autoImplicit false

/-! ## Results of attempts -/

namespace Attempt

variable {ε ε' α β : Type}

@[simp] theorem result_of (result : Except ε α) : (of result).result = result := rfl

@[simp] theorem result_mapError (f : ε → ε') (x : Attempt ε α) : (x.mapError f).result = x.result.mapError f := rfl

theorem result_bind_of_ok {x : Attempt ε α} {f : α → Attempt ε β} {a : α} (ok : x.result = .ok a) :
    (x >>= f).result = (f a).result := by
  change (x.andThen f).result = _
  simp only [andThen, ok]

theorem result_bind_of_error {x : Attempt ε α} {f : α → Attempt ε β} {e : ε} (error : x.result = .error e) :
    (x >>= f).result = .error e := by
  change (x.andThen f).result = _
  simp only [andThen, error]

end Attempt

/-- What holds of settings that are not refused. -/
theorem Settings.validate_eq_ok {settings : Settings} (valid : settings.validate = .ok ()) :
    (∀ pool ∈ settings.pools, pool.2 ≠ 0) ∧ settings.generation.validate settings.store.maxConnections = .ok () := by
  unfold validate at valid
  split at valid
  · cases valid
  · next none =>
    split at valid
    · cases valid
    · next fits => exact ⟨fun pool member => by simpa using List.find?_eq_none.1 none pool member, fits⟩

theorem GenerationSettings.validate_eq_ok_iff {settings : GenerationSettings} {capacity : Nat} :
    settings.validate capacity = .ok () ↔ 1 ≤ settings.parallelism ∧ settings.parallelism ≤ capacity ∧
      (settings.compressTimeout.isZero || settings.signTimeout.isZero) = false ∧ settings.itemTimeout.isZero = false := by
  unfold validate
  split
  · next none =>
    simp only [reduceCtorEq, false_iff, not_and]
    omega
  · next some =>
    split
    · next few =>
      simp only [reduceCtorEq, false_iff, not_and]
      omega
    · next enough =>
      split
      · next zero => simp [zero]
      · next timeouts =>
        split
        · next zero => simp [zero]
        · next item => exact iff_of_true rfl ⟨by omega, by omega, by simpa using timeouts, by simpa using item⟩

theorem GenerationSettings.positive_of_validate {settings : GenerationSettings} {capacity : Nat}
    (fits : settings.validate capacity = .ok ()) : 1 ≤ settings.parallelism := (validate_eq_ok_iff.1 fits).1

/-- Settings that fit one store fit another one unless that serves too few connections. -/
theorem GenerationSettings.validate_of_validate {settings : GenerationSettings} {capacity : Nat}
    (fits : settings.validate capacity = .ok ()) (other : Nat) :
    settings.validate other = if other < settings.parallelism then
      .error (.config s!"parallelism {settings.parallelism} exceeds store capacity {other}") else .ok () := by
  obtain ⟨some, -, timeouts, item⟩ := validate_eq_ok_iff.1 fits
  split
  · next few => rw [validate, if_neg (by omega), if_pos few]
  · next enough => exact validate_eq_ok_iff.2 ⟨some, by omega, timeouts, item⟩

theorem Pool.start_of_positive {ρ α ε : Type} {name : String} {size : Nat} (positive : size ≠ 0) :
    (Pool.start name size : Attempt PoolError (Pool ρ α ε)).result = .ok { name, workers := List.replicate size {} } := by
  rw [Pool.start, if_neg positive]
  rfl

theorem Pool.size_of_start {ρ α ε : Type} {name : String} {size : Nat} {p : Pool ρ α ε}
    (h : (Pool.start name size).result = .ok p) : p.size = size := by
  unfold Pool.start at h
  split at h <;> cases h
  exact List.length_replicate

theorem Pool.name_of_start {ρ α ε : Type} {name : String} {size : Nat} {p : Pool ρ α ε}
    (h : (Pool.start name size).result = .ok p) : p.name = name := by
  unfold Pool.start at h
  split at h <;> cases h
  rfl

theorem CompressionService.exists_start {settings : CompressionSettings} (compressors : settings.compressors ≠ 0)
    (decompressors : settings.decompressors ≠ 0) : ∃ c : CompressionService, (start settings).result = .ok c ∧
      (Pool.start "compressor" settings.compressors).result = .ok c.compressors ∧
      (Pool.start "decompressor" settings.decompressors).result = .ok c.decompressors := by
  unfold start
  rw [Attempt.result_bind_of_ok (by rw [Attempt.result_mapError, Pool.start_of_positive compressors]; rfl),
    Attempt.result_bind_of_ok (by rw [Attempt.result_mapError, Pool.start_of_positive decompressors]; rfl)]
  exact ⟨_, rfl, Pool.start_of_positive compressors, Pool.start_of_positive decompressors⟩

theorem SignatureService.exists_start {settings : SignatureSettings} (keys : Rsa.KeyPair)
    (signers : settings.signers ≠ 0) (verifiers : settings.verifiers ≠ 0) : ∃ s : SignatureService,
      (start settings keys).result = .ok s ∧ s.keys = keys ∧
      (Pool.start "signer" settings.signers).result = .ok s.signers ∧
      (Pool.start "verifier" settings.verifiers).result = .ok s.verifiers := by
  unfold start
  rw [Attempt.result_bind_of_ok (by rw [Attempt.result_mapError, Pool.start_of_positive signers]; rfl),
    Attempt.result_bind_of_ok (by rw [Attempt.result_mapError, Pool.start_of_positive verifiers]; rfl)]
  exact ⟨_, rfl, rfl, Pool.start_of_positive signers, Pool.start_of_positive verifiers⟩

namespace Deployment

variable {settings : Settings} {store : Store} {keys : Rsa.KeyPair} {files : Files} {d : Deployment}

/-- The deployment has these settings and keys, and nothing has happened in it. -/
structure Fresh (settings : Settings) (store : Store) (keys : Rsa.KeyPair) (d : Deployment) : Prop where
  settings_eq : d.settings = settings
  keys_eq : d.signature.keys = keys
  world : d.world = { store }
  errands : d.errands = []
  compressors : ∃ name size, (Pool.start name size).result = .ok d.compression.compressors
  signers : ∃ name size, (Pool.start name size).result = .ok d.signature.signers

/-- The pools of a deployment, by their names and sizes. -/
def pools (d : Deployment) : List (String × Nat) :=
  [(d.compression.compressors.name, d.compression.compressors.size),
   (d.compression.decompressors.name, d.compression.decompressors.size),
   (d.signature.signers.name, d.signature.signers.size), (d.signature.verifiers.name, d.signature.verifiers.size)]

/-- From settings that are not refused all pools start, with the sizes that are set, and what decides then is whether
the store serves enough connections. -/
theorem start_of_valid (store : Store) (keys : Rsa.KeyPair) (valid : settings.validate = .ok ()) :
    ∃ d, d.Fresh settings store keys ∧ d.pools = settings.pools ∧ (start settings store keys).result =
      ((settings.generation.validate store.capacity).mapError .generation).map fun _ => d := by
  have positive := (Settings.validate_eq_ok valid).1
  simp only [Settings.pools, List.mem_cons, List.not_mem_nil, or_false, forall_eq_or_imp, forall_eq] at positive
  obtain ⟨compressors, decompressors, signers, verifiers⟩ := positive
  obtain ⟨c, started, compressors, decompressors⟩ := CompressionService.exists_start compressors decompressors
  obtain ⟨s, started', own, signers, verifiers⟩ := SignatureService.exists_start keys signers verifiers
  refine ⟨{ settings, world := { store }, compression := c, signature := s },
    ⟨rfl, own, rfl, rfl, ⟨_, _, compressors⟩, ⟨_, _, signers⟩⟩, ?_, ?_⟩
  · simp only [pools, Settings.pools, Pool.name_of_start compressors, Pool.size_of_start compressors,
      Pool.name_of_start decompressors, Pool.size_of_start decompressors, Pool.name_of_start signers,
      Pool.size_of_start signers, Pool.name_of_start verifiers, Pool.size_of_start verifiers]
  · unfold start
    rw [Attempt.result_bind_of_ok (by rw [Attempt.result_of, valid]; rfl), Attempt.result_bind_of_ok rfl,
      Attempt.result_bind_of_ok (by rw [Attempt.result_mapError, started]; rfl), Attempt.result_bind_of_ok rfl,
      Attempt.result_bind_of_ok (by rw [Attempt.result_mapError, started']; rfl), Attempt.result_bind_of_ok rfl]
    cases settings.generation.validate store.capacity with
    | ok => rfl
    | error cause => rfl

/-- A deployment starts from settings that are not refused. -/
theorem exists_start (keys : Rsa.KeyPair) (valid : settings.validate = .ok ()) (capacity : store.capacity = settings.store.maxConnections) :
    ∃ d, (start settings store keys).result = .ok d ∧ d.Fresh settings store keys := by
  obtain ⟨d, fresh, -, started⟩ := start_of_valid store keys valid
  refine ⟨d, ?_, fresh⟩
  rw [started, capacity, (Settings.validate_eq_ok valid).2]
  rfl

/-- Whoever loads a deployment starts it, with settings that are not refused and the keys that they name. -/
theorem load_eq_ok_iff :
    (load settings store files).result = .ok d ↔ settings.validate = .ok () ∧ ∃ keys,
      (Rsa.KeyPair.load files settings.signature.privateKeyPath settings.signature.publicKeyPath).result = .ok keys ∧
      (start settings store keys).result = .ok d := by
  constructor
  · intro h
    obtain ⟨⟨⟩, valid, h⟩ := Attempt.result_bind_eq_ok h
    obtain ⟨keys, loaded, h⟩ := Attempt.result_bind_eq_ok h
    refine ⟨?_, keys, Attempt.result_mapError_eq_ok loaded, h⟩
    cases ok : settings.validate with
    | ok => rfl
    | error => simp [ok, Except.mapError] at valid
  · rintro ⟨valid, keys, loaded, h⟩
    unfold load
    rw [Attempt.result_bind_of_ok (by rw [Attempt.result_of, valid]; rfl),
      Attempt.result_bind_of_ok (by rw [Attempt.result_mapError, loaded]; rfl), h]

end Deployment
end ChainArchive
