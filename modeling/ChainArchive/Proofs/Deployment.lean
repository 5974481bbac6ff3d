import ChainArchive.Deployment
import ChainArchive.Proofs.Codec.RoundTrip
import ChainArchive.Proofs.Pool.Replies
import ChainArchive.Proofs.Rsa.Inversion
import ChainArchive.Proofs.World.Statement

/-!
# From payloads to records and back

An item that waits for a transform asks a pool about its own payload, and the
errand ties the item to that ask. The pool answers each ask with what a worker
made of its request. So whatever the order in which items, asks and workers act,
a deployment's world only ever gets answers that the transforms give for the
item's payload, and all that holds of such worlds holds of it.
-/

namespace ChainArchive
set_option autoImplicit false

/-! ## Attempts that succeed -/

namespace Attempt

variable {ε ε' α β : Type}

theorem result_bind_eq_ok {x : Attempt ε α} {f : α → Attempt ε β} {b : β} (h : (x >>= f).result = .ok b) :
    ∃ a, x.result = .ok a ∧ (f a).result = .ok b := by
  change (x.andThen f).result = .ok b at h
  unfold andThen at h
  split at h
  · next a ok => exact ⟨a, ok, h⟩
  · cases h

theorem result_mapError_eq_ok {x : Attempt ε α} {f : ε → ε'} {a : α} (h : (x.mapError f).result = .ok a) :
    x.result = .ok a := by
  unfold mapError at h
  cases ok : x.result with
  | ok b => simpa [ok, Except.mapError] using h
  | error e => simp [ok, Except.mapError] at h

end Attempt

namespace Deployment

/-- What the transforms of a deployment may answer for a payload: what one of their workers makes of it. -/
def outputs (keys : Rsa.KeyPair) : Transforms
  | .compress, payload, octets => ∃ worker, compressHandler worker payload = some (.reply octets)
  | .sign, payload, octets => ∃ worker, SignatureService.signHandler keys worker payload = some (.reply octets)

/-- What an ask is about. -/
def asked? (d : Deployment) (stage : TransformStage) (ask : Nat) : Option Bytes :=
  match stage with
  | .compress => (d.compression.compressors.asks[ask]?).map (·.request)
  | .sign => (d.signature.signers.asks[ask]?).map (·.request)

/-- What holds of a deployment in every state that it can reach. -/
structure Sound (keys : Rsa.KeyPair) (d : Deployment) : Prop where
  keys_eq : d.signature.keys = keys
  world : d.world.Sound (outputs keys)
  compressors : Pool.Honest compressHandler d.compression.compressors
  signers : Pool.Honest (SignatureService.signHandler keys) d.signature.signers
  errands : ∀ e ∈ d.errands, ∃ request, d.world.request? e.run e.item = some request ∧
    d.asked? e.stage e.ask = some (Archiver.input request e.stage)

/-- Nobody else writes under the statement. -/
def Action.spares (statement : StatementId) : Action → Prop
  | .world action => action.spares statement
  | _ => True

variable {keys : Rsa.KeyPair} {d d' : Deployment}

theorem start_eq_ok {settings : Settings} {store : Store} (h : (start settings store keys).result = .ok d) :
    d.world = { store } ∧ Sound keys d := by
  unfold start at h
  obtain ⟨-, -, h⟩ := Attempt.result_bind_eq_ok h
  obtain ⟨-, -, h⟩ := Attempt.result_bind_eq_ok h
  obtain ⟨compression, begun, h⟩ := Attempt.result_bind_eq_ok h
  obtain ⟨-, -, h⟩ := Attempt.result_bind_eq_ok h
  obtain ⟨signature, begun', h⟩ := Attempt.result_bind_eq_ok h
  obtain ⟨-, -, h⟩ := Attempt.result_bind_eq_ok h
  obtain ⟨-, -, h⟩ := Attempt.result_bind_eq_ok h
  obtain ⟨-, -, h⟩ := Attempt.result_bind_eq_ok h
  cases h
  obtain ⟨compressors, first, begun⟩ := Attempt.result_bind_eq_ok (Attempt.result_mapError_eq_ok begun)
  obtain ⟨decompressors, -, begun⟩ := Attempt.result_bind_eq_ok begun
  obtain ⟨-, -, begun⟩ := Attempt.result_bind_eq_ok begun
  cases begun
  obtain ⟨signers, first', begun'⟩ := Attempt.result_bind_eq_ok (Attempt.result_mapError_eq_ok begun')
  obtain ⟨verifiers, -, begun'⟩ := Attempt.result_bind_eq_ok begun'
  obtain ⟨-, -, begun'⟩ := Attempt.result_bind_eq_ok begun'
  cases begun'
  exact ⟨rfl, rfl, .start rfl, .start (Attempt.result_mapError_eq_ok first),
    .start (Attempt.result_mapError_eq_ok first'), by simp⟩

/-- An item that has work has a request. -/
theorem request?_of_work? {run item : Nat} {r : Run} {request : ArchivalRequest} {work : Archiver.Work}
    (found : d.world.runs[run]? = some r) (busy : r.work? item = some (request, work)) :
    d.world.request? run item = some request := by
  simp [World.request?, found, Run.items_of_work? busy]

/-- An item is asked about what belongs to the stage. -/
theorem request_of_payload? {run item : Nat} {stage : TransformStage} {payload : Bytes}
    (h : d.payload? run item stage = some payload) :
    ∃ request, d.world.request? run item = some request ∧ payload = Archiver.input request stage := by
  simp only [payload?, Option.bind_eq_bind, Option.bind_eq_some_iff] at h
  obtain ⟨r, found, ⟨request, work⟩, busy, h⟩ := h
  refine ⟨request, request?_of_work? found busy, ?_⟩
  split at h <;> cases h <;> rfl

/-- The ask that was made for an item is that of its errand. -/
theorem mem_errands_of_ask? {run item ask : Nat} {stage : TransformStage} (errand : d.ask? run item stage = some ask) :
    ⟨run, item, stage, ask⟩ ∈ d.errands := by
  simp only [ask?, Option.map_eq_some_iff] at errand
  obtain ⟨e, found, rfl⟩ := errand
  have named := List.find?_some found
  simp only [Bool.and_eq_true, beq_iff_eq] at named
  obtain ⟨⟨rfl, rfl⟩, rfl⟩ := named
  exact List.mem_of_find?_eq_some found

namespace Sound

/-- An answer that an item gets is what a worker made of the item's own payload. -/
theorem answers (h : d.Sound keys) {run item ask : Nat} {stage : TransformStage} {octets : Bytes}
    (errand : d.ask? run item stage = some ask) (result : d.transformed? stage ask = some (.ok octets)) :
    ∃ request, d.world.request? run item = some request ∧ outputs keys stage (Archiver.input request stage) octets := by
  obtain ⟨request, here, asked⟩ := h.errands _ (mem_errands_of_ask? errand)
  refine ⟨request, here, ?_⟩
  cases stage with
  | compress =>
    simp only [transformed?, Option.map_eq_some_iff] at result
    obtain ⟨answer, result, ok⟩ := result
    obtain rfl : answer = .ok octets := by
      cases answer <;> simp_all [TransformError.compressResult, Except.mapError]
    obtain ⟨a, worker, there, handled⟩ := h.compressors.of_result result
    simp only [asked?, there, Option.map_some, Option.some.injEq] at asked
    exact ⟨worker, asked ▸ handled⟩
  | sign =>
    simp only [transformed?, Option.map_eq_some_iff] at result
    obtain ⟨answer, result, ok⟩ := result
    obtain rfl : answer = .ok octets := by
      cases answer <;> simp_all [TransformError.signResult, Except.mapError]
    obtain ⟨a, worker, there, handled⟩ := h.signers.of_result result
    simp only [asked?, there, Option.map_some, Option.some.injEq] at asked
    exact ⟨worker, asked ▸ handled⟩

/-- A step of the world keeps all else. -/
theorem setWorld (h : d.Sound keys) {action : World.Action} {world : World} (step : d.world.step action = some world)
    (answers : d.world.Answers (outputs keys) action) : ({ d with world } : Deployment).Sound keys := by
  have change := h.world.change_of_step step answers
  refine ⟨h.keys_eq, h.world.change change, h.compressors, h.signers, fun e member => ?_⟩
  obtain ⟨request, here, asked⟩ := h.errands e member
  exact ⟨request, h.world.request? change here, asked⟩

/-- The compressing workers take a step. -/
theorem setCompressors (h : d.Sound keys) {action : Pool.Action Bytes Bytes CompressionError}
    {pool : Pool Bytes Bytes CompressionError} (allowed : d.compression.compressors.obeys compressHandler action = true)
    (step : d.compression.compressors.step action = some pool) : (d.setCompressors pool).Sound keys := by
  refine ⟨h.keys_eq, h.world, h.compressors.step allowed step, h.signers, fun e member => ?_⟩
  obtain ⟨request, here, asked⟩ := h.errands e member
  refine ⟨request, here, ?_⟩
  cases stage : e.stage with
  | compress =>
    simp only [stage, asked?, Option.map_eq_some_iff] at asked ⊢
    obtain ⟨a, found, same⟩ := asked
    obtain ⟨b, now, kept⟩ := Pool.asks_of_moves (Pool.moves_of_step step) found
    exact ⟨b, now, kept.trans same⟩
  | sign =>
    rw [stage] at asked
    exact asked

/-- The signing workers take a step. -/
theorem setSigners (h : d.Sound keys) {action : Pool.Action Bytes Bytes Rsa.SignatureError}
    {pool : Pool Bytes Bytes Rsa.SignatureError}
    (allowed : d.signature.signers.obeys (SignatureService.signHandler keys) action = true)
    (step : d.signature.signers.step action = some pool) : (d.setSigners pool).Sound keys := by
  refine ⟨h.keys_eq, h.world, h.compressors, h.signers.step allowed step, fun e member => ?_⟩
  obtain ⟨request, here, asked⟩ := h.errands e member
  refine ⟨request, here, ?_⟩
  cases stage : e.stage with
  | sign =>
    simp only [stage, asked?, Option.map_eq_some_iff] at asked ⊢
    obtain ⟨a, found, same⟩ := asked
    obtain ⟨b, now, kept⟩ := Pool.asks_of_moves (Pool.moves_of_step step) found
    exact ⟨b, now, kept.trans same⟩
  | compress =>
    rw [stage] at asked
    exact asked

/-- An item asks about its own payload. -/
theorem ask (h : d.Sound keys) {run item : Nat} {stage : TransformStage} {payload : Bytes}
    (about : d.payload? run item stage = some payload) (asks : d.askFor run item stage payload = some d') :
    d'.Sound keys ∧ d'.world = d.world := by
  obtain ⟨request, here, rfl⟩ := request_of_payload? about
  cases stage with
  | compress =>
    simp only [askFor, Option.map_eq_some_iff] at asks
    obtain ⟨pool, step, rfl⟩ := asks
    have kept := h.setCompressors rfl step
    refine ⟨⟨kept.keys_eq, kept.world, kept.compressors, kept.signers, fun e member => ?_⟩, rfl⟩
    rcases by simpa using member with member | rfl
    · exact kept.errands e member
    · cases Pool.moves_of_step step
      exact ⟨request, here, by simp [asked?, Deployment.setCompressors, Pool.begin]⟩
  | sign =>
    simp only [askFor, Option.map_eq_some_iff] at asks
    obtain ⟨pool, step, rfl⟩ := asks
    have kept := h.setSigners rfl step
    refine ⟨⟨kept.keys_eq, kept.world, kept.compressors, kept.signers, fun e member => ?_⟩, rfl⟩
    rcases by simpa using member with member | rfl
    · exact kept.errands e member
    · cases Pool.moves_of_step step
      exact ⟨request, here, by simp [asked?, Deployment.setSigners, Pool.begin]⟩

/-- The world gets an answer that is the transform's for the payload of the item. -/
theorem answerItem (h : d.Sound keys) {run item : Nat} {stage : TransformStage} {result : Except TransformError Bytes}
    (answers : ∀ octets, result = .ok octets → ∃ request, d.world.request? run item = some request ∧
      outputs keys stage (Archiver.input request stage) octets)
    (step : d.answerItem run item stage result = some d') : d'.Sound keys ∧
      d.world.step (.signal run item (.answer stage result)) = some d'.world ∧
      d.world.Answers (outputs keys) (.signal run item (.answer stage result)) := by
  simp only [Deployment.answerItem, Option.map_eq_some_iff] at step
  obtain ⟨world, step, rfl⟩ := step
  have allowed : d.world.Answers (outputs keys) (.signal run item (.answer stage result)) := by
    cases result with
    | error => trivial
    | ok octets =>
      intro r request work found busy
      obtain ⟨request', here, output⟩ := answers octets rfl
      rw [request?_of_work? found busy, Option.some.injEq] at here
      exact here ▸ output
  exact ⟨h.setWorld step allowed, step, allowed⟩

/-- A step of a deployment is one of its world, with an answer of the transforms at most, or leaves the world alone. -/
theorem step (h : d.Sound keys) {action : Action} (step : d.step action = some d') : d'.Sound keys ∧
    (d'.world = d.world ∨ ∃ move, d.world.step move = some d'.world ∧ d.world.Answers (outputs keys) move ∧
      ∀ statement, action.spares statement → move.spares statement) := by
  cases action with
  | world action =>
    simp only [Deployment.step, Option.ite_none_right_eq_some, Option.map_eq_some_iff] at step
    obtain ⟨admitted, world, step, rfl⟩ := step
    have answers : d.world.Answers (outputs keys) action := by
      unfold World.Answers
      split
      · cases admitted
      · trivial
    exact ⟨h.setWorld step answers, .inr ⟨action, step, answers, fun _ spares => spares⟩⟩
  | compressor action =>
    simp only [Deployment.step, Option.ite_none_right_eq_some, Option.map_eq_some_iff] at step
    obtain ⟨allowed, pool, step, rfl⟩ := step
    exact ⟨h.setCompressors allowed step, .inl rfl⟩
  | signer action =>
    simp only [Deployment.step, Option.ite_none_right_eq_some, Option.map_eq_some_iff] at step
    obtain ⟨allowed, pool, step, rfl⟩ := step
    rw [signHandler, h.keys_eq] at allowed
    exact ⟨h.setSigners allowed step, .inl rfl⟩
  | ask run item stage =>
    simp only [Deployment.step] at step
    split at step
    · cases step
    · obtain ⟨payload, about, asks⟩ := Option.bind_eq_some_iff.1 step
      obtain ⟨sound, same⟩ := h.ask about asks
      exact ⟨sound, .inl same⟩
  | answer run item stage =>
    simp only [Deployment.step, Option.bind_eq_some_iff] at step
    obtain ⟨result, ⟨ask, errand, answered⟩, step⟩ := step
    obtain ⟨sound, step, answers⟩ := h.answerItem (fun octets ok => h.answers errand (ok ▸ answered)) step
    exact ⟨sound, .inr ⟨_, step, answers, fun _ _ => trivial⟩⟩
  | overdue run item stage =>
    simp only [Deployment.step] at step
    obtain ⟨sound, step, answers⟩ := h.answerItem (by simp [Archiver.overdue]) step
    exact ⟨sound, .inr ⟨_, step, answers, fun _ _ => trivial⟩⟩

/-- Whatever happens after the start, the deployment is sound and its live records stand under their own ids. -/
theorem reachable (h : d.Sound keys) (keyed : d.world.store.Keyed) (after : Reachable (Steps Deployment.step) d d') :
    d'.Sound keys ∧ d'.world.store.Keyed := by
  refine after.invariant (P := fun d => d.Sound keys ∧ d.world.store.Keyed) ⟨h, keyed⟩ ?_
  rintro d action d' ⟨sound, keyed⟩ step
  rcases sound.step step with ⟨sound', same | ⟨move, step, answers, -⟩⟩
  · exact ⟨sound', same ▸ keyed⟩
  · exact ⟨sound', World.keyed_change keyed (sound.world.change_of_step step answers)⟩

/-- While nobody else writes under a statement, the run that writes it goes on as it would in the world alone. -/
theorem writing (h : d.Sound keys) {find : TransactionId → Option Transaction}
    (keyed : ∀ id t, find id = some t → t.id = id) {first : TransactionId} {statement : StatementId} {n : Nat}
    (writing : World.Writing (outputs keys) find first statement n d.world)
    (after : Reachable (Restricted (fun _ action => action.spares statement) (Steps Deployment.step)) d d') :
    World.Writing (outputs keys) find first statement n d'.world := by
  have both := after.invariant
    (P := fun d => d.Sound keys ∧ World.Writing (outputs keys) find first statement n d.world) ⟨h, writing⟩ ?_
  · exact both.2
  · rintro d action d' ⟨sound, writing⟩ ⟨spares, step⟩
    rcases sound.step step with ⟨sound', same | ⟨move, step, answers, kept⟩⟩
    · exact ⟨sound', same ▸ writing⟩
    · have change := sound.world.change_of_step step answers
      exact ⟨sound', writing.change keyed change (kept statement spares)⟩

end Sound

/-! ## What an archived record is good for -/

/-- The record gives the payload back, and its signature is one for the payload as it was, not as it is archived. -/
structure Restores (keys : Rsa.KeyPair) (record : ArchivedTransaction) (payload : Bytes) : Prop where
  decompress : Codec.decompress record.compressed = .ok payload
  verify : keys.verify payload record.signature = true
  digest : ∀ message, keys.verify message record.signature = true → Sha512.digest message = Sha512.digest payload

/-- Octets that the transforms answer for a payload lead back to it. -/
theorem restores_of_outputs {payload : Bytes} {record : ArchivedTransaction}
    (compressed : outputs keys .compress payload record.compressed)
    (signature : outputs keys .sign payload record.signature) : Restores keys record payload := by
  obtain ⟨_, handled⟩ := compressed
  obtain ⟨_, handled'⟩ := signature
  have written : Codec.compress payload = record.compressed := by
    simpa [compressHandler, CompressionService.compressHandler, Codec.compressInChunks_eq] using handled
  have signed : keys.sign payload = .ok record.signature := by
    unfold SignatureService.signHandler at handled'
    split at handled' <;> simp_all
  have verified : keys.verify payload record.signature = true := Rsa.PrivateKey.verify_of_sign signed
  refine ⟨?_, verified, fun message accepted => Rsa.PublicKey.digest_of_verify accepted verified⟩
  rw [← written]
  exact Codec.decompress_compress payload

/-- A deployment was started over a store, and a run in it begins to write a statement that nobody has used. Whatever
its runs, items and workers do, in any order, when the run ends well the archive holds under the statement as many
records as the receipt says, and each of them restores the payload of a record that was live when the run began. -/
theorem archived_restores {settings : Settings} {store : Store} {d₀ d₁ d₂ d₃ : Deployment} {statement : StatementId}
    {last : TransactionId} {r : Run} {receipt : Receipt} (started : (start settings store keys).result = .ok d₀)
    (keyed : store.Keyed) (before : Reachable (Steps step) d₀ d₁) (unused : d₁.world.Unused statement)
    (begun : d₁.step (.world (.begin d₁.settings.generation statement last)) = some d₂)
    (meanwhile : Reachable (Restricted (fun _ action => action.spares statement) (Steps step)) d₂ d₃)
    (found : d₃.world.runs[d₁.world.runs.length]? = some r) (success : r.result? = some (.ok receipt)) :
    receipt.statement = statement ∧ (d₃.world.store.archivedFor statement).length = receipt.archived ∧
      ∀ record ∈ d₃.world.store.archivedFor statement, ∃ t, d₁.world.store.find? record.id = some t ∧
        Restores keys record t.payload := by
  obtain ⟨fresh, sound⟩ := start_eq_ok started
  obtain ⟨sound, keyed⟩ := sound.reachable (by rw [fresh]; exact keyed) before
  have begins : d₁.world.step (.begin d₁.settings.generation statement last) = some d₂.world := by
    simp only [step, Option.ite_none_right_eq_some, Option.map_eq_some_iff] at begun
    obtain ⟨-, world, begins, rfl⟩ := begun
    exact begins
  have writing := (sound.step begun).1.writing keyed (.begin sound.world unused begins) meanwhile
  obtain ⟨chain, walked, -, rfl, ⟨records, perm, each⟩, -⟩ := writing.exact keyed found success
  refine ⟨rfl, ?_, fun record member => ?_⟩
  · rw [← perm.length_eq, ← each.length_eq]
    simp [requests]
  · obtain ⟨i, inside, rfl⟩ := List.mem_iff_getElem.1 (perm.mem_iff.2 member)
    have bound : i < chain.length := by
      rw [← each.length_eq] at inside
      simpa [requests] using inside
    have isRecord : RecordOf (outputs keys) ⟨statement, i + firstNumber, chain[i]⟩ records[i] := by
      simpa [requests] using each.get (by simpa [requests] using bound) inside
    obtain ⟨id, live⟩ := walked.find_of_mem (List.getElem_mem bound)
    refine ⟨chain[i], ?_, restores_of_outputs isRecord.compressed isRecord.signature⟩
    rw [isRecord.id, keyed id _ live]
    exact live

/-! ## An example -/

theorem example_secret_mod_q : (3 * 2 ^ 439 + 1) / 5 * 5 % (3 * 2 ^ 438 + 1 - 1) = 1 := by decide +kernel

/-- A key of 848 bits. -/
def exampleKeys : Rsa.KeyPair where
  signing :=
    { modulus := (3 * 2 ^ 408 + 1) * (3 * 2 ^ 438 + 1)
      exponent := 5
      secret := (3 * 2 ^ 439 + 1) / 5
      p := 3 * 2 ^ 408 + 1
      q := 3 * 2 ^ 438 + 1
      modulus_odd := by decide +kernel
      exponent_odd := Rsa.KeyPair.exampleKeys.signing.exponent_odd
      three_le_exponent := Rsa.KeyPair.exampleKeys.signing.three_le_exponent
      exponent_small := Rsa.KeyPair.exampleKeys.signing.exponent_small
      exponent_lt_modulus := by decide +kernel
      one_lt_p := by decide +kernel
      one_lt_q := Rsa.KeyPair.exampleKeys.signing.one_lt_q
      p_mul_q := by decide +kernel
      secret_mod_p := by decide +kernel
      secret_mod_q := example_secret_mod_q }
  modulus_small := by decide +kernel

/-- A single record. -/
def exampleStore : Store := .ofList 10 [⟨World.exampleTail, none, [7]⟩]

instance (statement : StatementId) : DecidablePred (Action.spares statement)
  | .world action => inferInstanceAs (Decidable (action.spares statement))
  | .compressor _ | .signer _ | .ask .. | .answer .. | .overdue .. => isTrue trivial

/-- What happens after a run over a chain of two records has begun. Both items are under way at the same time. Their asks
come to the signing workers in the other order than to the compressing ones, and the second item has both answers before
the first item has one. -/
def exampleActions : List Action :=
  let walks (steps : Nat) : List Action := List.replicate steps (.world (.go (.walker 0)))
  let drives (steps : Nat) : List Action := List.replicate steps (.world (.go (.driver 0)))
  let works (item steps : Nat) : List Action := List.replicate steps (.world (.go (.item 0 item)))
  let signs (ask item : Nat) (payload : Bytes) : List Action :=
    [.signer (.finish ask ((SignatureService.signHandler exampleKeys ask payload).getD .panic)), .signer (.receive ask),
      .answer 0 item .sign]
  let compresses (ask item : Nat) (payload : Bytes) : List Action :=
    [.compressor (.finish ask (.reply (Codec.compress payload))), .compressor (.receive ask), .answer 0 item .compress]
  walks 16 ++ [Action.world (.wake 0)] ++ drives 7 ++ works 0 1 ++ works 1 1 ++
    [.ask 0 0 .compress, .ask 0 1 .compress, .ask 0 1 .sign, .ask 0 0 .sign, .signer (.enter 1), .compressor (.enter 1),
      .signer (.enter 0), .compressor (.enter 0), .signer (.take 0), .signer (.take 1), .compressor (.take 0),
      .compressor (.take 1)] ++
    signs 0 1 [1, 2] ++ compresses 1 1 [1, 2] ++ works 1 5 ++ compresses 0 0 [3, 4, 5] ++ signs 1 0 [3, 4, 5] ++
    works 0 5 ++ drives 11 ++ walks 1

theorem archived_restores_example : ∃ (d₀ d₁ d₂ : Deployment) (r : Run),
    (start {} World.exampleWorld.store exampleKeys).result = .ok d₀ ∧
      d₀.step (.world (.begin d₀.settings.generation World.exampleStatement World.exampleTail)) = some d₁ ∧
      d₂.world.runs[0]? = some r ∧ r.result? = some (.ok ⟨World.exampleStatement, 2⟩) ∧
      (d₂.world.store.archivedFor World.exampleStatement).map (·.number) = [2, 1] ∧
      ∀ record ∈ d₂.world.store.archivedFor World.exampleStatement, ∃ t, d₀.world.store.find? record.id = some t ∧
        Restores exampleKeys record t.payload := by
  have possible : ((start {} World.exampleWorld.store exampleKeys).result.toOption.bind fun d₀ =>
      (d₀.step (.world (.begin d₀.settings.generation World.exampleStatement World.exampleTail))).bind fun d₁ =>
        (follow (fun _ action => decide (action.spares World.exampleStatement)) step d₁ exampleActions).bind fun d₂ =>
          if (d₂.world.store.archivedFor World.exampleStatement).map (·.number) = [2, 1]
          then (d₂.world.runs[0]?).bind Run.result? else none) = some (.ok ⟨World.exampleStatement, 2⟩) := by
    decide +kernel
  simp only [Option.bind_eq_some_iff, Option.ite_none_right_eq_some] at possible
  obtain ⟨d₀, started, d₁, begun, d₂, followed, numbers, r, found, success⟩ := possible
  have started : (start {} World.exampleWorld.store exampleKeys).result = .ok d₀ := by
    cases ok : (start {} World.exampleWorld.store exampleKeys).result <;> simp_all [Except.toOption]
  have fresh := (start_eq_ok started).1
  refine ⟨d₀, d₁, d₂, r, started, begun, found, success, numbers, ?_⟩
  have first : d₀.world.runs.length = 0 := by rw [fresh]; rfl
  exact (archived_restores started (Store.keyed_ofList _ _) (.refl _ _) ⟨by rw [fresh]; rfl, by simp [fresh]⟩ begun
    (reachable_of_follow followed fun _ _ => of_decide_eq_true) (first ▸ found) success).2.2

end Deployment
end ChainArchive
