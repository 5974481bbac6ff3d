import ChainArchive.Proofs.Deployment.Admission
import ChainArchive.Proofs.Pool.Timeouts
import ChainArchive.Proofs.World.Transforms

/-!
# Two timers for one transform

A transform is bounded twice, by the ask that is made for it and by the archiver
that waits for this ask, and both have the timeout of the stage. Whichever is
over first, the item fails with the same error. Whatever else becomes of an ask
is told with the text of the service and never passes for a timeout.
-/

namespace ChainArchive
set_option autoImplicit false

/-! ## What goes wrong with an ask -/

/-- How an ask went wrong, as far as whoever asked is concerned. -/
inductive Mishap
  /-- No answer came in time. -/
  | late
  /-- The service tells why there is none. -/
  | told (reason : String)
deriving DecidableEq

namespace Mishap

/-- How an ask of a service went wrong, given the text for the service's failures and its failure for a lost worker. -/
def ofAsk {ε : Type} (text : ε → String) (lost : String → ε) : AskError ε → Mishap
  | .timeout .. => .late
  | .closed pool => .told (text (lost pool))
  | .rejected cause => .told (text cause)

/-- What a transform with this timeout answers then. -/
def error (timeout : Span) : Mishap → TransformError
  | .late => .timeout timeout.millisWord
  | .told reason => .failed reason

end Mishap

namespace Pool

variable {ρ ε : Type} {p : Pool ρ Bytes ε} {i : Nat}

/-- How an ask went wrong, if it did. -/
def mishap? {α : Type} (text : ε → String) (lost : String → ε) (p : Pool ρ α ε) (ask : Nat) : Option Mishap :=
  match p.result? ask with
  | some (.error e) => some (.ofAsk text lost e)
  | _ => none

/-- What a transform answers after a mishap, if it turns every failure of its ask into that of the mishap. -/
theorem mishap_of_error {text : ε → String} {lost : String → ε} {timeout : Span}
    {answer : Except (AskError ε) Bytes → Except TransformError Bytes} (ok : ∀ octets, answer (.ok octets) = .ok octets)
    (error : ∀ e, p.result? i = some (.error e) → answer (.error e) = .error ((Mishap.ofAsk text lost e).error timeout))
    {cause : TransformError} : (p.result? i).map answer = some (.error cause) ↔
      ∃ mishap, p.mishap? text lost i = some mishap ∧ cause = mishap.error timeout := by
  unfold mishap?
  cases told : p.result? i with
  | none => simp
  | some result =>
    cases result with
    | ok octets => simp [ok]
    | error e => simp [error e told, eq_comm]

end Pool

namespace CompressionService

/-- A compressing worker refuses nothing for lack of time. -/
theorem reason_of_reject {worker : Nat} {raw : Bytes} {cause : CompressionError}
    (refused : compressHandler worker raw = some (.reject cause)) : ∃ reason, cause = .compressFailed reason := by
  unfold compressHandler at refused
  split at refused <;> cases refused
  exact ⟨_, rfl⟩

theorem error_of_missed {timeout : Span} {raw : Bytes} {e : AskError CompressionError}
    (missed : Pool.Missed timeout (fun cause => ∃ worker, compressHandler worker raw = some (.reject cause)) e) :
    TransformError.compressResult (.error e) =
      .error ((Mishap.ofAsk CompressionError.message .unavailable e).error timeout) := by
  cases missed with
  | late | lost => rfl
  | refused refused =>
    obtain ⟨worker, refused⟩ := refused
    obtain ⟨reason, rfl⟩ := reason_of_reject refused
    rfl

end CompressionService

namespace SignatureService

variable {keys : Rsa.KeyPair}

/-- A signing worker refuses nothing for lack of time. -/
theorem reason_of_reject {worker : Nat} {message : Bytes} {cause : Rsa.SignatureError}
    (refused : signHandler keys worker message = some (.reject cause)) : ∃ reason, cause = .signingFailed reason := by
  unfold signHandler at refused
  split at refused <;> cases refused
  next failed =>
    simp only [Rsa.KeyPair.sign, Rsa.PrivateKey.sign] at failed
    split at failed
    · cases failed
      exact ⟨_, rfl⟩
    · split at failed <;> cases failed
      exact ⟨_, rfl⟩

theorem error_of_missed {timeout : Span} {message : Bytes} {e : AskError Rsa.SignatureError}
    (missed : Pool.Missed timeout (fun cause => ∃ worker, signHandler keys worker message = some (.reject cause)) e) :
    TransformError.signResult (.error e) =
      .error ((Mishap.ofAsk Rsa.SignatureError.message .unavailable e).error timeout) := by
  cases missed with
  | late | lost => rfl
  | refused refused =>
    obtain ⟨worker, refused⟩ := refused
    obtain ⟨reason, rfl⟩ := reason_of_reject refused
    rfl

end SignatureService

namespace Deployment

variable {settings : Settings} {store : Store} {keys : Rsa.KeyPair} {d d' : Deployment} {action : Action}
  {run item k : Nat} {stage : TransformStage}

/-- How an ask for a transform went wrong, if it did. -/
def mishapOf? (d : Deployment) (stage : TransformStage) (ask : Nat) : Option Mishap :=
  match stage with
  | .compress => d.compression.compressors.mishap? CompressionError.message .unavailable ask
  | .sign => d.signature.signers.mishap? Rsa.SignatureError.message .unavailable ask

/-- How the ask that was made for an item went wrong, if it did. -/
def mishap? (d : Deployment) (run item : Nat) (stage : TransformStage) : Option Mishap :=
  (d.ask? run item stage).bind (d.mishapOf? stage)

/-- The ask for a transform waits for its worker. -/
def isWaiting (d : Deployment) (stage : TransformStage) (ask : Nat) : Bool :=
  match stage with
  | .compress => (d.compression.compressors.asks[ask]?).any Pool.Ask.isWaiting
  | .sign => (d.signature.signers.asks[ask]?).any Pool.Ask.isWaiting

/-- The state after an action, if it is possible, where handling a request may also panic. -/
def stepOrPanic (d : Deployment) : Action → Option Deployment
  | .compressor (.finish worker .panic) =>
    (d.compression.compressors.step (.finish worker .panic)).map d.setCompressors
  | .signer (.finish worker .panic) => (d.signature.signers.step (.finish worker .panic)).map d.setSigners
  | action => d.step action

/-- The time of an ask for a transform is over. -/
def Action.expire (stage : TransformStage) (ask : Nat) : Action :=
  match stage with
  | .compress => .compressor (.expire ask)
  | .sign => .signer (.expire ask)

/-- The timeout of the ask for a transform. -/
def span? (d : Deployment) (stage : TransformStage) (ask : Nat) : Option Span :=
  match stage with
  | .compress => (d.compression.compressors.asks[ask]?).map (·.timeout)
  | .sign => (d.signature.signers.asks[ask]?).map (·.timeout)

/-! ## Asks are timed as the archiver is -/

/-- The pools tell nobody that the time is over before it is, and the asks for items have the timeouts of their stages. -/
structure Timed (d : Deployment) : Prop where
  compressors : d.compression.compressors.Punctual
  signers : d.signature.signers.Punctual
  errands : ∀ e ∈ d.errands, d.span? e.stage e.ask = some (d.stageTimeout e.stage)

namespace Timed

theorem start (started : (Deployment.start settings store keys).result = .ok d) : d.Timed := by
  obtain ⟨-, -, -, fresh⟩ := checked_of_start started
  obtain ⟨_, _, compressors⟩ := fresh.compressors
  obtain ⟨_, _, signers⟩ := fresh.signers
  exact ⟨.start compressors, .start signers, by simp [fresh.errands]⟩

theorem setCompressors (h : d.Timed) {b : Pool.Action Bytes Bytes CompressionError}
    {pool : Pool Bytes Bytes CompressionError} (step : d.compression.compressors.step b = some pool) :
    (d.setCompressors pool).Timed := by
  refine ⟨h.compressors.step step, h.signers, fun e member => ?_⟩
  have before := h.errands e member
  cases stage : e.stage with
  | compress =>
    rw [stage] at before
    exact Pool.timeout_of_moves (Pool.moves_of_step step) before
  | sign =>
    rw [stage] at before
    exact before

theorem setSigners (h : d.Timed) {b : Pool.Action Bytes Bytes Rsa.SignatureError}
    {pool : Pool Bytes Bytes Rsa.SignatureError} (step : d.signature.signers.step b = some pool) :
    (d.setSigners pool).Timed := by
  refine ⟨h.compressors, h.signers.step step, fun e member => ?_⟩
  have before := h.errands e member
  cases stage : e.stage with
  | sign =>
    rw [stage] at before
    exact Pool.timeout_of_moves (Pool.moves_of_step step) before
  | compress =>
    rw [stage] at before
    exact before

/-- An item asks with the timeout of the stage. -/
theorem ask (h : d.Timed) {payload : Bytes} (asks : d.askFor run item stage payload = some d') : d'.Timed := by
  cases stage with
  | compress =>
    simp only [askFor, Option.map_eq_some_iff] at asks
    obtain ⟨pool, step, rfl⟩ := asks
    have kept := h.setCompressors step
    refine ⟨kept.compressors, kept.signers, fun e member => ?_⟩
    rcases by simpa using member with member | rfl
    · exact kept.errands e member
    · cases Pool.moves_of_step step
      simp [span?, Deployment.setCompressors, Pool.begin, stageTimeout]
  | sign =>
    simp only [askFor, Option.map_eq_some_iff] at asks
    obtain ⟨pool, step, rfl⟩ := asks
    have kept := h.setSigners step
    refine ⟨kept.compressors, kept.signers, fun e member => ?_⟩
    rcases by simpa using member with member | rfl
    · exact kept.errands e member
    · cases Pool.moves_of_step step
      simp [span?, Deployment.setSigners, Pool.begin, stageTimeout]

theorem step (h : d.Timed) (step : d.step action = some d') : d'.Timed := by
  cases action with
  | world action =>
    simp only [Deployment.step, Option.ite_none_right_eq_some, Option.map_eq_some_iff] at step
    obtain ⟨-, world, -, rfl⟩ := step
    exact ⟨h.compressors, h.signers, h.errands⟩
  | compressor action =>
    simp only [Deployment.step, Option.ite_none_right_eq_some, Option.map_eq_some_iff] at step
    obtain ⟨-, pool, step, rfl⟩ := step
    exact h.setCompressors step
  | signer action =>
    simp only [Deployment.step, Option.ite_none_right_eq_some, Option.map_eq_some_iff] at step
    obtain ⟨-, pool, step, rfl⟩ := step
    exact h.setSigners step
  | ask run item stage =>
    simp only [Deployment.step] at step
    split at step
    · cases step
    · obtain ⟨payload, -, asks⟩ := Option.bind_eq_some_iff.1 step
      exact h.ask asks
  | answer run item stage =>
    simp only [Deployment.step, Option.bind_eq_some_iff, answerItem, Option.map_eq_some_iff] at step
    obtain ⟨result, -, world, -, rfl⟩ := step
    exact ⟨h.compressors, h.signers, h.errands⟩
  | overdue run item stage =>
    simp only [Deployment.step, answerItem, Option.map_eq_some_iff] at step
    obtain ⟨world, -, rfl⟩ := step
    exact ⟨h.compressors, h.signers, h.errands⟩

/-- A transform answers an error exactly after a mishap of its ask, and with that of the mishap. -/
theorem error_iff (h : d.Timed) (sound : d.Sound keys) (errand : d.ask? run item stage = some k)
    {cause : TransformError} : d.transformed? stage k = some (.error cause) ↔
      ∃ mishap, d.mishap? run item stage = some mishap ∧ cause = mishap.error (d.stageTimeout stage) := by
  rw [mishap?, errand, Option.bind_some]
  have timed := h.errands _ (mem_errands_of_ask? errand)
  cases stage with
  | compress =>
    simp only [span?, Option.map_eq_some_iff] at timed
    obtain ⟨a, there, timed⟩ := timed
    refine Pool.mishap_of_error (fun _ => rfl) fun e told => ?_
    rw [← timed]
    exact CompressionService.error_of_missed (Pool.missed_of_result h.compressors sound.compressors there told)
  | sign =>
    simp only [span?, Option.map_eq_some_iff] at timed
    obtain ⟨a, there, timed⟩ := timed
    refine Pool.mishap_of_error (fun _ => rfl) fun e told => ?_
    rw [← timed]
    exact SignatureService.error_of_missed (Pool.missed_of_result h.signers sound.signers there told)

end Timed

/-! ## Workers that panic -/

/-- A step in which a worker may panic is a step, or a worker panics. -/
theorem step_or_panic (h : d.stepOrPanic action = some d') : d.step action = some d' ∨
    (∃ worker pool, action = .compressor (.finish worker .panic) ∧
      d.compression.compressors.step (.finish worker .panic) = some pool ∧ d' = d.setCompressors pool) ∨
    ∃ worker pool, action = .signer (.finish worker .panic) ∧
      d.signature.signers.step (.finish worker .panic) = some pool ∧ d' = d.setSigners pool := by
  unfold stepOrPanic at h
  split at h
  · obtain ⟨pool, step, same⟩ := Option.map_eq_some_iff.1 h
    exact .inr (.inl ⟨_, pool, rfl, step, same.symm⟩)
  · obtain ⟨pool, step, same⟩ := Option.map_eq_some_iff.1 h
    exact .inr (.inr ⟨_, pool, rfl, step, same.symm⟩)
  · exact .inl h

/-- A panic answers nobody. -/
theorem Sound.stepOrPanic (h : d.Sound keys) (moves : d.stepOrPanic action = some d') : d'.Sound keys := by
  rcases step_or_panic moves with step | ⟨worker, pool, -, step, rfl⟩ | ⟨worker, pool, -, step, rfl⟩
  · exact (h.step step).1
  · cases Pool.moves_of_step step with
    | finish _ _ answers => cases answers
    | panic => exact ⟨h.keys_eq, h.world, h.compressors, h.signers, h.errands⟩
  · cases Pool.moves_of_step step with
    | finish _ _ answers => cases answers
    | panic => exact ⟨h.keys_eq, h.world, h.compressors, h.signers, h.errands⟩

theorem Timed.stepOrPanic (h : d.Timed) (moves : d.stepOrPanic action = some d') : d'.Timed := by
  rcases step_or_panic moves with step | ⟨worker, pool, -, step, rfl⟩ | ⟨worker, pool, -, step, rfl⟩
  · exact h.step step
  · exact h.setCompressors step
  · exact h.setSigners step

theorem Checked.stepOrPanic (h : d.Checked settings) (moves : d.stepOrPanic action = some d') : d'.Checked settings := by
  rcases step_or_panic moves with step | ⟨worker, pool, -, step, rfl⟩ | ⟨worker, pool, -, step, rfl⟩
  · exact h.step step
  · exact h.setCompressors step
  · exact h.setSigners step

/-! ## What the item is told -/

/-- A transform that an item waits for can always answer with an error, and then the item has failed with it. -/
theorem failed_of_payload? {payload : Bytes} (waiting : d.payload? run item stage = some payload) :
    ∃ request, d.world.request? run item = some request ∧ payload = Archiver.input request stage ∧
      ∀ e, ∃ d', d.answerItem run item stage (.error e) = some d' ∧
        d'.world.ending? run item = some (.failed (.ofTransform request.transaction.id stage e)) := by
  simp only [payload?, Option.bind_eq_bind, Option.bind_eq_some_iff] at waiting
  obtain ⟨r, found, ⟨request, work⟩, busy, waiting⟩ := waiting
  refine ⟨request, request?_of_work? found busy, ?_⟩
  cases work with
  | unstarted | storing => cases waiting
  | transforming start compressed signature =>
    have fails (pending : (match stage with | .compress => compressed | .sign => signature) = none) (e : TransformError) :
        ∃ d', d.answerItem run item stage (.error e) = some d' ∧
          d'.world.ending? run item = some (.failed (.ofTransform request.transaction.id stage e)) := by
      obtain ⟨world, step, ended⟩ := World.failed_of_answer found busy pending e
      exact ⟨{ d with world }, by simp [answerItem, step], ended⟩
    cases stage with
    | compress =>
      cases compressed with
      | none => exact ⟨by cases signature <;> exact (Option.some.inj waiting).symm, fails rfl⟩
      | some => cases signature <;> cases waiting
    | sign =>
      cases signature with
      | none => exact ⟨by cases compressed <;> exact (Option.some.inj waiting).symm, fails rfl⟩
      | some => cases compressed <;> cases waiting

/-- The time of an ask that waits can be over, and nothing else changes. -/
theorem exists_expire (waits : d.isWaiting stage k = true) : ∃ d', d.step (.expire stage k) = some d' ∧
    d'.world = d.world ∧ d'.errands = d.errands ∧ d'.mishapOf? stage k = some .late := by
  cases stage with
  | compress =>
    obtain ⟨a, found, waits⟩ := (Option.any_eq_true ..).1 waits
    obtain ⟨pool, step, told⟩ := Pool.exists_expire found waits
    refine ⟨d.setCompressors pool, by simp [Action.expire, Deployment.step, step, Pool.obeys], rfl, rfl, ?_⟩
    simp [mishapOf?, Deployment.setCompressors, Pool.mishap?, told, Mishap.ofAsk]
  | sign =>
    obtain ⟨a, found, waits⟩ := (Option.any_eq_true ..).1 waits
    obtain ⟨pool, step, told⟩ := Pool.exists_expire found waits
    refine ⟨d.setSigners pool, by simp [Action.expire, Deployment.step, step, Pool.obeys], rfl, rfl, ?_⟩
    simp [mishapOf?, Deployment.setSigners, Pool.mishap?, told, Mishap.ofAsk]

/-- After a mishap the answer to the item is possible where it waits, and is that of the mishap. -/
theorem Timed.answer_eq (h : d.Timed) (sound : d.Sound keys) {mishap : Mishap}
    (wrong : d.mishap? run item stage = some mishap) : d.step (.answer run item stage) =
      d.answerItem run item stage (.error (mishap.error (d.stageTimeout stage))) := by
  obtain ⟨k, errand, -⟩ := Option.bind_eq_some_iff.1 wrong
  simp [Deployment.step, errand, (h.error_iff sound errand).2 ⟨mishap, wrong, rfl⟩]

/-- An item fails with a transform in this step only if the transform is overdue or its ask went wrong, and then it fails
with what went wrong. -/
theorem Timed.mishap_of_failed (h : d.Timed) (sound : d.Sound keys) (step : d.step action = some d')
    {cause : GenerationError} (failed : d'.world.ending? run item = some (.failed cause))
    (transform : cause.stage? = some stage) : d.world.ending? run item = some (.failed cause) ∨
      ∃ request mishap, d.world.request? run item = some request ∧
        cause = .ofTransform request.transaction.id stage (mishap.error (d.stageTimeout stage)) ∧
        (action = .overdue run item stage ∧ mishap = .late ∨
          action = .answer run item stage ∧ d.mishap? run item stage = some mishap) := by
  -- the world has taken a step in which the item was answered
  have answered {move : World.Action} (step : d.world.step move = some d'.world) :=
    World.Sound.answer_of_failed sound.world step failed transform
  cases action with
  | world move =>
    simp only [Deployment.step, Option.ite_none_right_eq_some, Option.map_eq_some_iff] at step
    obtain ⟨admitted, world, step, rfl⟩ := step
    rcases answered step with before | ⟨request, e, -, rfl, -⟩
    · exact .inl before
    · cases admitted
  | compressor b =>
    simp only [Deployment.step, Option.ite_none_right_eq_some, Option.map_eq_some_iff] at step
    obtain ⟨-, pool, -, rfl⟩ := step
    exact .inl failed
  | signer b =>
    simp only [Deployment.step, Option.ite_none_right_eq_some, Option.map_eq_some_iff] at step
    obtain ⟨-, pool, -, rfl⟩ := step
    exact .inl failed
  | ask run' item' stage' =>
    simp only [Deployment.step] at step
    split at step
    · cases step
    · obtain ⟨payload, about, asks⟩ := Option.bind_eq_some_iff.1 step
      exact .inl ((sound.ask about asks).2 ▸ failed)
  | answer run' item' stage' =>
    simp only [Deployment.step, Option.bind_eq_some_iff, answerItem, Option.map_eq_some_iff] at step
    obtain ⟨result, ⟨k, errand, came⟩, world, step, rfl⟩ := step
    rcases answered step with before | ⟨request, e, asked, same, rfl⟩
    · exact .inl before
    · cases same
      obtain ⟨mishap, wrong, rfl⟩ := (h.error_iff sound errand).1 came
      exact .inr ⟨request, mishap, asked, rfl, .inr ⟨rfl, wrong⟩⟩
  | overdue run' item' stage' =>
    simp only [Deployment.step, answerItem, Option.map_eq_some_iff] at step
    obtain ⟨world, step, rfl⟩ := step
    rcases answered step with before | ⟨request, e, asked, same, rfl⟩
    · exact .inl before
    · cases same
      exact .inr ⟨request, .late, asked, rfl, .inl ⟨rfl, rfl⟩⟩

/-- Both timers of a transform lead to the same failure. Where an item waits for a transform, the archiver's timer can
be over, and then the item has failed with a timeout of its own id, the stage and the stage's timeout. So can the timer
of its ask, unless the ask has its result, and when the item is told, the world is the same as if the archiver's had been.
If the ask went wrong in another way, the item fails with the service's text instead. And there is nothing else that
makes an item fail with a transform, whatever happens, even if workers panic. -/
theorem timers_agree {d₀ : Deployment} {gated : Bool} (started : (start settings store keys).result = .ok d₀)
    (after : Reachable (Steps stepOrPanic) (d₀.gate gated) d) {timeout : Span}
    (set : Archiver.stageTimeout settings.generation stage = timeout) (short : timeout.millis < 2 ^ 64) :
    (∀ run item payload, d.payload? run item stage = some payload → ∃ request d',
      d.world.request? run item = some request ∧ request.transaction.payload = payload ∧
      d.step (.overdue run item stage) = some d' ∧
      d'.world.ending? run item = some (.failed (.transformTimeout request.transaction.id stage timeout.millis)) ∧
      (∀ k, d.ask? run item stage = some k → d.isWaiting stage k = true → ∃ d₁ d₂,
        d.step (.expire stage k) = some d₁ ∧ d₁.step (.answer run item stage) = some d₂ ∧ d₂.world = d'.world) ∧
      (d.mishap? run item stage = some .late → d.step (.answer run item stage) = some d') ∧
      ∀ reason, d.mishap? run item stage = some (.told reason) → ∃ d', d.step (.answer run item stage) = some d' ∧
        d'.world.ending? run item = some (.failed (.transformFailure request.transaction.id stage reason))) ∧
    ∀ action d' run item cause, d.stepOrPanic action = some d' → cause.stage? = some stage →
      d'.world.ending? run item = some (.failed cause) → d.world.ending? run item = some (.failed cause) ∨
        ∃ request, d.world.request? run item = some request ∧
          (cause = .transformTimeout request.transaction.id stage timeout.millis ∧ (action = .overdue run item stage ∨
            action = .answer run item stage ∧ d.mishap? run item stage = some .late) ∨
          ∃ reason, cause = .transformFailure request.transaction.id stage reason ∧
            action = .answer run item stage ∧ d.mishap? run item stage = some (.told reason)) := by
  obtain ⟨timed, sound, checked⟩ : d.Timed ∧ d.Sound keys ∧ d.Checked settings := by
    obtain ⟨-, -, checked, -⟩ := checked_of_start started
    have timed := Timed.start started
    have sound := (start_eq_ok started).2
    refine after.invariant (P := fun d => d.Timed ∧ d.Sound keys ∧ d.Checked settings)
      ⟨⟨timed.compressors, timed.signers, timed.errands⟩, ⟨sound.keys_eq, sound.world, sound.compressors, sound.signers,
        sound.errands⟩, checked.settings_eq, checked.pools_eq⟩ ?_
    rintro d action d' ⟨timed, sound, checked⟩ step
    exact ⟨timed.stepOrPanic step, sound.stepOrPanic step, checked.stepOrPanic step⟩
  have own : d.stageTimeout stage = timeout := by rw [stageTimeout, checked.settings_eq, set]
  have word : timeout.millisWord = timeout.millis := Nat.mod_eq_of_lt short
  refine ⟨fun run item payload waiting => ?_, fun action d' run item cause moves transform failed => ?_⟩
  · obtain ⟨request, asked, rfl, answer⟩ := failed_of_payload? waiting
    obtain ⟨d', step, ended⟩ := answer (.timeout (d.stageTimeout stage).millisWord)
    refine ⟨request, d', asked, by cases stage <;> rfl, step, by rw [ended, own, word]; rfl, fun k errand waits => ?_,
      fun late => (timed.answer_eq sound late).trans step, fun reason told => ?_⟩
    · obtain ⟨d₁, expired, world, errands, late⟩ := exists_expire waits
      have wrong : d₁.mishap? run item stage = some .late := by
        rw [mishap?, ask?, errands, ← ask?, errand]
        exact late
      have told := (timed.step expired).answer_eq (sound.step expired).1 wrong
      have kept : d₁.stageTimeout stage = d.stageTimeout stage := by
        rw [stageTimeout, stageTimeout, (checked.step expired).settings_eq, checked.settings_eq]
      obtain ⟨w, moved, rfl⟩ := Option.map_eq_some_iff.1 step
      refine ⟨d₁, { d₁ with world := w }, expired, ?_, rfl⟩
      rw [told, kept, answerItem, world]
      exact Option.map_eq_some_iff.2 ⟨w, moved, rfl⟩
    · obtain ⟨d', step, ended⟩ := answer (.failed reason)
      exact ⟨d', (timed.answer_eq sound told).trans step, ended⟩
  · rcases step_or_panic moves with step | ⟨worker, pool, -, -, rfl⟩ | ⟨worker, pool, -, -, rfl⟩
    · obtain before | ⟨request, mishap, asked, rfl, how⟩ := timed.mishap_of_failed sound step failed transform
      · exact .inl before
      · refine .inr ⟨request, asked, ?_⟩
        rw [own]
        cases mishap with
        | late => exact .inl ⟨by rw [← word]; rfl, how.imp (·.1) id⟩
        | told reason => exact .inr ⟨reason, rfl, how.resolve_left fun early => by cases early.2⟩
    · exact .inl failed
    · exact .inl failed

/-- An item waits for both transforms. The worker that is to sign for it is lost. -/
def lostSignerActions : List Action :=
  let walks (steps : Nat) : List Action := List.replicate steps (.world (.go (.walker 0)))
  let drives (steps : Nat) : List Action := List.replicate steps (.world (.go (.driver 0)))
  [Action.world (.begin {} World.exampleStatement World.exampleTail)] ++ walks 6 ++ [Action.world (.wake 0)] ++ drives 3 ++
    [Action.world (.go (.item 0 0)), .ask 0 0 .compress, .ask 0 0 .sign, .compressor (.enter 0), .signer (.enter 0),
      .signer (.take 0), .signer (.finish 0 .panic), .signer (.notice 0)]

theorem timers_agree_example : ∃ (d₀ d d₁ d₂ d₃ d₄ : Deployment), (start {} exampleStore exampleKeys).result = .ok d₀ ∧
    Reachable (Steps stepOrPanic) (d₀.gate false) d ∧ d.step (.overdue 0 0 .compress) = some d₁ ∧
    d₁.world.ending? 0 0 = some (.failed (.transformTimeout World.exampleTail .compress 60000)) ∧
    d.step (.expire .compress 0) = some d₂ ∧ d₂.step (.answer 0 0 .compress) = some d₃ ∧ d₃.world = d₁.world ∧
    d.step (.answer 0 0 .sign) = some d₄ ∧ d₄.world.ending? 0 0 =
      some (.failed (.transformFailure World.exampleTail .sign "Signature workers unavailable: signer")) := by
  have possible : ((start {} exampleStore exampleKeys).result.toOption.bind fun d₀ =>
      (follow (fun _ _ => true) stepOrPanic (d₀.gate false) lostSignerActions).bind fun d =>
        if d.payload? 0 0 .compress = some [7] ∧ d.payload? 0 0 .sign = some [7] ∧ d.ask? 0 0 .compress = some 0 ∧
          d.isWaiting .compress 0 = true ∧ d.mishap? 0 0 .sign = some (.told "Signature workers unavailable: signer")
        then (d.world.request? 0 0).map (·.transaction.id) else none) = some World.exampleTail := by decide +kernel
  simp only [Option.bind_eq_some_iff, Option.map_eq_some_iff, Option.ite_none_right_eq_some] at possible
  obtain ⟨d₀, started, d, followed, ⟨compressing, signing, errand, waits, told⟩, request, asked, tail⟩ := possible
  have started : (start {} exampleStore exampleKeys).result = .ok d₀ := by
    cases ok : (start {} exampleStore exampleKeys).result <;> simp_all [Except.toOption]
  have after : Reachable (Steps stepOrPanic) (d₀.gate false) d := ⟨_, path_of_follow followed⟩
  have compressSpan : Archiver.stageTimeout ({} : Settings).generation .compress = .ofMillis 60000 := rfl
  have signSpan : Archiver.stageTimeout ({} : Settings).generation .sign = .ofMillis 30000 := rfl
  obtain ⟨compress, -⟩ := timers_agree started after compressSpan (by decide)
  obtain ⟨sign, -⟩ := timers_agree started after signSpan (by decide)
  obtain ⟨request', d₁, asked', -, overdue, late, expires, -⟩ := compress 0 0 [7] compressing
  obtain ⟨d₂, d₃, expired, answered, same⟩ := expires 0 errand waits
  obtain ⟨request'', -, asked'', -, -, -, -, -, fails⟩ := sign 0 0 [7] signing
  obtain ⟨d₄, refused, lost⟩ := fails _ told
  obtain rfl := Option.some.inj (asked.symm.trans asked')
  obtain rfl := Option.some.inj (asked.symm.trans asked'')
  rw [tail] at late lost
  exact ⟨d₀, d, d₁, d₂, d₃, d₄, started, after, overdue, late, expired, answered, same, refused, lost⟩

end Deployment
end ChainArchive
