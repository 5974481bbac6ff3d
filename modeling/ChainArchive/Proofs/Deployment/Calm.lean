import ChainArchive.Proofs.Deployment.Start
import ChainArchive.Proofs.World.Calm

/-!
# A deployment left to itself

When no time runs out and nothing comes from outside, the run of a deployment
goes on until it is over. Its items ask for their transforms once, the pools
answer every ask, and each answer brings its item on. All of this takes a bounded
number of steps, in whatever order they are taken, and the run answers what its
chain means.
-/

namespace ChainArchive.Deployment
set_option autoImplicit false

open Archiver (Work)
open World (Undisturbed)

variable {keys : Rsa.KeyPair} {store : Store} {statement : StatementId} {last : TransactionId} {d d' : Deployment}
  {action : Action} {r : Run}

/-- What may happen by itself: in the world, between items and pools, and in the pools. -/
def Calm (d : Deployment) : Action → Prop
  | .world action => d.world.Own action
  | .compressor action => action.isOwn = true
  | .signer action => action.isOwn = true
  | .ask .. | .answer .. => True
  | .overdue .. => False

/-- How much a deployment has before it. What its runs have set aside for transforms pays for the asks. -/
def effort (d : Deployment) : Nat :=
  (d.world.runs.map fun r => r.ahead d.world.store).sum + d.compression.compressors.cost + d.signature.signers.cost -
    5 * d.errands.length

/-- What an errand is for. -/
def purpose (e : Errand) : Nat × Nat × TransformStage := (e.run, e.item, e.stage)

/-- Every payload can be compressed. -/
theorem replies_compressHandler : Pool.Replies compressHandler := fun _ payload =>
  ⟨Codec.compress payload, by simp [compressHandler, CompressionService.compressHandler, Codec.compressInChunks_eq]⟩

/-! ## What holds in a calm -/

/-- The only run of a deployment writes its statement, nothing has gone wrong, and the pools serve. -/
structure Serene (keys : Rsa.KeyPair) (store : Store) (statement : StatementId) (last : TransactionId) (d : Deployment) :
    Prop where
  sound : d.Sound keys
  smooth : World.Smooth (outputs keys) store.find? last statement 0 d.world
  reach : Reachable (Steps World.step) { store } d.world
  touring : World.Touring store.find? last 0 d.world
  single : ∃ r, d.world.runs = [r]
  compressors : Pool.Serving d.compression.compressors
  signers : Pool.Serving d.signature.signers
  distinct : (d.errands.map purpose).Nodup

/-- Who finds a run in a deployment with a single run has found that one. -/
theorem eq_of_single {k : Nat} {s : Run} (single : d.world.runs = [r]) (found : d.world.runs[k]? = some s) :
    k = 0 ∧ r = s := by
  rw [single, List.getElem?_singleton] at found
  split at found <;> cases found
  exact ⟨by assumption, rfl⟩

namespace Serene

/-- For each item there are two errands at most. -/
theorem errands_le (h : Serene keys store statement last d) (single : d.world.runs = [r]) :
    d.errands.length ≤ 2 * r.pipeline.items.length := by
  let purposes := (List.range r.pipeline.items.length).flatMap fun item =>
    [(0, item, TransformStage.compress), (0, item, TransformStage.sign)]
  have inside : d.errands.map purpose ⊆ purposes := by
    intro aim member
    obtain ⟨e, there, rfl⟩ := List.mem_map.1 member
    obtain ⟨request, here, -⟩ := h.sound.errands e there
    simp only [World.request?, Option.bind_eq_some_iff, Option.map_eq_some_iff] at here
    obtain ⟨s, found, item, inside, -⟩ := here
    obtain ⟨zero, rfl⟩ := eq_of_single single found
    refine List.mem_flatMap.2 ⟨e.item, List.mem_range.2 (List.getElem?_eq_some_iff.1 inside).1, ?_⟩
    cases stage : e.stage <;> simp [purpose, zero, stage]
  have bound := (List.subperm_of_subset h.distinct inside).length_le
  simpa [purposes, Nat.mul_comm] using bound

theorem effort_eq (h : Serene keys store statement last d) (single : d.world.runs = [r]) :
    5 * d.errands.length + d.effort =
      r.ahead d.world.store + d.compression.compressors.cost + d.signature.signers.cost := by
  have few := h.errands_le single
  have aside : 100 * r.pipeline.items.length ≤ r.ahead d.world.store := by
    unfold Run.ahead
    omega
  simp only [effort, single, List.map_singleton, List.sum_singleton]
  omega

/-! ## Steps -/

/-- A step of the world in a calm. -/
theorem setWorld (h : Serene keys store statement last d) (keyed : store.Keyed) {move : World.Action} {world : World}
    (step : d.world.step move = some world) (answers : d.world.Answers (outputs keys) move) (calm : move.isCalm = true)
    (own : ∃ k, move.run? = some k)
    (awaited : ∀ run r, move = .wake run → d.world.runs[run]? = some r → r.pipeline.isAwaited = true) :
    Serene keys store statement last { d with world } ∧ ({ d with world } : Deployment).effort < d.effort := by
  obtain ⟨r, single⟩ := h.single
  obtain ⟨k, own⟩ := own
  obtain ⟨s, after, r', found, does, is⟩ := World.does_of_step step own
  obtain ⟨rfl, rfl⟩ := eq_of_single single found
  have single' : world.runs = [r'] := by simp [is, World.setRun, single]
  have idle : ({ store } : World).runs = [] := rfl
  have next : Serene keys store statement last { d with world } :=
    ⟨h.sound.setWorld step answers, h.smooth.step idle keyed h.reach keyed step answers calm own, h.reach.tail step,
      h.touring.step keyed ⟨step, .inl own⟩, ⟨r', single'⟩, h.compressors, h.signers, h.distinct⟩
  refine ⟨next, ?_⟩
  have less := World.ahead_lt_of_step found (h.touring.sound 0 r found).1
    (World.lively_reachable idle h.reach 0 r found) calm (fun wakes => awaited 0 r wakes found) own step
    (by rw [single']; rfl)
  have before := h.effort_eq single
  have now := next.effort_eq single'
  dsimp only at now
  omega

/-- The compressing workers go on by themselves, or are asked. -/
theorem setCompressors (h : Serene keys store statement last d) {b : Pool.Action Bytes Bytes CompressionError}
    {pool : Pool Bytes Bytes CompressionError} (allowed : d.compression.compressors.obeys compressHandler b = true)
    (own : b.isOwn = true ∨ ∃ request timeout, b = .ask request timeout)
    (step : d.compression.compressors.step b = some pool) :
    Serene keys store statement last (d.setCompressors pool) :=
  ⟨h.sound.setCompressors allowed step, h.smooth, h.reach, h.touring, h.single,
    h.compressors.moves replies_compressHandler allowed own (Pool.moves_of_step step), h.signers, h.distinct⟩

/-- The signing workers go on by themselves, or are asked. -/
theorem setSigners (h : Serene keys store statement last d) (able : Pool.Replies (SignatureService.signHandler keys))
    {b : Pool.Action Bytes Bytes Rsa.SignatureError} {pool : Pool Bytes Bytes Rsa.SignatureError}
    (allowed : d.signature.signers.obeys (SignatureService.signHandler keys) b = true)
    (own : b.isOwn = true ∨ ∃ request timeout, b = .ask request timeout)
    (step : d.signature.signers.step b = some pool) : Serene keys store statement last (d.setSigners pool) :=
  ⟨h.sound.setSigners allowed step, h.smooth, h.reach, h.touring, h.single, h.compressors,
    h.signers.moves able allowed own (Pool.moves_of_step step), h.distinct⟩

/-- An item asks for a transform, for the first time. -/
theorem askFor (h : Serene keys store statement last d) (able : Pool.Replies (SignatureService.signHandler keys))
    {run item : Nat} {stage : TransformStage} {payload : Bytes} (fresh : d.ask? run item stage = none)
    (about : d.payload? run item stage = some payload) (asks : d.askFor run item stage payload = some d') :
    Serene keys store statement last d' ∧ d'.effort < d.effort := by
  obtain ⟨r, single⟩ := h.single
  have sound := (h.sound.ask about asks).1
  have distinct (ask : Nat) : ((d.errands ++ [(⟨run, item, stage, ask⟩ : Errand)]).map purpose).Nodup := by
    rw [List.map_append, List.nodup_append]
    refine ⟨h.distinct, by simp, ?_⟩
    rintro aim member _ new rfl
    obtain ⟨e, there, same⟩ := List.mem_map.1 member
    obtain rfl : aim = (run, item, stage) := by simpa [purpose] using new
    simp only [purpose, Prod.mk.injEq] at same
    simp only [ask?, Option.map_eq_none_iff] at fresh
    simpa [same] using List.find?_eq_none.1 fresh e there
  have before := h.effort_eq single
  cases stage with
  | compress =>
    simp only [Deployment.askFor, Option.map_eq_some_iff] at asks
    obtain ⟨pool, step, rfl⟩ := asks
    have kept := h.setCompressors rfl (.inr ⟨_, _, rfl⟩) step
    have next : Serene keys store statement last { d.setCompressors pool with
        errands := d.errands ++ [⟨run, item, .compress, d.compression.compressors.asks.length⟩] } :=
      ⟨sound, kept.smooth, kept.reach, kept.touring, kept.single, kept.compressors, kept.signers, distinct _⟩
    refine ⟨next, ?_⟩
    have now := next.effort_eq single
    cases Pool.moves_of_step step
    simp only [List.length_append, List.length_singleton, Deployment.setCompressors, Pool.cost_begin] at now ⊢
    omega
  | sign =>
    simp only [Deployment.askFor, Option.map_eq_some_iff] at asks
    obtain ⟨pool, step, rfl⟩ := asks
    have kept := h.setSigners able rfl (.inr ⟨_, _, rfl⟩) step
    have next : Serene keys store statement last { d.setSigners pool with
        errands := d.errands ++ [⟨run, item, .sign, d.signature.signers.asks.length⟩] } :=
      ⟨sound, kept.smooth, kept.reach, kept.touring, kept.single, kept.compressors, kept.signers, distinct _⟩
    refine ⟨next, ?_⟩
    have now := next.effort_eq single
    cases Pool.moves_of_step step
    simp only [List.length_append, List.length_singleton, Deployment.setSigners, Pool.cost_begin] at now ⊢
    omega

/-- What a transform answers is a result. -/
theorem ok_of_transformed? (h : Serene keys store statement last d) {stage : TransformStage} {ask : Nat}
    {result : Except TransformError Bytes} (answered : d.transformed? stage ask = some result) :
    ∃ octets, result = .ok octets := by
  cases stage with
  | compress =>
    obtain ⟨own, told, rfl⟩ := Option.map_eq_some_iff.1 answered
    obtain ⟨reply, rfl⟩ := h.compressors.ok_of_result told
    exact ⟨reply, rfl⟩
  | sign =>
    obtain ⟨own, told, rfl⟩ := Option.map_eq_some_iff.1 answered
    obtain ⟨reply, rfl⟩ := h.signers.ok_of_result told
    exact ⟨reply, rfl⟩

/-- Whatever happens by itself leaves less to do, and nothing wrong. -/
theorem step (h : Serene keys store statement last d) (keyed : store.Keyed)
    (able : Pool.Replies (SignatureService.signHandler keys)) (calm : d.Calm action) (step : d.step action = some d') :
    Serene keys store statement last d' ∧ d'.effort < d.effort := by
  obtain ⟨r, single⟩ := h.single
  have before := h.effort_eq single
  cases action with
  | world move =>
    simp only [Deployment.step, Option.ite_none_right_eq_some, Option.map_eq_some_iff] at step
    obtain ⟨-, world, step, rfl⟩ := step
    refine h.setWorld keyed step ?_ (World.Own.calm calm) (World.Own.run calm) fun run s is found => ?_
    · unfold World.Answers
      split
      · cases calm
      · trivial
    · subst is
      obtain ⟨t, there, awaited⟩ := calm
      exact Option.some.inj (found.symm.trans there) ▸ awaited
  | compressor b =>
    simp only [Deployment.step, Option.ite_none_right_eq_some, Option.map_eq_some_iff] at step
    obtain ⟨allowed, pool, step, rfl⟩ := step
    have next := h.setCompressors allowed (.inl calm) step
    refine ⟨next, ?_⟩
    have less := Pool.cost_lt_of_moves (Pool.moves_of_step step) calm
    have now := next.effort_eq single
    simp only [Deployment.setCompressors] at now ⊢
    omega
  | signer b =>
    simp only [Deployment.step, Option.ite_none_right_eq_some, Option.map_eq_some_iff] at step
    obtain ⟨allowed, pool, step, rfl⟩ := step
    rw [signHandler, h.sound.keys_eq] at allowed
    have next := h.setSigners able allowed (.inl calm) step
    refine ⟨next, ?_⟩
    have less := Pool.cost_lt_of_moves (Pool.moves_of_step step) calm
    have now := next.effort_eq single
    simp only [Deployment.setSigners] at now ⊢
    omega
  | ask run item stage =>
    simp only [Deployment.step] at step
    split at step
    · cases step
    · next fresh =>
      obtain ⟨payload, about, asks⟩ := Option.bind_eq_some_iff.1 step
      exact h.askFor able fresh about asks
  | answer run item stage =>
    simp only [Deployment.step, Option.bind_eq_some_iff] at step
    obtain ⟨result, ⟨ask, errand, answered⟩, step⟩ := step
    obtain ⟨octets, rfl⟩ := h.ok_of_transformed? answered
    obtain ⟨-, moved, answers⟩ := h.sound.answerItem (fun octets ok => h.sound.answers errand (ok ▸ answered)) step
    obtain ⟨world, -, rfl⟩ := Option.map_eq_some_iff.1 step
    exact h.setWorld keyed moved answers rfl ⟨_, rfl⟩ fun _ _ is => by cases is
  | overdue => cases calm

end Serene

/-! ## What comes next -/

/-- The next thing that happens is possible. -/
theorem calm_of_nextAction (h : d.nextAction = some action) : d.Calm action ∧ ∃ d', d.step action = some d' := by
  unfold nextAction at h
  split at h
  · next move next =>
    cases h
    obtain ⟨own, world, step⟩ := World.own_of_nextAction next
    refine ⟨own, { d with world }, ?_⟩
    have admitted : d.admits move = true := by
      cases move with
      | go | wake | abandon => rfl
      | signal run item s => cases s <;> first | rfl | cases own
      | _ => cases own
    simp [step, Deployment.step, admitted]
  · split at h
    · next found =>
      cases h
      obtain ⟨place, -, is⟩ := List.exists_of_findSome?_eq_some found
      refine ⟨?_, Option.isSome_iff_exists.1 (by simpa using List.find?_some is)⟩
      have member := List.mem_of_find?_eq_some is
      simp only [transformActions, List.mem_cons, List.not_mem_nil, or_false] at member
      obtain rfl | rfl | rfl | rfl := member <;> trivial
    · split at h
      · next b next =>
        cases h
        obtain ⟨own, allowed, pool, step⟩ := Pool.step_of_nextAction next
        exact ⟨own, d.setCompressors pool, by simp [Deployment.step, allowed, step]⟩
      · obtain ⟨b, next, rfl⟩ := Option.map_eq_some_iff.1 h
        obtain ⟨own, allowed, pool, step⟩ := Pool.step_of_nextAction next
        exact ⟨own, d.setSigners pool, by simp [Deployment.step, allowed, step]⟩

/-- What a deployment that rests cannot do. -/
theorem rests_iff : d.nextAction = none ↔ d.world.nextAction = none ∧
    (∀ place ∈ d.world.places, ∀ action ∈ transformActions place, d.step action = none) ∧
    d.compression.compressors.nextAction compressHandler = none ∧
    d.signature.signers.nextAction d.signHandler = none := by
  have nowhere : (d.world.places.findSome? fun place => d.firstPossible (transformActions place)) = none ↔
      ∀ place ∈ d.world.places, ∀ action ∈ transformActions place, d.step action = none := by
    simp [firstPossible]
  rw [← nowhere]
  unfold nextAction
  generalize d.world.nextAction = inWorld
  generalize (d.world.places.findSome? fun place => d.firstPossible (transformActions place)) = between
  generalize d.compression.compressors.nextAction compressHandler = inPool
  cases inWorld <;> cases between <;> cases inPool <;> simp

namespace Serene

/-- A transform that an item waits for, in a deployment that rests. -/
theorem answers_of_rest (h : Serene keys store statement last d) (able : Pool.Replies (SignatureService.signHandler keys))
    (rests : d.nextAction = none) {item : Nat} {stage : TransformStage} {payload : Bytes}
    (about : d.payload? 0 item stage = some payload) : ∃ octets, d.answerItem 0 item stage (.ok octets) = none := by
  obtain ⟨-, nowhere, compressors, signers⟩ := rests_iff.1 rests
  rw [signHandler, h.sound.keys_eq] at signers
  have place : (0, item) ∈ d.world.places := by
    simp only [payload?, Option.bind_eq_bind, Option.bind_eq_some_iff] at about
    obtain ⟨r, found, ⟨request, work⟩, busy, -⟩ := about
    exact World.mem_places.2 ⟨r, found, (List.getElem?_eq_some_iff.1 (Run.items_of_work? busy)).1⟩
  have asks := nowhere _ place (.ask 0 item stage) (by cases stage <;> simp [transformActions])
  have answers := nowhere _ place (.answer 0 item stage) (by cases stage <;> simp [transformActions])
  cases errand : d.ask? 0 item stage with
  | none =>
    -- it has not asked, but could
    simp only [Deployment.step, errand, about, Option.bind_some] at asks
    cases stage with
    | compress => simp [Deployment.askFor, Pool.step, h.compressors.isOpen] at asks
    | sign => simp [Deployment.askFor, Pool.step, h.signers.isOpen] at asks
  | some ask =>
    -- the pool has answered it
    obtain ⟨e, found, rfl⟩ := Option.map_eq_some_iff.1 errand
    obtain ⟨request, -, asked⟩ := h.sound.errands e (List.mem_of_find?_eq_some found)
    have named := List.find?_some found
    simp only [Bool.and_eq_true, beq_iff_eq] at named
    obtain ⟨-, rfl⟩ := named
    obtain ⟨octets, told⟩ : ∃ octets, d.transformed? e.stage e.ask = some (.ok octets) := by
      cases stage : e.stage with
      | compress =>
        rw [stage] at asked
        obtain ⟨a, there, -⟩ := Option.map_eq_some_iff.1 asked
        obtain ⟨reply, replied⟩ := h.compressors.replied_of_rest replies_compressHandler compressors _ a there
        exact ⟨reply, by simp [transformed?, Pool.result?_of_over there replied, TransformError.compressResult,
          Except.mapError]⟩
      | sign =>
        rw [stage] at asked
        obtain ⟨a, there, -⟩ := Option.map_eq_some_iff.1 asked
        obtain ⟨reply, replied⟩ := h.signers.replied_of_rest able signers _ a there
        exact ⟨reply, by simp [transformed?, Pool.result?_of_over there replied, TransformError.signResult,
          Except.mapError]⟩
    exact ⟨octets, by simpa [Deployment.step, errand, told] using answers⟩

/-- A deployment rests only when its run is over. -/
theorem result_of_rest (h : Serene keys store statement last d) (able : Pool.Replies (SignatureService.signHandler keys))
    (rests : d.nextAction = none) (single : d.world.runs = [r]) : ∃ result, r.result? = some result := by
  by_contra going
  have found : d.world.runs[0]? = some r := by rw [single]; rfl
  have idle : ({ store } : World).runs = [] := rfl
  obtain ⟨sound, accountable⟩ := World.accountable_reachable idle h.reach
  obtain ⟨i, request, start, compressed, signature, busy, missing⟩ := World.waits_of_rest found (h.smooth.run r found).1
    (sound 0 r found).1 (accountable 0 r found) (World.lively_reachable idle h.reach 0 r found)
    (fun action v own => by simp [World.step_of_rest (rests_iff.1 rests).1 own])
    (Option.not_isSome_iff_eq_none.1 fun some => going (Option.isSome_iff_exists.1 some))
  rcases missing with rfl | rfl
  · have about : d.payload? 0 i .compress = some request.transaction.payload := by
      simp [payload?, found, busy]
      rfl
    obtain ⟨octets, none⟩ := h.answers_of_rest able rests about
    simp [answerItem, World.step, World.onRun, found, Run.signal, busy, Archiver.receive, Archiver.answer] at none
  · have about : d.payload? 0 i .sign = some request.transaction.payload := by
      simp [payload?, found, busy]
      rfl
    obtain ⟨octets, none⟩ := h.answers_of_rest able rests about
    simp [answerItem, World.step, World.onRun, found, Run.signal, busy, Archiver.receive, Archiver.answer] at none

/-- What a run answers is what the end of its chain means. -/
theorem verdict (h : Serene keys store statement last d) (single : d.world.runs = [r])
    {result : Except GenerationError Receipt} (answered : r.result? = some result) {chain : List Transaction}
    {stop : ChainEnd} (whole : Chain store.find? [] last chain stop) : result = stop.verdict statement chain.length := by
  have found : d.world.runs[0]? = some r := by rw [single]; rfl
  obtain ⟨s, there, mine, -⟩ := h.smooth.writing.run
  obtain ⟨-, rfl⟩ := eq_of_single single there
  rw [← mine]
  exact h.touring.verdict found answered (h.smooth.run r found).1.faultless whole

end Serene

/-! ## The only run of a deployment -/

/-- A run has begun in a deployment in which nothing has happened before. -/
theorem Fresh.begin {settings : Settings} (h : d.Fresh settings store keys) (statement : StatementId)
    (last : TransactionId) (positive : 1 ≤ settings.generation.parallelism) (unused : store.archivedFor statement = [])
    (obeying : store.failing = []) : Serene keys store statement last (d.begin statement last) ∧
      (d.begin statement last).effort ≤ (d.begin statement last).bound := by
  obtain ⟨r, begun⟩ : ∃ r, Run.begin settings.generation statement last = .ok r :=
    ⟨_, by rw [Run.begin, Pipeline.start, if_neg (by omega)]; rfl⟩
  have next : d.begin statement last = { d with world := { store, runs := [r] } } := by
    simp [Deployment.begin, act, Deployment.step, admits, h.settings_eq, h.world, World.step, begun]
  obtain ⟨_, _, compressors⟩ := h.compressors
  obtain ⟨_, _, signers⟩ := h.signers
  have step : ({ store } : World).step (.begin settings.generation statement last) = some { store, runs := [r] } := by
    simp [World.step, begun]
  have idle : World.Sound (outputs keys) { store } := .start rfl
  have sound : ({ d with world := { store, runs := [r] } } : Deployment).Sound keys := by
    refine ⟨h.keys_eq, ?_, .start compressors, .start signers, by simp [h.errands]⟩
    exact idle.change (.begun begun)
  have serene : Serene keys store statement last { d with world := { store, runs := [r] } } :=
    ⟨sound, .begin idle ⟨unused, by simp⟩ obeying rfl begun, (Reachable.refl _ _).tail step,
      .begin rfl rfl (.refl _ _) begun step, ⟨r, rfl⟩, .start compressors, .start signers, by simp [h.errands]⟩
  rw [next]
  refine ⟨serene, ?_⟩
  have ahead : r.ahead store ≤ 70 + 400 * store.live.length := Run.ahead_begin begun
  have nothing := serene.effort_eq rfl
  simp only [Pool.cost_start compressors, Pool.cost_start signers] at nothing
  simp only [bound, World.bound, List.length_singleton]
  omega

/-- A deployment in which nothing has happened begins to write a statement. In whatever order its tasks, items and
workers act, after a bounded number of steps its run is over, and it answers what the end of its chain means. -/
theorem comes_to_verdict {settings : Settings} (fresh : d.Fresh settings store keys) (keyed : store.Keyed)
    (positive : 1 ≤ settings.generation.parallelism) (unused : store.archivedFor statement = [])
    (obeying : store.failing = []) (able : Pool.Replies (SignatureService.signHandler keys)) {chain : List Transaction}
    {stop : ChainEnd} (whole : Chain store.find? [] last chain stop) :
    (∀ actions d', Path (Restricted Calm (Steps step)) (d.begin statement last) actions d' →
      actions.length ≤ (d.begin statement last).bound ∧ ∃ r, d'.world.runs = [r] ∧
        (r.result? = some (stop.verdict statement chain.length) ∨
          r.result? = none ∧ ∃ action d'', d'.Calm action ∧ d'.step action = some d'')) ∧
    ∃ r, (d.begin statement last).rest.world.runs = [r] ∧
      r.result? = some (stop.verdict statement chain.length) := by
  obtain ⟨serene, enough⟩ := fresh.begin statement last positive unused obeying
  refine ⟨fun actions d' path => ?_, ?_⟩
  · obtain ⟨serene, bound⟩ := path.length_le effort (P := Serene keys store statement last)
      (fun _ _ _ serene step => serene.step keyed able step.1 step.2) serene
    obtain ⟨r, single⟩ := serene.single
    refine ⟨by omega, r, single, ?_⟩
    cases answered : r.result? with
    | some result => exact .inl (by rw [serene.verdict single answered whole])
    | none =>
      refine .inr ⟨rfl, ?_⟩
      cases next : d'.nextAction with
      | some action =>
        obtain ⟨calm, d'', step⟩ := calm_of_nextAction next
        exact ⟨action, d'', calm, step⟩
      | none =>
        obtain ⟨result, some⟩ := serene.result_of_rest able next single
        simp [answered] at some
  · have goesOn (d d' : Deployment) (serene : Serene keys store statement last d) (step : d.advance = some d') :
        Serene keys store statement last d' ∧ d'.effort < d.effort := by
      obtain ⟨action, next, step⟩ := Option.bind_eq_some_iff.1 step
      exact serene.step keyed able (calm_of_nextAction next).1 step
    obtain ⟨serene, rests⟩ := rests_settle effort goesOn serene enough
    obtain ⟨r, single⟩ := serene.single
    have rests : (d.begin statement last).rest.nextAction = none := by
      cases next : (d.begin statement last).rest.nextAction with
      | none => rfl
      | some action =>
        obtain ⟨-, d', step⟩ := calm_of_nextAction next
        change ((d.begin statement last).rest.nextAction).bind (d.begin statement last).rest.step = none at rests
        simp [next, step] at rests
    obtain ⟨result, answered⟩ := serene.result_of_rest able rests single
    exact ⟨r, single, by rw [answered, serene.verdict single answered whole]⟩

end ChainArchive.Deployment
