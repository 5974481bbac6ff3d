import ChainArchive.Proofs.World.FailStop
import ChainArchive.Proofs.World.Rest
import ChainArchive.Proofs.World.Verdict

/-!
# A run in which nothing goes wrong

A run that is alone to write its statement, whose transforms answer and whose
time does not run out, has no item that fails by itself. An item could fail then
only by its relocation; but its record is live until it is taken, and it is in
the archive only after that, for no two items of a run have the same id.
-/

namespace ChainArchive
set_option autoImplicit false

open Archiver (Work Effect Signal)
open Pipeline (Phase Ending Moves Coherent)

/-- Work that ends so has failed by itself, or has panicked. -/
def Pipeline.Ending.isFault : Ending → Bool
  | .panicked => true
  | .failed cause => cause ≠ .aborted
  | _ => false

/-- Nothing goes wrong: a task is stopped, or gets the result of a transform. -/
def Archiver.Signal.isCalm : Signal → Bool
  | .cancel | .answer _ (.ok _) => true
  | _ => false

namespace Archiver

variable {store after : Store} {now : Nat} {raised gated : Bool} {request : ArchivalRequest} {work : Work}
  {effect : Effect}

/-- Work that goes on by itself does not fail, unless the store refuses its record. -/
theorem faultless_of_advance (h : advance store now raised gated request work = some (after, effect))
    (taken : ∀ start asked record, work = .storing start asked record true →
      ∃ after, store.relocate record request.transaction.id = .ok after)
    (e : Ending) (next : effect.next = .ended e) : e.isFault = false := by
  unfold advance at h
  split at h
  · cases h
    cases next
  · cases h
    unfold submit at next
    split at next <;> cases next
    rfl
  · next start asked record =>
    obtain ⟨_, taken⟩ := taken start asked record rfl
    simp only [relocate, taken, Option.some.injEq, Prod.mk.injEq] at h
    obtain ⟨-, rfl⟩ := h
    cases next
    rfl
  · cases h

/-- What comes to the work in a calm does not make it fail, and hands nothing to the store. -/
theorem faultless_of_receive {settings : GenerationSettings} {s : Signal}
    (h : receive settings request work s = some effect) (calm : s.isCalm = true) :
    (∀ e, effect.next = .ended e → e.isFault = false) ∧ ∀ new, effect.next = .working new → new.isStoring = false := by
  cases s with
  | cancel =>
    simp only [receive, Option.ite_none_right_eq_some, Option.some.injEq] at h
    obtain ⟨-, rfl⟩ := h
    refine ⟨?_, ?_⟩ <;> rintro _ ⟨⟩
    rfl
  | answer stage result =>
    cases result with
    | error cause => cases calm
    | ok octets =>
      simp only [receive, answer] at h
      split at h
      · next start compressed signature =>
        cases stage <;> cases compressed <;> cases signature <;> simp at h <;> subst h <;> refine ⟨?_, ?_⟩ <;>
          rintro _ ⟨⟩ <;> rfl
      · cases h
  | expire | proceed | refuse | crash => cases calm

end Archiver

/-! ## The run -/

namespace Run

variable {store after : Store} {now i : Nat} {gated : Bool} {r r' : Run}

theorem faulty_iff : r.Faulty ↔
    ∃ i x e, r.pipeline.phase? i = some x ∧ x.ending? = some e ∧ Ending.isFault e = true := by
  constructor
  · rintro (⟨i, x, found, panicked⟩ | ⟨i, x, cause, found, failed, own⟩)
    · exact ⟨i, x, _, found, panicked, rfl⟩
    · exact ⟨i, x, _, found, failed, by simpa [Ending.isFault] using own⟩
  · rintro ⟨i, x, e, found, ended, fault⟩
    cases e with
    | panicked => exact .inl ⟨i, x, found, ended⟩
    | failed cause => exact .inr ⟨i, x, cause, found, ended, by simpa [Ending.isFault] using fault⟩
    | _ => cases fault

/-- No step of a pipeline makes an item fail but the end of its work. -/
theorem faulty_of_moves {action : Pipeline.Action Work} (coherent : r.pipeline.Coherent)
    (moves : Moves (fun _ => .unstarted) r.pipeline action r'.pipeline)
    (calm : ∀ i e, action = .finishWork i e → e.isFault = false) (faulty : r'.Faulty) : r.Faulty := by
  obtain ⟨i, y, e, now, ended, fault⟩ := faulty_iff.1 faulty
  obtain ⟨request, inside⟩ := Pipeline.items_of_phase? now
  obtain ⟨x, before, moved⟩ | ⟨-, -, begins⟩ := Pipeline.origin_of_moves coherent moves inside
  · refine faulty_iff.2 ⟨i, x, e, Pipeline.phase?_of_items before, ?_, fault⟩
    refine (Phase.ends_of_moved moved ended).resolve_right fun ends => ?_
    cases ends with
    | own _ same => simp [calm i e same] at fault
    | _ => cases fault
  · obtain rfl | rfl | rfl := begins <;> cases ended
    cases fault

/-- A step of the work by which it does not fail makes no item fail. -/
theorem faulty_of_apply {n : Nat} {effect : Effect} (calm : ∀ e, effect.next = .ended e → Ending.isFault e = false)
    (faulty : (({ r with relocations := n } : Run).apply i effect).Faulty) : r.Faulty := by
  by_contra none
  have sane (x : Phase Work) (e : Ending) (is : x.ending? = some e) (j : Nat) (found : r.pipeline.phase? j = some x) :
      e.isFault = false := by
    by_contra fault
    exact none (faulty_iff.2 ⟨j, x, e, found, is, by simpa using fault⟩)
  obtain ⟨j, x, e, found, is, fault⟩ := faulty_iff.1 faulty
  rw [pipeline_apply] at found
  have := Pipeline.forall_setPhase (P := fun x => ∀ e, x.ending? = some e → e.isFault = false)
    (fun j x found e is => sane x e is j found) (fun e is => ?_) j x found e is
  · simp [this] at fault
  · cases next : effect.next with
    | working work => simp [next, Archiver.Next.phase, Phase.ending?] at is
    | ended ending =>
      simp only [next, Archiver.Next.phase, Phase.ending?, Option.some.injEq] at is
      exact is ▸ calm ending next

/-- Nothing has gone wrong in the run: it was not dropped, none of its items has failed by itself, and it does not wait
for the store. -/
structure Smooth (r : Run) : Prop where
  here : r.walker.isGone = false
  faultless : ¬ r.Faulty
  found : ¬ r.AwaitsStore
  stored : ∀ i request start asked record, r.work? i ≠ some (request, .storing start asked record false)

theorem Smooth.begin {settings : GenerationSettings} {statement : StatementId} {last : TransactionId}
    (h : Run.begin settings statement last = .ok r) : Smooth r := by
  have nothing (i : Nat) (x : Phase Work) : r.pipeline.phase? i ≠ some x := by
    simp [Pipeline.phase?, items_begin h]
  have place := walker_begin h
  refine ⟨by rw [place]; rfl, fun faulty => ?_, ?_,
    fun i request start asked record busy => nothing i _ (phase?_of_work? busy)⟩
  · obtain ⟨i, x, _, found, -⟩ := faulty_iff.1 faulty
    exact nothing i x found
  · rintro ⟨_, _, waits⟩
    simp [place] at waits

/-- A step of the pipeline that is none of the work on an item leaves a run smooth. -/
theorem Smooth.moves {s : Run} {action : Pipeline.Action Work} (h : r.Smooth) (sound : r.Sound) (quiet : action.isOfWork = false)
    (moves : Moves (fun _ => .unstarted) r.pipeline action s.pipeline) (here : s.walker.isGone = false)
    (found : ¬ s.AwaitsStore) : s.Smooth := by
  refine ⟨here, fun faulty => h.faultless (faulty_of_moves sound.coherent moves ?_ faulty), found, ?_⟩
  · rintro i e rfl
    cases quiet
  · intro i request start asked record busy
    rcases work?_of_moves sound quiet moves busy with before | fresh
    · exact h.stored i request start asked record before
    · cases fresh

/-- A step of the work on an item leaves a run smooth if it does not fail by it. -/
theorem Smooth.apply {n : Nat} {request : ArchivalRequest} {work : Work} {effect : Effect} (h : r.Smooth)
    (busy : r.work? i = some (request, work)) (calm : ∀ e, effect.next = .ended e → Ending.isFault e = false)
    (stored : ∀ start asked record, effect.next ≠ .working (.storing start asked record false)) :
    (({ r with relocations := n } : Run).apply i effect).Smooth := by
  refine ⟨h.here, fun faulty => h.faultless (faulty_of_apply calm faulty), h.found, ?_⟩
  intro j other start asked record there
  rcases work?_apply busy there with ⟨-, before⟩ | ⟨-, -, next⟩
  · exact h.stored j other start asked record before
  · exact stored start asked record next

end Run

namespace World

variable {w₀ w v : World} {action : Action} {k : Nat} {r r' : Run} {after : Store}

/-- Nothing goes wrong: tasks go on, drivers wake up or are stopped, items are stopped or get the result of a
transform. -/
def Action.isCalm : Action → Bool
  | .go _ | .wake _ | .abandon _ => true
  | .signal _ _ s => s.isCalm
  | _ => false

theorem Action.spares_of_isCalm {statement : StatementId} (calm : action.isCalm = true) : action.spares statement := by
  cases action <;> trivial

/-- In a calm a run stays smooth, as long as the store takes its records. -/
theorem Does.smooth (does : w.Does k r action after r') (sound : r.Sound) (ungated : w.gated = false)
    (calm : action.isCalm = true)
    (taken : ∀ i request start asked record, r.work? i = some (request, .storing start asked record true) →
      ∃ after, w.store.relocate record request.transaction.id = .ok after) (h : r.Smooth) : r'.Smooth := by
  cases does with
  | walks step =>
    have here := step.here h.here
    have found : ¬ r'.AwaitsStore := by
      rintro ⟨current, asked, place⟩
      simpa [ungated] using step.finding place
    obtain ⟨-, same | ⟨b, quiet, moves⟩⟩ := step.pipeline sound
    · refine ⟨here, fun faulty => h.faultless ?_, found, fun i request start asked record busy => ?_⟩
      · rwa [Run.Faulty, same] at faulty
      · rw [Run.work?, same] at busy
        exact h.stored i request start asked record busy
    · exact h.moves sound quiet moves here found
  | drives _ own moves =>
    refine h.moves (s := { r with pipeline := _ }) sound ?_ moves h.here h.found
    obtain rfl | rfl | rfl := own <;> rfl
  | works step =>
    cases step with
    | unwinds unwound =>
      exact h.moves (s := { r with pipeline := _ }) sound rfl (Pipeline.moves_of_unwind unwound) h.here h.found
    | @goesOn request work after effect n busy advanced =>
      refine h.apply busy (Archiver.faultless_of_advance advanced fun start asked record same => ?_) ?_
      · exact taken _ request start asked record (same ▸ busy)
      · intro start asked record next
        obtain ⟨-, _, _, _, same⟩ := Archiver.storing_of_advance advanced next rfl
        simp [ungated] at same
  | @hears i s request work effect busy received =>
    obtain ⟨faultless, quiet⟩ := Archiver.faultless_of_receive received calm
    exact h.apply (n := r.relocations) busy faultless fun start asked record next => by cases quiet _ next
  | proceeds | refuses | drops => cases calm

/-- No step of a world makes relocations fail. -/
theorem Books.failing {outputs : Transforms} (books : Books outputs w action v) : v.store.failing = w.store.failing := by
  cases books with
  | neither store => rw [store]
  | item _ _ _ taken => rw [(Store.relocate_eq_ok taken).2.2]
  | inserted => rfl
  | moved taken => rw [(Store.relocate_eq_ok taken).2.2]

/-- Run `k` is alone to write its statement, and nothing has gone wrong. -/
structure Smooth (outputs : Transforms) (find : TransactionId → Option Transaction) (first : TransactionId)
    (statement : StatementId) (k : Nat) (w : World) : Prop where
  writing : Writing outputs find first statement k w
  obeying : w.store.failing = []
  ungated : w.gated = false
  run : ∀ r, w.runs[k]? = some r → r.Smooth ∧ ∀ id, r.Held (w.store.find? id) id

namespace Smooth

variable {outputs : Transforms} {find : TransactionId → Option Transaction} {first : TransactionId}
  {statement : StatementId}

theorem begin {settings : GenerationSettings} (sound : w.Sound outputs) (unused : w.Unused statement)
    (obeying : w.store.failing = []) (ungated : w.gated = false) (begun : Run.begin settings statement first = .ok r) :
    Smooth outputs w.store.find? first statement w.runs.length { w with runs := w.runs ++ [r] } := by
  have step : w.step (.begin settings statement first) = some { w with runs := w.runs ++ [r] } := by
    simp only [World.step, begun]
  refine ⟨.begin sound unused step, obeying, ungated, fun s there => ?_⟩
  obtain rfl : r = s := by simpa using there
  exact ⟨.begin begun, fun _ => .begin begun⟩

/-- The store takes the record of every item that hands one over. -/
theorem taken (h : Smooth outputs find first statement k w) (found : w.runs[k]? = some r) (itinerary : r.Itinerary)
    (i : Nat) (request : ArchivalRequest) (start asked : Nat) (record : ArchivedTransaction)
    (busy : r.work? i = some (request, .storing start asked record true)) :
    ∃ after, w.store.relocate record request.transaction.id = .ok after := by
  have inside := Run.items_of_work? busy
  have isRecord : RecordOf outputs request record := (h.writing.sound k r found).2 i request _ busy
  have live : w.store.isLive request.transaction.id = true := by
    have := ((h.run r found).2 _).handed i _ inside rfl rfl
    simp [Store.isLive, this]
  have mine : request.statement = statement := by
    obtain ⟨s, there, own, -⟩ := h.writing.run
    obtain rfl := Option.some.inj (found.symm.trans there)
    exact ((h.writing.sound k r found).1.numbered i _ inside).1.trans own
  -- a record of this id that is in the archive would be that of an item which is done
  have absent : w.store.isArchived record.statement record.id = false := by
    by_contra archived
    simp only [Store.isArchived, Bool.not_eq_false, List.any_eq_true, Bool.and_eq_true, beq_iff_eq] at archived
    obtain ⟨other, member, same, id⟩ := archived
    obtain ⟨order, -, -, records⟩ := h.writing.booked
    have under : other ∈ w.store.archivedFor statement := by
      simp [Store.archivedFor, member, same, isRecord.statement, mine]
    obtain ⟨n, bound, rfl⟩ := List.mem_iff_getElem.1 under
    obtain ⟨request', ⟨s, item, there, inside', rfl, done⟩, isOther⟩ :=
      records.get (records.length_eq ▸ bound) bound
    obtain rfl := Option.some.inj (found.symm.trans there)
    have ids : item.request.transaction.id = request.transaction.id :=
      isOther.id.symm.trans (id.trans isRecord.id)
    have again := itinerary.eq_of_id inside' inside ids
    rw [again, inside, Option.some.injEq] at inside'
    rw [← inside'] at done
    cases done
  exact ⟨_, by simp [Store.relocate, Store.obstacle?, h.obeying, live, absent]; rfl⟩

/-- In a calm nothing goes wrong. -/
theorem step (h : Smooth outputs find first statement k w) (idle : w₀.runs = []) (keyed₀ : w₀.store.Keyed)
    (reach : Reachable (Steps World.step) w₀ w) (keyed : ∀ id t, find id = some t → t.id = id)
    (step : w.step action = some v) (answers : w.Answers outputs action) (calm : action.isCalm = true)
    (own : action.run? = some k) : Smooth outputs find first statement k v := by
  have change := h.writing.sound.change_of_step step answers
  have books := h.writing.sound.books change
  refine ⟨h.writing.change keyed change (Action.spares_of_isCalm calm), books.failing.trans h.obeying,
    (gated_of_step step).trans h.ungated, fun r' found' => ?_⟩
  obtain ⟨r, after, next, found, does, rfl⟩ := does_of_step step own
  obtain rfl : next = r' := Option.some.inj ((runs_setRun_self found).symm.trans found')
  obtain ⟨smooth, held⟩ := h.run r found
  have itinerary := itinerary_reachable idle keyed₀ reach found
  exact ⟨does.smooth (h.writing.sound k r found).1 h.ungated calm (h.taken found itinerary) smooth,
    fun id => held_of_step (accountable_reachable idle reach).1 (keyed_reachable idle keyed₀ reach) step own found found'
      (itinerary_reachable idle keyed₀ (reach.tail step) found') (held id)⟩

end Smooth
end World
end ChainArchive
