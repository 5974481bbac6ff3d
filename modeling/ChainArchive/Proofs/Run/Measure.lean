import ChainArchive.Proofs.Pipeline.Headway
import ChainArchive.Proofs.Run.Sound
import ChainArchive.Proofs.Store.Relocation

/-!
# How much a run has before it

A walk calls for at most one item for each live record that it has not visited,
an item goes through its phases once, and a driver that is woken only for a
reason brings something on. So there is a bound on what a run can still do by
itself, and every step that it takes by itself lowers it, whether a transform or
the store answers, an item is stopped or the run goes on as planned.
-/

namespace ChainArchive
set_option autoImplicit false

open Archiver (Work Effect)
open Pipeline (Phase Moves Coherent)

/-! ## The work on an item -/

/-- How many steps the work on an item still takes, the answers that it waits for included. -/
def Archiver.Work.toil : Work → Nat
  | .unstarted => 6
  | .transforming _ compressed signature => 3 + compressed.isNone.toNat + signature.isNone.toNat
  | .storing _ _ _ answering => 1 + (!answering).toNat

namespace Archiver

variable {settings : GenerationSettings} {request : ArchivalRequest} {work new : Work} {effect : Effect}

/-- What the work does by itself leaves less of it. -/
theorem toil_of_advance {store after : Store} {now : Nat} {raised gated : Bool}
    (h : advance store now raised gated request work = some (after, effect)) (next : effect.next = .working new) :
    new.toil < work.toil := by
  unfold advance at h
  split at h
  · cases h
    cases next
    simp [Work.toil]
  · cases h
    unfold submit at next
    split at next <;> cases next
    cases gated <;> simp [Work.toil]
  · next start asked record =>
    simp only [Option.some.injEq, relocate] at h
    split at h <;> cases h <;> cases next
  · cases h

/-- It inserts no record. -/
theorem liveIds_of_advance {store after : Store} {now : Nat} {raised gated : Bool}
    (h : advance store now raised gated request work = some (after, effect)) :
    after.liveIds.Sublist store.liveIds := by
  unfold advance at h
  split at h
  · cases h
    exact .refl _
  · cases h
    exact .refl _
  · simp only [Option.some.injEq, relocate] at h
    split at h <;> cases h
    · next taken =>
      rw [(Store.relocate_eq_ok taken).2.2]
      exact List.filter_sublist.map _
    · exact .refl _
  · cases h

/-- So does whatever comes to it from outside. -/
theorem toil_of_receive {s : Signal} (h : receive settings request work s = some effect)
    (next : effect.next = .working new) : new.toil < work.toil := by
  cases s with
  | answer stage result =>
    simp only [receive, answer] at h
    split at h
    · next start compressed signature =>
      cases stage <;> cases compressed <;> cases signature <;> cases result <;> simp at h <;> subst h <;> cases next <;>
        simp [Work.toil]
    · cases h
  | proceed =>
    simp only [receive] at h
    split at h <;> cases h
    cases next
    simp [Work.toil]
  | refuse cause =>
    simp only [receive] at h
    split at h <;> cases h
    cases next
  | expire | crash | cancel =>
    simp only [receive, Option.ite_none_right_eq_some, Option.some.injEq] at h
    obtain ⟨-, rfl⟩ := h
    cases next

end Archiver

/-- The phase of an item after a step of the work on it. -/
def Archiver.Next.phase : Archiver.Next → Phase Work
  | .working work => .working work
  | .ended ending => .ended ending

@[simp] theorem Run.pipeline_apply (r : Run) (i : Nat) (effect : Effect) :
    (r.apply i effect).pipeline = r.pipeline.setPhase i effect.next.phase := by
  unfold apply
  cases effect.next <;> rfl

@[simp] theorem Run.walker_apply (r : Run) (i : Nat) (effect : Effect) : (r.apply i effect).walker = r.walker := rfl

/-- How many steps of work an item still asks for. -/
def Pipeline.Phase.toil : Phase Work → Nat
  | .waiting | .granted | .holding | .counted _ | .noted | .queued => 6
  | .working work => work.toil
  | _ => 0

namespace Pipeline

variable {σ : Type} {p q : Pipeline σ} {i : Nat} {x y : Phase σ}

/-- What all items weigh after one of them has gone into another phase. -/
theorem load_setPhase {f : Phase σ → Nat} (found : p.phase? i = some x) :
    (p.setPhase i y).load f + f x = p.load f + f y := by
  obtain ⟨request, inside⟩ := items_of_phase? found
  have member : i ∈ Finset.range p.items.length := Finset.mem_range.2 (List.getElem?_eq_some_iff.1 inside).1
  have length : (p.setPhase i y).items.length = p.items.length := by simp [setPhase]
  have others : ∑ j ∈ (Finset.range p.items.length).erase i, ((p.setPhase i y).phase? j).elim 0 f =
      ∑ j ∈ (Finset.range p.items.length).erase i, (p.phase? j).elim 0 f := by
    refine Finset.sum_congr rfl fun j away => ?_
    rw [phase?_setPhase, if_neg (Finset.ne_of_mem_erase away).symm]
  unfold load
  rw [length, ← Finset.add_sum_erase _ _ member, ← Finset.add_sum_erase _ _ member, others, phase?_setPhase_self found,
    found]
  simp only [Option.elim_some]
  omega

/-- No step of a pipeline makes work, unless it calls for an item or is a step of the work itself. -/
theorem toil_le_of_moves {p q : Pipeline Work} {action : Action Work} (coherent : Coherent p)
    (moves : Moves (fun _ => .unstarted) p action q) (noCall : ∀ request, action ≠ .call request)
    (noWork : ∀ i work, action ≠ .setWork i work) : q.load Phase.toil ≤ p.load Phase.toil := by
  refine load_le (length_of_moves moves noCall) fun i x y before now => ?_
  obtain ⟨request, inside⟩ := items_of_phase? before
  obtain ⟨z, there, moved⟩ := moved_of_moves coherent moves inside
  obtain rfl : z = y := by simpa [phase?_of_items there] using now
  cases moved with
  | same => exact Nat.le_refl _
  | next step => cases step <;> simp [Phase.toil, Work.toil]
  | withdraw _ _ _ given => obtain rfl | rfl := given <;> exact Nat.zero_le _
  | work _ set => exact absurd set (noWork i _)
  | done | record => exact Nat.zero_le _

end Pipeline

/-! ## The walk -/

/-- How many live records a walk that went to these ids has not gone to. -/
def Store.unvisited (s : Store) (visited : List TransactionId) : Nat := s.liveIds.countP fun id => id ∉ visited

theorem Store.unvisited_append_le (s : Store) (visited : List TransactionId) (id : TransactionId) :
    s.unvisited (visited ++ [id]) ≤ s.unvisited visited :=
  List.countP_mono_left fun _ _ => by simp +contextual

/-- A live record that is gone to for the first time is one less. -/
theorem Store.unvisited_append_lt {s : Store} {visited : List TransactionId} {id : TransactionId}
    (live : s.isLive id = true) (fresh : id ∉ visited) : s.unvisited (visited ++ [id]) < s.unvisited visited := by
  obtain ⟨before, after, split⟩ := List.append_of_mem (isLive_iff.1 live)
  have less (ids : List TransactionId) :
      ids.countP (fun other => decide (other ∉ visited ++ [id])) ≤ ids.countP fun other => decide (other ∉ visited) :=
    List.countP_mono_left fun _ _ => by simp +contextual
  have left := less before
  have right := less after
  have seen : decide (id ∉ visited ++ [id]) = false := by simp
  have unseen : decide (id ∉ visited) = true := by simpa using fresh
  simp only [unvisited, split, List.countP_append, List.countP_cons, seen, unseen, if_true, Bool.false_eq_true, if_false]
  omega

namespace Run

variable {store after : Store} {now i : Nat} {gated : Bool} {r r' s : Run}

/-- How far the walk can still go. For each record it can still find it calls for one item, which outweighs all that
becomes of the item. -/
def trek (store : Store) (r : Run) : Nat :=
  match r.walker with
  | .checking _ => 6 + 40 * store.unvisited r.visited
  | .finding current _ answering =>
    (if store.isLive current then 44 else 4) + (!answering).toNat + 40 * store.unvisited r.visited
  | .resolved _ => 43 + 40 * store.unvisited r.visited
  | .enqueueing .. => 7 + 40 * store.unvisited r.visited
  | .walked _ => 3
  | .closing _ => 2
  | .awaiting _ | .leaving => 1
  | .finished _ | .dropped => 0

/-- What the run has before it. For each item that it has called for, something is set aside for those who transform
the payload. -/
def ahead (store : Store) (r : Run) : Nat :=
  10 * (r.pipeline.bulk + r.pipeline.load Phase.toil + r.trek store) + r.pipeline.headway +
    100 * r.pipeline.items.length

/-- A walk does not get longer when live records are taken away. -/
theorem trek_mono (fewer : after.liveIds.Sublist store.liveIds) : r.trek after ≤ r.trek store := by
  have records : after.unvisited r.visited ≤ store.unvisited r.visited := fewer.countP_le
  have live {id : TransactionId} (here : after.isLive id = true) : store.isLive id = true :=
    Store.isLive_iff.2 (fewer.subset (Store.isLive_iff.1 here))
  cases place : r.walker with
  | finding current asked answering =>
    simp only [trek, place]
    cases now : after.isLive current with
    | true =>
      rw [live now]
      simp only [if_true]
      omega
    | false =>
      simp only [Bool.false_eq_true, if_false]
      split <;> omega
  | _ =>
    simp only [trek, place]
    omega

/-- Something other than the driver's way round its loop gets less. -/
theorem ahead_lt_of_load (length : r'.pipeline.items.length = r.pipeline.items.length)
    (lighter : r'.pipeline.bulk + r'.pipeline.load Phase.toil + r'.trek after <
      r.pipeline.bulk + r.pipeline.load Phase.toil + r.trek store) : r'.ahead after < r.ahead store := by
  have := r'.pipeline.headway_le
  unfold ahead
  omega

/-- An item comes nearer to its end. -/
theorem ahead_lt_of_item {action : Pipeline.Action Work} (coherent : r.pipeline.Coherent)
    (moves : Moves (fun _ => .unstarted) r.pipeline action s.pipeline) (own : action.item? = some i)
    (trek : s.trek after ≤ r.trek store) : s.ahead after < r.ahead store := by
  have noCall : ∀ request, action ≠ .call request := by
    rintro request rfl
    cases own
  have bulk := Pipeline.bulk_lt_of_item coherent moves own
  have toil := Pipeline.toil_le_of_moves coherent moves noCall (by rintro i work rfl; cases own)
  exact ahead_lt_of_load (Pipeline.length_of_moves moves noCall) (by omega)

/-- The driver goes on, wakes up for a reason or is stopped. -/
theorem ahead_lt_of_driver {action : Pipeline.Action Work} (coherent : r.pipeline.Coherent)
    (announced : r.pipeline.Announced)
    (moves : Moves (fun _ => .unstarted) r.pipeline action s.pipeline) (walker : s.trek store = r.trek store)
    (own : action = .drive ∨ (action = .wake ∧ r.pipeline.isAwaited = true) ∨ action = .abandon) :
    s.ahead store < r.ahead store := by
  have noCall : ∀ request, action ≠ .call request := by
    rintro request rfl
    simp at own
  have toil := Pipeline.toil_le_of_moves coherent moves noCall (by rintro i work rfl; simp at own)
  have bulk := Pipeline.bulk_le_of_moves coherent moves noCall
  have length := Pipeline.length_of_moves moves noCall
  have lower : s.pipeline.bulk < r.pipeline.bulk ∨ s.pipeline.headway < r.pipeline.headway := by
    rcases own with rfl | ⟨rfl, awaited⟩ | rfl
    · exact Pipeline.headway_of_drive coherent moves
    · exact .inr (Pipeline.headway_of_wake awaited moves)
    · exact .inr (Pipeline.headway_of_abandon announced moves)
  rcases lower with lower | lower
  · exact ahead_lt_of_load length (by omega)
  · unfold ahead
    omega

/-- A step of the work on an item takes effect. -/
theorem ahead_lt_of_apply {n : Nat} {request : ArchivalRequest} {work : Work} {effect : Effect}
    (busy : r.work? i = some (request, work)) (lighter : ∀ new, effect.next = .working new → new.toil < work.toil)
    (fewer : after.liveIds.Sublist store.liveIds) :
    (({ r with relocations := n } : Run).apply i effect).ahead after < r.ahead store := by
  have found := phase?_of_work? busy
  have trek : r.trek after ≤ r.trek store := trek_mono fewer
  -- what the item weighs and what work it asks for, in its next phase
  have less : effect.next.phase.rank + effect.next.phase.toil < 8 + work.toil := by
    cases next : effect.next with
    | working new => exact Nat.add_lt_add_left (lighter new next) _
    | ended ending =>
      simp only [Archiver.Next.phase, Phase.rank, Phase.toil]
      omega
  have weight : (r.pipeline.setPhase i effect.next.phase).load Phase.rank + 8 =
      r.pipeline.load Phase.rank + effect.next.phase.rank := Pipeline.load_setPhase found
  have toil : (r.pipeline.setPhase i effect.next.phase).load Phase.toil + work.toil =
      r.pipeline.load Phase.toil + effect.next.phase.toil := Pipeline.load_setPhase found
  refine ahead_lt_of_load (by simp [Pipeline.setPhase]) ?_
  rw [pipeline_apply]
  show (r.pipeline.setPhase i effect.next.phase).load Phase.rank + (!r.pipeline.exhausted).toNat +
    (r.pipeline.setPhase i effect.next.phase).load Phase.toil + r.trek after <
    r.pipeline.load Phase.rank + (!r.pipeline.exhausted).toNat + r.pipeline.load Phase.toil + r.trek store
  omega

/-! ## The steps of a run -/

/-- The task of an item goes on with the work on it, or gives the item's place free. -/
theorem advanceItem_eq_some (h : r.advanceItem store now gated i = some (after, r')) :
    (∃ request work effect n, r.work? i = some (request, work) ∧
      Archiver.advance store now r.pipeline.raised gated request work = some (after, effect) ∧
      r' = ({ r with relocations := n } : Run).apply i effect) ∨
    ∃ pipeline, r.pipeline.unwind i = some pipeline ∧ after = store ∧ r' = { r with pipeline } := by
  unfold advanceItem at h
  split at h
  · next request work busy =>
    simp only [Option.bind_eq_bind, Option.bind_eq_some_iff] at h
    obtain ⟨⟨kept, effect⟩, advanced, h⟩ := h
    simp only [Option.pure_def, Option.some.injEq, Prod.mk.injEq] at h
    obtain ⟨rfl, rfl⟩ := h
    refine .inl ⟨request, work, effect, if effect.submits then r.relocations + 1 else r.relocations, busy, advanced, ?_⟩
    split <;> rfl
  · simp only [Option.map_eq_some_iff, Prod.mk.injEq] at h
    obtain ⟨pipeline, unwound, rfl, rfl⟩ := h
    exact .inr ⟨pipeline, unwound, rfl, rfl⟩

/-- The task of an item goes on. -/
theorem ahead_lt_of_advanceItem (coherent : r.pipeline.Coherent)
    (h : r.advanceItem store now gated i = some (after, r')) : r'.ahead after < r.ahead store := by
  obtain ⟨request, work, effect, n, busy, advanced, rfl⟩ | ⟨pipeline, unwound, rfl, rfl⟩ := advanceItem_eq_some h
  · exact ahead_lt_of_apply busy (fun new next => Archiver.toil_of_advance advanced next)
      (Archiver.liveIds_of_advance advanced)
  · exact ahead_lt_of_item (s := { r with pipeline }) coherent (Pipeline.moves_of_unwind unwound) rfl (Nat.le_refl _)

theorem walker_of_advanceItem (h : r.advanceItem store now gated i = some (after, r')) : r'.walker = r.walker := by
  obtain ⟨_, _, _, _, -, -, rfl⟩ | ⟨_, -, -, rfl⟩ := advanceItem_eq_some h <;> rfl

/-- Something comes to an item from outside. -/
theorem ahead_lt_of_signal {s : Archiver.Signal} (h : r.signal i s = some r') : r'.ahead store < r.ahead store := by
  simp only [signal, Option.bind_eq_bind, Option.bind_eq_some_iff, Option.ite_none_right_eq_some, Option.pure_def,
    Option.some.injEq] at h
  obtain ⟨⟨request, work⟩, busy, possible, effect, received, rfl⟩ := h
  exact ahead_lt_of_apply (n := r.relocations) busy (fun new next => Archiver.toil_of_receive received next)
    (List.Sublist.refl _)

/-- The store is told to answer a lookup. -/
theorem ahead_lt_of_proceed {current : TransactionId} {asked : Nat} (place : r.walker = .finding current asked false) :
    (r.goTo (.finding current asked true)).ahead store < r.ahead store := by
  refine ahead_lt_of_load rfl (Nat.add_lt_add_left ?_ _)
  simp only [trek, place, goTo]
  simp

/-- The walker goes on. -/
theorem ahead_lt_of_walks (sound : r.Sound) (step : Walks store now gated r r') : r'.ahead store < r.ahead store := by
  -- the walker alone goes on
  have goes {r' : Run} (pipeline : r'.pipeline = r.pipeline) (trek : r'.trek store < r.trek store) :
      r'.ahead store < r.ahead store := ahead_lt_of_load (by rw [pipeline]) (by rw [pipeline]; omega)
  -- it goes on and takes a step of the pipeline that is no item's
  have takes {r' : Run} {action : Pipeline.Action Work}
      (moves : Moves (fun _ => .unstarted) r.pipeline action r'.pipeline) (trek : r'.trek store < r.trek store)
      (noCall : ∀ request, action ≠ .call request) (noWork : ∀ i work, action ≠ .setWork i work) :
      r'.ahead store < r.ahead store := by
    have bulk := Pipeline.bulk_le_of_moves sound.coherent moves noCall
    have toil := Pipeline.toil_le_of_moves sound.coherent moves noCall noWork
    exact ahead_lt_of_load (Pipeline.length_of_moves moves noCall) (by omega)
  cases step with
  | seesFlag place | revisits place | isRefused place | goesOn place | reachesHead place | closes place =>
    refine goes rfl ?_
    simp only [trek, place, goTo]
    omega
  | @asks current place _ fresh =>
    refine goes rfl ?_
    have records := store.unvisited_append_le r.visited current
    have answering : (!!gated).toNat ≤ 1 := Bool.toNat_le _
    simp only [trek, place]
    cases live : store.isLive current with
    | true =>
      have fewer := Store.unvisited_append_lt live fresh
      simp only [if_true]
      omega
    | false =>
      simp only [Bool.false_eq_true, if_false]
      omega
  | @finds current _ t place found =>
    have live : store.isLive current = true := by simp [Store.isLive, found]
    exact goes rfl (by simp [trek, place, find, goTo, say, live])
  | misses place =>
    refine goes rfl ?_
    simp only [trek, place, find, goTo]
    split <;> omega
  | @calls t place =>
    obtain ⟨x, begins, weighs⟩ := r.pipeline.load_call (f := Phase.rank) ⟨r.statement, r.visited.length, t⟩
    obtain ⟨y, begins', asks⟩ := r.pipeline.load_call (f := Phase.toil) ⟨r.statement, r.visited.length, t⟩
    have rank : x.rank ≤ 14 := by obtain rfl | rfl | rfl := begins <;> simp [Phase.rank]
    have toil : y.toil ≤ 6 := by obtain rfl | rfl | rfl := begins' <;> simp [Phase.toil]
    have same : (r.pipeline.call ⟨r.statement, r.visited.length, t⟩).exhausted = r.pipeline.exhausted := by
      simp only [Pipeline.call]
      split_ifs <;> rfl
    have bulk : (r.pipeline.call ⟨r.statement, r.visited.length, t⟩).bulk = r.pipeline.bulk + x.rank := by
      change _ + (!_).toNat = _ + (!_).toNat + _
      rw [same, Nat.add_right_comm]
      exact congrArg (· + _) weighs
    obtain ⟨_, items, -⟩ := r.pipeline.items_call ⟨r.statement, r.visited.length, t⟩
    have headway := (r.pipeline.call ⟨r.statement, r.visited.length, t⟩).headway_le
    -- what the record was worth to the walk outweighs the item, with all that is set aside for it
    simp only [ahead, enqueue, trek, place, bulk, asks, items, List.length_append, List.length_singleton]
    omega
  | resumes place _ resumed =>
    exact ahead_lt_of_item sound.coherent (Pipeline.moves_of_resume resumed) rfl (by simp [trek, place])
  | unwinds place _ unwound =>
    exact ahead_lt_of_item sound.coherent (Pipeline.moves_of_unwind unwound) rfl (by simp [trek, place])
  | aborts place => exact takes .abort (by simp [trek, place]) (by simp) (by simp)
  | completes place =>
    have quiet : r.pipeline.NoneCalling := sound.positioned.noneCalling (by simp [place]) (by simp [place])
    exact takes (.complete (Pipeline.isCalling_eq_false_iff.2 quiet)) (by simp [trek, place]) (by simp) (by simp)
  | @ends outcome result place =>
    cases outcome.result result <;> exact goes rfl (by simp [trek, place, finish, goTo, say])
  | withdraws place withdrawn =>
    exact ahead_lt_of_item sound.coherent (Pipeline.moves_of_withdraw withdrawn) rfl (by simp [trek, place])
  | leaves place unwound =>
    exact ahead_lt_of_item sound.coherent (Pipeline.moves_of_unwind unwound) rfl (by simp [trek, place])
  | drops place nobody => exact takes (.dropHandle nobody) (by simp [trek, place]) (by simp) (by simp)

/-- What a run has before it when it begins. -/
theorem ahead_begin {settings : GenerationSettings} {statement : StatementId} {last : TransactionId}
    (h : Run.begin settings statement last = .ok r) : r.ahead store ≤ 70 + 400 * store.live.length := by
  have records : store.unvisited [] ≤ store.live.length := by simp [Store.unvisited, Store.liveIds]
  unfold Run.begin Pipeline.start at h
  split at h <;> cases h
  simp [ahead, Pipeline.bulk, Pipeline.weight, Pipeline.load, trek, Pipeline.headway, Pipeline.isAwaited]
  omega

end Run
end ChainArchive
