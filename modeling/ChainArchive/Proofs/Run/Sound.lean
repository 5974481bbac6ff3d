import ChainArchive.Proofs.Run.Walks

/-!
# Sound runs

Where the walker stands says which items its pipeline has taken and whether
anybody calls. So the input is closed only when nobody does, the pipeline stays
coherent, and a run that ends well has handed every id it went to over to the
pipeline, under its statement and numbered in the order of the walk.
-/

namespace ChainArchive
set_option autoImplicit false

open Archiver (Work)
open Pipeline (Phase Item Moves Coherent)

/-! ## A pipeline and its producer -/

namespace Pipeline

variable {σ : Type} {fresh : ArchivalRequest → σ} {p q : Pipeline σ} {action : Action σ}

/-- All items have been taken. -/
def AllTaken (p : Pipeline σ) : Prop := ∀ i x, p.phase? i = some x → x.isTaken = true

/-- Nobody calls. -/
def NoneCalling (p : Pipeline σ) : Prop := ∀ i x, p.phase? i = some x → x.isCalling = false

/-- The items are numbered in order, on one statement. -/
def Numbered (statement : StatementId) (p : Pipeline σ) : Prop :=
  ∀ i item, p.items[i]? = some item → item.request.statement = statement ∧ item.request.number = i + firstNumber

theorem AllTaken.noneCalling (h : p.AllTaken) : p.NoneCalling :=
  fun i x found => Phase.isCalling_of_isTaken (h i x found)

/-- All items have been taken when those before the last have, and the last. -/
theorem AllTaken.of_last {last : Nat} (count : p.items.length = last + 1)
    (before : ∀ i x, p.phase? i = some x → i < last → x.isTaken = true)
    (taken : ∀ x, p.phase? last = some x → x.isTaken = true) : p.AllTaken := by
  intro i x found
  obtain ⟨request, inside⟩ := items_of_phase? found
  have bound := (List.getElem?_eq_some_iff.1 inside).1
  obtain here | rfl : i < last ∨ i = last := by omega
  · exact before i x found here
  · exact taken x found

theorem AllTaken.moves (h : p.AllTaken) (coherent : Coherent p) (moves : Moves fresh p action q)
    (noCall : ∀ request, action ≠ .call request) : q.AllTaken := by
  intro i y found
  obtain ⟨_, x, before, moved⟩ := phase?_of_moves coherent moves noCall found
  exact Phase.isTaken_of_moved moved (h i x before)

theorem NoneCalling.moves (h : p.NoneCalling) (coherent : Coherent p) (moves : Moves fresh p action q)
    (noCall : ∀ request, action ≠ .call request) : q.NoneCalling := by
  intro i y found
  obtain ⟨_, x, before, moved⟩ := phase?_of_moves coherent moves noCall found
  exact Phase.isCalling_of_moved moved (h i x before)

theorem Numbered.moves {statement : StatementId} (h : p.Numbered statement) (coherent : Coherent p)
    (moves : Moves fresh p action q)
    (call : ∀ request, action = .call request →
      request.statement = statement ∧ request.number = p.items.length + firstNumber) : q.Numbered statement := by
  intro i item inside
  obtain ⟨x, before, -⟩ | ⟨here, called, -⟩ := origin_of_moves coherent moves inside
  · exact h i ⟨item.request, x⟩ before
  · rw [here]
    exact call _ called

/-- A call adds its item behind all others. -/
theorem items_call (p : Pipeline σ) (request : ArchivalRequest) :
    ∃ x : Phase σ, (p.call request).items = p.items ++ [⟨request, x⟩] ∧ (x = .over .refused ∨ x = .waiting ∨ x = .holding) := by
  unfold call
  split
  · exact ⟨_, rfl, .inl rfl⟩
  · split
    · exact ⟨_, rfl, .inr (.inl rfl)⟩
    · exact ⟨_, rfl, .inr (.inr rfl)⟩

/-- A driver that has its result keeps it. -/
theorem driver_of_moves {result : Except GenerationError Nat} (moves : Moves fresh p action q)
    (ended : p.driver = .finished result) : q.driver = .finished result := by
  have release : ∀ p : Pipeline σ, p.release.driver = p.driver := by
    intro p
    obtain ⟨-, same⟩ | ⟨_, -, -, granted⟩ := release_cases p
    · rw [same]
    · rw [granted]
      rfl
  cases moves with
  | refuseGranted | withdrawGranted | withdrawHolding | freeTask | freeCall => rw [release]; exact ended
  | dropHandle =>
    unfold dropHandle
    split <;> exact ended
  | abandon idle => simp [ended] at idle
  | _ => first | exact ended | simp_all

/-- What the caller of an item learns: the pipeline did not take it. -/
theorem phase?_of_refused {i : Nat} (h : p.accepted? i = some false) : p.phase? i = some (.over .refused) := by
  unfold accepted? at h
  split at h <;> simp_all

/-- What the caller of an item learns: the pipeline took it, unless the call was given up. -/
theorem isTaken_of_accepted (coherent : Coherent p) {i : Nat} (h : p.accepted? i = some true)
    (kept : ∀ x, p.phase? i = some x → x.ending? ≠ some .withdrawn) {x : Phase σ} (found : p.phase? i = some x) :
    x.isTaken = true := by
  have proper := coherent.proper i x found
  have kept := kept x found
  cases x with
  | ended e | uncounted e | freed e | finished e | «over» e =>
    cases e <;> simp_all [accepted?, Phase.isTaken, Phase.ending?, Phase.isProper, Ending.isOfTask]
  | _ => simp_all [accepted?, Phase.isTaken]

end Pipeline

/-! ## A run -/

/-- Only a walk that has reached the head ends well. -/
theorem WalkEnd.complete_of_result {outcome : WalkEnd} {result : Except GenerationError Nat} {archived : Nat}
    (ok : outcome.result result = .ok archived) : outcome = .complete := by
  cases outcome with
  | complete => rfl
  | closed => cases result <;> cases ok
  | failed own =>
    cases result with
    | ok archived => cases ok
    | error cause =>
      simp only [WalkEnd.result] at ok
      split at ok <;> cases ok

namespace Run

/-- What the walker's place says about its pipeline. -/
def Positioned (r : Run) : Prop :=
  match r.walker with
  | .checking _ => r.visited.length = r.pipeline.items.length ∧ r.pipeline.AllTaken
  | .finding .. | .resolved _ => r.visited.length = r.pipeline.items.length + 1 ∧ r.pipeline.AllTaken
  | .enqueueing item _ => r.visited.length = item + 1 ∧ r.pipeline.items.length = item + 1 ∧
      (∀ i x, r.pipeline.phase? i = some x → i < item → x.isTaken = true) ∧
      ∀ x, r.pipeline.phase? item = some x → x.ending? ≠ some .withdrawn
  | .walked .complete | .closing .complete | .awaiting .complete => r.pipeline.AllTaken
  | .finished (.ok receipt) => r.pipeline.AllTaken ∧ receipt.statement = r.statement ∧
      r.pipeline.driver = .finished (.ok receipt.archived)
  | .leaving => True
  | _ => r.pipeline.NoneCalling

/-- What holds of a run in every state that it can reach. -/
structure Sound (r : Run) : Prop where
  coherent : r.pipeline.Coherent
  numbered : r.pipeline.Numbered r.statement
  positioned : r.Positioned

variable {outputs : Transforms} {store : Store} {now : Nat} {gated : Bool} {r r' : Run}

/-- Nobody calls while the walker neither enqueues nor gives up what it enqueued. -/
theorem Positioned.noneCalling (h : r.Positioned) (leaving : r.walker ≠ .leaving)
    (enqueueing : ∀ item previous, r.walker ≠ .enqueueing item previous) : r.pipeline.NoneCalling := by
  unfold Positioned at h
  split at h
  · exact h.2.noneCalling
  · exact h.2.noneCalling
  · exact h.2.noneCalling
  · exact absurd ‹_› (enqueueing _ _)
  · exact h.noneCalling
  · exact h.noneCalling
  · exact h.noneCalling
  · exact h.1.noneCalling
  · exact absurd ‹_› leaving
  · exact h

/-- What a run answers is where its walker has come to. -/
theorem walker_of_result {result : Except GenerationError Receipt} (answered : r.result? = some result) :
    r.walker = .finished result := by
  unfold result? at answered
  split at answered <;> simp_all

theorem items_begin {settings : GenerationSettings} {statement : StatementId} {last : TransactionId}
    (h : Run.begin settings statement last = .ok r) : r.pipeline.items = [] := by
  unfold Run.begin Pipeline.start at h
  split at h <;> cases h
  rfl

theorem statement_begin {settings : GenerationSettings} {statement : StatementId} {last : TransactionId}
    (h : Run.begin settings statement last = .ok r) : r.statement = statement := by
  unfold Run.begin Pipeline.start at h
  split at h <;> cases h
  rfl

theorem walker_begin {settings : GenerationSettings} {statement : StatementId} {last : TransactionId}
    (h : Run.begin settings statement last = .ok r) : r.walker = .checking last := by
  unfold Run.begin Pipeline.start at h
  split at h <;> cases h
  rfl

namespace Sound

theorem begin {settings : GenerationSettings} {statement : StatementId} {last : TransactionId}
    (h : Run.begin settings statement last = .ok r) : Sound r := by
  have begun := items_begin h
  unfold Run.begin at h
  cases started : Pipeline.start (σ := Work) settings.parallelism with
  | error cause => simp [started, Except.map] at h
  | ok p =>
    simp only [started, Except.map, Except.ok.injEq] at h
    subst h
    have empty : p.items = [] := begun
    refine ⟨.start started, ?_, ?_⟩
    · intro i item inside
      simp [empty] at inside
    · refine ⟨by simp [empty], fun i x found => ?_⟩
      simp [Pipeline.phase?, empty] at found

/-- An item or the driver takes a step. -/
theorem inner {action : Pipeline.Action Work} (h : r.Sound) (step : r.Inner action r') : r'.Sound := by
  have noCall : ∀ request, action ≠ .call request := by
    rintro request rfl
    exact absurd step.inner (by simp [Pipeline.Action.isInner])
  have moves := step.moves
  have coherent := h.coherent
  have length := Pipeline.length_of_moves moves noCall
  refine ⟨coherent.step moves, ?_, ?_⟩
  · rw [step.statement]
    exact h.numbered.moves coherent moves fun request called => absurd called (noCall request)
  · have place := h.positioned
    unfold Positioned at place ⊢
    rw [step.walker, step.visited, step.statement, length]
    split at place
    · exact ⟨place.1, place.2.moves coherent moves noCall⟩
    · exact ⟨place.1, place.2.moves coherent moves noCall⟩
    · exact ⟨place.1, place.2.moves coherent moves noCall⟩
    · next item _ _ =>
      obtain ⟨visited, count, before, kept⟩ := place
      refine ⟨visited, count, fun i y found earlier => ?_, fun y found withdrawn => ?_⟩
      · obtain ⟨_, x, there, moved⟩ := Pipeline.phase?_of_moves coherent moves noCall found
        exact Phase.isTaken_of_moved moved (before i x there earlier)
      · obtain ⟨_, x, there, moved⟩ := Pipeline.phase?_of_moves coherent moves noCall found
        obtain already | rfl := Phase.withdraw_of_moved moved withdrawn
        · exact kept x there already
        · exact absurd step.inner (by simp [Pipeline.Action.isInner])
    · exact place.moves coherent moves noCall
    · exact place.moves coherent moves noCall
    · exact place.moves coherent moves noCall
    · exact ⟨place.1.moves coherent moves noCall, place.2.1, Pipeline.driver_of_moves moves place.2.2⟩
    · trivial
    · exact place.moves coherent moves noCall

/-- The walker stands elsewhere and its pipeline is as before. -/
theorem goTo (h : r.Sound) {walker : Walker} (place : (r.goTo walker).Positioned) : (r.goTo walker).Sound :=
  ⟨h.coherent, h.numbered, place⟩

/-- The store answers a lookup. -/
theorem find (h : r.Sound) {current : TransactionId} {asked : Nat} {answering : Bool}
    (place : r.walker = .finding current asked answering) (answer : Except StoreError Transaction) :
    (r.find current answer).Sound := by
  have before := h.positioned
  simp only [Positioned, place] at before
  refine ⟨?_, ?_, ?_⟩
  · cases answer <;> exact h.coherent
  · cases answer <;> exact h.numbered
  · cases answer
    · exact before.2.noneCalling
    · exact before

/-- The walker hands a record over. -/
theorem enqueue (h : r.Sound) {t : Transaction} (place : r.walker = .resolved t) : (r.enqueue t).Sound := by
  have before := h.positioned
  simp only [Positioned, place] at before
  obtain ⟨visited, taken⟩ := before
  have moves : Moves (fun _ => Work.unstarted) r.pipeline _ (r.enqueue t).pipeline :=
    Pipeline.moves_call ⟨r.statement, r.visited.length, t⟩
  refine ⟨h.coherent.step moves, ?_, ?_⟩
  · refine h.numbered.moves h.coherent moves fun request called => ?_
    cases called
    exact ⟨rfl, visited⟩
  · obtain ⟨x, items, begins⟩ := r.pipeline.items_call ⟨r.statement, r.visited.length, t⟩
    refine ⟨visited, by simp [Run.enqueue, items], fun i y found earlier => ?_, fun y found => ?_⟩
    · apply taken i y
      simpa [Run.enqueue, Pipeline.phase?, items, List.getElem?_append_left earlier] using found
    · obtain rfl : x = y := by simpa [Run.enqueue, Pipeline.phase?, items] using found
      rcases begins with rfl | rfl | rfl <;> simp [Phase.ending?]

/-- The caller of an item lets it go on, or gives it up. -/
theorem caller {action : Pipeline.Action Work} {walker : Walker} {pipeline : Pipeline Work} (h : r.Sound)
    (noCall : ∀ request, action ≠ .call request)
    (moves : Moves (fun _ => Work.unstarted) r.pipeline action pipeline)
    (place : ({ r with walker, pipeline } : Run).Positioned) : ({ r with walker, pipeline } : Run).Sound :=
  ⟨h.coherent.step moves, h.numbered.moves h.coherent moves fun request called => absurd called (noCall request), place⟩

/-- An item whose caller waits stays with it while it goes on. -/
theorem waits {action : Pipeline.Action Work} {item : Nat} {previous : Option TransactionId} {pipeline : Pipeline Work}
    (h : r.Sound) (state : r.walker = .enqueueing item previous) (noCall : ∀ request, action ≠ .call request)
    (kept : action ≠ .withdraw item) (moves : Moves (fun _ => Work.unstarted) r.pipeline action pipeline) :
    ({ r with walker := .enqueueing item previous, pipeline } : Run).Sound := by
  apply h.caller noCall moves
  have before := h.positioned
  simp only [Positioned, state] at before
  obtain ⟨visited, count, earlier, own⟩ := before
  refine ⟨visited, (Pipeline.length_of_moves moves noCall).trans count, fun i y found first => ?_, fun y found given => ?_⟩
  · obtain ⟨_, x, there, moved⟩ := Pipeline.phase?_of_moves h.coherent moves noCall found
    exact Phase.isTaken_of_moved moved (earlier i x there first)
  · obtain ⟨_, x, there, moved⟩ := Pipeline.phase?_of_moves h.coherent moves noCall found
    rcases Phase.withdraw_of_moved moved given with already | same
    · exact own x there already
    · exact kept same

/-- The pipeline has all items when it accepts the last one. -/
theorem allTaken (h : r.Sound) {item : Nat} {previous : Option TransactionId}
    (state : r.walker = .enqueueing item previous) (accepted : r.pipeline.accepted? item = some true) :
    r.pipeline.AllTaken := by
  have before := h.positioned
  simp only [Positioned, state] at before
  obtain ⟨-, count, earlier, own⟩ := before
  exact .of_last count earlier fun x found => Pipeline.isTaken_of_accepted h.coherent accepted own found

/-- Nobody calls once the pipeline has refused the last item. -/
theorem noneCalling (h : r.Sound) {item : Nat} {previous : Option TransactionId}
    (state : r.walker = .enqueueing item previous) (refused : r.pipeline.accepted? item = some false) :
    r.pipeline.NoneCalling := by
  have before := h.positioned
  simp only [Positioned, state] at before
  obtain ⟨-, count, earlier, -⟩ := before
  intro i x found
  obtain ⟨request, inside⟩ := Pipeline.items_of_phase? found
  have bound := (List.getElem?_eq_some_iff.1 inside).1
  obtain here | rfl : i < item ∨ i = item := by omega
  · exact Phase.isCalling_of_isTaken (earlier i x found here)
  · obtain rfl : x = .over .refused := by simpa [found] using Pipeline.phase?_of_refused refused
    rfl

theorem walks (h : r.Sound) (step : Walks store now gated r r') : r'.Sound := by
  have before := h.positioned
  cases step with
  | seesFlag state | revisits state =>
    simp only [Positioned, state] at before
    exact h.goTo before.2.noneCalling
  | asks state =>
    simp only [Positioned, state] at before
    exact ⟨h.coherent, h.numbered, by simpa [Positioned] using before⟩
  | finds state | misses state => exact h.find state _
  | calls state => exact h.enqueue state
  | resumes state _ resumed => exact h.waits state (by simp) (by simp) (Pipeline.moves_of_resume resumed)
  | unwinds state _ unwound => exact h.waits state (by simp) (by simp) (Pipeline.moves_of_unwind unwound)
  | isRefused state refused => exact h.goTo (h.noneCalling state refused)
  | goesOn state accepted =>
    have taken := h.allTaken state accepted
    simp only [Positioned, state] at before
    exact h.goTo ⟨before.1.trans before.2.1.symm, taken⟩
  | reachesHead state accepted => exact h.goTo (h.allTaken state accepted)
  | aborts state =>
    have quiet : r.pipeline.NoneCalling := before.noneCalling (by simp [state]) (by simp [state])
    exact h.caller (by simp) .abort quiet
  | @closes outcome state other =>
    simp only [Positioned, state] at before
    cases outcome with
    | failed cause => exact absurd rfl (other cause)
    | complete | closed => exact h.goTo before
  | @completes outcome state =>
    have quiet : r.pipeline.NoneCalling := before.noneCalling (by simp [state]) (by simp [state])
    refine h.caller (by simp) (.complete (Pipeline.isCalling_eq_false_iff.2 quiet)) ?_
    simp only [Positioned, state] at before
    cases outcome <;> exact before
  | @ends outcome result state finished =>
    have quiet : r.pipeline.NoneCalling := before.noneCalling (by simp [state]) (by simp [state])
    cases ok : outcome.result result with
    | error cause => exact ⟨h.coherent, h.numbered, quiet⟩
    | ok archived =>
      obtain rfl := WalkEnd.complete_of_result ok
      obtain rfl : result = .ok archived := ok
      simp only [Positioned, state] at before
      exact ⟨h.coherent, h.numbered, before, rfl, finished⟩
  | withdraws state withdrawn => exact h.caller (by simp) (Pipeline.moves_of_withdraw withdrawn) trivial
  | leaves state unwound => exact h.caller (by simp) (Pipeline.moves_of_unwind unwound) trivial
  | drops state nobody =>
    have moves : Moves (fun _ => Work.unstarted) r.pipeline .dropHandle r.pipeline.dropHandle := .dropHandle nobody
    have quiet : r.pipeline.NoneCalling := Pipeline.isCalling_eq_false_iff.1 nobody
    exact h.caller (by simp) moves (quiet.moves h.coherent moves (by simp))

/-- A step of a run without the store keeps it sound. -/
theorem step (h : r.Sound) (step : r.Step outputs store now gated r') : r'.Sound := by
  cases step with
  | walk walked => exact h.walks (walks_of_walk walked)
  | inner step => exact h.inner step
  | proceed state =>
    have before := h.positioned
    simp only [Positioned, state] at before
    exact h.goTo before
  | refuse cause state => exact h.find state _
  | drop => exact h.goTo trivial

/-- A run that ends well has archived all that it walked, and says so. -/
theorem of_success (h : r.Sound) {receipt : Receipt} (success : r.result? = some (.ok receipt)) :
    receipt.statement = r.statement ∧ receipt.archived = r.pipeline.items.length ∧
      ∀ (i : Nat) (item : Item Work), r.pipeline.items[i]? = some item → item.phase = .over .done := by
  have state := walker_of_result success
  have place := h.positioned
  simp only [Positioned, state] at place
  obtain ⟨taken, statement, driver⟩ := place
  obtain ⟨count, ended⟩ := h.coherent.over_of_success driver
  have done : ∀ (i : Nat) (item : Item Work), r.pipeline.items[i]? = some item → item.phase = .over .done := by
    intro i item inside
    have found := Pipeline.phase?_of_items inside
    have mine := taken i _ found
    rcases ended i _ found with is | is | is
    · exact is
    · simp [is, Phase.isTaken] at mine
    · simp [is, Phase.isTaken] at mine
  refine ⟨statement, count.trans (List.countP_eq_length.2 fun item member => ?_), done⟩
  obtain ⟨i, inside⟩ := List.mem_iff_getElem?.1 member
  rw [done i item inside]
  rfl

end Sound
end Run
end ChainArchive
