import ChainArchive.Proofs.Run.Verdict

/-!
# The verdict is that of the chain

A run whose table nobody else changes answers what its chain means, however its
walker, its driver and its items take turns: that the items take records out of
the table while the walker still looks some up makes no difference to it.
-/

namespace ChainArchive
set_option autoImplicit false

open Archiver (Work)

namespace World

variable {find : TransactionId → Option Transaction} {first : TransactionId} {w₀ w v : World} {action : Action} {k : Nat}
  {r r' : Run} {after : Store}

/-! ## A run on its way -/

/-- Something else than the walk goes on, with a store that does not fail. -/
theorem Aside.tracks (aside : Aside k action r.walker r'.walker) (h : r.Tracks find first) (sound : r.Sound)
    (goes : r' = r ∨ r.Goes r') (handed : r'.transactions = r.transactions) (visited : r'.visited = r.visited)
    (itinerary : r'.Itinerary) (answers : ∀ current asked, r.walker ≠ .finding current asked false) :
    r'.Tracks find first := by
  have comes (result : Except GenerationError Receipt) (was : r.Comes find first result) :
      r'.Comes find first result := by
    rwa [Run.Comes, handed, Run.statement_of_goes sound goes]
  have follows := h.follows
  have judged := h.judged
  unfold Run.Follows at follows
  unfold Run.Judged at judged
  suffices place : r'.Follows find first ∧ r'.Judged find first from ⟨place.1, handed ▸ h.trail, itinerary, place.2⟩
  unfold Run.Follows Run.Judged
  rw [handed, visited]
  generalize r.walker = before at aside follows judged answers
  generalize r'.walker = now at aside
  cases aside with
  | stays =>
    refine ⟨follows, ?_⟩
    cases before with
    | walked outcome | closing outcome | awaiting outcome =>
      cases outcome with
      | failed cause => exact comes _ judged
      | complete | closed => trivial
    | finished result => exact judged.imp (fun faulty => faulty.goes sound goes) (comes result)
    | _ => trivial
  | answers => exact ⟨follows, trivial⟩
  | fails current asked => exact absurd rfl (answers current asked)
  | leaves => exact ⟨trivial, trivial⟩

/-- Run `k` walks along its chain, and the table is as it was at the beginning but for what the run has taken out. -/
structure Touring (find : TransactionId → Option Transaction) (first : TransactionId) (k : Nat) (w : World) : Prop where
  sound : w.Sound fun _ _ _ => True
  accountable : w.Accountable
  ungated : w.gated = false
  part : ∀ id t, w.store.find? id = some t → find id = some t
  inside : k < w.runs.length
  tracks : ∀ r, w.runs[k]? = some r → r.Tracks find first
  kept : ∀ r, w.runs[k]? = some r → ∀ id, id ∉ r.transactions.map (·.id) → w.store.find? id = find id
  answers : ∀ r, w.runs[k]? = some r → ∀ current asked, r.walker ≠ .finding current asked false

namespace Touring

/-- The part of the table that is live, after a step that only run `k` may have changed it by. -/
theorem store_of_step (h : Touring find first k w) (step : Undisturbed (Steps World.step) k Store.find? w action v)
    (found : v.runs[k]? = some r') : (∀ id t, v.store.find? id = some t → w.store.find? id = some t) ∧
      ∀ id, id ∉ r'.transactions.map (·.id) → v.store.find? id = w.store.find? id := by
  obtain ⟨step, own | same⟩ := step
  · cases h.sound.books (h.sound.change_of_any_step step) with
    | neither store =>
      rw [store]
      exact ⟨fun _ _ there => there, fun _ _ => rfl⟩
    | @item k' i r request record _ there _ isRecord taken _ done =>
      obtain rfl : k' = k := by simpa [Action.run?] using own
      refine ⟨fun id t there => Store.find?_of_relocate taken there, fun id fresh => ?_⟩
      obtain ⟨s, item, there, inside, rfl, -⟩ := (done k' i request).2 (.inr ⟨rfl, rfl, rfl⟩)
      obtain rfl := Option.some.inj (found.symm.trans there)
      rw [Store.find?_relocate taken, if_neg]
      rintro rfl
      rw [isRecord.id] at fresh
      apply fresh
      simp only [Run.transactions, List.map_map, List.mem_map]
      exact ⟨item, List.mem_of_getElem? inside, rfl⟩
    | inserted | moved => cases own
  · rw [same]
    exact ⟨fun _ _ there => there, fun _ _ => rfl⟩

/-- Every step leaves the run on its way. -/
theorem step (h : Touring find first k w) (keyed : ∀ id t, find id = some t → t.id = id)
    (step : Undisturbed (Steps World.step) k Store.find? w action v) : Touring find first k v := by
  have change := h.sound.change_of_any_step step.1
  have sound := h.sound.change change
  have stays : w.store.Keyed := fun id t found => keyed id t (h.part id t found)
  have inside := Nat.lt_of_lt_of_le h.inside change.length_le
  obtain ⟨r', found'⟩ : ∃ r', v.runs[k]? = some r' := ⟨_, List.getElem?_eq_getElem inside⟩
  obtain ⟨r, found⟩ : ∃ r, w.runs[k]? = some r := ⟨_, List.getElem?_eq_getElem h.inside⟩
  obtain ⟨part, kept⟩ := h.store_of_step step found'
  have goes := h.sound.goes_of_step step.1 found found'
  have tracks := h.tracks r found
  have ownSound := (h.sound k r found).1
  have next : r'.Tracks find first ∧ r.transactions <+: r'.transactions ∧
      ∀ current asked, r'.walker ≠ .finding current asked false := by
    rcases run_of_step step.1 found' with ⟨s, there, ⟨-, rfl⟩ | ⟨-, does⟩⟩ | ⟨beyond, -⟩
    · obtain rfl := Option.some.inj (found.symm.trans there)
      exact ⟨tracks, List.prefix_rfl, h.answers r found⟩
    · obtain rfl := Option.some.inj (found.symm.trans there)
      rcases does.walk ownSound with walks | ⟨handed, visited, -, aside⟩
      · refine ⟨tracks.walks ownSound (sound k r' found').1 (h.accountable k r found) goes keyed h.part (h.kept r found)
          walks, ?_, fun current asked place => ?_⟩
        · rcases walks.transactions ownSound with same | ⟨t, -, added⟩
          · exact same ▸ List.prefix_rfl
          · exact ⟨[t], added.symm⟩
        · simpa [h.ungated] using walks.finding place
      · refine ⟨aside.tracks tracks ownSound goes handed visited (does.itinerary ownSound stays tracks.itinerary)
          (h.answers r found), handed ▸ List.prefix_rfl, fun current asked place => ?_⟩
        rw [place] at aside
        generalize before : r.walker = walker at aside
        cases aside with
        | stays => exact h.answers r found current asked before
    · exact absurd h.inside (by simp [beyond])
  obtain ⟨tracks', grown, answers'⟩ := next
  have own {s : Run} (there : v.runs[k]? = some s) : s = r' := Option.some.inj (there.symm.trans found')
  refine ⟨sound, h.accountable.change h.sound change, (gated_of_step step.1).trans h.ungated,
    fun id t there => h.part id t (part id t there), inside, fun s there => own there ▸ tracks', ?_,
    fun s there => own there ▸ answers'⟩
  intro s there id fresh
  rw [own there] at fresh
  rw [kept id fresh]
  exact h.kept r found id fun member => fresh ((grown.map _).subset member)

/-- A run has just begun. -/
theorem begin {settings : GenerationSettings} {statement : StatementId} {last : TransactionId} {r : Run}
    (idle : w₀.runs = []) (ungated : w₀.gated = false) (before : Reachable (Steps World.step) w₀ w)
    (begun : Run.begin settings statement last = .ok r)
    (step : w.step (.begin settings statement last) = some { w with runs := w.runs ++ [r] }) :
    Touring w.store.find? last w.runs.length { w with runs := w.runs ++ [r] } := by
  obtain ⟨sound, accountable⟩ := accountable_reachable idle (before.tail step)
  have still : w.gated = false :=
    before.invariant ungated fun _ _ _ still step => (gated_of_step step).trans still
  have own {s : Run} (there : (w.runs ++ [r])[w.runs.length]? = some s) : r = s := by simpa using there
  refine ⟨sound, accountable, still, fun _ _ found => found, by simp, fun s there => own there ▸ .begin begun,
    fun _ _ _ _ => rfl, fun s there current asked place => ?_⟩
  rw [← own there, Run.walker_begin begun] at place
  cases place

/-- What the run answers, unless one of its items has failed, is what the end of its chain means. -/
theorem verdict (h : Touring find first k w) (found : w.runs[k]? = some r) {result : Except GenerationError Receipt}
    (answered : r.result? = some result) (calm : ¬ r.Faulty) {chain : List Transaction} {stop : ChainEnd}
    (whole : Chain find [] first chain stop) : result = stop.verdict r.statement chain.length := by
  have judged := (h.tracks r found).judged
  simp only [Run.Judged, Run.walker_of_result answered] at judged
  obtain ⟨stop', chain', rfl⟩ := judged.resolve_left calm
  obtain ⟨rfl, rfl⟩ := chain'.unique whole
  rfl

end Touring

/-- A chain has no more transactions than are live. -/
theorem length_le_live {chain : List Transaction} {stop : ChainEnd} (keyed : w.store.Keyed)
    (whole : Chain w.store.find? [] first chain stop) : chain.length ≤ w.store.live.length := by
  simpa [Store.liveIds] using whole.length_le keyed fun _ _ => Store.mem_liveIds

/-- A run over a finite table that nobody else changes comes to the end of its chain, and to no other. Whatever happens
between its steps, it looks up one record more than there are at most, and it has handed over a beginning of the chain,
nothing skipped and nothing repeated. What it answers, unless one of its items fails, is how the chain ends: that it
has archived all of its records, that a record is missing, or that the chain comes back to an id. -/
theorem verdict_is_of_chain {settings : GenerationSettings} {statement : StatementId} {last : TransactionId}
    (idle : w₀.runs = []) (ungated : w₀.gated = false) (keyed : w₀.store.Keyed)
    (before : Reachable (Steps World.step) w₀ w) (parallel : 1 ≤ settings.parallelism) :
    ∃ v chain stop, w.step (.begin settings statement last) = some v ∧ Chain w.store.find? [] last chain stop ∧
      (chain.map (·.id)).Nodup ∧
      ∀ u, Reachable (Undisturbed (Steps World.step) w.runs.length Store.find?) v u →
        ∃ r, u.runs[w.runs.length]? = some r ∧ r.lookups ≤ w.store.live.length + 1 ∧ r.transactions <+: chain ∧
          ∀ result, r.result? = some result → ¬ r.Faulty → result = stop.verdict statement chain.length := by
  have keyed := keyed_reachable idle keyed before
  have finite (id : TransactionId) (t : Transaction) (found : w.store.find? id = some t) : id ∈ w.store.liveIds :=
    Store.mem_liveIds found
  obtain ⟨r, begun⟩ : ∃ r, Run.begin settings statement last = .ok r :=
    ⟨_, by rw [Run.begin, Pipeline.start, if_neg (by omega)]; rfl⟩
  have step : w.step (.begin settings statement last) = some { w with runs := w.runs ++ [r] } := by
    simp only [World.step, begun]
  obtain ⟨chain, stop, whole⟩ := Chain.exists_of_finite finite [] last
  refine ⟨_, chain, stop, step, whole, (whole.nodup keyed).1, fun u after => ?_⟩
  have started := Touring.begin idle ungated before begun step
  have touring := after.invariant started fun _ _ _ touring step => touring.step keyed step
  obtain ⟨s, found, -, -, mine⟩ := run_reachable (P := fun s => s.statement = statement) started.sound started.accountable
    (k := w.runs.length) (r := r) (by simp) (Run.statement_begin begun)
    (fun s s' sound _ goes same => (Run.statement_of_goes sound (.inr goes)).trans same) (Undisturbed.reachable after)
  have tracks := touring.tracks s found
  obtain ⟨next, trail⟩ := tracks.trail
  have isPrefix := trail.isPrefix keyed tracks.itinerary.ids_nodup finite whole
  refine ⟨s, found, ?_, isPrefix, fun result answered calm => ?_⟩
  · obtain ⟨rest, visited, ahead⟩ := tracks.itinerary.visited
    have counted : s.lookups = s.transactions.length + rest.length := by
      simp [tracks.itinerary.counted, visited]
    have handed := isPrefix.length_le
    have live := length_le_live keyed whole
    have more := ahead.length_le
    omega
  · have judged := tracks.judged
    simp only [Run.Judged, Run.walker_of_result answered] at judged
    obtain ⟨stop', chain', rfl⟩ := judged.resolve_left calm
    obtain ⟨rfl, rfl⟩ := chain'.unique whole
    rw [mine]

/-- A chain of two records that comes back to its tail. -/
def cyclicWorld : World :=
  let older : TransactionId := ⟨"oldest", by decide⟩
  { store := .ofList 10 [⟨older, some exampleTail, [1, 2]⟩, ⟨exampleTail, some older, [3, 4, 5]⟩] }

/-- What happens in a run over `cyclicWorld` after it has begun: its first item is relocated before the walker comes back
to its id. -/
def comingBackActions : List Action :=
  let walks (steps : Nat) : List Action := List.replicate steps (.go (.walker 0))
  let drives (steps : Nat) : List Action := List.replicate steps (.go (.driver 0))
  let works (item steps : Nat) : List Action := List.replicate steps (.go (.item 0 item))
  walks 14 ++ [Action.wake 0] ++ drives 7 ++ works 0 1 ++
    [Action.signal 0 0 (.answer .sign (.ok [3])), .signal 0 0 (.answer .compress (.ok [5, 4, 3]))] ++ works 0 5 ++
    walks 3 ++ works 1 1 ++ drives 6 ++ [Action.signal 0 1 .cancel] ++ works 1 3 ++ drives 3 ++ walks 1

/-- The tail has gone from the table when the walker comes back to it, and the run tells the cycle nevertheless. -/
theorem verdict_is_of_chain_example : ∃ (v u : World) (r : Run) (chain : List Transaction) (stop : ChainEnd),
    cyclicWorld.step (.begin {} exampleStatement exampleTail) = some v ∧
    follow (fun _ action => decide (action.run? = some 0)) World.step v comingBackActions = some u ∧
    u.runs[0]? = some r ∧ u.store.find? exampleTail = none ∧ r.result? = some (.error (.chainCycle exampleTail)) ∧
    Chain cyclicWorld.store.find? [] exampleTail chain stop ∧ (chain.map (·.id)).Nodup ∧ r.lookups ≤ 3 ∧
    r.transactions <+: chain ∧ .error (.chainCycle exampleTail) = stop.verdict exampleStatement chain.length := by
  obtain ⟨v, chain, stop, begun, whole, nodup, judged⟩ :=
    @verdict_is_of_chain cyclicWorld cyclicWorld {} exampleStatement exampleTail rfl rfl (Store.keyed_ofList _ _)
      (.refl _ _) (by decide)
  have possible : (cyclicWorld.step (.begin {} exampleStatement exampleTail)).any fun (v : World) =>
      (follow (fun _ action => decide (action.run? = some 0)) World.step v comingBackActions).any fun (u : World) =>
        (u.store.find? exampleTail == none) && (u.runs[0]?).any fun (r : Run) =>
          (r.result? == some (.error (.chainCycle exampleTail))) && r.pipeline.items.all fun item =>
            item.phase.ending? == some .done || item.phase.ending? == some .cancelled := by decide +kernel
  simp only [begun, Option.any_eq_true, Option.some.injEq, Bool.and_eq_true, beq_iff_eq, List.all_eq_true, Bool.or_eq_true,
    exists_eq_left'] at possible
  obtain ⟨u, followed, gone, r, found, answered, ended⟩ := possible
  obtain ⟨s, there, lookups, handed, verdict⟩ := judged u (undisturbed_of_follow followed)
  obtain rfl := Option.some.inj (found.symm.trans there)
  have calm : ¬ r.Faulty := by
    have phase {i : Nat} {x : Pipeline.Phase Work} (inside : r.pipeline.phase? i = some x) :
        x.ending? = some .done ∨ x.ending? = some .cancelled := by
      obtain ⟨item, member, rfl⟩ := Pipeline.mem_items_iff.2 ⟨i, inside⟩
      exact ended item member
    rintro (⟨i, x, inside, panicked⟩ | ⟨i, x, cause, inside, failed, -⟩) <;> have := phase inside <;> simp_all
  exact ⟨v, u, r, chain, stop, begun, followed, found, gone, answered, whole, nodup, lookups, handed,
    verdict _ answered calm⟩

end World
end ChainArchive
