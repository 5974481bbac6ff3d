import ChainArchive.Proofs.Store.Relocation
import ChainArchive.Store.Calls
import ChainArchive.Transition
import Mathlib.Data.List.Perm.Basic

/-!
# A store over any history

Whatever a store has been asked for so far, each live record stands under its own
id, no key is in the archive twice, and the archive has only grown at its end. A
call that fails has changed nothing: all that can be in its way is found before
the first table is written.
-/

namespace ChainArchive.Store
set_option autoImplicit false

variable {s t : Store} {call : Call} {answer : Answer} {record : ArchivedTransaction} {original id : TransactionId}

/-! ## Working in place -/

namespace Access

variable {α β : Type}

@[simp]
theorem on_get : (get : Access Store).on s = (.ok s, s) := rfl

@[simp]
theorem on_modify (f : Store → Store) : (modify f : Access Unit).on s = (.ok (), f s) := rfl

@[simp]
theorem on_pure (a : α) : (pure a : Access α).on s = (.ok a, s) := rfl

@[simp]
theorem on_throw (e : StoreError) : (throw e : Access α).on s = (.error e, s) := rfl

/-- What comes after works on the tables as they were left behind; after a failure nothing comes. -/
theorem on_bind (x : Access α) (f : α → Access β) : (x >>= f).on s =
    match x.on s with
    | (.ok a, t) => (f a).on t
    | (.error e, t) => (.error e, t) := by
  have unfolded : (x >>= f).on s = ExceptT.bindCont f (x.on s).1 (x.on s).2 := rfl
  rw [unfolded]
  rcases x.on s with ⟨_ | a, t⟩ <;> rfl

end Access

/-! ## What a call does -/

/-- In place, a relocation does what it does as a whole; if it fails, the tables are as they were. -/
theorem move_on (s : Store) (record : ArchivedTransaction) (original : TransactionId) :
    (move record original).on s =
      match s.relocate record original with
      | .ok after => (.ok (), after)
      | .error e => (.error e, s) := by
  unfold relocate
  cases obstacle : s.obstacle? record original with
  | none => simp [move, Access.on_bind, obstacle]
  | some reason => simp [move, Access.on_bind, obstacle]

theorem findById_on (s : Store) (id : TransactionId) : (findById id).on s = (s.lookup id, s) := by
  unfold lookup
  cases found : s.find? id with
  | none => simp [findById, Access.on_bind, found]
  | some t => simp [findById, Access.on_bind, found]

/-- What a call is answered with, and what it leaves behind. -/
inductive Outcome (s : Store) : Call → Answer → Store → Prop
  | insert (t : Transaction) : Outcome s (.insert t) (.ok none) (s.insert t)
  | found {id : TransactionId} {t : Transaction} : s.lookup id = .ok t → Outcome s (.find id) (.ok (some t)) s
  | notFound {id : TransactionId} {e : StoreError} : s.lookup id = .error e → Outcome s (.find id) (.error e) s
  | relocated {record : ArchivedTransaction} {original : TransactionId} {after : Store} :
      s.relocate record original = .ok after → Outcome s (.relocate record original) (.ok none) after
  | refused {record : ArchivedTransaction} {original : TransactionId} {e : StoreError} :
      s.relocate record original = .error e → Outcome s (.relocate record original) (.error e) s
  | obstruct (id : TransactionId) : Outcome s (.obstruct id) (.ok none) (s.failRelocationOf id)

theorem answers_find (s : Store) (id : TransactionId) : s.Answers (.find id, (s.lookup id).map some) s := by
  rw [Answers, perform, Access.on_bind, findById_on]
  cases s.lookup id <;> rfl

theorem answers_relocate (s : Store) (record : ArchivedTransaction) (original : TransactionId) :
    match s.relocate record original with
    | .ok after => s.Answers (.relocate record original, .ok none) after
    | .error e => s.Answers (.relocate record original, .error e) s := by
  simp only [Answers, perform, Access.on_bind, move_on]
  cases s.relocate record original <;> rfl

theorem outcome_of_answers (h : s.Answers (call, answer) t) : Outcome s call answer t := by
  -- there is one answer only
  have only {answer' : Answer} {t' : Store} (h' : s.Answers (call, answer') t') : answer' = answer ∧ t' = t :=
    Prod.mk.inj (h'.symm.trans h)
  cases call with
  | insert t =>
    cases h
    exact .insert t
  | find id =>
    obtain ⟨rfl, rfl⟩ := only (answers_find s id)
    cases found : s.lookup id with
    | ok t => exact .found found
    | error e => exact .notFound found
  | relocate record original =>
    have answered := answers_relocate s record original
    split at answered
    · next moved =>
      obtain ⟨rfl, rfl⟩ := only answered
      exact .relocated moved
    · next refused =>
      obtain ⟨rfl, rfl⟩ := only answered
      exact .refused refused
  | obstruct id =>
    cases h
    exact .obstruct id

/-! ## What always holds -/

/-- The key of an archived record. -/
def keyOf (r : ArchivedTransaction) : StatementId × TransactionId := (r.statement, r.id)

/-- The tables are as they have to be. -/
structure Consistent (s : Store) : Prop where
  /-- Each live record stands under its own id. -/
  keyed : ∀ entry ∈ s.live, entry.1 = entry.2.id
  /-- No id is live twice. -/
  live : s.liveIds.Nodup
  /-- No key is in the archive twice. -/
  archive : (s.archive.map keyOf).Nodup

theorem isArchived_iff (s : Store) (statement : StatementId) (id : TransactionId) :
    s.isArchived statement id = true ↔ (statement, id) ∈ s.archive.map keyOf := by
  simp [isArchived, keyOf]

theorem liveIds_filter (s : Store) (gone : TransactionId) :
    (s.live.filter (·.1 != gone)).map (·.1) = s.liveIds.filter (· != gone) := by
  rw [liveIds, List.filter_map]
  rfl

/-- A relocation that succeeds takes exactly one entry out, that of its id. -/
theorem live_perm_of_relocate {after : Store} (distinct : s.liveIds.Nodup) (h : s.relocate record original = .ok after) :
    ∃ t, s.live.Perm ((original, t) :: after.live) := by
  obtain ⟨live, -, rfl⟩ := relocate_eq_ok h
  obtain ⟨t, found⟩ := Option.isSome_iff_exists.1 live
  obtain ⟨before, after, split, -⟩ := List.lookup_eq_some_iff.1 found
  rw [liveIds, split, List.map_append, List.map_cons, List.nodup_middle, List.nodup_cons, ← List.map_append] at distinct
  have others : (before ++ after).filter (·.1 != original) = before ++ after :=
    List.filter_eq_self.2 fun entry member => by
      rw [bne_iff_ne]
      rintro rfl
      exact distinct.1 (List.mem_map.2 ⟨entry, member, rfl⟩)
  refine ⟨t, ?_⟩
  rw [split, List.filter_append, List.filter_cons_of_neg (by simp), ← List.filter_append, others]
  exact List.perm_middle

namespace Consistent

theorem start (capacity : Nat) : Consistent { capacity } := ⟨by simp, List.nodup_nil, List.nodup_nil⟩

theorem insert (h : s.Consistent) (t : Transaction) : (s.insert t).Consistent := by
  refine ⟨fun entry member => ?_, ?_, h.archive⟩
  · rcases List.mem_append.1 member with old | new
    · exact h.keyed entry (List.mem_of_mem_filter old)
    · rw [List.mem_singleton.1 new]
  · rw [liveIds, Store.insert, List.map_append, liveIds_filter, List.map_singleton, List.nodup_append]
    refine ⟨h.live.filter _, List.nodup_singleton _, ?_⟩
    rintro id old _ new rfl
    obtain rfl := List.mem_singleton.1 new
    simpa using (List.mem_filter.1 old).2

theorem relocate {after : Store} (h : s.Consistent) (moved : s.relocate record original = .ok after) :
    after.Consistent := by
  obtain ⟨-, fresh, rfl⟩ := relocate_eq_ok moved
  refine ⟨fun entry member => h.keyed entry (List.mem_of_mem_filter member), ?_, ?_⟩
  · rw [liveIds, liveIds_filter]
    exact h.live.filter _
  · rw [List.map_append, List.map_singleton, List.nodup_append]
    refine ⟨h.archive, List.nodup_singleton _, ?_⟩
    rintro key old _ new rfl
    obtain rfl := List.mem_singleton.1 new
    rw [← Bool.not_eq_true, isArchived_iff] at fresh
    exact fresh old

theorem outcome (h : s.Consistent) (outcome : Outcome s call answer t) : t.Consistent := by
  cases outcome with
  | insert t => exact h.insert t
  | found | notFound | refused => exact h
  | relocated moved => exact h.relocate moved
  | obstruct => exact ⟨h.keyed, h.live, h.archive⟩

end Consistent

/-- The archive grows at its end, if at all. -/
theorem archive_prefix_of_outcome (outcome : Outcome s call answer t) : s.archive <+: t.archive := by
  cases outcome with
  | insert | found | notFound | refused | obstruct => exact List.prefix_rfl
  | relocated moved =>
    rw [archive_relocate moved]
    exact List.prefix_append _ _

/-- A relocation succeeds if nothing is in its way, and fails without effect otherwise. -/
theorem relocate_cases (s : Store) (record : ArchivedTransaction) (original : TransactionId) :
    (original ∉ s.failing ∧ original ∈ s.liveIds ∧ keyOf record ∉ s.archive.map keyOf ∧
        ∃ after, s.relocate record original = .ok after) ∨
      ((original ∈ s.failing ∨ original ∉ s.liveIds ∨ keyOf record ∈ s.archive.map keyOf) ∧
        ∃ reason, s.relocate record original = .error (.relocationFailed original reason)) := by
  simp only [relocate, obstacle?, ← isLive_iff, keyOf, ← isArchived_iff, List.contains_iff_mem]
  by_cases failing : original ∈ s.failing
  · exact .inr ⟨.inl failing, _, by rw [if_pos failing]⟩
  · cases live : s.isLive original with
    | false => exact .inr ⟨.inr (.inl Bool.false_ne_true), _, by rw [if_neg failing]; rfl⟩
    | true =>
      cases taken : s.isArchived record.statement record.id with
      | true => exact .inr ⟨.inr (.inr rfl), _, by rw [if_neg failing]; rfl⟩
      | false => exact .inl ⟨failing, rfl, Bool.false_ne_true, _, by rw [if_neg failing]; rfl⟩

/-! ## The whole -/

/-- Whatever a new store has been asked for: each live record stands under its own id and no key is in the archive twice;
what is in the archive stays there, in its place. A relocation that succeeds takes out exactly the live record of the
id and adds exactly the given record, and so it does if neither a failure was injected, the live record is missing nor
the key is taken; one that fails, like a lookup, leaves all as it was. -/
theorem consistent_over_history (capacity : Nat) {history : List (Call × Answer)} {s : Store}
    (path : Path Answers { capacity } history s) :
    s.Consistent ∧
    (∀ further t, Path Answers s further t → s.archive <+: t.archive) ∧
    (∀ record original, ∃ answer t, s.Answers (.relocate record original, answer) t ∧
      ((original ∉ s.failing ∧ original ∈ s.liveIds ∧ keyOf record ∉ s.archive.map keyOf ∧ answer = .ok none ∧
          (∃ gone, s.live.Perm ((original, gone) :: t.live)) ∧ t.archive = s.archive ++ [record]) ∨
        ((original ∈ s.failing ∨ original ∉ s.liveIds ∨ keyOf record ∈ s.archive.map keyOf) ∧
          (∃ reason, answer = .error (.relocationFailed original reason)) ∧ t = s))) ∧
    ∀ id, ∃ answer, s.Answers (.find id, answer) s ∧
      ((∃ t, (id, t) ∈ s.live ∧ answer = .ok (some t)) ∨ (id ∉ s.liveIds ∧ answer = .error (.notFound id))) := by
  have consistent : s.Consistent := path.invariant (.start capacity) fun _ _ _ h step =>
    h.outcome (outcome_of_answers step)
  refine ⟨consistent, fun further t later => ?_, fun record original => ?_, fun id => ?_⟩
  · exact later.invariant (P := fun t => s.archive <+: t.archive) List.prefix_rfl fun _ _ _ before step =>
      before.trans (archive_prefix_of_outcome (outcome_of_answers step))
  · have answered := answers_relocate s record original
    rcases s.relocate_cases record original with ⟨free, live, fresh, after, moved⟩ | ⟨obstacle, reason, refused⟩
    · rw [moved] at answered
      exact ⟨_, after, answered, .inl ⟨free, live, fresh, rfl, live_perm_of_relocate consistent.live moved,
        archive_relocate moved⟩⟩
    · rw [refused] at answered
      exact ⟨_, s, answered, .inr ⟨obstacle, ⟨reason, rfl⟩, rfl⟩⟩
  · have answered := answers_find s id
    unfold lookup at answered
    cases found : s.find? id with
    | some t =>
      rw [found] at answered
      obtain ⟨before, after, split, -⟩ := List.lookup_eq_some_iff.1 found
      exact ⟨_, answered, .inl ⟨t, by simp [split], rfl⟩⟩
    | none =>
      rw [found] at answered
      refine ⟨_, answered, .inr ⟨?_, rfl⟩⟩
      rw [← isLive_iff, isLive, found]
      exact Bool.false_ne_true

/-! ## An example -/

/-- Two live records. -/
def exampleFirst : Transaction := ⟨⟨"a", by decide⟩, none, [1]⟩
def exampleSecond : Transaction := ⟨⟨"b", by decide⟩, some ⟨"a", by decide⟩, [2]⟩

/-- An archived record under an id that is neither. -/
def exampleMoved : ArchivedTransaction := ⟨⟨List.replicate 16 7, rfl⟩, ⟨"c", by decide⟩, 1, [], []⟩

/-- The first record is moved under the other id. It is not found any more until it is inserted again; the second cannot
be moved, since the key is taken, and then not under any key, since its relocation is made to fail. -/
def exampleHistory : List (Call × Answer) :=
  [(.insert exampleFirst, .ok none), (.insert exampleSecond, .ok none),
    (.relocate exampleMoved exampleFirst.id, .ok none),
    (.find exampleFirst.id, .error (.notFound exampleFirst.id)),
    (.relocate exampleMoved exampleSecond.id,
      .error (.relocationFailed exampleSecond.id "archive key already present")),
    (.obstruct exampleSecond.id, .ok none),
    (.relocate { exampleMoved with id := exampleSecond.id } exampleSecond.id,
      .error (.relocationFailed exampleSecond.id "injected relocation failure")),
    (.insert exampleFirst, .ok none), (.find exampleFirst.id, .ok (some exampleFirst))]

theorem consistent_over_history_example : ∃ s, Path Answers { capacity := 10 } exampleHistory s ∧
    s.liveIds = [exampleSecond.id, exampleFirst.id] ∧ s.archive = [exampleMoved] ∧ s.Consistent := by
  have path : Path Answers { capacity := 10 } exampleHistory
      ⟨[(exampleSecond.id, exampleSecond), (exampleFirst.id, exampleFirst)], [exampleMoved], [exampleSecond.id], 10⟩ :=
    .cons rfl <| .cons rfl <| .cons rfl <| .cons rfl <| .cons rfl <| .cons rfl <| .cons rfl <| .cons rfl <|
      .cons rfl <| .nil _
  exact ⟨_, path, rfl, rfl, (consistent_over_history 10 path).1⟩

end ChainArchive.Store
