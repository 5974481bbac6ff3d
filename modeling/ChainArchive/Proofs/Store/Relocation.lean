import ChainArchive.Store
import Mathlib.Data.List.Nodup
import Mathlib.Tactic.Common

/-!
# What relocations make of a store

A relocation that succeeds takes one live id out and puts one record at the end
of the archive, and nothing happens between the two. So after any number of
them each id that was live at first is either still live, with its record, or
the id of exactly one of the new archived records.
-/

namespace ChainArchive.Store
set_option autoImplicit false

theorem lookup_filter {α β : Type} [DecidableEq α] (l : List (α × β)) (gone id : α) :
    (l.filter (·.1 != gone)).lookup id = if id = gone then none else l.lookup id := by
  induction l with
  | nil => simp
  | cons entry l ih =>
    obtain ⟨key, value⟩ := entry
    by_cases is : key = gone
    · rw [List.filter_cons_of_neg (by simpa using is), ih, List.lookup_cons]
      split
      · rfl
      · next other =>
        have : (id == key) = false := by simpa [is] using other
        rw [this]
    · rw [List.filter_cons_of_pos (by simpa using is), List.lookup_cons, List.lookup_cons, ih]
      cases same : id == key with
      | true =>
        obtain rfl := beq_iff_eq.1 same
        exact (if_neg is).symm
      | false => rfl

theorem isLive_iff {s : Store} {id : TransactionId} : s.isLive id = true ↔ id ∈ s.liveIds := by
  simp [isLive, find?, liveIds, List.lookup_isSome_iff]

/-- Only ids in the table have records. -/
theorem mem_liveIds {s : Store} {id : TransactionId} {t : Transaction} (found : s.find? id = some t) :
    id ∈ s.liveIds := by
  rw [← isLive_iff, isLive, found]
  rfl

/-- What a relocation that succeeds does. -/
theorem relocate_eq_ok {s after : Store} {record : ArchivedTransaction} {original : TransactionId}
    (h : s.relocate record original = .ok after) : s.isLive original = true ∧
      s.isArchived record.statement record.id = false ∧
      after = { s with live := s.live.filter (·.1 != original), archive := s.archive ++ [record] } := by
  unfold relocate at h
  split at h
  · cases h
  · next free =>
    cases h
    unfold obstacle? at free
    split at free
    · cases free
    · split at free
      · cases free
      · next live =>
        split at free
        · cases free
        · next absent => exact ⟨by simpa using live, by simpa using absent, rfl⟩

theorem find?_relocate {s after : Store} {record : ArchivedTransaction} {original : TransactionId}
    (h : s.relocate record original = .ok after) (id : TransactionId) :
    after.find? id = if id = original then none else s.find? id := by
  obtain ⟨-, -, rfl⟩ := relocate_eq_ok h
  exact lookup_filter s.live original id

theorem archive_relocate {s after : Store} {record : ArchivedTransaction} {original : TransactionId}
    (h : s.relocate record original = .ok after) : after.archive = s.archive ++ [record] := by
  obtain ⟨-, -, rfl⟩ := relocate_eq_ok h
  rfl

theorem archivedFor_relocate {s after : Store} {record : ArchivedTransaction} {original : TransactionId}
    (h : s.relocate record original = .ok after) (statement : StatementId) :
    after.archivedFor statement = s.archivedFor statement ++ if record.statement = statement then [record] else [] := by
  rw [archivedFor, archive_relocate h, List.filter_append]
  congr 1
  split <;> simp_all

/-- An insertion leaves all other ids alone. -/
theorem find?_insert (s : Store) (t : Transaction) (id : TransactionId) :
    (s.insert t).find? id = if id = t.id then some t else s.find? id := by
  have kept := lookup_filter s.live t.id id
  simp only [find?, insert, List.lookup_append, kept]
  split
  · next same => simp [same]
  · next other =>
    have absent : List.lookup id [(t.id, t)] = none := by simp [other]
    rw [absent, Option.or_none]

/-! ## Many relocations -/

/-- The new records were moved from the first store to the second, each under its own id. -/
structure Moved (first : Store) (new : List ArchivedTransaction) (last : Store) : Prop where
  archive : last.archive = first.archive ++ new
  find? : ∀ id, last.find? id = if id ∈ new.map (·.id) then none else first.find? id
  nodup : (new.map (·.id)).Nodup
  was_live : ∀ record ∈ new, first.isLive record.id = true

namespace Moved

variable {first last : Store} {new : List ArchivedTransaction}

theorem refl (s : Store) : s.Moved [] s := ⟨by simp, by simp, by simp, by simp⟩

/-- What is live has not been moved, and has the record that it had. -/
theorem of_isLive (h : first.Moved new last) {id : TransactionId} (live : last.isLive id = true) :
    id ∉ new.map (·.id) ∧ last.find? id = first.find? id := by
  have found := h.find? id
  split at found
  · simp [isLive, found] at live
  · next notMoved => exact ⟨notMoved, found⟩

theorem relocate {after : Store} {record : ArchivedTransaction} (h : first.Moved new last)
    (taken : last.relocate record record.id = .ok after) : first.Moved (new ++ [record]) after := by
  obtain ⟨notMoved, same⟩ := h.of_isLive (relocate_eq_ok taken).1
  have live : first.isLive record.id = true := by
    have := (relocate_eq_ok taken).1
    rwa [isLive, same] at this
  constructor
  · rw [archive_relocate taken, h.archive, List.append_assoc]
  · intro id
    have := h.find? id
    rw [find?_relocate taken]
    simp only [List.map_append, List.map_cons, List.map_nil, List.mem_append, List.mem_singleton]
    split <;> simp_all
  · rw [List.map_append, List.nodup_append]
    refine ⟨h.nodup, by simp, ?_⟩
    rintro id member _ last rfl
    obtain rfl : id = record.id := by simpa using last
    exact notMoved member
  · intro other member
    rcases by simpa using member with member | rfl
    · exact h.was_live other member
    · exact live

/-- Each id that was live at first is live as it was and in no new record, or it is gone and in exactly one. -/
theorem kept_or_moved (h : first.Moved new last) {id : TransactionId} {t : Transaction} (was : first.find? id = some t) :
    (last.find? id = some t ∧ new.countP (·.id == id) = 0) ∨
      (last.find? id = none ∧ new.countP (·.id == id) = 1) := by
  have count : new.countP (·.id == id) = (new.map (·.id)).count id := by
    rw [List.count, List.countP_map]
    rfl
  rw [count, h.find?]
  by_cases gone : id ∈ new.map (·.id)
  · exact .inr ⟨if_pos gone, List.count_eq_one_of_mem h.nodup gone⟩
  · exact .inl ⟨(if_neg gone).trans was, List.count_eq_zero.2 gone⟩

end Moved
end ChainArchive.Store
