import ChainArchive.Proofs.Codec.CodeLengths
import ChainArchive.Proofs.Codec.Written
import Mathlib.Data.List.TakeWhile

/-!
# Writing code lengths

Equal code lengths are packed into orders, and who follows the orders has the
lengths again. The orders are written in a code of their own, whose lengths go in
front; there are always two different orders at least, so all its codes are taken
up.
-/

namespace ChainArchive.Codec
set_option autoImplicit false

/-! ## Lists of lengths -/

theorem replicate_append_replicate_append (first second x : Nat) (rest : List Nat) :
    List.replicate first x ++ (List.replicate second x ++ rest) = List.replicate (first + second) x ++ rest := by
  rw [← List.append_assoc, List.replicate_append_replicate]

/-- The runs with one member more: the first of them is the last run of the list so far. -/
def addMember (found : List (Nat × Nat)) (x : Nat) : List (Nat × Nat) :=
  match found with
  | (y, n) :: rest => if x = y then (y, n + 1) :: rest else (x, 1) :: found
  | [] => [(x, 1)]

theorem runs_eq (xs : List Nat) : runs xs = (xs.foldl addMember []).reverse := rfl

theorem addMember_positive {found : List (Nat × Nat)} (x : Nat) (positive : ∀ run ∈ found, 0 < run.2) :
    ∀ run ∈ addMember found x, 0 < run.2 := by
  rcases found with _ | ⟨⟨y, n⟩, rest⟩
  · simp [addMember]
  · obtain ⟨-, others⟩ := List.forall_mem_cons.1 positive
    simp only [addMember]
    split
    · exact List.forall_mem_cons.2 ⟨Nat.succ_pos _, others⟩
    · exact List.forall_mem_cons.2 ⟨Nat.one_pos, positive⟩

theorem flatMap_addMember (found : List (Nat × Nat)) (x : Nat) :
    (addMember found x).reverse.flatMap (fun run => List.replicate run.2 run.1) =
      found.reverse.flatMap (fun run => List.replicate run.2 run.1) ++ [x] := by
  rcases found with _ | ⟨⟨y, n⟩, rest⟩
  · rfl
  · simp only [addMember]
    split
    · next same => simp [same, List.replicate_succ']
    · simp

/-- The runs are those of the list, and none is empty. -/
theorem runs_spec (xs : List Nat) :
    (runs xs).flatMap (fun (x, count) => List.replicate count x) = xs ∧ ∀ run ∈ runs xs, 0 < run.2 := by
  have many : ∀ (xs : List Nat) (found : List (Nat × Nat)), (∀ run ∈ found, 0 < run.2) →
      (xs.foldl addMember found).reverse.flatMap (fun run => List.replicate run.2 run.1) =
          found.reverse.flatMap (fun run => List.replicate run.2 run.1) ++ xs ∧
        ∀ run ∈ xs.foldl addMember found, 0 < run.2 := by
    intro xs
    induction xs with
    | nil => exact fun found positive => ⟨(List.append_nil _).symm, positive⟩
    | cons x xs ih =>
      intro found positive
      obtain ⟨told, positive⟩ := ih (addMember found x) (addMember_positive x positive)
      refine ⟨?_, positive⟩
      rw [List.foldl_cons, told, flatMap_addMember, List.append_assoc]
      rfl
  obtain ⟨told, positive⟩ := many xs [] (by simp)
  exact ⟨told, fun run member => positive run (List.mem_reverse.1 member)⟩

theorem packRun_positive {length : Nat} (positive : 0 < length) (count : Nat) : packRun length count =
    ⟨length, 0, 0⟩ :: (List.replicate ((count - 1) / 6) ⟨16, 2, 3⟩ ++
      (if (count - 1) % 6 < 3 then List.replicate ((count - 1) % 6) ⟨length, 0, 0⟩
       else [⟨16, 2, (count - 1) % 6 - 3⟩])) := by
  unfold packRun
  exact if_neg (Nat.ne_of_gt positive)

/-- What is left out at the end are zeros. -/
theorem exists_trimZeros_append (least : Nat) (xs : List Nat) :
    ∃ count, trimZeros least xs ++ List.replicate count 0 = xs := by
  have whole : xs.reverse.takeWhile (· == 0) ++ xs.reverse.dropWhile (· == 0) = xs.reverse :=
    List.takeWhile_append_dropWhile
  have zeros : xs.reverse.takeWhile (· == 0) = List.replicate (xs.reverse.takeWhile (· == 0)).length 0 := by
    refine List.eq_replicate_iff.2 ⟨rfl, fun x member => ?_⟩
    exact beq_iff_eq.1 (List.mem_takeWhile_imp (p := (· == 0)) member)
  generalize xs.reverse.dropWhile (· == 0) = kept at whole
  have split : xs = kept.reverse ++ List.replicate (xs.reverse.takeWhile (· == 0)).length 0 := by
    conv_lhs => rw [← List.reverse_reverse xs, ← whole, List.reverse_append, zeros, List.reverse_replicate]
  unfold trimZeros
  generalize (xs.reverse.takeWhile (· == 0)).length = count at split
  subst split
  have used : (kept.reverse ++ List.replicate count 0).length - count = kept.reverse.length := by simp
  rw [used]
  refine ⟨count - (max least kept.reverse.length - kept.reverse.length), ?_⟩
  have rest : (kept.reverse ++ List.replicate count 0).drop (max least kept.reverse.length) =
      List.replicate (count - (max least kept.reverse.length - kept.reverse.length)) 0 := by
    rw [List.drop_append, List.drop_eq_nil_of_le (Nat.le_max_right ..), List.nil_append, List.drop_replicate]
  rw [← rest]
  exact List.take_append_drop _ _

theorem length_trimZeros {least : Nat} {xs : List Nat} (enough : least ≤ xs.length) :
    least ≤ (trimZeros least xs).length ∧ (trimZeros least xs).length ≤ xs.length := by
  rw [trimZeros, List.length_take]
  omega

/-! ## Counters -/

section Counters

variable {α : Type} (key : α → Nat) {xs : List α}

theorem size_counted (xs : List α) (counts : Array Nat) :
    (xs.foldl (fun counts x => counts.modify (key x) (· + 1)) counts).size = counts.size := by
  induction xs generalizing counts with
  | nil => rfl
  | cons x xs ih => rw [List.foldl_cons, ih, Array.size_modify]

/-- Counting takes nothing away. -/
theorem le_counted (xs : List α) (counts : Array Nat) (i : Nat) :
    counts.getD i 0 ≤ (xs.foldl (fun counts x => counts.modify (key x) (· + 1)) counts).getD i 0 := by
  induction xs generalizing counts with
  | nil => exact Nat.le_refl _
  | cons x xs ih =>
    refine Nat.le_trans ?_ (ih _)
    simp only [Array.getD_eq_getD_getElem?, Array.getElem?_modify]
    split
    · cases counts[i]? <;> simp
    · exact Nat.le_refl _

/-- What a counter says of what was counted is not zero. -/
theorem counted_positive {x : α} (member : x ∈ xs) (counts : Array Nat) (inside : key x < counts.size) :
    0 < (xs.foldl (fun counts x => counts.modify (key x) (· + 1)) counts).getD (key x) 0 := by
  induction xs generalizing counts with
  | nil => cases member
  | cons first xs ih =>
    rcases List.mem_cons.1 member with rfl | member
    · refine Nat.lt_of_lt_of_le ?_ (le_counted key xs _ _)
      simp [inside, Array.getElem_modify]
    · exact ih member _ (by rwa [Array.size_modify])

/-- What does not occur is not counted. -/
theorem counted_other {i : Nat} (other : ∀ x ∈ xs, key x ≠ i) (counts : Array Nat) :
    (xs.foldl (fun counts x => counts.modify (key x) (· + 1)) counts)[i]? = counts[i]? := by
  induction xs generalizing counts with
  | nil => rfl
  | cons x xs ih =>
    obtain ⟨first, other⟩ := List.forall_mem_cons.1 other
    rw [List.foldl_cons, ih other, Array.getElem?_modify, if_neg first]

end Counters

/-! ## Following orders -/

/-- Who follows the orders after these lengths, the last one first, has those. -/
inductive Replays : List Nat → List LengthOrder → List Nat → Prop
  | nil (read : List Nat) : Replays read [] read
  | one {length : Nat} {read result : List Nat} {orders : List LengthOrder} : length < 16 →
      Replays (length :: read) orders result → Replays read (⟨length, 0, 0⟩ :: orders) result
  | again {last rest : Nat} {read result : List Nat} {orders : List LengthOrder} : rest < 4 →
      Replays (List.replicate (rest + 3) last ++ last :: read) orders result →
      Replays (last :: read) (⟨16, 2, rest⟩ :: orders) result
  | fewZeros {rest : Nat} {read result : List Nat} {orders : List LengthOrder} : rest < 8 →
      Replays (List.replicate (rest + 3) 0 ++ read) orders result → Replays read (⟨17, 3, rest⟩ :: orders) result
  | manyZeros {rest : Nat} {read result : List Nat} {orders : List LengthOrder} : rest < 128 →
      Replays (List.replicate (rest + 11) 0 ++ read) orders result → Replays read (⟨18, 7, rest⟩ :: orders) result

namespace Replays

variable {read middle result : List Nat} {first second : List LengthOrder}

theorem append (h : Replays read first middle) (h' : Replays middle second result) :
    Replays read (first ++ second) result := by
  induction h with
  | nil => exact h'
  | one less _ ih => exact .one less (ih h')
  | again less _ ih => exact .again less (ih h')
  | fewZeros less _ ih => exact .fewZeros less (ih h')
  | manyZeros less _ ih => exact .manyZeros less (ih h')

/-- Every order adds a length at least. -/
theorem length_le (h : Replays read first result) : read.length + first.length ≤ result.length := by
  induction h with
  | nil => exact Nat.le_refl _
  | one | again | fewZeros | manyZeros =>
    simp only [List.length_cons, List.length_append, List.length_replicate] at *
    omega

/-- Orders have symbols of the length code. -/
theorem symbol_lt (h : Replays read first result) : ∀ order ∈ first, order.symbol < 19 := by
  induction h with
  | nil => simp
  | one less _ ih => exact List.forall_mem_cons.2 ⟨Nat.lt_trans less (by decide), ih⟩
  | again _ _ ih | fewZeros _ _ ih | manyZeros _ _ ih => exact List.forall_mem_cons.2 ⟨by simp, ih⟩

/-- The longest order for zeros, so many times. -/
theorem zeros (count : Nat) (read : List Nat) :
    Replays read (List.replicate count ⟨18, 7, 127⟩) (List.replicate (count * 138) 0 ++ read) := by
  induction count generalizing read with
  | zero => exact .nil read
  | succ count ih =>
    have rest := ih (List.replicate (127 + 11) 0 ++ read)
    rw [replicate_append_replicate_append] at rest
    rw [Nat.succ_mul]
    exact .manyZeros (by decide) rest

/-- The longest order for a repetition, so many times. -/
theorem repetitions (count last : Nat) (read : List Nat) :
    Replays (last :: read) (List.replicate count ⟨16, 2, 3⟩) (List.replicate (count * 6) last ++ last :: read) := by
  induction count generalizing read with
  | zero => exact .nil _
  | succ count ih =>
    have rest := ih (List.replicate 5 last ++ last :: read)
    have one : ∀ rest : List Nat, last :: rest = List.replicate 1 last ++ rest := fun _ => rfl
    rw [one (List.replicate 5 last ++ _), replicate_append_replicate_append, replicate_append_replicate_append] at rest
    rw [Nat.succ_mul]
    exact .again (by decide) rest

/-- The order for one length, so many times. -/
theorem singles {length : Nat} (short : length < 16) (count : Nat) (read : List Nat) :
    Replays read (List.replicate count ⟨length, 0, 0⟩) (List.replicate count length ++ read) := by
  induction count generalizing read with
  | zero => exact .nil read
  | succ count ih =>
    have rest := ih (List.replicate 1 length ++ read)
    rw [replicate_append_replicate_append] at rest
    exact .one short rest

/-- The orders for a run of zeros tell the run. -/
theorem packRun_zero (count : Nat) (read : List Nat) :
    Replays read (packRun 0 count) (List.replicate count 0 ++ read) := by
  unfold Codec.packRun
  rw [if_pos rfl]
  have total : count % 138 + count / 138 * 138 = count := by omega
  refine (zeros (count / 138) read).append ?_
  conv => rhs; rw [← total, ← replicate_append_replicate_append]
  generalize List.replicate (count / 138 * 138) 0 ++ read = read
  split
  · exact singles (by decide) _ read
  · split
    · have rest : count % 138 - 3 + 3 = count % 138 := by omega
      refine .fewZeros (by omega) ?_
      rw [rest]
      exact .nil _
    · have rest : count % 138 - 11 + 11 = count % 138 := by omega
      refine .manyZeros (by omega) ?_
      rw [rest]
      exact .nil _

/-- The orders for a run tell the run. -/
theorem packRun {length count : Nat} (short : length < 16) (some : 0 < count) (read : List Nat) :
    Replays read (packRun length count) (List.replicate count length ++ read) := by
  rcases Nat.eq_zero_or_pos length with rfl | positive
  · exact packRun_zero count read
  · have total : (count - 1) % 6 + ((count - 1) / 6 * 6 + 1) = count := by omega
    have one : length :: read = List.replicate 1 length ++ read := rfl
    rw [packRun_positive positive]
    refine .one short ((repetitions ((count - 1) / 6) length read).append ?_)
    conv => rhs; rw [← total, ← replicate_append_replicate_append, ← replicate_append_replicate_append, ← one]
    split
    · exact singles short _ _
    · have rest : (count - 1) % 6 - 3 + 3 = (count - 1) % 6 := by omega
      obtain ⟨read', same⟩ : ∃ read',
          List.replicate ((count - 1) / 6 * 6) length ++ length :: read = length :: read' := by
        cases (count - 1) / 6 * 6 with
        | zero => exact ⟨read, rfl⟩
        | succ n => exact ⟨_, by rw [List.replicate_succ, List.cons_append]⟩
      rw [same]
      refine .again (by omega) ?_
      rw [rest]
      exact .nil _

/-- The orders for runs tell all of them. -/
theorem packRuns {packed : List (Nat × Nat)} (short : ∀ run ∈ packed, run.1 < 16)
    (some : ∀ run ∈ packed, 0 < run.2) (read : List Nat) :
    Replays read (packed.flatMap fun (length, count) => Codec.packRun length count)
      ((packed.flatMap fun (length, count) => List.replicate count length).reverse ++ read) := by
  induction packed generalizing read with
  | nil => exact .nil read
  | cons run packed ih =>
    obtain ⟨first, short⟩ := List.forall_mem_cons.1 short
    obtain ⟨first', some⟩ := List.forall_mem_cons.1 some
    rw [List.flatMap_cons, List.flatMap_cons, List.reverse_append, List.reverse_replicate, List.append_assoc]
    exact (packRun first first' read).append (ih short some _)

/-- The orders for code lengths tell these. -/
theorem packLengths {lengths : List Nat} (short : ∀ l ∈ lengths, l < 16) :
    Replays [] (packLengths lengths) lengths.reverse := by
  obtain ⟨told, some⟩ := runs_spec lengths
  have each : ∀ run ∈ runs lengths, run.1 < 16 := by
    intro run member
    apply short run.1
    rw [← told]
    refine List.mem_flatMap.2 ⟨run, member, List.mem_replicate.2 ⟨?_, rfl⟩⟩
    exact Nat.ne_of_gt (some run member)
  have all := packRuns each some []
  rw [told, List.append_nil] at all
  exact all

end Replays

/-! ## Reading orders -/

/-- The decoder after some of the code lengths. -/
def Decoder.atLengths (out : Array UInt8) (offset : Nat) (isLast : Bool) (plan : LengthPlan) (code : PrefixCode) :
    Decoder :=
  (Reading.inBlock out isLast offset).nextLength plan code

theorem collected_one (r : Reading) {plan : LengthPlan} {code : PrefixCode} (goal : r.goal = .length plan code)
    {length : Nat} (plain : length < 16) :
    r.collected length = r.nextLength { plan with read := length :: plan.read } code := by
  unfold Reading.collected
  rw [goal]
  simp only
  split <;> first | omega | rfl

variable (out : Array UInt8) (isLast : Bool) {sink : BitSink} {plan : LengthPlan} {table : CodeTable}
  {code : PrefixCode}

/-- While lengths are missing, the decoder goes on to the next order. -/
theorem leads_order (sound : sink.Sound) (more : plan.read.length < plan.symbols + plan.distances) {symbol : Nat}
    (spells : Spells table code symbol) : Leads sink (sink.bits (table.getD symbol []))
      (.atLengths out sink.count isLast plan code)
      (({ Reading.inBlock out isLast (sink.bits (table.getD symbol [])).count with
          goal := .length plan code } : Reading).collected symbol) := by
  have start : Decoder.atLengths out sink.count isLast plan code =
      (Reading.inBlock out isLast sink.count).code (.length plan code) code := by
    simp only [Decoder.atLengths, Reading.nextLength, if_pos more]
  rw [start]
  exact Leads.symbol (r := Reading.inBlock out isLast sink.count) sound rfl (.length plan code) spells

/-- An order to repeat a length is followed, if its symbol asks for the number of repetitions. -/
theorem leads_repeat (sound : sink.Sound) (more : plan.read.length < plan.symbols + plan.distances)
    {symbol value least width rest : Nat} (spells : Spells table code symbol)
    (asks : ∀ r : Reading, r.goal = .length plan code →
      r.collected symbol = r.number (.repeatCount plan code value least) width)
    (some : 0 < width) (fits : rest < 2 ^ width) :
    Leads sink (writeOrder table sink ⟨symbol, width, rest⟩) (.atLengths out sink.count isLast plan code)
      (.atLengths out (writeOrder table sink ⟨symbol, width, rest⟩).count isLast
        { plan with read := List.replicate (rest + least) value ++ plan.read } code) := by
  have first := leads_order out isLast sound more spells
  rw [asks _ rfl] at first
  let r : Reading := ⟨out, (sink.bits (table.getD symbol [])).count, isLast, .length plan code, .number 3 1 0⟩
  have second := Leads.field (r := r) first.sound rfl (.repeatCount plan code value least) some fits
  simp only [Reading.collected] at second
  exact first.trans second

/-- The decoder follows the orders. -/
theorem leads_orders (sound : sink.Sound) {orders : List LengthOrder} {result : List Nat}
    (h : Replays plan.read orders result) (all : result.length = plan.symbols + plan.distances)
    (spells : ∀ order ∈ orders, Spells table code order.symbol) :
    Leads sink (orders.foldl (writeOrder table) sink) (.atLengths out sink.count isLast plan code)
      (.atLengths out (orders.foldl (writeOrder table) sink).count isLast { plan with read := result } code) := by
  generalize start : plan.read = read at h
  -- what is read at every order is less than all
  induction h generalizing sink plan with
  | nil read =>
    subst start
    exact .refl sound _
  | @one length read result orders plain h ih =>
    subst start
    have least := h.length_le
    rw [List.length_cons] at least
    obtain ⟨first, spells⟩ := List.forall_mem_cons.1 spells
    have more : plan.read.length < plan.symbols + plan.distances := by omega
    have leads := leads_order out isLast sound more first
    simp only at leads
    rw [collected_one _ rfl plain] at leads
    exact leads.trans (ih leads.sound all spells rfl)
  | @again last rest read result orders less h ih =>
    have least := h.length_le
    rw [List.length_append, List.length_replicate, ← start] at least
    obtain ⟨first, spells⟩ := List.forall_mem_cons.1 spells
    have asks : ∀ r : Reading, r.goal = .length plan code →
        r.collected 16 = r.number (.repeatCount plan code last 3) 2 := by
      intro r goal
      simp only [Reading.collected, goal, start]
    have leads := leads_repeat out isLast sound (by omega) first asks (by decide) less
    rw [start] at leads
    rw [List.foldl_cons]
    refine leads.trans (ih leads.sound ?_ spells ?_)
    · exact all
    · rfl
  | @fewZeros rest read result orders less h ih =>
    have least := h.length_le
    rw [List.length_append, List.length_replicate, ← start] at least
    obtain ⟨first, spells⟩ := List.forall_mem_cons.1 spells
    have asks : ∀ r : Reading, r.goal = .length plan code →
        r.collected 17 = r.number (.repeatCount plan code 0 3) 3 := by
      intro r goal
      simp only [Reading.collected, goal]
    have leads := leads_repeat out isLast sound (by omega) first asks (by decide) less
    rw [start] at leads
    rw [List.foldl_cons]
    refine leads.trans (ih leads.sound ?_ spells ?_)
    · exact all
    · rfl
  | @manyZeros rest read result orders less h ih =>
    have least := h.length_le
    rw [List.length_append, List.length_replicate, ← start] at least
    obtain ⟨first, spells⟩ := List.forall_mem_cons.1 spells
    have asks : ∀ r : Reading, r.goal = .length plan code →
        r.collected 18 = r.number (.repeatCount plan code 0 11) 7 := by
      intro r goal
      simp only [Reading.collected, goal]
    have leads := leads_repeat out isLast sound (by omega) first asks (by decide) less
    rw [start] at leads
    rw [List.foldl_cons]
    refine leads.trans (ih leads.sound ?_ spells ?_)
    · exact all
    · rfl

end ChainArchive.Codec
