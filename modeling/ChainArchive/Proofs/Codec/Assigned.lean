import ChainArchive.Codec.Deflate
import ChainArchive.Proofs.Codec.Reading
import Mathlib.Algebra.BigOperators.Ring.List
import Mathlib.Data.List.Induction
import Mathlib.Tactic.Ring

/-!
# Assigned codes

A code that is given by lengths hands out its paths in order. Each path is the
beginning of a stretch of longer paths; the stretches lie one behind the other,
so none of the paths goes on from another, and if they all fit, each is read as
the symbol that it was given to.
-/

namespace ChainArchive.Codec
set_option autoImplicit false

/-! ## Stretches of paths -/

/-- Neither path goes on from the other. -/
def Apart (p q : List Bool) : Prop := ¬ p <+: q ∧ ¬ q <+: p

/-- The number whose binary digits a path has. -/
def pathValue (path : List Bool) : Nat := path.foldl (fun n bit => 2 * n + bit.toNat) 0

/-- The first of the paths of 16 bits that begin with this one, -/
def firstPath (path : List Bool) : Nat := pathValue path * 2 ^ (maxCodeLength + 1 - path.length)

/-- and the first one behind them. -/
def nextPath (path : List Bool) : Nat := (pathValue path + 1) * 2 ^ (maxCodeLength + 1 - path.length)

theorem pathValue_append (p q : List Bool) :
    pathValue (p ++ q) = pathValue p * 2 ^ q.length + pathValue q := by
  have begun : ∀ (q : List Bool) (n : Nat), q.foldl (fun n bit => 2 * n + bit.toNat) n =
      n * 2 ^ q.length + q.foldl (fun n bit => 2 * n + bit.toNat) 0 := by
    intro q
    induction q with
    | nil => simp
    | cons bit q ih =>
      intro n
      rw [List.foldl_cons, List.foldl_cons, ih, ih (2 * 0 + bit.toNat), List.length_cons, Nat.pow_succ]
      ring
  rw [pathValue, List.foldl_append, begun]
  rfl

theorem pathValue_lt (path : List Bool) : pathValue path < 2 ^ path.length := by
  induction path using List.reverseRecOn with
  | nil => decide
  | append_singleton path bit ih =>
    have : bit.toNat < 2 := Bool.toNat_lt bit
    rw [pathValue_append, List.length_append, List.length_singleton, Nat.pow_succ]
    simp only [pathValue, List.foldl_cons, List.foldl_nil] at ih ⊢
    omega

theorem firstPath_lt_nextPath (path : List Bool) : firstPath path < nextPath path :=
  Nat.mul_lt_mul_of_pos_right (Nat.lt_succ_self _) (Nat.two_pow_pos _)

/-- Whatever goes on from a path lies in its stretch. -/
theorem stretch_of_isPrefix {p q : List Bool} (h : p <+: q) (short : q.length ≤ maxCodeLength) :
    firstPath p ≤ firstPath q ∧ nextPath q ≤ nextPath p := by
  obtain ⟨r, rfl⟩ := h
  rw [List.length_append] at short
  have below := pathValue_lt r
  have split : 2 ^ (maxCodeLength + 1 - p.length) = 2 ^ r.length * 2 ^ (maxCodeLength + 1 - (p ++ r).length) := by
    rw [← Nat.pow_add, List.length_append]
    congr 1
    omega
  rw [firstPath, firstPath, nextPath, nextPath, pathValue_append, split, ← Nat.mul_assoc, ← Nat.mul_assoc]
  refine ⟨Nat.mul_le_mul_right _ (Nat.le_add_right _ _), Nat.mul_le_mul_right _ ?_⟩
  rw [Nat.succ_mul]
  omega

/-- Paths whose stretches lie one behind the other are apart. -/
theorem apart_of_nextPath_le {p q : List Bool} (h : nextPath p ≤ firstPath q) (short : p.length ≤ maxCodeLength)
    (short' : q.length ≤ maxCodeLength) : Apart p q := by
  have inside := firstPath_lt_nextPath p
  have inside' := firstPath_lt_nextPath q
  constructor
  · intro before
    have := stretch_of_isPrefix before short'
    omega
  · intro before
    have := stretch_of_isPrefix before short
    omega

theorem length_codeBits (width n : Nat) : (codeBits width n).length = width := by
  induction width generalizing n with
  | zero => rfl
  | succ width ih => simp [codeBits, ih]

theorem pathValue_codeBits {width n : Nat} (fits : n < 2 ^ width) : pathValue (codeBits width n) = n := by
  induction width generalizing n with
  | zero =>
    rw [Nat.pow_zero] at fits
    rw [codeBits, show n = 0 by omega]
    rfl
  | succ width ih =>
    have half : n / 2 < 2 ^ width := by
      rw [Nat.pow_succ] at fits
      omega
    have digit : pathValue [n % 2 == 1] = n % 2 := by
      rcases Nat.mod_two_eq_zero_or_one n with even | odd
      · simp [even, pathValue]
      · simp [odd, pathValue]
    rw [codeBits, pathValue_append, ih half, digit, List.length_singleton, Nat.pow_one]
    omega

/-! ## Assigning -/

/-- How many of the paths of 16 bits the codes of these lengths take up. -/
def pathsTaken (lengths levels : List Nat) : Nat :=
  (levels.map fun level => (symbolsOfLength lengths level).length * 2 ^ (maxCodeLength + 1 - level)).sum

/-- Codes whose stretches lie one behind the other. -/
def Ascending (codes : List (Nat × List Bool)) : Prop := codes.Pairwise fun a b => nextPath a.2 ≤ firstPath b.2

/-- The codes of one length are consecutive. -/
theorem assigned_level {symbols : List Nat} {level next : Nat} (short : level ≤ maxCodeLength)
    (room : (next + symbols.length) * 2 ^ (maxCodeLength + 1 - level) ≤ 2 ^ (maxCodeLength + 1)) :
    Ascending (symbols.zipIdx.map fun (symbol, i) => (symbol, codeBits level (next + i))) ∧
      ∀ code ∈ symbols.zipIdx.map fun (symbol, i) => (symbol, codeBits level (next + i)),
        code.2.length = level ∧ next * 2 ^ (maxCodeLength + 1 - level) ≤ firstPath code.2 ∧
          nextPath code.2 ≤ (next + symbols.length) * 2 ^ (maxCodeLength + 1 - level) := by
  have fits : ∀ i < symbols.length, pathValue (codeBits level (next + i)) = next + i := by
    intro i inside
    apply pathValue_codeBits
    have whole : 2 ^ (maxCodeLength + 1) = 2 ^ level * 2 ^ (maxCodeLength + 1 - level) := by
      rw [← Nat.pow_add]
      congr 1
      omega
    rw [whole] at room
    have := Nat.le_of_mul_le_mul_right room (Nat.two_pow_pos _)
    omega
  have first : ∀ i < symbols.length,
      firstPath (codeBits level (next + i)) = (next + i) * 2 ^ (maxCodeLength + 1 - level) := by
    intro i inside
    rw [firstPath, fits i inside, length_codeBits]
  have past : ∀ i < symbols.length,
      nextPath (codeBits level (next + i)) = (next + i + 1) * 2 ^ (maxCodeLength + 1 - level) := by
    intro i inside
    rw [nextPath, fits i inside, length_codeBits]
  have bound : ∀ {x : Nat × Nat}, x ∈ symbols.zipIdx → x.2 < symbols.length := by
    intro x member
    simpa using List.snd_lt_of_mem_zipIdx member
  constructor
  · have ordered : symbols.zipIdx.Pairwise fun a b => a.2 < b.2 := by
      rw [← List.pairwise_map (f := Prod.snd) (R := (· < ·)), List.zipIdx_map_snd]
      exact List.pairwise_lt_range'
    refine List.pairwise_map.2 (ordered.imp_of_mem ?_)
    intro a b inside inside' less
    rw [past _ (bound inside), first _ (bound inside')]
    exact Nat.mul_le_mul_right _ (by omega)
  · intro code member
    obtain ⟨⟨symbol, i⟩, inside, rfl⟩ := List.mem_map.1 member
    have less := bound inside
    refine ⟨length_codeBits _ _, ?_, ?_⟩
    · rw [first i less]
      exact Nat.mul_le_mul_right _ (by omega)
    · rw [past i less]
      exact Nat.mul_le_mul_right _ (by simp only at less; omega)

/-- The codes that are assigned from a level on, if they all fit. -/
theorem assigned {lengths : List Nat} {count level next : Nat} (all : level + count = maxCodeLength + 1)
    (room : next * 2 ^ (maxCodeLength + 1 - level) + pathsTaken lengths (List.range' level count) ≤
      2 ^ (maxCodeLength + 1)) :
    Ascending (assignFrom lengths next (List.range' level count)) ∧
      ∀ code ∈ assignFrom lengths next (List.range' level count), level ≤ code.2.length ∧
        code.2.length ≤ maxCodeLength ∧ next * 2 ^ (maxCodeLength + 1 - level) ≤ firstPath code.2 := by
  induction count generalizing level next with
  | zero => exact ⟨.nil, by simp [assignFrom]⟩
  | succ count ih =>
    have short : level ≤ maxCodeLength := by omega
    have double : 2 ^ (maxCodeLength + 1 - level) = 2 * 2 ^ (maxCodeLength + 1 - (level + 1)) := by
      rw [← Nat.pow_succ']
      congr 1
      omega
    rw [List.range'_succ] at room ⊢
    simp only [pathsTaken, List.map_cons, List.sum_cons, ← Nat.add_assoc, ← Nat.add_mul] at room
    obtain ⟨ordered, here⟩ := assigned_level short (Nat.le_trans (Nat.le_add_right _ _) room)
    have rest : (next + (symbolsOfLength lengths level).length) * 2 * 2 ^ (maxCodeLength + 1 - (level + 1)) =
        (next + (symbolsOfLength lengths level).length) * 2 ^ (maxCodeLength + 1 - level) := by
      rw [double, Nat.mul_assoc]
    have room' : (next + (symbolsOfLength lengths level).length) * 2 * 2 ^ (maxCodeLength + 1 - (level + 1)) +
        pathsTaken lengths (List.range' (level + 1) count) ≤ 2 ^ (maxCodeLength + 1) := by
      rw [rest]
      exact room
    obtain ⟨ordered', there⟩ := ih (by omega) room'
    rw [rest] at there
    constructor
    · refine List.pairwise_append.2 ⟨ordered, ordered', fun a first b second => ?_⟩
      exact Nat.le_trans (here a first).2.2 (there b second).2.2
    · intro code member
      rcases List.mem_append.1 member with member | member
      · obtain ⟨length, first, -⟩ := here code member
        exact ⟨by omega, by omega, first⟩
      · obtain ⟨least, most, first⟩ := there code member
        refine ⟨by omega, most, Nat.le_trans ?_ first⟩
        exact Nat.mul_le_mul_right _ (Nat.le_add_right _ _)

/-- Every symbol whose length is among the levels has a code. -/
theorem exists_mem_assignFrom {lengths levels : List Nat} {symbol level : Nat} (next : Nat)
    (found : lengths[symbol]? = some level) (listed : level ∈ levels) :
    ∃ path, (symbol, path) ∈ assignFrom lengths next levels := by
  induction levels generalizing next with
  | nil => cases listed
  | cons first levels ih =>
    rcases List.mem_cons.1 listed with rfl | listed
    · have member : symbol ∈ symbolsOfLength lengths level := by
        refine List.mem_map.2 ⟨(level, symbol), List.mem_filter.2 ⟨?_, beq_self_eq_true level⟩, rfl⟩
        exact List.mk_mem_zipIdx_iff_getElem?.2 found
      obtain ⟨i, place⟩ := List.mem_iff_getElem?.1 member
      refine ⟨codeBits level (next + i), List.mem_append_left _ (List.mem_map.2 ⟨(symbol, i), ?_, rfl⟩)⟩
      exact List.mk_mem_zipIdx_iff_getElem?.2 place
    · obtain ⟨path, member⟩ := ih _ listed
      exact ⟨path, List.mem_append_right _ member⟩

/-! ## The space that lengths take up -/

theorem foldl_add_eq_sum (xs : List Nat) (f : Nat → Nat) (n : Nat) :
    xs.foldl (fun sum x => sum + f x) n = n + (xs.map f).sum := by
  induction xs generalizing n with
  | nil => rfl
  | cons x xs ih => rw [List.foldl_cons, ih, List.map_cons, List.sum_cons, Nat.add_assoc]

/-- Members counted by their value. -/
theorem sum_count {values : List Nat} (distinct : values.Nodup) (f : Nat → Nat) (xs : List Nat) :
    (values.map fun v => xs.count v * f v).sum = ((xs.filter (· ∈ values)).map f).sum := by
  induction xs with
  | nil => simp
  | cons x xs ih =>
    have once : (values.map fun v => if x = v then f v else 0).sum = if x ∈ values then f x else 0 := by
      clear ih
      induction values with
      | nil => rfl
      | cons v values ih =>
        obtain ⟨fresh, distinct⟩ := List.nodup_cons.1 distinct
        rw [List.map_cons, List.sum_cons, ih distinct]
        by_cases here : x = v
        · subst here
          simp [fresh]
        · simp [here]
    have split : ∀ v, (x :: xs).count v * f v = xs.count v * f v + if x = v then f v else 0 := by
      intro v
      rw [List.count_cons, Nat.add_mul]
      by_cases here : x = v
      · simp [here]
      · simp [here]
    simp only [split, List.sum_map_add, ih, once]
    by_cases here : x ∈ values
    · simp [here, Nat.add_comm]
    · simp [here]

theorem length_symbolsOfLength (lengths : List Nat) (level : Nat) :
    (symbolsOfLength lengths level).length = lengths.count level := by
  have forget : lengths = lengths.zipIdx.map Prod.fst := (List.zipIdx_map_fst 0 lengths).symm
  rw [symbolsOfLength, List.length_map, ← List.countP_eq_length_filter, List.count]
  conv_rhs => rw [forget]
  rw [List.countP_map]
  rfl

/-- The levels on which codes are assigned. -/
theorem levels_eq : (List.range maxCodeLength).map (· + 1) = List.range' 1 maxCodeLength := by decide

/-- Each code takes up twice as many paths of 16 bits as of 15. -/
theorem pathsTaken_eq {lengths : List Nat} (short : ∀ l ∈ lengths, l ≤ maxCodeLength) :
    pathsTaken lengths (List.range' 1 maxCodeLength) = 2 * codeSpace lengths := by
  have space : codeSpace lengths = ((lengths.filter (0 < ·)).map fun l => 2 ^ (maxCodeLength - l)).sum := by
    rw [codeSpace, foldl_add_eq_sum, Nat.zero_add]
    rfl
  have distinct : (List.range' 1 maxCodeLength).Nodup := List.nodup_range'
  have used : lengths.filter (· ∈ List.range' 1 maxCodeLength) = lengths.filter (0 < ·) := by
    apply List.filter_congr
    intro l member
    have := short l member
    simp only [List.mem_range'_1, decide_eq_decide]
    omega
  simp only [pathsTaken, length_symbolsOfLength]
  rw [sum_count distinct, used, space, ← List.sum_map_mul_left]
  congr 1
  apply List.map_congr_left
  intro l member
  have := short l (List.mem_of_mem_filter member)
  rw [← Nat.pow_succ']
  congr 1
  omega

/-- Usable lengths do not take up more than there is. -/
theorem codeSpace_le_of_isUsable {lengths : List Nat} (usable : isUsable lengths = true) :
    codeSpace lengths ≤ 2 ^ maxCodeLength := by
  simp only [isUsable, Bool.or_eq_true, isComplete, beq_iff_eq, decide_eq_true_eq] at usable
  rcases usable with all | few
  · exact Nat.le_of_eq all
  · rw [codeSpace]
    generalize lengths.filter (0 < ·) = used at few
    match used, few with
    | [], _ => exact Nat.zero_le _
    | [l], _ =>
      rw [List.foldl_cons, List.foldl_nil, Nat.zero_add]
      exact Nat.pow_le_pow_right (by decide) (Nat.sub_le _ _)

/-! ## Reading a code -/

namespace PrefixCode

theorem follow_insert (code : PrefixCode) (value : Nat) (bit bit' : Bool) (path : List Bool) :
    (code.insert value (bit :: path)).follow bit' =
      if bit = bit' then (code.follow bit').insert value path else code.follow bit' := by
  cases code <;> cases bit <;> cases bit' <;> rfl

/-- A symbol that was added is found under its path, -/
theorem reach_insert_self (code : PrefixCode) (value : Nat) (path : List Bool) :
    (code.insert value path).reach path = .symbol value := by
  induction path generalizing code with
  | nil => rfl
  | cons bit path ih => rw [reach_cons, follow_insert, if_pos rfl, ih]

/-- and those whose paths are apart from it stay where they are. -/
theorem reach_insert_of_apart (code : PrefixCode) (value : Nat) {path other : List Bool} (apart : Apart path other) :
    (code.insert value path).reach other = code.reach other := by
  induction path generalizing code other with
  | nil => exact absurd List.nil_prefix apart.1
  | cons bit path ih =>
    cases other with
    | nil => exact absurd List.nil_prefix apart.2
    | cons bit' other =>
      rw [reach_cons, follow_insert]
      split
      · next same =>
        subst same
        rw [ih]
        · rfl
        · exact ⟨fun before => apart.1 (List.cons_prefix_cons.2 ⟨rfl, before⟩),
            fun before => apart.2 (List.cons_prefix_cons.2 ⟨rfl, before⟩)⟩
      · rfl

/-- Symbols that were added under paths apart from each other are all found. -/
theorem reach_foldl_insert {codes : List (Nat × List Bool)} (apart : codes.Pairwise fun a b => Apart a.2 b.2)
    {value : Nat} {path : List Bool} (member : (value, path) ∈ codes) (code : PrefixCode) :
    (codes.foldl (fun code (value, path) => code.insert value path) code).reach path = .symbol value := by
  -- what is there already stays if all that follows is apart from it
  have stays : ∀ (rest : List (Nat × List Bool)) (code : PrefixCode), (∀ b ∈ rest, Apart path b.2) →
      (rest.foldl (fun code (value, path) => code.insert value path) code).reach path = code.reach path := by
    intro rest
    induction rest with
    | nil => exact fun _ _ => rfl
    | cons b rest ih =>
      intro code away
      obtain ⟨first, away⟩ := List.forall_mem_cons.1 away
      rw [List.foldl_cons, ih _ away]
      exact reach_insert_of_apart _ _ ⟨first.2, first.1⟩
  induction codes generalizing code with
  | nil => cases member
  | cons first codes ih =>
    obtain ⟨away, apart⟩ := List.pairwise_cons.1 apart
    rcases List.mem_cons.1 member with rfl | member
    · rw [List.foldl_cons, stays _ _ away, reach_insert_self]
    · exact ih apart member _

end PrefixCode

/-! ## Writing a code -/

/-- The table has a path for the symbol, and the code reads it as that symbol. -/
structure Spells (table : CodeTable) (code : PrefixCode) (symbol : Nat) : Prop where
  some : table.getD symbol [] ≠ []
  short : (table.getD symbol []).length ≤ maxCodeLength
  found : code.reach (table.getD symbol []) = .symbol symbol

/-- A symbol that is among the entries has the path of one of its entries. -/
theorem getD_foldl_set {entries : List (Nat × List Bool)} {symbol : Nat} {path : List Bool}
    (member : (symbol, path) ∈ entries) (table : CodeTable) (inside : symbol < table.size) :
    ∃ path', (symbol, path') ∈ entries ∧
      (entries.foldl (fun table (value, path) => table.set! value path) table).getD symbol [] = path' := by
  -- without further entries of the symbol its path stays
  have stays : ∀ (rest : List (Nat × List Bool)) (table : CodeTable), (∀ path, (symbol, path) ∉ rest) →
      (rest.foldl (fun table (value, path) => table.set! value path) table).getD symbol [] =
        table.getD symbol [] := by
    intro rest
    induction rest with
    | nil => exact fun _ _ => rfl
    | cons b rest ih =>
      intro table none
      have other : b.1 ≠ symbol := fun same => none b.2 (same ▸ List.mem_cons_self)
      rw [List.foldl_cons, ih _ fun path later => none path (List.mem_cons_of_mem _ later)]
      simp [Array.getElem?_setIfInBounds_ne other]
  induction entries generalizing table path with
  | nil => cases member
  | cons first entries ih =>
    by_cases again : ∃ path', (symbol, path') ∈ entries
    · obtain ⟨path', later⟩ := again
      obtain ⟨path'', last, found⟩ := ih later (table.set! first.1 first.2) (by simpa using inside)
      exact ⟨path'', List.mem_cons_of_mem _ last, found⟩
    · have only := not_exists.1 again
      rcases List.mem_cons.1 member with rfl | later
      · refine ⟨path, List.mem_cons_self, ?_⟩
        rw [List.foldl_cons, stays _ _ only]
        simp [inside]
      · exact absurd later (only path)

/-- Every symbol with a code is written so that it can be read. -/
theorem spells_of_isUsable {lengths : List Nat} (usable : isUsable lengths = true)
    (short : ∀ l ∈ lengths, l ≤ maxCodeLength) {symbol length : Nat} (found : lengths[symbol]? = some length)
    (positive : 0 < length) : Spells (codeTable lengths) (.ofLengths lengths) symbol := by
  have most := short length (List.mem_of_getElem? found)
  have room : 0 * 2 ^ (maxCodeLength + 1 - 1) + pathsTaken lengths (List.range' 1 maxCodeLength) ≤
      2 ^ (maxCodeLength + 1) := by
    rw [Nat.zero_mul, Nat.zero_add, pathsTaken_eq short, Nat.pow_succ']
    exact Nat.mul_le_mul_left 2 (codeSpace_le_of_isUsable usable)
  obtain ⟨ordered, each⟩ := assigned (Nat.add_comm 1 maxCodeLength) room
  have codes : assignCodes lengths = assignFrom lengths 0 (List.range' 1 maxCodeLength) := by
    rw [assignCodes, levels_eq]
  rw [← codes] at ordered each
  have apart : (assignCodes lengths).Pairwise fun a b => Apart a.2 b.2 :=
    ordered.imp_of_mem fun first second behind => apart_of_nextPath_le behind (each _ first).2.1 (each _ second).2.1
  have listed : length ∈ List.range' 1 maxCodeLength := List.mem_range'_1.2 ⟨positive, by omega⟩
  obtain ⟨path, member⟩ := exists_mem_assignFrom 0 found listed
  have inside : symbol < (Array.replicate lengths.length ([] : List Bool)).size := by
    rw [Array.size_replicate]
    exact (List.getElem?_eq_some_iff.1 found).1
  obtain ⟨path', entry, written⟩ := getD_foldl_set (codes ▸ member) _ inside
  obtain ⟨least, most, -⟩ := each _ entry
  refine ⟨?_, ?_, ?_⟩
  · rw [codeTable, written]
    exact List.ne_nil_of_length_pos least
  · rw [codeTable, written]
    exact most
  · rw [codeTable, written]
    exact PrefixCode.reach_foldl_insert apart entry _

/-! ## Lengths of zero -/

/-- Symbols without a code behind all others do not matter. -/
theorem assignCodes_append_zeros (lengths : List Nat) (count : Nat) :
    assignCodes (lengths ++ List.replicate count 0) = assignCodes lengths := by
  have level : ∀ level, 0 < level →
      symbolsOfLength (lengths ++ List.replicate count 0) level = symbolsOfLength lengths level := by
    intro level positive
    have none : ((List.replicate count 0).zipIdx lengths.length).filter (fun x => x.1 == level) = [] := by
      apply List.filter_eq_nil_iff.2
      intro x member
      have := List.fst_mem_of_mem_zipIdx member
      have : x.1 = 0 := (List.mem_replicate.1 this).2
      simp only [beq_iff_eq]
      omega
    rw [symbolsOfLength, List.zipIdx_append, List.filter_append, Nat.zero_add, none, List.append_nil]
    rfl
  have from_ : ∀ (levels : List Nat) (next : Nat), (∀ l ∈ levels, 0 < l) →
      assignFrom (lengths ++ List.replicate count 0) next levels = assignFrom lengths next levels := by
    intro levels
    induction levels with
    | nil => exact fun _ _ => rfl
    | cons l levels ih =>
      intro next positive
      obtain ⟨first, positive⟩ := List.forall_mem_cons.1 positive
      rw [assignFrom, assignFrom, level l first, ih _ positive]
  exact from_ _ 0 (by simp)

end ChainArchive.Codec
