import ChainArchive.Proofs.Codec.Assigned
import Mathlib.Data.List.Perm.Basic

/-!
# Chosen code lengths

The depths in a tree of symbols take up all codes. Cut back to a limit, they take
up too many by at most the number of those that are as long as the limit; each
time room is made, it is one less. So in the end all codes are taken up again,
and no symbol has lost its code.
-/

namespace ChainArchive.Codec
set_option autoImplicit false

/-! ## Trees of symbols -/

/-- The depths of the leaves of a binary tree. -/
inductive Joined : List Nat → Prop
  | leaf : Joined [0]
  | join {a b : List Nat} : Joined a → Joined b → Joined ((a ++ b).map (· + 1))

namespace Joined

/-- Where there are two leaves, none is at the root. -/
theorem positive {depths : List Nat} (h : Joined depths) (several : 2 ≤ depths.length) : ∀ d ∈ depths, 0 < d := by
  cases h with
  | leaf => simp at several
  | join =>
    intro d member
    obtain ⟨_, -, rfl⟩ := List.mem_map.1 member
    exact Nat.succ_pos _

/-- Leaves below a limit are as many as the tree has room for, and those that are cut back take up too much room by
one each at most. -/
theorem space {depths : List Nat} (h : Joined depths) (limit : Nat) :
    2 ^ limit ≤ (depths.map fun d => 2 ^ (limit - min d limit)).sum ∧
      (depths.map fun d => 2 ^ (limit - min d limit)).sum ≤
        2 ^ limit + (depths.map fun d => if min d limit = limit then 1 else 0).sum := by
  induction h generalizing limit with
  | leaf => simp
  | @join a b _ _ ih ih' =>
    cases limit with
    | zero =>
      have := (ih 0).1
      simp only [Nat.min_zero, Nat.sub_zero, Nat.pow_zero, if_true, List.map_map, Function.comp_def, List.map_append,
        List.sum_append] at this ⊢
      omega
    | succ limit =>
      have deeper : ∀ d, 2 ^ (limit + 1 - min (d + 1) (limit + 1)) = 2 ^ (limit - min d limit) := by
        intro d
        rw [Nat.succ_min_succ, Nat.succ_sub_succ]
      have cut : ∀ d, (if min (d + 1) (limit + 1) = limit + 1 then 1 else 0) =
          if min d limit = limit then 1 else 0 := by
        intro d
        rw [Nat.succ_min_succ]
        simp
      obtain ⟨low, high⟩ := ih limit
      obtain ⟨low', high'⟩ := ih' limit
      simp only [List.map_map, Function.comp_def, List.map_append, List.sum_append, deeper, cut, Nat.pow_succ]
      omega

end Joined

theorem perm_insertGroup (g : Group) (groups : List Group) : (insertGroup g groups).Perm (g :: groups) := by
  induction groups with
  | nil => exact .refl _
  | cons h rest ih =>
    unfold insertGroup
    split
    · exact (ih.cons h).trans (.swap g h rest)
    · exact .refl _

/-- The groups are joined into one tree, and no symbol is lost. -/
theorem joinGroups_eq (fuel : Nat) (groups : List Group) (joined : ∀ g ∈ groups, Joined g.depths) (some : groups ≠ [])
    (enough : groups.length ≤ fuel + 1) : ∃ g, joinGroups fuel groups = [g] ∧ Joined g.depths ∧
      g.depths.length = (groups.map (·.depths.length)).sum := by
  induction fuel generalizing groups with
  | zero =>
    match groups, some, enough with
    | [g], _, _ => exact ⟨g, rfl, joined g List.mem_cons_self, by simp⟩
  | succ fuel ih =>
    match groups, some, enough with
    | [g], _, _ => exact ⟨g, rfl, joined g List.mem_cons_self, by simp⟩
    | a :: b :: rest, _, enough =>
      have perm := perm_insertGroup ⟨a.weight + b.weight, (a.depths ++ b.depths).map (· + 1)⟩ rest
      obtain ⟨first, second, others⟩ : Joined a.depths ∧ Joined b.depths ∧ ∀ g ∈ rest, Joined g.depths := by
        simpa using joined
      obtain ⟨g, result, tree, all⟩ := ih
        (insertGroup ⟨a.weight + b.weight, (a.depths ++ b.depths).map (· + 1)⟩ rest)
        (fun g member => by
          rcases List.mem_cons.1 (perm.mem_iff.1 member) with rfl | member
          · exact .join first second
          · exact others g member)
        (fun empty => by
          have := perm.length_eq
          rw [empty] at this
          cases this)
        (by
          rw [perm.length_eq]
          simpa using enough)
      refine ⟨g, result, tree, ?_⟩
      rw [all, (perm.map _).sum_nat]
      simp [Nat.add_assoc]

/-- There is a depth for each weight. -/
theorem length_depthsOf (weights : List Nat) : (depthsOf weights).length = weights.length := by
  unfold depthsOf
  split
  · rfl
  · rfl
  · next none one =>
    obtain ⟨g, result, -, all⟩ := joinGroups_eq weights.length
      (weights.map fun w => ⟨w, [0]⟩) (by simp [Joined.leaf]) (by simpa using none) (by simp)
    simp [result, all, Function.comp_def]

/-- Two weights or more give a tree. -/
theorem joined_depthsOf {weights : List Nat} (several : 2 ≤ weights.length) : Joined (depthsOf weights) := by
  unfold depthsOf
  split
  · simp at several
  · simp at several
  · next none one =>
    obtain ⟨g, result, tree, -⟩ := joinGroups_eq weights.length
      (weights.map fun w => ⟨w, [0]⟩) (by simp [Joined.leaf]) (by simpa using none) (by simp)
    simpa [result] using tree

theorem depthsOf_positive (weights : List Nat) : ∀ d ∈ depthsOf weights, 0 < d := by
  by_cases several : 2 ≤ weights.length
  · exact (joined_depthsOf several).positive (by rwa [length_depthsOf])
  · match weights, several with
    | [], _ => simp [depthsOf]
    | [_], _ => simp [depthsOf]
    | _ :: _ :: _, several => simp at several

/-! ## Counts -/

/-- What counts weigh when a member that is counted at a place weighs as much as the place says. -/
def weigh (weight : Nat → Nat) : List Nat → Nat
  | [] => 0
  | count :: counts => count * weight 0 + weigh (fun i => weight (i + 1)) counts

theorem weigh_eq_sum (weight : Nat → Nat) (counts : List Nat) :
    weigh weight counts = ((List.range counts.length).map fun i => counts.getD i 0 * weight i).sum := by
  induction counts generalizing weight with
  | nil => rfl
  | cons count counts ih =>
    rw [weigh, ih, List.length_cons, List.range_succ_eq_map, List.map_cons, List.sum_cons, List.map_map]
    rfl

theorem weigh_modify {counts : List Nat} {i count : Nat} (weight : Nat → Nat) (f : Nat → Nat)
    (found : counts[i]? = some count) :
    weigh weight (counts.modify i f) + count * weight i = weigh weight counts + f count * weight i := by
  induction counts generalizing i weight with
  | nil => cases found
  | cons first counts ih =>
    cases i with
    | zero =>
      cases found
      simp only [List.modify_zero_cons, weigh]
      omega
    | succ i =>
      have := ih (fun i => weight (i + 1)) found
      simp only [List.modify_succ_cons, weigh]
      omega

/-- A place where more is counted adds its weight each time, -/
theorem weigh_more {i : Nat} (counts : List Nat) (weight : Nat → Nat) (more : Nat) (inside : i < counts.length) :
    weigh weight (counts.modify i (· + more)) = weigh weight counts + more * weight i := by
  have := weigh_modify weight (· + more) (List.getElem?_eq_getElem inside)
  rw [Nat.add_mul] at this
  omega

/-- and one where one less is counted takes it away. -/
theorem weigh_less {counts : List Nat} {i count : Nat} (weight : Nat → Nat) (found : counts[i]? = some (count + 1)) :
    weigh weight (counts.modify i (· - 1)) + weight i = weigh weight counts := by
  have := weigh_modify weight (· - 1) found
  rw [Nat.add_sub_cancel, Nat.succ_mul] at this
  omega

/-- What is counted at one place. -/
theorem weigh_place (counts : Array Nat) (i : Nat) :
    weigh (fun j => if j = i then 1 else 0) counts.toList = counts.getD i 0 := by
  have nothing : ∀ counts : List Nat, weigh (fun _ => 0) counts = 0 := by
    intro counts
    induction counts with
    | nil => rfl
    | cons count counts ih => rw [weigh, ih, Nat.mul_zero]
  have place : ∀ (counts : List Nat) (i : Nat), weigh (fun j => if j = i then 1 else 0) counts = counts.getD i 0 := by
    intro counts
    induction counts with
    | nil => exact fun _ => rfl
    | cons count counts ih =>
      intro i
      cases i with
      | zero => simp [weigh, nothing]
      | succ i => simpa [weigh] using ih i
  rw [place]
  simp

/-- Where nothing is counted the weight does not matter. -/
theorem weigh_mul (weight : Nat → Nat) (factor : Nat) (counts : List Nat) :
    weigh (fun i => factor * weight i) counts = factor * weigh weight counts := by
  induction counts generalizing weight with
  | nil => rfl
  | cons count counts ih => rw [weigh, weigh, ih fun i => weight (i + 1), Nat.mul_add, Nat.mul_left_comm]

theorem weigh_congr {counts : List Nat} {weight weight' : Nat → Nat}
    (same : ∀ (i count : Nat), counts[i]? = some count → count ≠ 0 → weight i = weight' i) :
    weigh weight counts = weigh weight' counts := by
  induction counts generalizing weight weight' with
  | nil => rfl
  | cons count counts ih =>
    have first : count * weight 0 = count * weight' 0 := by
      by_cases none : count = 0
      · simp [none]
      · rw [same 0 count rfl none]
    rw [weigh, weigh, first, ih fun i count found => same (i + 1) count found]

/-- How many of the depths are at each place, those beyond the limit at the limit. -/
def tally (limit : Nat) (depths : List Nat) : Array Nat :=
  depths.foldl (fun counts depth => counts.modify (min depth limit) (· + 1)) (Array.replicate (limit + 1) 0)

theorem size_tally (limit : Nat) (depths : List Nat) : (tally limit depths).size = limit + 1 := by
  have kept : ∀ (depths : List Nat) (counts : Array Nat),
      (depths.foldl (fun counts depth => counts.modify (min depth limit) (· + 1)) counts).size = counts.size := by
    intro depths
    induction depths with
    | nil => exact fun _ => rfl
    | cons depth depths ih =>
      intro counts
      rw [List.foldl_cons, ih, Array.size_modify]
  rw [tally, kept, Array.size_replicate]

theorem weigh_tally (weight : Nat → Nat) (limit : Nat) (depths : List Nat) :
    weigh weight (tally limit depths).toList = (depths.map fun d => weight (min d limit)).sum := by
  have added : ∀ (depths : List Nat) (counts : Array Nat), counts.size = limit + 1 →
      weigh weight (depths.foldl (fun counts depth => counts.modify (min depth limit) (· + 1)) counts).toList =
        weigh weight counts.toList + (depths.map fun d => weight (min d limit)).sum := by
    intro depths
    induction depths with
    | nil => exact fun _ _ => rfl
    | cons depth depths ih =>
      intro counts size
      rw [List.foldl_cons, ih _ (by rw [Array.size_modify, size]), Array.toList_modify,
        weigh_more _ _ _ (by rw [Array.length_toList, size]; omega)]
      simp [Nat.add_assoc]
  have empty : ∀ (n : Nat) (weight : Nat → Nat), weigh weight (List.replicate n 0) = 0 := by
    intro n
    induction n with
    | zero => exact fun _ => rfl
    | succ n ih =>
      intro weight
      rw [List.replicate_succ, weigh, ih, Nat.zero_mul]
  rw [tally, added _ _ (Array.size_replicate ..), Array.toList_replicate, empty, Nat.zero_add]

/-! ## Making room -/

/-- Counts of so many codes, none of length zero. They take up too much room by at most the number of the longest. -/
structure Crowded (limit codes excess : Nat) (counts : Array Nat) : Prop where
  size : counts.size = limit + 1
  none : counts.getD 0 0 = 0
  total : weigh (fun _ => 1) counts.toList = codes
  space : weigh (fun length => 2 ^ (limit - length)) counts.toList = 2 ^ limit + excess
  enough : excess ≤ counts.getD limit 0

theorem getD_modify (counts : Array Nat) (i j : Nat) (f : Nat → Nat) (zero : f 0 = 0) :
    (counts.modify i f).getD j 0 = if i = j then f (counts.getD j 0) else counts.getD j 0 := by
  simp only [Array.getD_eq_getD_getElem?, Array.getElem?_modify]
  split
  · cases counts[j]? <;> simp [zero]
  · rfl

namespace Crowded

variable {limit codes excess : Nat} {counts : Array Nat}

/-- Codes that take up too much room, of which there are not too many, are not all of the greatest length. -/
theorem shorter (h : Crowded limit codes (excess + 1) counts) (few : codes ≤ 2 ^ limit) :
    ∃ length, 0 < length ∧ length < limit ∧ counts.getD length 0 ≠ 0 := by
  by_contra no
  have longest : ∀ (i count : Nat), counts.toList[i]? = some count → count ≠ 0 → 2 ^ (limit - i) = 1 := by
    intro i count found some
    have here : counts.getD i 0 = count := by
      rw [Array.getElem?_toList] at found
      simp [found]
    have bound : i < counts.size := by
      simpa using (List.getElem?_eq_some_iff.1 found).1
    have size := h.size
    have least : i ≠ 0 := fun zero => some (by rw [← here, zero]; exact h.none)
    have : ¬ i < limit := fun less => no ⟨i, Nat.pos_of_ne_zero least, less, by rw [here]; exact some⟩
    rw [Nat.sub_eq_zero_of_le (by omega), Nat.pow_zero]
  have space := h.space
  rw [weigh_congr longest, h.total] at space
  omega

/-- Each time room is made, there is too little of it by one less. -/
theorem makeRoom (h : Crowded limit codes (excess + 1) counts) (few : codes ≤ 2 ^ limit) (some : 0 < limit) :
    Crowded limit codes excess (makeRoom limit counts) := by
  have size := h.size
  have enough := h.enough
  obtain ⟨longest, here⟩ : ∃ longest, counts.getD limit 0 = longest + 1 := ⟨counts.getD limit 0 - 1, by omega⟩
  obtain ⟨start, low, high, used⟩ := h.shorter few
  -- a shorter code is found, of whatever length
  have found : ∃ length, (((List.range limit).drop 1).reverse.find? fun length =>
      (counts.modify limit (· - 1)).getD length 0 != 0) = Option.some length := by
    refine Option.isSome_iff_exists.1 (List.find?_isSome.2 ⟨start, ?_, ?_⟩)
    · rw [List.mem_reverse, List.range_eq_range', List.drop_range', List.mem_range'_1]
      omega
    · rw [getD_modify _ _ _ _ rfl, if_neg (by omega)]
      exact bne_iff_ne.2 used
  obtain ⟨length, found⟩ := found
  have inside := List.mem_of_find?_eq_some found
  rw [List.mem_reverse, List.range_eq_range', List.drop_range', List.mem_range'_1] at inside
  have count := List.find?_some found
  rw [getD_modify _ _ _ _ rfl, if_neg (by omega)] at count
  obtain ⟨others, there⟩ : ∃ others, counts.getD length 0 = others + 1 :=
    ⟨counts.getD length 0 - 1, by have := bne_iff_ne.1 count; omega⟩
  have result : Codec.makeRoom limit counts =
      ((counts.modify limit (· - 1)).modify length (· - 1)).modify (length + 1) (· + 2) := by
    unfold Codec.makeRoom
    simp only [found]
  have weight : ∀ w : Nat → Nat, weigh w (Codec.makeRoom limit counts).toList + w length + w limit =
      weigh w counts.toList + 2 * w (length + 1) := by
    intro w
    have atLimit : counts.toList[limit]? = Option.some (longest + 1) := by
      rw [Array.getElem?_toList, Array.getElem?_eq_getElem (by omega)]
      simpa [size] using here
    have atLength : (counts.modify limit (· - 1)).toList[length]? = Option.some (others + 1) := by
      rw [Array.getElem?_toList, Array.getElem?_modify, if_neg (by omega), Array.getElem?_eq_getElem (by omega)]
      have : length < counts.size := by omega
      simpa [this] using there
    have first := weigh_less w atLimit
    have second := weigh_less w atLength
    have inner : length + 1 < ((counts.modify limit (· - 1)).modify length (· - 1)).toList.length := by
      simp
      omega
    have third := weigh_more _ w 2 inner
    rw [result, Array.toList_modify, third, Array.toList_modify]
    rw [← Array.toList_modify] at first
    omega
  refine ⟨?_, ?_, ?_, ?_, ?_⟩
  · rw [result, Array.size_modify, Array.size_modify, Array.size_modify, size]
  · have := weight fun i => if i = 0 then 1 else 0
    rw [weigh_place, weigh_place, if_neg (by omega), if_neg (by omega), if_neg (by omega), h.none] at this
    omega
  · have := weight fun _ => 1
    have total := h.total
    omega
  · have := weight fun i => 2 ^ (limit - i)
    have double : 2 ^ (limit - length) = 2 * 2 ^ (limit - (length + 1)) := by
      rw [← Nat.pow_succ']
      congr 1
      omega
    have space := h.space
    rw [double, Nat.sub_self, Nat.pow_zero] at this
    omega
  · have := weight fun i => if i = limit then 1 else 0
    rw [weigh_place, weigh_place, if_neg (by omega), if_pos rfl] at this
    omega

/-- When room was made as often as there was too little, all codes are taken up. -/
theorem foldl (h : Crowded limit codes excess counts) (few : codes ≤ 2 ^ limit) (some : 0 < limit) :
    Crowded limit codes 0 ((List.range excess).foldl (fun counts _ => Codec.makeRoom limit counts) counts) := by
  have times : ∀ (xs : List Nat) (counts : Array Nat), Crowded limit codes xs.length counts →
      Crowded limit codes 0 (xs.foldl (fun counts _ => Codec.makeRoom limit counts) counts) := by
    intro xs
    induction xs with
    | nil => exact fun _ h => h
    | cons x xs ih => exact fun counts h => ih _ (h.makeRoom few some)
  exact times _ _ (by rwa [List.length_range])

end Crowded

/-- The places from one on hold all that is counted, if nothing is counted at zero. -/
theorem weigh_eq_sum_drop {limit : Nat} {counts : Array Nat} (size : counts.size = limit + 1)
    (none : counts.getD 0 0 = 0) (weight : Nat → Nat) : weigh weight counts.toList =
      (((List.range (limit + 1)).drop 1).map fun i => counts.getD i 0 * weight i).sum := by
  have first : List.range (limit + 1) = 0 :: (List.range (limit + 1)).drop 1 := by
    rw [List.range_eq_range', List.drop_range', List.range'_succ]
    rfl
  have same : ∀ i, counts.toList.getD i 0 = counts.getD i 0 := by simp
  rw [weigh_eq_sum, Array.length_toList, size]
  conv_lhs => rw [first]
  simp only [same, List.map_cons, List.sum_cons, none, Nat.zero_mul, Nat.zero_add]

theorem tally_none {limit : Nat} {depths : List Nat} (some : 0 < limit) (positive : ∀ d ∈ depths, 0 < d) :
    (tally limit depths).getD 0 0 = 0 := by
  rw [← weigh_place, weigh_tally]
  apply List.sum_eq_zero
  intro x member
  obtain ⟨d, inside, rfl⟩ := List.mem_map.1 member
  have := positive d inside
  rw [if_neg (by omega)]

/-- Counts of codes of each length: so many codes in all, and if these are two or more, all are taken up. -/
structure Tallied (limit codes : Nat) (counts : Array Nat) : Prop where
  size : counts.size = limit + 1
  none : counts.getD 0 0 = 0
  total : weigh (fun _ => 1) counts.toList = codes
  space : 2 ≤ codes → weigh (fun length => 2 ^ (limit - length)) counts.toList = 2 ^ limit

/-- There is one code for each weight. -/
theorem tallied_limitedCounts {limit : Nat} {weights : List Nat} (some : 0 < limit) (few : weights.length ≤ 2 ^ limit) :
    Tallied limit weights.length (limitedCounts limit (depthsOf weights)) := by
  have none := tally_none some (depthsOf_positive weights)
  have size := size_tally limit (depthsOf weights)
  have total : weigh (fun _ => 1) (tally limit (depthsOf weights)).toList = weights.length := by
    rw [weigh_tally]
    simp [length_depthsOf]
  have space : ((List.range (limit + 1)).drop 1).foldl (fun sum length =>
      sum + (tally limit (depthsOf weights)).getD length 0 * Nat.pow 2 (limit - length)) 0 =
      weigh (fun length => 2 ^ (limit - length)) (tally limit (depthsOf weights)).toList := by
    rw [foldl_add_eq_sum, Nat.zero_add, weigh_eq_sum_drop size none]
    rfl
  have result : limitedCounts limit (depthsOf weights) =
      if weights.length ≤ 1 then tally limit (depthsOf weights)
      else (List.range (weigh (fun length => 2 ^ (limit - length)) (tally limit (depthsOf weights)).toList -
        2 ^ limit)).foldl (fun counts _ => makeRoom limit counts) (tally limit (depthsOf weights)) := by
    rw [← space, ← length_depthsOf weights]
    rfl
  rw [result]
  split
  · next single => exact ⟨size, none, total, fun several => by omega⟩
  · next several =>
    have tree : Joined (depthsOf weights) := joined_depthsOf (by omega)
    obtain ⟨low, high⟩ := tree.space limit
    have taken := weigh_tally (fun length => 2 ^ (limit - length)) limit (depthsOf weights)
    have crowded : Crowded limit weights.length
        (weigh (fun length => 2 ^ (limit - length)) (tally limit (depthsOf weights)).toList - 2 ^ limit)
        (tally limit (depthsOf weights)) := by
      refine ⟨size, none, total, by omega, ?_⟩
      rw [taken, ← weigh_place, weigh_tally]
      omega
    obtain ⟨size, none, total, space, -⟩ := crowded.foldl few some
    exact ⟨size, none, total, fun _ => space⟩

/-! ## Handing the lengths out -/

/-- The lengths that are counted, the greatest first. -/
def handedOut (limit : Nat) (counts : Array Nat) : List Nat :=
  ((List.range (limit + 1)).drop 1).reverse.flatMap fun length => List.replicate (counts.getD length 0) length

theorem sum_handedOut {limit : Nat} {counts : Array Nat} (size : counts.size = limit + 1) (none : counts.getD 0 0 = 0)
    (f : Nat → Nat) : ((handedOut limit counts).map f).sum = weigh f counts.toList := by
  have each : ∀ levels : List Nat,
      ((levels.flatMap fun length => List.replicate (counts.getD length 0) length).map f).sum =
        (levels.map fun i => counts.getD i 0 * f i).sum := by
    intro levels
    induction levels with
    | nil => rfl
    | cons level levels ih =>
      rw [List.flatMap_cons, List.map_append, List.sum_append, ih, List.map_replicate, List.sum_replicate_nat]
      rfl
  rw [handedOut, each, List.map_reverse, List.sum_reverse, weigh_eq_sum_drop size none]

theorem mem_handedOut {limit length : Nat} {counts : Array Nat} (member : length ∈ handedOut limit counts) :
    0 < length ∧ length ≤ limit := by
  obtain ⟨level, inside, here⟩ := List.mem_flatMap.1 member
  obtain ⟨-, rfl⟩ := List.mem_replicate.1 here
  rw [List.mem_reverse, List.range_eq_range', List.drop_range', List.mem_range'_1] at inside
  omega

/-- Gives each symbol its length. -/
def giveLengths (entries : List ((Nat × Nat) × Nat)) (lengths : Array Nat) : Array Nat :=
  entries.foldl (fun lengths ((_, symbol), length) => lengths.set! symbol length) lengths

theorem giveLengths_cons (entry : (Nat × Nat) × Nat) (entries : List ((Nat × Nat) × Nat)) (lengths : Array Nat) :
    giveLengths (entry :: entries) lengths = giveLengths entries (lengths.setIfInBounds entry.1.2 entry.2) := rfl

theorem size_giveLengths (entries : List ((Nat × Nat) × Nat)) (lengths : Array Nat) :
    (giveLengths entries lengths).size = lengths.size := by
  induction entries generalizing lengths with
  | nil => rfl
  | cons entry entries ih => rw [giveLengths_cons, ih, Array.size_setIfInBounds]

/-- Other symbols keep their lengths. -/
theorem giveLengths_other {entries : List ((Nat × Nat) × Nat)} {symbol : Nat} (lengths : Array Nat)
    (other : symbol ∉ entries.map (·.1.2)) : (giveLengths entries lengths)[symbol]? = lengths[symbol]? := by
  induction entries generalizing lengths with
  | nil => rfl
  | cons entry entries ih =>
    obtain ⟨first, other⟩ : symbol ≠ entry.1.2 ∧ symbol ∉ entries.map (·.1.2) := by simpa using other
    rw [giveLengths_cons, ih _ other, Array.getElem?_setIfInBounds_ne first.symm]

/-- Each of different symbols has its length. -/
theorem giveLengths_own {entries : List ((Nat × Nat) × Nat)} {weight symbol length : Nat} (lengths : Array Nat)
    (distinct : (entries.map (·.1.2)).Nodup) (inside : symbol < lengths.size)
    (member : ((weight, symbol), length) ∈ entries) : (giveLengths entries lengths)[symbol]? = some length := by
  induction entries generalizing lengths with
  | nil => cases member
  | cons entry entries ih =>
    obtain ⟨fresh, distinct⟩ := List.nodup_cons.1 distinct
    rw [giveLengths_cons]
    rcases List.mem_cons.1 member with rfl | member
    · rw [giveLengths_other _ fresh, Array.getElem?_setIfInBounds_self_of_lt inside]
    · exact ih _ distinct (by simpa using inside) member

/-- Where there was nothing, what is added up is what was given. -/
theorem sum_giveLengths {entries : List ((Nat × Nat) × Nat)} {lengths : Array Nat} {f : Nat → Nat} (zero : f 0 = 0)
    (distinct : (entries.map (·.1.2)).Nodup) (empty : ∀ symbol ∈ entries.map (·.1.2), lengths[symbol]? = some 0) :
    ((giveLengths entries lengths).toList.map f).sum =
      (lengths.toList.map f).sum + (entries.map fun entry => f entry.2).sum := by
  have set : ∀ (xs : List Nat) (i x : Nat), xs[i]? = some 0 → ((xs.set i x).map f).sum = (xs.map f).sum + f x := by
    intro xs
    induction xs with
    | nil => simp
    | cons y xs ih =>
      intro i x here
      cases i with
      | zero =>
        cases here
        simp [zero, Nat.add_comm]
      | succ i =>
        rw [List.set_cons_succ, List.map_cons, List.sum_cons, ih i x here]
        simp [Nat.add_assoc]
  induction entries generalizing lengths with
  | nil => rfl
  | cons entry entries ih =>
    obtain ⟨fresh, distinct⟩ := List.nodup_cons.1 distinct
    obtain ⟨first, empty⟩ := List.forall_mem_cons.1 empty
    have rest : ∀ symbol ∈ entries.map (·.1.2), (lengths.setIfInBounds entry.1.2 entry.2)[symbol]? = some 0 := by
      intro symbol member
      have other : entry.1.2 ≠ symbol := by
        rintro rfl
        exact fresh member
      rw [Array.getElem?_setIfInBounds_ne other]
      exact empty symbol member
    rw [giveLengths_cons, ih distinct rest, Array.toList_setIfInBounds, set _ _ _ (by simpa using first),
      List.map_cons, List.sum_cons, Nat.add_assoc]

/-! ## The choice -/

/-- Lengths for symbols of these frequencies: those that occur have codes up to the limit, the others have none, and if
two or more occur, all codes are taken up. -/
structure Chosen (limit : Nat) (frequencies : Array Nat) (lengths : List Nat) : Prop where
  length_eq : lengths.length = frequencies.size
  le_limit : ∀ l ∈ lengths, l ≤ limit
  used : ∀ symbol, 0 < frequencies.getD symbol 0 → ∃ l, lengths[symbol]? = some l ∧ 0 < l
  unused : ∀ symbol : Nat, frequencies[symbol]? = some 0 → lengths[symbol]? = some 0
  usable : isUsable lengths = true
  complete : ∀ first second, first ≠ second → 0 < frequencies.getD first 0 → 0 < frequencies.getD second 0 →
    isComplete lengths = true

theorem sum_filter_positive (xs : List Nat) (f : Nat → Nat) :
    ((xs.filter (0 < ·)).map f).sum = (xs.map fun x => if 0 < x then f x else 0).sum := by
  induction xs with
  | nil => rfl
  | cons x xs ih =>
    by_cases positive : 0 < x
    · simp [positive, ih]
    · simp [positive, ih]

/-- The symbols that occur, with their frequencies. -/
def occurring (frequencies : Array Nat) : List (Nat × Nat) :=
  (frequencies.toList.zipIdx.filter (0 < ·.1)).mergeSort fun a b => a.1 ≤ b.1

theorem mem_occurring {frequencies : Array Nat} {count symbol : Nat} :
    (count, symbol) ∈ occurring frequencies ↔ frequencies[symbol]? = some count ∧ 0 < count := by
  rw [occurring, (List.mergeSort_perm _ _).mem_iff, List.mem_filter, List.mk_mem_zipIdx_iff_getElem?,
    Array.getElem?_toList, decide_eq_true_eq]

theorem nodup_occurring (frequencies : Array Nat) : ((occurring frequencies).map (·.2)).Nodup := by
  rw [occurring, ((List.mergeSort_perm _ _).map _).nodup_iff]
  refine (List.filter_sublist.map _).nodup ?_
  rw [List.zipIdx_map_snd]
  exact List.nodup_range'

theorem length_occurring_le (frequencies : Array Nat) : (occurring frequencies).length ≤ frequencies.size := by
  rw [occurring, (List.mergeSort_perm _ _).length_eq]
  exact (List.length_filter_le _ _).trans (by simp)

/-- The symbols that occur, with the lengths that are handed out to them. -/
def shares (limit : Nat) (frequencies counts : Array Nat) : List ((Nat × Nat) × Nat) :=
  (occurring frequencies).zip (handedOut limit counts)

/-- The lengths of all symbols when these are handed out. -/
def sharedOut (limit : Nat) (frequencies counts : Array Nat) : List Nat :=
  (giveLengths (shares limit frequencies counts) (Array.replicate frequencies.size 0)).toList

theorem chooseLengths_eq (limit : Nat) (frequencies : Array Nat) : chooseLengths limit frequencies =
    sharedOut limit frequencies (limitedCounts limit (depthsOf ((occurring frequencies).map (·.1)))) := rfl

theorem length_sharedOut (limit : Nat) (frequencies counts : Array Nat) :
    (sharedOut limit frequencies counts).length = frequencies.size := by
  rw [sharedOut, Array.length_toList, size_giveLengths, Array.size_replicate]

namespace Tallied

variable {limit : Nat} {frequencies counts : Array Nat}

theorem length_handedOut {codes : Nat} (h : Tallied limit codes counts) : (handedOut limit counts).length = codes := by
  have sum := sum_handedOut h.size h.none fun _ => 1
  rw [h.total] at sum
  simpa using sum

variable (h : Tallied limit (occurring frequencies).length counts)

include h

theorem symbols_shares : (shares limit frequencies counts).map (·.1.2) = (occurring frequencies).map (·.2) := by
  rw [← List.map_fst_zip (Nat.le_of_eq h.length_handedOut.symm), List.map_map]
  rfl

theorem lengths_shares : (shares limit frequencies counts).map (·.2) = handedOut limit counts :=
  List.map_snd_zip (Nat.le_of_eq h.length_handedOut)

theorem nodup_shares : ((shares limit frequencies counts).map (·.1.2)).Nodup :=
  h.symbols_shares ▸ nodup_occurring frequencies

/-- A symbol that occurs has a length. -/
theorem sharedOut_own {count symbol : Nat} (occurs : (count, symbol) ∈ occurring frequencies) :
    ∃ l, (sharedOut limit frequencies counts)[symbol]? = some l ∧ 0 < l ∧ l ≤ limit := by
  have listed : symbol ∈ (shares limit frequencies counts).map (·.1.2) :=
    h.symbols_shares ▸ List.mem_map_of_mem occurs
  obtain ⟨⟨⟨count', _⟩, l⟩, member, rfl⟩ := List.mem_map.1 listed
  have handed : l ∈ handedOut limit counts := h.lengths_shares ▸ List.mem_map_of_mem member
  have inside := (Array.getElem?_eq_some_iff.1 (mem_occurring.1 occurs).1).1
  refine ⟨l, ?_, mem_handedOut handed⟩
  rw [sharedOut, Array.getElem?_toList]
  exact giveLengths_own _ h.nodup_shares (by simpa using inside) member

/-- A symbol that does not occur has none. -/
theorem sharedOut_other {symbol : Nat} (inside : symbol < frequencies.size)
    (never : ∀ count, (count, symbol) ∉ occurring frequencies) :
    (sharedOut limit frequencies counts)[symbol]? = some 0 := by
  have absent : symbol ∉ (shares limit frequencies counts).map (·.1.2) := by
    rw [h.symbols_shares]
    intro member
    obtain ⟨⟨count, _⟩, occurs, rfl⟩ := List.mem_map.1 member
    exact never count occurs
  rw [sharedOut, Array.getElem?_toList, giveLengths_other _ absent, Array.getElem?_replicate, if_pos inside]

/-- What is added up over all symbols with a length is added up over the counts. -/
theorem sum_sharedOut (f : Nat → Nat) :
    (((sharedOut limit frequencies counts).filter (0 < ·)).map f).sum = weigh f counts.toList := by
  let g (x : Nat) : Nat := if 0 < x then f x else 0
  have empty : ∀ symbol ∈ (shares limit frequencies counts).map (·.1.2),
      (Array.replicate frequencies.size 0)[symbol]? = some 0 := by
    intro symbol member
    rw [h.symbols_shares] at member
    obtain ⟨⟨count, _⟩, occurs, rfl⟩ := List.mem_map.1 member
    have inside := (Array.getElem?_eq_some_iff.1 (mem_occurring.1 occurs).1).1
    rw [Array.getElem?_replicate, if_pos inside]
  have positive : (handedOut limit counts).map g = (handedOut limit counts).map f :=
    List.map_congr_left fun x member => if_pos (mem_handedOut member).1
  rw [sum_filter_positive, sharedOut, sum_giveLengths (f := g) rfl h.nodup_shares empty]
  rw [← sum_handedOut h.size h.none f, ← positive, ← h.lengths_shares, List.map_map]
  simp [Function.comp_def, g]

/-- If two symbols occur or more, all codes are taken up. -/
theorem isComplete_sharedOut (short : limit ≤ maxCodeLength) (several : 2 ≤ (occurring frequencies).length) :
    isComplete (sharedOut limit frequencies counts) = true := by
  have scale : ∀ (i count : Nat), counts.toList[i]? = some count → count ≠ 0 →
      2 ^ (maxCodeLength - i) = 2 ^ (maxCodeLength - limit) * 2 ^ (limit - i) := by
    intro i count found _
    have inside := (List.getElem?_eq_some_iff.1 found).1
    rw [Array.length_toList, h.size] at inside
    rw [← Nat.pow_add]
    congr 1
    omega
  have all := h.sum_sharedOut fun l => 2 ^ (maxCodeLength - l)
  rw [weigh_congr scale, weigh_mul (fun i => 2 ^ (limit - i)), h.space several, ← Nat.pow_add,
    Nat.sub_add_cancel short] at all
  rw [isComplete, beq_iff_eq, codeSpace, foldl_add_eq_sum, Nat.zero_add]
  exact all

end Tallied

/-- Lengths are chosen for the symbols that occur. -/
theorem chooseLengths_spec {limit : Nat} {frequencies : Array Nat} (some : 0 < limit) (short : limit ≤ maxCodeLength)
    (few : frequencies.size ≤ 2 ^ limit) : Chosen limit frequencies (chooseLengths limit frequencies) := by
  have fits : ((occurring frequencies).map (·.1)).length ≤ 2 ^ limit := by
    rw [List.length_map]
    exact (length_occurring_le frequencies).trans few
  have tallied := tallied_limitedCounts some fits
  rw [List.length_map] at tallied
  rw [chooseLengths_eq]
  generalize limitedCounts limit (depthsOf ((occurring frequencies).map (·.1))) = counts at *
  have occurs : ∀ symbol, 0 < frequencies.getD symbol 0 →
      (frequencies.getD symbol 0, symbol) ∈ occurring frequencies := by
    intro symbol positive
    refine mem_occurring.2 ⟨?_, positive⟩
    by_cases inside : symbol < frequencies.size
    · simp [inside]
    · simp [inside] at positive
  constructor
  case length_eq => exact length_sharedOut limit frequencies counts
  case le_limit =>
    intro l member
    obtain ⟨symbol, found⟩ := List.mem_iff_getElem?.1 member
    have inside := (List.getElem?_eq_some_iff.1 found).1
    rw [length_sharedOut] at inside
    by_cases listed : ∃ count, (count, symbol) ∈ occurring frequencies
    · obtain ⟨count, occurs⟩ := listed
      obtain ⟨l', found', -, most⟩ := tallied.sharedOut_own occurs
      rw [found, Option.some.injEq] at found'
      exact found' ▸ most
    · have found' := tallied.sharedOut_other inside (not_exists.1 listed)
      rw [found, Option.some.injEq] at found'
      exact found' ▸ Nat.zero_le _
  case used =>
    intro symbol positive
    obtain ⟨l, found, positive, -⟩ := tallied.sharedOut_own (occurs symbol positive)
    exact ⟨l, found, positive⟩
  case unused =>
    intro symbol zero
    apply tallied.sharedOut_other (Array.getElem?_eq_some_iff.1 zero).1
    intro count occurs
    obtain ⟨found, positive⟩ := mem_occurring.1 occurs
    rw [zero, Option.some.injEq] at found
    omega
  case usable =>
    by_cases several : 2 ≤ (occurring frequencies).length
    · rw [isUsable, tallied.isComplete_sharedOut short several]
      rfl
    · have count := tallied.sum_sharedOut fun _ => 1
      rw [tallied.total] at count
      simp only [List.map_const', List.sum_replicate_nat, Nat.mul_one] at count
      rw [isUsable, Bool.or_eq_true, decide_eq_true_eq]
      omega
  case complete =>
    intro first second other occurs₁ occurs₂
    apply tallied.isComplete_sharedOut short
    have member₁ := occurs first occurs₁
    have member₂ := occurs second occurs₂
    rcases listed : occurring frequencies with _ | ⟨x, _ | ⟨y, rest⟩⟩
    · simp [listed] at member₁
    · rw [listed, List.mem_singleton] at member₁ member₂
      exact absurd (congrArg Prod.snd (member₁.trans member₂.symm)) other
    · simp

end ChainArchive.Codec
