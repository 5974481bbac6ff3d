import ChainArchive.Proofs.Codec.Orders

/-!
# The codes of a block

A block's codes have a path for whatever occurs in it, and the decoder reads their
lengths and builds the same codes from them.
-/

namespace ChainArchive.Codec
set_option autoImplicit false

/-! ## The length code -/

/-- Values that were written in an order, zeros at the end left out, are found again. -/
theorem lookup_zip {order planned : List Nat} {f : Nat → Nat} {count : Nat}
    (h : order.map f = planned ++ List.replicate count 0) {symbol : Nat} (member : symbol ∈ order) :
    ((order.zip planned).lookup symbol).getD 0 = f symbol := by
  induction order generalizing planned with
  | nil => cases member
  | cons first order ih =>
    cases planned with
    | nil =>
      have zero : f symbol ∈ List.replicate count 0 := by
        rw [← List.nil_append (List.replicate count 0), ← h]
        exact List.mem_map_of_mem member
      rw [(List.mem_replicate.1 zero).2]
      rfl
    | cons value planned =>
      simp only [List.map_cons, List.cons_append, List.cons.injEq] at h
      rw [List.zip_cons_cons, List.lookup_cons]
      by_cases here : symbol = first
      · rw [here, h.1, beq_self_eq_true]
        rfl
      · have other : (symbol == first) = false := beq_false_of_ne here
        rw [other]
        exact ih h.2 ((List.mem_cons.1 member).resolve_left here)

/-- Lengths that are written in the order of the length code are read as they were. -/
theorem planned_lengths {lengths : List Nat} (all : lengths.length = 19) :
    ((List.range 19).map fun symbol => ((lengthCodeOrder.zip (plannedLengths lengths)).lookup symbol).getD 0) =
      lengths := by
  obtain ⟨count, trimmed⟩ := exists_trimZeros_append 4 (lengthCodeOrder.map fun symbol => lengths.getD symbol 0)
  have listed : ∀ symbol < 19, symbol ∈ lengthCodeOrder := by decide
  apply List.ext_getElem?
  intro symbol
  rw [List.getElem?_map]
  by_cases inside : symbol < 19
  · rw [List.getElem?_range inside, Option.map_some, plannedLengths, lookup_zip trimmed.symm (listed symbol inside)]
    have : symbol < lengths.length := by omega
    simp [this]
  · rw [List.getElem?_eq_none (by simpa using inside), List.getElem?_eq_none (by omega)]
    rfl

/-- A list of one value is one run. -/
theorem runs_replicate (x count : Nat) : runs (List.replicate (count + 1) x) = [(x, count + 1)] := by
  have more : ∀ count n, (List.replicate count x).foldl addMember [(x, n)] = [(x, n + count)] := by
    intro count
    induction count with
    | zero => exact fun _ => rfl
    | succ count ih =>
      intro n
      have one : addMember [(x, n)] x = [(x, n + 1)] := by simp [addMember]
      rw [List.replicate_succ, List.foldl_cons, one, ih, Nat.add_assoc, Nat.add_comm 1]
  have all := more count 1
  rw [Nat.add_comm] at all
  rw [runs_eq, List.replicate_succ, List.foldl_cons]
  exact congrArg List.reverse all

/-- The orders of a run have its length as symbol, or one of those for zeros. -/
theorem exists_mem_packRun {length count : Nat} (some : 0 < count) : ∃ order ∈ packRun length count,
    (0 < length → order.symbol = length) ∧ (length = 0 → order.symbol = 0 ∨ 16 < order.symbol) := by
  unfold packRun
  split
  · next zero =>
    subst zero
    have special : ∀ order : LengthOrder, order.symbol = 0 ∨ 16 < order.symbol →
        (0 < 0 → order.symbol = 0) ∧ (0 = 0 → order.symbol = 0 ∨ 16 < order.symbol) := by
      intro order is
      exact ⟨fun less => absurd less (Nat.lt_irrefl 0), fun _ => is⟩
    by_cases long : 138 ≤ count
    · refine ⟨⟨18, 7, 127⟩, List.mem_append_left _ ?_, special ⟨18, 7, 127⟩ (by simp)⟩
      exact List.mem_replicate.2 ⟨by omega, rfl⟩
    · have left : count % 138 = count := by omega
      rw [left]
      dsimp only
      split
      · refine ⟨⟨0, 0, 0⟩, List.mem_append_right _ ?_, special ⟨0, 0, 0⟩ (by simp)⟩
        exact List.mem_replicate.2 ⟨by omega, rfl⟩
      · split
        · refine ⟨⟨17, 3, count - 3⟩, List.mem_append_right _ ?_, special ⟨17, 3, count - 3⟩ (by simp)⟩
          exact List.mem_cons_self
        · refine ⟨⟨18, 7, count - 11⟩, List.mem_append_right _ ?_, special ⟨18, 7, count - 11⟩ (by simp)⟩
          exact List.mem_cons_self
  · next nonzero => exact ⟨_, List.mem_cons_self, fun _ => rfl, fun zero => absurd zero nonzero⟩

/-- Many lengths, not all of them zero, are never written with orders of one symbol. -/
theorem two_orders {lengths : List Nat} (short : ∀ l ∈ lengths, l < 16) (many : 7 < lengths.length)
    (some : ∃ l ∈ lengths, 0 < l) :
    ∃ a ∈ packLengths lengths, ∃ b ∈ packLengths lengths, a.symbol ≠ b.symbol := by
  obtain ⟨told, each⟩ := runs_spec lengths
  -- every length is that of a run, and has an order
  have ordered : ∀ l ∈ lengths, ∃ order ∈ packLengths lengths,
      (0 < l → order.symbol = l) ∧ (l = 0 → order.symbol = 0 ∨ 16 < order.symbol) := by
    intro l member
    rw [← told] at member
    obtain ⟨⟨_, count⟩, run, here⟩ := List.mem_flatMap.1 member
    obtain ⟨-, rfl⟩ := List.mem_replicate.1 here
    obtain ⟨order, inside, is⟩ := exists_mem_packRun (each _ run)
    exact ⟨order, List.mem_flatMap.2 ⟨_, run, inside⟩, is⟩
  obtain ⟨l, member, positive⟩ := some
  obtain ⟨a, first, is, -⟩ := ordered l member
  have less := short l member
  by_cases other : ∃ x ∈ lengths, x ≠ l
  · obtain ⟨x, member', different⟩ := other
    obtain ⟨b, second, is', is''⟩ := ordered x member'
    refine ⟨a, first, b, second, ?_⟩
    rw [is positive]
    rcases Nat.eq_zero_or_pos x with rfl | positive'
    · have := is'' rfl
      omega
    · rw [is' positive']
      exact different.symm
  · -- one run, so long that its length is repeated
    have same : ∀ x ∈ lengths, x = l := fun x inside => by_contra fun different => other ⟨x, inside, different⟩
    obtain ⟨count, length⟩ : ∃ count, lengths.length = count + 1 := ⟨lengths.length - 1, by omega⟩
    have one : runs lengths = [(l, count + 1)] := by
      rw [List.eq_replicate_iff.2 ⟨length, same⟩, runs_replicate]
    refine ⟨⟨l, 0, 0⟩, ?_, ⟨16, 2, 3⟩, ?_, by simp only; omega⟩
    · rw [packLengths, one, List.flatMap_singleton]
      simp only [packRun_positive positive]
      exact List.mem_cons_self
    · rw [packLengths, one, List.flatMap_singleton]
      simp only [packRun_positive positive]
      exact List.mem_cons_of_mem _ (List.mem_append_left _ (List.mem_replicate.2 ⟨by omega, rfl⟩))

/-! ## Reading lengths -/

variable (out : Array UInt8) (isLast : Bool) {sink : BitSink}

/-- The lengths of the length code are read one after the other. -/
theorem leads_planned (plan : LengthPlan) (sound : sink.Sound) {todo : List Nat} (read : List Nat) (some : todo ≠ [])
    (short : ∀ l ∈ todo, l < 8) : Leads sink (todo.foldl (fun sink length => sink.field 3 length) sink)
      ((Reading.inBlock out isLast sink.count).number (.planLength plan todo.length read) 3)
      ((Reading.inBlock out isLast (todo.foldl (fun sink length => sink.field 3 length) sink).count).beginLengths plan
        (todo.reverse ++ read)) := by
  induction todo generalizing sink read with
  | nil => exact absurd rfl some
  | cons l todo ih =>
    obtain ⟨first, short⟩ := List.forall_mem_cons.1 short
    have leads := Leads.field (r := Reading.inBlock out isLast sink.count) sound rfl
      (.planLength plan (l :: todo).length read) (by decide) (show l < 2 ^ 3 from first)
    simp only [Reading.collected] at leads
    cases todo with
    | nil => exact leads
    | cons l' todo =>
      rw [if_neg (by simp)] at leads
      have rest := ih leads.sound (l :: read) (by simp) short
      rw [List.reverse_cons, List.append_assoc]
      exact leads.trans rest

/-! ## Lengths for what occurs -/

/-- What occurs has a path in the code. -/
theorem Chosen.spells {limit : Nat} {frequencies : Array Nat} {lengths : List Nat}
    (h : Chosen limit frequencies lengths) (short : limit ≤ maxCodeLength) {symbol : Nat}
    (occurs : 0 < frequencies.getD symbol 0) : Spells (codeTable lengths) (.ofLengths lengths) symbol := by
  obtain ⟨length, found, positive⟩ := h.used symbol occurs
  exact spells_of_isUsable h.usable (fun l member => (h.le_limit l member).trans short) found positive

/-- The lengths of the length code can be written in fields of three bits and take up all codes, and every order has a
path. -/
structure Orderly (orders : List LengthOrder) (lengths : List Nat) : Prop where
  length_eq : lengths.length = 19
  small : ∀ l ∈ lengths, l < 8
  complete : isComplete lengths = true
  spells : ∀ order ∈ orders, Spells (codeTable lengths) (.ofLengths lengths) order.symbol

theorem orderly_packLengths {lengths : List Nat} (short : ∀ l ∈ lengths, l < 16) (many : 7 < lengths.length)
    (some : ∃ l ∈ lengths, 0 < l) : Orderly (packLengths lengths) (orderLengths (packLengths lengths)) := by
  let add (counts : Array Nat) (order : LengthOrder) : Array Nat := counts.modify order.symbol (· + 1)
  have total : ((packLengths lengths).foldl add (Array.replicate 19 0)).size = 19 :=
    (size_counted _ (packLengths lengths) _).trans Array.size_replicate
  have chosen : Chosen 7 _ (orderLengths (packLengths lengths)) :=
    chooseLengths_spec (by decide) (by decide) (by rw [total]; decide)
  have occurs : ∀ order ∈ packLengths lengths,
      0 < ((packLengths lengths).foldl add (Array.replicate 19 0)).getD order.symbol 0 := by
    intro order member
    apply counted_positive _ member _
    rw [Array.size_replicate]
    exact (Replays.packLengths short).symbol_lt order member
  obtain ⟨a, first, b, second, other⟩ := two_orders short many some
  refine ⟨chosen.length_eq.trans total, ?_, ?_, ?_⟩
  · exact fun l member => Nat.lt_succ_of_le (chosen.le_limit l member)
  · exact chosen.complete _ _ other (occurs a first) (occurs b second)
  · exact fun order member => chosen.spells (by decide) (occurs order member)

theorem length_plannedLengths (lengths : List Nat) :
    4 ≤ (plannedLengths lengths).length ∧ (plannedLengths lengths).length ≤ 19 :=
  length_trimZeros (by rw [List.length_map]; decide)

namespace Orderly

variable {orders : List LengthOrder} {lengths : List Nat}

theorem planned_lt (h : Orderly orders lengths) : ∀ l ∈ plannedLengths lengths, l < 8 := by
  intro l member
  obtain ⟨symbol, -, rfl⟩ := List.mem_map.1 (List.mem_of_mem_take member)
  rw [List.getD_eq_getElem?_getD]
  cases found : lengths[symbol]? with
  | none => decide
  | some l => exact h.small l (List.mem_of_getElem? found)

/-- The decoder builds the length code from what was written. -/
theorem beginLengths_eq (h : Orderly orders lengths) (offset : Nat) (plan : LengthPlan) :
    (Reading.inBlock out isLast offset).beginLengths plan ((plannedLengths lengths).reverse ++ []) =
      .atLengths out offset isLast plan (.ofLengths lengths) := by
  have read := planned_lengths h.length_eq
  simp only [Reading.beginLengths, List.append_nil, List.reverse_reverse, read, h.complete, if_true]
  rfl

end Orderly

/-- How many lengths of each kind there are is read as one number. -/
theorem leads_sizes (sound : sink.Sound) {symbols distances planned : Nat} (least : 257 ≤ symbols)
    (most : symbols ≤ 286) (least' : 1 ≤ distances) (most' : distances ≤ 30) (enough : 4 ≤ planned)
    (few : planned ≤ 19) :
    let written := ((sink.field 5 (symbols - 257)).field 5 (distances - 1)).field 4 (planned - 4)
    Leads sink written ((Reading.inBlock out isLast sink.count).number .planSizes 14)
      ((Reading.inBlock out isLast written.count).number (.planLength ⟨symbols, distances, []⟩ planned []) 3) := by
  intro written
  generalize sizes : (symbols - 257) + 2 ^ 5 * ((distances - 1) + 2 ^ 5 * (planned - 4)) = value
  have fits : value < 2 ^ 14 := by omega
  have fields : written = sink.field 14 value := by
    simp only [written]
    rw [BitSink.field_field _ _ _ (by omega), BitSink.field_field _ _ _ (by omega), sizes]
  rw [fields]
  have leads := Leads.field (r := Reading.inBlock out isLast sink.count) sound rfl .planSizes (by decide) fits
  have first : value % 32 + 257 = symbols := by omega
  have second : value / 32 % 32 + 1 = distances := by omega
  have third : value / 1024 + 4 = planned := by omega
  simp only [Reading.collected, first, second, third, most, most', decide_true, Bool.and_self, if_true] at leads
  exact leads

/-- The lengths of both codes are read. -/
theorem leads_writeLengths (sound : sink.Sound) {symbols distances : List Nat} (least : 257 ≤ symbols.length)
    (most : symbols.length ≤ 286) (least' : 1 ≤ distances.length) (most' : distances.length ≤ 30)
    (short : ∀ l ∈ symbols ++ distances, l < 16) (some : ∃ l ∈ symbols ++ distances, 0 < l) :
    Leads sink (writeLengths symbols distances sink) ((Reading.inBlock out isLast sink.count).number .planSizes 14)
      ((Reading.inBlock out isLast (writeLengths symbols distances sink).count).beginCodes symbols distances) := by
  have many : 7 < (symbols ++ distances).length := by
    rw [List.length_append]
    omega
  have orderly := orderly_packLengths short many some
  have replays := Replays.packLengths short
  unfold writeLengths
  dsimp only
  generalize packLengths (symbols ++ distances) = orders at *
  generalize orderLengths orders = lengths at *
  let plan : LengthPlan := ⟨symbols.length, distances.length, []⟩
  obtain ⟨enough, few⟩ := length_plannedLengths lengths
  have begun := leads_sizes out isLast sound least most least' most' enough few
  have planned := leads_planned out isLast plan begun.sound [] (List.ne_nil_of_length_pos (by omega)) orderly.planned_lt
  rw [orderly.beginLengths_eq] at planned
  have total : (symbols ++ distances).reverse.length = plan.symbols + plan.distances := by
    rw [List.length_reverse, List.length_append]
  have ordered := leads_orders out isLast planned.sound replays total orderly.spells
  -- behind the last order, the lengths are divided between the codes
  have ends : ∀ offset, Decoder.atLengths out offset isLast { plan with read := (symbols ++ distances).reverse }
      (.ofLengths lengths) = (Reading.inBlock out isLast offset).beginCodes symbols distances := by
    intro offset
    simp only [Decoder.atLengths, Reading.nextLength, total, Nat.lt_irrefl, if_false, if_true, List.reverse_reverse]
    rw [show plan.symbols = symbols.length from rfl, List.take_left', List.drop_left']
    all_goals rfl
  rw [ends] at ordered
  exact (begun.trans planned).trans ordered

/-! ## Lengths for the symbols of a block -/

theorem isUsable_append_zeros (lengths : List Nat) (count : Nat) :
    isUsable (lengths ++ List.replicate count 0) = isUsable lengths := by
  have none : (List.replicate count 0).filter (0 < ·) = [] := by simp
  simp only [isUsable, isComplete, codeSpace, List.filter_append, none, List.append_nil]

/-- Lengths can be written without those at the end that are zero. -/
structure Trimmed (least most : Nat) (lengths written : List Nat) : Prop where
  least_le : least ≤ written.length
  le_most : written.length ≤ most
  rest : ∃ count, written ++ List.replicate count 0 = lengths

namespace Trimmed

variable {least most : Nat} {lengths written : List Nat}

theorem isUsable_eq (h : Trimmed least most lengths written) : isUsable written = isUsable lengths := by
  obtain ⟨count, rfl⟩ := h.rest
  exact (isUsable_append_zeros written count).symm

theorem ofLengths_eq (h : Trimmed least most lengths written) :
    PrefixCode.ofLengths written = PrefixCode.ofLengths lengths := by
  obtain ⟨count, rfl⟩ := h.rest
  rw [PrefixCode.ofLengths, PrefixCode.ofLengths, assignCodes_append_zeros]

theorem mem_of_positive (h : Trimmed least most lengths written) {l : Nat} (member : l ∈ lengths) (positive : 0 < l) :
    l ∈ written := by
  obtain ⟨count, rfl⟩ := h.rest
  rcases List.mem_append.1 member with member | zero
  · exact member
  · exact absurd (List.mem_replicate.1 zero).2 (Nat.ne_of_gt positive)

theorem mem (h : Trimmed least most lengths written) {l : Nat} (member : l ∈ written) : l ∈ lengths := by
  obtain ⟨count, rfl⟩ := h.rest
  exact List.mem_append_left _ member

end Trimmed

/-- Symbols that do not occur at the end need not be written. -/
theorem Chosen.trimmed {limit least most : Nat} {frequencies : Array Nat} {lengths : List Nat}
    (h : Chosen limit frequencies lengths) (enough : least ≤ most) (inside : most ≤ frequencies.size)
    (beyond : ∀ symbol : Nat, most ≤ symbol → symbol < frequencies.size → frequencies[symbol]? = some 0) :
    Trimmed least most lengths (trimZeros least (lengths.take most)) := by
  have taken : (lengths.take most).length = most := by
    rw [List.length_take, h.length_eq]
    omega
  obtain ⟨count, trimmed⟩ := exists_trimZeros_append least (lengths.take most)
  obtain ⟨least_le, le_most⟩ := length_trimZeros (taken.symm ▸ enough)
  refine ⟨least_le, le_most.trans (Nat.le_of_eq taken), count + (lengths.length - most), ?_⟩
  have zeros : lengths.drop most = List.replicate (lengths.length - most) 0 := by
    apply List.ext_getElem?
    intro i
    rw [List.getElem?_drop, List.getElem?_replicate]
    split
    · next less => exact h.unused _ (beyond _ (by omega) (by rw [← h.length_eq]; omega))
    · next more => exact List.getElem?_eq_none (by omega)
  rw [← List.replicate_append_replicate, ← List.append_assoc, trimmed, ← zeros]
  exact List.take_append_drop most lengths

/-! ## The symbols of a block -/

theorem countSymbols_eq (tokens : Array Token) : countSymbols tokens =
    (tokens.toList.foldl (fun counts piece => counts.modify piece.symbols.1 (· + 1))
      ((Array.replicate 288 0).set! endOfBlock 1),
    (tokens.toList.filterMap (·.symbols.2)).foldl (fun counts d => counts.modify d (· + 1))
      (Array.replicate 32 0)) := by
  unfold countSymbols
  dsimp only
  generalize (Array.replicate 288 0).set! endOfBlock 1 = symbols
  generalize Array.replicate 32 0 = distances
  obtain ⟨tokens⟩ := tokens
  rw [List.foldl_toArray]
  induction tokens generalizing symbols distances with
  | nil => rfl
  | cons piece tokens ih =>
    rw [List.foldl_cons, ih, List.foldl_cons]
    cases piece with
    | literal byte => rfl
    | copy length distance => rfl

/-- The symbols of a piece are ones of the format. -/
theorem Token.InRange.symbols_lt {piece : Token} (h : piece.InRange) :
    piece.symbols.1 < 286 ∧ ∀ d, piece.symbols.2 = some d → d < 30 := by
  cases piece with
  | literal byte =>
    refine ⟨byte.toNat_lt.trans (by decide), fun d none => ?_⟩
    cases none
  | copy length distance =>
    obtain ⟨⟨least, most⟩, near, far⟩ := h
    have first := (Array.getElem?_eq_some_iff.1 (encodes_length least most).entry).1
    have second := (Array.getElem?_eq_some_iff.1 (encodes_distance near far).entry).1
    have sizes : lengthTable.size = 29 ∧ distanceTable.size = 30 := by decide
    constructor
    · simp only [Token.symbols, firstLengthSymbol]
      omega
    · intro d is
      simp only [Token.symbols, Option.some.injEq] at is
      omega

/-- The symbols of these pieces and the end of the block have been counted, and no others. -/
structure Counted (tokens : Array Token) (symbols distances : Array Nat) : Prop where
  size_symbols : symbols.size = 288
  size_distances : distances.size = 32
  endOfBlock : 0 < symbols.getD endOfBlock 0
  symbol : ∀ piece ∈ tokens, 0 < symbols.getD piece.symbols.1 0
  distance : ∀ piece ∈ tokens, ∀ d, piece.symbols.2 = some d → 0 < distances.getD d 0
  symbols_beyond : ∀ symbol : Nat, 286 ≤ symbol → symbol < 288 → symbols[symbol]? = some 0
  distances_beyond : ∀ symbol : Nat, 30 ≤ symbol → symbol < 32 → distances[symbol]? = some 0

theorem counted_countSymbols {tokens : Array Token} (inRange : ∀ piece ∈ tokens, piece.InRange) :
    Counted tokens (countSymbols tokens).1 (countSymbols tokens).2 := by
  rw [countSymbols_eq]
  have size : ((Array.replicate 288 0).set! Codec.endOfBlock 1).size = 288 := by
    rw [Array.set!_eq_setIfInBounds, Array.size_setIfInBounds, Array.size_replicate]
  refine ⟨?_, ?_, ?_, ?_, ?_, ?_, ?_⟩
  · rw [size_counted, size]
  · rw [size_counted (fun d => d), Array.size_replicate]
  · refine Nat.lt_of_lt_of_le ?_ (le_counted _ _ _ _)
    simp [Codec.endOfBlock]
  · intro piece member
    have := (inRange piece member).symbols_lt.1
    exact counted_positive _ (Array.mem_toList_iff.2 member) _ (by omega)
  · intro piece member d is
    have := (inRange piece member).symbols_lt.2 d is
    refine counted_positive (fun d => d) ?_ _ (by rw [Array.size_replicate]; omega)
    exact List.mem_filterMap.2 ⟨piece, Array.mem_toList_iff.2 member, is⟩
  · intro symbol least less
    rw [counted_other _ fun piece member => ?_]
    · have other : Codec.endOfBlock ≠ symbol := by
        simp only [Codec.endOfBlock]
        omega
      rw [Array.set!_eq_setIfInBounds, Array.getElem?_setIfInBounds_ne other, Array.getElem?_replicate, if_pos less]
    · have := (inRange piece (Array.mem_toList_iff.1 member)).symbols_lt.1
      omega
  · intro symbol least less
    rw [counted_other (fun d => d) fun d member => ?_]
    · rw [Array.getElem?_replicate, if_pos less]
    · obtain ⟨piece, member, is⟩ := List.mem_filterMap.1 member
      have := (inRange piece (Array.mem_toList_iff.1 member)).symbols_lt.2 d is
      omega

/-- The codes of a block are read, and they have paths for all of its pieces. -/
theorem leads_writeCodes (sound : sink.Sound) {tokens : Array Token} (inRange : ∀ piece ∈ tokens, piece.InRange) :
    ∃ codes, Leads sink (writeCodes tokens sink).1 ((Reading.inBlock out isLast sink.count).number .planSizes 14)
        (.atPiece out (writeCodes tokens sink).1.count isLast codes) ∧
      (∀ piece ∈ tokens, piece.Spelt (writeCodes tokens sink).2.1 (writeCodes tokens sink).2.2 codes) ∧
      Spells (writeCodes tokens sink).2.1 codes.symbols endOfBlock := by
  have counted := counted_countSymbols inRange
  unfold writeCodes
  generalize countSymbols tokens = counts at *
  obtain ⟨symbolCounts, distanceCounts⟩ := counts
  dsimp only at *
  -- the lengths that are chosen, and those of them that are written
  have chosen : Chosen maxCodeLength symbolCounts (chooseLengths maxCodeLength symbolCounts) :=
    chooseLengths_spec (by decide) (Nat.le_refl _) (by rw [counted.size_symbols]; decide)
  have chosen' : Chosen maxCodeLength distanceCounts (chooseLengths maxCodeLength distanceCounts) :=
    chooseLengths_spec (by decide) (Nat.le_refl _) (by rw [counted.size_distances]; decide)
  have trimmed := chosen.trimmed (show 257 ≤ 286 by decide) (by rw [counted.size_symbols]; decide)
    (counted.size_symbols.symm ▸ counted.symbols_beyond)
  have trimmed' := chosen'.trimmed (show 1 ≤ 30 by decide) (by rw [counted.size_distances]; decide)
    (counted.size_distances.symm ▸ counted.distances_beyond)
  generalize chooseLengths maxCodeLength symbolCounts = lengths at *
  generalize chooseLengths maxCodeLength distanceCounts = lengths' at *
  generalize trimZeros 257 (lengths.take 286) = symbols at *
  generalize trimZeros 1 (lengths'.take 30) = distances at *
  have short : ∀ l ∈ symbols ++ distances, l < 16 := by
    intro l member
    apply Nat.lt_succ_of_le
    rcases List.mem_append.1 member with member | member
    · exact chosen.le_limit l (trimmed.mem member)
    · exact chosen'.le_limit l (trimmed'.mem member)
  have some : ∃ l ∈ symbols ++ distances, 0 < l := by
    obtain ⟨l, found, positive⟩ := chosen.used _ counted.endOfBlock
    have member := trimmed.mem_of_positive (List.mem_of_getElem? found) positive
    exact ⟨l, List.mem_append_left _ member, positive⟩
  refine ⟨⟨.ofLengths symbols, .ofLengths distances⟩, ?_, ?_, ?_⟩
  · have leads := leads_writeLengths out isLast sound trimmed.least_le trimmed.le_most trimmed'.least_le
      trimmed'.le_most short some
    simp only [Reading.beginCodes, trimmed.isUsable_eq, trimmed'.isUsable_eq, chosen.usable, chosen'.usable,
      Bool.and_self, if_true] at leads
    exact leads
  · intro piece member
    rw [trimmed.ofLengths_eq, trimmed'.ofLengths_eq]
    refine ⟨?_, fun d is => ?_⟩
    · exact chosen.spells (Nat.le_refl _) (counted.symbol piece member)
    · exact chosen'.spells (Nat.le_refl _) (counted.distance piece member d is)
  · rw [trimmed.ofLengths_eq]
    exact chosen.spells (Nat.le_refl _) counted.endOfBlock

end ChainArchive.Codec
