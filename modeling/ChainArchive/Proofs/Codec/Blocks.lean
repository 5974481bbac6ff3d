import ChainArchive.Proofs.Codec.BlockCodes
import ChainArchive.Proofs.Codec.Framing

/-!
# Blocks

Each block of a text retells a stretch of it, whichever way it is written, and the
stretches lie one behind the other. The decoder writes each of them out and goes
on to the next block, or behind the last one to the end of the stream.
-/

namespace ChainArchive.Codec
set_option autoImplicit false

/-! ## One block -/

section Block

variable (out : Array UInt8) (isLast : Bool) {sink : BitSink}

/-- The decoder knows of a block that it is the last one, and of which kind it is. -/
theorem leads_blockHeader (sound : sink.Sound) {kind : Nat} (known : kind < 3) :
    Leads sink ((sink.bit isLast).field 2 kind) (.atBlock out sink.count)
      (({ out, offset := ((sink.bit isLast).field 2 kind).count, isLast := false, goal := .blockHeader,
          progress := .number 3 1 0 } : Reading).collected (isLast.toNat + 2 * kind)) := by
  have flag : isLast.toNat < 2 := by cases isLast <;> decide
  rw [BitSink.bit_eq_field, BitSink.field_field sink 2 kind flag]
  exact Leads.field (r := Reading.inBlock out false sink.count) sound rfl .blockHeader (by decide) (by omega)

/-- The number that begins a block says whether the block is the last one, and its kind. -/
theorem blockHeader_eq (kind : Nat) :
    ((isLast.toNat + 2 * kind) % 2 == 1) = isLast ∧ (isLast.toNat + 2 * kind) / 2 = kind := by
  cases isLast with
  | false => simp
  | true =>
    constructor
    · rw [beq_iff_eq, Bool.toNat_true]
      omega
    · rw [Bool.toNat_true]
      omega

/-- Stored octets are written out as they are. -/
theorem leads_octets (sound : sink.Sound) (octets : Bytes) :
    Leads sink (octets.foldl (fun sink byte => sink.field 8 byte.toNat) sink)
      ((Reading.inBlock out isLast sink.count).storedNext octets.length)
      (.behindBlock (out ++ octets.toArray) (octets.foldl (fun sink byte => sink.field 8 byte.toNat) sink).count
        isLast) := by
  induction octets generalizing sink out with
  | nil =>
    have same : out ++ ([] : Bytes).toArray = out := Array.append_empty
    rw [same]
    exact .refl sound _
  | cons byte octets ih =>
    have small : byte.toNat < 2 ^ 8 := byte.toNat_lt
    have leads := Leads.field (r := Reading.inBlock out isLast sink.count) sound rfl
      (.storedOctet (octets.length + 1)) (by decide) small
    simp only [Reading.collected, Nat.add_sub_cancel, UInt8.ofNat_toNat] at leads
    have rest := ih (out.push byte) leads.sound
    have pushed : out.push byte ++ octets.toArray = out ++ (byte :: octets).toArray := Array.toList_inj.1 (by simp)
    rw [pushed] at rest
    rw [List.foldl_cons]
    exact leads.trans rest

/-- A stored block is read, wherever in an octet it begins. -/
theorem leads_writeStored (sound : sink.Sound) {octets : Bytes} (fits : octets.length < 65536) :
    Leads sink (writeStored octets octets.length (sink.bit isLast)) (.atBlock out sink.count)
      (.behindBlock (out ++ octets.toArray) (writeStored octets octets.length (sink.bit isLast)).count isLast) := by
  have header := leads_blockHeader out isLast sound (show 0 < 3 by decide)
  obtain ⟨last, kind⟩ := blockHeader_eq isLast 0
  unfold writeStored
  dsimp only
  generalize (sink.bit isLast).field 2 0 = begun at *
  -- the padding
  obtain ⟨aligned, full, -⟩ := header.sound.align
  have padded : Leads sink begun.align (.atBlock out sink.count)
      ((Reading.inBlock out isLast 0).number .storedSize 32) := by
    simp only [Reading.collected, last, kind] at header
    by_cases none : begun.count = 0
    · rw [BitSink.align, if_pos none]
      rw [if_pos none, none] at header
      exact header
    · rw [if_neg none] at header
      have less := header.sound.count_lt
      have padding := Leads.field (r := Reading.inBlock out isLast begun.count) header.sound rfl .storedPadding
        (show 0 < 8 - begun.count by omega) (Nat.two_pow_pos _)
      simp only [Reading.collected] at padding
      rw [BitSink.align, if_neg none] at full ⊢
      rw [full] at padding
      exact header.trans padding
  -- the size and its complement
  have low : octets.length < 2 ^ 16 := fits
  have both : octets.length + 2 ^ 16 * (65535 - octets.length) < 2 ^ (16 + 16) := by omega
  have size : (octets.length + 2 ^ 16 * (65535 - octets.length)) % 65536 = octets.length := by omega
  have complement : (octets.length + 2 ^ 16 * (65535 - octets.length)) / 65536 = 65535 - octets.length := by omega
  have sizes := Leads.field (r := Reading.inBlock out isLast 0) aligned full.symm .storedSize (by decide) both
  have whole : octets.length + (65535 - octets.length) = 65535 := by omega
  simp only [Reading.collected, size, complement, whole, if_true] at sizes
  rw [BitSink.field_field _ _ _ low]
  exact (padded.trans sizes).trans (leads_octets out isLast sizes.sound octets)

/-- When every symbol has a code, all of them have paths. -/
theorem spells_of_positive {lengths : List Nat} (usable : isUsable lengths = true)
    (bounds : ∀ l ∈ lengths, 0 < l ∧ l ≤ maxCodeLength) {symbol : Nat} (inside : symbol < lengths.length) :
    Spells (codeTable lengths) (.ofLengths lengths) symbol :=
  spells_of_isUsable usable (fun l member => (bounds l member).2) (List.getElem?_eq_getElem inside)
    (bounds _ (List.getElem_mem inside)).1

/-- The fixed codes are usable and have paths for all symbols. -/
theorem fixedCodes : ∃ codes : BlockCodes,
    (∀ r : Reading, r.beginCodes fixedLengths fixedDistances = r.code (.symbol codes) codes.symbols) ∧
    (∀ symbol < 288, Spells (codeTable fixedLengths) codes.symbols symbol) ∧
    ∀ symbol < 32, Spells (codeTable fixedDistances) codes.distances symbol := by
  have usable : isUsable fixedLengths = true := by decide +kernel
  have usable' : isUsable fixedDistances = true := by decide +kernel
  have bounds : ∀ l ∈ fixedLengths, 0 < l ∧ l ≤ maxCodeLength := by
    intro l member
    simp only [fixedLengths, List.mem_append, List.mem_replicate] at member
    simp only [maxCodeLength]
    omega
  have bounds' : ∀ l ∈ fixedDistances, 0 < l ∧ l ≤ maxCodeLength := by
    intro l member
    rw [(List.mem_replicate.1 member).2]
    decide
  have count : fixedLengths.length = 288 := by
    simp only [fixedLengths, List.length_append, List.length_replicate]
  have count' : fixedDistances.length = 32 := List.length_replicate
  refine ⟨⟨.ofLengths fixedLengths, .ofLengths fixedDistances⟩, fun r => ?_, ?_, ?_⟩
  · rw [Reading.beginCodes, usable, usable']
    rfl
  · intro symbol known
    dsimp only
    exact spells_of_positive usable bounds (Nat.lt_of_lt_of_eq known count.symm)
  · intro symbol known
    dsimp only
    exact spells_of_positive usable' bounds' (Nat.lt_of_lt_of_eq known count'.symm)

/-- A block that is not stored is read, whether its codes are fixed or its own. -/
theorem leads_writeBody (sound : sink.Sound) {block : Block} (inRange : ∀ piece ∈ block.tokens, piece.InRange)
    (size : Nat) :
    Leads sink (writeBody block size (sink.bit isLast)) (.atBlock out sink.count)
      (.behindBlock (block.tokens.foldl Token.write out) (writeBody block size (sink.bit isLast)).count isLast) := by
  unfold writeBody
  split
  · have header := leads_blockHeader out isLast sound (show 1 < 3 by decide)
    obtain ⟨last, kind⟩ := blockHeader_eq isLast 1
    obtain ⟨codes, begins, spells, spells'⟩ := fixedCodes
    simp only [Reading.collected, last, kind, begins] at header
    have spelt : ∀ piece ∈ block.tokens, piece.Spelt (codeTable fixedLengths) (codeTable fixedDistances) codes := by
      intro piece member
      obtain ⟨symbol, distance⟩ := (inRange piece member).symbols_lt
      exact ⟨spells _ (by omega), fun d is => spells' d (Nat.lt_trans (distance d is) (by decide))⟩
    exact header.trans (leads_writeTokens out isLast header.sound inRange spelt (spells _ (by decide)))
  · have header := leads_blockHeader out isLast sound (show 2 < 3 by decide)
    obtain ⟨last, kind⟩ := blockHeader_eq isLast 2
    simp only [Reading.collected, last, kind] at header
    obtain ⟨codes, leads, spelt, end_⟩ := leads_writeCodes out isLast header.sound inRange
    generalize writeCodes block.tokens ((sink.bit isLast).field 2 2) = written at *
    exact (header.trans leads).trans (leads_writeTokens out isLast leads.sound inRange spelt end_)

end Block

/-! ## The blocks of a text -/

/-- The pieces and the octets of a block are those of a stretch of the text. -/
structure Block.Covers (block : Block) (text : Array UInt8) (i j : Nat) : Prop where
  retells : Retells text i block.tokens.toList j
  octets : block.octets = (text.extract i j).toList
  ordered : i ≤ j

/-- A block is read, whichever way it is written. -/
theorem leads_writeBlock {text : Array UInt8} {i j : Nat} {block : Block} (covers : block.Covers text i j)
    (isLast : Bool) {sink : BitSink} (sound : sink.Sound) :
    Leads sink (writeBlock isLast sink block) (.atBlock (text.extract 0 i) sink.count)
      (.behindBlock (text.extract 0 j) (writeBlock isLast sink block).count isLast) := by
  unfold writeBlock
  dsimp only
  split
  · next stored =>
    have fits : block.octets.length < 65536 := Nat.lt_of_le_of_lt stored.2.1 (by decide)
    have leads := leads_writeStored (text.extract 0 i) isLast sound fits
    have whole : text.extract 0 i ++ block.octets.toArray = text.extract 0 j := by
      rw [covers.octets, Array.toArray_toList, Array.extract_append_extract, Nat.min_eq_left (Nat.zero_le i),
        Nat.max_eq_right covers.ordered]
    rw [whole] at leads
    exact leads
  · have inRange : ∀ piece ∈ block.tokens, piece.InRange := by
      intro piece member
      exact covers.retells.inRange piece (Array.mem_toList_iff.2 member)
    have leads := leads_writeBody (text.extract 0 i) isLast sound inRange block.octets.length
    rw [← Array.foldl_toList, covers.retells.write] at leads
    exact leads

/-- The blocks cover stretches that lie one behind the other. -/
inductive Cover (text : Array UInt8) : Nat → List Block → Nat → Prop
  | nil (i : Nat) : Cover text i [] i
  | cons {i j k : Nat} {block : Block} {blocks : List Block} :
      block.Covers text i j → Cover text j blocks k → Cover text i (block :: blocks) k

theorem Cover.push {text : Array UInt8} {i j k : Nat} {blocks : List Block} {block : Block} (h : Cover text i blocks j)
    (last : block.Covers text j k) : Cover text i (blocks ++ [block]) k := by
  induction h with
  | nil => exact .cons last (.nil k)
  | cons first _ ih => exact .cons first (ih last)

/-- The blocks that are complete and the pieces of the current one retell the text up to some position. -/
structure Splitting.Sound (text : Array UInt8) (s : Splitting) (i j : Nat) : Prop where
  blocks : Cover text 0 s.blocks.toList i
  tokens : Retells text i s.tokens.toList j
  size : i + s.size = j
  rest : s.rest = text.toList.drop i

namespace Splitting.Sound

variable {text : Array UInt8} {s : Splitting} {i j k : Nat}

/-- A block that is ended covers the stretch of its pieces. -/
theorem close (h : s.Sound text i j) : s.close.Sound text j j := by
  have covers : Block.Covers ⟨s.tokens, s.rest.take s.size⟩ text i j := by
    refine ⟨h.tokens, ?_, h.size ▸ Nat.le_add_right _ _⟩
    rw [h.rest, ← h.size, Array.toList_extract, List.extract_eq_take_drop, Nat.add_sub_cancel_left]
  refine ⟨?_, .nil j, Nat.add_zero j, ?_⟩
  · simp only [Splitting.close, Array.toList_push]
    exact h.blocks.push covers
  · simp only [Splitting.close]
    rw [h.rest, List.drop_drop, h.size]

/-- One more piece. -/
theorem add (h : s.Sound text i j) {piece : Token} (next : Retells text j [piece] k) :
    ∃ i', (s.add piece).Sound text i' k := by
  have span := next.span
  have more : ∀ copies,
      Sound text { s with tokens := s.tokens.push piece, copies, size := s.size + piece.span } i k := by
    intro copies
    refine ⟨h.blocks, ?_, ?_, h.rest⟩
    · simp only [Array.toList_push]
      exact h.tokens.append next
    · have := h.size
      simp only [List.map_cons, List.map_nil, List.sum_cons, List.sum_nil, Nat.add_zero] at span
      simp only
      omega
  -- whatever counts as a copy, the block is ended or not
  have either : ∀ (copies : Nat) (full : Bool), ∃ i', (if full = true then
      ({ s with tokens := s.tokens.push piece, copies, size := s.size + piece.span } : Splitting).close
      else { s with tokens := s.tokens.push piece, copies, size := s.size + piece.span }).Sound text i' k := by
    intro copies full
    cases full with
    | true => exact ⟨k, (more copies).close⟩
    | false => exact ⟨i, more copies⟩
  cases piece with
  | literal byte => exact either _ _
  | copy length distance => exact either _ _

/-- All pieces that are left. -/
theorem foldl (h : s.Sound text i j) {pieces : List Token} (rest : Retells text j pieces k) :
    ∃ i', (pieces.foldl Splitting.add s).Sound text i' k := by
  induction pieces generalizing s i j with
  | nil =>
    cases rest
    exact ⟨i, h⟩
  | cons piece pieces ih =>
    have parted : Retells text j ([piece] ++ pieces) k := rest
    obtain ⟨m, first, rest⟩ := parted.split
    obtain ⟨i', sound⟩ := h.add first
    exact ih sound rest

end Splitting.Sound

/-- The blocks of a text cover it, and there is at least one. -/
theorem cover_blocksOf (text : Bytes) :
    Cover text.toArray 0 (blocksOf text).toList text.length ∧ (blocksOf text).toList ≠ [] := by
  have start : Splitting.Sound text.toArray { rest := text } 0 0 := ⟨.nil 0, .nil 0, rfl, rfl⟩
  obtain ⟨i, sound⟩ := start.foldl (retells_cut text.toArray)
  constructor
  · rw [blocksOf, ← Array.foldl_toList]
    exact sound.close.blocks
  · simp [blocksOf, Splitting.close]

/-- All blocks are read, up to the end of the last one. -/
theorem leads_blocks {text : Array UInt8} {blocks : List Block} {i k size n : Nat} (cover : Cover text i blocks k)
    (some : blocks ≠ []) (all : n + blocks.length = size) {sink : BitSink} (sound : sink.Sound) :
    let written := (blocks.foldl (fun (sink, i) block => (writeBlock (i + 1 == size) sink block, i + 1)) (sink, n)).1
    Leads sink written (.atBlock (text.extract 0 i) sink.count)
      (.behindBlock (text.extract 0 k) written.count true) := by
  induction cover generalizing sink n with
  | nil => exact absurd rfl some
  | @cons i j k block blocks covers cover ih =>
    have leads := leads_writeBlock covers (n + 1 == size) sound
    rw [List.length_cons] at all
    by_cases last : blocks = []
    · subst last
      cases cover
      have flag : (n + 1 == size) = true := beq_iff_eq.2 all
      simp only [List.foldl_cons, List.foldl_nil]
      rw [flag] at leads ⊢
      exact leads
    · have more := List.length_pos_iff.2 last
      have flag : (n + 1 == size) = false := beq_false_of_ne (by omega)
      have rest := ih (n := n + 1) last (by omega) leads.sound
      rw [flag] at leads
      simp only [List.foldl_cons]
      rw [flag] at rest ⊢
      exact leads.trans rest

end ChainArchive.Codec
