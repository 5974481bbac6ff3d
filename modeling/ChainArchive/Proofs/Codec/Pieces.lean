import ChainArchive.Codec.Inflate
import ChainArchive.Codec.Match
import Mathlib.Algebra.Ring.Nat
import Mathlib.Tactic.Common

/-!
# The pieces of a text

The links lead backwards, so whatever a search proposes is a copy of octets that
come before. Cutting tells the text up to a position, or up to the octet before
it while a copy waits there. Who writes the pieces out one after the other gets
the text back.
-/

namespace ChainArchive.Codec
set_option autoImplicit false

/-! ## What pieces tell -/

/-- At a position the text repeats so many octets from that far back. -/
structure Repeats (text : Array UInt8) (i length distance : Nat) : Prop where
  least : minCopy ≤ length
  most : length ≤ maxCopy
  near : 0 < distance
  far : distance ≤ windowSize
  back : distance ≤ i
  inside : i + length ≤ text.size
  same : ∀ k < length, text.getD (i - distance + k) 0 = text.getD (i + k) 0

/-- From one position to another the pieces say what the text says. -/
inductive Retells (text : Array UInt8) : Nat → List Token → Nat → Prop
  | nil (i : Nat) : Retells text i [] i
  | literal {i j : Nat} {byte : UInt8} {rest : List Token} :
      text[i]? = some byte → Retells text (i + 1) rest j → Retells text i (.literal byte :: rest) j
  | copy {i j length distance : Nat} {rest : List Token} :
      Repeats text i length distance → Retells text (i + length) rest j →
      Retells text i (.copy length distance :: rest) j

namespace Retells

variable {text : Array UInt8} {i j k : Nat} {first second : List Token}

theorem append (h : Retells text i first j) (h' : Retells text j second k) : Retells text i (first ++ second) k := by
  induction h with
  | nil => exact h'
  | literal found _ ih => exact .literal found (ih h')
  | copy repeats _ ih => exact .copy repeats (ih h')

theorem push_literal {byte : UInt8} (h : Retells text i first j) (found : text[j]? = some byte) :
    Retells text i (first ++ [Token.literal byte]) (j + 1) := h.append (.literal found (.nil _))

theorem push_copy {length distance : Nat} (h : Retells text i first j) (repeats : Repeats text j length distance) :
    Retells text i (first ++ [Token.copy length distance]) (j + length) := h.append (.copy repeats (.nil _))

/-- Pieces stand for as many octets as they span. -/
theorem span (h : Retells text i first j) : i + (first.map Token.span).sum = j := by
  induction h with
  | nil => rfl
  | literal _ _ ih => simpa [Token.span, Nat.add_assoc] using ih
  | copy _ _ ih => simpa [Token.span, Nat.add_assoc] using ih

/-- The first of the pieces tell a part, and the others the rest. -/
theorem split (h : Retells text i (first ++ second) k) : ∃ j, Retells text i first j ∧ Retells text j second k := by
  induction first generalizing i with
  | nil => exact ⟨i, .nil i, h⟩
  | cons piece first ih =>
    cases h with
    | literal found rest =>
      obtain ⟨j, told, rest⟩ := ih rest
      exact ⟨j, .literal found told, rest⟩
    | copy repeats rest =>
      obtain ⟨j, told, rest⟩ := ih rest
      exact ⟨j, .copy repeats told, rest⟩

end Retells

/-! ## Writing pieces out -/

/-- Writes one piece behind what was written. -/
def Token.write (out : Array UInt8) : Token → Array UInt8
  | .literal byte => out.push byte
  | .copy length distance => Reading.copyBack distance length out

/-- Copied octets are those that the text repeats. -/
theorem copyBack_extract {text : Array UInt8} {distance : Nat} (near : 0 < distance) (length i : Nat)
    (back : distance ≤ i)
    (inside : i + length ≤ text.size) (same : ∀ k < length, text.getD (i - distance + k) 0 = text.getD (i + k) 0) :
    Reading.copyBack distance length (text.extract 0 i) = text.extract 0 (i + length) := by
  induction length generalizing i with
  | zero => rfl
  | succ length ih =>
    have size : (text.extract 0 i).size = i := by
      rw [Array.size_extract]
      omega
    have octet : (text.extract 0 i).getD (i - distance) 0 = text[i] := by
      have first := same 0 (Nat.succ_pos _)
      rw [Nat.add_zero, Nat.add_zero] at first
      have bound : i - distance < text.size := by omega
      have here : i < text.size := by omega
      rw [Array.getD_eq_getD_getElem?, Array.getElem?_extract_of_lt (by omega)]
      simpa [bound, here] using first
    have next : (text.extract 0 i).push text[i] = text.extract 0 (i + 1) :=
      (Array.extract_succ_right (by omega) (by omega)).symm
    rw [Reading.copyBack, size, if_pos back, octet, next, ih (i + 1) (by omega) (by omega)]
    · rw [Nat.add_right_comm, Nat.add_assoc]
    · intro k less
      have := same (k + 1) (by omega)
      rwa [show i + 1 - distance + k = i - distance + (k + 1) by omega, show i + 1 + k = i + (k + 1) by omega]

/-- Pieces that are written out give the text on. -/
theorem Retells.write {text : Array UInt8} {i j : Nat} {pieces : List Token} (h : Retells text i pieces j) :
    pieces.foldl Token.write (text.extract 0 i) = text.extract 0 j := by
  induction h with
  | nil => rfl
  | @literal i j byte rest found _ ih =>
    obtain ⟨inside, here⟩ := Array.getElem?_eq_some_iff.1 found
    rw [List.foldl_cons, Token.write, ← here, ← Array.extract_succ_right (by omega) inside, ih]
  | copy repeats _ ih =>
    rw [List.foldl_cons, Token.write, copyBack_extract repeats.near _ _ repeats.back repeats.inside repeats.same, ih]

/-! ## Searching -/

namespace Linked

/-- Every link leads to an earlier position, or nowhere. -/
def Backward (t : Linked) : Prop := ∀ i, t.links.getD i 0 = 0 ∨ t.links.getD i 0 < i

theorem backward_ofText (text : Array UInt8) : (ofText text).Backward := by
  let link (state : Array Nat × Array Nat) (i : Nat) : Array Nat × Array Nat :=
    let key := hash (text.getD i 0) (text.getD (i + 1) 0) (text.getD (i + 2) 0)
    (state.1.set! key i, state.2.push (state.1.getD key 0))
  -- up to a position all heads lie before it and all links are set
  have upTo : ∀ n, ((List.range n).foldl link (Array.replicate 32768 0, #[])).2.size = n ∧
      (∀ key, ((List.range n).foldl link (Array.replicate 32768 0, #[])).1.getD key 0 = 0 ∨
        ((List.range n).foldl link (Array.replicate 32768 0, #[])).1.getD key 0 < n) ∧
      ∀ i, ((List.range n).foldl link (Array.replicate 32768 0, #[])).2.getD i 0 = 0 ∨
        ((List.range n).foldl link (Array.replicate 32768 0, #[])).2.getD i 0 < i := by
    intro n
    induction n with
    | zero =>
      refine ⟨rfl, fun key => .inl ?_, fun i => .inl rfl⟩
      simp only [List.range_zero, List.foldl_nil, Array.getD_eq_getD_getElem?, Array.getElem?_replicate]
      split <;> rfl
    | succ n ih =>
      obtain ⟨size, heads, links⟩ := ih
      rw [List.range_succ, List.foldl_append, List.foldl_cons, List.foldl_nil]
      generalize (List.range n).foldl link (Array.replicate 32768 0, #[]) = state at size heads links
      refine ⟨by simp [link, size], fun key => ?_, fun i => ?_⟩
      · simp only [link, Array.set!_eq_setIfInBounds, Array.getD_eq_getD_getElem?, Array.getElem?_setIfInBounds]
        split
        · split
          · exact .inr (Nat.lt_succ_self _)
          · exact .inl rfl
        · exact (heads key).imp (by simp) fun less => by simpa using Nat.lt_succ_of_lt less
      · simp only [link, Array.getD_eq_getD_getElem?, Array.getElem?_push, size]
        split
        · next here =>
          subst here
          simpa using heads _
        · simpa using links i
  exact (upTo (text.size - 2)).2.2

variable {t : Linked} {i limit : Nat}

/-- Octets that were counted agree, and no more were counted than allowed. -/
theorem agree_spec (t : Linked) (i j limit count : Nat) (so_far : ∀ k < count, t.octet (i + k) = t.octet (j + k)) :
    t.agree i j limit count ≤ count + limit ∧
      ∀ k < t.agree i j limit count, t.octet (i + k) = t.octet (j + k) := by
  induction limit generalizing count with
  | zero => exact ⟨Nat.le_refl _, so_far⟩
  | succ limit ih =>
    unfold agree
    split
    · next same =>
      obtain ⟨most, all⟩ := ih (count + 1) (fun k less => by
        rcases Nat.lt_succ_iff_lt_or_eq.1 less with before | rfl
        · exact so_far k before
        · exact beq_iff_eq.1 same)
      exact ⟨by omega, all⟩
    · exact ⟨Nat.le_add_right _ _, so_far⟩

/-- A copy that a search may propose. -/
structure Proposes (t : Linked) (i reach limit length distance : Nat) : Prop where
  most : length ≤ limit
  near : 0 < distance
  far : distance ≤ reach
  back : distance ≤ i
  same : ∀ k < length, t.octet (i - distance + k) = t.octet (i + k)

/-- A search gives back what was best, or a longer copy. -/
theorem search_spec (backward : t.Backward) {reach : Nat} (probes candidate : Nat) (past : candidate ≤ i)
    (best : Nat × Nat) :
    t.search i reach limit probes candidate best = best ∨
      best.1 < (t.search i reach limit probes candidate best).1 ∧
        t.Proposes i reach limit (t.search i reach limit probes candidate best).1
          (t.search i reach limit probes candidate best).2 := by
  induction probes generalizing candidate best with
  | zero => exact .inl rfl
  | succ probes ih =>
    rw [search]
    generalize found : t.links.getD candidate 0 = link
    simp only
    split
    · exact .inl rfl
    · next near =>
      obtain ⟨some, close⟩ := not_or.1 near
      have before : link < candidate := by
        have := backward candidate
        rw [found] at this
        omega
      split
      · exact ih link (by omega) best
      · obtain ⟨most, same⟩ := agree_spec t i link limit 0 (by simp)
        have proposes : t.Proposes i reach limit (t.agree i link limit 0) (i - link) := by
          refine ⟨by omega, by omega, by omega, by omega, fun k less => ?_⟩
          rw [Nat.sub_sub_self (by omega)]
          exact (same k less).symm
        split
        · exact ih link (by omega) best
        · next longer =>
          split
          · exact .inr ⟨by simp only; omega, proposes⟩
          · rcases ih link (by omega) (t.agree i link limit 0, i - link) with kept | ⟨better, proposes'⟩
            · rw [kept]
              exact .inr ⟨by simp only; omega, proposes⟩
            · exact .inr ⟨by simp only at better; omega, proposes'⟩

/-- What may begin at a position is no copy, or one that is longer than the known one and that the text repeats. -/
theorem copyAt_spec (backward : t.Backward) (known : Nat) (least : minCopy ≤ known + 1) (inside : i ≤ t.text.size) :
    ((t.copyAt i known).2 = 0 ∧ (t.copyAt i known).1 ≤ known) ∨
      known < (t.copyAt i known).1 ∧ Repeats t.text i (t.copyAt i known).1 (t.copyAt i known).2 := by
  let limit := min maxCopy (t.text.size - i)
  let reach := min i (windowSize - limit)
  -- whether the search is made or not
  have kept : ∀ copy : Nat × Nat,
      (copy = (known, 0) ∨ known < copy.1 ∧ t.Proposes i reach limit copy.1 copy.2) →
      ((if (copy.1 = minCopy ∧ 8192 ≤ copy.2) ∨ copy.2 = i then (0, 0) else copy).2 = 0 ∧
        (if (copy.1 = minCopy ∧ 8192 ≤ copy.2) ∨ copy.2 = i then (0, 0) else copy).1 ≤ known) ∨
      known < (if (copy.1 = minCopy ∧ 8192 ≤ copy.2) ∨ copy.2 = i then (0, 0) else copy).1 ∧
        Repeats t.text i (if (copy.1 = minCopy ∧ 8192 ≤ copy.2) ∨ copy.2 = i then (0, 0) else copy).1
          (if (copy.1 = minCopy ∧ 8192 ≤ copy.2) ∨ copy.2 = i then (0, 0) else copy).2 := by
    intro copy good
    split
    · exact .inl ⟨rfl, Nat.zero_le _⟩
    · rcases good with rfl | ⟨longer, proposes⟩
      · exact .inl ⟨rfl, Nat.le_refl _⟩
      · have most := proposes.most
        have far := proposes.far
        exact .inr ⟨longer, by omega, by omega, proposes.near, by omega, proposes.back, by omega, proposes.same⟩
  refine kept (if limit ≤ known then (known, 0) else t.search i reach limit maxProbes i (known, 0)) ?_
  split
  · exact .inl rfl
  · exact search_spec backward maxProbes i (Nat.le_refl i) (known, 0)

end Linked

/-! ## Cutting -/

/-- How much is told when cutting goes on at a position: all before it, or all but one octet while a copy waits. -/
def Pending (text : Array UInt8) (i told : Nat) : Option Waiting → Prop
  | none => told = i
  | some w => told + 1 = i ∧ text[told]? = some w.octet ∧ Repeats text told w.length w.distance

theorem cutFrom_spec {t : Linked} (backward : t.Backward) {fuel i told : Nat} {waiting : Option Waiting}
    {tokens : Array Token} (inside : i ≤ t.text.size) (enough : t.text.size < fuel + i)
    (pending : Pending t.text i told waiting) (h : Retells t.text 0 tokens.toList told) :
    Retells t.text 0 (cutFrom t fuel i waiting tokens).toList t.text.size := by
  induction fuel generalizing i told waiting tokens with
  | zero => omega
  | succ fuel ih =>
    have octet : ∀ i < t.text.size, t.text[i]? = some (t.octet i) := by
      intro i less
      simp [Linked.octet, less]
    cases waiting with
    | none =>
      obtain rfl : told = i := pending
      rw [cutFrom]
      split
      · rwa [show t.text.size = told by omega]
      · rcases Linked.copyAt_spec backward (minCopy - 1) (by decide) inside with ⟨none, -⟩ | ⟨-, repeats⟩
        · simp only [none, if_true]
          refine ih (by omega) (by omega) rfl ?_
          rw [Array.toList_push]
          exact h.push_literal (octet told (by omega))
        · have near := repeats.near
          have least := repeats.least
          simp only [minCopy] at least
          simp only [Nat.ne_of_gt near, if_false]
          split
          · refine ih repeats.inside (by omega) rfl ?_
            rw [Array.toList_push]
            exact h.push_copy repeats
          · exact ih (by omega) (by omega) ⟨rfl, octet told (by omega), repeats⟩ h
    | some w =>
      obtain ⟨rfl, last, repeats⟩ := pending
      have least := repeats.least
      have within := repeats.inside
      simp only [minCopy] at least
      have literal := h.push_literal last
      rw [cutFrom, if_neg (by omega)]
      simp only
      split
      · next longer =>
        obtain ⟨-, shorter⟩ | ⟨-, repeats'⟩ :=
          Linked.copyAt_spec backward w.length (by simp only [minCopy]; omega) inside
        · omega
        · have least' := repeats'.least
          simp only [minCopy] at least'
          split
          · refine ih repeats'.inside (by omega) rfl ?_
            rw [Array.toList_push, Array.toList_push]
            exact literal.push_copy repeats'
          · refine ih (by omega) (by omega) ⟨rfl, octet _ (by omega), repeats'⟩ ?_
            rw [Array.toList_push]
            exact literal
      · have next : told + 1 + w.length - 1 = told + w.length := by omega
        rw [next]
        refine ih (by omega) (by omega) rfl ?_
        rw [Array.toList_push]
        exact h.push_copy repeats

/-- The pieces of a text tell it. -/
theorem retells_cut (text : Array UInt8) : Retells text 0 (cut text).toList text.size :=
  cutFrom_spec (Linked.backward_ofText text) (Nat.zero_le _) (Nat.lt_succ_self _) rfl (.nil 0)

end ChainArchive.Codec
