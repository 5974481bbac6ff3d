import ChainArchive.Proofs.Json.Grammar
import ChainArchive.Proofs.Json.Strings
import Mathlib.Data.List.TakeWhile
import Mathlib.Tactic.Common

/-!
# Literals are read by the grammar

The reader of strings takes one octet or one escape at a time, and keeps a lead
surrogate back until it knows whether a trail follows. So what it takes is a
literal, with the escape of the surrogate that waits put back in front; and of a
literal it reads the octets.
-/

namespace ChainArchive.Json
set_option autoImplicit false

variable {kind : StringKind} {read octets text rest : Bytes} {lead : Option Nat}

/-! ## Results -/

theorem bind_eq_ok {α β : Type} {result : Except Fault α} {next : α → Except Fault β} {value : β} :
    result >>= next = .ok value ↔ ∃ a, result = .ok a ∧ next a = .ok value := by
  cases result with
  | error fault => simp [bind, Except.bind]
  | ok a => simp [bind, Except.bind]

theorem map_eq_ok {α β : Type} {result : Except Fault α} {finish : α → β} {value : β} :
    result.map finish = .ok value ↔ ∃ a, result = .ok a ∧ finish a = value := by
  cases result with
  | error fault => simp [Except.map]
  | ok a => simp [Except.map]

/-! ## Codes -/

theorem codeOctets_toNat (c : Char) : codeOctets c.toNat = String.utf8EncodeChar c := by
  have small : c.val.toNat < 0x110000 := by
    have valid := c.valid
    simp only [UInt32.isValidChar, Nat.isValidChar] at valid
    omega
  have octet {n m : Nat} (same : n = m) : UInt8.ofNat n = UInt8.ofNat m := congrArg _ same
  simp only [codeOctets, String.utf8EncodeChar, Char.toNat, Nat.pow_eq]
  split_ifs
  all_goals first | omega | rfl | skip
  all_goals simp only [List.cons.injEq, and_true]
  · exact ⟨octet (by omega), octet (by omega)⟩
  · exact ⟨octet (by omega), octet (by omega), octet (by omega)⟩
  · exact ⟨octet (by omega), octet (by omega), octet (by omega), octet (by omega)⟩

/-- Four digits write a code of sixteen bits. -/
theorem lt_of_hexUnit? {a b c d : UInt8} {code : Nat} (digits : hexUnit? a b c d = some code) : code < 0x10000 := by
  have digit {c : Char} {value : Nat} (known : Hex.value? c = some value) : value < 16 := by
    simp only [Hex.value?, Char.le_def, UInt32.le_iff_toNat_le] at known
    change (if 48 ≤ c.toNat ∧ c.toNat ≤ 57 then some (c.toNat - 48) else if 97 ≤ c.toNat ∧ c.toNat ≤ 102 then
      some (c.toNat - 87) else if 65 ≤ c.toNat ∧ c.toNat ≤ 70 then some (c.toNat - 55) else none) = some value at known
    split_ifs at known <;> cases known <;> omega
  simp only [hexUnit?, Option.bind_eq_bind, Option.bind_eq_some_iff, Option.pure_def, Option.some.injEq] at digits
  obtain ⟨first, h₁, second, h₂, third, h₃, fourth, h₄, rfl⟩ := digits
  have := digit h₁
  have := digit h₂
  have := digit h₃
  have := digit h₄
  omega

/-- A code that is no surrogate is that of a character. -/
theorem exists_char {code : Nat} (small : code < 0x110000) (noLead : isLead code = false) (noTrail : isTrail code = false) :
    ∃ c : Char, c.toNat = code := by
  have valid : code.isValidChar := by
    simp only [isLead, isTrail, Bool.and_eq_false_iff, decide_eq_false_iff_not] at noLead noTrail
    unfold Nat.isValidChar
    omega
  exact ⟨Char.ofNatAux code valid, rfl⟩

theorem exists_pair {lead trail : Nat} (isLead' : isLead lead = true) (isTrail' : isTrail trail = true) :
    ∃ c : Char, c.toNat = pairCode lead trail := by
  simp only [isLead, isTrail, Bool.and_eq_true, decide_eq_true_eq] at isLead' isTrail'
  have valid : (pairCode lead trail).isValidChar := by
    unfold pairCode Nat.isValidChar
    omega
  exact ⟨Char.ofNatAux _ valid, rfl⟩

/-! ## What is read is a literal -/

/-- What has been read and a literal make up these octets. In front of the literal stands the escape of the surrogate
that waits, if there is one. -/
def Reads (kind : StringKind) (lead : Option Nat) (read octets text rest : Bytes) : Prop :=
  ∃ more, octets = read.reverse ++ more ∧
    match lead with
    | none => Literal kind.literal more text rest
    | some code => ∀ a b c d, hexUnit? a b c d = some code →
      Literal kind.literal more (92 :: 117 :: a :: b :: c :: d :: text) rest

theorem trailFollows_unit {a b c d : UInt8} {code : Nat} (digits : hexUnit? a b c d = some code) :
    TrailFollows (92 :: 117 :: a :: b :: c :: d :: text) ↔ isTrail code = true := by
  constructor
  · rintro ⟨_, _, _, _, code', _, same, digits', trail⟩
    cases same
    rw [digits] at digits'
    cases digits'
    exact trail
  · intro trail
    exact ⟨a, b, c, d, code, text, rfl, digits, trail⟩

/-- Octets in front of a literal. -/
theorem Reads.push (front : Bytes) {text' : Bytes} (h : Reads kind none (front.reverse ++ read) octets text rest)
    (push : ∀ more, Literal kind.literal more text rest → Literal kind.literal (front ++ more) text' rest) :
    Reads kind none read octets text' rest := by
  obtain ⟨more, rfl, literal⟩ := h
  exact ⟨front ++ more, by rw [List.reverse_append, List.reverse_reverse, List.append_assoc], push more literal⟩

/-- A surrogate that no trail follows stands alone. -/
theorem Reads.alone {read' : Bytes} (h : Reads kind none read' octets text rest)
    (alone : loneLead kind lead read = .ok read') (waits : ∀ code ∈ lead, isLead code = true)
    (noTrail : lead ≠ none → ¬ TrailFollows text) : Reads kind lead read octets text rest := by
  cases lead with
  | none =>
    cases alone
    exact h
  | some code =>
    cases kind with
    | text => cases alone
    | octets =>
      cases alone
      obtain ⟨more, rfl, literal⟩ := h
      refine ⟨codeOctets code ++ more, by rw [List.reverse_append, List.reverse_reverse, List.append_assoc], ?_⟩
      intro a b c d digits
      exact .lone nofun digits (.inl ⟨waits code rfl, noTrail nofun⟩) literal

/-- An escape that closes no pair. -/
theorem Reads.unit {a b c d : UInt8} {code : Nat} {read' : Bytes} (digits : hexUnit? a b c d = some code)
    (taken : takeUnit kind none read code = .ok (lead, read')) (h : Reads kind lead read' octets text rest) :
    Reads kind none read octets (92 :: 117 :: a :: b :: c :: d :: text) rest := by
  simp only [takeUnit] at taken
  split at taken
  · next isLead' =>
    cases taken
    obtain ⟨more, rfl, literal⟩ := h
    exact ⟨more, rfl, literal a b c d digits⟩
  · next noLead =>
    split at taken
    · cases taken
    · next allowed =>
      cases taken
      refine h.push (codeOctets code) fun more literal => ?_
      by_cases isTrail' : isTrail code = true
      · refine .lone ?_ digits (.inr isTrail') literal
        cases kind with
        | text => exact absurd (by rw [isTrail']; rfl) allowed
        | octets => decide
      · obtain ⟨c, rfl⟩ := exists_char (Nat.lt_trans (lt_of_hexUnit? digits) (by decide)) (eq_false_of_ne_true noLead)
          (eq_false_of_ne_true isTrail')
        rw [codeOctets_toNat]
        exact .unit digits literal

/-- An escape closes a pair, or it is taken after the surrogate that waits has been let go. -/
theorem takeUnit_cases {code : Nat} {lead' : Option Nat} {read' : Bytes}
    (taken : takeUnit kind lead read code = .ok (lead', read')) :
    (∃ first, lead = some first ∧ isTrail code = true ∧ lead' = none ∧
      read' = (codeOctets (pairCode first code)).reverse ++ read) ∨
    ∃ read₁, loneLead kind lead read = .ok read₁ ∧ takeUnit kind none read₁ code = .ok (lead', read') ∧
      (lead ≠ none → isTrail code = false) := by
  cases lead with
  | none => exact .inr ⟨read, rfl, taken, fun some => absurd rfl some⟩
  | some first =>
    by_cases trail : isTrail code = true
    · simp only [takeUnit, trail, if_true] at taken
      cases taken
      exact .inl ⟨first, rfl, trail, rfl, rfl⟩
    · have noTrail : isTrail code = false := eq_false_of_ne_true trail
      simp only [takeUnit, noTrail] at taken
      cases alone : loneLead kind (some first) read with
      | error fault =>
        rw [alone] at taken
        cases taken
      | ok read₁ =>
        refine .inr ⟨read₁, rfl, ?_, fun _ => noTrail⟩
        rw [alone] at taken
        simp only [takeUnit, noTrail]
        exact taken

/-- The surrogate that waits after an escape is a lead. -/
theorem isLead_of_takeUnit {code : Nat} {lead' : Option Nat} {read' : Bytes}
    (taken : takeUnit kind lead read code = .ok (lead', read')) : ∀ code ∈ lead', isLead code = true := by
  rcases takeUnit_cases taken with ⟨first, -, -, rfl, -⟩ | ⟨read₁, -, single, -⟩
  · exact nofun
  · simp only [takeUnit] at single
    split_ifs at single with lead
    · cases single
      exact fun _ same => Option.some.inj same ▸ lead
    · cases single
      exact nofun

/-- What is read is a literal. -/
theorem reads_of_readOctets (waits : ∀ code ∈ lead, isLead code = true)
    (h : readOctets kind lead read text = .ok (octets, rest)) : Reads kind lead read octets text rest := by
  fun_induction readOctets kind lead read text with
  | case1 | case3 | case4 | case5 | case7 | case8 | case9 | case11 | case12 => cases h
  | case2 lead read rest' =>
    cases alone : loneLead kind lead read with
    | error fault =>
      rw [alone] at h
      cases h
    | ok read' =>
      rw [alone] at h
      cases h
      refine Reads.alone ⟨[], (List.append_nil _).symm, .close⟩ alone waits fun _ => ?_
      rintro ⟨_, _, _, _, _, _, same, -⟩
      cases same
  | case6 lead read a b c d text code digits lead' read' taken ih =>
    have more := ih (isLead_of_takeUnit taken) h
    rcases takeUnit_cases taken with ⟨first, waiting, trail, none', whole⟩ | ⟨read₁, alone, single, noTrail⟩
    · subst waiting none'
      obtain ⟨more, rfl, literal⟩ := more
      obtain ⟨char, isPair⟩ := exists_pair (waits first rfl) trail
      refine ⟨codeOctets (pairCode first code) ++ more, ?_, ?_⟩
      · rw [whole, List.reverse_append, List.reverse_reverse, List.append_assoc]
      · intro a' b' c' d' digits'
        rw [← isPair, codeOctets_toNat]
        exact .pair digits' digits (waits first rfl) trail isPair literal
    · refine Reads.alone (.unit digits single more) alone waits fun some follows => ?_
      rw [trailFollows_unit digits, noTrail some] at follows
      cases follows
  | case10 lead read letter text _ noUnit read' byte stands alone ih =>
    have more : Reads kind none ([byte].reverse ++ read') octets text rest := ih nofun h
    refine Reads.alone (more.push [byte] fun _ => .letter stands) alone waits fun _ => ?_
    rintro ⟨_, _, _, _, _, _, same, -⟩
    cases same
    exact noUnit rfl
  | case13 lead read byte text noQuote lone noUnit noShort noLetter read' alone allowed ih =>
    have more : Reads kind none ([byte].reverse ++ read') octets text rest := ih nofun h
    have noBackslash : byte ≠ 92 := by
      rintro rfl
      cases text with
      | nil => exact lone rfl rfl
      | cons letter text => exact noLetter letter text rfl rfl
    have printable : kind.literal ≠ .octets → 32 ≤ byte := by
      intro strict
      cases kind with
      | text =>
        by_contra control
        exact allowed (by rw [decide_eq_true (UInt8.not_le.1 control)]; rfl)
      | octets => exact absurd rfl strict
    refine Reads.alone (more.push [byte] fun _ => .plain noQuote noBackslash printable) alone waits fun _ => ?_
    rintro ⟨_, _, _, _, _, _, same, -⟩
    cases same
    exact noBackslash rfl

/-! ## A literal is read -/

/-- No character is a surrogate. -/
theorem no_surrogate (c : Char) : isLead c.toNat = false ∧ isTrail c.toNat = false := by
  have valid : c.toNat.isValidChar := c.valid
  simp only [isLead, isTrail, Bool.and_eq_false_iff, decide_eq_false_iff_not]
  unfold Nat.isValidChar at valid
  omega

theorem takeUnit_char {read' : Bytes} (c : Char) (alone : loneLead kind lead read = .ok read') :
    takeUnit kind lead read c.toNat = .ok (none, (String.utf8EncodeChar c).reverse ++ read') := by
  obtain ⟨noLead, noTrail⟩ := no_surrogate c
  cases lead with
  | none =>
    cases alone
    simp [takeUnit, noLead, noTrail, codeOctets_toNat]
  | some first =>
    simp only [takeUnit, noLead, noTrail, alone, codeOctets_toNat]
    rfl

theorem isTrail_of_isLead {code : Nat} (lead : isLead code = true) : isTrail code = false := by
  simp only [isLead, isTrail, Bool.and_eq_true, Bool.and_eq_false_iff, decide_eq_true_eq, decide_eq_false_iff_not]
    at lead ⊢
  omega

theorem takeUnit_lead {code : Nat} {read' : Bytes} (isLead' : isLead code = true)
    (alone : loneLead kind lead read = .ok read') : takeUnit kind lead read code = .ok (some code, read') := by
  cases lead with
  | none =>
    cases alone
    exact if_pos isLead'
  | some first =>
    simp only [takeUnit, isTrail_of_isLead isLead', isLead', alone]
    rfl

theorem takeUnit_trail {code : Nat} (trail : isTrail code = true) :
    takeUnit .octets none read code = .ok (none, (codeOctets code).reverse ++ read) := by
  have noLead : ¬ isLead code = true := by
    intro lead
    rw [isTrail_of_isLead lead] at trail
    cases trail
  simp [takeUnit, noLead]

/-- Of a literal the octets are read, behind those of a surrogate that waits in vain. -/
theorem readOctets_of_literal (literal : Literal kind.literal octets text rest) :
    ∀ {lead : Option Nat} {read read' : Bytes}, loneLead kind lead read = .ok read' →
      (lead ≠ none → ¬ TrailFollows text) → readOctets kind lead read text = .ok (read'.reverse ++ octets, rest) := by
  induction literal with
  | close =>
    intro lead read read' alone _
    rw [readOctets, alone, List.append_nil]
    rfl
  | @plain byte octets text rest noQuote noBackslash printable _ ih =>
    intro lead read read' alone _
    have allowed : (byte < 32 && kind == .text) = false := by
      cases kind with
      | text => simpa using printable (by decide)
      | octets => exact Bool.and_false _
    have step : readOctets kind lead read (byte :: text) = readOctets kind none (byte :: read') text := by
      rw [readOctets] <;> simp [noQuote, noBackslash, alone, allowed]
    rw [step, ih rfl (absurd rfl), List.reverse_cons, List.append_assoc, List.singleton_append]
  | @letter letter byte octets text rest stands _ ih =>
    intro lead read read' alone _
    have noUnit : letter ≠ 117 := by
      rintro rfl
      cases stands
    have step : readOctets kind lead read (92 :: letter :: text) = readOctets kind none (byte :: read') text := by
      rw [readOctets] <;> simp [noUnit, alone, stands]
    rw [step, ih rfl (absurd rfl), List.reverse_cons, List.append_assoc, List.singleton_append]
  | unit digits _ ih =>
    intro lead read read' alone _
    rw [readOctets, digits]
    simp only [takeUnit_char _ alone, ih rfl (absurd rfl), List.reverse_append, List.reverse_reverse, List.append_assoc]
  | pair first second isLead' isTrail' code _ ih =>
    intro lead read read' alone _
    rw [readOctets, first]
    simp only [takeUnit_lead isLead' alone]
    rw [readOctets, second]
    simp only [takeUnit, isTrail', if_true, ← code, codeOctets_toNat, ih rfl (absurd rfl), List.reverse_append,
      List.reverse_reverse, List.append_assoc]
  | lone loose digits surrogate _ ih =>
    intro lead read read' alone noTrail
    obtain rfl : kind = .octets := by
      cases kind with
      | text => exact absurd rfl loose
      | octets => rfl
    rw [readOctets, digits]
    rcases surrogate with ⟨isLead', vain⟩ | isTrail'
    · simp only [takeUnit_lead isLead' alone]
      rw [ih rfl fun _ => vain, List.reverse_append, List.reverse_reverse, List.append_assoc]
    · cases lead with
      | some first => exact absurd ((trailFollows_unit digits).2 isTrail') (noTrail (Option.some_ne_none first))
      | none =>
        cases alone
        simp only [takeUnit_trail isTrail', ih rfl (absurd rfl), List.reverse_append, List.reverse_reverse,
          List.append_assoc]

/-- The octets of a literal are read, and nothing else is read as a literal. -/
theorem readOctets_eq_ok_iff :
    readOctets kind none [] text = .ok (octets, rest) ↔ Literal kind.literal octets text rest := by
  constructor
  · intro read
    have waits : ∀ code ∈ (none : Option Nat), isLead code = true := nofun
    obtain ⟨more, rfl, literal⟩ := reads_of_readOctets waits read
    exact literal
  · intro literal
    exact readOctets_of_literal literal rfl (absurd rfl)

theorem readByteString_eq_ok_iff : readByteString text = .ok (octets, rest) ↔ Literal .octets octets text rest :=
  readOctets_eq_ok_iff

/-- The text is known by its octets. -/
theorem text?_eq_some_iff {value : String} : Bytes.text? octets = some value ↔ octets = Bytes.ofText value := by
  constructor
  · intro known
    unfold Bytes.text? String.fromUTF8? at known
    split at known
    · cases known
      rfl
    · cases known
  · rintro rfl
    exact Bytes.text?_ofText value

theorem ofText_inj {value value' : String} : Bytes.ofText value = Bytes.ofText value' ↔ value = value' := by
  rw [← text?_eq_some_iff, Bytes.text?_ofText, Option.some.injEq]

/-- A text is read exactly from the literals for its octets. -/
theorem readTextString_eq_ok_iff {value : String} :
    readTextString text = .ok (value, rest) ↔ Literal .text (Bytes.ofText value) text rest := by
  rw [show LiteralKind.text = StringKind.text.literal from rfl, ← readOctets_eq_ok_iff, readTextString, bind_eq_ok]
  constructor
  · rintro ⟨⟨octets, rest'⟩, read, known⟩
    rw [read]
    cases text : Bytes.text? octets with
    | none =>
      simp only [text] at known
      cases known
    | some value' =>
      simp only [text] at known
      cases known
      rw [text?_eq_some_iff.1 text]
  · intro read
    refine ⟨_, read, ?_⟩
    simp only [Bytes.text?_ofText]
    rfl

/-! ## Numbers -/

theorem readDigits_sound {digits : Bytes} (h : readDigits text = .ok (digits, rest)) :
    text = digits ++ rest ∧ Digits digits := by
  unfold readDigits at h
  split at h
  · cases h
  · next byte tail =>
    split at h
    · next digit =>
      cases h
      refine ⟨List.takeWhile_append_dropWhile.symm, ?_, fun byte => List.mem_takeWhile_imp⟩
      rw [List.takeWhile_cons_of_pos digit]
      exact List.cons_ne_nil _ _
    · cases h

theorem readWhole_sound {whole : Bytes} (h : readWhole text = .ok (whole, rest)) : text = whole ++ rest ∧ Whole whole := by
  unfold readWhole at h
  split at h
  · split at h
    · cases h
    · cases h
      exact ⟨rfl, .inl rfl⟩
  · next noZero =>
    obtain ⟨rfl, digits⟩ := readDigits_sound h
    refine ⟨rfl, ?_⟩
    by_cases zero : whole.head? = some 48
    · obtain ⟨more, rfl⟩ := List.head?_eq_some_iff.1 zero
      cases after : more ++ rest with
      | nil =>
        obtain ⟨rfl, -⟩ := List.append_eq_nil_iff.1 after
        exact .inl rfl
      | cons next tail => exact absurd (congrArg (48 :: ·) after) (noZero next tail)
    · exact .inr ⟨digits, zero⟩

/-- Behind a mark there are digits. -/
theorem readDigits_behind {β : Type} {digits : Bytes} {finish : Bytes × Bytes → β × Bytes} {value : β} (mark : Bytes)
    (h : (readDigits digits).map finish = .ok (value, rest)) (keeps : ∀ read, (finish read).2 = read.2) :
    ∃ read, mark ++ digits = mark ++ read ++ rest ∧ Digits read := by
  obtain ⟨⟨read, after⟩, taken, finished⟩ := map_eq_ok.1 h
  obtain rfl : after = rest := (keeps (read, after)).symm.trans (congrArg Prod.snd finished)
  obtain ⟨rfl, digits⟩ := readDigits_sound taken
  exact ⟨read, (List.append_assoc ..).symm, digits⟩

theorem readFraction_sound {digits : Option Bytes} (h : readFraction text = .ok (digits, rest)) :
    ∃ fraction, text = fraction ++ rest ∧ Fraction fraction := by
  unfold readFraction at h
  split at h
  · obtain ⟨digits, whole, some⟩ := readDigits_behind [46] h fun _ => rfl
    exact ⟨46 :: digits, whole, .inr ⟨digits, rfl, some⟩⟩
  · cases h
    exact ⟨[], rfl, .inl rfl⟩

theorem readExponent_sound {power : Option Int} (h : readExponent text = .ok (power, rest)) :
    ∃ exponent, text = exponent ++ rest ∧ Exponent exponent := by
  have known {mark : UInt8} {sign digits : Bytes} (isMark : mark = 101 ∨ mark = 69)
      (isSign : sign = [] ∨ sign = [43] ∨ sign = [45])
      (h : ∃ read, mark :: sign ++ digits = mark :: sign ++ read ++ rest ∧ Digits read) :
      ∃ exponent, mark :: sign ++ digits = exponent ++ rest ∧ Exponent exponent := by
    obtain ⟨read, whole, some⟩ := h
    exact ⟨_, whole, .inr ⟨mark, sign, read, rfl, isMark, isSign, some⟩⟩
  unfold readExponent at h
  split at h
  · exact known (.inr rfl) (.inr (.inr rfl)) (readDigits_behind [69, 45] h fun _ => rfl)
  · exact known (.inl rfl) (.inr (.inr rfl)) (readDigits_behind [101, 45] h fun _ => rfl)
  · exact known (.inr rfl) (.inr (.inl rfl)) (readDigits_behind [69, 43] h fun _ => rfl)
  · exact known (.inl rfl) (.inr (.inl rfl)) (readDigits_behind [101, 43] h fun _ => rfl)
  · exact known (.inr rfl) (.inl rfl) (readDigits_behind [69] h fun _ => rfl)
  · exact known (.inl rfl) (.inl rfl) (readDigits_behind [101] h fun _ => rfl)
  · cases h
    exact ⟨[], rfl, .inl rfl⟩

/-- What is read as a number is the text of one. -/
theorem readNumber_sound {number : Number} (h : readNumber text = .ok (number, rest)) :
    ∃ literal, text = literal ++ rest ∧ Numeral literal := by
  obtain ⟨sign, unsigned, rfl, isSign, tail⟩ : ∃ sign unsigned, text = sign ++ unsigned ∧ (sign = [] ∨ sign = [45]) ∧
      (if text.head? == some 45 then text.tail else text) = unsigned := by
    by_cases minus : text.head? = some 45
    · obtain ⟨unsigned, rfl⟩ := List.head?_eq_some_iff.1 minus
      exact ⟨[45], unsigned, rfl, .inr rfl, rfl⟩
    · exact ⟨[], text, rfl, .inl rfl, if_neg (by simpa using minus)⟩
  simp only [readNumber, tail, bind_eq_ok] at h
  obtain ⟨⟨whole, text₁⟩, readsWhole, ⟨fraction, text₂⟩, readsFraction, ⟨exponent, text₃⟩, readsExponent, finished⟩ := h
  obtain ⟨rfl, isWhole⟩ := readWhole_sound readsWhole
  obtain ⟨fraction', rfl, isFraction⟩ := readFraction_sound readsFraction
  obtain ⟨exponent', rfl, isExponent⟩ := readExponent_sound readsExponent
  have ends : text₃ = rest := by
    split at finished
    · obtain ⟨value, -, made⟩ := bind_eq_ok.1 finished
      cases made
      rfl
    · split at finished
      · cases finished
      · cases finished
        rfl
  refine ⟨sign ++ (whole ++ (fraction' ++ exponent')), ?_, sign, whole, fraction', exponent', rfl, isSign, isWhole,
    isFraction, isExponent⟩
  simp only [List.append_assoc, ends]

end ChainArchive.Json
