import ChainArchive.Proofs.Rsa.Signature
import ChainArchive.Rsa.KeyFile

/-!
# Files for keys

A key pair is read from two files. Every pair with a secret exponent of at most 4096
bits has two such files, so the checks on a file let all of them through, also those
whose factors are not prime, or equal.
-/

namespace ChainArchive
set_option autoImplicit false

namespace Bytes

/-- The first octet is the highest digit to the base 256. -/
theorem ofNat_succ (width n : Nat) : ofNat (width + 1) n = UInt8.ofNat (n / 256 ^ width) :: ofNat width n := by
  induction width generalizing n with
  | zero => simp [ofNat]
  | succ width ih =>
    rw [ofNat, ih, Nat.div_div_eq_div_mul, Nat.mul_comm 256, ← Nat.pow_succ]
    rfl

/-- A number that fits is given back by its octets. -/
theorem toNat_ofNat_of_lt {width n : Nat} (fits : n < 256 ^ width) : toNat (ofNat width n) = n := by
  rw [toNat_ofNat]
  exact Nat.mod_eq_of_lt fits

end Bytes

namespace Der

variable {α : Type}

/-! ## Elements -/

/-- The octets of a length. -/
def lengthOctets (n : Nat) : Bytes :=
  if n < 128 then [UInt8.ofNat n] else UInt8.ofNat (128 + Bytes.width n) :: Bytes.ofNat (Bytes.width n) n

/-- The octets of an element. -/
def written (tag : UInt8) (content : Bytes) : Bytes := tag :: (lengthOctets content.length ++ content)

/-- The reader takes these octets off every input that they begin. -/
def Reads (reader : Reader α) (octets : Bytes) (a : α) : Prop := ∀ rest, reader (octets ++ rest) = some (a, rest)

theorem Reads.alone {reader : Reader α} {octets : Bytes} {a : α} (h : Reads reader octets a) :
    reader octets = some (a, []) := by
  rw [← h [], List.append_nil]

theorem Reads.whole {reader : Reader α} {octets : Bytes} {a : α} (h : Reads reader octets a) :
    whole reader octets = some a := by
  rw [Der.whole, h.alone]

/-- No length that is accepted needs more than four octets. -/
theorem width_le_of_lt {n : Nat} (small : n < lengthLimit) : Bytes.width n ≤ 4 := by
  unfold Bytes.width
  split
  · exact Nat.zero_le _
  · next nonzero =>
    have bits : n.log2 < 28 := (Nat.log2_lt nonzero).2 small
    omega

theorem reads_length {n : Nat} (small : n < lengthLimit) : Reads length (lengthOctets n) n := by
  intro rest
  unfold lengthOctets
  split
  · next short =>
    have value : (UInt8.ofNat n).toNat = n := UInt8.toNat_ofNat_of_lt' (Nat.lt_trans short (by decide))
    simp [length, value, short]
  · next long =>
    have least : 128 ≤ n := Nat.le_of_not_lt long
    have atMost := width_le_of_lt small
    have atLeast : 1 ≤ Bytes.width n := by
      simp only [Bytes.width, if_neg (show n ≠ 0 by omega)]
      exact Nat.le_add_left ..
    have first : (UInt8.ofNat (128 + Bytes.width n)).toNat = 128 + Bytes.width n :=
      UInt8.toNat_ofNat_of_lt' (Nat.lt_of_le_of_lt (Nat.add_le_add_left atMost 128) (by decide))
    have octets : (Bytes.ofNat (Bytes.width n) n ++ rest).take (Bytes.width n) = Bytes.ofNat (Bytes.width n) n :=
      List.take_left' (Bytes.length_ofNat ..)
    have value : Bytes.toNat (Bytes.ofNat (Bytes.width n) n) = n := Bytes.toNat_ofNat_of_lt (Bytes.lt_of_width n)
    have remaining : (Bytes.ofNat (Bytes.width n) n ++ rest).drop (Bytes.width n) = rest :=
      List.drop_left' (Bytes.length_ofNat ..)
    have counted : ¬ (Bytes.width n = 0 ∨ 4 < Bytes.width n ∨ Bytes.width n < Bytes.width n) := by omega
    simp only [length, List.cons_append, first, Nat.not_lt.2 (Nat.le_add_right 128 _), if_false,
      Nat.add_sub_cancel_left, octets, value, remaining, Bytes.length_ofNat, counted, least, small, and_self, if_true]

theorem reads_tagged {tag : UInt8} {content : Bytes} (known : Tag.isKnown tag = true)
    (small : content.length < lengthLimit) : Reads (tagged tag) (written tag content) content := by
  intro rest
  have size := reads_length small (content ++ rest)
  have enough : ¬ (content ++ rest).length < content.length := by simp
  simp only [tagged, element, written, List.cons_append, List.append_assoc, known, size, enough, Bool.not_true,
    Bool.false_eq_true, if_false, List.take_left', List.drop_left', Option.bind_eq_bind, Option.bind_some, if_true]

/-- The head of an element takes no more than six octets. -/
theorem length_written_le {tag : UInt8} {content : Bytes} {bound : Nat} (short : content.length ≤ bound)
    (small : bound < lengthLimit) : (written tag content).length ≤ bound + 6 := by
  have := width_le_of_lt (Nat.lt_of_le_of_lt short small)
  unfold written lengthOctets
  split
  · simp
    omega
  · simp
    omega

theorem reads_sequenceOf {reader : Reader α} {content : Bytes} {a : α} (small : content.length < lengthLimit)
    (understood : whole reader content = some a) :
    Reads (sequenceOf reader) (written Tag.sequence content) a := by
  intro rest
  have enclosed : Reads (tagged Tag.sequence) (written Tag.sequence content) content := reads_tagged rfl small
  simp [sequenceOf, enclosed rest, understood]

theorem reads_bitOctets {octets : Bytes} (small : octets.length + 1 < lengthLimit) :
    Reads bitOctets (written Tag.bitString (0 :: octets)) octets := by
  intro rest
  have enclosed : Reads (tagged Tag.bitString) (written Tag.bitString (0 :: octets)) (0 :: octets) :=
    reads_tagged rfl small
  simp [bitOctets, enclosed rest, octetsOfBits?]

/-! ## Integers -/

/-- The content of an integer: as many octets as leave the highest bit free. -/
def naturalOctets (n : Nat) : Bytes := Bytes.ofNat ((n.log2 + 1) / 8 + 1) n

/-- The octets of an integer. -/
def writtenNatural (n : Nat) : Bytes := written Tag.integer (naturalOctets n)

/-- An integer that needs more than one octet lies between two powers of two. -/
theorem bounds_of_log2 {n high : Nat} (octets : (n.log2 + 1) / 8 = high + 1) :
    128 * 256 ^ high ≤ n ∧ n < 128 * 256 ^ (high + 1) := by
  have nonzero : n ≠ 0 := by
    rintro rfl
    simp at octets
  have power (k : Nat) : 128 * 256 ^ k = 2 ^ (8 * k + 7) := by
    rw [Nat.pow_add, Nat.pow_mul, Nat.mul_comm]
  rw [power, power]
  constructor
  · calc 2 ^ (8 * high + 7) ≤ 2 ^ n.log2 := Nat.pow_le_pow_right (by decide) (by omega)
      _ ≤ n := Nat.log2_self_le nonzero
  · calc n < 2 ^ (n.log2 + 1) := Nat.lt_log2_self
      _ ≤ 2 ^ (8 * (high + 1) + 7) := Nat.pow_le_pow_right (by decide) (by omega)

/-- An idle octet stands only before an octet whose highest bit is set, and the first octet leaves this bit free. -/
theorem natural?_naturalOctets (n : Nat) : natural? (naturalOctets n) = some n := by
  unfold naturalOctets
  cases octets : (n.log2 + 1) / 8 with
  | zero =>
    have short : n < 128 := by
      have below : n < 2 ^ (n.log2 + 1) := Nat.lt_log2_self
      have power : 2 ^ (n.log2 + 1) ≤ 2 ^ 7 := Nat.pow_le_pow_right (by decide) (by omega)
      omega
    have value : (UInt8.ofNat n).toNat = n := UInt8.toNat_ofNat_of_lt' (Nat.lt_trans short (by decide))
    simp [Bytes.ofNat, natural?, value, short]
  | succ high =>
    obtain ⟨least, below⟩ := bounds_of_log2 octets
    have digit : n / 256 ^ (high + 1) < 128 := Nat.div_lt_of_lt_mul (by rwa [Nat.mul_comm])
    have first : (UInt8.ofNat (n / 256 ^ (high + 1))).toNat = n / 256 ^ (high + 1) :=
      UInt8.toNat_ofNat_of_lt' (Nat.lt_trans digit (by decide))
    rw [Bytes.ofNat_succ, Bytes.ofNat_succ, natural?, ← Bytes.ofNat_succ, ← Bytes.ofNat_succ, first]
    split
    · next idle =>
      have fits : n < 256 ^ (high + 1) := (Nat.div_eq_zero_iff_lt (Nat.pow_pos (by decide))).1 idle
      have second : ¬ (UInt8.ofNat (n / 256 ^ high)).toNat < 128 := by
        have atLeast : 128 ≤ n / 256 ^ high := (Nat.le_div_iff_mul_le (Nat.pow_pos (by decide))).2 least
        have atMost : n / 256 ^ high < 256 := Nat.div_lt_of_lt_mul (by rwa [← Nat.pow_succ])
        rw [UInt8.toNat_ofNat_of_lt' atMost]
        exact Nat.not_lt.2 atLeast
      rw [if_neg second, Bytes.toNat_ofNat_of_lt fits]
    · have fits : n < 256 ^ (high + 2) := by
        rw [Nat.pow_succ 256 (high + 1)]
        omega
      rw [Bytes.toNat_ofNat_of_lt fits]

/-- How many octets an integer takes. -/
theorem length_naturalOctets_le {n bits : Nat} (small : n < Nat.pow 2 bits) :
    (naturalOctets n).length ≤ bits / 8 + 1 := by
  rw [Nat.pow_eq] at small
  rw [naturalOctets, Bytes.length_ofNat]
  rcases Nat.eq_zero_or_pos n with rfl | positive
  · simp
  · have := (Nat.log2_lt (Nat.ne_of_gt positive)).2 small
    omega

theorem reads_natural {n : Nat} (small : n < Nat.pow 2 4096) : Reads natural (writtenNatural n) n := by
  intro rest
  have short := length_naturalOctets_le small
  have enclosed : Reads (tagged Tag.integer) (writtenNatural n) (naturalOctets n) :=
    reads_tagged rfl (Nat.lt_of_le_of_lt short (by decide))
  simp [natural, enclosed rest, natural?_naturalOctets]

theorem length_writtenNatural_le {n : Nat} (small : n < Nat.pow 2 4096) : (writtenNatural n).length ≤ 519 :=
  length_written_le (length_naturalOctets_le small) (by decide)

theorem length_flatMap_writtenNatural_le {ns : List Nat} (small : ∀ n ∈ ns, n < Nat.pow 2 4096) :
    (ns.flatMap writtenNatural).length ≤ ns.length * 519 := by
  induction ns with
  | nil => simp
  | cons n ns ih =>
    have first := length_writtenNatural_le (small n List.mem_cons_self)
    have others := ih fun n inside => small n (List.mem_cons_of_mem _ inside)
    rw [List.flatMap_cons, List.length_append, List.length_cons, Nat.succ_mul]
    omega

end Der

namespace Rsa

open Der

/-! ## Files -/

namespace KeyFile

/-- The element that names the algorithm. -/
def writtenAlgorithm : Bytes := written Tag.sequence algorithm

theorem reads_rsaAlgorithm : Reads rsaAlgorithm writtenAlgorithm () := by
  intro rest
  have enclosed : Reads (tagged Tag.sequence) writtenAlgorithm algorithm := reads_tagged rfl (by decide)
  simp [rsaAlgorithm, enclosed rest]

end KeyFile

/-- The inverse of a number is below the modulus. -/
theorem inverse?_lt {a modulus c : Nat} (positive : 0 < modulus) (found : inverse? a modulus = some c) :
    c < modulus := by
  simp only [inverse?] at found
  split at found
  · obtain rfl := Option.some.inj found
    have below := Int.emod_lt_of_pos (bezout a modulus).snd.fst (Int.natCast_pos.2 positive)
    exact (Int.toNat_lt' positive).2 below
  · cases found

namespace PublicKey

/-- The numbers of a public key. -/
def numbers (key : PublicKey) : Bytes := written Tag.sequence (writtenNatural key.modulus ++ writtenNatural key.exponent)

/-- The file of a public key. -/
def file (key : PublicKey) : Bytes :=
  written Tag.sequence (KeyFile.writtenAlgorithm ++ written Tag.bitString (0 :: key.numbers))

theorem of?_self (key : PublicKey) : of? key.modulus key.exponent = some key := by
  have admissible := And.intro key.modulus_odd (And.intro key.exponent_odd (And.intro key.three_le_exponent
    (And.intro key.exponent_small key.exponent_lt_modulus)))
  rw [of?, dif_pos admissible]

/-- The file of a public key is read back. -/
theorem ofDer?_file {key : PublicKey} (small : key.modulus < Nat.pow 2 4096) : ofDer? key.file = some key := by
  have exponentSmall : key.exponent < Nat.pow 2 4096 := Nat.lt_trans key.exponent_lt_modulus small
  have content : (writtenNatural key.modulus ++ writtenNatural key.exponent).length ≤ 1038 := by
    have modulus := length_writtenNatural_le small
    have exponent := length_writtenNatural_le exponentSmall
    rw [List.length_append]
    omega
  have numbers : key.numbers.length ≤ 1044 := length_written_le content (by decide)
  have bits : (written Tag.bitString (0 :: key.numbers)).length ≤ 1051 :=
    length_written_le (Nat.succ_le_succ numbers) (by decide)
  have total : (KeyFile.writtenAlgorithm ++ written Tag.bitString (0 :: key.numbers)).length ≤ 1066 := by
    have algorithm : KeyFile.writtenAlgorithm.length = 15 := rfl
    rw [List.length_append]
    omega
  have understood : Reads KeyFile.publicNumbers key.numbers key := by
    refine reads_sequenceOf (Nat.lt_of_le_of_lt content (by decide)) ?_
    simp [whole, reads_natural small _, (reads_natural exponentSmall).alone, of?_self]
  have enclosed : Reads bitOctets (written Tag.bitString (0 :: key.numbers)) key.numbers :=
    reads_bitOctets (Nat.lt_of_le_of_lt (Nat.succ_le_succ numbers) (by decide))
  refine Reads.whole (reads_sequenceOf (Nat.lt_of_le_of_lt total (by decide)) ?_)
  simp [whole, KeyFile.reads_rsaAlgorithm _, enclosed.alone, understood.alone]

end PublicKey

namespace PrivateKey

/-- The numbers in the file of a private key: those it is made of, and the values for the Chinese remainder theorem. -/
def entries (key : PrivateKey) : List Nat :=
  [0, key.modulus, key.exponent, key.secret, key.p, key.q, key.secret % (key.p - 1), key.secret % (key.q - 1),
    (inverse? key.q key.p).getD 0]

/-- The numbers of a private key. -/
def numbers (key : PrivateKey) : Bytes := written Tag.sequence (key.entries.flatMap writtenNatural)

/-- The file of a private key. -/
def file (key : PrivateKey) : Bytes :=
  written Tag.sequence (writtenNatural 0 ++ (KeyFile.writtenAlgorithm ++ written Tag.octetString key.numbers))

theorem of?_self (key : PrivateKey) : of? key.modulus key.exponent key.secret key.p key.q = some key := by
  have admissible := And.intro key.one_lt_p (And.intro key.one_lt_q (And.intro key.p_mul_q
    (And.intro key.secret_mod_p key.secret_mod_q)))
  simp [of?, PublicKey.of?_self, admissible]

/-- All numbers in the file are small if the modulus and the secret exponent are. -/
theorem lt_of_mem_entries {key : PrivateKey} {bound : Nat} (modulus : key.modulus < bound) (secret : key.secret < bound) :
    ∀ n ∈ key.entries, n < bound := by
  have p_pos : 0 < key.p := Nat.lt_trans Nat.zero_lt_one key.one_lt_p
  have q_pos : 0 < key.q := Nat.lt_trans Nat.zero_lt_one key.one_lt_q
  have p : key.p ≤ key.modulus := key.p_mul_q ▸ Nat.le_mul_of_pos_right _ q_pos
  have q : key.q ≤ key.modulus := key.p_mul_q ▸ Nat.le_mul_of_pos_left _ p_pos
  have exponent := key.exponent_lt_modulus
  have modP : key.secret % (key.p - 1) ≤ key.secret := Nat.mod_le ..
  have modQ : key.secret % (key.q - 1) ≤ key.secret := Nat.mod_le ..
  have coefficient : (inverse? key.q key.p).getD 0 < key.p := by
    cases found : inverse? key.q key.p with
    | none => exact p_pos
    | some c => exact inverse?_lt p_pos found
  intro n inside
  simp only [entries, List.mem_cons, List.not_mem_nil, or_false] at inside
  omega

/-- The file of a private key is read back. -/
theorem ofDer?_file {key : PrivateKey} (modulus : key.modulus < Nat.pow 2 4096) (secret : key.secret < Nat.pow 2 4096) :
    ofDer? key.file = some key := by
  have small := lt_of_mem_entries modulus secret
  have content : (key.entries.flatMap writtenNatural).length ≤ 4671 := by
    have count : key.entries.length = 9 := rfl
    have each := length_flatMap_writtenNatural_le small
    omega
  have numbers : key.numbers.length ≤ 4677 := length_written_le content (by decide)
  have octets : (written Tag.octetString key.numbers).length ≤ 4683 := length_written_le numbers (by decide)
  have total : (writtenNatural 0 ++ (KeyFile.writtenAlgorithm ++ written Tag.octetString key.numbers)).length ≤ 4701 := by
    have version : (writtenNatural 0).length = 3 := rfl
    have algorithm : KeyFile.writtenAlgorithm.length = 15 := rfl
    rw [List.length_append, List.length_append]
    omega
  have understood : Reads KeyFile.privateNumbers key.numbers key := by
    refine reads_sequenceOf (Nat.lt_of_le_of_lt content (by decide)) ?_
    have each (n : Nat) (inside : n ∈ key.entries) : Reads natural (writtenNatural n) n := reads_natural (small n inside)
    simp only [entries, List.forall_mem_cons] at each
    obtain ⟨r0, r1, r2, r3, r4, r5, r6, r7, r8, -⟩ := each
    simp [whole, entries, r0 _, r1 _, r2 _, r3 _, r4 _, r5 _, r6 _, r7 _, r8.alone, of?_self]
  have enclosed : Reads (tagged Tag.octetString) (written Tag.octetString key.numbers) key.numbers :=
    reads_tagged rfl (Nat.lt_of_le_of_lt numbers (by decide))
  have version : Reads natural (writtenNatural 0) 0 := reads_natural (Nat.zero_lt_of_lt modulus)
  refine Reads.whole (reads_sequenceOf (Nat.lt_of_le_of_lt total (by decide)) ?_)
  simp [whole, version _, KeyFile.reads_rsaAlgorithm _, enclosed.alone, KeyFile.enclosedPublicKey, KeyFile.onlyExtensions,
    understood.alone]

end PrivateKey

namespace KeyPair

theorem ofKeys_self (keys : KeyPair) : ofKeys keys.signing keys.signing.toPublicKey = .ok keys := by
  unfold ofKeys
  split
  · rw [dif_pos rfl]
  · next large => exact absurd keys.modulus_small large

/-- Every key pair with a secret exponent of at most 4096 bits is read from its two files. -/
theorem ofDer_file (keys : KeyPair) (secret : keys.signing.secret < Nat.pow 2 4096) :
    ofDer keys.signing.file keys.signing.toPublicKey.file = .ok keys := by
  have private_ := PrivateKey.ofDer?_file keys.modulus_small secret
  have public_ := PublicKey.ofDer?_file keys.modulus_small
  simp only [ofDer, private_, public_, Option.elim_some, bind, Except.bind, ofKeys_self]

end KeyPair
end Rsa
end ChainArchive
