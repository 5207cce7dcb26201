import LedgerNode.Machine.Item
import Mathlib.Data.Nat.Init

/-!
# The shortest spelling of an integer

Byte strings of any length spell integers in two's complement, and an integer has a spelling of
every length that is great enough: a spelling can be made longer by a byte that repeats its sign,
and leaving such a byte out makes it shorter. What is left when no byte repeats the sign is the only
spelling of its length and shorter than any other, since a spelling of fewer bytes could be brought
to this length, and would then end with a repeated sign.

- `Bytes.toIntLE`: the integer that a byte string spells.
- `Bytes.toIntLE_eq_bmod`: it is the number with the same bytes up to a multiple of `256` to their
  number, so that spellings of one length are told apart (`Bytes.toIntLE_inj`).
- `Bytes.signByte`: the byte that repeats a sign. It can be added (`Bytes.exists_repeated_sign`) and
  is left out again (`Bytes.dropSignBytes_cons_cons`).
- `Bytes.Trimmed`: no byte repeats the sign (`Bytes.Trimmed.length_lt`).
- `Bytes.toIntLE_ofInteger`, `Bytes.length_ofInteger_lt`: an integer's form on the evaluation stack
  spells it, and any other spelling is longer.
-/

namespace LedgerNode.Bytes

/-! ## Two's complement -/

/-- The integer that a byte string spells, least significant byte first. The last byte has the sign,
and without bytes there is zero. -/
def toIntLE : Bytes → Int
  | [] => 0
  | [last] => last.toInt8.toInt
  | b :: c :: bs => b.toNat + 256 * toIntLE (c :: bs)

theorem toIntLE_cons (b : UInt8) {bs : Bytes} (hne : bs ≠ []) :
    toIntLE (b :: bs) = b.toNat + 256 * toIntLE bs := by
  cases bs with
  | nil => exact absurd rfl hne
  | cons c bs => rfl

theorem toIntLE_singleton (b : UInt8) :
    toIntLE [b] = if b < 0x80 then (b.toNat : Int) else b.toNat - 256 := by
  have hvalue : b.toInt8.toInt = (b.toNat : Int).bmod 256 := BitVec.toInt_eq_toNat_bmod _
  have hsign : b < 0x80 ↔ b.toNat < 128 := UInt8.lt_iff_toNat_lt
  have hlt := b.toNat_lt
  show b.toInt8.toInt = _
  rw [hvalue, Int.bmod_def]
  simp only [hsign]
  split <;> split <;> omega

/-- Of a number with one byte more, the balanced remainder has that byte more too. -/
theorem bmod_add_mul {r : Nat} (hr : r < 256) (q m : Nat) :
    ((r + 256 * q : Nat) : Int).bmod (256 * (2 * m)) = r + 256 * (q : Int).bmod (2 * m) := by
  have hmod : (r + 256 * q) % (256 * (2 * m)) = r + 256 * (q % (2 * m)) := by
    rw [Nat.mod_mul, Nat.add_mul_mod_self_left, Nat.mod_eq_of_lt hr,
      Nat.add_mul_div_left _ _ (by omega), Nat.div_eq_of_lt hr, Nat.zero_add]
  have hmodInt : ((r + 256 * q : Nat) : Int) % ((256 * (2 * m) : Nat) : Int) =
      r + 256 * ((q : Int) % ((2 * m : Nat) : Int)) := by
    rw [← Int.natCast_emod, ← Int.natCast_emod, hmod]
    rfl
  rw [Int.bmod_def, Int.bmod_def, hmodInt]
  split <;> split <;> omega

/-- A byte string spells the number of its bytes, taken into the range around zero. -/
theorem toIntLE_eq_bmod (bs : Bytes) :
    toIntLE bs = (toNatLE bs : Int).bmod (Nat.pow 256 bs.length) := by
  induction bs with
  | nil => rfl
  | cons b bs ih =>
    by_cases hnil : bs = []
    · subst hnil
      have hbyte : toNatLE [b] = b.toNat := by simp [toNatLE]
      rw [hbyte]
      exact BitVec.toInt_eq_toNat_bmod _
    · obtain ⟨k, hk⟩ := Nat.exists_eq_succ_of_ne_zero (mt List.length_eq_zero_iff.mp hnil)
      have heven : Nat.pow 256 bs.length = 2 * (128 * Nat.pow 256 k) := by
        rw [hk, ← Nat.mul_assoc]
        exact Nat.pow_succ'
      have hpow : Nat.pow 256 (b :: bs).length = 256 * Nat.pow 256 bs.length := Nat.pow_succ'
      rw [toIntLE_cons b hnil, ih, hpow, heven, toNatLE, bmod_add_mul b.toNat_lt]

/-- Two spellings of one length spell different integers. -/
theorem toIntLE_inj {bs cs : Bytes} (hlength : bs.length = cs.length)
    (h : toIntLE bs = toIntLE cs) : bs = cs := by
  rw [toIntLE_eq_bmod, toIntLE_eq_bmod, hlength] at h
  have hmod := congrArg (· % ((Nat.pow 256 cs.length : Nat) : Int)) h
  simp only [Int.bmod_emod] at hmod
  have hlt := toNatLE_lt bs
  rw [hlength] at hlt
  rw [Int.emod_eq_of_lt (by omega) (by omega),
    Int.emod_eq_of_lt (by omega) (Int.ofNat_lt.mpr (toNatLE_lt cs))] at hmod
  rw [← ofNatLE_toNatLE bs, ← ofNatLE_toNatLE cs, hlength, Int.ofNat.inj hmod]

/-- The eight bytes of an integer spell it. -/
theorem toIntLE_ofInt64LE (value : Int64) : toIntLE (ofInt64LE value) = value.toInt := by
  rw [toIntLE_eq_bmod, ofInt64LE, length_ofNatLE, toNatLE_ofNatLE, Int.natCast_emod,
    Int.emod_bmod]
  exact (BitVec.toInt_eq_toNat_bmod _).symm

/-- Bytes that are all zero spell zero. -/
theorem toIntLE_eq_zero {bs : Bytes} (hzero : ∀ b ∈ bs, b = 0) : toIntLE bs = 0 := by
  induction bs with
  | nil => rfl
  | cons b bs ih =>
    rw [List.forall_mem_cons] at hzero
    obtain ⟨rfl, hrest⟩ := hzero
    by_cases hnil : bs = []
    · rw [hnil]
      rfl
    · rw [toIntLE_cons 0 hnil, ih hrest]
      rfl

/-! ## Repeated signs -/

/-- The byte that says nothing behind another one but what the sign of that is. -/
def signByte (b : UInt8) : UInt8 :=
  if b < 0x80 then 0x00 else 0xff

/-- A repeated sign does not change what is spelled. -/
theorem toIntLE_append_signByte (front : Bytes) (p : UInt8) :
    toIntLE (front ++ [p, signByte p]) = toIntLE (front ++ [p]) := by
  induction front with
  | nil =>
    show (p.toNat : Int) + 256 * toIntLE [signByte p] = toIntLE [p]
    rw [toIntLE_singleton p]
    unfold signByte
    by_cases hp : p < 0x80
    · rw [if_pos hp, if_pos hp]
      exact Int.add_zero _
    · rw [if_neg hp, if_neg hp]
      rfl
  | cons b front ih =>
    rw [List.cons_append, List.cons_append, toIntLE_cons b (by simp), toIntLE_cons b (by simp), ih]

/-- A spelling can be brought to any greater length by repeating its sign. -/
theorem exists_repeated_sign {bs : Bytes} (hne : bs ≠ []) {n : Nat} (hn : bs.length < n) :
    ∃ front p, front.length + 2 = n ∧ toIntLE (front ++ [p, signByte p]) = toIntLE bs := by
  induction n, hn using Nat.le_induction with
  | base =>
    refine ⟨bs.dropLast, bs.getLast hne, ?_, ?_⟩
    · have hpos := List.length_pos_iff.mpr hne
      rw [List.length_dropLast]
      omega
    · rw [toIntLE_append_signByte, List.dropLast_concat_getLast]
  | succ n _ ih =>
    -- the sign that was added last is repeated once more
    obtain ⟨front, p, hlength, hvalue⟩ := ih
    refine ⟨front ++ [p], signByte p, ?_, ?_⟩
    · rw [List.length_append, List.length_singleton]
      omega
    · rw [toIntLE_append_signByte, List.append_assoc]
      exact hvalue

/-- No byte at the end repeats the sign of the one before it. -/
def Trimmed (bs : Bytes) : Prop :=
  ∀ front p, bs ≠ front ++ [p, signByte p]

/-- A spelling without repeated signs is shorter than any other one that has bytes at all. -/
theorem Trimmed.length_lt {bs cs : Bytes} (hbs : bs.Trimmed) (hvalue : toIntLE cs = toIntLE bs)
    (hne : cs ≠ []) (hother : cs ≠ bs) : bs.length < cs.length := by
  refine Nat.lt_of_not_le fun hle => ?_
  rcases Nat.lt_or_eq_of_le hle with hlt | heq
  · obtain ⟨front, p, hlength, hlong⟩ := exists_repeated_sign hne hlt
    have hsame : bs = front ++ [p, signByte p] := by
      refine toIntLE_inj ?_ (hvalue.symm.trans hlong.symm)
      rw [List.length_append]
      exact hlength.symm
    exact hbs front p hsame
  · exact hother (toIntLE_inj heq hvalue)

/-! ## Leaving repeated signs out -/

/-- The bytes that are left out are those that repeat a sign. -/
theorem dropSignBytes_cons_cons (last previous : UInt8) (rest : Bytes) :
    dropSignBytes (last :: previous :: rest) =
      if last = signByte previous then dropSignBytes (previous :: rest)
      else last :: previous :: rest := by
  have hsign : (last = 0x00 ∧ previous < 0x80) ∨ (last = 0xff ∧ 0x80 ≤ previous) ↔
      last = signByte previous := by
    unfold signByte
    by_cases hp : previous < 0x80
    · simp [hp, UInt8.not_le.mpr hp]
    · simp [hp, UInt8.not_lt.mp hp]
  rw [dropSignBytes]
  simp only [hsign]

theorem toIntLE_dropSignBytes (bs : Bytes) :
    toIntLE (dropSignBytes bs).reverse = toIntLE bs.reverse := by
  induction bs with
  | nil => rfl
  | cons last rest ih =>
    cases rest with
    | nil => rfl
    | cons previous rest =>
      rw [dropSignBytes_cons_cons]
      by_cases hsign : last = signByte previous
      · subst hsign
        rw [if_pos rfl, ih]
        simp only [List.reverse_cons, List.append_assoc]
        exact (toIntLE_append_signByte rest.reverse previous).symm
      · rw [if_neg hsign]

theorem length_dropSignBytes_le (bs : Bytes) : (dropSignBytes bs).length ≤ bs.length := by
  induction bs with
  | nil => exact Nat.le_refl 0
  | cons last rest ih =>
    cases rest with
    | nil => exact Nat.le_refl 1
    | cons previous rest =>
      rw [dropSignBytes_cons_cons]
      split
      · exact Nat.le_succ_of_le ih
      · exact Nat.le_refl _

/-- No repeated sign is left. -/
theorem trimmed_dropSignBytes (bs : Bytes) : Trimmed (dropSignBytes bs).reverse := by
  intro front p heq
  have hstart : dropSignBytes bs = signByte p :: p :: front.reverse := by
    rw [List.reverse_eq_iff, List.reverse_append] at heq
    exact heq
  clear heq
  induction bs with
  | nil => cases hstart
  | cons last rest ih =>
    cases rest with
    | nil => cases hstart
    | cons previous rest =>
      rw [dropSignBytes_cons_cons] at hstart
      by_cases hsign : last = signByte previous
      · rw [if_pos hsign] at hstart
        exact ih hstart
      · rw [if_neg hsign] at hstart
        cases hstart
        exact hsign rfl

/-! ## The form of an integer on the evaluation stack -/

/-- It spells the integer. -/
theorem toIntLE_ofInteger (value : Int64) : toIntLE (ofInteger value) = value.toInt := by
  unfold ofInteger
  by_cases hzero : value = 0
  · rw [if_pos hzero, hzero]
    rfl
  · rw [if_neg hzero, toIntLE_dropSignBytes, List.reverse_reverse, toIntLE_ofInt64LE]

theorem length_ofInteger_le (value : Int64) : (ofInteger value).length ≤ 8 := by
  unfold ofInteger
  by_cases hzero : value = 0
  · rw [if_pos hzero]
    exact Nat.zero_le 8
  · have hlength : (ofInt64LE value).reverse.length = 8 := by
      rw [List.length_reverse]
      exact length_ofNatLE _ _
    rw [if_neg hzero, List.length_reverse, ← hlength]
    exact length_dropSignBytes_le _

/-- Any other spelling of the integer is longer. -/
theorem length_ofInteger_lt {value : Int64} {bs : Bytes} (hvalue : toIntLE bs = value.toInt)
    (hother : bs ≠ ofInteger value) : (ofInteger value).length < bs.length := by
  rw [← toIntLE_ofInteger] at hvalue
  unfold ofInteger at hvalue hother ⊢
  by_cases hzero : value = 0
  · -- zero takes no byte, so that other spellings need only have one
    rw [if_pos hzero] at hother ⊢
    exact List.length_pos_iff.mpr hother
  · rw [if_neg hzero] at hvalue hother ⊢
    refine (trimmed_dropSignBytes _).length_lt hvalue ?_ hother
    rintro rfl
    rw [toIntLE_dropSignBytes, List.reverse_reverse, toIntLE_ofInt64LE] at hvalue
    exact hzero (Int64.toInt_inj.mp hvalue.symm)

/-- Integers of one form are equal. -/
theorem ofInteger_inj {v w : Int64} (h : ofInteger v = ofInteger w) : v = w := by
  rw [← Int64.toInt_inj, ← toIntLE_ofInteger, h, toIntLE_ofInteger]

end LedgerNode.Bytes
