import LedgerNode.Proofs.Number.Integers
import Mathlib.Data.Nat.Dist

/-!
# Integers rounded to floating-point numbers

An integer of more bits than a significand has loses its last bits. What is left counts a power of
two, the same for all integers between two powers of two, so that rounding to the nearest multiple
of it is rounding to the nearest floating-point number: those that are no multiples of it lie below
all such integers, and the power of two at their lower end is nearer.

- `Binary64.HasBits`: the whole numbers of at most so many bits, zeros at the end aside. Those of 53
  bits are the whole floating-point numbers.
- `Binary64.roundQuotient_nearest`, `Binary64.even_roundQuotient`: a rounded quotient gives the
  nearest multiple of the divisor, and from halfway an even one.
- `Binary64.nearestWhole`, `Binary64.nearestInt`: what an integer is rounded to
  (`Binary64.whole?_ofInt_eq`).
- `Binary64.IsNearest`: no floating-point number is nearer, and from halfway the last bit is zero.
  `Binary64.isNearest_nearestInt` says this of what an integer is rounded to.
- `Binary64.nearestInt_eq_self_iff`: the integers that are not changed.
- `Binary64.nearestInt_fits`, `Binary64.ofInt_of_ge`: integers of 64 bits with a sign stay such
  integers, but for the last 512, which are rounded to the power of two behind them.
-/

namespace LedgerNode.Binary64

/-- A whole number of at most so many bits, with any number of zeros behind them. The power of two
that is the first number of one bit more is one of them, since all its other bits are zeros. -/
def HasBits (bits n : Nat) : Prop :=
  ∃ s k, s ≤ 1 <<< bits ∧ n = s <<< k

/-! ## Rounded quotients -/

/-- A rounded quotient is the quotient or one more, whichever is nearer. -/
theorem roundQuotient_cases (num den : Nat) :
    (roundQuotient num den = num / den ∧ 2 * (num % den) ≤ den) ∨
      (roundQuotient num den = num / den + 1 ∧ den ≤ 2 * (num % den)) := by
  unfold roundQuotient
  dsimp only
  split
  · exact .inl ⟨rfl, by omega⟩
  · split
    · exact .inr ⟨rfl, by omega⟩
    · split
      · exact .inl ⟨rfl, by omega⟩
      · exact .inr ⟨rfl, by omega⟩

/-- A multiple is at most the one below a number, or at least the one above it. -/
theorem mul_le_or_le_mul (y q den : Nat) : y * den ≤ q * den ∨ q * den + den ≤ y * den := by
  rcases Nat.lt_or_ge q y with h | h
  · refine .inr ?_
    rw [← Nat.succ_mul]
    exact Nat.mul_le_mul_right den h
  · exact .inl (Nat.mul_le_mul_right den h)

theorem roundQuotient_nearest (num : Nat) {den : Nat} (hden : 0 < den) (y : Nat) :
    Nat.dist num (roundQuotient num den * den) ≤ Nat.dist num (y * den) := by
  have hsplit : num / den * den + num % den = num := Nat.div_add_mod' num den
  have hrest : num % den < den := Nat.mod_lt num hden
  have hside := mul_le_or_le_mul y (num / den) den
  unfold Nat.dist
  rcases roundQuotient_cases num den with ⟨hq, hhalf⟩ | ⟨hq, hhalf⟩
  · rw [hq]
    omega
  · rw [hq, Nat.succ_mul]
    omega

/-- Only from halfway is another multiple as near, and then the even one is taken. -/
theorem even_roundQuotient {num den : Nat} (hden : 0 < den) {y : Nat}
    (hne : y ≠ roundQuotient num den)
    (htie : Nat.dist num (y * den) = Nat.dist num (roundQuotient num den * den)) :
    roundQuotient num den % 2 = 0 := by
  have hsplit : num / den * den + num % den = num := Nat.div_add_mod' num den
  have hrest : num % den < den := Nat.mod_lt num hden
  have hbelow := mul_le_or_le_mul y (num / den) den
  have habove := mul_le_or_le_mul (num / den) y den
  have hover := mul_le_or_le_mul y (num / den + 1) den
  have hunder := mul_le_or_le_mul (num / den + 1) y den
  have hnext : (num / den + 1) * den = num / den * den + den := Nat.succ_mul _ _
  have hne' : y * den ≠ roundQuotient num den * den :=
    fun h => hne (Nat.eq_of_mul_eq_mul_right hden h)
  unfold Nat.dist at htie
  by_cases hhalf : 2 * (num % den) = den
  · unfold roundQuotient
    dsimp only
    rw [if_neg (by omega), if_neg (by omega)]
    split <;> omega
  · -- off halfway the multiples on the two sides are not equally near
    rcases roundQuotient_cases num den with ⟨hq, hle⟩ | ⟨hq, hle⟩
    · rw [hq] at htie hne'
      omega
    · rw [hq, hnext] at htie hne'
      omega

/-! ## The nearest whole number of 53 bits -/

/-- The power of two that the last bit of a significand counts, as an exponent, if an integer has
more bits than that. -/
def spareBits (n : Nat) : Nat :=
  n.log2 - 52

/-- The nearest whole number of 53 bits; from halfway, the one with an even significand. -/
def nearestWhole (n : Nat) : Nat :=
  if n < 2 * leadingBit then n else roundQuotient n (1 <<< spareBits n) <<< spareBits n

theorem hasBits_of_le {bits n : Nat} (h : n ≤ 1 <<< bits) : HasBits bits n :=
  ⟨n, 0, h, rfl⟩

/-- An integer of more than 53 bits lies between two powers of two, as many bits above the ends of
the significands as it has to spare. -/
theorem bounds_of_le {n : Nat} (h : 2 * leadingBit ≤ n) :
    0 < spareBits n ∧ n.log2 = 52 + spareBits n ∧ leadingBit * 2 ^ spareBits n ≤ n ∧
      n < 2 * leadingBit * 2 ^ spareBits n := by
  have hbit : leadingBit = 2 ^ 52 := rfl
  have hpos : n ≠ 0 := by
    rw [hbit] at h
    omega
  have hlog : 53 ≤ n.log2 := (Nat.le_log2 hpos).mpr h
  have hspare : n.log2 = 52 + spareBits n := by
    unfold spareBits
    omega
  have hlow : 2 ^ n.log2 ≤ n := Nat.log2_self_le hpos
  have hhigh : n < 2 ^ (n.log2 + 1) := Nat.lt_log2_self
  refine ⟨by omega, hspare, ?_, ?_⟩
  · rwa [hspare, Nat.pow_add] at hlow
  · rwa [hspare, Nat.pow_succ', Nat.pow_add, ← Nat.mul_assoc] at hhigh

/-- The rounded significand may reach the next power of two, but not pass it. -/
theorem roundQuotient_le {n : Nat} (h : 2 * leadingBit ≤ n) :
    leadingBit ≤ roundQuotient n (1 <<< spareBits n) ∧
      roundQuotient n (1 <<< spareBits n) ≤ 2 * leadingBit := by
  obtain ⟨-, -, hlow, hhigh⟩ := bounds_of_le h
  have hpow : 0 < 2 ^ spareBits n := Nat.two_pow_pos _
  have hquotient : leadingBit ≤ n / 2 ^ spareBits n := (Nat.le_div_iff_mul_le hpow).mpr hlow
  have hquotient' : n / 2 ^ spareBits n < 2 * leadingBit := (Nat.div_lt_iff_lt_mul hpow).mpr hhigh
  rw [Nat.one_shiftLeft]
  rcases roundQuotient_cases n (2 ^ spareBits n) with ⟨hq, -⟩ | ⟨hq, -⟩ <;> omega

theorem hasBits_nearestWhole (n : Nat) : HasBits 53 (nearestWhole n) := by
  unfold nearestWhole
  split
  · rename_i h
    exact hasBits_of_le (Nat.le_of_lt h)
  · rename_i h
    exact ⟨_, _, (roundQuotient_le (Nat.le_of_not_lt h)).2, rfl⟩

/-- Whole numbers of 53 bits are multiples of the power of two that counts, or else lie below all
numbers for which it does. -/
theorem HasBits.multiple_or_lt {y : Nat} (h : HasBits 53 y) {k : Nat} (hk : 0 < k) :
    (∃ t, y = t * 2 ^ k) ∨ y < leadingBit * 2 ^ k := by
  obtain ⟨s, j, hs, rfl⟩ := h
  rw [Nat.shiftLeft_eq]
  rcases Nat.lt_or_ge j k with hlt | hge
  · obtain ⟨i, rfl⟩ : ∃ i, k = j + 1 + i := ⟨k - (j + 1), by omega⟩
    have htwice : leadingBit * 2 ^ (j + 1 + i) = 1 <<< 53 * 2 ^ j * 2 ^ i := by
      rw [Nat.pow_add, Nat.pow_succ', ← Nat.mul_assoc, ← Nat.mul_assoc]
      rfl
    have hle : s * 2 ^ j ≤ 1 <<< 53 * 2 ^ j := Nat.mul_le_mul_right _ hs
    have hle' : 1 <<< 53 * 2 ^ j ≤ 1 <<< 53 * 2 ^ j * 2 ^ i :=
      Nat.le_mul_of_pos_right _ (Nat.two_pow_pos i)
    rw [htwice]
    rcases Nat.lt_or_eq_of_le (hle.trans hle') with hlt | heq
    · exact .inr hlt
    · exact .inl ⟨leadingBit, heq.trans htwice.symm⟩
  · refine .inl ⟨s * 2 ^ (j - k), ?_⟩
    rw [Nat.mul_assoc, ← Nat.pow_add, Nat.sub_add_cancel hge]

/-- No whole number of 53 bits is nearer. -/
theorem nearestWhole_nearest (n : Nat) {y : Nat} (hy : HasBits 53 y) :
    Nat.dist n (nearestWhole n) ≤ Nat.dist n y := by
  unfold nearestWhole
  split
  · rw [Nat.dist_self]
    exact Nat.zero_le _
  · rename_i h
    obtain ⟨hspare, -, hlow, -⟩ := bounds_of_le (Nat.le_of_not_lt h)
    have hpow : 0 < 2 ^ spareBits n := Nat.two_pow_pos _
    rw [Nat.one_shiftLeft, Nat.shiftLeft_eq]
    rcases hy.multiple_or_lt hspare with ⟨t, rfl⟩ | hlt
    · exact roundQuotient_nearest n hpow t
    · refine (roundQuotient_nearest n hpow leadingBit).trans ?_
      unfold Nat.dist
      omega

/-- If another whole number of 53 bits is as near, the last of the 53 bits is zero. -/
theorem hasBits_of_tie {n y : Nat} (hy : HasBits 53 y) (hne : y ≠ nearestWhole n)
    (htie : Nat.dist n y = Nat.dist n (nearestWhole n)) : HasBits 52 (nearestWhole n) := by
  unfold nearestWhole at *
  split
  · rename_i h
    rw [if_pos h] at hne htie
    rw [Nat.dist_self] at htie
    exact absurd (Nat.eq_of_dist_eq_zero htie).symm hne
  · rename_i h
    have hge := Nat.le_of_not_lt h
    obtain ⟨hspare, -, hlow, -⟩ := bounds_of_le hge
    have hpow : 0 < 2 ^ spareBits n := Nat.two_pow_pos _
    have hle := (roundQuotient_le hge).2
    rw [if_neg h] at hne htie
    rw [Nat.one_shiftLeft] at hle hne htie ⊢
    rw [Nat.shiftLeft_eq] at hne htie
    have heven : roundQuotient n (2 ^ spareBits n) % 2 = 0 := by
      rcases hy.multiple_or_lt hspare with ⟨t, rfl⟩ | hlt
      · exact even_roundQuotient hpow (fun heq => hne (by rw [heq])) htie
      · -- the power of two at the lower end would be nearer than `y`
        have hnearest := roundQuotient_nearest n hpow leadingBit
        unfold Nat.dist at hnearest htie
        omega
    refine ⟨roundQuotient n (2 ^ spareBits n) / 2, spareBits n + 1, ?_, ?_⟩
    · have hbit : 1 <<< 52 = leadingBit := rfl
      omega
    · rw [Nat.shiftLeft_eq, Nat.shiftLeft_eq, Nat.pow_succ', ← Nat.mul_assoc,
        Nat.div_mul_cancel (Nat.dvd_of_mod_eq_zero heven)]

/-! ## The nearest floating-point number -/

theorem exponentOf_of_le {n : Nat} (h : 2 * leadingBit ≤ n) : exponentOf n 1 = spareBits n := by
  obtain ⟨hspare, hlog, hlow, -⟩ := bounds_of_le h
  have hone : (1 : Nat).log2 = 0 := by decide
  have hguess : max ((n.log2 : Int) - ((1 : Nat).log2 : Int) - 52) minExponent = spareBits n := by
    rw [hone, minExponent]
    omega
  have hquotient : leadingBit ≤ n / 2 ^ spareBits n :=
    (Nat.le_div_iff_mul_le (Nat.two_pow_pos _)).mpr hlow
  unfold exponentOf
  dsimp only
  rw [hguess, if_neg]
  simp only [scale, Int.toNat_natCast, Nat.one_shiftLeft, Int.toNat_neg_natCast, Nat.shiftLeft_zero]
  omega

theorem whole?_carry (negative : Bool) (s k : Nat) :
    (carry negative s k).whole? =
      some (if negative then -((s <<< k : Nat) : Int) else s <<< k) := by
  have hmagnitude : ∀ t j : Nat, whole? ⟨negative, t, j⟩ =
      some (if negative then -((t <<< j : Nat) : Int) else t <<< j) := by
    intro t j
    simp [whole?, magnitude, signed, Nat.mod_one]
  unfold carry
  split
  · rename_i hs
    have hshift : leadingBit <<< (k + 1) = s <<< k := by
      rw [hs, Nat.shiftLeft_eq, Nat.shiftLeft_eq, Nat.pow_succ', ← Nat.mul_assoc,
        Nat.mul_comm leadingBit 2]
    rw [← hshift]
    exact hmagnitude leadingBit (k + 1)
  · exact hmagnitude s k

/-- A whole number is rounded to a whole number. -/
theorem whole?_round_eq (negative : Bool) (n : Nat) : (round negative n 1).whole? =
    some (if negative then -(nearestWhole n : Int) else nearestWhole n) := by
  by_cases h : n < 2 * leadingBit
  · rw [nearestWhole, if_pos h]
    exact whole?_round negative (Nat.le_of_lt h)
  · have hpos : n ≠ 0 := by
      have hbit : 0 < leadingBit := by decide
      omega
    unfold round
    dsimp only
    rw [if_neg hpos, exponentOf_of_le (Nat.le_of_not_lt h), nearestWhole, if_neg h, ← whole?_carry]
    simp [scale]

/-- The floating-point number nearest to an integer. -/
def nearestInt (n : Int) : Int :=
  if n < 0 then -(nearestWhole n.natAbs : Int) else nearestWhole n.natAbs

/-- An integer is rounded to an integer. -/
theorem whole?_ofInt_eq (n : Int) : (ofInt n).whole? = some (nearestInt n) := by
  rw [ofInt, whole?_round_eq, nearestInt]
  simp only [decide_eq_true_eq]

/-- A floating-point number is the nearest to an integer if no other is nearer, and, if another one
is as near, the last bit of its significand is zero. -/
structure IsNearest (n r : Int) : Prop where
  hasBits : HasBits 53 r.natAbs
  nearest : ∀ y : Int, HasBits 53 y.natAbs → (n - r).natAbs ≤ (n - y).natAbs
  even : ∀ y : Int, HasBits 53 y.natAbs → y ≠ r → (n - y).natAbs = (n - r).natAbs →
    HasBits 52 r.natAbs

theorem natAbs_nearestInt (n : Int) : (nearestInt n).natAbs = nearestWhole n.natAbs := by
  unfold nearestInt
  split <;> omega

/-- An integer and what it is rounded to lie on one side of zero. -/
theorem natAbs_sub_nearestInt (n : Int) :
    (n - nearestInt n).natAbs = Nat.dist n.natAbs (nearestWhole n.natAbs) := by
  unfold nearestInt Nat.dist
  split <;> omega

theorem isNearest_nearestInt (n : Int) : IsNearest n (nearestInt n) where
  hasBits := by
    rw [natAbs_nearestInt]
    exact hasBits_nearestWhole _
  nearest y hy := by
    have hdist : Nat.dist n.natAbs y.natAbs ≤ (n - y).natAbs := by
      unfold Nat.dist
      omega
    rw [natAbs_sub_nearestInt]
    exact (nearestWhole_nearest _ hy).trans hdist
  even y hy hne htie := by
    have hzero : HasBits 53 0 := hasBits_of_le (Nat.zero_le _)
    have hleast := nearestWhole_nearest n.natAbs hy
    have hfromZero := nearestWhole_nearest n.natAbs hzero
    rw [natAbs_sub_nearestInt] at htie
    rw [natAbs_nearestInt]
    -- two floating-point numbers on different sides of zero are not equally near
    have hside : Nat.dist n.natAbs y.natAbs = (n - y).natAbs := by
      unfold Nat.dist at *
      omega
    refine hasBits_of_tie hy (fun heq => hne ?_) (hside.trans htie)
    unfold nearestInt
    unfold Nat.dist at *
    split <;> omega

/-- Integers of 53 bits are kept, and no others are. -/
theorem nearestInt_eq_self_iff (n : Int) : nearestInt n = n ↔ HasBits 53 n.natAbs := by
  constructor
  · intro h
    rw [← h]
    exact (isNearest_nearestInt n).hasBits
  · intro h
    have hle := (isNearest_nearestInt n).nearest n h
    omega

/-! ## Integers of 64 bits -/

/-- The least integer of 64 bits with a sign is one of 53 bits, and so is the one 1023 below the
greatest. -/
theorem hasBits_ends : HasBits 53 (-0x8000000000000000 : Int).natAbs ∧
    HasBits 53 (0x7ffffffffffffc00 : Int).natAbs :=
  ⟨⟨1, 63, by decide, by decide⟩, ⟨0x1fffffffffffff, 10, by decide, by decide⟩⟩

/-- An integer of 64 bits with a sign is rounded to one, unless it is one of the last 512. -/
theorem nearestInt_fits {n : Int} (hlow : -0x8000000000000000 ≤ n)
    (hhigh : n < 0x7ffffffffffffe00) :
    -0x8000000000000000 ≤ nearestInt n ∧ nearestInt n < 0x8000000000000000 := by
  have hleast := (isNearest_nearestInt n).nearest (-0x8000000000000000) hasBits_ends.1
  have hgreatest := (isNearest_nearestInt n).nearest 0x7ffffffffffffc00 hasBits_ends.2
  omega

/-- The last 512 integers of 64 bits with a sign are rounded to the power of two behind them. -/
theorem ofInt_of_ge {n : Int} (hlow : 0x7ffffffffffffe00 ≤ n) (hhigh : n < 0x8000000000000000) :
    ofInt n = ⟨false, leadingBit, 11⟩ := by
  obtain ⟨m, rfl⟩ := Int.eq_ofNat_of_zero_le (show 0 ≤ n by omega)
  have hbit : leadingBit = 0x10000000000000 := rfl
  have hlog : m.log2 = 62 := (Nat.log2_eq_iff (by omega)).mpr (by omega)
  have hspare : spareBits m = 10 := by
    unfold spareBits
    omega
  -- the significand is rounded up, from halfway because it is odd, and so has one bit more
  have hquotient : roundQuotient m 1024 = 2 * leadingBit := by
    unfold roundQuotient
    dsimp only
    rw [if_neg (by omega)]
    split
    · omega
    · rw [if_neg (by omega)]
      omega
  have hsign : decide ((m : Int) < 0) = false := decide_eq_false (by omega)
  have hscale : scale m 1 10 = (m, 1024) := by simp [scale]
  unfold ofInt round
  dsimp only
  rw [Int.natAbs_natCast, if_neg (by omega), exponentOf_of_le (by omega), hspare, hsign]
  show carry false (roundQuotient (scale m 1 10).1 (scale m 1 10).2) 10 = _
  rw [hscale]
  show carry false (roundQuotient m 1024) 10 = _
  rw [hquotient, carry, if_pos rfl]
  rfl

end LedgerNode.Binary64
