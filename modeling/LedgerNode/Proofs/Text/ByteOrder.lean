import LedgerNode.Bytes.Hex

/-!
# Texts in the order of their bytes

Texts are ordered by their characters and byte strings by their bytes. The UTF-8 form of a text
keeps the order: of two characters the greater one has the greater first byte, or the same first
byte and as many bytes behind it, which hold the rest of its bits with the highest ones in front.

- `Bytes.leadOf`, `Bytes.tailLength`, `Bytes.tailOf`: the first byte of a character's form, and
  those behind it (`Bytes.utf8EncodeChar_eq`).
- `Bytes.utf8EncodeChar_append_lt`: the forms of two characters, whatever follows them.
- `Bytes.ofText_lt_ofText_iff`: texts.
-/

namespace LedgerNode.Bytes

/-! ## The form of a character -/

/-- The first byte of the form of the character with a given number. -/
def leadOf (n : Nat) : Nat :=
  if n ≤ 127 then n
  else if n ≤ 2047 then n / 64 + 192
  else if n ≤ 65535 then n / 4096 + 224
  else n / 262144 + 240

/-- How many bytes follow the first one. -/
def tailLength (n : Nat) : Nat :=
  if n ≤ 127 then 0
  else if n ≤ 2047 then 1
  else if n ≤ 65535 then 2
  else 3

/-- The bytes behind the first one hold six bits each. -/
def tailOf : (length : Nat) → Nat → Bytes
  | 0, _ => []
  | length + 1, n => UInt8.ofNat (n / Nat.pow 64 length % 64 + 128) :: tailOf length n

theorem toNat_lt (c : Char) : c.toNat < 1114112 := by
  rcases c.valid with h | h
  · exact Nat.lt_trans h (by decide)
  · exact h.2

theorem utf8EncodeChar_eq (c : Char) : String.utf8EncodeChar c =
    UInt8.ofNat (leadOf c.toNat) :: tailOf (tailLength c.toNat) c.toNat := by
  have hlt := toNat_lt c
  have hone : Nat.pow 64 0 = 1 := rfl
  have hbits : Nat.pow 64 1 = 64 := rfl
  have hbits' : Nat.pow 64 2 = 4096 := rfl
  have heq : c.val.toNat = c.toNat := rfl
  unfold String.utf8EncodeChar leadOf tailLength
  dsimp only
  rw [heq]
  split
  · rfl
  · split
    · simp only [tailOf, hone, Nat.div_one]
      rw [Nat.mod_eq_of_lt (by omega)]
    · split
      · simp only [tailOf, hone, hbits, Nat.div_one]
        rw [Nat.mod_eq_of_lt (by omega)]
      · simp only [tailOf, hone, hbits, hbits', Nat.div_one]
        rw [Nat.mod_eq_of_lt (by omega)]

theorem leadOf_lt {n : Nat} (h : n < 1114112) : leadOf n < 256 := by
  unfold leadOf
  split <;> (try split) <;> (try split) <;> omega

/-- A greater character has a greater first byte, or differs from the other one behind it. -/
theorem leadOf_lt_or_eq {m n : Nat} (h : m < n) (hn : n < 1114112) : leadOf m < leadOf n ∨
    (leadOf m = leadOf n ∧ tailLength m = tailLength n ∧
      m / Nat.pow 64 (tailLength n) = n / Nat.pow 64 (tailLength n)) := by
  have hone : Nat.pow 64 0 = 1 := rfl
  have hbits : Nat.pow 64 1 = 64 := rfl
  have hbits' : Nat.pow 64 2 = 4096 := rfl
  have hbits'' : Nat.pow 64 3 = 262144 := rfl
  unfold leadOf tailLength
  by_cases h1 : n ≤ 127
  · simp only [if_pos h1, if_pos (show m ≤ 127 by omega)]
    omega
  · by_cases h2 : n ≤ 2047
    · simp only [if_neg h1, if_pos h2, hbits]
      split
      · omega
      · simp only [if_pos (show m ≤ 2047 by omega), true_and]
        omega
    · by_cases h3 : n ≤ 65535
      · simp only [if_neg h1, if_neg h2, if_pos h3, hbits']
        split
        · omega
        · split
          · omega
          · simp only [if_pos (show m ≤ 65535 by omega), true_and]
            omega
      · simp only [if_neg h1, if_neg h2, if_neg h3, hbits'']
        split
        · omega
        · split
          · omega
          · split <;> omega

/-! ## Order -/

/-- Of two numbers with the same bits in front, the bytes for the others are in the order of the
numbers, whatever follows them. -/
theorem tailOf_append_lt (length : Nat) {m n : Nat}
    (h : m % Nat.pow 64 length < n % Nat.pow 64 length) (r s : Bytes) :
    tailOf length m ++ r < tailOf length n ++ s := by
  induction length with
  | zero =>
    have hone : Nat.pow 64 0 = 1 := rfl
    rw [hone] at h
    omega
  | succ length ih =>
    have hstep : ∀ k, k % Nat.pow 64 (length + 1) =
        k % Nat.pow 64 length + Nat.pow 64 length * (k / Nat.pow 64 length % 64) :=
      fun k => Nat.mod_pow_succ
    have hpos : 0 < Nat.pow 64 length := Nat.pow_pos (by decide)
    have hlow : m % Nat.pow 64 length < Nat.pow 64 length := Nat.mod_lt _ hpos
    have hlow' : n % Nat.pow 64 length < Nat.pow 64 length := Nat.mod_lt _ hpos
    rw [hstep, hstep] at h
    simp only [tailOf, List.cons_append, List.cons_lt_cons_iff, UInt8.lt_iff_toNat_lt,
      UInt8.toNat_ofNat']
    rcases Nat.lt_trichotomy (m / Nat.pow 64 length % 64) (n / Nat.pow 64 length % 64) with
      hlt | heq | hgt
    · exact .inl (by omega)
    · rw [heq] at h ⊢
      exact .inr ⟨rfl, ih (by omega)⟩
    · have hmul := Nat.mul_le_mul_left (Nat.pow 64 length) (Nat.succ_le_of_lt hgt)
      rw [Nat.mul_succ] at hmul
      omega

/-- The forms of two characters are in the order of the characters, whatever follows them. -/
theorem utf8EncodeChar_append_lt {c d : Char} (h : c < d) (r s : Bytes) :
    String.utf8EncodeChar c ++ r < String.utf8EncodeChar d ++ s := by
  have hlt : c.toNat < d.toNat := h
  have hlead := leadOf_lt (toNat_lt c)
  have hlead' := leadOf_lt (toNat_lt d)
  rw [utf8EncodeChar_eq, utf8EncodeChar_eq, List.cons_append, List.cons_append,
    List.cons_lt_cons_iff, UInt8.lt_iff_toNat_lt, UInt8.toNat_ofNat', UInt8.toNat_ofNat',
    Nat.mod_eq_of_lt hlead, Nat.mod_eq_of_lt hlead']
  rcases leadOf_lt_or_eq hlt (toNat_lt d) with hless | ⟨heq, hlength, hquotient⟩
  · exact .inl hless
  · refine .inr ⟨by rw [heq], ?_⟩
    rw [hlength]
    refine tailOf_append_lt _ ?_ r s
    have hsplit := Nat.div_add_mod c.toNat (Nat.pow 64 (tailLength d.toNat))
    have hsplit' := Nat.div_add_mod d.toNat (Nat.pow 64 (tailLength d.toNat))
    rw [hquotient] at hsplit
    omega

theorem flatMap_utf8EncodeChar_lt {cs ds : List Char} (h : cs < ds) :
    cs.flatMap String.utf8EncodeChar < ds.flatMap String.utf8EncodeChar := by
  induction ds generalizing cs with
  | nil => exact absurd h (List.not_lt_nil cs)
  | cons d ds ih =>
    cases cs with
    | nil =>
      rw [List.flatMap_nil, List.flatMap_cons, utf8EncodeChar_eq, List.cons_append]
      exact List.nil_lt_cons _ _
    | cons c cs =>
      rw [List.flatMap_cons, List.flatMap_cons]
      rcases List.cons_lt_cons_iff.mp h with hlt | ⟨rfl, hlt⟩
      · exact utf8EncodeChar_append_lt hlt _ _
      · have hrest : cs.flatMap String.utf8EncodeChar < ds.flatMap String.utf8EncodeChar := ih hlt
        rw [utf8EncodeChar_eq]
        exact List.append_left_lt hrest

/-- The order of texts is that of their bytes. -/
theorem ofText_lt_ofText_iff {s t : String} : ofText s < ofText t ↔ s < t := by
  have hforward : ∀ {s t : String}, s < t → ofText s < ofText t := by
    intro s t h
    rw [← String.ofList_toList (s := s), ← String.ofList_toList (s := t), Hex.ofText_ofList,
      Hex.ofText_ofList]
    exact flatMap_utf8EncodeChar_lt (String.lt_iff.mp h)
  refine ⟨fun h => ?_, hforward⟩
  rcases Decidable.em (t ≤ s) with hle | hnle
  · rcases Decidable.em (s = t) with rfl | hne
    · exact absurd h (List.lt_irrefl _)
    · have hgt : t < s := String.not_le.mp fun hge => hne (String.le_antisymm hge hle)
      exact absurd h (List.lt_asymm (hforward hgt))
  · exact String.not_le.mp hnle

end LedgerNode.Bytes
