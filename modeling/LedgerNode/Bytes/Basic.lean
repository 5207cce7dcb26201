/-!
# Byte strings

Scripts, hashes, attribute data and encoded transactions are all finite sequences of bytes.

- `Bytes`: a byte string, a list of bytes.
- `Bytes.ofNatLE`, `Bytes.toNatLE`: fixed-width numbers, least significant byte first; each undoes
  the other (`Bytes.toNatLE_ofNatLE`, `Bytes.ofNatLE_toNatLE`).
- `Bytes.ofText`, `Bytes.text?`: the UTF-8 form of a text and the text that a byte string spells.
-/

namespace LedgerNode

/-- A byte string. -/
abbrev Bytes := List UInt8

namespace Bytes

/-! ## Fixed-width numbers -/

/-- The `width` low-order bytes of a number, least significant first. -/
def ofNatLE : (width : Nat) → Nat → Bytes
  | 0, _ => []
  | width + 1, n => UInt8.ofNat (n % 256) :: ofNatLE width (n / 256)

/-- The number whose bytes are given least significant first. -/
def toNatLE : Bytes → Nat
  | [] => 0
  | b :: bs => b.toNat + 256 * toNatLE bs

@[simp] theorem length_ofNatLE (width n : Nat) : (ofNatLE width n).length = width := by
  induction width generalizing n with
  | zero => rfl
  | succ width ih => simp [ofNatLE, ih]

/-- Writing a number in `width` bytes keeps its remainder by `256` to the `width`. -/
theorem toNatLE_ofNatLE (width n : Nat) : toNatLE (ofNatLE width n) = n % Nat.pow 256 width := by
  induction width generalizing n with
  | zero => simp [ofNatLE, toNatLE, Nat.mod_one]
  | succ width ih =>
    have h : (UInt8.ofNat (n % 256)).toNat = n % 256 := by
      simp [UInt8.toNat_ofNat']
    have hpow : Nat.pow 256 (width + 1) = 256 * Nat.pow 256 width := Nat.pow_succ'
    rw [ofNatLE, toNatLE, ih, h, hpow, Nat.mod_mul]

/-- Reading a byte string as a number and writing it in as many bytes gives it back. -/
theorem ofNatLE_toNatLE (bs : Bytes) : ofNatLE bs.length (toNatLE bs) = bs := by
  induction bs with
  | nil => rfl
  | cons b bs ih =>
    have hb : b.toNat < 256 := b.toNat_lt
    rw [List.length_cons, ofNatLE, toNatLE, Nat.add_mul_mod_self_left, Nat.mod_eq_of_lt hb,
      Nat.add_mul_div_left _ _ (by omega), Nat.div_eq_of_lt hb, Nat.zero_add, ih]
    simp

/-- A byte string read as a number stays below `256` to its length. -/
theorem toNatLE_lt (bs : Bytes) : toNatLE bs < Nat.pow 256 bs.length := by
  induction bs with
  | nil => simp [toNatLE]
  | cons b bs ih =>
    have hb : b.toNat < 256 := b.toNat_lt
    have hpow : Nat.pow 256 (bs.length + 1) = 256 * Nat.pow 256 bs.length := Nat.pow_succ'
    rw [toNatLE, List.length_cons, hpow]
    omega

/-! ## Text -/

/-- The UTF-8 form of a text. -/
def ofText (s : String) : Bytes :=
  s.toByteArray.data.toList

/-- The text whose UTF-8 form is the given byte string, if there is one. -/
def text? (bs : Bytes) : Option String :=
  String.fromUTF8? bs.toByteArray

/-- A byte string spells a text exactly when it is that text's UTF-8 form. -/
theorem text?_eq_some_iff {bs : Bytes} {s : String} : bs.text? = some s ↔ bs = ofText s := by
  unfold text? ofText String.fromUTF8?
  constructor
  · intro h
    split at h
    · cases h
      simp [String.fromUTF8]
    · cases h
  · rintro rfl
    have h : (s.toByteArray.data.toList).toByteArray = s.toByteArray := by
      ext1
      simp
    simp only [h]
    rw [dif_pos s.isValidUTF8]
    rfl

@[simp] theorem text?_ofText (s : String) : (ofText s).text? = some s :=
  text?_eq_some_iff.2 rfl

/-- Texts of one UTF-8 form are equal. -/
theorem ofText_inj {s t : String} (h : ofText s = ofText t) : s = t :=
  Option.some.inj ((text?_ofText s).symm.trans (text?_eq_some_iff.2 h))

end Bytes

end LedgerNode
