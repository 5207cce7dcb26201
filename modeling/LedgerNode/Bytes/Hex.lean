import LedgerNode.Bytes.Basic
import LedgerNode.Text.Quoted

/-!
# Hexadecimal text

Two digits per byte, high half first. Writing uses lowercase digits; reading takes both cases.

- `Bytes.toHex`: the digits of a byte string.
- `Bytes.ofHex`: the byte string that a text of digits denotes, or what is wrong with the text.
- `Hex.Error`: an odd number of digits, or the first character that is no digit.
- `Bytes.ofHex_toHex`: reading undoes writing.
-/

namespace LedgerNode

/-- Why a text is not the hexadecimal form of a byte string. -/
inductive Hex.Error where
  /-- The text has an odd number of bytes. -/
  | oddLength
  /-- The byte at an index, shown as the character with that code point, is no digit. -/
  | invalidCharacter (c : Char) (index : Nat)
deriving DecidableEq, Repr

namespace Hex

/-- The wording of an error. -/
def Error.message : Error → String
  | .oddLength => "Odd number of digits"
  | .invalidCharacter c index =>
    "Invalid character " ++ Text.quoteChar c ++ " at position " ++ Text.numeral index

/-- The value of a digit given by its ASCII code. -/
def digitValue? (b : UInt8) : Option Nat :=
  let n := b.toNat
  if 48 ≤ n ∧ n ≤ 57 then some (n - 48)
  else if 97 ≤ n ∧ n ≤ 102 then some (n - 87)
  else if 65 ≤ n ∧ n ≤ 70 then some (n - 55)
  else none

/-- The two digits of a byte. -/
def digits (b : UInt8) : List Char :=
  [Nat.digitChar (b.toNat / 16), Nat.digitChar (b.toNat % 16)]

/-- Reads the digit at an index. -/
def readDigit (index : Nat) (b : UInt8) : Except Error Nat :=
  match digitValue? b with
  | some n => .ok n
  | none => .error (.invalidCharacter (Char.ofNat b.toNat) index)

/-- Reads pairs of digits, the first of them at `index`. -/
def readPairs (index : Nat) : Bytes → Except Error Bytes
  | high :: low :: rest => do
    let h ← readDigit index high
    let l ← readDigit (index + 1) low
    let bs ← readPairs (index + 2) rest
    return UInt8.ofNat (16 * h + l) :: bs
  | [_] => .error .oddLength
  | [] => .ok []

/-! ## Digits read back -/

/-- A digit takes one byte and is read as the number that it was written for. -/
theorem read_digitChar : ∀ n < 16, ∃ b, String.utf8EncodeChar (Nat.digitChar n) = [b] ∧
    digitValue? b = some n := by
  intro n h
  have key : ∀ n : Fin 16, String.utf8EncodeChar (Nat.digitChar n) =
      [UInt8.ofNat (Nat.digitChar n).toNat] ∧
      digitValue? (UInt8.ofNat (Nat.digitChar n).toNat) = some n.val := by decide
  exact ⟨_, key ⟨n, h⟩⟩

/-- Reading the digits of a byte string gives it back. -/
theorem readPairs_digits (index : Nat) (bs : Bytes) :
    readPairs index ((bs.flatMap digits).flatMap String.utf8EncodeChar) = .ok bs := by
  induction bs generalizing index with
  | nil => rfl
  | cons b bs ih =>
    have hb : b.toNat < 256 := b.toNat_lt
    obtain ⟨high, hhigh, vhigh⟩ := read_digitChar (b.toNat / 16) (by omega)
    obtain ⟨low, hlow, vlow⟩ := read_digitChar (b.toNat % 16) (by omega)
    have hsum : UInt8.ofNat (16 * (b.toNat / 16) + b.toNat % 16) = b := by
      rw [Nat.div_add_mod, UInt8.ofNat_toNat]
    simp only [List.flatMap_cons, digits, hhigh, hlow, List.cons_append, List.nil_append,
      readPairs, readDigit, vhigh, vlow, ih, bind, Except.bind, pure, Except.pure, hsum]

theorem length_utf8_digits (bs : Bytes) :
    ((bs.flatMap digits).flatMap String.utf8EncodeChar).length = 2 * bs.length := by
  induction bs with
  | nil => rfl
  | cons b bs ih =>
    have hb : b.toNat < 256 := b.toNat_lt
    obtain ⟨high, hhigh, -⟩ := read_digitChar (b.toNat / 16) (by omega)
    obtain ⟨low, hlow, -⟩ := read_digitChar (b.toNat % 16) (by omega)
    simp only [List.flatMap_cons, digits, hhigh, hlow, List.cons_append, List.nil_append,
      List.length_cons, ih]
    omega

theorem ofText_ofList (cs : List Char) :
    Bytes.ofText (String.ofList cs) = cs.flatMap String.utf8EncodeChar := by
  simp [Bytes.ofText, List.utf8Encode]

end Hex

namespace Bytes

/-- The lowercase hexadecimal digits of a byte string. -/
def toHex (bs : Bytes) : String :=
  String.ofList (bs.flatMap Hex.digits)

/-- The byte string that a text of hexadecimal digits denotes. -/
def ofHex (s : String) : Except Hex.Error Bytes :=
  let digits := ofText s
  if digits.length % 2 = 0 then Hex.readPairs 0 digits else .error .oddLength

/-- Reading the digits of a byte string gives it back. -/
@[simp] theorem ofHex_toHex (bs : Bytes) : ofHex bs.toHex = .ok bs := by
  rw [ofHex, toHex, Hex.ofText_ofList, Hex.length_utf8_digits, Hex.readPairs_digits]
  simp

/-- The digits of a byte string denote it. -/
theorem toHex_inj {a b : Bytes} (h : a.toHex = b.toHex) : a = b := by
  have hread := congrArg ofHex h
  rw [ofHex_toHex, ofHex_toHex] at hread
  exact Except.ok.inj hread

/-- The text form of a byte string in diagnostics. -/
def debugText (bs : Bytes) : String :=
  "Bytes(0x" ++ bs.toHex ++ ")"

end Bytes

end LedgerNode
