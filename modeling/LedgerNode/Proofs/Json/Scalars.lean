import LedgerNode.Json.Reader
import LedgerNode.Json.Writer
import Mathlib.Data.List.Basic

/-!
# Texts and integers read back

What is written between quotes is read back character by character, and the digits of an integer are
read back up to where no number goes on.

- `Json.readText_toList`: a text and its closing quote, whatever characters it has.
- `Json.EndsNumber`, `Json.FitsInteger`: what may follow an integer, and which integers stay
  integers.
- `Json.readNumber_integer`: an integer.
-/

namespace LedgerNode.Json

/-! ## Texts -/

/-- Four digits that spell a control character. -/
theorem hexUnit?_control : ∀ n < 0x20,
    hexUnit? '0' '0' (Nat.digitChar (n / 16)) (Nat.digitChar (n % 16)) = some n := by
  decide

/-- Reading what is written for a character gives the character. -/
theorem readText_escape (c : Char) (sofar rest : List Char) :
    readText sofar (escape c ++ rest) = readText (c :: sofar) rest := by
  unfold escape
  split
  · simp [readText, escaped?]
  · simp [readText, escaped?]
  · simp [readText, escaped?]
  · simp [readText, escaped?]
  · simp [readText, escaped?]
  · simp [readText, escaped?]
  · simp [readText, escaped?]
  · split
    · -- a control character is no half of a pair
      rename_i hcontrol
      have hhigh : isHighHalf c.toNat = false := by
        simp only [isHighHalf, Bool.and_eq_false_iff, decide_eq_false_iff_not]
        omega
      have hlow : isLowHalf c.toNat = false := by
        simp only [isLowHalf, Bool.and_eq_false_iff, decide_eq_false_iff_not]
        omega
      simp [readText, hexUnit?_control c.toNat hcontrol, hhigh, hlow]
    · rename_i hquote hslash _ _ _ _ _ hcontrol
      rw [List.singleton_append, readText]
      · rw [if_neg hcontrol]
      all_goals grind

theorem readText_flatMap_escape (cs sofar rest : List Char) :
    readText sofar (cs.flatMap escape ++ '"' :: rest) =
      some (String.ofList (sofar.reverse ++ cs), rest) := by
  induction cs generalizing sofar with
  | nil =>
    rw [List.append_nil]
    rfl
  | cons c cs ih =>
    rw [List.flatMap_cons, List.append_assoc, readText_escape, ih, List.reverse_cons,
      List.append_assoc, List.singleton_append]

/-- Reading what is written between quotes gives the text. -/
theorem readText_toList (s : String) (rest : List Char) :
    readText [] (s.toList.flatMap escape ++ '"' :: rest) = some (s, rest) := by
  rw [readText_flatMap_escape, List.reverse_nil, List.nil_append, String.ofList_toList]

/-! ## Integers -/

/-- A numeral has no zero in front. -/
theorem toDigits_ne_zero_cons (n : Nat) (c : Char) (cs : List Char) :
    Nat.toDigits 10 n ≠ '0' :: c :: cs := by
  induction n using Nat.strongRecOn generalizing c cs with
  | _ n ih =>
    intro h
    rcases Nat.lt_or_ge n 10 with hlt | hge
    · rw [Nat.toDigits_of_lt_base hlt] at h
      exact absurd (List.tail_eq_of_cons_eq h) (List.cons_ne_nil c cs).symm
    · rw [Nat.toDigits_of_base_le (by decide) hge] at h
      have hpos : 0 < n / 10 := Nat.div_pos hge (by decide)
      rcases hfront : Nat.toDigits 10 (n / 10) with _ | ⟨x, _ | ⟨y, ys⟩⟩
      · exact Nat.toDigits_ne_nil hfront
      · rw [hfront] at h
        obtain rfl : x = '0' := List.head_eq_of_cons_eq h
        have hzero : Nat.ofDigitChars 10 (Nat.toDigits 10 (n / 10)) 0 = 0 := by
          rw [hfront]
          rfl
        rw [Nat.ofDigitChars_ten_toDigits] at hzero
        omega
      · rw [hfront] at h
        obtain rfl : x = '0' := List.head_eq_of_cons_eq h
        exact ih (n / 10) (Nat.div_lt_self (by omega) (by decide)) y ys hfront

/-- What follows does not go on with a number. -/
def EndsNumber (rest : List Char) : Prop :=
  ∀ c ∈ rest.head?, c.isDigit = false ∧ c ≠ '.' ∧ c ≠ 'e' ∧ c ≠ 'E'

theorem endsNumber_nil : EndsNumber [] :=
  nofun

theorem endsNumber_cons {c : Char} (h : c.isDigit = false ∧ c ≠ '.' ∧ c ≠ 'e' ∧ c ≠ 'E')
    (rest : List Char) : EndsNumber (c :: rest) := by
  rintro _ ⟨⟩
  exact h

theorem spanDigits_toDigits (n : Nat) {rest : List Char} (h : EndsNumber rest) :
    spanDigits (Nat.toDigits 10 n ++ rest) = (Nat.toDigits 10 n, rest) := by
  have hdigits : ∀ c ∈ Nat.toDigits 10 n, c.isDigit = true :=
    fun c hc => Nat.isDigit_of_mem_toDigits (by decide) (by decide) hc
  have hrest : rest.takeWhile Char.isDigit = [] ∧ rest.dropWhile Char.isDigit = rest := by
    cases rest with
    | nil => exact ⟨rfl, rfl⟩
    | cons c cs =>
      have hc : c.isDigit = false := (h c rfl).1
      simp [hc]
  unfold spanDigits
  rw [List.takeWhile_append_of_pos hdigits, List.dropWhile_append_of_pos hdigits, hrest.1, hrest.2,
    List.append_nil]

theorem readWholeDigits_toDigits (n : Nat) {rest : List Char} (h : EndsNumber rest) :
    readWholeDigits (Nat.toDigits 10 n ++ rest) = some (Nat.toDigits 10 n, rest) := by
  unfold readWholeDigits
  dsimp only
  rw [spanDigits_toDigits n h]
  split
  · rename_i hnil
    exact absurd (congrArg Prod.fst hnil) Nat.toDigits_ne_nil
  · rename_i hzero
    exact absurd (congrArg Prod.fst hzero) (toDigits_ne_zero_cons n _ _)
  · rename_i heq
    cases heq
    rfl

theorem readPlaces_of_ends {rest : List Char} (h : EndsNumber rest) :
    readPlaces rest = some (none, rest) := by
  unfold readPlaces
  split
  · exact absurd rfl (h '.' rfl).2.1
  · rfl

theorem readExponent_of_ends {rest : List Char} (h : EndsNumber rest) :
    readExponent rest = some (none, rest) := by
  unfold readExponent
  split
  · exact absurd rfl (h 'e' rfl).2.2.1
  · exact absurd rfl (h 'E' rfl).2.2.2
  · rfl

/-- Integers that fit in 64 bits, with or without sign. -/
def FitsInteger (n : Int) : Prop :=
  Int64.minValue.toInt ≤ n ∧ n < UInt64.size

theorem fitsInteger_iff {n : Int} :
    FitsInteger n ↔ -0x8000000000000000 ≤ n ∧ n < 0x10000000000000000 := by
  have hmin : Int64.minValue.toInt = -0x8000000000000000 := by decide
  unfold FitsInteger
  rw [hmin]
  exact Iff.rfl

theorem ofLiteral_toDigits {n : Int} (h : FitsInteger n) :
    ofLiteral (n < 0) (Nat.toDigits 10 n.natAbs) none none = some (.integer n) := by
  obtain ⟨hlow, hhigh⟩ := h
  unfold ofLiteral
  rw [Nat.ofDigitChars_ten_toDigits]
  by_cases hneg : n < 0
  · have habs : -(n.natAbs : Int) = n := by omega
    have hpos : 0 < n.natAbs := by omega
    simp only [hneg, habs, hpos, hlow, decide_true, and_self, if_true, Option.isSome_none,
      Bool.or_self, Bool.false_eq_true, if_false]
  · have habs : (n.natAbs : Int) = n := by omega
    have hlt : n.natAbs < UInt64.size := by omega
    simp only [hneg, habs, hlt, decide_false, if_true, Option.isSome_none, Bool.or_self,
      Bool.false_eq_true, if_false]

theorem toList_integer (n : Int) :
    (Text.integer n).toList =
      if n < 0 then '-' :: Nat.toDigits 10 n.natAbs else Nat.toDigits 10 n.natAbs := by
  unfold Text.integer Text.numeral
  split
  · simp
  · simp

theorem exists_toDigits_eq_cons (n : Nat) :
    ∃ c cs, Nat.toDigits 10 n = c :: cs ∧ c.isDigit = true := by
  rcases h : Nat.toDigits 10 n with _ | ⟨c, cs⟩
  · exact absurd h Nat.toDigits_ne_nil
  · refine ⟨c, cs, rfl, Nat.isDigit_of_mem_toDigits (b := 10) (n := n) (by decide) (by decide) ?_⟩
    rw [h]
    exact List.mem_cons_self

/-- An integer is read back from its digits, up to where no number goes on. -/
theorem readNumber_integer {n : Int} (hn : FitsInteger n) {rest : List Char}
    (h : EndsNumber rest) :
    readNumber ((Text.integer n).toList ++ rest) = some (.integer n, rest) := by
  have hwhole := readWholeDigits_toDigits n.natAbs h
  have hliteral := ofLiteral_toDigits hn
  rw [toList_integer]
  by_cases hneg : n < 0
  · rw [decide_eq_true hneg] at hliteral
    rw [if_pos hneg]
    unfold readNumber
    simp [hwhole, readPlaces_of_ends h, readExponent_of_ends h, hliteral]
  · rw [decide_eq_false hneg] at hliteral
    rw [if_neg hneg]
    -- without a sign the first character is a digit
    have hsign : ∀ cs, Nat.toDigits 10 n.natAbs ++ rest ≠ '-' :: cs := by
      obtain ⟨c, cs, hdigits, hc⟩ := exists_toDigits_eq_cons n.natAbs
      rw [hdigits]
      rintro _ ⟨⟩
      cases hc
    unfold readNumber
    split
    rename_i hcs
    split at hcs
    · exact absurd ‹_› (hsign _)
    · cases hcs
      simp [hwhole, readPlaces_of_ends h, readExponent_of_ends h, hliteral]

end LedgerNode.Json
