import LedgerNode.Bytes.Hex
import LedgerNode.Text.Lossy

/-!
# Line feeds in UTF-8

In a UTF-8 form the byte of a line feed stands for a line feed and for nothing else, and where a
byte string is no UTF-8 it still does: a character of several bytes goes on with bytes beyond it
only.

- `Text.count_ofText`: a text has as many line feeds as its UTF-8 form has bytes of them.
- `Text.count_lossyChars`, `Text.count_ofBytesLossy`: so has the text that a byte string is shown
  as.
-/

namespace LedgerNode.Text

/-! ## UTF-8 forms -/

theorem lineFeed_ne_ofNat {n : Nat} (h : n % 256 ≠ 0x0a) : (0x0a : UInt8) ≠ UInt8.ofNat n := by
  intro heq
  have hnat := congrArg UInt8.toNat heq
  rw [UInt8.toNat_ofNat'] at hnat
  exact h hnat.symm

/-- Only a line feed has the byte of one in its UTF-8 form. -/
theorem lineFeed_not_mem_utf8EncodeChar {c : Char} (h : c ≠ '\n') :
    (0x0a : UInt8) ∉ String.utf8EncodeChar c := by
  have hvalue : c.val.toNat ≠ 0x0a := fun heq => h (Char.toNat_inj.mp heq)
  unfold String.utf8EncodeChar
  dsimp only
  -- one, two, three or four bytes
  split
  · rw [List.mem_singleton]
    exact lineFeed_ne_ofNat (by omega)
  · split
    · simp only [List.mem_cons, List.not_mem_nil, or_false, not_or]
      exact ⟨lineFeed_ne_ofNat (by omega), lineFeed_ne_ofNat (by omega)⟩
    · split
      · simp only [List.mem_cons, List.not_mem_nil, or_false, not_or]
        exact ⟨lineFeed_ne_ofNat (by omega), lineFeed_ne_ofNat (by omega),
          lineFeed_ne_ofNat (by omega)⟩
      · simp only [List.mem_cons, List.not_mem_nil, or_false, not_or]
        exact ⟨lineFeed_ne_ofNat (by omega), lineFeed_ne_ofNat (by omega),
          lineFeed_ne_ofNat (by omega), lineFeed_ne_ofNat (by omega)⟩

theorem count_utf8EncodeChar (c : Char) :
    (String.utf8EncodeChar c).count 0x0a = [c].count '\n' := by
  by_cases h : c = '\n'
  · subst h
    decide
  · rw [List.count_eq_zero.mpr (lineFeed_not_mem_utf8EncodeChar h), List.count_eq_zero.mpr]
    simpa using Ne.symm h

/-- A text has as many line feeds as its UTF-8 form has bytes of them. -/
theorem count_ofText (s : String) : (Bytes.ofText s).count 0x0a = s.toList.count '\n' := by
  have hchars : ∀ cs : List Char,
      (cs.flatMap String.utf8EncodeChar).count 0x0a = cs.count '\n' := by
    intro cs
    induction cs with
    | nil => rfl
    | cons c cs ih =>
      rw [List.flatMap_cons, List.count_append, count_utf8EncodeChar, ih, ← List.count_append,
        List.singleton_append]
  rw [← hchars, ← Hex.ofText_ofList, String.ofList_toList]

/-! ## Characters of several bytes -/

theorem continuation?_of_lt {lead : UInt8} (h : lead < 0x80) :
    continuation? lead = some (0, 0x80, 0xbf) := by
  unfold continuation?
  rw [if_pos h]

/-- Beyond the plain bytes, a first byte calls for others, which lie beyond the plain bytes too, and
the first of these makes sure that the character does. -/
theorem continuation?_of_le {lead low high : UInt8} {count : Nat} (h : 0x80 ≤ lead)
    (hlead : continuation? lead = some (count, low, high)) :
    0 < count ∧ 0x80 ≤ low ∧ ∀ b : UInt8, low ≤ b → b ≤ high →
      0x10 ≤ 64 * (lead.toNat % (64 >>> count)) + b.toNat % 64 := by
  unfold continuation? at hlead
  simp only [UInt8.le_iff_toNat_le, UInt8.lt_iff_toNat_lt, ← UInt8.toNat_inj] at h hlead ⊢
  -- one case for each kind of first byte
  repeat' split at hlead
  all_goals cases hlead
  all_goals simp only [UInt8.reduceToNat, Nat.reduceShiftRight, Nat.reduceLeDiff,
    Nat.zero_lt_succ, Nat.lt_irrefl, Std.le_refl, true_and, false_and] at *
  all_goals omega

theorem le_low {lead low high : UInt8} {count : Nat}
    (hlead : continuation? lead = some (count, low, high)) : 0x80 ≤ low := by
  by_cases h : lead < 0x80
  · rw [continuation?_of_lt h] at hlead
    cases hlead
    decide
  · exact (continuation?_of_le (UInt8.not_lt.mp h) hlead).2.1

/-- There is no line feed among the bytes that continue a character. -/
theorem count_drop_takeContinuation {low : UInt8} (hlow : 0x80 ≤ low) (count : Nat) (high : UInt8)
    (bs : Bytes) :
    (bs.drop (takeContinuation count low high bs).length).count 0x0a = bs.count 0x0a := by
  fun_induction takeContinuation count low high bs with
  | case1 low high count b bs hb ih =>
    have hne : b ≠ 0x0a := by
      rintro rfl
      exact absurd (UInt8.le_trans hlow hb.1) (by decide)
    rw [List.length_cons, List.drop_succ_cons, ih (by decide), List.count_cons_of_ne hne]
  | case2 => rfl
  | case3 => rfl

theorem of_takeContinuation_eq_cons {count : Nat} {low high b : UInt8} {bs tail : Bytes}
    (h : takeContinuation count low high bs = b :: tail) : low ≤ b ∧ b ≤ high := by
  unfold takeContinuation at h
  split at h
  · split at h
    · rename_i hb
      cases h
      exact hb
    · cases h
  · cases h

theorem le_foldl_continuation (n : Nat) (bs : Bytes) :
    n ≤ bs.foldl (fun n b => 64 * n + b.toNat % 64) n := by
  induction bs generalizing n with
  | nil => exact Nat.le_refl n
  | cons b bs ih =>
    have h := ih (64 * n + b.toNat % 64)
    rw [List.foldl_cons]
    omega

theorem ofNat_ne_lineFeed {n : Nat} (h : n ≠ 0x0a) : Char.ofNat n ≠ '\n' := by
  unfold Char.ofNat
  by_cases hvalid : n.isValidChar
  · rw [dif_pos hvalid]
    exact fun heq => h (congrArg Char.toNat heq)
  · rw [dif_neg hvalid]
    decide

theorem joinContinuation_ne {lead low high : UInt8} {count : Nat} {bs : Bytes} (h : 0x80 ≤ lead)
    (hlead : continuation? lead = some (count, low, high))
    (hlength : (takeContinuation count low high bs).length = count) :
    joinContinuation lead (takeContinuation count low high bs) ≠ '\n' := by
  obtain ⟨hpos, -, hfirst⟩ := continuation?_of_le h hlead
  cases htake : takeContinuation count low high bs with
  | nil =>
    rw [htake] at hlength
    exact absurd hlength (Nat.ne_of_lt hpos)
  | cons b tail =>
    obtain ⟨hlow, hhigh⟩ := of_takeContinuation_eq_cons htake
    -- the number is past the line feed behind `b`, and only grows from there on
    have hge := Nat.le_trans (hfirst b hlow hhigh) (le_foldl_continuation _ tail)
    rw [htake] at hlength
    unfold joinContinuation
    rw [if_neg (List.cons_ne_nil b tail), hlength]
    exact ofNat_ne_lineFeed (Nat.ne_of_gt (Nat.lt_of_lt_of_le (by decide) hge))

/-! ## Lossy texts -/

/-- A first byte gives a line feed just when it is one. -/
theorem joined_eq_lineFeed_iff {lead low high : UInt8} {count : Nat} (bs : Bytes)
    (hlead : continuation? lead = some (count, low, high)) :
    (if (takeContinuation count low high bs).length = count
      then joinContinuation lead (takeContinuation count low high bs) else '\ufffd') = '\n' ↔
      lead = 0x0a := by
  by_cases h : lead < 0x80
  · rw [continuation?_of_lt h] at hlead
    cases hlead
    have hnone : takeContinuation 0 0x80 0xbf bs = [] := by
      unfold takeContinuation
      rfl
    rw [hnone]
    show Char.ofNat lead.toNat = '\n' ↔ lead = 0x0a
    by_cases hfeed : lead = 0x0a
    · subst hfeed
      decide
    · exact iff_of_false (ofNat_ne_lineFeed fun hnat => hfeed (UInt8.toNat_inj.mp hnat)) hfeed
  · have hle : 0x80 ≤ lead := UInt8.not_lt.mp h
    refine iff_of_false ?_ ?_
    · split
      · rename_i hlength
        exact joinContinuation_ne hle hlead hlength
      · decide
    · rintro rfl
      exact absurd hle (by decide)

theorem count_lossyChars (bs : Bytes) : (lossyChars bs).count '\n' = bs.count 0x0a := by
  fun_induction lossyChars bs with
  | case1 => rfl
  | case2 lead rest hlead ih =>
    have hne : lead ≠ 0x0a := by
      rintro rfl
      cases hlead
    rw [List.count_cons_of_ne (by decide), List.count_cons_of_ne hne, ih]
  | case3 lead rest count low high hlead bs c ih =>
    have hc : c = '\n' ↔ lead = 0x0a := joined_eq_lineFeed_iff rest hlead
    rw [List.count_cons, List.count_cons, ih, count_drop_takeContinuation (le_low hlead)]
    simp only [beq_iff_eq, hc]

/-- A byte string is shown with a line feed for each byte of one, and with no others. -/
theorem count_ofBytesLossy (bs : Bytes) : (ofBytesLossy bs).toList.count '\n' = bs.count 0x0a := by
  unfold ofBytesLossy
  split
  · rename_i s hs
    rw [Bytes.text?_eq_some_iff.mp hs, count_ofText]
  · rw [String.toList_ofList, count_lossyChars]

end LedgerNode.Text
