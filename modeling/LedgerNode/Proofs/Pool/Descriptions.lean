import LedgerNode.Proofs.Pool.History
import Mathlib.Algebra.Order.Floor.Div

/-!
# Byte strings cut into descriptions

A byte string that is too long for one attribute is cut into several. What is left behind each cut
is cut in the same way, so a piece can only be short when nothing is left. The cuts are as far apart
as a pool lets an attribute be long, so that a transfer of the attributes is never turned away for
what it holds.

- `Transaction.flatten_pieces`, `Transaction.length_pieces`: the pieces make up the byte string, and
  how many there are.
- `Transaction.length_of_mem_pieces`, `Transaction.length_of_mem_dropLast_pieces`: how long a piece
  may be, and that only the last one may be short.
- `Transaction.describe_inj`: byte strings with the same attributes are equal.
- `Pool.check_transfer_describe`: a transfer of the attributes passes the check of a pool.
- `Transaction.describe_lossless_and_taken`: all of this for a byte string as it is recorded.
-/

namespace LedgerNode

namespace Transaction

variable {size : Nat} {data p : Bytes}

/-! ## Pieces -/

/-- The pieces of a byte string, one behind the other, are the byte string. -/
theorem flatten_pieces (size : Nat) (data : Bytes) : (pieces size data).flatten = data := by
  induction data using pieces.induct size with
  | case1 => simp [pieces]
  | case2 b bs ih => rw [pieces, List.flatten_cons, ih, List.cons_append, List.take_append_drop]

theorem length_of_mem_pieces (hsize : 0 < size) (h : p ∈ pieces size data) :
    0 < p.length ∧ p.length ≤ size := by
  induction data using pieces.induct size with
  | case1 =>
    rw [pieces] at h
    cases h
  | case2 b bs ih =>
    rw [pieces, List.mem_cons] at h
    rcases h with rfl | h
    · rw [List.length_cons, List.length_take]
      omega
    · exact ih h

/-- Every piece but the last is full. -/
theorem length_of_mem_dropLast_pieces (hsize : 0 < size) (h : p ∈ (pieces size data).dropLast) :
    p.length = size := by
  induction data using pieces.induct size with
  | case1 =>
    rw [pieces] at h
    cases h
  | case2 b bs ih =>
    rw [pieces] at h
    cases hleft : bs.drop (size - 1) with
    | nil =>
      -- the first piece is the last one as well
      rw [hleft, pieces] at h
      cases h
    | cons c cs =>
      have hmore := congrArg List.length hleft
      rw [List.length_drop, List.length_cons] at hmore
      have hne : pieces size (bs.drop (size - 1)) ≠ [] := by
        rw [hleft, pieces]
        exact List.cons_ne_nil _ _
      rw [List.dropLast_cons_of_ne_nil hne, List.mem_cons] at h
      rcases h with rfl | h
      · rw [List.length_cons, List.length_take]
        omega
      · exact ih h

/-- There are as many pieces as it takes to hold all bytes. -/
theorem length_pieces (hsize : 0 < size) (data : Bytes) :
    (pieces size data).length = data.length ⌈/⌉ size := by
  induction data using pieces.induct size with
  | case1 =>
    rw [pieces]
    exact (zero_ceilDiv size).symm
  | case2 b bs ih =>
    rw [pieces, List.length_cons, ih, List.length_drop, List.length_cons]
    -- the first piece takes all bytes, or it is full
    rcases Nat.lt_or_ge bs.length size with hshort | hlong
    · have hnone : bs.length - (size - 1) = 0 := by omega
      have hone : bs.length + 1 + size - 1 = bs.length + size := by omega
      rw [hnone, zero_ceilDiv, Nat.ceilDiv_eq_add_pred_div, hone, Nat.add_div_right _ hsize,
        Nat.div_eq_of_lt hshort]
    · have hmore : bs.length + 1 + size - 1 = bs.length - (size - 1) + size - 1 + size := by omega
      rw [Nat.ceilDiv_eq_add_pred_div, Nat.ceilDiv_eq_add_pred_div, hmore,
        Nat.add_div_right _ hsize]

/-! ## Attributes -/

@[simp] theorem Attribute.data_description (data : Bytes) : (description data).data = data := rfl

theorem Attribute.description_inj {a b : Bytes} (h : description a = description b) : a = b :=
  congrArg Attribute.data h

theorem map_data_describe (data : Bytes) :
    (describe data).map Attribute.data = pieces Attribute.maxLength data := by
  unfold describe
  rw [List.map_map]
  exact List.map_id _

/-- The attributes hold the byte string, one part behind the other. -/
theorem flatten_describe (data : Bytes) : ((describe data).map Attribute.data).flatten = data := by
  rw [map_data_describe, flatten_pieces]

theorem describe_inj {a b : Bytes} (h : describe a = describe b) : a = b := by
  rw [← flatten_describe a, h, flatten_describe]

theorem length_describe (data : Bytes) :
    (describe data).length = data.length ⌈/⌉ Attribute.maxLength := by
  rw [describe, List.length_map]
  exact length_pieces (by decide) data

/-- No description attribute is empty or too long. -/
theorem length_of_mem_describe {a : Attribute} (h : a ∈ describe data) :
    0 < a.data.length ∧ a.data.length ≤ Attribute.maxLength := by
  obtain ⟨p, hp, rfl⟩ := List.mem_map.mp h
  exact length_of_mem_pieces (by decide) hp

theorem length_of_mem_dropLast_describe {a : Attribute} (h : a ∈ (describe data).dropLast) :
    a.data.length = Attribute.maxLength := by
  rw [describe, ← List.map_dropLast] at h
  obtain ⟨p, hp, rfl⟩ := List.mem_map.mp h
  exact length_of_mem_dropLast_pieces (by decide) hp

end Transaction

namespace Pool

/-! ## Submitting -/

/-- A transfer of description attributes passes the check. -/
theorem check_transfer_describe (data : Bytes) :
    check (.transfer (Transaction.describe data)) = .ok () := by
  refine check_eq_ok_iff.mpr ⟨fun a ha => (Transaction.length_of_mem_describe ha).2, ?_⟩
  intro hkind
  cases hkind

end Pool

namespace Transaction

/-- The attributes of a byte string, one behind the other, are the byte string. There are as many as
it takes at 252 bytes each, none for no bytes; all but the last hold 252 bytes, and the last holds
between one and 252. Another byte string has other attributes. And no pool refuses a transfer of the
attributes for their length or for want of a payload: it takes the transfer unless one of the same
hash is pending. -/
theorem describe_lossless_and_taken (data : Bytes) :
    (describe data).flatMap Attribute.data = data ∧
    (describe data).length = data.length ⌈/⌉ 252 ∧
    (∀ a ∈ (describe data).dropLast, a.data.length = 252) ∧
    (∀ a ∈ (describe data).getLast?, 1 ≤ a.data.length ∧ a.data.length ≤ 252) ∧
    (∀ other, other ≠ data → describe other ≠ describe data) ∧
    ∀ pool : Pool,
      let tx := transfer (describe data)
      (∀ length, (pool.submit tx).1 ≠ .error (.attributeTooLong length)) ∧
      (pool.submit tx).1 ≠ .error .emptyRecord ∧
      (pool.submit tx).1 =
        if pool.contains tx.hash then .error (.duplicate tx.hash) else .ok () := by
  refine ⟨?_, length_describe data, fun a ha => length_of_mem_dropLast_describe ha, ?_, ?_, ?_⟩
  · rw [List.flatMap_def, flatten_describe]
  · intro a ha
    exact length_of_mem_describe (List.mem_of_getLast? ha)
  · intro other hne h
    exact hne (describe_inj h)
  · intro pool tx
    have hcheck : Pool.check tx = .ok () := Pool.check_transfer_describe data
    refine ⟨fun length h => ?_, fun h => ?_, Pool.submit_of_check hcheck pool⟩
    · cases Pool.eq_duplicate_of_check hcheck h
    · cases Pool.eq_duplicate_of_check hcheck h

/-- Two full attributes are all that 504 bytes come to: there is no empty one behind them. An empty
pool takes them. -/
theorem describe_lossless_and_taken_two_full :
    ∃ a b, describe (List.replicate 504 7) = [a, b] ∧ a.data.length = 252 ∧ b.data.length = 252 ∧
      describe (List.replicate 505 7) ≠ [a, b] ∧ (Pool.submit (transfer [a, b]) ∅).1 = .ok () := by
  obtain ⟨hwhole, hcount, hfull, -, hother, htaken⟩ :=
    describe_lossless_and_taken (List.replicate 504 7)
  rw [List.length_replicate] at hcount
  obtain ⟨a, b, hab⟩ := List.length_eq_two.mp hcount
  rw [hab] at hwhole hfull hother htaken
  have hlength := congrArg List.length hwhole
  have ha : a.data.length = 252 := hfull a List.mem_cons_self
  have hne : List.replicate 505 (7 : UInt8) ≠ List.replicate 504 7 := by
    intro h
    have hlengths := congrArg List.length h
    rw [List.length_replicate, List.length_replicate] at hlengths
    cases hlengths
  refine ⟨a, b, hab, ha, ?_, hother _ hne, ?_⟩
  · simp only [List.flatMap_cons, List.flatMap_nil, List.append_nil, List.length_append,
      List.length_replicate] at hlength
    omega
  · rw [(htaken ∅).2.2, Pool.contains_empty]
    rfl

end Transaction

end LedgerNode
