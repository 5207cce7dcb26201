import LedgerNode.Proofs.Pool.History
import LedgerNode.Proofs.Wire.Exactness

/-!
# What a pool takes can be read back

Pending transactions are passed on as messages. The pool bounds what an attribute carries, far below
the greatest length that is read; but how many attributes there are, and how long a record and its
type are, only the reader bounds.

- `Pool.admitted_reads_back_iff`: which of the transactions that a pool takes can be read back from
  their messages.
- `Pool.admitted_longType`: one that cannot.
-/

namespace LedgerNode

namespace Pool

variable {tx : Transaction} {pool pool' : Pool}

theorem check_of_submit (h : pool.submit tx = (.ok (), pool')) : check tx = .ok () := by
  rcases submit_cases tx pool with ⟨hcheck, -, -⟩ | ⟨refusal, herror⟩
  · exact hcheck
  · rw [herror] at h
    cases h

/-- An empty pool takes every transaction that passes the check. -/
theorem submit_empty (h : check tx = .ok ()) : ∃ pool', submit tx ∅ = (.ok (), pool') :=
  ⟨_, submit_of_not_contains h (contains_empty tx.hash)⟩

/-- The attributes of a transaction that passes the check are short enough to be read. -/
theorem inLimits_of_check (h : check tx = .ok ()) :
    Wire.Format.transaction.InLimits tx ↔ tx.attributes.length ≤ Wire.maxLength ∧
      ∀ p ∈ tx.payload, (Bytes.ofText p.recordType).length ≤ Wire.maxLength ∧
        p.data.length ≤ Wire.maxLength := by
  have hattributes : ∀ a ∈ tx.attributes, a.data.length ≤ Wire.maxLength := by
    intro a ha
    exact Nat.le_trans ((check_eq_ok_iff.mp h).1 a ha) (by decide)
  constructor
  · rintro ⟨hcount, -, hpayload⟩
    exact ⟨hcount, hpayload⟩
  · rintro ⟨hcount, hpayload⟩
    exact ⟨hcount, hattributes, hpayload⟩

/-- A transaction that a pool takes can be read back from its message exactly when it has at most a
million attributes and its payload, if it has one, a type and data of at most a million bytes each.
-/
theorem admitted_reads_back_iff (h : pool.submit tx = (.ok (), pool')) :
    Transaction.codec.ofBytes tx.message = .ok tx ↔
      tx.attributes.length ≤ 1000000 ∧
      ∀ p ∈ tx.payload, (Bytes.ofText p.recordType).length ≤ 1000000 ∧ p.data.length ≤ 1000000 := by
  have hread : Transaction.codec.ofBytes tx.message = .ok tx ↔
      Wire.Format.transaction.InLimits tx := by
    rw [Wire.exact_transaction.ofBytes_eq_ok_iff]
    exact and_iff_right rfl
  exact hread.trans (inLimits_of_check (check_of_submit h))

/-- A record of one byte is taken and read back. -/
theorem admitted_reads_back_iff_one_byte :
    ∃ pool', submit (.recording "a" [0]) ∅ = (.ok (), pool') ∧
      Transaction.codec.ofBytes (Transaction.recording "a" [0]).message =
        .ok (.recording "a" [0]) := by
  obtain ⟨pool', hsubmit⟩ : ∃ pool', submit (.recording "a" [0]) ∅ = (.ok (), pool') :=
    submit_empty rfl
  refine ⟨pool', hsubmit, (admitted_reads_back_iff hsubmit).mpr ⟨by decide, ?_⟩⟩
  rintro p ⟨⟩
  decide

/-- A type of record of a given length. -/
def typeOfLength (n : Nat) : String :=
  String.ofList (List.replicate n 'a')

theorem length_typeOfLength (n : Nat) : (Bytes.ofText (typeOfLength n)).length = n := by
  have hone : (String.utf8EncodeChar 'a').length = 1 := rfl
  rw [typeOfLength, Hex.ofText_ofList, List.length_flatMap, List.map_replicate, hone,
    List.sum_replicate_nat, Nat.mul_one]

/-- A record whose type is one byte longer than what is read is taken but cannot be read back. -/
theorem admitted_longType :
    let tx : Transaction := .recording (typeOfLength 1000001) [0]
    (∃ pool', submit tx ∅ = (.ok (), pool')) ∧ Transaction.codec.ofBytes tx.message ≠ .ok tx := by
  intro tx
  refine ⟨submit_empty rfl, fun hread => ?_⟩
  obtain ⟨-, -, -, hpayload⟩ := Wire.exact_transaction.ofBytes_eq_ok_iff.mp hread
  have hle : (Bytes.ofText (typeOfLength 1000001)).length ≤ Wire.maxLength := (hpayload _ rfl).1
  rw [length_typeOfLength] at hle
  exact absurd hle (by decide)

end Pool

end LedgerNode
