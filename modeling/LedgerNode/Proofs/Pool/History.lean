import LedgerNode.Pool
import Mathlib.Data.List.Basic

/-!
# What is pending in a pool

A pool keeps its transactions in an index by hash and the order of their hashes in a list apart.
Both are changed by every submission that succeeds and by every flush, and what is pending is read
off both together.

- `Pool.Request`, `Pool.serveAll`: the requests to a pool, and what each of a history comes to.
- `Pool.taken`: the transactions taken since the last flush, told from what the requests came to.
- `Pool.check_eq_ok_iff`: the conditions on a transaction alone.
- `Pool.Holds`: the invariant: index and order hold the same transactions. Submissions and flushes
  keep it (`Pool.Holds.serve`), and so do histories of them (`Pool.Holds.serveAll`).
- `Pool.pending_eq_taken`: what is pending is what has been taken.
-/

namespace LedgerNode

namespace Pool

/-! ## Histories -/

/-- What can be asked of a pool. -/
inductive Request where
  /-- Take a transaction. -/
  | submit (tx : Transaction)
  /-- Forget all transactions. -/
  | flush
deriving DecidableEq

/-- What a request does. -/
def serve : Request → Pool → Except Refusal Unit × Pool
  | .submit tx, pool => pool.submit tx
  | .flush, pool => (.ok (), pool.flush)

/-- What each request of a history comes to, and the pool after them. -/
def serveAll : List Request → Pool → List (Request × Except Refusal Unit) × Pool
  | [], pool => ([], pool)
  | q :: qs, pool =>
    let (result, pool) := serve q pool
    let (log, pool) := serveAll qs pool
    ((q, result) :: log, pool)

/-- Transactions taken so far, with what one more request came to. -/
def record (txs : List Transaction) : Request × Except Refusal Unit → List Transaction
  | (.submit tx, .ok ()) => txs ++ [tx]
  | (.submit _, .error _) => txs
  | (.flush, _) => []

/-- The transactions that were taken since the last flush, in the order in which they came. -/
def taken (log : List (Request × Except Refusal Unit)) : List Transaction :=
  log.foldl record []

/-! ## The conditions on a transaction -/

theorem hasRecord_eq_true_iff {tx : Transaction} :
    hasRecord tx = true ↔ (tx.kind = .record → ∃ p, tx.payload = some p ∧ p.data ≠ []) := by
  unfold hasRecord
  cases tx.kind with
  | transferAsset => simp
  | record => cases tx.payload <;> simp

/-- A transaction passes the check when no attribute is too long and a record records something. -/
theorem check_eq_ok_iff {tx : Transaction} :
    check tx = .ok () ↔ (∀ a ∈ tx.attributes, a.data.length ≤ Transaction.Attribute.maxLength) ∧
      (tx.kind = .record → ∃ p, tx.payload = some p ∧ p.data ≠ []) := by
  unfold check
  rw [← hasRecord_eq_true_iff]
  cases hfind : tx.attributes.find? fun a =>
      decide (Transaction.Attribute.maxLength < a.data.length) with
  | some a =>
    have hfound := List.find?_some hfind
    have hlong : Transaction.Attribute.maxLength < a.data.length := of_decide_eq_true hfound
    constructor
    · intro h
      cases h
    · rintro ⟨hshort, -⟩
      exact absurd (hshort a (List.mem_of_find?_eq_some hfind)) (Nat.not_le_of_lt hlong)
  | none =>
    have hshort : ∀ a ∈ tx.attributes, a.data.length ≤ Transaction.Attribute.maxLength := by
      intro a ha
      have hnot := List.find?_eq_none.mp hfind a ha
      exact Nat.le_of_not_lt fun hlong => hnot (decide_eq_true hlong)
    dsimp only
    cases hasRecord tx with
    | true => simpa using hshort
    | false => simp

/-! ## The invariant -/

/-- The transactions pending in a pool, in order: the order names their hashes, the index binds
these and no others, and each of them has passed the check. -/
structure Holds (pool : Pool) (txs : List Transaction) : Prop where
  order_eq : pool.order.toList = txs.map Transaction.hash
  nodup : (txs.map Transaction.hash).Nodup
  index_eq_some_iff : ∀ hash tx, pool.index[hash]? = some tx ↔ tx ∈ txs ∧ tx.hash = hash
  size_eq : pool.size = txs.length
  checked : ∀ tx ∈ txs, check tx = .ok ()

variable {pool : Pool} {txs : List Transaction}

theorem holds_empty : Holds ∅ [] where
  order_eq := rfl
  nodup := List.nodup_nil
  index_eq_some_iff := by
    intro hash tx
    show (∅ : Std.HashMap Hash Transaction)[hash]? = some tx ↔ _
    simp
  size_eq := Std.HashMap.size_empty
  checked := by
    intro tx htx
    cases htx

@[simp] theorem contains_empty (hash : Hash) : contains ∅ hash = false :=
  Std.HashMap.contains_empty

theorem Holds.contains_iff (h : Holds pool txs) {hash : Hash} :
    pool.contains hash = true ↔ ∃ tx ∈ txs, tx.hash = hash := by
  unfold contains
  rw [Std.HashMap.contains_eq_isSome_getElem?, Option.isSome_iff_exists]
  simp only [h.index_eq_some_iff]

theorem Holds.transactions_eq (h : Holds pool txs) : pool.transactions = txs := by
  unfold transactions
  rw [h.order_eq, List.filterMap_map]
  show txs.filterMap (fun tx => pool.index[tx.hash]?) = txs
  -- every hash in the order is the key of the transaction that it comes from
  have hfind : ∀ tx ∈ txs, pool.index[tx.hash]? = some tx :=
    fun tx htx => (h.index_eq_some_iff tx.hash tx).mpr ⟨htx, rfl⟩
  rw [List.filterMap_congr hfind, List.filterMap_some]

/-- What a submission does: a transaction that passes the check and is not pending is added, and
any other is turned away. -/
theorem submit_cases (tx : Transaction) (pool : Pool) :
    (check tx = .ok () ∧ pool.contains tx.hash = false ∧
      pool.submit tx = (.ok (), { index := pool.index.insert tx.hash tx
                                  order := pool.order.push tx.hash })) ∨
    ∃ refusal, pool.submit tx = (.error refusal, pool) := by
  unfold submit
  cases hcheck : check tx with
  | error refusal => exact .inr ⟨refusal, rfl⟩
  | ok =>
    dsimp only
    cases hcontains : pool.contains tx.hash with
    | true => exact .inr ⟨.duplicate tx.hash, rfl⟩
    | false => exact .inl ⟨rfl, rfl, rfl⟩

/-- A transaction that passes the check is refused if its hash is pending. -/
theorem submit_of_contains {tx : Transaction} (hcheck : check tx = .ok ())
    (h : pool.contains tx.hash = true) :
    pool.submit tx = (.error (.duplicate tx.hash), pool) := by
  rw [submit, hcheck]
  dsimp only
  rw [if_pos h]

/-- And it is added if its hash is not. -/
theorem submit_of_not_contains {tx : Transaction} (hcheck : check tx = .ok ())
    (h : pool.contains tx.hash = false) :
    pool.submit tx = (.ok (), { index := pool.index.insert tx.hash tx
                                order := pool.order.push tx.hash }) := by
  rw [submit, hcheck]
  dsimp only
  rw [if_neg (ne_true_of_eq_false h)]

/-- A transaction that passes the check is refused only as a duplicate. -/
theorem submit_of_check {tx : Transaction} (hcheck : check tx = .ok ()) (pool : Pool) :
    (pool.submit tx).1 =
      if pool.contains tx.hash then .error (.duplicate tx.hash) else .ok () := by
  cases hcontains : pool.contains tx.hash with
  | true =>
    rw [submit_of_contains hcheck hcontains]
    rfl
  | false =>
    rw [submit_of_not_contains hcheck hcontains]
    rfl

/-- A transaction that passes the check is refused for nothing but its hash. -/
theorem eq_duplicate_of_check {tx : Transaction} (hcheck : check tx = .ok ()) {pool : Pool}
    {refusal : Refusal} (h : (pool.submit tx).1 = .error refusal) :
    refusal = .duplicate tx.hash := by
  rw [submit_of_check hcheck] at h
  split at h
  · exact (Except.error.inj h).symm
  · cases h

/-- A transaction that is added joins the others at the end. -/
theorem Holds.insert (h : Holds pool txs) {tx : Transaction} (hcheck : check tx = .ok ())
    (hnew : pool.contains tx.hash = false) :
    Holds { index := pool.index.insert tx.hash tx, order := pool.order.push tx.hash }
      (txs ++ [tx]) := by
  have hfresh : ∀ other ∈ txs, other.hash ≠ tx.hash := by
    intro other hother heq
    have hcontains := h.contains_iff.mpr ⟨other, hother, heq⟩
    rw [hnew] at hcontains
    cases hcontains
  refine ⟨?_, ?_, ?_, ?_, ?_⟩
  · rw [Array.toList_push, h.order_eq, List.map_append]
    rfl
  · rw [List.map_append, List.nodup_append]
    refine ⟨h.nodup, by simp, ?_⟩
    intro a ha b hb
    obtain ⟨other, hother, rfl⟩ := List.mem_map.mp ha
    obtain rfl := List.mem_singleton.mp hb
    exact hfresh other hother
  · intro hash other
    show (pool.index.insert tx.hash tx)[hash]? = some other ↔ _
    rw [Std.HashMap.getElem?_insert, List.mem_append, List.mem_singleton]
    by_cases hhash : tx.hash = hash
    · subst hhash
      rw [if_pos (beq_self_eq_true _), Option.some.injEq]
      constructor
      · rintro rfl
        exact ⟨.inr rfl, rfl⟩
      · rintro ⟨hother | rfl, heq⟩
        · exact absurd heq (hfresh other hother)
        · rfl
    · rw [if_neg (by simpa using hhash), h.index_eq_some_iff]
      constructor
      · rintro ⟨hother, heq⟩
        exact ⟨.inl hother, heq⟩
      · rintro ⟨hother | rfl, heq⟩
        · exact ⟨hother, heq⟩
        · exact absurd heq hhash
  · have hmem : tx.hash ∉ pool.index := by
      rw [← Std.HashMap.contains_iff_mem]
      exact ne_true_of_eq_false hnew
    show (pool.index.insert tx.hash tx).size = _
    rw [Std.HashMap.size_insert, if_neg hmem, List.length_append]
    exact congrArg (· + 1) h.size_eq
  · intro other hother
    rcases List.mem_append.mp hother with hother | hother
    · exact h.checked other hother
    · rw [List.mem_singleton.mp hother]
      exact hcheck

/-- Every request keeps what is pending and what has been taken the same. -/
theorem Holds.serve (h : Holds pool txs) (q : Request) :
    Holds (serve q pool).2 (record txs (q, (Pool.serve q pool).1)) := by
  cases q with
  | flush => exact holds_empty
  | submit tx =>
    show Holds (pool.submit tx).2 (record txs (.submit tx, (pool.submit tx).1))
    rcases submit_cases tx pool with ⟨hcheck, hnew, hsubmit⟩ | ⟨refusal, hsubmit⟩
    · rw [hsubmit]
      exact h.insert hcheck hnew
    · rw [hsubmit]
      exact h

theorem Holds.serveAll (h : Holds pool txs) (qs : List Request) :
    Holds (serveAll qs pool).2 ((Pool.serveAll qs pool).1.foldl record txs) := by
  induction qs generalizing pool txs with
  | nil => exact h
  | cons q qs ih => exact ih (h.serve q)

/-- After any history of submissions and flushes, what is pending in a pool is what has been taken
since the last flush, each transaction once and in the order in which they came. The index binds the
hashes in the order and no others, each to its transaction; what is pending has passed the check;
and a submission that is refused changes nothing. -/
theorem pending_eq_taken (qs : List Request) :
    let pool := (serveAll qs ∅).2
    let txs := taken (serveAll qs ∅).1
    pool.order.toList.Nodup ∧
    (∀ hash, hash ∈ pool.order.toList ↔ hash ∈ pool.index) ∧
    (∀ (hash : Hash) (tx : Transaction), pool.index[hash]? = some tx → tx.hash = hash) ∧
    pool.transactions = txs ∧ txs.Nodup ∧
    pool.size = txs.length ∧
    (∀ hash, pool.contains hash = true ↔ ∃ tx ∈ txs, tx.hash = hash) ∧
    (∀ (hash : Hash) (tx : Transaction), pool.index[hash]? = some tx →
      (∀ a ∈ tx.attributes, a.data.length ≤ 252) ∧
      (tx.kind = .record → ∃ p, tx.payload = some p ∧ p.data ≠ [])) ∧
    ∀ tx refusal pool', pool.submit tx = (.error refusal, pool') → pool' = pool := by
  intro pool txs
  have h : Holds pool txs := holds_empty.serveAll qs
  have hnodup : txs.Nodup :=
    List.Pairwise.of_map Transaction.hash (fun _ _ hne heq => hne (congrArg _ heq)) h.nodup
  refine ⟨?_, ?_, ?_, h.transactions_eq, hnodup, h.size_eq, fun _ => h.contains_iff, ?_, ?_⟩
  · rw [h.order_eq]
    exact h.nodup
  · intro hash
    rw [h.order_eq, List.mem_map, ← Std.HashMap.contains_iff_mem]
    exact h.contains_iff.symm
  · intro hash tx hfind
    exact ((h.index_eq_some_iff hash tx).mp hfind).2
  · intro hash tx hfind
    exact check_eq_ok_iff.mp (h.checked tx ((h.index_eq_some_iff hash tx).mp hfind).1)
  · intro tx refusal pool' hsubmit
    rcases submit_cases tx pool with ⟨-, -, hok⟩ | ⟨refusal', herror⟩
    · rw [hok] at hsubmit
      cases hsubmit
    · rw [herror] at hsubmit
      cases hsubmit
      rfl

end Pool

end LedgerNode
