import LedgerNode.Proofs.Record.Filing

/-!
# What an answer tells of the pool

A request is filed in a pool that has been through any submissions and flushes. There are four
things that it can come to, and each has a code of its own, so the answer tells which of them it
was: whether there is a transaction more at the end of the pool, and if there is none, why.

- `Record.IsTransferOf`, `Record.IsRecordOf`, `Record.Way.Carries`: the transactions that hold given
  bytes, described by their parts.
- `Record.Answered`: the four things that a request can come to; `Record.Way.answered` says that
  there is no other.
- `Record.answer_tells_pool`: what can be read off an answer.
-/

namespace LedgerNode.Record

open Transaction (Attribute)

/-! ## The transactions of a request -/

/-- A time is an object of one number. -/
theorem stamp_eq (seconds : UInt64) :
    stamp seconds =
      Bytes.ofText ("\x7b\"InnerTimestamp\":" ++ Text.numeral seconds.toNat ++ "\x7d") := by
  have hinteger : Text.integer seconds.toNat = Text.numeral seconds.toNat := by
    rw [Text.integer, if_neg (by omega), Int.natAbs_natCast]
  have hname : Json.writeText "InnerTimestamp" = "\"InnerTimestamp\"".toList := by decide
  refine congrArg Bytes.ofText (String.toList_inj.mp ?_)
  rw [Json.render, String.toList_ofList, String.toList_append, String.toList_append, ← hinteger]
  simp only [Json.write, Json.writeMembers, hname]
  rfl

/-- A transfer without payload. Its first attribute is a time, and the others hold bytes one behind
the other, each of them a few. -/
structure IsTransferOf (seconds : UInt64) (bytes : Bytes) (tx : Transaction) : Prop where
  kind_eq : tx.kind = .transferAsset
  payload_eq : tx.payload = none
  attributes_eq : ∃ rest, tx.attributes = .description (Bytes.ofText
      ("\x7b\"InnerTimestamp\":" ++ Text.numeral seconds.toNat ++ "\x7d")) :: rest ∧
    (rest.map Attribute.data).flatten = bytes ∧
    ∀ a ∈ rest, 0 < a.data.length ∧ a.data.length ≤ 252

/-- A record without attributes, whose payload is the bytes. -/
structure IsRecordOf (bytes : Bytes) (tx : Transaction) : Prop where
  kind_eq : tx.kind = .record
  attributes_eq : tx.attributes = []
  payload_eq : tx.payload = some ⟨"record", bytes⟩

namespace Way

/-- A transaction holds bytes the way that transactions do which are made in that way. -/
def Carries : Way → Bytes → Transaction → Prop
  | transfer seconds => IsTransferOf seconds
  | record => IsRecordOf

theorem carries_transaction (way : Way) (bytes : Bytes) :
    way.Carries bytes (way.transaction bytes) := by
  cases way with
  | transfer seconds =>
    refine ⟨rfl, rfl, Transaction.describe bytes, ?_, Transaction.flatten_describe bytes, ?_⟩
    · rw [← stamp_eq]
      rfl
    · intro a ha
      exact Transaction.length_of_mem_describe ha
  | record => exact ⟨rfl, rfl, rfl⟩

end Way

/-! ## The four outcomes -/

/-- What a request comes to that is filed in a pool with the given transactions: the answer, and the
pool afterwards. -/
inductive Answered (pool : Pool) (txs : List Transaction) (way : Way) (request : Json) :
    Response → Pool → Prop where
  /-- The request has no bytes. -/
  | invalid {e : RequestError} (hdata : data request = .error e) :
    Answered pool txs way request ⟨42003, ""⟩ pool
  /-- The request asks for a record of nothing. -/
  | empty (hway : way = .record) (hdata : data request = .ok []) :
    Answered pool txs way request ⟨45008, (way.transaction []).hash.toHex⟩ pool
  /-- A transaction of the same hash is pending. -/
  | duplicate {bytes : Bytes} (hdata : data request = .ok bytes)
    (hrecords : way = .record → bytes ≠ [])
    (hpending : ∃ tx ∈ txs, tx.hash = (way.transaction bytes).hash) :
    Answered pool txs way request
      ⟨45002, way.resultOf bytes (.error (.duplicate (way.transaction bytes).hash))⟩ pool
  /-- The transaction is taken. -/
  | taken {bytes : Bytes} {pool' : Pool} (hdata : data request = .ok bytes)
    (hrecords : way = .record → bytes ≠ [])
    (hnew : ∀ tx ∈ txs, tx.hash ≠ (way.transaction bytes).hash)
    (hholds : pool'.Holds (txs ++ [way.transaction bytes])) :
    Answered pool txs way request ⟨0, (way.transaction bytes).hash.toHex⟩ pool'

variable {pool pool' : Pool} {txs : List Transaction} {way : Way} {request : Json}
  {answer : Response}

/-- A record of nothing is refused as such. -/
theorem submit_recordOf_nil (pool : Pool) :
    pool.submit (Way.record.transaction []) = (.error .emptyRecord, pool) := rfl

/-- Every request comes to one of the four. -/
theorem Way.answered (hpool : pool.Holds txs) (way : Way) (request : Json) :
    Answered pool txs way request (way.submit request pool).1 (way.submit request pool).2 := by
  cases hdata : data request with
  | error e =>
    rw [submit_of_error hdata]
    exact .invalid hdata
  | ok bytes =>
    by_cases hrecords : way = .record → bytes ≠ []
    · have hcheck := check_eq_ok_iff.mpr hrecords
      cases hcontains : pool.contains (way.transaction bytes).hash with
      | true =>
        rw [submit_eq_of_data hdata (Pool.submit_of_contains hcheck hcontains)]
        exact .duplicate hdata hrecords (hpool.contains_iff.mp hcontains)
      | false =>
        have hresult : way.resultOf bytes (.ok ()) = (way.transaction bytes).hash.toHex := by
          cases way <;> rfl
        rw [submit_eq_of_data hdata (Pool.submit_of_not_contains hcheck hcontains), hresult]
        refine .taken hdata hrecords (fun tx htx hhash => ?_) (hpool.insert hcheck hcontains)
        exact ne_true_of_eq_false hcontains (hpool.contains_iff.mpr ⟨tx, htx, hhash⟩)
    · rw [Classical.not_imp, not_not] at hrecords
      obtain ⟨rfl, rfl⟩ := hrecords
      rw [submit_eq_of_data hdata (submit_recordOf_nil pool)]
      exact .empty rfl hdata

namespace Answered

/-! ## Reading an answer -/

/-- Success says that there is one transaction more. -/
theorem code_eq_zero_iff (hpool : pool.Holds txs) (h : Answered pool txs way request answer pool') :
    answer.code = 0 ↔ ∃ tx, pool'.transactions = pool.transactions ++ [tx] := by
  cases h with
  | invalid | empty | duplicate => simp
  | taken hdata hrecords hnew hholds =>
    rw [hholds.transactions_eq, hpool.transactions_eq]
    exact ⟨fun _ => ⟨_, rfl⟩, fun _ => rfl⟩

theorem pool_eq (h : Answered pool txs way request answer pool') (hcode : answer.code ≠ 0) :
    pool' = pool := by
  cases h with
  | invalid | empty | duplicate => rfl
  | taken => exact absurd rfl hcode

/-- With success, the result names the transaction that holds the bytes of the request. -/
theorem carries (hpool : pool.Holds txs) (h : Answered pool txs way request answer pool')
    (hcode : answer.code = 0) : ∃ bytes tx, data request = .ok bytes ∧ way.Carries bytes tx ∧
      pool'.transactions = pool.transactions ++ [tx] ∧ answer.result = tx.hash.toHex := by
  cases h with
  | invalid | empty | duplicate => simp at hcode
  | taken hdata hrecords hnew hholds =>
    refine ⟨_, _, hdata, way.carries_transaction _, ?_, rfl⟩
    rw [hholds.transactions_eq, hpool.transactions_eq]

theorem code_eq_invalid_iff (h : Answered pool txs way request answer pool') :
    answer.code = 42003 ↔ ∃ e, data request = .error e := by
  cases h with
  | invalid hdata => simp [hdata]
  | empty _ hdata | duplicate hdata | taken hdata => simp [hdata]

theorem result_of_invalid (h : Answered pool txs way request answer pool')
    (hcode : answer.code = 42003) : answer.result = "" := by
  cases h with
  | invalid => rfl
  | empty | duplicate | taken => simp at hcode

theorem code_eq_duplicate_iff (hpool : pool.Holds txs)
    (h : Answered pool txs way request answer pool') :
    answer.code = 45002 ↔ ∃ bytes, data request = .ok bytes ∧ (way = .record → bytes ≠ []) ∧
      ∃ tx ∈ pool.transactions, tx.hash = (way.transaction bytes).hash := by
  rw [hpool.transactions_eq]
  cases h with
  | invalid hdata => simp [hdata]
  | empty hway hdata => simp [hdata, hway]
  | duplicate hdata hrecords hpending => simpa [hdata] using ⟨hrecords, hpending⟩
  | taken hdata hrecords hnew => simpa [hdata] using fun _ => hnew

theorem code_eq_empty_iff (h : Answered pool txs way request answer pool') :
    answer.code = 45008 ↔ way = .record ∧ data request = .ok [] := by
  cases h with
  | invalid hdata => simp [hdata]
  | empty hway hdata => simp [hdata, hway]
  | duplicate hdata hrecords | taken hdata hrecords => simpa [hdata] using hrecords

theorem code_mem (h : Answered pool txs way request answer pool') :
    answer.code ∈ [0, 42003, 45002, 45008] := by
  cases h with
  | invalid | empty | duplicate | taken => simp

/-- The result is the hash of the transaction, but for a transfer that is refused. -/
theorem result_eq {bytes : Bytes} (h : Answered pool txs way request answer pool')
    (hbytes : data request = .ok bytes) :
    answer.result =
      if way = .record ∨ answer.code = 0 then (way.transaction bytes).hash.toHex else "" := by
  cases h with
  | invalid hdata => simp [hdata] at hbytes
  | empty hway hdata =>
    obtain rfl := Except.ok.inj (hdata.symm.trans hbytes)
    rw [if_pos (.inl hway)]
  | duplicate hdata =>
    obtain rfl := Except.ok.inj (hdata.symm.trans hbytes)
    cases way with
    | transfer seconds =>
      rw [if_neg (by simp)]
      rfl
    | record =>
      rw [if_pos (.inl rfl)]
      rfl
  | taken hdata =>
    obtain rfl := Except.ok.inj (hdata.symm.trans hbytes)
    rw [if_pos (.inr rfl)]

end Answered

/-- An answer tells the truth about the pool, whatever submissions and flushes this has been
through. The code is zero exactly when one transaction has joined the others at the end, and else
the pool is as it was. This transaction holds the bytes of the request, and its hash is the result.
The code 42003 says that the request has no bytes, and then there is no result either; 45002 that a
transaction of the same hash is pending; 45008 that a record has nothing to record, which is never
said of a transfer; and there are no other codes. A record that is refused still has its hash for a
result, a transfer has none. -/
theorem answer_tells_pool (qs : List Pool.Request) (way : Way) (request : Json) :
    let pool := (Pool.serveAll qs ∅).2
    let answer := (way.submit request pool).1
    let pool' := (way.submit request pool).2
    (answer.code = 0 ↔ ∃ tx, pool'.transactions = pool.transactions ++ [tx]) ∧
    (answer.code ≠ 0 → pool' = pool) ∧
    (answer.code = 0 → ∃ bytes tx, data request = .ok bytes ∧ way.Carries bytes tx ∧
      pool'.transactions = pool.transactions ++ [tx] ∧ answer.result = tx.hash.toHex) ∧
    (answer.code = 42003 ↔ ∃ e, data request = .error e) ∧
    (answer.code = 42003 → answer.result = "") ∧
    (answer.code = 45002 ↔ ∃ bytes, data request = .ok bytes ∧ (way = .record → bytes ≠ []) ∧
      ∃ tx ∈ pool.transactions, tx.hash = (way.transaction bytes).hash) ∧
    (answer.code = 45008 ↔ way = .record ∧ data request = .ok []) ∧
    answer.code ∈ [0, 42003, 45002, 45008] ∧
    ∀ bytes, data request = .ok bytes → answer.result =
      if way = .record ∨ answer.code = 0 then (way.transaction bytes).hash.toHex else "" := by
  intro pool answer pool'
  have hpool : pool.Holds _ := Pool.holds_empty.serveAll qs
  have h := way.answered hpool request
  exact ⟨h.code_eq_zero_iff hpool, h.pool_eq, h.carries hpool, h.code_eq_invalid_iff,
    h.result_of_invalid, h.code_eq_duplicate_iff hpool, h.code_eq_empty_iff, h.code_mem,
    fun _ => h.result_eq⟩

end LedgerNode.Record
