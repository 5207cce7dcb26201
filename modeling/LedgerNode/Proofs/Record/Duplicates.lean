import LedgerNode.Proofs.Record.Filing
import Mathlib.Data.List.Induction

/-!
# Which requests are refused as duplicates

Requests are filed one after another, each in one of the two ways, and now and then the pool is
flushed. The pool tells transactions apart by their hashes alone. As long as these have no collision
among what is hashed on the way, a request is refused exactly when its bytes have been taken in the
same way since the last flush.

- `Record.Call`, `Record.poolAfter`: what can be asked for, and the pool after a history that starts
  with an empty one.
- `Record.TakenBefore`: what has been taken since the last flush, told from the answers.
- `Record.CollisionFree`, `Record.hashed`: no two of some byte strings have one hash, and what is
  hashed in a history.
- `Record.Filed`: the invariant: the pool holds the transactions of what has been taken. Every
  request keeps it (`Record.Filed.submit`), a flush starts it anew, and so all histories have it
  (`Record.exists_filed`).
- `Record.refused_iff_takenBefore`: the answer to a request after any history.
-/

namespace LedgerNode.Record

/-! ## Histories -/

/-- What can be asked for. -/
inductive Call where
  /-- File a request. -/
  | submit (way : Way) (request : Json)
  /-- Forget all transactions. -/
  | flush

/-- What a call does to the pool. -/
def Call.serve : Call → Pool → Pool
  | submit way request, pool => (way.submit request pool).2
  | flush, pool => pool.flush

/-- The pool after a history of calls. -/
def poolAfter (calls : List Call) : Pool :=
  calls.foldl (fun pool call => call.serve pool) ∅

/-- In a history of calls, a request with the given bytes was filed in the given way and answered
with success, and there was no flush after it. -/
def TakenBefore (calls : List Call) (way : Way) (bytes : Bytes) : Prop :=
  ∃ (before : List Call) (request : Json) (after : List Call),
    calls = before ++ .submit way request :: after ∧ .flush ∉ after ∧
      data request = .ok bytes ∧ (way.submit request (poolAfter before)).1.code = 0

/-- No two of some byte strings have one hash. -/
def CollisionFree (messages : List Bytes) : Prop :=
  ∀ a ∈ messages, ∀ b ∈ messages, Hash.digest a = Hash.digest b → a = b

/-- What is hashed of the transaction that a call makes, if it makes one. -/
def Call.preimage? : Call → Option Bytes
  | submit way request =>
    (data request).toOption.map fun bytes => (way.transaction bytes).preimage
  | flush => none

/-- What is hashed in a history. -/
def hashed (calls : List Call) : List Bytes :=
  calls.filterMap Call.preimage?

variable {calls : List Call} {way : Way} {bytes : Bytes} {request : Json} {pool : Pool}

theorem poolAfter_append_singleton (calls : List Call) (call : Call) :
    poolAfter (calls ++ [call]) = call.serve (poolAfter calls) := by
  simp [poolAfter]

/-! ## What has been taken -/

theorem not_takenBefore_nil : ¬ TakenBefore [] way bytes := by
  rintro ⟨before, request, after, hcalls, -⟩
  exact absurd hcalls (by simp)

/-- A call at the end of a history is the last one, or it belongs to what comes after another. -/
theorem append_singleton_eq_append_cons {call other : Call} {before after : List Call}
    (h : calls ++ [call] = before ++ other :: after) :
    (calls = before ∧ call = other ∧ after = []) ∨
      ∃ front, calls = before ++ other :: front ∧ after = front ++ [call] := by
  rcases List.eq_nil_or_concat' after with rfl | ⟨front, last, rfl⟩
  · obtain ⟨hcalls, hcall⟩ := List.append_inj' h rfl
    exact .inl ⟨hcalls, List.head_eq_of_cons_eq hcall, rfl⟩
  · rw [← List.cons_append, ← List.append_assoc] at h
    obtain ⟨hcalls, hcall⟩ := List.append_inj' h rfl
    exact .inr ⟨front, hcalls, by rw [hcall]⟩

/-- Nothing counts as taken right after a flush. -/
theorem not_takenBefore_flush : ¬ TakenBefore (calls ++ [.flush]) way bytes := by
  rintro ⟨before, request, after, hcalls, hflush, -⟩
  rcases append_singleton_eq_append_cons hcalls with ⟨-, hcall, -⟩ | ⟨front, -, rfl⟩
  · cases hcall
  · exact hflush (List.mem_append_right front List.mem_cons_self)

/-- After one more request, what was taken before it still is, and so is its own if it was answered
with success. -/
theorem takenBefore_submit {way' : Way} :
    TakenBefore (calls ++ [.submit way' request]) way bytes ↔ TakenBefore calls way bytes ∨
      (way' = way ∧ data request = .ok bytes ∧
        (way'.submit request (poolAfter calls)).1.code = 0) := by
  constructor
  · rintro ⟨before, other, after, hcalls, hflush, hdata, hcode⟩
    rcases append_singleton_eq_append_cons hcalls with ⟨rfl, hcall, -⟩ | ⟨front, hfront, rfl⟩
    · cases hcall
      exact .inr ⟨rfl, hdata, hcode⟩
    · have hflush : .flush ∉ front := fun h => hflush (List.mem_append_left _ h)
      exact .inl ⟨before, other, front, hfront, hflush, hdata, hcode⟩
  · rintro (⟨before, other, after, rfl, hflush, hdata, hcode⟩ | ⟨rfl, hdata, hcode⟩)
    · refine ⟨before, other, after ++ [.submit way' request], by simp, ?_, hdata, hcode⟩
      rw [List.mem_append, not_or]
      exact ⟨hflush, by simp⟩
    · exact ⟨calls, request, [], rfl, nofun, hdata, hcode⟩

theorem preimage_mem_hashed (h : .submit way request ∈ calls) (hdata : data request = .ok bytes) :
    (way.transaction bytes).preimage ∈ hashed calls := by
  refine List.mem_filterMap.mpr ⟨.submit way request, h, ?_⟩
  rw [Call.preimage?, hdata]
  rfl

/-- What has been taken has been hashed. -/
theorem TakenBefore.preimage_mem (h : TakenBefore calls way bytes) :
    (way.transaction bytes).preimage ∈ hashed calls := by
  obtain ⟨before, request, after, rfl, -, hdata, -⟩ := h
  exact preimage_mem_hashed (by simp) hdata

/-! ## The invariant -/

/-- After a history of calls, the pool holds the transactions of what has been taken since the last
flush, and no others. -/
structure Filed (calls : List Call) (txs : List Transaction) : Prop where
  holds : Pool.Holds (poolAfter calls) txs
  mem_iff : ∀ tx, tx ∈ txs ↔
    ∃ way bytes, TakenBefore calls way bytes ∧ tx = way.transaction bytes

theorem filed_of_not_takenBefore (hpool : poolAfter calls = ∅)
    (h : ∀ way bytes, ¬ TakenBefore calls way bytes) : Filed calls [] where
  holds := by
    rw [hpool]
    exact Pool.holds_empty
  mem_iff := by
    intro tx
    constructor
    · intro htx
      cases htx
    · rintro ⟨way, bytes, htaken, -⟩
      exact absurd htaken (h way bytes)

variable {txs : List Transaction}

/-- A request that is not answered with success leaves everything as it is. -/
theorem Filed.submit_of_ne (h : Filed calls txs)
    (hpool : (way.submit request (poolAfter calls)).2 = poolAfter calls)
    (hcode : (way.submit request (poolAfter calls)).1.code ≠ 0) :
    Filed (calls ++ [.submit way request]) txs where
  holds := by
    rw [poolAfter_append_singleton, Call.serve, hpool]
    exact h.holds
  mem_iff := by
    intro tx
    rw [h.mem_iff]
    have hsame : ∀ w bs, TakenBefore (calls ++ [.submit way request]) w bs ↔
        TakenBefore calls w bs := by
      intro w bs
      rw [takenBefore_submit]
      exact or_iff_left fun hlast => hcode hlast.2.2
    simp only [hsame]

/-- A request whose transaction is taken adds it to what has been taken. -/
theorem Filed.submit_of_new (h : Filed calls txs) (hdata : data request = .ok bytes)
    (hcheck : Pool.check (way.transaction bytes) = .ok ())
    (hnew : (poolAfter calls).contains (way.transaction bytes).hash = false)
    (hpool : (way.submit request (poolAfter calls)).2 =
      { index := (poolAfter calls).index.insert (way.transaction bytes).hash (way.transaction bytes)
        order := (poolAfter calls).order.push (way.transaction bytes).hash })
    (hcode : (way.submit request (poolAfter calls)).1.code = 0) :
    Filed (calls ++ [.submit way request]) (txs ++ [way.transaction bytes]) where
  holds := by
    rw [poolAfter_append_singleton, Call.serve, hpool]
    exact h.holds.insert hcheck hnew
  mem_iff := by
    intro tx
    rw [List.mem_append, List.mem_singleton, h.mem_iff]
    simp only [takenBefore_submit]
    constructor
    · rintro (⟨w, bs, htaken, rfl⟩ | rfl)
      · exact ⟨w, bs, .inl htaken, rfl⟩
      · exact ⟨way, bytes, .inr ⟨rfl, hdata, hcode⟩, rfl⟩
    · rintro ⟨w, bs, htaken | ⟨rfl, hother, -⟩, rfl⟩
      · exact .inl ⟨w, bs, htaken, rfl⟩
      · rw [hdata] at hother
        cases hother
        exact .inr rfl

/-- Every request keeps the invariant. -/
theorem Filed.submit (h : Filed calls txs) (way : Way) (request : Json) :
    ∃ txs', Filed (calls ++ [.submit way request]) txs' := by
  cases hdata : data request with
  | error e =>
    have hsubmit : way.submit request (poolAfter calls) = _ := Way.submit_of_error hdata
    have hcode : (way.submit request (poolAfter calls)).1.code ≠ 0 := by
      rw [hsubmit]
      show Response.invalidParameters ≠ 0
      decide
    exact ⟨txs, h.submit_of_ne (by rw [hsubmit]) hcode⟩
  | ok bytes =>
    rcases Pool.submit_cases (way.transaction bytes) (poolAfter calls) with
      ⟨hcheck, hnew, hsubmit⟩ | ⟨refusal, hsubmit⟩
    · obtain ⟨hpool, hcode⟩ := Way.submit_of_data hdata hsubmit
      exact ⟨_, h.submit_of_new hdata hcheck hnew hpool hcode⟩
    · obtain ⟨hpool, hcode⟩ := Way.submit_of_data hdata hsubmit
      exact ⟨txs, h.submit_of_ne hpool (by rw [hcode]; exact codeOf_error_ne_zero refusal)⟩

/-- After every history the pool holds what has been taken. -/
theorem exists_filed (calls : List Call) : ∃ txs, Filed calls txs := by
  -- from the end of the history, where a flush may have undone all that came before
  induction calls using List.reverseRecOn with
  | nil => exact ⟨[], filed_of_not_takenBefore rfl fun _ _ => not_takenBefore_nil⟩
  | append_singleton calls call ih =>
    obtain ⟨txs, h⟩ := ih
    cases call with
    | submit way request => exact h.submit way request
    | flush =>
      refine ⟨[], filed_of_not_takenBefore ?_ fun _ _ => not_takenBefore_flush⟩
      rw [poolAfter_append_singleton]
      rfl

/-! ## The answer -/

/-- If nothing hashed before collides with a transaction, its hash is pending exactly when its bytes
have been taken in its way. -/
theorem Filed.contains_iff (h : Filed calls txs)
    (hfree : ∀ m ∈ hashed calls,
      Hash.digest m = Hash.digest (way.transaction bytes).preimage →
        m = (way.transaction bytes).preimage) :
    (poolAfter calls).contains (way.transaction bytes).hash = true ↔
      TakenBefore calls way bytes := by
  rw [h.holds.contains_iff]
  constructor
  · rintro ⟨tx, htx, hhash⟩
    obtain ⟨w, bs, htaken, rfl⟩ := (h.mem_iff tx).mp htx
    rw [Transaction.hash_eq_digest, Transaction.hash_eq_digest] at hhash
    -- one hash means the same bytes hashed, and these tell the way and the bytes
    obtain ⟨rfl, rfl⟩ := Way.preimage_inj (hfree _ htaken.preimage_mem hhash)
    exact htaken
  · intro htaken
    exact ⟨_, (h.mem_iff _).mpr ⟨way, bytes, htaken, rfl⟩, rfl⟩

/-- After any history of requests and flushes, a request whose transaction can be taken at all is
refused as a duplicate exactly when its bytes have been taken in its way since the last flush, and
otherwise it is taken. -/
theorem refused_iff_takenBefore (calls : List Call) (hdata : data request = .ok bytes)
    (hbytes : way = .record → bytes ≠ [])
    (hfree : CollisionFree (hashed (calls ++ [Call.submit way request]))) :
    let answer := (way.submit request (poolAfter calls)).1
    (answer.code = 45002 ↔ TakenBefore calls way bytes) ∧
      (answer.code ≠ 45002 → answer.code = 0) := by
  intro answer
  obtain ⟨txs, h⟩ := exists_filed calls
  have hcontains : (poolAfter calls).contains (way.transaction bytes).hash = true ↔
      TakenBefore calls way bytes := by
    refine h.contains_iff fun m hm hdigest => ?_
    have hearlier : m ∈ hashed (calls ++ [Call.submit way request]) := by
      rw [hashed, List.filterMap_append]
      exact List.mem_append_left _ hm
    exact hfree m hearlier _ (preimage_mem_hashed (by simp) hdata) hdigest
  have hcheck : Pool.check (way.transaction bytes) = .ok () := Way.check_eq_ok_iff.mpr hbytes
  have houtcome := Pool.submit_of_check hcheck (poolAfter calls)
  rcases hsubmit : (poolAfter calls).submit (way.transaction bytes) with ⟨outcome, pool'⟩
  obtain ⟨-, hcode⟩ := Way.submit_of_data hdata hsubmit
  rw [hsubmit] at houtcome
  dsimp only at houtcome
  by_cases htaken : TakenBefore calls way bytes
  · rw [houtcome, if_pos (hcontains.mpr htaken)] at hcode
    have hrefused : answer.code = 45002 := hcode
    exact ⟨iff_of_true hrefused htaken, fun hne => absurd hrefused hne⟩
  · rw [houtcome, if_neg (mt hcontains.mp htaken)] at hcode
    have hsuccess : answer.code = 0 := hcode
    refine ⟨iff_of_false ?_ htaken, fun _ => hsuccess⟩
    rw [hsuccess]
    decide

/-- One byte is recorded once, and refused when it comes again. -/
theorem refused_iff_takenBefore_again :
    let request := Json.object [("Raw", .text "1"), ("RecordData", .text "00")]
    (Way.record.submit request ∅).1.code = 0 ∧
      (Way.record.submit request (poolAfter [.submit .record request])).1.code = 45002 := by
  intro request
  have hdata : data request = .ok [0] := by rfl
  have hbytes : Way.record = .record → ([0] : Bytes) ≠ [] := fun _ => List.cons_ne_nil 0 []
  -- all that is hashed is one and the same byte string
  have hfree : ∀ calls : List Call, (∀ call ∈ calls, call = .submit .record request) →
      CollisionFree (hashed calls) := by
    intro calls hcalls a ha b hb _
    have hone : ∀ m ∈ hashed calls, m = (Way.record.transaction [0]).preimage := by
      intro m hm
      obtain ⟨call, hcall, hpreimage⟩ := List.mem_filterMap.mp hm
      rw [hcalls call hcall, Call.preimage?, hdata] at hpreimage
      exact (Option.some.inj hpreimage).symm
    rw [hone a ha, hone b hb]
  obtain ⟨hrefused, htaken⟩ := refused_iff_takenBefore [] hdata hbytes (hfree _ (by simp))
  have hfirst : (Way.record.submit request ∅).1.code = 0 :=
    htaken fun h => not_takenBefore_nil (hrefused.mp h)
  obtain ⟨hagain, -⟩ := refused_iff_takenBefore [.submit .record request] hdata hbytes
    (hfree _ (by simp))
  exact ⟨hfirst, hagain.mpr ⟨[], request, [], rfl, nofun, hdata, hfirst⟩⟩

end LedgerNode.Record
