import LedgerNode.Proofs.Json.RoundTrip
import LedgerNode.Proofs.Pool.Descriptions
import LedgerNode.Proofs.Wire.Unambiguous
import LedgerNode.Record.Submission

/-!
# How the bytes of a request are filed

The bytes of a request become a transaction in one of two ways. Both keep the bytes whole, so that
what is hashed of a transaction tells in which way it was made, when, and from which bytes.

- `Record.stamp_inj`, `Record.length_stamp_le`: the JSON form of a time.
- `Record.codeOf`: the code that tells what a submission comes to.
- `Record.Way`, `Record.Way.transaction`: the two ways, and the transaction that each makes.
- `Record.Way.check_eq_ok_iff`: which of these transactions a pool may take.
- `Record.Way.preimage_inj`: no two of them have the same bytes hashed.
- `Record.Way.submit`: files a request; `Record.Way.submit_eq_of_data` and
  `Record.Way.submit_of_error` say what that comes to.
-/

namespace LedgerNode

/-- A character takes at most four bytes. -/
theorem Bytes.length_ofText_le (cs : List Char) :
    (ofText (String.ofList cs)).length ≤ 4 * cs.length := by
  rw [Hex.ofText_ofList]
  induction cs with
  | nil => exact Nat.zero_le _
  | cons c cs ih =>
    have hc : c.utf8Size ≤ 4 := c.utf8Size_le_four
    rw [List.flatMap_cons, List.length_append, String.length_utf8EncodeChar, List.length_cons]
    omega

namespace Transaction

/-- Transactions of which the same bytes are hashed have the same encoding. -/
theorem message_eq_of_preimage_eq {t u : Transaction} (h : t.preimage = u.preimage) :
    t.message = u.message :=
  List.append_cancel_left h

end Transaction

namespace Record

open Transaction (Attribute)

/-! ## Times -/

theorem plain_stamp (seconds : UInt64) :
    (Json.object [("InnerTimestamp", .integer seconds.toNat)]).Plain := by
  have hfits : Json.FitsInteger seconds.toNat := by
    have hlt : seconds.toNat < 0x10000000000000000 := seconds.toNat_lt
    exact Json.fitsInteger_iff.mpr (by omega)
  refine .object (by simp) ?_
  rintro m hm
  rw [List.mem_singleton.mp hm]
  exact .integer hfits

/-- The time can be read off its JSON form. -/
theorem stamp_inj {s t : UInt64} (h : stamp s = stamp t) : s = t := by
  have hjson := Json.render_inj (plain_stamp s) (plain_stamp t) (Bytes.ofText_inj h)
  have hmember := List.head_eq_of_cons_eq (Json.object.inj hjson)
  have hseconds := Json.integer.inj (congrArg Prod.snd hmember)
  exact UInt64.toNat_inj.mp (Int.ofNat_inj.mp hseconds)

/-- A time has at most twenty digits. -/
theorem length_stamp_le (seconds : UInt64) : (stamp seconds).length ≤ Attribute.maxLength := by
  have hdigits : (Text.integer seconds.toNat).toList.length ≤ 20 := by
    rw [Json.toList_integer, if_neg (by omega), Int.natAbs_natCast,
      Nat.length_toDigits_le_iff (by decide) (by decide)]
    exact Nat.lt_trans seconds.toNat_lt_size (by decide)
  have hname : (Json.writeText "InnerTimestamp").length = 16 := by decide
  have hwrite : (Json.object [("InnerTimestamp", .integer seconds.toNat)]).write.length ≤ 39 := by
    simp only [Json.write, Json.writeMembers, List.length_cons, List.length_append, hname,
      List.length_nil]
    omega
  have hbytes := Bytes.length_ofText_le
    (Json.object [("InnerTimestamp", .integer seconds.toNat)]).write
  have hmax : Attribute.maxLength = 252 := rfl
  unfold stamp Json.render
  omega

/-! ## Codes -/

/-- The code that clients are told of what a submission comes to. -/
def codeOf : Except Refusal Unit → Int64
  | .ok () => 0
  | .error refusal => refusal.code

theorem codeOf_error_ne_zero (refusal : Refusal) : codeOf (.error refusal) ≠ 0 := by
  cases refusal with
  | duplicate hash =>
    show (45002 : Int64) ≠ 0
    decide
  | attributeTooLong length =>
    show (45006 : Int64) ≠ 0
    decide
  | emptyRecord =>
    show (45008 : Int64) ≠ 0
    decide

/-! ## Ways -/

/-- The ways in which the bytes of a request become a transaction. -/
inductive Way where
  /-- As attributes of a transfer, behind the time of submission. -/
  | transfer (seconds : UInt64)
  /-- As the payload of a record transaction. -/
  | record
deriving DecidableEq

namespace Way

/-- The transaction that is made from bytes. -/
def transaction : Way → Bytes → Transaction
  | transfer seconds, bytes => transferOf seconds bytes
  | record, bytes => recordOf bytes

theorem length_of_mem_attributes (way : Way) (bytes : Bytes) :
    ∀ a ∈ (way.transaction bytes).attributes, a.data.length ≤ Attribute.maxLength := by
  cases way with
  | transfer seconds =>
    intro a ha
    rcases List.mem_cons.mp ha with rfl | ha
    · rw [Attribute.data_description]
      exact length_stamp_le seconds
    · exact (Transaction.length_of_mem_describe ha).2
  | record =>
    intro a ha
    cases ha

/-- Only a record without bytes fails the check. -/
theorem check_eq_ok_iff {way : Way} {bytes : Bytes} :
    Pool.check (way.transaction bytes) = .ok () ↔ (way = .record → bytes ≠ []) := by
  rw [Pool.check_eq_ok_iff, and_iff_right (way.length_of_mem_attributes bytes)]
  cases way with
  | transfer seconds => simp [transaction, transferOf, Transaction.transfer]
  | record => simp [transaction, recordOf, Transaction.recording]

/-- No transaction is made in two ways, at two times or from two byte strings. -/
theorem transaction_inj {way way' : Way} {bytes bytes' : Bytes}
    (h : way.transaction bytes = way'.transaction bytes') : way = way' ∧ bytes = bytes' := by
  cases way with
  | transfer seconds =>
    cases way' with
    | transfer seconds' =>
      have hattributes : Attribute.description (stamp seconds) :: Transaction.describe bytes =
          Attribute.description (stamp seconds') :: Transaction.describe bytes' :=
        congrArg Transaction.attributes h
      obtain ⟨hfirst, hdescribe⟩ := List.cons_eq_cons.mp hattributes
      have hseconds := stamp_inj (Attribute.description_inj hfirst)
      exact ⟨congrArg transfer hseconds, Transaction.describe_inj hdescribe⟩
    | record => cases congrArg Transaction.kind h
  | record =>
    cases way' with
    | transfer seconds' => cases congrArg Transaction.kind h
    | record =>
      have hpayload := Option.some.inj (congrArg Transaction.payload h)
      exact ⟨rfl, congrArg Transaction.Payload.data hpayload⟩

theorem length_recordType_lt (way : Way) (bytes : Bytes) :
    ∀ p ∈ (way.transaction bytes).payload, (Bytes.ofText p.recordType).length < UInt64.size := by
  intro p hp
  cases way with
  | transfer seconds => cases hp
  | record =>
    cases hp
    show (Bytes.ofText typeName).length < _
    decide

/-- The way, its time and the bytes can be read off what is hashed of a transaction. -/
theorem preimage_inj {way way' : Way} {bytes bytes' : Bytes}
    (h : (way.transaction bytes).preimage = (way'.transaction bytes').preimage) :
    way = way' ∧ bytes = bytes' := by
  have hshort : ∀ (w : Way) (bs : Bytes), ∀ a ∈ (w.transaction bs).attributes,
      a.data.length < UInt64.size := by
    intro w bs a ha
    exact Nat.lt_of_le_of_lt (w.length_of_mem_attributes bs a ha) (by decide)
  -- the bytes of a record may be longer than their length can say, so the encoding is taken whole
  exact transaction_inj (Transaction.message_inj (hshort way bytes) (hshort way' bytes')
    (way.length_recordType_lt bytes) (way'.length_recordType_lt bytes')
    (Transaction.message_eq_of_preimage_eq h))

/-! ## Filing -/

/-- Files a request in one of the ways. -/
def submit : Way → Json → Pool → Response × Pool
  | transfer seconds, request, pool => submitTransfer request seconds pool
  | record, request, pool => submitRecord request pool

variable {way : Way} {request : Json} {bytes : Bytes} {pool : Pool}

/-- A request without bytes is not filed. -/
theorem submit_of_error {e : RequestError} (h : data request = .error e) :
    way.submit request pool = ({ code := Response.invalidParameters }, pool) := by
  cases way with
  | transfer seconds => simp only [submit, submitTransfer, h]
  | record => simp only [submit, submitRecord, h]

/-- What a request with bytes has for a result. A transfer that is refused has none. -/
def resultOf : Way → Bytes → Except Refusal Unit → String
  | transfer _, _, .error _ => ""
  | way, bytes, _ => (way.transaction bytes).hash.toHex

/-- A request with bytes is answered with what its transaction comes to. -/
theorem submit_eq_of_data (h : data request = .ok bytes) {outcome : Except Refusal Unit}
    {pool' : Pool} (hsubmit : pool.submit (way.transaction bytes) = (outcome, pool')) :
    way.submit request pool =
      ({ code := codeOf outcome, result := way.resultOf bytes outcome }, pool') := by
  cases way with
  | transfer seconds =>
    have hintake : Intake.submit (transferOf seconds bytes) pool = (outcome, pool') := hsubmit
    simp only [submit, submitTransfer, h, hintake]
    cases outcome with
    | ok => rfl
    | error refusal => rfl
  | record =>
    have hintake : Intake.submit (recordOf bytes) pool = (outcome, pool') := hsubmit
    simp only [submit, submitRecord, h, hintake]
    cases outcome with
    | ok => rfl
    | error refusal => rfl

/-- A request with bytes comes to what its transaction comes to. -/
theorem submit_of_data (h : data request = .ok bytes) {outcome : Except Refusal Unit}
    {pool' : Pool} (hsubmit : pool.submit (way.transaction bytes) = (outcome, pool')) :
    (way.submit request pool).2 = pool' ∧ (way.submit request pool).1.code = codeOf outcome := by
  rw [submit_eq_of_data h hsubmit]
  exact ⟨rfl, rfl⟩

end Way

end Record

end LedgerNode
