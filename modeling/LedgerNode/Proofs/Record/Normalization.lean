import LedgerNode.Proofs.Json.RoundTrip
import LedgerNode.Proofs.Number.Integers
import LedgerNode.Proofs.Outcome
import LedgerNode.Record.Request

/-!
# A record that is kept asks for itself

A structured request is kept as a record in its JSON form, with every field under its own name, in
one order and with nothing left out. A request that has this very record is kept in the same bytes.

- `Record.field`, `Record.itemOf`: what the record of a request has in a field, and what a content
  has.
- `Record.textOf`, `Record.timeOf`, `Record.WholeTime`: the text and the point in time that are
  given there, and when that point is one that floating-point numbers hold.
- `Record.keptForm`: the JSON form in which a request is kept.
- `Record.data_structured`: the bytes of a structured request are its kept form.
- `Record.data_keptForm`: a kept form asks for its own bytes.
- `Record.kept_asks_for_itself`: both together, with the value that the bytes denote.
-/

namespace LedgerNode.Record

/-! ## What is given in the fields of a request -/

/-- What the record of a request has in a field. -/
def field (request : Json) (name : String) : Option Json :=
  ((request.get? "RecordData").bind Json.members?).bind fun members => select members name

/-- What a content has in a field: under its name in an object, and at its position in a list. -/
def itemOf (content : Option Json) (name : String) (position : Nat) : Option Json :=
  match content with
  | some (.object members) => select members name
  | some (.array items) => items[position]?
  | _ => none

/-- The text given in a field, empty if there is none. -/
def textOf : Option Json → String
  | some (.text s) => s
  | _ => ""

/-- A field without a point in time, or with a whole one no further from zero than `2 ^ 53`. -/
def WholeTime : Option Json → Prop
  | none | some .null => True
  | some (.integer n) => n.natAbs ≤ 2 * Binary64.leadingBit
  | some (.real x) => ∃ n, x.whole? = some n ∧ n.natAbs ≤ 2 * Binary64.leadingBit
  | some _ => False

/-- The point in time given in a field, zero if there is none. -/
def timeOf : Option Json → Int
  | some (.integer n) => n
  | some (.real x) => x.whole?.getD 0
  | _ => 0

/-- The content given in a field. -/
def contentOf (content : Option Json) : Content where
  algorithm := textOf (itemOf content "Algrithem" 0)
  hash := textOf (itemOf content "Hash" 1)
  signature := textOf (itemOf content "Signature" 2)
  text := textOf (itemOf content "Text" 3)

theorem eq_textOf_of_readText {f : Option Json} {s : String} (h : readText f = .ok s) :
    s = textOf f := by
  unfold readText at h
  split at h
  · cases h
    rfl
  · cases h
    rfl
  · cases h
    rfl
  · cases h

theorem eq_contentOf_of_readContent {f : Option Json} {c : Content} (h : readContent f = .ok c) :
    c = contentOf f := by
  unfold readContent at h
  split at h
  · cases h
    rfl
  · cases h
    rfl
  · simp only [bind_eq_ok_iff] at h
    obtain ⟨algorithm, halgorithm, hash, hhash, signature, hsignature, text, htext, hc⟩ := h
    cases hc
    rw [eq_textOf_of_readText halgorithm, eq_textOf_of_readText hhash,
      eq_textOf_of_readText hsignature, eq_textOf_of_readText htext]
    rfl
  · simp only [bind_eq_ok_iff] at h
    obtain ⟨algorithm, halgorithm, hash, hhash, signature, hsignature, text, htext, h⟩ := h
    split at h
    · cases h
    · cases h
      rw [eq_textOf_of_readText halgorithm, eq_textOf_of_readText hhash,
        eq_textOf_of_readText hsignature, eq_textOf_of_readText htext]
      rfl
  · cases h

/-- A whole point in time is read as a number that is just as whole. -/
theorem whole?_of_readNumber {f : Option Json} {x : Binary64} (h : readNumber f = .ok x)
    (hwhole : WholeTime f) :
    x.whole? = some (timeOf f) ∧ (timeOf f).natAbs ≤ 2 * Binary64.leadingBit := by
  unfold readNumber at h
  split at h
  · cases h
    exact ⟨rfl, Nat.zero_le _⟩
  · cases h
    exact ⟨rfl, Nat.zero_le _⟩
  · cases h
    exact ⟨Binary64.whole?_ofInt hwhole, hwhole⟩
  · cases h
    obtain ⟨n, hn, hle⟩ := hwhole
    rw [timeOf, hn]
    exact ⟨rfl, hle⟩
  · cases h

/-- Numbers that are whole within `2 ^ 53` are written as integers. -/
theorem numberJson_of_whole? {x : Binary64} {n : Int} (h : x.whole? = some n)
    (hn : n.natAbs ≤ 2 * Binary64.leadingBit) : numberJson x = .integer n := by
  have hbound : 2 * Binary64.leadingBit = 0x20000000000000 := rfl
  have hmin : Int64.minValue.toInt = -0x8000000000000000 := by decide
  have hmax : Int64.maxValue.toInt = 0x7fffffffffffffff := by decide
  unfold numberJson
  rw [h]
  dsimp only
  rw [if_pos]
  omega

/-! ## The form in which requests are kept -/

/-- The JSON form of a record under a key, with a whole point in time. -/
def keptForm (key : String) (content : Content) (sequence : String) (time : Int) : Json :=
  .object [("CAkey", .text key),
    ("Data", .object [("Algrithem", .text content.algorithm), ("Hash", .text content.hash),
      ("Signature", .text content.signature), ("Text", .text content.text)]),
    ("SeqNo", .text sequence), ("Timestamp", .integer time)]

theorem toJson_eq_keptForm {r : Record} {time : Int} (h : r.timestamp.whole? = some time)
    (htime : time.natAbs ≤ 2 * Binary64.leadingBit) :
    r.toJson = keptForm r.key r.content r.sequence time := by
  rw [toJson, numberJson_of_whole? h htime]
  rfl

/-- The names of a kept form are in order. -/
theorem plain_keptForm (key : String) (content : Content) (sequence : String) {time : Int}
    (htime : time.natAbs ≤ 2 * Binary64.leadingBit) :
    (keptForm key content sequence time).Plain := by
  have hfits : Json.FitsInteger time := by
    have hbound : 2 * Binary64.leadingBit = 0x20000000000000 := rfl
    exact Json.fitsInteger_iff.mpr (by omega)
  have hcontent : Json.Plain (.object [("Algrithem", .text content.algorithm),
      ("Hash", .text content.hash), ("Signature", .text content.signature),
      ("Text", .text content.text)]) := by
    have hnames : ["Algrithem", "Hash", "Signature", "Text"].Pairwise (· < ·) := by decide
    refine .object (List.pairwise_map.mp hnames) ?_
    simp only [List.forall_mem_cons]
    exact ⟨.text _, .text _, .text _, .text _, nofun⟩
  have hnames : ["CAkey", "Data", "SeqNo", "Timestamp"].Pairwise (· < ·) := by decide
  refine .object (List.pairwise_map.mp hnames) ?_
  simp only [List.forall_mem_cons]
  exact ⟨.text _, hcontent, .text _, .integer hfits, nofun⟩

/-! ## Requests -/

/-- A structured request is understood when its record is and it names a key, and its record is
then put under that key. -/
theorem ofRequest_eq_ok_iff {request : Json} {record : Record} :
    ofRequest request = .ok record ↔ ∃ members r key,
      (request.get? "RecordData").bind Json.members? = some members ∧ read members = .ok r ∧
        (request.get? "CAkey").bind Json.text? = some key ∧ record = { r with key } := by
  constructor
  · intro h
    unfold ofRequest at h
    split at h
    · cases h
    · rename_i members hmembers
      split at h
      · cases h
      · rename_i r hread
        split at h
        · cases h
        · rename_i key hkey
          cases h
          exact ⟨members, r, key, hmembers, hread, hkey, rfl⟩
  · rintro ⟨members, r, key, hmembers, hread, hkey, rfl⟩
    unfold ofRequest
    rw [hmembers]
    dsimp only
    rw [hread]
    dsimp only
    rw [hkey]

theorem data_of_not_isRaw {request : Json} (hraw : isRaw request = false) :
    data request = (ofRequest request).map fun record => Bytes.ofText record.toJson.render := by
  unfold data
  rw [if_neg (ne_true_of_eq_false hraw)]

theorem read_eq_ok {members : Json.Members} {r : Record} (h : read members = .ok r) :
    r.content = contentOf (select members "Data") ∧ r.sequence = textOf (select members "SeqNo") ∧
      readNumber (select members "Timestamp") = .ok r.timestamp := by
  unfold read at h
  simp only [bind_eq_ok_iff] at h
  obtain ⟨key, -, content, hcontent, sequence, hsequence, timestamp, htimestamp, hr⟩ := h
  cases hr
  exact ⟨eq_contentOf_of_readContent hcontent, eq_textOf_of_readText hsequence, htimestamp⟩

/-- The bytes of a structured request with a whole point in time are its kept form. -/
theorem data_structured {request : Json} {bytes : Bytes} (hraw : isRaw request = false)
    (hdata : data request = .ok bytes) (htime : WholeTime (field request "Timestamp")) :
    ∃ key, request.get? "CAkey" = some (.text key) ∧
      (timeOf (field request "Timestamp")).natAbs ≤ 2 * Binary64.leadingBit ∧
      bytes = Bytes.ofText (keptForm key (contentOf (field request "Data"))
        (textOf (field request "SeqNo")) (timeOf (field request "Timestamp"))).render := by
  rw [data_of_not_isRaw hraw] at hdata
  obtain ⟨record, hrecord, rfl⟩ := map_eq_ok_iff.mp hdata
  obtain ⟨members, r, key, hmembers, hread, hkey, rfl⟩ := ofRequest_eq_ok_iff.mp hrecord
  have hfield : ∀ name, field request name = select members name := by
    intro name
    unfold field
    rw [hmembers]
    rfl
  obtain ⟨hcontent, hsequence, hnumber⟩ := read_eq_ok hread
  rw [hfield] at htime
  obtain ⟨hwhole, hle⟩ := whole?_of_readNumber hnumber htime
  refine ⟨key, ?_, by rw [hfield]; exact hle, ?_⟩
  · obtain ⟨value, hvalue, htext⟩ := Option.bind_eq_some_iff.mp hkey
    rw [hvalue]
    cases value <;> cases htext
    rfl
  · rw [hfield, hfield, hfield, ← hcontent, ← hsequence,
      ← toJson_eq_keptForm (r := { r with key }) hwhole hle]

/-- A kept form asks for its own bytes. -/
theorem data_keptForm (key : String) (content : Content) (sequence : String) {time : Int}
    (htime : time.natAbs ≤ 2 * Binary64.leadingBit) :
    data (.object [("CAkey", .text key), ("RecordData", keptForm key content sequence time)]) =
      .ok (Bytes.ofText (keptForm key content sequence time).render) := by
  have hread : ofRequest (.object [("CAkey", .text key),
      ("RecordData", keptForm key content sequence time)]) =
        .ok { key, content, sequence, timestamp := .ofInt time } := by
    rfl
  have hraw : isRaw (.object [("CAkey", .text key),
      ("RecordData", keptForm key content sequence time)]) = false := by
    rfl
  have hjson := toJson_eq_keptForm (r := { key, content, sequence, timestamp := .ofInt time })
    (Binary64.whole?_ofInt htime) htime
  rw [data_of_not_isRaw hraw, hread, ← hjson]
  rfl

/-- A structured request is kept as an object of all fields under their own names, with the texts
that it gives, and the request for this object is kept in the same bytes. -/
theorem kept_asks_for_itself {request : Json} {bytes : Bytes} (hraw : isRaw request = false)
    (hdata : data request = .ok bytes) (htime : WholeTime (field request "Timestamp")) :
    ∃ key, request.get? "CAkey" = some (.text key) ∧
      let value := Json.object [("CAkey", .text key),
        ("Data", .object [
          ("Algrithem", .text (textOf (itemOf (field request "Data") "Algrithem" 0))),
          ("Hash", .text (textOf (itemOf (field request "Data") "Hash" 1))),
          ("Signature", .text (textOf (itemOf (field request "Data") "Signature" 2))),
          ("Text", .text (textOf (itemOf (field request "Data") "Text" 3)))]),
        ("SeqNo", .text (textOf (field request "SeqNo"))),
        ("Timestamp", .integer (timeOf (field request "Timestamp")))]
      bytes.text?.bind Json.read? = some value ∧
        data (.object [("CAkey", .text key), ("RecordData", value)]) = .ok bytes := by
  obtain ⟨key, hkey, hle, rfl⟩ := data_structured hraw hdata htime
  let content := contentOf (field request "Data")
  let sequence := textOf (field request "SeqNo")
  refine ⟨key, hkey, ?_, data_keptForm key content sequence hle⟩
  rw [Bytes.text?_ofText, Option.bind_some,
    Json.read?_render (plain_keptForm key content sequence hle)]
  rfl

/-- A request with a key inside its record as well, a content given as a list, texts that need
escapes, a field without a value and a point in time at the bound. -/
theorem kept_asks_for_itself_listed :
    let request := Json.object [("CAkey", .text "k"), ("RecordData", .object [
      ("CAkey", .text "other"),
      ("Data", .array [.text "sha\"256\"", .null, .text "\n", .text "ü"]), ("SeqNo", .null),
      ("Timestamp", .integer (-0x20000000000000))])]
    let value := keptForm "k"
      { algorithm := "sha\"256\"", hash := "", signature := "\n", text := "ü" } ""
      (-0x20000000000000)
    ∃ bytes, data request = .ok bytes ∧ bytes.text?.bind Json.read? = some value ∧
      data (.object [("CAkey", .text "k"), ("RecordData", value)]) = .ok bytes := by
  intro request value
  have hraw : isRaw request = false := by rfl
  obtain ⟨record, hrecord⟩ : ∃ record, ofRequest request = .ok record := ⟨_, rfl⟩
  have hdata : data request = .ok (Bytes.ofText record.toJson.render) := by
    rw [data_of_not_isRaw hraw, hrecord]
    rfl
  have hcontent : field request "Data" =
      some (.array [.text "sha\"256\"", .null, .text "\n", .text "ü"]) := by rfl
  have hsequence : field request "SeqNo" = some .null := by rfl
  have htimestamp : field request "Timestamp" = some (.integer (-0x20000000000000)) := by rfl
  have htime : WholeTime (field request "Timestamp") := by
    rw [htimestamp]
    show (-0x20000000000000 : Int).natAbs ≤ 2 * Binary64.leadingBit
    decide
  obtain ⟨key, hkey, hvalue, hkept⟩ := kept_asks_for_itself hraw hdata htime
  rw [hcontent, hsequence, htimestamp] at hvalue hkept
  cases hkey
  exact ⟨_, hdata, hvalue, hkept⟩

end LedgerNode.Record
