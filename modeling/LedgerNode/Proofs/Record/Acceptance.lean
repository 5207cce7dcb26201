import LedgerNode.Proofs.Record.Normalization

/-!
# Which structured requests are accepted

A structured request is refused for the first of three reasons: it has no record, a field of its
record does not fit, or it names no key. Each reader of a field succeeds exactly on the values that
fit the field, and the readers of a content and of a record succeed when those of their fields do.

A content is meant to be an object. A list is taken for one too, with its items for the fields.

- `Record.IsText`, `Record.IsNumber`, `Record.IsContent`, `Record.IsList`: what may stand in a
  field; `Record.Fits` says it of a record, given which contents are taken.
- `Record.readText_eq_ok_iff`, `Record.readNumber_eq_ok_iff`, `Record.readContent_eq_ok_iff`,
  `Record.read_eq_ok_iff`: what the readers take, and what they make of it.
- `Record.Verdict`: what becomes of a request, given which contents are taken.
- `Record.verdict_documented_iff`: contents and lists are taken, so that requests with a list are
  the ones that are not treated as if only contents were.
-/

namespace LedgerNode.Record

/-! ## What may stand in a field -/

/-- A field has no value, or null. -/
def Unset (f : Option Json) : Prop :=
  f = none ∨ f = some .null

/-- A field has a text or no value. -/
def IsText (f : Option Json) : Prop :=
  Unset f ∨ ∃ s, f = some (.text s)

/-- A field has a number or no value. -/
def IsNumber (f : Option Json) : Prop :=
  Unset f ∨ (∃ n, f = some (.integer n)) ∨ ∃ x, f = some (.real x)

/-- A field has no value, or an object whose fields have texts or no value. -/
def IsContent (f : Option Json) : Prop :=
  Unset f ∨ ∃ members, f = some (.object members) ∧
    ∀ name ∈ ["Algrithem", "Hash", "Signature", "Text"], IsText (select members name)

/-- A field has a list of at most four items, each a text or null. -/
def IsList (f : Option Json) : Prop :=
  ∃ items, f = some (.array items) ∧ items.length ≤ 4 ∧ ∀ item ∈ items, IsText (some item)

/-- The fields of a record have what may stand there, where `content` says which contents may. -/
structure Fits (content : Option Json → Prop) (members : Json.Members) : Prop where
  key : IsText (select members "CAkey")
  content : content (select members "Data")
  sequence : IsText (select members "SeqNo")
  timestamp : IsNumber (select members "Timestamp")

/-! ## What the readers take -/

theorem readText_eq_ok_iff {f : Option Json} {s : String} :
    readText f = .ok s ↔ IsText f ∧ s = textOf f := by
  constructor
  · intro h
    refine ⟨?_, eq_textOf_of_readText h⟩
    unfold readText at h
    split at h
    · exact .inl (.inl rfl)
    · exact .inl (.inr rfl)
    · exact .inr ⟨_, rfl⟩
    · cases h
  · rintro ⟨(rfl | rfl) | ⟨t, rfl⟩, rfl⟩ <;> rfl

/-- The number in a field, zero if there is none. -/
def numberOf : Option Json → Binary64
  | some (.integer n) => .ofInt n
  | some (.real x) => x
  | _ => .zero false

theorem readNumber_eq_ok_iff {f : Option Json} {x : Binary64} :
    readNumber f = .ok x ↔ IsNumber f ∧ x = numberOf f := by
  constructor
  · intro h
    unfold readNumber at h
    split at h <;> cases h
    · exact ⟨.inl (.inl rfl), rfl⟩
    · exact ⟨.inl (.inr rfl), rfl⟩
    · exact ⟨.inr (.inl ⟨_, rfl⟩), rfl⟩
    · exact ⟨.inr (.inr ⟨_, rfl⟩), rfl⟩
  · rintro ⟨(rfl | rfl) | ⟨n, rfl⟩ | ⟨y, rfl⟩, rfl⟩ <;> rfl

/-- A list of at most four items has texts when its first four places do. -/
theorem forall_isText_iff {items : List Json} (hlength : items.length ≤ 4) :
    (∀ item ∈ items, IsText (some item)) ↔
      IsText items[0]? ∧ IsText items[1]? ∧ IsText items[2]? ∧ IsText items[3]? := by
  have hplace : (∀ item ∈ items, IsText (some item)) ↔ ∀ i < 4, IsText items[i]? := by
    constructor
    · intro h i _
      cases hitem : items[i]? with
      | none => exact .inl (.inl rfl)
      | some item => exact h item (List.mem_of_getElem? hitem)
    · intro h item hitem
      obtain ⟨i, hi, rfl⟩ := List.getElem_of_mem hitem
      rw [← List.getElem?_eq_getElem hi]
      exact h i (by omega)
  rw [hplace]
  constructor
  · intro h
    exact ⟨h 0 (by omega), h 1 (by omega), h 2 (by omega), h 3 (by omega)⟩
  · rintro ⟨h0, h1, h2, h3⟩ i hi
    match i, hi with
    | 0, _ => exact h0
    | 1, _ => exact h1
    | 2, _ => exact h2
    | 3, _ => exact h3

theorem readContent_eq_ok_iff {f : Option Json} {c : Content} :
    readContent f = .ok c ↔ (IsContent f ∨ IsList f) ∧ c = contentOf f := by
  constructor
  · intro h
    refine ⟨?_, eq_contentOf_of_readContent h⟩
    unfold readContent at h
    split at h
    · exact .inl (.inl (.inl rfl))
    · exact .inl (.inl (.inr rfl))
    · rename_i members
      simp only [bind_eq_ok_iff, readText_eq_ok_iff] at h
      obtain ⟨_, ⟨halgorithm, -⟩, _, ⟨hhash, -⟩, _, ⟨hsignature, -⟩, _, ⟨htext, -⟩, -⟩ := h
      refine .inl (.inr ⟨members, rfl, ?_⟩)
      simp only [List.forall_mem_cons]
      exact ⟨halgorithm, hhash, hsignature, htext, nofun⟩
    · rename_i items
      simp only [bind_eq_ok_iff, readText_eq_ok_iff] at h
      obtain ⟨_, ⟨halgorithm, -⟩, _, ⟨hhash, -⟩, _, ⟨hsignature, -⟩, _, ⟨htext, -⟩, h⟩ := h
      split at h
      · cases h
      · rename_i hlength
        have hle := Nat.le_of_not_lt hlength
        exact .inr ⟨items, rfl, hle,
          (forall_isText_iff hle).mpr ⟨halgorithm, hhash, hsignature, htext⟩⟩
    · cases h
  · rintro ⟨((rfl | rfl) | ⟨members, rfl, htexts⟩) | ⟨items, rfl, hlength, htexts⟩, rfl⟩
    · rfl
    · rfl
    · simp only [List.forall_mem_cons] at htexts
      obtain ⟨halgorithm, hhash, hsignature, htext, -⟩ := htexts
      unfold readContent
      simp only [bind_eq_ok_iff, readText_eq_ok_iff]
      exact ⟨_, ⟨halgorithm, rfl⟩, _, ⟨hhash, rfl⟩, _, ⟨hsignature, rfl⟩, _, ⟨htext, rfl⟩, rfl⟩
    · obtain ⟨halgorithm, hhash, hsignature, htext⟩ := (forall_isText_iff hlength).mp htexts
      unfold readContent
      simp only [bind_eq_ok_iff, readText_eq_ok_iff, if_neg (Nat.not_lt.mpr hlength)]
      exact ⟨_, ⟨halgorithm, rfl⟩, _, ⟨hhash, rfl⟩, _, ⟨hsignature, rfl⟩, _, ⟨htext, rfl⟩, rfl⟩

/-- A record is read exactly when its fields fit. -/
theorem read_eq_ok_iff {members : Json.Members} {r : Record} :
    read members = .ok r ↔ Fits (fun f => IsContent f ∨ IsList f) members ∧
      r = { key := textOf (select members "CAkey"), content := contentOf (select members "Data"),
            sequence := textOf (select members "SeqNo"),
            timestamp := numberOf (select members "Timestamp") } := by
  unfold read
  simp only [bind_eq_ok_iff, readText_eq_ok_iff, readContent_eq_ok_iff, readNumber_eq_ok_iff]
  constructor
  · rintro ⟨_, ⟨hkey, rfl⟩, _, ⟨hcontent, rfl⟩, _, ⟨hsequence, rfl⟩, _, ⟨htimestamp, rfl⟩, hr⟩
    exact ⟨⟨hkey, hcontent, hsequence, htimestamp⟩, (Except.ok.inj hr).symm⟩
  · rintro ⟨⟨hkey, hcontent, hsequence, htimestamp⟩, rfl⟩
    exact ⟨_, ⟨hkey, rfl⟩, _, ⟨hcontent, rfl⟩, _, ⟨hsequence, rfl⟩, _, ⟨htimestamp, rfl⟩, rfl⟩

/-! ## What becomes of a request -/

/-- A request with a record that fits and with a key is accepted, and else it is refused for the
first thing that is wrong with it; `content` says which contents fit. -/
structure Verdict (content : Option Json → Prop) (request : Json) : Prop where
  accepted : (∃ bytes, data request = .ok bytes) ↔
    ∃ members key, request.get? "RecordData" = some (.object members) ∧ Fits content members ∧
      request.get? "CAkey" = some (.text key)
  notAnObject : data request = .error .notAnObject ↔
    ∀ members, request.get? "RecordData" ≠ some (.object members)
  malformed : (∃ e, data request = .error (.malformed e)) ↔
    ∃ members, request.get? "RecordData" = some (.object members) ∧ ¬ Fits content members
  missingKey : data request = .error .missingKey ↔
    ∃ members, request.get? "RecordData" = some (.object members) ∧ Fits content members ∧
      ∀ key, request.get? "CAkey" ≠ some (.text key)

theorem bind_members?_eq_some_iff {value : Option Json} {members : Json.Members} :
    value.bind Json.members? = some members ↔ value = some (.object members) := by
  rcases value with _ | _ | _ | _ | _ | _ | _ | _ <;> simp [Json.members?]

theorem bind_text?_eq_some_iff {value : Option Json} {s : String} :
    value.bind Json.text? = some s ↔ value = some (.text s) := by
  rcases value with _ | _ | _ | _ | _ | _ | _ | _ <;> simp [Json.text?]

/-- A structured request that is accepted has a record that fits, and is kept as what this has in
its fields, under the key of the request. -/
theorem data_structured_eq_ok {request : Json} {bytes : Bytes} (hraw : isRaw request = false)
    (hdata : data request = .ok bytes) : ∃ members key,
      request.get? "RecordData" = some (.object members) ∧
      request.get? "CAkey" = some (.text key) ∧
      Fits (fun f => IsContent f ∨ IsList f) members ∧
      bytes = Bytes.ofText (toJson {
        key, content := contentOf (select members "Data"),
        sequence := textOf (select members "SeqNo"),
        timestamp := numberOf (select members "Timestamp") }).render := by
  rw [data_of_not_isRaw hraw] at hdata
  obtain ⟨record, hrecord, rfl⟩ := map_eq_ok_iff.mp hdata
  obtain ⟨members, r, key, hmembers, hread, hkey, rfl⟩ := ofRequest_eq_ok_iff.mp hrecord
  obtain ⟨hfits, rfl⟩ := read_eq_ok_iff.mp hread
  exact ⟨members, key, bind_members?_eq_some_iff.mp hmembers, bind_text?_eq_some_iff.mp hkey, hfits,
    rfl⟩

/-- What is understood of a request, by cases on what is wrong with it. -/
theorem verdict_of_structured {request : Json} (hraw : isRaw request = false) :
    Verdict (fun f => IsContent f ∨ IsList f) request := by
  have hdata := data_of_not_isRaw hraw
  cases hmembers : (request.get? "RecordData").bind Json.members? with
  | none =>
    have hnone : ∀ members, request.get? "RecordData" ≠ some (.object members) := by
      intro members h
      rw [bind_members?_eq_some_iff.mpr h] at hmembers
      cases hmembers
    have hrequest : ofRequest request = .error .notAnObject := by
      unfold ofRequest
      rw [hmembers]
    rw [hrequest] at hdata
    constructor <;> simp [hdata, hnone, Except.map]
  | some members =>
    have hobject := bind_members?_eq_some_iff.mp hmembers
    cases hread : read members with
    | error e =>
      have hfits : ¬ Fits (fun f => IsContent f ∨ IsList f) members := by
        intro h
        rw [read_eq_ok_iff.mpr ⟨h, rfl⟩] at hread
        cases hread
      have hrequest : ofRequest request = .error (.malformed e) := by
        unfold ofRequest
        rw [hmembers]
        dsimp only
        rw [hread]
      rw [hrequest] at hdata
      constructor <;> simp [hdata, hobject, hfits, Except.map]
    | ok record =>
      have hfits := (read_eq_ok_iff.mp hread).1
      cases hkey : (request.get? "CAkey").bind Json.text? with
      | none =>
        have hnone : ∀ key, request.get? "CAkey" ≠ some (.text key) := by
          intro key h
          rw [bind_text?_eq_some_iff.mpr h] at hkey
          cases hkey
        have hrequest : ofRequest request = .error .missingKey := by
          unfold ofRequest
          rw [hmembers]
          dsimp only
          rw [hread]
          dsimp only
          rw [hkey]
        rw [hrequest] at hdata
        constructor <;> simp [hdata, hobject, hfits, hnone, Except.map]
      | some key =>
        have htext := bind_text?_eq_some_iff.mp hkey
        have hrequest := ofRequest_eq_ok_iff.mpr
          ⟨members, record, key, hmembers, hread, hkey, rfl⟩
        rw [hrequest] at hdata
        constructor <;> simp [hdata, hobject, hfits, htext, Except.map]

/-- Whether a list is taken or not makes no difference where there is none. -/
theorem fits_or_isList_iff {members : Json.Members} (h : ¬ Fits IsList members) :
    Fits (fun f => IsContent f ∨ IsList f) members ↔ Fits IsContent members := by
  constructor
  · rintro ⟨hkey, hcontent | hlist, hsequence, htimestamp⟩
    · exact ⟨hkey, hcontent, hsequence, htimestamp⟩
    · exact absurd ⟨hkey, hlist, hsequence, htimestamp⟩ h
  · rintro ⟨hkey, hcontent, hsequence, htimestamp⟩
    exact ⟨hkey, .inl hcontent, hsequence, htimestamp⟩

theorem not_isContent_of_isList {f : Option Json} (h : IsList f) : ¬ IsContent f := by
  obtain ⟨items, rfl, -⟩ := h
  rintro ((h | h) | ⟨members, h, -⟩) <;> cases h

/-- A structured request is accepted when its record is an object with texts for key and sequence,
a number for the point in time, and a content that is an object of texts or a list of at most four,
all of which may be missing or null, and when it names a key; and else it is refused for the first
of these things that is wrong. So lists are what sets the verdict apart from one that asks for an
object: the two agree on a request unless it has a record that fits but for a list. -/
theorem verdict_documented_iff {request : Json} (hraw : isRaw request = false) :
    Verdict (fun f => IsContent f ∨ IsList f) request ∧
      (Verdict IsContent request ↔
        ∀ members, request.get? "RecordData" = some (.object members) → ¬ Fits IsList members) := by
  have hverdict := verdict_of_structured hraw
  refine ⟨hverdict, ?_, ?_⟩
  · intro hdocumented members hobject hlist
    have hnot : ¬ Fits IsContent members := fun h => not_isContent_of_isList hlist.content h.content
    obtain ⟨_, hother, hmalformed⟩ := hverdict.malformed.mp
      (hdocumented.malformed.mpr ⟨members, hobject, hnot⟩)
    obtain rfl : members = _ := Json.object.inj (Option.some.inj (hobject.symm.trans hother))
    exact hmalformed ⟨hlist.key, .inr hlist.content, hlist.sequence, hlist.timestamp⟩
  · intro hnone
    have hsame : ∀ members, request.get? "RecordData" = some (.object members) →
        (Fits (fun f => IsContent f ∨ IsList f) members ↔ Fits IsContent members) :=
      fun members h => fits_or_isList_iff (hnone members h)
    constructor
    · rw [hverdict.accepted]
      refine exists_congr fun members => exists_congr fun key => and_congr_right fun h => ?_
      rw [hsame members h]
    · exact hverdict.notAnObject
    · rw [hverdict.malformed]
      refine exists_congr fun members => and_congr_right fun h => ?_
      rw [hsame members h]
    · rw [hverdict.missingKey]
      refine exists_congr fun members => and_congr_right fun h => ?_
      rw [hsame members h]

/-- A list of five items is refused like any other value that is no object. -/
theorem verdict_documented_iff_five_items :
    let request := Json.object [("CAkey", .text "k"), ("RecordData", .object [
      ("CAkey", .null), ("Data", .array [.text "a", .text "b", .null, .text "d", .null]),
      ("SeqNo", .null), ("Timestamp", .null)])]
    Verdict IsContent request ∧ ∃ e, data request = .error (.malformed e) := by
  intro request
  have hraw : isRaw request = false := by rfl
  have hlong : ∀ members, request.get? "RecordData" = some (.object members) →
      ¬ Fits IsList members := by
    rintro _ ⟨⟩ hfits
    obtain ⟨items, hitems, hlength, -⟩ := hfits.content
    cases hitems
    exact absurd hlength (by decide)
  have hdocumented := (verdict_documented_iff hraw).2.mpr hlong
  refine ⟨hdocumented, hdocumented.malformed.mpr ⟨_, rfl, fun hfits => ?_⟩⟩
  rcases hfits.content with (h | h) | ⟨members, h, -⟩ <;> cases h

/-- A list of one item is taken for a content. -/
theorem list_taken_for_content :
    let request := Json.object [("CAkey", .text "k"),
      ("RecordData", .object [("Data", .array [.text "a"])])]
    isRaw request = false ∧ (∃ bytes, data request = .ok bytes) ∧ ¬ Verdict IsContent request := by
  intro request
  have hraw : isRaw request = false := by rfl
  let members : Json.Members := [("Data", .array [.text "a"])]
  have hselect : select members "CAkey" = none ∧
      select members "Data" = some (.array [.text "a"]) ∧ select members "SeqNo" = none ∧
      select members "Timestamp" = none := by
    simp [members, select, Json.find?, List.lookup_cons, Text.sameFolded_iff]
  obtain ⟨hkey, hdata, hsequence, htimestamp⟩ := hselect
  have hlist : IsList (select members "Data") := by
    refine ⟨_, hdata, by decide, ?_⟩
    rw [List.forall_mem_singleton]
    exact .inr ⟨_, rfl⟩
  have hfits : Fits (fun f => IsContent f ∨ IsList f) members :=
    ⟨.inl (.inl hkey), .inr hlist, .inl (.inl hsequence), .inl (.inl htimestamp)⟩
  have haccepted : ∃ bytes, data request = .ok bytes :=
    (verdict_of_structured hraw).accepted.mpr ⟨members, _, rfl, hfits, rfl⟩
  refine ⟨hraw, haccepted, fun hdocumented => ?_⟩
  obtain ⟨_, _, hobject, hcontent, -⟩ := hdocumented.accepted.mp haccepted
  cases hobject
  exact not_isContent_of_isList hlist hcontent.content

end LedgerNode.Record
