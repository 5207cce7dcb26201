import LedgerNode.Proofs.Record.Acceptance
import LedgerNode.Proofs.Text.ByteOrder

/-!
# Which member of a record is used

The names of a record's fields may be spelled in any case, so that several members may stand for one
field. One of them is chosen: the one of exactly the name, and else the last in the order of bytes.
Whatever other members there are, they play no role, neither for the record that is kept nor, since
the key of the request takes its place, does the key that is chosen inside the record.

- `Record.Chosen`: the member that is chosen for a field, if there is one. `Record.chosen_iff` says
  that this is the one selected.
- `Record.SameUse`, `Record.Agree`, `Record.SameFields`: fields and records of which the same is
  used.
- `Record.fields_chosen`: the record that is kept of a request, and that it is the same for requests
  of which the same is used.
-/

namespace LedgerNode.Record

open Json (Ascending)

/-! ## The member that is chosen -/

/-- What an object has for a field: the value of the member of exactly the field's name; without
one, the value of the greatest member, as byte strings go, whose name is the field's but for case;
and without any of these, nothing. -/
inductive Chosen (members : Json.Members) (name : String) : Option Json → Prop where
  | exact {value : Json} (hmem : (name, value) ∈ members) : Chosen members name (some value)
  | folded {key : String} {value : Json} (hexact : ∀ v, (name, v) ∉ members)
    (hmem : (key, value) ∈ members) (hkey : Text.sameFolded key name = true)
    (hgreatest : ∀ m ∈ members, Text.sameFolded m.1 name = true →
      Bytes.ofText m.1 ≤ Bytes.ofText key) : Chosen members name (some value)
  | absent (hnone : ∀ m ∈ members, Text.sameFolded m.1 name = false) : Chosen members name none

/-- The last of some members in order is the greatest. -/
theorem ofText_le_of_getLast? {members : Json.Members} (h : Ascending members)
    {key : String} {value : Json} (hlast : members.getLast? = some (key, value)) :
    ∀ m ∈ members, Bytes.ofText m.1 ≤ Bytes.ofText key := by
  obtain ⟨front, rfl⟩ := List.getLast?_eq_some_iff.mp hlast
  intro m hm hlt
  rw [Bytes.ofText_lt_ofText_iff] at hlt
  rcases List.mem_append.mp hm with hfront | hm
  · have hless := (List.pairwise_append.mp h).2.2 m hfront _ List.mem_cons_self
    exact String.lt_asymm hlt hless
  · rw [List.mem_singleton.mp hm] at hlt
    exact String.lt_irrefl _ hlt

theorem chosen_select {members : Json.Members} (h : Ascending members) (name : String) :
    Chosen members name (select members name) := by
  unfold select
  cases hexact : Json.find? members name with
  | some value => exact .exact (Json.mem_of_find? hexact)
  | none =>
    dsimp only
    cases hlast : (members.filter fun m => Text.sameFolded m.1 name).getLast? with
    | none =>
      rw [List.getLast?_eq_none_iff, List.filter_eq_nil_iff] at hlast
      exact .absent fun m hm => Bool.eq_false_iff.mpr (hlast m hm)
    | some m =>
      obtain ⟨key, value⟩ := m
      have hfiltered := List.mem_filter.mp (List.mem_of_getLast? hlast)
      have hordered : Ascending (members.filter fun m => Text.sameFolded m.1 name) := h.filter _
      refine .folded (Json.find?_eq_none_iff.mp hexact) hfiltered.1 hfiltered.2 fun m hm hsame => ?_
      exact ofText_le_of_getLast? hordered hlast m (List.mem_filter.mpr ⟨hm, hsame⟩)

/-- Only one thing can be chosen. -/
theorem Chosen.unique {members : Json.Members} (h : Ascending members) {name : String}
    {f g : Option Json} (hf : Chosen members name f) (hg : Chosen members name g) : f = g := by
  have hsame : ∀ {key : String} {v w : Json}, (key, v) ∈ members → (key, w) ∈ members →
      some v = some w := by
    intro key v w hv hw
    rw [← (Json.find?_eq_some_iff h).mpr hv, (Json.find?_eq_some_iff h).mpr hw]
  cases hf with
  | exact hmem =>
    cases hg with
    | exact hmem' => exact hsame hmem hmem'
    | folded hexact' => exact absurd hmem (hexact' _)
    | absent hnone' => simpa using hnone' _ hmem
  | folded hexact hmem hkey hgreatest =>
    cases hg with
    | exact hmem' => exact absurd hmem' (hexact _)
    | folded hexact' hmem' hkey' hgreatest' =>
      have hle := hgreatest _ hmem' hkey'
      have hge := hgreatest' _ hmem hkey
      obtain rfl := Bytes.ofText_inj (List.le_antisymm hge hle)
      exact hsame hmem hmem'
    | absent hnone' => exact absurd hkey (Bool.eq_false_iff.mp (hnone' _ hmem))
  | absent hnone =>
    cases hg with
    | exact hmem' => simpa using hnone _ hmem'
    | folded _ hmem' hkey' => exact absurd hkey' (Bool.eq_false_iff.mp (hnone _ hmem'))
    | absent => rfl

theorem chosen_iff {members : Json.Members} (h : Ascending members) {name : String}
    {f : Option Json} : Chosen members name f ↔ f = select members name := by
  constructor
  · intro hf
    exact hf.unique h (chosen_select h name)
  · rintro rfl
    exact chosen_select h name

/-! ## What is used of a record -/

/-- An object gives a text for a field: the one chosen, or the empty one if none or null is. -/
def GivesText (members : Json.Members) (name : String) (s : String) : Prop :=
  ∃ f, Chosen members name f ∧ IsText f ∧ s = textOf f

/-- An object gives a number for a field: the one chosen, or zero if none or null is. -/
def GivesNumber (members : Json.Members) (name : String) (x : Binary64) : Prop :=
  ∃ f, Chosen members name f ∧ IsNumber f ∧ x = numberOf f

/-- An object gives a content for a field: what the object chosen gives for each field of a content,
or the items of the list chosen, or an empty one if none or null is. -/
def GivesContent (members : Json.Members) (name : String) (c : Content) : Prop :=
  ∃ f, Chosen members name f ∧
    ((Unset f ∧ c = {}) ∨
      (∃ inner, f = some (.object inner) ∧ GivesText inner "Algrithem" c.algorithm ∧
        GivesText inner "Hash" c.hash ∧ GivesText inner "Signature" c.signature ∧
        GivesText inner "Text" c.text) ∨
      (IsList f ∧ c = contentOf f))

theorem givesText_iff {members : Json.Members} (h : Ascending members) {name s : String} :
    GivesText members name s ↔
      IsText (select members name) ∧ s = textOf (select members name) := by
  simp [GivesText, chosen_iff h]

theorem givesNumber_iff {members : Json.Members} (h : Ascending members) {name : String}
    {x : Binary64} : GivesNumber members name x ↔
      IsNumber (select members name) ∧ x = numberOf (select members name) := by
  simp [GivesNumber, chosen_iff h]

theorem givesContent_iff {members : Json.Members} (h : Json.Ordered (.object members))
    {name : String} {c : Content} : GivesContent members name c ↔
      (IsContent (select members name) ∨ IsList (select members name)) ∧
        c = contentOf (select members name) := by
  constructor
  · rintro ⟨f, hf, hgives⟩
    rw [chosen_iff h.ascending] at hf
    rw [← hf]
    rcases hgives with ⟨hunset, rfl⟩ |
      ⟨inner, rfl, halgorithm, hhash, hsignature, htext⟩ | ⟨hlist, rfl⟩
    · refine ⟨.inl (.inl hunset), ?_⟩
      rcases hunset with rfl | rfl <;> rfl
    · have hascending : Ascending inner := (ordered_of_select h hf.symm).ascending
      rw [givesText_iff hascending] at halgorithm hhash hsignature htext
      refine ⟨.inl (.inr ⟨inner, rfl, ?_⟩), ?_⟩
      · simp only [List.forall_mem_cons]
        exact ⟨halgorithm.1, hhash.1, hsignature.1, htext.1, List.forall_mem_nil _⟩
      · unfold contentOf
        dsimp only [itemOf]
        rw [← halgorithm.2, ← hhash.2, ← hsignature.2, ← htext.2]
    · exact ⟨.inr hlist, rfl⟩
  · rintro ⟨hcontent, rfl⟩
    refine ⟨_, chosen_select h.ascending name, ?_⟩
    rcases hcontent with (hunset | ⟨inner, hinner, htexts⟩) | hlist
    · refine .inl ⟨hunset, ?_⟩
      rcases hunset with hunset | hunset <;> rw [hunset] <;> rfl
    · have hascending : Ascending inner := (ordered_of_select h hinner).ascending
      simp only [List.forall_mem_cons] at htexts
      obtain ⟨halgorithm, hhash, hsignature, htext, -⟩ := htexts
      rw [hinner]
      refine .inr (.inl ⟨inner, rfl, ?_⟩)
      simp only [givesText_iff hascending]
      exact ⟨⟨halgorithm, rfl⟩, ⟨hhash, rfl⟩, ⟨hsignature, rfl⟩, ⟨htext, rfl⟩⟩
    · exact .inr (.inr ⟨hlist, rfl⟩)

/-! ## Records of which the same is used -/

/-- Two fields have the same value, or both have none or null. -/
def SameUse (f g : Option Json) : Prop :=
  f = g ∨ (Unset f ∧ Unset g)

/-- What is chosen for a field comes to the same in two objects. -/
def Agree (members others : Json.Members) (name : String) : Prop :=
  ∃ f g, Chosen members name f ∧ Chosen others name g ∧ SameUse f g

/-- The members of a field's object; a field without value, or with null, has no members. -/
def HasMembers (f : Option Json) (members : Json.Members) : Prop :=
  f = some (.object members) ∨ (Unset f ∧ members = [])

/-- Two records agree in the sequence, the point in time and the content. Of two contents that are
objects, the fields agree. -/
structure SameFields (members others : Json.Members) : Prop where
  sequence : Agree members others "SeqNo"
  timestamp : Agree members others "Timestamp"
  content : ∃ f g, Chosen members "Data" f ∧ Chosen others "Data" g ∧
    (SameUse f g ∨ ∃ inner inner', HasMembers f inner ∧ HasMembers g inner' ∧
      ∀ name ∈ contentNames, Agree inner inner' name)

theorem agree_iff {members others : Json.Members} (hmembers : Ascending members)
    (hothers : Ascending others) {name : String} :
    Agree members others name ↔ SameUse (select members name) (select others name) := by
  simp [Agree, chosen_iff hmembers, chosen_iff hothers]

theorem SameUse.textOf_eq {f g : Option Json} (h : SameUse f g) : textOf f = textOf g := by
  rcases h with rfl | ⟨rfl | rfl, rfl | rfl⟩ <;> rfl

theorem SameUse.numberOf_eq {f g : Option Json} (h : SameUse f g) : numberOf f = numberOf g := by
  rcases h with rfl | ⟨rfl | rfl, rfl | rfl⟩ <;> rfl

theorem SameUse.contentOf_eq {f g : Option Json} (h : SameUse f g) : contentOf f = contentOf g := by
  rcases h with rfl | ⟨rfl | rfl, rfl | rfl⟩ <;> rfl

theorem contentOf_of_hasMembers {f : Option Json} {inner : Json.Members} (h : HasMembers f inner) :
    contentOf f = contentOf (some (.object inner)) := by
  rcases h with rfl | ⟨rfl | rfl, rfl⟩ <;> rfl

theorem ascending_of_hasMembers {f : Option Json} {inner : Json.Members} (h : HasMembers f inner)
    (hordered : ∀ value, f = some value → value.Ordered) : Ascending inner := by
  rcases h with hinner | ⟨-, rfl⟩
  · exact (hordered _ hinner).ascending
  · exact List.Pairwise.nil

/-- Contents of which the same is used are equal. -/
theorem SameFields.contentOf_eq {members others : Json.Members} (h : SameFields members others)
    (hmembers : Json.Ordered (.object members)) (hothers : Json.Ordered (.object others)) :
    contentOf (select members "Data") = contentOf (select others "Data") := by
  obtain ⟨f, g, hf, hg, hsame | ⟨inner, inner', hinner, hinner', hagree⟩⟩ := h.content
  · rw [← (chosen_iff hmembers.ascending).mp hf, ← (chosen_iff hothers.ascending).mp hg]
    exact hsame.contentOf_eq
  · obtain rfl := (chosen_iff hmembers.ascending).mp hf
    obtain rfl := (chosen_iff hothers.ascending).mp hg
    have hascending := ascending_of_hasMembers hinner fun _ => ordered_of_select hmembers
    have hascending' := ascending_of_hasMembers hinner' fun _ => ordered_of_select hothers
    have htext : ∀ name ∈ contentNames,
        textOf (select inner name) = textOf (select inner' name) :=
      fun name hname => ((agree_iff hascending hascending').mp (hagree name hname)).textOf_eq
    rw [contentOf_of_hasMembers hinner, contentOf_of_hasMembers hinner']
    unfold contentOf
    dsimp only [itemOf]
    rw [htext "Algrithem" (by decide), htext "Hash" (by decide), htext "Signature" (by decide),
      htext "Text" (by decide)]

/-! ## The bytes of a request -/

/-- Requests with the same key, of whose records the same is read, are kept in the same bytes. -/
theorem data_eq_of_read_eq {request other : Json} {bytes : Bytes} (hraw : isRaw request = false)
    (hraw' : isRaw other = false) (hdata : data request = .ok bytes)
    {members others : Json.Members} (hmembers : request.get? "RecordData" = some (.object members))
    (hothers : other.get? "RecordData" = some (.object others))
    (hkey : other.get? "CAkey" = request.get? "CAkey") (hread : read others = read members) :
    data other = .ok bytes := by
  rw [data_of_not_isRaw hraw] at hdata
  rw [data_of_not_isRaw hraw', ← hdata]
  unfold ofRequest
  rw [hmembers, hothers, hkey]
  dsimp only [Option.bind_some, Json.members?]
  rw [hread]

/-- What is kept of a structured request is, for each field of its record and of its content, the
value of the member of exactly the field's name, or else of the greatest member of that name but for
case, or else the default, which null stands for too. So the members that are not chosen may as well
be missing, and any request that is accepted with the same key, and of whose record the same is
used, is kept in the same bytes; the key inside the record is not among what is used. -/
theorem fields_chosen {request : Json.Document} {bytes : Bytes}
    (hraw : isRaw request.value = false) (hdata : data request.value = .ok bytes) :
    ∃ (members : Json.Members) (key : String) (record : Record),
      request.value.get? "RecordData" = some (.object members) ∧
      request.value.get? "CAkey" = some (.text key) ∧
      bytes = Bytes.ofText record.toJson.render ∧ record.key = key ∧
      GivesContent members "Data" record.content ∧
      GivesText members "SeqNo" record.sequence ∧
      GivesNumber members "Timestamp" record.timestamp ∧
      (∀ other, isRaw other = false → other.get? "CAkey" = some (.text key) →
        other.get? "RecordData" = some (.object (foldRecord members)) → data other = .ok bytes) ∧
      ∀ (other : Json.Document) others bytes', isRaw other.value = false →
        other.value.get? "CAkey" = some (.text key) →
        other.value.get? "RecordData" = some (.object others) → SameFields members others →
        data other.value = .ok bytes' → bytes' = bytes := by
  obtain ⟨members, key, hmembers, hkey, hfits, hbytes⟩ := data_structured_eq_ok hraw hdata
  have hrecord : Json.Ordered (.object members) := request.ordered.of_get? hmembers
  refine ⟨members, key, _, hmembers, hkey, hbytes, rfl, ?_, ?_, ?_, ?_, ?_⟩
  · exact (givesContent_iff hrecord).mpr ⟨hfits.content, rfl⟩
  · exact (givesText_iff hrecord.ascending).mpr ⟨hfits.sequence, rfl⟩
  · exact (givesNumber_iff hrecord.ascending).mpr ⟨hfits.timestamp, rfl⟩
  · intro other hraw' hkey' hothers
    exact data_eq_of_read_eq hraw hraw' hdata hmembers hothers (hkey'.trans hkey.symm)
      (read_foldRecord hrecord)
  · intro other others bytes' hraw' hkey' hothers hsame hdata'
    have hrecord' : Json.Ordered (.object others) := other.ordered.of_get? hothers
    obtain ⟨members', key', hmembers', hkey'', -, hbytes'⟩ := data_structured_eq_ok hraw' hdata'
    obtain rfl : others = members' :=
      Json.object.inj (Option.some.inj (hothers.symm.trans hmembers'))
    obtain rfl : key = key' := Json.text.inj (Option.some.inj (hkey'.symm.trans hkey''))
    rw [hbytes, hbytes', hsame.contentOf_eq hrecord hrecord',
      ((agree_iff hrecord.ascending hrecord'.ascending).mp hsame.sequence).textOf_eq,
      ((agree_iff hrecord.ascending hrecord'.ascending).mp hsame.timestamp).numberOf_eq]

/-- Members spelled in several ways, exact ones that are null, and one that stands for no field; and
a request with what is used of them, spelled in other ways, and with another key inside. -/
theorem fields_chosen_mixed_spellings :
    let inner : Json.Members :=
      [("HASH", .text "ab"), ("Text", .null), ("hash", .text "cd"), ("text", .text "t")]
    let members : Json.Members := [("CAKEY", .text "x"), ("Data", .object inner),
      ("SEQNO", .text "7"), ("Seqno", .text "8"), ("TIMESTAMP", .integer 5), ("Timestamp", .null),
      ("other", .bool true)]
    let others : Json.Members :=
      [("CAkey", .text "y"), ("data", .object [("Hash", .text "cd")]), ("seqNo", .text "8")]
    let request := Json.object [("CAkey", .text "k"), ("RecordData", .object members)]
    let other := Json.object [("CAkey", .text "k"), ("RecordData", .object others)]
    ∃ record : Record, data request = .ok (Bytes.ofText record.toJson.render) ∧
      record.content.hash = "cd" ∧ record.content.text = "" ∧ record.sequence = "8" ∧
      record.timestamp = .zero false ∧ data other = .ok (Bytes.ofText record.toJson.render) := by
  intro inner members others request other
  have hinner : Ascending inner := by
    have hnames : ["HASH", "Text", "hash", "text"].Pairwise (· < ·) := by decide
    exact List.pairwise_map.mp hnames
  have hmembers : Ascending members := by
    have hnames : ["CAKEY", "Data", "SEQNO", "Seqno", "TIMESTAMP", "Timestamp", "other"].Pairwise
        (· < ·) := by decide
    exact List.pairwise_map.mp hnames
  have hothers : Ascending others := by
    have hnames : ["CAkey", "data", "seqNo"].Pairwise (· < ·) := by decide
    exact List.pairwise_map.mp hnames
  have hinner' : Ascending [("Hash", .text "cd")] := List.pairwise_singleton _ _
  have hkeys : ∀ value : Json, Ascending [("CAkey", .text "k"), ("RecordData", value)] := by
    intro value
    have hnames : ["CAkey", "RecordData"].Pairwise (· < ·) := by decide
    exact List.pairwise_map.mp hnames
  have hrecord : Json.Ordered (.object members) := by
    refine .object hmembers ?_
    simp only [members, List.forall_mem_cons]
    refine ⟨.text _, .object hinner ?_, .text _, .text _, .integer _, .null, .bool _,
      List.forall_mem_nil _⟩
    simp only [inner, List.forall_mem_cons]
    exact ⟨.text _, .null, .text _, .text _, List.forall_mem_nil _⟩
  have hordered : request.Ordered := by
    refine .object (hkeys _) ?_
    simp only [List.forall_mem_cons]
    exact ⟨.text _, hrecord, List.forall_mem_nil _⟩
  have hordered' : other.Ordered := by
    refine .object (hkeys _) ?_
    simp only [List.forall_mem_cons]
    refine ⟨.text _, .object hothers ?_, List.forall_mem_nil _⟩
    simp only [others, List.forall_mem_cons]
    refine ⟨.text _, .object hinner' ?_, .text _, List.forall_mem_nil _⟩
    rw [List.forall_mem_singleton]
    exact .text _
  have hraw : isRaw request = false := by rfl
  have hraw' : isRaw other = false := by rfl
  have hselect : select members "CAkey" = some (.text "x") ∧
      select members "Data" = some (.object inner) ∧ select members "SeqNo" = some (.text "8") ∧
      select members "Timestamp" = some .null := by
    simp [members, select, Json.find?, List.lookup_cons, Text.sameFolded_iff]
  have hselectInner : select inner "Algrithem" = none ∧ select inner "Hash" = some (.text "cd") ∧
      select inner "Signature" = none ∧ select inner "Text" = some .null := by
    simp [inner, select, Json.find?, List.lookup_cons, Text.sameFolded_iff]
  have hselect' : select others "CAkey" = some (.text "y") ∧
      select others "Data" = some (.object [("Hash", .text "cd")]) ∧
      select others "SeqNo" = some (.text "8") ∧ select others "Timestamp" = none := by
    simp [others, select, Json.find?, List.lookup_cons, Text.sameFolded_iff]
  have hselectInner' : select [("Hash", .text "cd")] "Algrithem" = none ∧
      select [("Hash", .text "cd")] "Hash" = some (.text "cd") ∧
      select [("Hash", .text "cd")] "Signature" = none ∧
      select [("Hash", .text "cd")] "Text" = none := by
    simp [select, Json.find?, List.lookup_cons, Text.sameFolded_iff]
  obtain ⟨hcakey, hcontent, hsequence, htimestamp⟩ := hselect
  obtain ⟨halgorithm, hhash, hsignature, htext⟩ := hselectInner
  obtain ⟨hcakey', hcontent', hsequence', htimestamp'⟩ := hselect'
  obtain ⟨halgorithm', hhash', hsignature', htext'⟩ := hselectInner'
  have hfits : Fits (fun f => IsContent f ∨ IsList f) members := by
    refine ⟨?_, ?_, ?_, ?_⟩
    · exact .inr ⟨_, hcakey⟩
    · refine .inl (.inr ⟨_, hcontent, ?_⟩)
      simp only [List.forall_mem_cons]
      exact ⟨.inl (.inl halgorithm), .inr ⟨_, hhash⟩, .inl (.inl hsignature), .inl (.inr htext),
        List.forall_mem_nil _⟩
    · exact .inr ⟨_, hsequence⟩
    · exact .inl (.inr htimestamp)
  have hfits' : Fits (fun f => IsContent f ∨ IsList f) others := by
    refine ⟨?_, ?_, ?_, ?_⟩
    · exact .inr ⟨_, hcakey'⟩
    · refine .inl (.inr ⟨_, hcontent', ?_⟩)
      simp only [List.forall_mem_cons]
      exact ⟨.inl (.inl halgorithm'), .inr ⟨_, hhash'⟩, .inl (.inl hsignature'),
        .inl (.inl htext'), List.forall_mem_nil _⟩
    · exact .inr ⟨_, hsequence'⟩
    · exact .inl (.inl htimestamp')
  obtain ⟨bytes, hdata⟩ := (verdict_of_structured hraw).accepted.mpr ⟨members, _, rfl, hfits, rfl⟩
  obtain ⟨bytes', hdata'⟩ :=
    (verdict_of_structured hraw').accepted.mpr ⟨others, _, rfl, hfits', rfl⟩
  obtain ⟨_, _, record, hobject, hkey, rfl, -, hgivesContent, hgivesSequence, hgivesTimestamp, -,
    hsame⟩ := @fields_chosen ⟨request, hordered⟩ _ hraw hdata
  cases hobject
  cases hkey
  have hagree : SameFields members others := by
    refine ⟨?_, ?_, _, _, chosen_select hmembers "Data", chosen_select hothers "Data", .inr
      ⟨inner, [("Hash", .text "cd")], .inl hcontent, .inl hcontent', ?_⟩⟩
    · exact (agree_iff hmembers hothers).mpr (.inl (hsequence.trans hsequence'.symm))
    · exact (agree_iff hmembers hothers).mpr (.inr ⟨.inr htimestamp, .inl htimestamp'⟩)
    · simp only [contentNames, List.forall_mem_cons, agree_iff hinner hinner']
      exact ⟨.inl (halgorithm.trans halgorithm'.symm), .inl (hhash.trans hhash'.symm),
        .inl (hsignature.trans hsignature'.symm), .inr ⟨.inr htext, .inl htext'⟩,
        List.forall_mem_nil _⟩
  obtain rfl := hsame ⟨other, hordered'⟩ _ _ hraw' rfl rfl hagree hdata'
  rw [givesContent_iff hrecord, hcontent] at hgivesContent
  rw [givesText_iff hmembers, hsequence] at hgivesSequence
  rw [givesNumber_iff hmembers, htimestamp] at hgivesTimestamp
  refine ⟨record, hdata, ?_, ?_, hgivesSequence.2, hgivesTimestamp.2, hdata'⟩
  · exact (congrArg Content.hash hgivesContent.2).trans (congrArg textOf hhash)
  · exact (congrArg Content.text hgivesContent.2).trans (congrArg textOf htext)

end LedgerNode.Record
