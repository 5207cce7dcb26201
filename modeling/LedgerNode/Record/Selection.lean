import LedgerNode.Json.Document
import LedgerNode.Json.Writer
import LedgerNode.Record.Entry
import LedgerNode.Text.Fold
import LedgerNode.Text.Quoted

/-!
# Reading records

Clients spell the names of fields in any case, leave fields out or set them to null. A field's value
is the member of exactly its name, or else the last one whose name differs in case only. What is
absent or null keeps its default, and every other value must have the shape that the field asks for.

- `Record.select`: the value of a field.
- `Record.foldMembers`: the values of some fields under their names, gathered in one pass over all
  members (`Record.find?_foldMembers`).
- `Record.ShapeError`: a value of the wrong shape.
- `Record.read`: the record that the members of an object describe; it is the same once these have
  been gathered under the names of fields (`Record.read_foldRecord`).
-/

namespace LedgerNode.Record

open Json (Ascending)

/-- The member of a given name, or else the last whose name differs from it in case only. -/
def select (members : Json.Members) (name : String) : Option Json :=
  match Json.find? members name with
  | some value => some value
  | none => (members.filter fun m => Text.sameFolded m.1 name).getLast?.map Prod.snd

/-- What is selected is a member. -/
theorem exists_mem_of_select {members : Json.Members} {name : String} {value : Json}
    (h : select members name = some value) : ∃ key, (key, value) ∈ members := by
  unfold select at h
  cases hexact : Json.find? members name with
  | some exact =>
    rw [hexact] at h
    cases h
    exact ⟨name, Json.mem_of_find? hexact⟩
  | none =>
    rw [hexact] at h
    obtain ⟨m, hlast, rfl⟩ := Option.map_eq_some_iff.mp h
    exact ⟨m.1, (List.mem_filter.mp (List.mem_of_getLast? hlast)).1⟩

theorem ordered_of_select {members : Json.Members} (h : Json.Ordered (.object members))
    {name : String} {value : Json} (hselect : select members name = some value) :
    value.Ordered := by
  obtain ⟨key, hmem⟩ := exists_mem_of_select hselect
  cases h with
  | object _ ordered => exact ordered _ hmem

/-! ## One pass over the members -/

/-- The names of a record's fields. -/
def fieldNames : List String :=
  ["CAkey", "Data", "SeqNo", "Timestamp"]

/-- The names of a content's fields. -/
def contentNames : List String :=
  ["Algrithem", "Hash", "Signature", "Text"]

/-- Puts a member under the name of the field that it stands for, if there is one, in place of the
one put there before. A member whose name is spelled in another way gives way to one of exactly the
name. -/
def foldMember (fields : List String) (members folded : Json.Members) (m : String × Json) :
    Json.Members :=
  match fields.find? fun name => Text.sameFolded name m.1 with
  | none => folded
  | some name =>
    if name = m.1 ∨ Json.find? members name = none then Json.insertMember name m.2 folded
    else folded

/-- Members put under the names of some fields, in one pass from the first to the last. -/
def foldMembers (fields : List String) (members : Json.Members) : Json.Members :=
  members.foldl (foldMember fields members) []

/-- Names of which no two differ in case only. -/
def Distinct (fields : List String) : Prop :=
  ∀ a ∈ fields, ∀ b ∈ fields, Text.sameFolded a b = true → a = b

theorem distinct_fieldNames : Distinct fieldNames := by
  simp only [Distinct, Text.sameFolded_iff]
  decide

theorem distinct_contentNames : Distinct contentNames := by
  simp only [Distinct, Text.sameFolded_iff]
  decide

/-- Whether a member is put under a name. -/
def standsFor (members : Json.Members) (name : String) (m : String × Json) : Bool :=
  Text.sameFolded m.1 name && (decide (name = m.1) || (Json.find? members name).isNone)

/-- A member changes what is under a name only if it is put there. -/
theorem find?_foldMember {fields : List String} (hdistinct : Distinct fields) {name : String}
    (hname : name ∈ fields) (members folded : Json.Members) (m : String × Json) :
    Json.find? (foldMember fields members folded m) name =
      if standsFor members name m then some m.2 else Json.find? folded name := by
  unfold foldMember standsFor
  cases hfind : fields.find? fun name => Text.sameFolded name m.1 with
  | none =>
    have hother : Text.sameFolded m.1 name = false := by
      rw [Text.sameFolded_comm]
      exact Bool.eq_false_iff.mpr (List.find?_eq_none.mp hfind name hname)
    simp [hother]
  | some field =>
    have hfield : field ∈ fields := List.mem_of_find?_eq_some hfind
    have hsame : Text.sameFolded field m.1 = true := by simpa using List.find?_some hfind
    by_cases heq : field = name
    · subst heq
      rw [Text.sameFolded_comm] at hsame
      dsimp only
      by_cases hput : field = m.1 ∨ Json.find? members field = none
      · have hput' : (decide (field = m.1) || (Json.find? members field).isNone) = true := by
          simpa using hput
        rw [if_pos hput, Json.find?_insertMember_self, hsame, hput']
        rfl
      · have hput' : (decide (field = m.1) || (Json.find? members field).isNone) = false := by
          simpa [Option.isSome_iff_ne_none] using hput
        rw [if_neg hput, hsame, hput']
        rfl
    · have hother : Text.sameFolded m.1 name = false := by
        rw [Bool.eq_false_iff]
        exact fun h => heq (hdistinct _ hfield _ hname (Text.sameFolded_trans hsame h))
      rw [hother]
      dsimp only
      split
      · exact Json.find?_insertMember_of_ne (Ne.symm heq) _ _
      · rfl

/-- What is under a name after a pass is the value of the last member put there. -/
theorem find?_foldl_foldMember {fields : List String} (hdistinct : Distinct fields) {name : String}
    (hname : name ∈ fields) (members rest folded : Json.Members) :
    Json.find? (rest.foldl (foldMember fields members) folded) name =
      ((rest.filter (standsFor members name)).getLast?.map Prod.snd).or
        (Json.find? folded name) := by
  induction rest generalizing folded with
  | nil => rfl
  | cons m rest ih =>
    rw [List.foldl_cons, ih, find?_foldMember hdistinct hname, List.filter_cons]
    split
    · rw [List.getLast?_cons]
      cases (rest.filter (standsFor members name)).getLast? <;> rfl
    · rfl

/-- A pass leaves under the name of a field what is selected for it. -/
theorem find?_foldMembers {fields : List String} (hdistinct : Distinct fields) {name : String}
    (hname : name ∈ fields) {members : Json.Members} (h : Ascending members) :
    Json.find? (foldMembers fields members) name = select members name := by
  have hpass := find?_foldl_foldMember hdistinct hname members members []
  rw [show Json.find? [] name = none from rfl, Option.or_none] at hpass
  unfold foldMembers select
  rw [hpass]
  cases hexact : Json.find? members name with
  | some value =>
    -- the exact spelling is the only one that is put there, and it is there once
    have hmem : (name, value) ∈ members.filter (standsFor members name) := by
      refine List.mem_filter.mpr ⟨Json.mem_of_find? hexact, ?_⟩
      simp [standsFor]
    cases hlast : (members.filter (standsFor members name)).getLast? with
    | none =>
      rw [List.getLast?_eq_none_iff.mp hlast] at hmem
      cases hmem
    | some m =>
      obtain ⟨key, last⟩ := m
      obtain ⟨hlastMem, hstands⟩ := List.mem_filter.mp (List.mem_of_getLast? hlast)
      obtain rfl : name = key := by
        simpa [hexact] using (Bool.and_eq_true_iff.mp hstands).2
      rw [← hexact, (Json.find?_eq_some_iff h).mpr hlastMem]
      rfl
  | none =>
    have hfilter : members.filter (standsFor members name) =
        members.filter fun m => Text.sameFolded m.1 name := by
      refine List.filter_congr fun m _ => ?_
      simp [standsFor, hexact]
    rw [hfilter]

/-- A pass leaves nothing under other names. -/
theorem mem_fields_of_mem_foldMembers {fields : List String} {members : Json.Members}
    {m : String × Json} (h : m ∈ foldMembers fields members) : m.1 ∈ fields := by
  have hpass : ∀ rest folded : Json.Members, (∀ m ∈ folded, m.1 ∈ fields) →
      ∀ m ∈ rest.foldl (foldMember fields members) folded, m.1 ∈ fields := by
    intro rest
    induction rest with
    | nil => exact fun _ hfolded => hfolded
    | cons n rest ih =>
      intro folded hfolded
      refine ih _ fun m hm => ?_
      unfold foldMember at hm
      split at hm
      · exact hfolded m hm
      · rename_i field hfield
        split at hm
        · rcases Json.mem_of_mem_insertMember hm with rfl | hm
          · exact List.mem_of_find?_eq_some hfield
          · exact hfolded m hm
        · exact hfolded m hm
  exact hpass members [] nofun m h

/-- Among members that are all under names of fields, a name is found or it is not there. -/
theorem select_of_mem_fields {fields : List String} (hdistinct : Distinct fields)
    {folded : Json.Members} (hfolded : ∀ m ∈ folded, m.1 ∈ fields) {name : String}
    (hname : name ∈ fields) : select folded name = Json.find? folded name := by
  unfold select
  cases hexact : Json.find? folded name with
  | some value => rfl
  | none =>
    have hfilter : folded.filter (fun m => Text.sameFolded m.1 name) = [] := by
      refine List.filter_eq_nil_iff.mpr fun m hm hsame => ?_
      have heq := hdistinct _ (hfolded m hm) _ hname hsame
      exact Json.find?_eq_none_iff.mp hexact m.2 (heq ▸ hm)
    dsimp only
    rw [hfilter]
    rfl

/-- So the same is selected when the members are put under the names of fields first. -/
theorem select_foldMembers {fields : List String} (hdistinct : Distinct fields) {name : String}
    (hname : name ∈ fields) {members : Json.Members} (h : Ascending members) :
    select (foldMembers fields members) name = select members name := by
  rw [select_of_mem_fields hdistinct (fun _ => mem_fields_of_mem_foldMembers) hname,
    find?_foldMembers hdistinct hname h]

/-! ## Shapes -/

/-- What the value of a field must be. -/
inductive Shape where
  | text
  | number
  | content
deriving DecidableEq, Repr

/-- The name of a shape in messages. -/
def Shape.name : Shape → String
  | text => "a string"
  | number => "f64"
  | content => "struct RecordContent"

/-- The description of a value in messages. -/
def describe : Json → String
  | .null => "null"
  | .bool b => "boolean `" ++ (if b then "true" else "false") ++ "`"
  | .integer n => "integer `" ++ Text.integer n ++ "`"
  | .real x => "floating point `" ++ x.toDecimalText Json.realStyle ++ "`"
  | .text s => "string " ++ Text.quote s
  | .array _ => "sequence"
  | .object _ => "map"

/-- Why a value does not fit its field. -/
inductive ShapeError where
  /-- The value has another shape than the field asks for. -/
  | mismatch (found : Json) (expected : Shape)
  /-- A list of values is longer than there are fields. -/
  | tooManyItems (count : Nat)

/-- The wording of an error. -/
def ShapeError.message : ShapeError → String
  | mismatch found expected => "invalid type: " ++ describe found ++ ", expected " ++ expected.name
  | tooManyItems count =>
    "invalid length " ++ Text.numeral count ++ ", expected fewer elements in array"

/-! ## Fields -/

/-- The text in a field, empty by default. -/
def readText : Option Json → Except ShapeError String
  | none | some .null => .ok ""
  | some (.text s) => .ok s
  | some found => .error (.mismatch found .text)

/-- The number in a field, zero by default. -/
def readNumber : Option Json → Except ShapeError Binary64
  | none | some .null => .ok (.zero false)
  | some (.integer n) => .ok (.ofInt n)
  | some (.real x) => .ok x
  | some found => .error (.mismatch found .number)

/-- The content in a field, given by name in an object or by position in a list. -/
def readContent : Option Json → Except ShapeError Content
  | none | some .null => .ok {}
  | some (.object members) => do
    let algorithm ← readText (select members "Algrithem")
    let hash ← readText (select members "Hash")
    let signature ← readText (select members "Signature")
    let text ← readText (select members "Text")
    return { algorithm, hash, signature, text }
  | some (.array items) => do
    let algorithm ← readText items[0]?
    let hash ← readText items[1]?
    let signature ← readText items[2]?
    let text ← readText items[3]?
    if 4 < items.length then throw (.tooManyItems items.length)
    return { algorithm, hash, signature, text }
  | some found => .error (.mismatch found .content)

/-- The record that the members of an object describe, or the first field that does not fit. -/
def read (members : Json.Members) : Except ShapeError Record := do
  let key ← readText (select members "CAkey")
  let content ← readContent (select members "Data")
  let sequence ← readText (select members "SeqNo")
  let timestamp ← readNumber (select members "Timestamp")
  return { key, content, sequence, timestamp }

/-! ## Records without other members -/

/-- The members of a record under the names of its fields, and those of its content under theirs. -/
def foldRecord (members : Json.Members) : Json.Members :=
  let folded := foldMembers fieldNames members
  match Json.find? folded "Data" with
  | some (.object inner) =>
    Json.insertMember "Data" (.object (foldMembers contentNames inner)) folded
  | _ => folded

theorem readContent_foldMembers {inner : Json.Members} (h : Ascending inner) :
    readContent (some (.object (foldMembers contentNames inner))) =
      readContent (some (.object inner)) := by
  have hselect : ∀ name ∈ contentNames,
      select (foldMembers contentNames inner) name = select inner name :=
    fun name hname => select_foldMembers distinct_contentNames hname h
  unfold readContent
  dsimp only
  rw [hselect "Algrithem" (by decide), hselect "Hash" (by decide), hselect "Signature" (by decide),
    hselect "Text" (by decide)]

/-- So the same is read of a record when its members are put under the names of fields first. -/
theorem read_foldRecord {members : Json.Members} (h : Json.Ordered (.object members)) :
    read (foldRecord members) = read members := by
  have hfold : ∀ name ∈ fieldNames,
      Json.find? (foldMembers fieldNames members) name = select members name :=
    fun name hname => find?_foldMembers distinct_fieldNames hname h.ascending
  have hselect : ∀ name ∈ fieldNames,
      select (foldMembers fieldNames members) name = select members name :=
    fun name hname => select_foldMembers distinct_fieldNames hname h.ascending
  unfold foldRecord
  dsimp only
  rw [hfold "Data" (by decide)]
  split
  · rename_i inner hdata
    have hinner : Ascending inner := (ordered_of_select h hdata).ascending
    have hnames : ∀ m ∈ Json.insertMember "Data" (.object (foldMembers contentNames inner))
        (foldMembers fieldNames members), m.1 ∈ fieldNames := by
      intro m hm
      rcases Json.mem_of_mem_insertMember hm with rfl | hm
      · show "Data" ∈ fieldNames
        decide
      · exact mem_fields_of_mem_foldMembers hm
    have hother : ∀ name ∈ fieldNames, name ≠ "Data" →
        select (Json.insertMember "Data" (.object (foldMembers contentNames inner))
          (foldMembers fieldNames members)) name = select members name := by
      intro name hname hne
      rw [select_of_mem_fields distinct_fieldNames hnames hname, Json.find?_insertMember_of_ne hne,
        hfold name hname]
    have hcontent : select (Json.insertMember "Data" (.object (foldMembers contentNames inner))
        (foldMembers fieldNames members)) "Data" =
          some (.object (foldMembers contentNames inner)) := by
      rw [select_of_mem_fields distinct_fieldNames hnames (by decide),
        Json.find?_insertMember_self]
    unfold read
    rw [hother "CAkey" (by decide) (by decide), hcontent, readContent_foldMembers hinner, ← hdata,
      hother "SeqNo" (by decide) (by decide), hother "Timestamp" (by decide) (by decide)]
  · unfold read
    rw [hselect "CAkey" (by decide), hselect "Data" (by decide), hselect "SeqNo" (by decide),
      hselect "Timestamp" (by decide)]

end LedgerNode.Record
