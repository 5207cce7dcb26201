import LedgerNode.Json.Basic

/-!
# Documents

What is read from a text has the members of all its objects in ascending order of their names, one
member a name, since each member is put in its place. In such an object a name tells which value it
has.

- `Json.Ordered`: values whose objects, those inside them included, are in order.
- `Json.find?_eq_some_iff`: the members of an object in order.
- `Json.Document`: a value together with the proof that it is in order, and the ways to build one.
-/

namespace LedgerNode.Json

/-- Members in ascending order of their names. -/
def Ascending (members : Members) : Prop :=
  members.Pairwise fun m n => m.1 < n.1

/-- Values whose objects have their members in ascending order of their names. -/
inductive Ordered : Json → Prop where
  | null : Ordered .null
  | bool (b : Bool) : Ordered (.bool b)
  | integer (n : Int) : Ordered (.integer n)
  | real (x : Binary64) : Ordered (.real x)
  | text (s : String) : Ordered (.text s)
  | array {items : List Json} (ordered : ∀ item ∈ items, Ordered item) : Ordered (.array items)
  | object {members : Members} (ascending : Ascending members)
    (ordered : ∀ m ∈ members, Ordered m.2) : Ordered (.object members)

/-! ## Looking up members -/

theorem mem_of_find? {members : Members} {name : String} {value : Json}
    (h : find? members name = some value) : (name, value) ∈ members := by
  induction members with
  | nil => cases h
  | cons m members ih =>
    obtain ⟨other, v⟩ := m
    unfold find? at h ih
    rw [List.lookup_cons] at h
    by_cases hname : name = other
    · subst hname
      rw [beq_self_eq_true] at h
      cases h
      exact List.mem_cons_self
    · rw [beq_false_of_ne hname] at h
      exact List.mem_cons_of_mem _ (ih h)

/-- In order, a name has the value that stands with it. -/
theorem find?_eq_some_iff {members : Members} (h : Ascending members) {name : String}
    {value : Json} : find? members name = some value ↔ (name, value) ∈ members := by
  refine ⟨mem_of_find?, fun hmem => ?_⟩
  induction members with
  | nil => cases hmem
  | cons m members ih =>
    obtain ⟨hfirst, hrest⟩ := List.pairwise_cons.mp h
    unfold find? at ih ⊢
    rw [List.lookup_cons]
    rcases List.mem_cons.mp hmem with rfl | hmem
    · rw [beq_self_eq_true]
    · have hne : name ≠ m.1 := (String.ne_of_lt (hfirst _ hmem)).symm
      rw [beq_false_of_ne hne]
      exact ih hrest hmem

theorem find?_eq_none_iff {members : Members} {name : String} :
    find? members name = none ↔ ∀ value, (name, value) ∉ members := by
  unfold find?
  rw [List.lookup_eq_none_iff]
  constructor
  · intro h value hmem
    simpa using h _ hmem
  · rintro h ⟨other, value⟩ hmem
    rw [bne_iff_ne]
    rintro rfl
    exact h value hmem

theorem Ordered.ascending {members : Members} (h : Ordered (.object members)) :
    Ascending members := by
  cases h with
  | object ascending _ => exact ascending

/-- What stands in a value in order is in order. -/
theorem Ordered.of_get? {j value : Json} {name : String} (h : j.Ordered)
    (hget : j.get? name = some value) : value.Ordered := by
  cases h with
  | object _ ordered => exact ordered _ (mem_of_find? hget)
  | null | bool | integer | real | text | array => cases hget

/-! ## Putting members in order -/

theorem mem_of_mem_insertMember {members : Members} {name : String} {value : Json}
    {m : String × Json} (h : m ∈ insertMember name value members) :
    m = (name, value) ∨ m ∈ members := by
  induction members with
  | nil => exact .inl (List.mem_singleton.mp h)
  | cons n members ih =>
    unfold insertMember at h
    split at h
    · exact List.mem_cons.mp h
    · split at h
      · exact (List.mem_cons.mp h).imp_right (List.mem_cons_of_mem _)
      · rcases List.mem_cons.mp h with rfl | h
        · exact .inr List.mem_cons_self
        · exact (ih h).imp_right (List.mem_cons_of_mem _)

/-- A member is put where it belongs. -/
theorem ascending_insertMember {members : Members} (h : Ascending members) (name : String)
    (value : Json) : Ascending (insertMember name value members) := by
  induction members with
  | nil => exact List.pairwise_singleton _ _
  | cons n members ih =>
    obtain ⟨other, v⟩ := n
    obtain ⟨hfirst, hrest⟩ := List.pairwise_cons.mp h
    unfold insertMember
    by_cases hlt : name < other
    · rw [if_pos hlt]
      refine List.pairwise_cons.mpr ⟨fun m hm => ?_, h⟩
      rcases List.mem_cons.mp hm with rfl | hm
      · exact hlt
      · exact String.lt_trans hlt (hfirst m hm)
    · rw [if_neg hlt]
      by_cases heq : name = other
      · subst heq
        rw [if_pos rfl]
        exact List.pairwise_cons.mpr ⟨hfirst, hrest⟩
      · rw [if_neg heq]
        refine List.pairwise_cons.mpr ⟨fun m hm => ?_, ih hrest⟩
        rcases mem_of_mem_insertMember hm with rfl | hm
        · exact String.not_le.mp fun hle => heq (String.le_antisymm hle (String.not_lt.mp hlt))
        · exact hfirst m hm

theorem ordered_ofMembers {members : Members} (h : ∀ m ∈ members, m.2.Ordered) :
    (ofMembers members).Ordered := by
  have hfold : ∀ (rest front : Members), (∀ m ∈ rest, m.2.Ordered) → Ordered (.object front) →
      Ordered (.object (rest.foldl (fun ms m => insertMember m.1 m.2 ms) front)) := by
    intro rest
    induction rest with
    | nil => exact fun _ _ hfront => hfront
    | cons m rest ih =>
      intro front hrest hfront
      rw [List.forall_mem_cons] at hrest
      refine ih _ hrest.2 ?_
      cases hfront with
      | object ascending ordered =>
        refine .object (ascending_insertMember ascending m.1 m.2) fun n hn => ?_
        rcases mem_of_mem_insertMember hn with rfl | hn
        · exact hrest.1
        · exact ordered n hn
  exact hfold members [] h (.object List.Pairwise.nil nofun)

/-! ## Documents -/

/-- A value in order. -/
@[ext] structure Document where
  value : Json
  ordered : value.Ordered

namespace Document

def null : Document := ⟨.null, .null⟩

def bool (b : Bool) : Document := ⟨.bool b, .bool b⟩

def integer (n : Int) : Document := ⟨.integer n, .integer n⟩

def real (x : Binary64) : Document := ⟨.real x, .real x⟩

def text (s : String) : Document := ⟨.text s, .text s⟩

/-- The array of some items. -/
def array (items : List Document) : Document where
  value := .array (items.map value)
  ordered := by
    refine .array fun item hitem => ?_
    obtain ⟨d, -, rfl⟩ := List.mem_map.mp hitem
    exact d.ordered

/-- Members with the values of their documents. -/
def values (members : List (String × Document)) : Members :=
  members.map fun m => (m.1, m.2.value)

@[simp] theorem values_nil : values [] = [] := rfl

@[simp] theorem values_cons (m : String × Document) (members : List (String × Document)) :
    values (m :: members) = (m.1, m.2.value) :: values members := rfl

/-- The object with the given members, where of two members of one name the later stays. -/
def ofMembers (members : List (String × Document)) : Document where
  value := .ofMembers (values members)
  ordered := by
    refine ordered_ofMembers fun m hm => ?_
    obtain ⟨n, -, rfl⟩ := List.mem_map.mp hm
    exact n.2.ordered

/-- Items in order are the values of documents. -/
theorem exists_map_value_eq {items : List Json} (h : ∀ item ∈ items, item.Ordered) :
    ∃ documents : List Document, documents.map value = items :=
  ⟨items.pmap mk h, by simp [List.map_pmap]⟩

/-- Members whose values are in order have the values of documents. -/
theorem exists_values_eq {members : Members} (h : ∀ m ∈ members, m.2.Ordered) :
    ∃ documents, values documents = members :=
  ⟨members.pmap (fun m hm => (m.1, ⟨m.2, hm⟩)) h, by simp [values, List.map_pmap]⟩

end Document

end LedgerNode.Json
