import LedgerNode.Number.Binary64

/-!
# JSON values

Requests arrive and answers leave as JSON. An object's members are kept in ascending order of their
names, one member a name; a number is an integer of at most 64 bits or a floating-point number.

- `Json`: the values.
- `Json.get?`: the member of a value under a name, if it is an object that has one.
- `Json.insertMember`, `Json.ofMembers`: members put in order, where of two members of one name the
  later stays.
-/

namespace LedgerNode

/-- A JSON value. -/
inductive Json where
  | null
  | bool (value : Bool)
  | integer (value : Int)
  | real (value : Binary64)
  | text (value : String)
  | array (items : List Json)
  | object (members : List (String × Json))
deriving Inhabited

namespace Json

/-- The members of an object, each a name and a value. -/
abbrev Members := List (String × Json)

/-- The value of the member of a given name. -/
def find? (members : Members) (name : String) : Option Json :=
  members.lookup name

/-- Members in ascending order of names, with one more put in its place; a member of the same name
gives way to it. -/
def insertMember (name : String) (value : Json) : Members → Members
  | [] => [(name, value)]
  | (other, v) :: rest =>
    if name < other then (name, value) :: (other, v) :: rest
    else if name = other then (name, value) :: rest
    else (other, v) :: insertMember name value rest

/-- The object with the given members, where of two members of one name the later stays. -/
def ofMembers (members : Members) : Json :=
  .object (members.foldl (fun ms m => insertMember m.1 m.2 ms) [])

/-- The member of an object under a name; other values have none. -/
def get? (j : Json) (name : String) : Option Json :=
  match j with
  | .object members => find? members name
  | _ => none

/-- The text that a value is, if it is one. -/
def text? : Json → Option String
  | .text s => some s
  | _ => none

/-- The members of a value, if it is an object. -/
def members? : Json → Option Members
  | .object members => some members
  | _ => none

/-- The items of a value, if it is an array. -/
def items? : Json → Option (List Json)
  | .array items => some items
  | _ => none

/-- The truth value that a value is, if it is one. -/
def bool? : Json → Option Bool
  | .bool b => some b
  | _ => none

@[simp] theorem find?_insertMember_self (name : String) (value : Json) (members : Members) :
    find? (insertMember name value members) name = some value := by
  induction members with
  | nil => simp [insertMember, find?]
  | cons m rest ih =>
    unfold insertMember
    split
    · simp [find?]
    · split
      · simp [find?]
      · rename_i h
        simp only [find?] at ih ⊢
        rw [List.lookup_cons, beq_false_of_ne h]
        exact ih

theorem find?_insertMember_of_ne {name other : String} (h : other ≠ name) (value : Json)
    (members : Members) :
    find? (insertMember name value members) other = find? members other := by
  have hb : (other == name) = false := beq_false_of_ne h
  induction members with
  | nil => simp [insertMember, find?, List.lookup_cons, hb]
  | cons m rest ih =>
    obtain ⟨key, v⟩ := m
    unfold insertMember
    simp only [find?] at ih ⊢
    split
    · rw [List.lookup_cons, hb]
    · split
      · rename_i e
        subst e
        simp [List.lookup_cons, hb]
      · rw [List.lookup_cons, List.lookup_cons, ih]

end Json

end LedgerNode
