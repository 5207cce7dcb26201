/-!
# Tables in which the first entry stays

Contracts are kept by hash and services by name. In both tables a key is bound once: a later entry
under the same key is turned away.

- `Table`: entries in the order in which they came, no two under one key.
- `Table.find?`, `Table.contains`: what a key is bound to.
- `Table.insertNew`: adds an entry unless its key is taken (`Table.find?_insertNew`).
- `Table.merge`: adds the entries of another table in the same way (`Table.find?_merge`).
-/

namespace LedgerNode

/-- Entries under distinct keys. -/
structure Table (κ : Type) (ν : Type) where
  /-- The entries in the order in which they came. -/
  entries : List (κ × ν) := []
  /-- No key occurs twice. -/
  nodup_keys : (entries.map Prod.fst).Nodup := by simp

namespace Table

variable {κ ν : Type} [DecidableEq κ]

instance : EmptyCollection (Table κ ν) := ⟨⟨[], by simp⟩⟩

instance : Inhabited (Table κ ν) := ⟨∅⟩

/-- What a key is bound to. -/
def find? (t : Table κ ν) (key : κ) : Option ν :=
  t.entries.lookup key

/-- Whether a key is bound. -/
def contains (t : Table κ ν) (key : κ) : Bool :=
  (t.find? key).isSome

/-- How many keys are bound. -/
def size (t : Table κ ν) : Nat :=
  t.entries.length

/-- Whether no key is bound. -/
def isEmpty (t : Table κ ν) : Bool :=
  t.entries.isEmpty

theorem lookup_eq_none_iff {entries : List (κ × ν)} {key : κ} :
    entries.lookup key = none ↔ key ∉ entries.map Prod.fst := by
  induction entries with
  | nil => simp
  | cons e rest ih =>
    rw [List.lookup_cons, List.map_cons, List.mem_cons, not_or]
    cases h : key == e.1 with
    | true => simp [eq_of_beq h]
    | false =>
      have hne : key ≠ e.1 := ne_of_beq_false h
      simp only [ih, hne, not_false_eq_true, true_and]

/-- A key is unbound exactly when no entry stands under it. -/
theorem find?_eq_none_iff {t : Table κ ν} {key : κ} :
    t.find? key = none ↔ key ∉ t.entries.map Prod.fst :=
  lookup_eq_none_iff

/-- A key is bound to a value exactly when they make an entry: no other entry stands before it. -/
theorem find?_eq_some_iff {t : Table κ ν} {key : κ} {value : ν} :
    t.find? key = some value ↔ (key, value) ∈ t.entries := by
  obtain ⟨entries, nodup_keys⟩ := t
  show entries.lookup key = some value ↔ (key, value) ∈ entries
  induction entries with
  | nil => simp
  | cons e rest ih =>
    rw [List.map_cons, List.nodup_cons] at nodup_keys
    rw [List.lookup_cons, List.mem_cons]
    by_cases h : key = e.1
    · subst h
      have hrest : (e.1, value) ∉ rest :=
        fun hmem => nodup_keys.1 (List.mem_map.mpr ⟨_, hmem, rfl⟩)
      simp only [beq_self_eq_true, Option.some.injEq, hrest, or_false]
      exact ⟨fun hvalue => Prod.ext rfl hvalue.symm, fun hentry => (congrArg Prod.snd hentry).symm⟩
    · have hne : (key, value) ≠ e := fun hentry => h (congrArg Prod.fst hentry)
      simp only [beq_false_of_ne h, ih nodup_keys.2, hne, false_or]

@[simp] theorem find?_empty (key : κ) : (∅ : Table κ ν).find? key = none := rfl

/-- Adds an entry unless its key is bound already. -/
def insertNew (t : Table κ ν) (key : κ) (value : ν) : Table κ ν :=
  if h : t.find? key = none then
    { entries := t.entries ++ [(key, value)]
      nodup_keys := by
        rw [List.map_append, List.nodup_append]
        refine ⟨t.nodup_keys, by simp, ?_⟩
        intro a ha b hb
        rw [List.map_singleton, List.mem_singleton] at hb
        subst hb
        rintro rfl
        exact find?_eq_none_iff.1 h ha }
  else t

theorem lookup_append {entries more : List (κ × ν)} {key : κ} :
    (entries ++ more).lookup key = (entries.lookup key).or (more.lookup key) := by
  induction entries with
  | nil => simp
  | cons e rest ih =>
    rw [List.cons_append, List.lookup_cons, List.lookup_cons, ih]
    cases key == e.1 <;> simp

/-- After an insertion a key is bound to what it was bound to before, or else to the new value if it
is the new key. -/
theorem find?_insertNew (t : Table κ ν) (key other : κ) (value : ν) :
    (t.insertNew key value).find? other =
      (t.find? other).or (if other = key then some value else none) := by
  unfold insertNew
  split
  · show (t.entries ++ [(key, value)]).lookup other = _
    rw [lookup_append]
    congr 1
    by_cases h : other = key
    · simp [h]
    · have hb : (other == key) = false := beq_false_of_ne h
      simp [List.lookup_cons, h, hb]
  · rename_i h
    by_cases e : other = key
    · subst e
      cases hf : t.find? other with
      | none => exact absurd hf h
      | some v => simp
    · simp [e]

/-- Adds the entries of another table whose keys are unbound. -/
def merge (t other : Table κ ν) : Table κ ν :=
  other.entries.foldl (fun t e => t.insertNew e.1 e.2) t

theorem find?_foldl_insertNew (entries : List (κ × ν)) (t : Table κ ν) (key : κ) :
    (entries.foldl (fun t e => t.insertNew e.1 e.2) t).find? key =
      (t.find? key).or (entries.lookup key) := by
  induction entries generalizing t with
  | nil => simp
  | cons e rest ih =>
    rw [List.foldl_cons, ih, find?_insertNew, List.lookup_cons]
    by_cases h : key = e.1
    · subst h
      cases t.find? e.1 <;> simp
    · have hb : (key == e.1) = false := beq_false_of_ne h
      cases t.find? key <;> simp [h, hb]

theorem lookup_map {α : Type} (key : α → κ) (value : α → ν) (xs : List α) (other : κ) :
    (xs.map fun x => (key x, value x)).lookup other =
      (xs.find? fun x => key x = other).map value := by
  induction xs with
  | nil => rfl
  | cons x rest ih =>
    rw [List.map_cons, List.lookup_cons, List.find?_cons, ih]
    by_cases h : other = key x
    · simp [h]
    · have hne : ¬ key x = other := fun he => h he.symm
      simp [beq_false_of_ne h, hne]

/-- After values have been inserted under their keys, a key is bound as it was, or else to the first
value that has it. -/
theorem find?_foldl_insertNew_map {α : Type} (key : α → κ) (value : α → ν) (xs : List α)
    (t : Table κ ν) (other : κ) :
    (xs.foldl (fun t x => t.insertNew (key x) (value x)) t).find? other =
      (t.find? other).or ((xs.find? fun x => key x = other).map value) := by
  have h := find?_foldl_insertNew (xs.map fun x => (key x, value x)) t other
  rw [List.foldl_map, lookup_map] at h
  exact h

/-- In a merged table a key is bound as in the first table, or else as in the second. -/
theorem find?_merge (t other : Table κ ν) (key : κ) :
    (t.merge other).find? key = (t.find? key).or (other.find? key) :=
  find?_foldl_insertNew other.entries t key

end Table

end LedgerNode
