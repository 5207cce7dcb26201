import LedgerNode.Proofs.Json.Scalars

/-!
# Values read back

Reading the compact form of a value gives the value again, as long as it has no floating-point
numbers, whose digits are rounded on the way. Objects come back with their members in ascending
order, so this is the order that they have to be in.

- `Json.Plain`: the values that are read back.
- `Json.Document.ReadsBack`: a document is read back in front of whatever does not go on with it.
- `Json.Plain.readsBack`: those of plain values are, by induction on how these are built.
- `Json.read?_render`: a whole text; `Json.render_inj`: plain values of one text are equal.
-/

namespace LedgerNode.Json

/-- Values without floating-point numbers, whose integers fit in 64 bits and whose objects have
their members in ascending order. -/
inductive Plain : Json → Prop where
  | null : Plain .null
  | bool (b : Bool) : Plain (.bool b)
  | integer {n : Int} (fits : FitsInteger n) : Plain (.integer n)
  | text (s : String) : Plain (.text s)
  | array {items : List Json} (plain : ∀ item ∈ items, Plain item) : Plain (.array items)
  | object {members : Members} (ascending : members.Pairwise fun m n => m.1 < n.1)
    (plain : ∀ m ∈ members, Plain m.2) : Plain (.object members)

theorem Plain.ordered {j : Json} (h : j.Plain) : j.Ordered := by
  induction h with
  | null => exact .null
  | bool b => exact .bool b
  | integer => exact .integer _
  | text s => exact .text s
  | array _ ih => exact .array ih
  | object ascending _ ih => exact .object ascending ih

/-! ## How values start -/

theorem skipBlanks_cons {c : Char} (h : isBlank c = false) (cs : List Char) :
    skipBlanks (c :: cs) = c :: cs := by
  simp [skipBlanks, h]

/-- A character that a number starts with is none of those that other values and what stands around
them start with. -/
theorem ne_of_startsNumber {c d : Char} (hc : c.isDigit = true ∨ c = '-')
    (hd : d.isDigit = false ∧ d ≠ '-') : c ≠ d := by
  rintro rfl
  rcases hc with hc | hc
  · rw [hc] at hd
    cases hd.1
  · exact hd.2 hc

theorem isBlank_of_startsNumber {c : Char} (hc : c.isDigit = true ∨ c = '-') :
    isBlank c = false := by
  have hne : ∀ d : Char, d.isDigit = false ∧ d ≠ '-' → c ≠ d := fun _ => ne_of_startsNumber hc
  simp [isBlank, hne ' ' (by decide), hne '\n' (by decide), hne '\r' (by decide),
    hne '\t' (by decide)]

theorem exists_integer_eq_cons (n : Int) :
    ∃ c cs, (Text.integer n).toList = c :: cs ∧ (c.isDigit = true ∨ c = '-') := by
  rw [toList_integer]
  by_cases hneg : n < 0
  · rw [if_pos hneg]
    exact ⟨'-', _, rfl, .inr rfl⟩
  · obtain ⟨c, cs, hdigits, hc⟩ := exists_toDigits_eq_cons n.natAbs
    rw [if_neg hneg, hdigits]
    exact ⟨c, cs, rfl, .inl hc⟩

/-- A value starts with no blank and with no closing bracket or brace. -/
theorem Plain.exists_write_eq_cons {j : Json} (h : j.Plain) :
    ∃ c cs, j.write = c :: cs ∧ isBlank c = false ∧ c ≠ ']' ∧ c ≠ '}' := by
  cases h with
  | null => exact ⟨'n', _, rfl, by decide⟩
  | bool b =>
    cases b with
    | false => exact ⟨'f', _, rfl, by decide⟩
    | true => exact ⟨'t', _, rfl, by decide⟩
  | @integer n =>
    obtain ⟨c, cs, hwrite, hc⟩ := exists_integer_eq_cons n
    exact ⟨c, cs, by rw [write, hwrite], isBlank_of_startsNumber hc,
      ne_of_startsNumber hc (by decide), ne_of_startsNumber hc (by decide)⟩
  | text s => exact ⟨'"', _, by rw [write, writeText], by decide⟩
  | array => exact ⟨'[', _, by rw [write], by decide⟩
  | object => exact ⟨'{', _, by rw [write], by decide⟩

/-! ## What the first character of a value decides -/

theorem readValue_quote (bound : Nat) (rest : List Char) :
    readValue (bound + 1) ('"' :: rest) =
      (readText [] rest).map fun (s, rest) => (.text s, rest) := rfl

theorem readValue_number {c : Char} (hc : c.isDigit = true ∨ c = '-') (bound : Nat)
    (cs : List Char) : readValue (bound + 1) (c :: cs) = readNumber (c :: cs) := by
  rw [readValue, skipBlanks_cons (isBlank_of_startsNumber hc)]
  split
  · exact absurd (List.head_eq_of_cons_eq ‹_›) (ne_of_startsNumber hc (by decide))
  · exact absurd (List.head_eq_of_cons_eq ‹_›) (ne_of_startsNumber hc (by decide))
  · exact absurd (List.head_eq_of_cons_eq ‹_›) (ne_of_startsNumber hc (by decide))
  · exact absurd (List.head_eq_of_cons_eq ‹_›) (ne_of_startsNumber hc (by decide))
  · exact absurd (List.head_eq_of_cons_eq ‹_›) (ne_of_startsNumber hc (by decide))
  · exact absurd (List.head_eq_of_cons_eq ‹_›) (ne_of_startsNumber hc (by decide))
  · rfl

theorem readValue_bracket (bound : Nat) {text : List Char}
    (h : ∃ c cs, text = c :: cs ∧ isBlank c = false ∧ c ≠ ']') :
    readValue (bound + 1) ('[' :: text) =
      (readItems bound text).map fun (items, rest) => (.array items, rest) := by
  obtain ⟨c, cs, rfl, hblank, hc⟩ := h
  rw [readValue, skipBlanks_cons (c := '[') (by decide)]
  simp only [skipBlanks_cons hblank]
  split
  · exact absurd (List.head_eq_of_cons_eq ‹_›) hc
  · rfl

theorem readValue_brace (bound : Nat) (cs : List Char) :
    readValue (bound + 1) ('{' :: '"' :: cs) =
      (readMembers bound ('"' :: cs)).map fun (members, rest) => (.ofMembers members, rest) := rfl

/-! ## Items and members -/

/-- A document is read back from the compact form of its value, within a bound beyond the length of
that, in front of whatever does not go on with it. -/
def Document.ReadsBack (d : Document) : Prop :=
  ∀ (bound : Nat) (rest : List Char), d.value.write.length ≤ bound → EndsNumber rest →
    readValue (bound + 1) (d.value.write ++ rest) = some (d, rest)

theorem writeItems_cons_cons (item next : Json) (items : List Json) :
    writeItems (item :: next :: items) = item.write ++ ',' :: writeItems (next :: items) := by
  rw [writeItems]
  nofun

theorem writeMembers_cons_cons (name : String) (value : Json) (next : String × Json)
    (members : Members) :
    writeMembers ((name, value) :: next :: members) =
      writeText name ++ ':' :: (value.write ++ ',' :: writeMembers (next :: members)) := by
  rw [writeMembers]
  nofun

theorem exists_writeItems_eq_append (item : Json) (items : List Json) :
    ∃ tail, writeItems (item :: items) = item.write ++ tail := by
  cases items with
  | nil => exact ⟨[], by rw [writeItems, List.append_nil]⟩
  | cons next items => exact ⟨_, writeItems_cons_cons item next items⟩

theorem exists_writeMembers_eq_cons (m : String × Json) (members : Members) :
    ∃ tail, writeMembers (m :: members) = '"' :: tail := by
  cases members with
  | nil => exact ⟨_, by rw [writeMembers, writeText, List.cons_append]⟩
  | cons next members =>
    exact ⟨_, by rw [writeMembers_cons_cons, writeText, List.cons_append]⟩

/-- Items that are read back one by one are read back with commas between them. -/
theorem readItems_writeItems {items : List Document} (hne : items ≠ [])
    (hback : ∀ item ∈ items, item.ReadsBack) {bound : Nat} (rest : List Char)
    (hbound : (writeItems (items.map Document.value)).length ≤ bound) :
    readItems (bound + 2) (writeItems (items.map Document.value) ++ ']' :: rest) =
      some (items, rest) := by
  induction items generalizing bound with
  | nil => exact absurd rfl hne
  | cons item items ih =>
    rw [List.forall_mem_cons] at hback
    cases items with
    | nil =>
      rw [List.map_singleton, writeItems] at hbound ⊢
      rw [readItems, hback.1 _ _ hbound (endsNumber_cons (by decide) rest)]
      rfl
    | cons next items =>
      rw [List.map_cons, List.map_cons, writeItems_cons_cons, ← List.map_cons] at hbound ⊢
      rw [List.length_append, List.length_cons] at hbound
      obtain ⟨bound, rfl⟩ : ∃ b, bound = b + 1 := ⟨bound - 1, by omega⟩
      have hitem := hback.1 (bound + 1)
        (',' :: (writeItems ((next :: items).map Document.value) ++ ']' :: rest)) (by omega)
        (endsNumber_cons (by decide) _)
      have hitems : readItems (bound + 2)
          (writeItems ((next :: items).map Document.value) ++ ']' :: rest) = _ :=
        ih (List.cons_ne_nil _ _) hback.2 (by omega)
      rw [List.append_assoc, List.cons_append, readItems, hitem]
      simp only [skipBlanks_cons (c := ',') (by decide), hitems, Option.map_some]

/-- The name and the value of a member are read, and the outcome is what follows them comes to. -/
theorem readMembers_cons (name : String) {value : Document} (hback : value.ReadsBack) {bound : Nat}
    {tail : List Char} (hbound : value.value.write.length ≤ bound) (htail : EndsNumber tail)
    {outcome : Option (List (String × Document) × List Char)}
    (hnext : (match skipBlanks tail with
      | ',' :: rest =>
        (readMembers (bound + 1) rest).map fun (members, rest) => ((name, value) :: members, rest)
      | '}' :: rest => some ([(name, value)], rest)
      | _ => none) = outcome) :
    readMembers (bound + 2) (writeText name ++ ':' :: (value.value.write ++ tail)) = outcome := by
  have hname := readText_toList name (':' :: (value.value.write ++ tail))
  have hvalue := hback _ _ hbound htail
  simp only [writeText, List.cons_append, List.append_assoc, List.nil_append, readMembers,
    skipBlanks_cons (c := '"') (by decide), hname, skipBlanks_cons (c := ':') (by decide), hvalue]
  exact hnext

/-- Members whose values are read back are read back with commas between them. -/
theorem readMembers_writeMembers {members : List (String × Document)} (hne : members ≠ [])
    (hback : ∀ m ∈ members, m.2.ReadsBack) {bound : Nat} (rest : List Char)
    (hbound : (writeMembers (Document.values members)).length ≤ bound) :
    readMembers (bound + 2) (writeMembers (Document.values members) ++ '}' :: rest) =
      some (members, rest) := by
  induction members generalizing bound with
  | nil => exact absurd rfl hne
  | cons m members ih =>
    obtain ⟨name, value⟩ := m
    rw [List.forall_mem_cons] at hback
    have hvalue : value.ReadsBack := hback.1
    cases members with
    | nil =>
      simp only [Document.values_cons, Document.values_nil, writeMembers, List.length_append,
        List.length_cons] at hbound ⊢
      rw [List.append_assoc, List.cons_append]
      exact readMembers_cons name hvalue (by omega) (endsNumber_cons (by decide) rest) rfl
    | cons next members =>
      rw [Document.values_cons, Document.values_cons, writeMembers_cons_cons,
        ← Document.values_cons] at hbound ⊢
      simp only [List.length_append, List.length_cons] at hbound
      obtain ⟨bound, rfl⟩ : ∃ b, bound = b + 1 := ⟨bound - 1, by omega⟩
      have hmembers : readMembers (bound + 2)
          (writeMembers (Document.values (next :: members)) ++ '}' :: rest) = _ :=
        ih (List.cons_ne_nil _ _) hback.2 (by omega)
      rw [List.append_assoc, List.cons_append, List.append_assoc, List.cons_append]
      refine readMembers_cons name hvalue (by omega) (endsNumber_cons (by decide) _) ?_
      simp only [skipBlanks_cons (c := ',') (by decide), hmembers, Option.map_some]

/-! ## Members in order -/

/-- A member whose name comes behind all others is put at the end. -/
theorem insertMember_of_lt {members : Members} {name : String}
    (h : ∀ m ∈ members, m.1 < name) (value : Json) :
    insertMember name value members = members ++ [(name, value)] := by
  induction members with
  | nil => rfl
  | cons m members ih =>
    rw [List.forall_mem_cons] at h
    rw [insertMember, if_neg (String.lt_asymm h.1), if_neg (String.ne_of_lt h.1).symm, ih h.2]
    rfl

/-- Members in ascending order are put in order as they stand. -/
theorem ofMembers_of_ascending {members : Members}
    (h : members.Pairwise fun m n => m.1 < n.1) : ofMembers members = .object members := by
  have hfold : ∀ front rest : Members, (front ++ rest).Pairwise (fun m n => m.1 < n.1) →
      rest.foldl (fun ms m => insertMember m.1 m.2 ms) front = front ++ rest := by
    intro front rest
    induction rest generalizing front with
    | nil => simp
    | cons m rest ih =>
      intro hpair
      have hlast : ∀ n ∈ front, n.1 < m.1 := by
        intro n hn
        exact (List.pairwise_append.mp hpair).2.2 n hn m List.mem_cons_self
      rw [List.foldl_cons, insertMember_of_lt hlast m.2, ih (front ++ [m]) (by simpa using hpair)]
      simp
  exact congrArg Json.object (hfold [] members h)

/-! ## Values -/

/-- Plain values are read back. -/
theorem Plain.readsBack {j : Json} (h : j.Plain) (ordered : j.Ordered) :
    Document.ReadsBack ⟨j, ordered⟩ := by
  induction h with
  | null => exact fun _ _ _ _ => rfl
  | bool b =>
    cases b with
    | false => exact fun _ _ _ _ => rfl
    | true => exact fun _ _ _ _ => rfl
  | @integer n fits =>
    intro bound rest _ hrest
    obtain ⟨c, cs, hwrite, hc⟩ := exists_integer_eq_cons n
    show readValue (bound + 1) ((Json.integer n).write ++ rest) = some (.integer n, rest)
    rw [write, ← readNumber_integer fits hrest, hwrite, List.cons_append, readValue_number hc]
  | text s =>
    intro bound rest _ _
    rw [write, writeText, List.cons_append, List.append_assoc, readValue_quote]
    show (readText [] (s.toList.flatMap escape ++ '"' :: rest)).map _ = _
    rw [readText_toList]
    rfl
  | @array items plain ih =>
    intro bound rest hbound _
    obtain ⟨documents, rfl⟩ : ∃ documents : List Document, documents.map Document.value = items :=
      Document.exists_map_value_eq fun item hitem => (plain item hitem).ordered
    cases documents with
    | nil => rfl
    | cons item items =>
      rw [write, List.length_cons, List.length_append, List.length_singleton] at hbound
      obtain ⟨bound, rfl⟩ : ∃ b, bound = b + 2 := ⟨bound - 2, by omega⟩
      have hitems : readItems (bound + 2)
          (writeItems ((item :: items).map Document.value) ++ ']' :: rest) = _ :=
        readItems_writeItems (List.cons_ne_nil item items)
          (fun d hd => ih d.value (List.mem_map_of_mem hd) d.ordered) rest (by omega)
      obtain ⟨c, cs, hwrite, hblank, hbracket, -⟩ :=
        (plain item.value List.mem_cons_self).exists_write_eq_cons
      obtain ⟨tail, htail⟩ :=
        exists_writeItems_eq_append item.value (items.map Document.value)
      rw [write, List.cons_append, List.append_assoc, List.singleton_append, readValue_bracket,
        hitems]
      · rfl
      · exact ⟨c, cs ++ tail ++ ']' :: rest, by simp [htail, hwrite], hblank, hbracket⟩
  | @object members ascending plain ih =>
    intro bound rest hbound _
    obtain ⟨documents, rfl⟩ : ∃ documents, Document.values documents = members :=
      Document.exists_values_eq fun m hm => (plain m hm).ordered
    cases documents with
    | nil => rfl
    | cons m members =>
      rw [write, List.length_cons, List.length_append, List.length_singleton] at hbound
      obtain ⟨bound, rfl⟩ : ∃ b, bound = b + 2 := ⟨bound - 2, by omega⟩
      have hmembers : readMembers (bound + 2)
          (writeMembers (Document.values (m :: members)) ++ '}' :: rest) = _ :=
        readMembers_writeMembers (List.cons_ne_nil m members)
          (fun n hn => ih (n.1, n.2.value) (List.mem_map_of_mem hn) n.2.ordered) rest (by omega)
      obtain ⟨tail, htail⟩ :
          ∃ tail, writeMembers (Document.values (m :: members)) = '"' :: tail :=
        exists_writeMembers_eq_cons _ _
      rw [htail, List.cons_append] at hmembers
      rw [write, List.cons_append, List.append_assoc, List.singleton_append, htail,
        List.cons_append, readValue_brace, hmembers, Option.map_some]
      exact congrArg (fun d => some (d, rest)) (Document.ext (ofMembers_of_ascending ascending))

/-- The text of a plain value denotes the value. -/
theorem read?_render {j : Json} (h : j.Plain) : read? j.render = some j := by
  have hback := h.readsBack h.ordered (2 * j.write.length) [] (by dsimp only; omega) endsNumber_nil
  rw [List.append_nil] at hback
  unfold read? Document.read? render
  rw [String.toList_ofList]
  dsimp only
  rw [hback]
  rfl

/-- Plain values of one text are equal. -/
theorem render_inj {j k : Json} (hj : j.Plain) (hk : k.Plain) (h : j.render = k.render) : j = k :=
  Option.some.inj (by rw [← read?_render hj, h, read?_render hk])

end LedgerNode.Json
