import LedgerNode.Html
import Mathlib.Data.List.Basic

/-!
# Reading documents

A document is read by cutting it at its tags and by putting the characters of the entities back into
what stands between them. Nothing but the document is needed for that, and what is read is what was
written, whatever the texts are, since no text writes an angle bracket or a quote.

- `Html.marks`: the brackets and quotes of a document. They are those of its tags
  (`Html.marks_write`).
- `Html.unescape`: a text without entities; it undoes `Html.escape` (`Html.unescape_escape`).
- `Html.Stretch`: a tag with the text behind it.
- `Html.read`: the stretches of a document, which reads what was written (`Html.read_document`).
- `Html.leaves`, `Html.texts`: the innermost elements of a document, and the texts in them.
-/

namespace LedgerNode.Html

/-! ## Brackets and quotes -/

/-- Whether a character can begin or end a tag or the value of an attribute. -/
def isMark (c : Char) : Bool :=
  c = '<' || c = '>' || c = '"' || c = '\''

/-- The brackets and quotes of a document, in their order. -/
def marks (document : String) : List Char :=
  document.toList.filter isMark

theorem marks_append (s t : String) : marks (s ++ t) = marks s ++ marks t := by
  simp [marks]

/-- The entities. -/
def entities : List (List Char) :=
  ["&amp;".toList, "&lt;".toList, "&gt;".toList, "&#34;".toList, "&#39;".toList]

/-- The written form of a character is an entity, or the character itself where that is harmless. -/
theorem entity_cases (c : Char) :
    entity c ∈ entities ∨ (c ≠ '&' ∧ isMark c = false ∧ entity c = [c]) := by
  unfold entity
  split
  · exact .inl (by simp [entities])
  · exact .inl (by simp [entities])
  · exact .inl (by simp [entities])
  · exact .inl (by simp [entities])
  · exact .inl (by simp [entities])
  · rename_i hamp hlt hgt hquote hapostrophe
    refine .inr ⟨hamp, ?_, rfl⟩
    simpa [isMark] using And.intro ⟨⟨hlt, hgt⟩, hquote⟩ hapostrophe

theorem isMark_of_mem_entity {c d : Char} (h : d ∈ entity c) : isMark d = false := by
  have hentities : ∀ e ∈ entities, ∀ d ∈ e, isMark d = false := by
    simp [entities, isMark]
  rcases entity_cases c with hentity | ⟨-, hplain, hself⟩
  · exact hentities _ hentity d h
  · rw [hself, List.mem_singleton] at h
    rwa [h]

theorem isMark_of_mem_escape {s : String} {c : Char} (h : c ∈ (escape s).toList) :
    isMark c = false := by
  rw [escape, String.toList_ofList, List.mem_flatMap] at h
  obtain ⟨d, -, hc⟩ := h
  exact isMark_of_mem_entity hc

theorem not_mem_escape {c : Char} (h : isMark c = true) {s : String} :
    c ∉ (escape s).toList :=
  fun hc => absurd h (Bool.eq_false_iff.mp (isMark_of_mem_escape hc))

@[simp] theorem marks_escape (s : String) : marks (escape s) = [] := by
  rw [marks, List.filter_eq_nil_iff]
  exact fun c hc => Bool.eq_false_iff.mp (isMark_of_mem_escape hc)

@[simp] theorem escape_empty : escape "" = "" := rfl

@[simp] theorem escape_lineFeed : escape "\n" = "\n" := by decide

/-- The tags of some parts. -/
def tags : List Piece → List String
  | [] => []
  | .tag markup :: rest => markup :: tags rest
  | .text _ :: rest => tags rest

theorem tags_append (ps qs : List Piece) : tags (ps ++ qs) = tags ps ++ tags qs := by
  induction ps with
  | nil => rfl
  | cons p rest ih => cases p <;> simp [tags, ih]

theorem write_cons (p : Piece) (ps : List Piece) : write (p :: ps) = p.write ++ write ps := by
  simp [write]

theorem write_append (ps qs : List Piece) : write (ps ++ qs) = write ps ++ write qs := by
  simp [write]

/-- A document has the brackets and quotes of its tags and no others. -/
theorem marks_write (pieces : List Piece) : marks (write pieces) = (tags pieces).flatMap marks := by
  induction pieces with
  | nil => rfl
  | cons p rest ih =>
    rw [write_cons, marks_append, ih]
    cases p with
    | tag markup => rfl
    | text content => rw [Piece.write, marks_escape, tags, List.nil_append]

/-! ## Entities -/

/-- Characters with the entities among them, from left to right, replaced by what they stand for. -/
def replaceEntities : List Char → List Char
  | '&' :: 'a' :: 'm' :: 'p' :: ';' :: rest => '&' :: replaceEntities rest
  | '&' :: 'l' :: 't' :: ';' :: rest => '<' :: replaceEntities rest
  | '&' :: 'g' :: 't' :: ';' :: rest => '>' :: replaceEntities rest
  | '&' :: '#' :: '3' :: '4' :: ';' :: rest => '"' :: replaceEntities rest
  | '&' :: '#' :: '3' :: '9' :: ';' :: rest => '\'' :: replaceEntities rest
  | c :: rest => c :: replaceEntities rest
  | [] => []

/-- The text that a written form stands for. -/
def unescape (s : String) : String :=
  String.ofList (replaceEntities s.toList)

theorem replaceEntities_cons {c : Char} (h : c ≠ '&') (rest : List Char) :
    replaceEntities (c :: rest) = c :: replaceEntities rest := by
  rw [replaceEntities] <;> (rintro _ rfl; exact absurd rfl h)

/-- The written form of a character is read as this character, whatever is behind it. -/
theorem replaceEntities_entity_append (c : Char) (rest : List Char) :
    replaceEntities (entity c ++ rest) = c :: replaceEntities rest := by
  unfold entity
  split
  · rfl
  · rfl
  · rfl
  · rfl
  · rfl
  · rename_i hamp _ _ _ _
    exact replaceEntities_cons hamp rest

/-- The written form of a text stands for this text. -/
theorem unescape_escape (s : String) : unescape (escape s) = s := by
  have hchars : ∀ cs : List Char, replaceEntities (cs.flatMap entity) = cs := by
    intro cs
    induction cs with
    | nil => rfl
    | cons c rest ih => rw [List.flatMap_cons, replaceEntities_entity_append, ih]
  rw [unescape, escape, String.toList_ofList, hchars, String.ofList_toList]

/-! ## Tags -/

/-- A tag, without its brackets, and the text behind it, up to the next tag. -/
structure Stretch where
  tag : String
  text : String
deriving DecidableEq, Repr

/-- The written form of a tag and the text behind it. -/
def Stretch.write (t : Stretch) : String :=
  "<" ++ t.tag ++ ">" ++ escape t.text

/-- The document made of some tags with the texts behind them. -/
def document (ts : List Stretch) : String :=
  String.join (ts.map Stretch.write)

theorem document_append (ts us : List Stretch) :
    document (ts ++ us) = document ts ++ document us := by
  simp [document]

/-- A document may be put together from documents. -/
theorem document_flatMap {α : Type} {pieces : α → List Piece} {stretches : α → List Stretch}
    (h : ∀ a, write (pieces a) = document (stretches a)) (as : List α) :
    write (as.flatMap pieces) = document (as.flatMap stretches) := by
  induction as with
  | nil => rfl
  | cons a rest ih =>
    rw [List.flatMap_cons, List.flatMap_cons, write_append, document_append, ih, h]

/-- The tag that ends at the first closing bracket, and the text behind it. -/
def Stretch.ofChars (cs : List Char) : Stretch where
  tag := String.ofList (cs.takeWhile (· ≠ '>'))
  text := unescape (String.ofList ((cs.dropWhile (· ≠ '>')).drop 1))

/-- The tags of a document with the texts behind them. -/
def read (document : String) : List Stretch :=
  ((document.toList.splitOn '<').drop 1).map Stretch.ofChars

/-- A tag has no brackets inside. -/
def Stretch.IsPlain (t : Stretch) : Prop :=
  '<' ∉ t.tag.toList ∧ '>' ∉ t.tag.toList

/-- What stands behind the opening bracket of a tag. -/
def Stretch.inner (t : Stretch) : List Char :=
  t.tag.toList ++ '>' :: (escape t.text).toList

theorem Stretch.toList_write (t : Stretch) : t.write.toList = '<' :: t.inner := by
  simp [Stretch.write, Stretch.inner]

theorem Stretch.not_mem_inner {t : Stretch} (h : t.IsPlain) : '<' ∉ t.inner := by
  rw [Stretch.inner, List.mem_append, List.mem_cons, not_or, not_or]
  exact ⟨h.1, by decide, not_mem_escape (by decide)⟩

theorem Stretch.ofChars_inner {t : Stretch} (h : t.IsPlain) : Stretch.ofChars t.inner = t := by
  have htag : ∀ c ∈ t.tag.toList, decide (c ≠ '>') = true := by
    intro c hc
    exact decide_eq_true fun heq => h.2 (heq ▸ hc)
  simp only [Stretch.ofChars, Stretch.inner]
  rw [List.takeWhile_append_of_pos htag, List.dropWhile_append_of_pos htag]
  simp [unescape_escape]

/-- Cut at a character, parts that follow one each are found again. -/
theorem splitOn_append_flatMap {sep : Char} {parts : List (List Char)} (h : ∀ p ∈ parts, sep ∉ p)
    {front : List Char} (hfront : sep ∉ front) :
    (front ++ parts.flatMap (sep :: ·)).splitOn sep = front :: parts := by
  induction parts generalizing front with
  | nil => rw [List.flatMap_nil, List.append_nil, List.splitOn_eq_singleton hfront]
  | cons p rest ih =>
    rw [List.forall_mem_cons] at h
    rw [List.flatMap_cons, List.cons_append, List.splitOn_append_cons_self_of_not_mem hfront,
      ih h.2 h.1]

/-- What is read of a document is what was written, whatever the texts are. -/
theorem read_document {ts : List Stretch} (h : ∀ t ∈ ts, t.IsPlain) :
    read (document ts) = ts := by
  have hchars : (document ts).toList = [] ++ (ts.map Stretch.inner).flatMap ('<' :: ·) := by
    rw [document, String.toList_join, List.flatMap_map, List.flatMap_map, List.nil_append]
    simp only [Stretch.toList_write]
  have hparts : ∀ p ∈ ts.map Stretch.inner, '<' ∉ p :=
    List.forall_mem_map.mpr fun t ht => Stretch.not_mem_inner (h t ht)
  rw [read, hchars, splitOn_append_flatMap hparts List.not_mem_nil, List.drop_one, List.tail_cons,
    List.map_map]
  calc ts.map (Stretch.ofChars ∘ Stretch.inner)
      = ts.map id := List.map_congr_left fun t ht => Stretch.ofChars_inner (h t ht)
    _ = ts := List.map_id ts

/-! ## Elements -/

/-- Whether a tag ends an element. -/
def Stretch.isEnd (t : Stretch) : Bool :=
  t.tag.toList.head? = some '/'

/-- The elements that have nothing but a text in them: the tags that begin an element and are
followed by one that ends it. -/
def leaves : List Stretch → List Stretch
  | [] => []
  | t :: rest =>
    if !t.isEnd && rest.head?.any Stretch.isEnd then t :: leaves rest else leaves rest

/-- The texts of the innermost elements. -/
def leafTexts (ts : List Stretch) : List String :=
  (leaves ts).map Stretch.text

/-- The texts that a document shows, as they are read from the document alone: it is cut at its
tags, and what the innermost elements have in them is taken without entities. -/
def texts (document : String) : List String :=
  leafTexts (read document)

/-- Parts whose texts are known, whatever is behind them, have all these texts one behind the
other. -/
theorem leafTexts_flatMap_append {α : Type} {stretches : α → List Stretch} {texts : α → List String}
    (h : ∀ a rest, leafTexts (stretches a ++ rest) = texts a ++ leafTexts rest) (as : List α)
    (rest : List Stretch) :
    leafTexts (as.flatMap stretches ++ rest) = as.flatMap texts ++ leafTexts rest := by
  induction as with
  | nil => rfl
  | cons a as ih =>
    rw [List.flatMap_cons, List.flatMap_cons, List.append_assoc, h, ih, List.append_assoc]

end LedgerNode.Html
