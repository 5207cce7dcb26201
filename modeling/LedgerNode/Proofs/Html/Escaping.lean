import LedgerNode.Proofs.Html.Reading

/-!
# Written texts

A text may hold entities, or parts of them, before it is written. Nothing of it is taken for an
entity afterwards: an ampersand is always written as an entity itself, and no entity has a second
ampersand inside, so that the entities in a written text are those of single characters.

- `Html.exists_entity_of_ampersand`: an ampersand begins the entity of one character, behind the
  written forms of the characters before it.
- `Html.escape_harmless_and_lossless`: what a written text cannot hold, and that it can be read.
-/

namespace LedgerNode.Html

theorem ampersand_not_mem_tail_entity (c : Char) : '&' ∉ (entity c).tail := by
  have hentities : ∀ e ∈ entities, '&' ∉ e.tail := by decide
  rcases entity_cases c with hentity | ⟨-, -, hself⟩
  · exact hentities _ hentity
  · rw [hself]
    exact List.not_mem_nil

theorem entity_mem_of_ampersand {c : Char} {rest : List Char} (h : entity c = '&' :: rest) :
    entity c ∈ entities := by
  rcases entity_cases c with hentity | ⟨hamp, -, hself⟩
  · exact hentity
  · rw [hself] at h
    exact absurd (List.cons.inj h).1 hamp

/-- An ampersand in a written text begins the entity of one character. What is before it are the
written forms of the characters before this one. -/
theorem exists_entity_of_ampersand {cs front rest : List Char}
    (h : cs.flatMap entity = front ++ '&' :: rest) :
    ∃ before c after, cs = before ++ c :: after ∧ before.flatMap entity = front ∧
      entity c ∈ entities ∧ entity c ++ after.flatMap entity = '&' :: rest := by
  induction cs generalizing front with
  | nil => exact absurd h.symm (List.append_ne_nil_of_right_ne_nil _ (List.cons_ne_nil _ _))
  | cons c cs ih =>
    -- An ampersand behind the first character's form is one of the other characters.
    have hbehind : ∀ front', cs.flatMap entity = front' ++ '&' :: rest → front = entity c ++ front' →
        ∃ before d after, c :: cs = before ++ d :: after ∧ before.flatMap entity = front ∧
          entity d ∈ entities ∧ entity d ++ after.flatMap entity = '&' :: rest := by
      intro front' hrest hfront
      obtain ⟨before, d, after, hcs, hbefore, hd⟩ := ih hrest
      refine ⟨c :: before, d, after, by rw [hcs, List.cons_append], ?_, hd⟩
      rw [List.flatMap_cons, hbefore, hfront]
    rw [List.flatMap_cons] at h
    rcases List.append_eq_append_iff.mp h with ⟨front', hfront, hrest⟩ | ⟨back, hentity, hrest⟩
    · exact hbehind front' hrest hfront
    · cases back with
      | nil => exact hbehind [] hrest.symm (by rw [List.append_nil, hentity, List.append_nil])
      | cons d back =>
        obtain ⟨rfl, hrest⟩ := List.cons.inj hrest
        cases front with
        | nil =>
          refine ⟨[], c, cs, rfl, rfl, entity_mem_of_ampersand hentity, ?_⟩
          rw [hentity, hrest]
          rfl
        | cons x front =>
          refine absurd ?_ (ampersand_not_mem_tail_entity c)
          rw [hentity]
          exact List.mem_append_right front List.mem_cons_self

/-- A written text has no bracket and no quote, and no ampersand that does not begin an entity. It
gives the text back when its entities are replaced, so that it is the written form of no other text;
and texts one behind the other are written one behind the other. -/
theorem escape_harmless_and_lossless (s : String) :
    (∀ c ∈ (escape s).toList, c ≠ '<' ∧ c ≠ '>' ∧ c ≠ '"' ∧ c ≠ '\'') ∧
      (∀ front rest, (escape s).toList = front ++ '&' :: rest →
        ∃ e ∈ ["&amp;", "&lt;", "&gt;", "&#34;", "&#39;"], e.toList <+: '&' :: rest) ∧
      unescape (escape s) = s ∧
      (∀ t, escape t = escape s → t = s) ∧
      ∀ t, escape (s ++ t) = escape s ++ escape t := by
  refine ⟨fun c hc => ?_, fun front rest h => ?_, unescape_escape s, fun t h => ?_, escape_append s⟩
  · have hplain := isMark_of_mem_escape hc
    simpa [isMark, and_assoc] using hplain
  · rw [escape, String.toList_ofList] at h
    obtain ⟨_, c, after, -, -, hentity, hwritten⟩ := exists_entity_of_ampersand h
    obtain ⟨e, he, hchars⟩ := List.mem_map.mp (show entity c ∈
      ["&amp;", "&lt;", "&gt;", "&#34;", "&#39;"].map String.toList from hentity)
    exact ⟨e, he, after.flatMap entity, by rw [hchars, hwritten]⟩
  · rw [← unescape_escape t, h, unescape_escape]

/-- A text that is an entity, and the text that this entity stands for. -/
theorem escape_harmless_and_lossless_entity :
    escape "&lt;" = "&amp;lt;" ∧ unescape (escape "&lt;") = "&lt;" ∧ escape "<" ≠ escape "&lt;" ∧
      ∃ e ∈ ["&amp;", "&lt;", "&gt;", "&#34;", "&#39;"], e.toList <+: '&' :: "amp;lt;".toList := by
  have hwritten : escape "&lt;" = "&amp;lt;" := by decide
  obtain ⟨-, hentity, hback, hother, -⟩ := escape_harmless_and_lossless "&lt;"
  refine ⟨hwritten, hback, fun h => absurd (hother "<" h) (by decide), hentity [] _ ?_⟩
  rw [hwritten]
  rfl

end LedgerNode.Html
