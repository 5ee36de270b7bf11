/-
Texts with nothing to escape.  They are the texts that escaping keeps, the texts
that it does not change, and the texts that it writes.
-/
import TreeLabels.Whitespace

namespace TreeLabels

/-- There is nothing to escape in a text: no tab, no newline, no carriage return
and, where spaces are escaped, no space. -/
structure WhitespaceFree (spaces : Bool) (text : String) : Prop where
  no_tab : '\t' ∉ text.toList
  no_newline : '\n' ∉ text.toList
  no_return : '\r' ∉ text.toList
  no_space : spaces = true → ' ' ∉ text.toList

variable {spaces : Bool} {text : String}

theorem whitespaceFree_iff :
    WhitespaceFree spaces text ↔
      ∀ c ∈ text.toList, isEscapable spaces c = false := by
  constructor
  · rintro ⟨htab, hnewline, hreturn, hspace⟩ c hc
    have hc_tab : c ≠ '\t' := fun heq => htab (heq ▸ hc)
    have hc_newline : c ≠ '\n' := fun heq => hnewline (heq ▸ hc)
    have hc_return : c ≠ '\r' := fun heq => hreturn (heq ▸ hc)
    have hc_space : spaces = true → c ≠ ' ' := fun hspaces heq =>
      hspace hspaces (heq ▸ hc)
    simpa [isEscapable, hc_tab, hc_newline, hc_return] using hc_space
  · intro hall
    refine ⟨fun hc => ?_, fun hc => ?_, fun hc => ?_, fun hspaces hc => ?_⟩
    · exact absurd (hall '\t' hc) (by simp [isEscapable])
    · exact absurd (hall '\n' hc) (by simp [isEscapable])
    · exact absurd (hall '\r' hc) (by simp [isEscapable])
    · exact absurd (hall ' ' hc) (by simp [isEscapable, hspaces])

/-- The test that escaping makes first. -/
theorem whitespaceFree_iff_any :
    WhitespaceFree spaces text ↔
      text.toList.any (isEscapable spaces) = false := by
  rw [whitespaceFree_iff, List.any_eq_false]
  simp only [Bool.not_eq_true]

theorem whitespaceFree_iff_countP :
    WhitespaceFree spaces text ↔
      text.toList.countP (isEscapable spaces) = 0 := by
  rw [whitespaceFree_iff, List.countP_eq_zero]
  simp only [Bool.not_eq_true]

instance : Decidable (WhitespaceFree spaces text) :=
  decidable_of_iff _ whitespaceFree_iff_any.symm

/-- Escaping leaves nothing to escape. -/
theorem whitespaceFree_escapeWhitespace (spaces : Bool) (text : String) :
    WhitespaceFree spaces (escapeWhitespace spaces text).text := by
  rw [whitespaceFree_iff]
  intro c hc
  exact isEscapable_of_mem_escapeWhitespace hc

theorem WhitespaceFree.escapeWhitespace_eq (h : WhitespaceFree spaces text) :
    escapeWhitespace spaces text = .kept text := by
  apply if_neg
  rw [whitespaceFree_iff_any.mp h]
  exact Bool.false_ne_true

theorem isKept_escapeWhitespace_iff :
    (escapeWhitespace spaces text).isKept = true ↔
      WhitespaceFree spaces text := by
  constructor
  · intro hkept
    rw [whitespaceFree_iff_any]
    by_cases hany : text.toList.any (isEscapable spaces) = true
    · rw [escapeWhitespace, if_pos hany] at hkept
      contradiction
    · exact Bool.eq_false_iff.mpr hany
  · intro h
    rw [h.escapeWhitespace_eq]
    rfl

/-- A text that is escaped to itself has nothing to escape, since nothing is left
to escape in what was written. -/
theorem text_escapeWhitespace_eq_self_iff :
    (escapeWhitespace spaces text).text = text ↔ WhitespaceFree spaces text := by
  constructor
  · intro hself
    rw [← hself]
    exact whitespaceFree_escapeWhitespace spaces text
  · intro h
    rw [h.escapeWhitespace_eq]
    rfl

/-- The texts that escaping may write. -/
theorem exists_text_escapeWhitespace_eq_iff :
    (∃ source, (escapeWhitespace spaces source).text = text) ↔
      WhitespaceFree spaces text := by
  constructor
  · rintro ⟨source, rfl⟩
    exact whitespaceFree_escapeWhitespace spaces source
  · intro h
    exact ⟨text, text_escapeWhitespace_eq_self_iff.mpr h⟩

theorem space_mem_escapeChar_iff {c : Char} :
    ' ' ∈ escapeChar spaces c ↔ spaces = false ∧ c = ' ' := by
  unfold escapeChar
  split
  case h_4 => cases spaces <;> simp
  all_goals simp_all [eq_comm]

/-- Spaces stay where they are not escaped, and escaping brings no new ones. -/
theorem space_mem_escapeWhitespace_iff :
    ' ' ∈ (escapeWhitespace spaces text).text.toList ↔
      spaces = false ∧ ' ' ∈ text.toList := by
  rw [toList_text_escapeWhitespace, List.mem_flatMap]
  simp only [space_mem_escapeChar_iff]
  constructor
  · rintro ⟨c, hc, hspaces, rfl⟩
    exact ⟨hspaces, hc⟩
  · rintro ⟨hspaces, hmem⟩
    exact ⟨' ', hmem, hspaces, rfl⟩

end TreeLabels
