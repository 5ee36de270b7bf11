/-
Escaping in passes.  What one pass writes has nothing in it that a later pass
would escape again, so a text is escaped in any number of passes, in any order,
as in a single one.
-/
import TreeLabels.Proofs.CleanText

namespace TreeLabels

/-- Escape a text once for each flag, every time what was written before. -/
def escapePasses (passes : List Bool) (text : String) : String :=
  passes.foldl (fun shown spaces => (escapeWhitespace spaces shown).text) text

theorem escapePasses_cons (spaces : Bool) (passes : List Bool)
    (text : String) :
    escapePasses (spaces :: passes) text =
      escapePasses passes (escapeWhitespace spaces text).text := rfl

/-- What is written for a character is not escaped again; only a space that was
left as it is may still be. -/
theorem flatMap_escapeChar_escapeChar (first second : Bool) (c : Char) :
    (escapeChar first c).flatMap (escapeChar second) =
      escapeChar (first || second) c := by
  fun_cases escapeChar first c with
  | case1 => rfl
  | case2 => rfl
  | case3 => rfl
  | case4 hfirst => simp [hfirst, escapeChar]
  | case5 hfirst => simp [hfirst]
  | case6 => simp [escapeChar]

theorem text_escapeWhitespace_escapeWhitespace (first second : Bool)
    (text : String) :
    (escapeWhitespace second (escapeWhitespace first text).text).text =
      (escapeWhitespace (first || second) text).text := by
  rw [← String.toList_inj]
  simp only [toList_text_escapeWhitespace, List.flatMap_assoc,
    flatMap_escapeChar_escapeChar]

/-- All passes together are one pass with all flags. -/
theorem escapePasses_eq (first : Bool) (later : List Bool) (text : String) :
    escapePasses (first :: later) text =
      (escapeWhitespace (first :: later).or text).text := by
  induction later generalizing first text with
  | nil =>
      rw [List.or_cons, List.or_nil, Bool.or_false]
      rfl
  | cons second rest ih =>
      -- The first two passes are one, so the others follow on a shorter list.
      rw [escapePasses_cons, ih, text_escapeWhitespace_escapeWhitespace,
        ← List.or_cons]

theorem escapePasses_eq_of_perm {passes other : List Bool}
    (hperm : other.Perm passes) (text : String) :
    escapePasses other text = escapePasses passes text := by
  apply hperm.foldl_eq'
  intro first _ second _ shown
  rw [text_escapeWhitespace_escapeWhitespace,
    text_escapeWhitespace_escapeWhitespace, Bool.or_comm]

/-- A text that was escaped before is kept unless its spaces are still there and
are escaped now. -/
theorem isKept_escapeWhitespace_again (done spaces : Bool) (text : String) :
    (escapeWhitespace spaces (escapeWhitespace done text).text).isKept = true ↔
      spaces = false ∨ done = true ∨ ' ' ∉ text.toList := by
  have hclean := whitespaceFree_escapeWhitespace done text
  rw [isKept_escapeWhitespace_iff]
  constructor
  · intro h
    by_cases hspaces : spaces = true
    · have hnone := mt space_mem_escapeWhitespace_iff.mpr (h.no_space hspaces)
      by_cases hdone : done = true
      · exact Or.inr (Or.inl hdone)
      · refine Or.inr (Or.inr fun hmem => ?_)
        exact hnone ⟨Bool.eq_false_iff.mpr hdone, hmem⟩
    · exact Or.inl (Bool.eq_false_iff.mpr hspaces)
  · intro h
    -- Spaces are all that the earlier pass may have left for this one.
    refine ⟨hclean.no_tab, hclean.no_newline, hclean.no_return, ?_⟩
    intro hspaces hmem
    obtain ⟨hdone, hsource⟩ := space_mem_escapeWhitespace_iff.mp hmem
    rcases h with hoff | hbefore | hnone
    · rw [hoff] at hspaces
      contradiction
    · rw [hdone] at hbefore
      contradiction
    · exact hnone hsource

/-- One pass with all flags writes what the passes write one after the other, in
whatever order.  The first pass keeps a text with nothing to escape in it, and a
later one keeps what it reads unless spaces are left for it.  Exactly the texts
with nothing to escape are written at all. -/
theorem escapePasses_once (text : String) (first : Bool) (later : List Bool) :
    escapePasses (first :: later) text =
        (escapeWhitespace (first :: later).or text).text ∧
      (∀ other : List Bool, other.Perm (first :: later) →
        escapePasses other text = escapePasses (first :: later) text) ∧
      ((escapeWhitespace first text).isKept = true ↔
        WhitespaceFree first text) ∧
      (∀ (before after : List Bool) (spaces : Bool),
        later = before ++ spaces :: after →
          ((escapeWhitespace spaces
              (escapePasses (first :: before) text)).isKept = true ↔
            spaces = false ∨ true ∈ first :: before ∨ ' ' ∉ text.toList)) ∧
      ∀ (spaces : Bool) (shown : String),
        (∃ source, (escapeWhitespace spaces source).text = shown) ↔
          WhitespaceFree spaces shown := by
  refine ⟨escapePasses_eq first later text, fun other hperm => ?_, ?_,
    fun before after spaces _ => ?_, fun spaces shown => ?_⟩
  · exact escapePasses_eq_of_perm hperm text
  · exact isKept_escapeWhitespace_iff
  · have hor : (first :: before).or = true ↔ true ∈ first :: before := by
      simp [List.or]
    rw [escapePasses_eq, isKept_escapeWhitespace_again, hor]
  · exact exists_text_escapeWhitespace_eq_iff

/-- A space that the first pass leaves is escaped by the second, and the third
has nothing left to do, though it reads a backslash and a middle dot. -/
theorem escapePasses_once_space :
    [true, false, false].Perm [false, true, false] ∧
      [true, false] = [] ++ true :: [false] ∧
      [true, false] = [true] ++ false :: [] ∧
      escapePasses [true, false, false] "a\tb c" =
        escapePasses [false, true, false] "a\tb c" ∧
      (escapeWhitespace true (escapePasses [false] "a\tb c")).isKept = false ∧
      (escapeWhitespace false
        (escapePasses [false, true] "a\tb c")).isKept = true := by
  have hperm : [true, false, false].Perm [false, true, false] := by decide
  obtain ⟨_, horder, _, hlater, _⟩ :=
    escapePasses_once "a\tb c" false [true, false]
  refine ⟨hperm, rfl, rfl, horder _ hperm, ?_, ?_⟩
  · rw [Bool.eq_false_iff, ne_eq, hlater [] [false] true rfl]
    decide
  · rw [hlater [true] [] false rfl]
    decide

end TreeLabels
