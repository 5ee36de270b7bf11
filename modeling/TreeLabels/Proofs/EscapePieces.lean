/-
Escaping piece by piece.  What is written for a text is what is written for its
characters in order, whether the text is kept or built anew; so a text may be
cut anywhere and escaped in pieces.
-/
import TreeLabels.Proofs.CleanText

namespace TreeLabels

/-- The characters that are not written as they are, each with the text that
takes its place. -/
def replacements (spaces : Bool) : List (Char × String) :=
  [('\t', "\\t"), ('\n', "\\n"), ('\r', "\\r")] ++
    if spaces then [(' ', "·")] else []

/-- What is written for a character: the text in its place, or else itself. -/
def replacement (spaces : Bool) (c : Char) : String :=
  ((replacements spaces).lookup c).getD (String.singleton c)

theorem toList_replacement (spaces : Bool) (c : Char) :
    (replacement spaces c).toList = escapeChar spaces c := by
  unfold replacement replacements
  fun_cases escapeChar spaces c with
  | case1 => simp
  | case2 => simp [List.lookup_cons]
  | case3 => simp [List.lookup_cons]
  | case4 hspaces => simp [hspaces, List.lookup_cons]
  | case5 hspaces => simp [hspaces, List.lookup_cons]
  | case6 c htab hnewline hreturn hspace =>
      have htab : (c == '\t') = false := by simpa using htab
      have hnewline : (c == '\n') = false := by simpa using hnewline
      have hreturn : (c == '\r') = false := by simpa using hreturn
      have hspace : (c == ' ') = false := by simpa using hspace
      cases spaces <;>
        simp [List.lookup_cons, htab, hnewline, hreturn, hspace]

theorem text_escapeWhitespace_eq_join (spaces : Bool) (text : String) :
    (escapeWhitespace spaces text).text =
      String.join (text.toList.map (replacement spaces)) := by
  rw [← String.toList_inj, toList_text_escapeWhitespace, String.toList_join,
    List.flatMap_map]
  simp only [toList_replacement]

/-- A text is kept exactly if what is written is the text itself. -/
theorem isKept_escapeWhitespace_iff_text_eq (spaces : Bool) (text : String) :
    (escapeWhitespace spaces text).isKept = true ↔
      (escapeWhitespace spaces text).text = text :=
  isKept_escapeWhitespace_iff.trans text_escapeWhitespace_eq_self_iff.symm

theorem text_escapeWhitespace_append (spaces : Bool) (front back : String) :
    (escapeWhitespace spaces (front ++ back)).text =
      (escapeWhitespace spaces front).text ++
        (escapeWhitespace spaces back).text := by
  rw [← String.toList_inj]
  simp only [toList_text_escapeWhitespace, String.toList_append,
    List.flatMap_append]

theorem text_escapeWhitespace_join (spaces : Bool) (pieces : List String) :
    (escapeWhitespace spaces (String.join pieces)).text =
      String.join (pieces.map fun piece =>
        (escapeWhitespace spaces piece).text) := by
  induction pieces with
  | nil => exact text_escapeWhitespace_eq_join spaces ""
  | cons piece rest ih =>
      rw [List.map_cons, String.join_cons, String.join_cons,
        text_escapeWhitespace_append, ih]

theorem whitespaceFree_append_iff {spaces : Bool} {front back : String} :
    WhitespaceFree spaces (front ++ back) ↔
      WhitespaceFree spaces front ∧ WhitespaceFree spaces back := by
  simp only [whitespaceFree_iff, String.toList_append, List.forall_mem_append]

theorem whitespaceFree_join_iff {spaces : Bool} {pieces : List String} :
    WhitespaceFree spaces (String.join pieces) ↔
      ∀ piece ∈ pieces, WhitespaceFree spaces piece := by
  induction pieces with
  | nil => simp [whitespaceFree_iff]
  | cons piece rest ih =>
      rw [String.join_cons, whitespaceFree_append_iff, ih,
        List.forall_mem_cons]

/-- Escaping writes the replacements of the characters in order, keeps a text
exactly if that changes nothing, and may work on any pieces of a text instead:
together they are written like the text, and it is kept exactly if they are. -/
theorem escapeWhitespace_by_pieces (spaces : Bool) (text : String) :
    (escapeWhitespace spaces text).text =
        String.join (text.toList.map (replacement spaces)) ∧
      ((escapeWhitespace spaces text).isKept = true ↔
        (escapeWhitespace spaces text).text = text) ∧
      ∀ pieces : List String, String.join pieces = text →
        String.join (pieces.map fun piece =>
            (escapeWhitespace spaces piece).text) =
          (escapeWhitespace spaces text).text ∧
        ((escapeWhitespace spaces text).isKept = true ↔
          ∀ piece ∈ pieces, (escapeWhitespace spaces piece).isKept = true) := by
  refine ⟨text_escapeWhitespace_eq_join spaces text,
    isKept_escapeWhitespace_iff_text_eq spaces text, ?_⟩
  rintro pieces rfl
  refine ⟨(text_escapeWhitespace_join spaces pieces).symm, ?_⟩
  simp only [isKept_escapeWhitespace_iff]
  exact whitespaceFree_join_iff

/-- The pieces need not be kept or replaced together, and an empty one is no
obstacle. -/
theorem escapeWhitespace_by_pieces_tab :
    String.join ["a\\", "", "\tb", " "] = "a\\\tb " ∧
      String.join (["a\\", "", "\tb", " "].map fun piece =>
          (escapeWhitespace true piece).text) =
        (escapeWhitespace true "a\\\tb ").text ∧
      (escapeWhitespace true "a\\\tb ").isKept = false := by
  have hjoin : String.join ["a\\", "", "\tb", " "] = "a\\\tb " := by decide
  obtain ⟨hwritten, hkept⟩ :=
    (escapeWhitespace_by_pieces true "a\\\tb ").2.2 _ hjoin
  refine ⟨hjoin, hwritten, ?_⟩
  rw [Bool.eq_false_iff, ne_eq, hkept]
  decide

end TreeLabels
