/-
What escaping forgets.  A backslash is not escaped itself, so a text with an
escape in it already is written like the text that the escape stands for.
Nothing else is lost: reading escapes back does the same to a text as to its
escaped form, and escaping does not notice whether it was read back before.
-/
import Mathlib.Data.List.Infix
import TreeLabels.Whitespace

namespace TreeLabels

/-- The letters that stand for whitespace behind a backslash. -/
def escapeLetters : List Char :=
  ['t', 'n', 'r']

/-- The characters do not go on with an escape letter. -/
def NoLetterNext (chars : List Char) : Prop :=
  ∀ letter ∈ escapeLetters, ¬ [letter] <+: chars

theorem noLetterNext_of_ne {chars : List Char}
    (ht : ∀ rest, chars ≠ 't' :: rest) (hn : ∀ rest, chars ≠ 'n' :: rest)
    (hr : ∀ rest, chars ≠ 'r' :: rest) : NoLetterNext chars := by
  rintro letter hletter ⟨rest, rfl⟩
  simp only [escapeLetters, List.mem_cons, List.not_mem_nil,
    or_false] at hletter
  rcases hletter with rfl | rfl | rfl
  · exact ht rest rfl
  · exact hn rest rfl
  · exact hr rest rfl

theorem noLetterNext_cons_iff {c : Char} {rest : List Char} :
    NoLetterNext (c :: rest) ↔ c ∉ escapeLetters := by
  constructor
  · intro hnext hmem
    exact hnext c hmem ⟨rest, rfl⟩
  · rintro hmem letter hletter hpre
    rw [List.cons_prefix_cons] at hpre
    exact hmem (hpre.1 ▸ hletter)

/-- There is nothing to read back: no backslash right before an escape letter
and, where it stands for a space, no middle dot. -/
structure EscapeFree (spaces : Bool) (chars : List Char) : Prop where
  no_letter : ∀ letter ∈ escapeLetters, ¬ ['\\', letter] <:+: chars
  no_dot : spaces = true → '·' ∉ chars

section Decoder

variable {spaces : Bool}

theorem unescapeChars_backslash {rest : List Char} (hnext : NoLetterNext rest) :
    unescapeChars spaces ('\\' :: rest) = '\\' :: unescapeChars spaces rest := by
  cases rest with
  | nil => rfl
  | cons c rest =>
      have hc : c ∉ escapeLetters := noLetterNext_cons_iff.mp hnext
      simp only [escapeLetters, List.mem_cons, List.not_mem_nil, or_false,
        not_or] at hc
      rw [unescapeChars] <;> simp_all

/-- Escaping does not bring an escape letter behind a backslash. -/
theorem NoLetterNext.flatMap_escapeChar {chars : List Char}
    (hnext : NoLetterNext chars) :
    NoLetterNext (chars.flatMap (escapeChar spaces)) := by
  cases chars with
  | nil => exact hnext
  | cons c rest =>
      have hc := noLetterNext_cons_iff.mp hnext
      rw [List.flatMap_cons]
      unfold escapeChar
      split
      · exact noLetterNext_cons_iff.mpr (by decide)
      · exact noLetterNext_cons_iff.mpr (by decide)
      · exact noLetterNext_cons_iff.mpr (by decide)
      · cases spaces with
        | false => exact noLetterNext_cons_iff.mpr hc
        | true => exact noLetterNext_cons_iff.mpr (by decide)
      · exact noLetterNext_cons_iff.mpr hc

/-- What is written for one character is read back as that character, whatever
comes next, unless reading would have changed the character itself. -/
theorem unescapeChars_escapeChar_append {c : Char} (hslash : c ≠ '\\')
    (hdot : c ≠ '·') (rest : List Char) :
    unescapeChars spaces (escapeChar spaces c ++ rest) =
      c :: unescapeChars spaces rest := by
  unfold escapeChar
  split
  · rfl
  · rfl
  · rfl
  · cases spaces <;> rfl
  · exact unescapeChars_cons_of_ne hslash hdot

/-- Reading back sees no difference between a text and its escaped form. -/
theorem unescapeChars_flatMap_escapeChar (chars : List Char) :
    unescapeChars spaces (chars.flatMap (escapeChar spaces)) =
      unescapeChars spaces chars := by
  fun_induction unescapeChars spaces chars with
  | case1 => rfl
  | case2 rest ih => simp [escapeChar, unescapeChars, ih]
  | case3 rest ih => simp [escapeChar, unescapeChars, ih]
  | case4 rest ih => simp [escapeChar, unescapeChars, ih]
  | case5 rest ih => simp [escapeChar, unescapeChars, ih]
  | case6 c rest ht hn hr hdot ih =>
      rw [List.flatMap_cons]
      by_cases hslash : c = '\\'
      · -- The next letter is as harmless in the escaped text as before.
        have hnext : NoLetterNext rest := noLetterNext_of_ne
          (fun r => ht r hslash) (fun r => hn r hslash) (fun r => hr r hslash)
        subst hslash
        have hself : escapeChar spaces '\\' = ['\\'] := rfl
        rw [hself, List.singleton_append,
          unescapeChars_backslash hnext.flatMap_escapeChar, ih]
      · rw [unescapeChars_escapeChar_append hslash hdot, ih]

/-- Escaping sees no difference between a text and what is read back from it. -/
theorem flatMap_escapeChar_unescapeChars (chars : List Char) :
    (unescapeChars spaces chars).flatMap (escapeChar spaces) =
      chars.flatMap (escapeChar spaces) := by
  fun_induction unescapeChars spaces chars with
  | case1 => rfl
  | case2 rest ih => simp [escapeChar, ih]
  | case3 rest ih => simp [escapeChar, ih]
  | case4 rest ih => simp [escapeChar, ih]
  | case5 rest ih => cases spaces <;> simp [escapeChar, ih]
  | case6 c rest _ _ _ _ ih => rw [List.flatMap_cons, List.flatMap_cons, ih]

theorem escapeFree_nil : EscapeFree spaces [] where
  no_letter _ _ hin := List.cons_ne_nil _ _ (List.infix_nil.mp hin)
  no_dot _ := List.not_mem_nil

theorem escapeFree_cons_iff {c : Char} {rest : List Char} :
    EscapeFree spaces (c :: rest) ↔
      (c = '\\' → NoLetterNext rest) ∧ (spaces = true → c ≠ '·') ∧
        EscapeFree spaces rest := by
  constructor
  · rintro ⟨hletter, hdot⟩
    refine ⟨?_, fun hspaces hc => ?_, fun letter hmem hin => ?_,
      fun hspaces hmem => ?_⟩
    · rintro rfl letter hmem hpre
      refine hletter letter hmem (List.IsPrefix.isInfix ?_)
      exact List.cons_prefix_cons.mpr ⟨rfl, hpre⟩
    · exact hdot hspaces (hc ▸ List.mem_cons_self)
    · exact hletter letter hmem (List.infix_cons hin)
    · exact hdot hspaces (List.mem_cons_of_mem c hmem)
  · rintro ⟨hnext, hc, hletter, hdot⟩
    refine ⟨fun letter hmem hin => ?_, fun hspaces hmem => ?_⟩
    · rcases List.infix_cons_iff.mp hin with hpre | hin
      · obtain ⟨hslash, hpre⟩ := List.cons_prefix_cons.mp hpre
        exact hnext hslash.symm letter hmem hpre
      · exact hletter letter hmem hin
    · rcases List.mem_cons.mp hmem with hself | hmem
      · exact hc hspaces hself.symm
      · exact hdot hspaces hmem

/-- Reading back leaves a text alone exactly if there is nothing to read. -/
theorem unescapeChars_eq_self_iff (chars : List Char) :
    unescapeChars spaces chars = chars ↔ EscapeFree spaces chars := by
  fun_induction unescapeChars spaces chars with
  | case1 => simp [escapeFree_nil]
  | case2 rest ih =>
      simp [escapeFree_cons_iff, noLetterNext_cons_iff, escapeLetters]
  | case3 rest ih =>
      simp [escapeFree_cons_iff, noLetterNext_cons_iff, escapeLetters]
  | case4 rest ih =>
      simp [escapeFree_cons_iff, noLetterNext_cons_iff, escapeLetters]
  | case5 rest ih =>
      rw [escapeFree_cons_iff, List.cons.injEq, ih]
      cases spaces <;> simp
  | case6 c rest ht hn hr hdot ih =>
      have hnext : c = '\\' → NoLetterNext rest := fun hslash =>
        noLetterNext_of_ne (fun r => ht r hslash) (fun r => hn r hslash)
          (fun r => hr r hslash)
      have hplain : spaces = true → c ≠ '·' := fun _ => hdot
      rw [escapeFree_cons_iff, List.cons.injEq, ih, and_iff_right rfl,
        and_iff_right hnext, and_iff_right hplain]

instance (chars : List Char) : Decidable (EscapeFree spaces chars) :=
  decidable_of_iff _ (unescapeChars_eq_self_iff chars)

end Decoder

section Texts

variable {spaces : Bool} {a b : String}

theorem unescapeWhitespace_text_escapeWhitespace (spaces : Bool) (a : String) :
    unescapeWhitespace spaces (escapeWhitespace spaces a).text =
      unescapeWhitespace spaces a := by
  rw [← String.toList_inj, toList_unescapeWhitespace,
    toList_unescapeWhitespace, toList_text_escapeWhitespace,
    unescapeChars_flatMap_escapeChar]

theorem text_escapeWhitespace_unescapeWhitespace (spaces : Bool) (a : String) :
    (escapeWhitespace spaces (unescapeWhitespace spaces a)).text =
      (escapeWhitespace spaces a).text := by
  rw [← String.toList_inj, toList_text_escapeWhitespace,
    toList_text_escapeWhitespace, toList_unescapeWhitespace,
    flatMap_escapeChar_unescapeChars]

theorem text_escapeWhitespace_eq_iff :
    (escapeWhitespace spaces a).text = (escapeWhitespace spaces b).text ↔
      unescapeWhitespace spaces a = unescapeWhitespace spaces b := by
  constructor
  · intro h
    rw [← unescapeWhitespace_text_escapeWhitespace, h,
      unescapeWhitespace_text_escapeWhitespace]
  · intro h
    rw [← text_escapeWhitespace_unescapeWhitespace, h,
      text_escapeWhitespace_unescapeWhitespace]

theorem unescapeWhitespace_eq_self_iff :
    unescapeWhitespace spaces a = a ↔ EscapeFree spaces a.toList := by
  rw [← String.toList_inj, toList_unescapeWhitespace,
    unescapeChars_eq_self_iff]

end Texts

/-- Escaping makes two texts the same exactly if reading back does.  So a text is
read back from its escaped form exactly if nothing in it was to be read before,
and escaping keeps the texts of that kind apart. -/
theorem escapeWhitespace_forgets (spaces : Bool) :
    (∀ a b : String,
      (escapeWhitespace spaces a).text = (escapeWhitespace spaces b).text ↔
        unescapeWhitespace spaces a = unescapeWhitespace spaces b) ∧
    (∀ a : String,
      unescapeWhitespace spaces (escapeWhitespace spaces a).text = a ↔
        EscapeFree spaces a.toList) ∧
    ∀ a b : String, EscapeFree spaces a.toList → EscapeFree spaces b.toList →
      (escapeWhitespace spaces a).text = (escapeWhitespace spaces b).text →
        a = b := by
  refine ⟨fun a b => text_escapeWhitespace_eq_iff, fun a => ?_,
    fun a b ha hb heq => ?_⟩
  · rw [unescapeWhitespace_text_escapeWhitespace,
      unescapeWhitespace_eq_self_iff]
  · rw [text_escapeWhitespace_eq_iff] at heq
    rw [← unescapeWhitespace_eq_self_iff.mpr ha, heq,
      unescapeWhitespace_eq_self_iff.mpr hb]

/-- A backslash before a tab is no escape, and it stays apart from a backslash
before a newline; a backslash before a letter is confused with a tab. -/
theorem escapeWhitespace_forgets_backslash :
    EscapeFree true "\\\t".toList ∧ EscapeFree true "\\\n".toList ∧
      (escapeWhitespace true "\\\t").text ≠
        (escapeWhitespace true "\\\n").text ∧
      (escapeWhitespace true "\\t").text =
        (escapeWhitespace true "\t").text := by
  obtain ⟨hsame, _, hinj⟩ := escapeWhitespace_forgets true
  have htab : EscapeFree true "\\\t".toList := by decide
  have hnewline : EscapeFree true "\\\n".toList := by decide
  refine ⟨htab, hnewline, fun heq => ?_, (hsame _ _).mpr (by decide)⟩
  exact absurd (hinj _ _ htab hnewline heq) (by decide)

end TreeLabels
