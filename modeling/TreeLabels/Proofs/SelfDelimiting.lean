/-
Texts that end where they say.  A code is self-delimiting if it can be read off
the front of a longer text in one way only.  Quoted texts are, and lists and
records of such codes are again.
-/
import TreeLabels.Inspect
import TreeLabels.Proofs.Separator

namespace TreeLabels

namespace Inspect

/-- The letters that stand for characters behind a backslash. -/
def letterEscapes : List (Char × Char) :=
  [('\x00', '0'), ('\t', 't'), ('\n', 'n'), ('\r', 'r'), ('"', '"'),
    ('\\', '\\')]

/-- The three ways of writing a character between quotes: with a letter, with its
number, or as it is. -/
inductive Written : Char → List Char → Prop where
  | letter {c letter : Char} (hletter : (c, letter) ∈ letterEscapes) :
      Written c ['\\', letter]
  | number {c : Char} :
      Written c ('\\' :: 'u' :: '{' :: (hexadecimal c.toNat ++ ['}']))
  | plain {c : Char} (hquote : c ≠ '"') (hslash : c ≠ '\\')
      (hcontrol : isControl c = false) : Written c [c]

theorem written_quotedChar (c : Char) : Written c (quotedChar c) := by
  unfold quotedChar
  split
  · exact .letter (by decide)
  · exact .letter (by decide)
  · exact .letter (by decide)
  · exact .letter (by decide)
  · exact .letter (by decide)
  · exact .letter (by decide)
  · split
    · exact .number
    · next hquote hslash hcontrol =>
        exact .plain hquote hslash (by simpa using hcontrol)

theorem letterEscapes_inj {c d letter : Char} (hc : (c, letter) ∈ letterEscapes)
    (hd : (d, letter) ∈ letterEscapes) : c = d := by
  have hall : ∀ p ∈ letterEscapes, ∀ q ∈ letterEscapes,
      p.2 = q.2 → p.1 = q.1 := by decide
  exact hall _ hc _ hd rfl

/-- No letter escape looks like the start of a number. -/
theorem letter_ne_u {c : Char} : (c, 'u') ∉ letterEscapes := by
  intro hmem
  have hall : ∀ p ∈ letterEscapes, p.2 ≠ 'u' := by decide
  exact hall _ hmem rfl

theorem brace_not_mem_hexadecimal (n : Nat) : '}' ∉ hexadecimal n := by
  intro hmem
  obtain ⟨digit, hlt, hbrace⟩ := exists_digit_of_mem_hexadecimal hmem
  have hall : ∀ digit, digit < 16 → '}' ≠ digit.digitChar := by decide
  exact hall digit hlt hbrace

theorem Written.append_inj {c d : Char} {code code' rest rest' : List Char}
    (hc : Written c code) (hd : Written d code')
    (heq : code ++ rest = code' ++ rest') : c = d ∧ rest = rest' := by
  cases hc with
  | letter hletter =>
      cases hd with
      | letter hletter' =>
          simp only [List.cons_append, List.nil_append, List.cons.injEq,
            true_and] at heq
          obtain ⟨rfl, hrest⟩ := heq
          exact ⟨letterEscapes_inj hletter hletter', hrest⟩
      | number =>
          simp only [List.cons_append, List.cons.injEq, true_and] at heq
          exact absurd (heq.1 ▸ hletter) letter_ne_u
      | plain _ hslash =>
          exact absurd (List.cons.inj heq).1.symm hslash
  | number =>
      cases hd with
      | letter hletter =>
          simp only [List.cons_append, List.cons.injEq, true_and] at heq
          exact absurd (heq.1 ▸ hletter) letter_ne_u
      | number =>
          simp only [List.cons_append, List.append_assoc, List.nil_append,
            List.cons.injEq, true_and] at heq
          obtain ⟨hdigits, hrest⟩ := first_separator_inj
            (brace_not_mem_hexadecimal _) (brace_not_mem_hexadecimal _) heq
          exact ⟨Char.toNat_inj.mp (hexadecimal_inj.mp hdigits), hrest⟩
      | plain _ hslash =>
          exact absurd (List.cons.inj heq).1.symm hslash
  | plain _ hslash =>
      cases hd with
      | letter => exact absurd (List.cons.inj heq).1 hslash
      | number => exact absurd (List.cons.inj heq).1 hslash
      | plain => exact List.cons.inj heq

/-- What is written for a character does not start with the closing quote. -/
theorem Written.append_ne_quote {c : Char} {code rest rest' : List Char}
    (hc : Written c code) : code ++ rest ≠ '"' :: rest' := by
  intro heq
  cases hc with
  | letter => exact absurd (List.cons.inj heq).1 (by decide)
  | number => exact absurd (List.cons.inj heq).1 (by decide)
  | plain hquote => exact hquote (List.cons.inj heq).1

/-- The first quote that is not part of a character ends a quoted text. -/
theorem flatMap_quotedChar_inj {chars chars' rest rest' : List Char}
    (heq : chars.flatMap quotedChar ++ '"' :: rest =
      chars'.flatMap quotedChar ++ '"' :: rest') :
    chars = chars' ∧ rest = rest' := by
  induction chars generalizing chars' with
  | nil =>
      cases chars' with
      | nil => exact ⟨rfl, (List.cons.inj heq).2⟩
      | cons d ds =>
          rw [List.flatMap_cons, List.append_assoc] at heq
          exact absurd heq.symm (written_quotedChar d).append_ne_quote
  | cons c cs ih =>
      rw [List.flatMap_cons, List.append_assoc] at heq
      cases chars' with
      | nil => exact absurd heq (written_quotedChar c).append_ne_quote
      | cons d ds =>
          rw [List.flatMap_cons, List.append_assoc] at heq
          obtain ⟨hhead, htail⟩ :=
            (written_quotedChar c).append_inj (written_quotedChar d) heq
          obtain ⟨hchars, hrest⟩ := ih htail
          exact ⟨by rw [hhead, hchars], hrest⟩

/-- Texts that start with the codes of two values are the same only if the values
and what comes behind the codes are. -/
structure SelfDelimiting {α : Type} (code : α → String) : Prop where
  append_inj : ∀ {a b : α} {rest rest' : String},
    code a ++ rest = code b ++ rest' → a = b ∧ rest = rest'

theorem quoted_selfDelimiting : SelfDelimiting quoted := by
  constructor
  intro a b rest rest' heq
  have hchars := congrArg String.toList heq
  rw [String.toList_append, String.toList_append, toList_quoted,
    toList_quoted] at hchars
  simp only [List.cons_append, List.append_assoc, List.nil_append,
    List.cons.injEq, true_and] at hchars
  obtain ⟨htext, hrest⟩ := flatMap_quotedChar_inj hchars
  exact ⟨String.toList_inj.mp htext, String.toList_inj.mp hrest⟩

/-- A numeral ends at the first character that is not a digit. -/
theorem decimal_append_inj (stop : Char) (hstop : stop.isDigit = false)
    {m n : Nat} {rest rest' : String}
    (heq : decimal m ++ (String.singleton stop ++ rest) =
      decimal n ++ (String.singleton stop ++ rest')) :
    m = n ∧ rest = rest' := by
  have hchars := congrArg String.toList heq
  simp only [String.toList_append, String.toList_singleton, List.cons_append,
    List.nil_append] at hchars
  obtain ⟨hdigits, hrest⟩ := first_separator_inj (not_mem_decimal hstop)
    (not_mem_decimal hstop) hchars
  exact ⟨decimal_inj.mp (String.toList_inj.mp hdigits),
    String.toList_inj.mp hrest⟩

namespace SelfDelimiting

variable {α β : Type} {code : α → String} {code' : β → String}

theorem injective (h : SelfDelimiting code) : Function.Injective code := by
  intro a b heq
  exact (h.append_inj (congrArg (· ++ "") heq)).1

/-- What a list looks like behind its first item. -/
def closing (code : α → String) : List α → String
  | [] => "]"
  | item :: rest => ", " ++ (code item ++ closing code rest)

theorem list_nil (code : α → String) :
    Inspect.list (([] : List α).map code) = "[" ++ "]" := by
  rw [Inspect.list, List.map_nil, String.intercalate_nil, String.append_empty]

theorem list_cons (code : α → String) (item : α) (rest : List α) :
    Inspect.list ((item :: rest).map code) =
      "[" ++ (code item ++ closing code rest) := by
  rw [Inspect.list, String.append_assoc]
  congr 1
  induction rest generalizing item with
  | nil => rw [List.map_singleton, String.intercalate_singleton, closing]
  | cons next rest ih =>
      rw [List.map_cons, List.map_cons, String.intercalate_cons_cons,
        ← List.map_cons, String.append_assoc, ih, closing,
        String.append_assoc]

theorem closing_append_inj (h : SelfDelimiting code) {items items' : List α}
    {rest rest' : String}
    (heq : closing code items ++ rest = closing code items' ++ rest') :
    items = items' ∧ rest = rest' := by
  induction items generalizing items' with
  | nil =>
      cases items' with
      | nil => exact ⟨rfl, (String.append_right_inj "]").mp heq⟩
      | cons => simp [closing, ← String.toList_inj] at heq
  | cons item items ih =>
      cases items' with
      | nil => simp [closing, ← String.toList_inj] at heq
      | cons item' items' =>
          simp only [closing, String.append_assoc,
            String.append_right_inj] at heq
          obtain ⟨hitem, htail⟩ := h.append_inj heq
          obtain ⟨hitems, hrest⟩ := ih htail
          exact ⟨by rw [hitem, hitems], hrest⟩

/-- A list in brackets ends where its items do, if no item looks like the end of
the list. -/
theorem list (h : SelfDelimiting code)
    (hopen : ∀ item rest rest', code item ++ rest ≠ "]" ++ rest') :
    SelfDelimiting fun items : List α => Inspect.list (items.map code) := by
  constructor
  intro items items' rest rest' heq
  cases items with
  | nil =>
      cases items' with
      | nil => exact ⟨rfl, (String.append_right_inj _).mp heq⟩
      | cons item' items' =>
          simp only [list_nil, list_cons, String.append_assoc,
            String.append_right_inj] at heq
          exact absurd heq.symm (hopen item' _ _)
  | cons item items =>
      cases items' with
      | nil =>
          simp only [list_nil, list_cons, String.append_assoc,
            String.append_right_inj] at heq
          exact absurd heq (hopen item _ _)
      | cons item' items' =>
          simp only [list_cons, String.append_assoc,
            String.append_right_inj] at heq
          obtain ⟨hitem, htail⟩ := h.append_inj heq
          obtain ⟨hitems, hrest⟩ := h.closing_append_inj htail
          exact ⟨by rw [hitem, hitems], hrest⟩

theorem comp (h : SelfDelimiting code) {f : β → α}
    (hf : Function.Injective f) : SelfDelimiting fun b => code (f b) := by
  constructor
  intro a b rest rest' heq
  obtain ⟨hcode, hrest⟩ := h.append_inj heq
  exact ⟨hf hcode, hrest⟩

theorem record_one (h : SelfDelimiting code) (name key : String) :
    SelfDelimiting fun a => record name [field key (code a)] := by
  constructor
  intro a b rest rest' heq
  simp only [record, field, String.intercalate_singleton, String.append_assoc,
    String.append_right_inj] at heq
  obtain ⟨hvalue, htail⟩ := h.append_inj heq
  exact ⟨hvalue, (String.append_right_inj _).mp htail⟩

theorem record_two (h : SelfDelimiting code) (h' : SelfDelimiting code')
    (name key key' : String) :
    SelfDelimiting fun pair : α × β =>
      record name [field key (code pair.1), field key' (code' pair.2)] := by
  constructor
  rintro ⟨a, b⟩ ⟨a', b'⟩ rest rest' heq
  simp only [record, field, String.intercalate_cons_cons,
    String.intercalate_singleton, String.append_assoc,
    String.append_right_inj] at heq
  obtain ⟨rfl, htail⟩ := h.append_inj heq
  simp only [String.append_right_inj] at htail
  obtain ⟨rfl, hend⟩ := h'.append_inj htail
  exact ⟨rfl, (String.append_right_inj _).mp hend⟩

end SelfDelimiting

end Inspect

end TreeLabels
