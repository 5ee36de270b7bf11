/-
Whitespace in labels.  Escaping takes it out of the texts of tokens, and there is
none in numerals; so it comes into a label with the name of a rule, or as the one
space in the mark of errors.
-/
import TreeLabels.Labeller
import TreeLabels.Proofs.CleanText
import TreeLabels.Proofs.RuleText

namespace TreeLabels

theorem not_isDigit_of_isEscapable {spaces : Bool} {c : Char}
    (h : isEscapable spaces c = true) : c.isDigit = false := by
  simp only [isEscapable, Bool.or_eq_true, Bool.and_eq_true, beq_iff_eq] at h
  rcases h with ((rfl | rfl) | rfl) | ⟨_, rfl⟩ <;> decide

section Counts

-- What is counted are characters that escaping replaces, some of them or all.
variable {spaces : Bool} {counted : Char → Bool}
  (hcounted : ∀ c, counted c = true → isEscapable spaces c = true)

include hcounted

theorem countP_eq_zero_of_clean {chars : List Char}
    (hclean : chars.any (isEscapable spaces) = false) :
    chars.countP counted = 0 := by
  rw [List.countP_eq_zero]
  intro c hc hcount
  exact List.any_eq_false.mp hclean c hc (hcounted c hcount)

theorem countP_decimal (n : Nat) : (decimal n).toList.countP counted = 0 := by
  rw [List.countP_eq_zero]
  intro c hc hcount
  exact not_mem_decimal (not_isDigit_of_isEscapable (hcounted c hcount)) hc

theorem countP_escapeWhitespace (text : String) :
    (escapeWhitespace spaces text).text.toList.countP counted = 0 := by
  apply countP_eq_zero_of_clean hcounted
  exact whitespaceFree_iff_any.mp (whitespaceFree_escapeWhitespace spaces text)

theorem countP_alternativeText (name : String) (alt : Option AltNumber) :
    (NameResolver.alternativeText name alt).toList.countP counted =
      name.toList.countP counted := by
  cases alt with
  | none => rfl
  | some n =>
      have hcolon : [':'].countP counted = 0 :=
        countP_eq_zero_of_clean hcounted (by cases spaces <;> rfl)
      rw [NameResolver.alternativeText, toList_colon_decimal,
        List.append_cons, List.countP_append, List.countP_append, hcolon,
        countP_decimal hcounted]
      rfl

/-- The mark of errors brings one space, which may be counted or not. -/
theorem countP_errorLabel (text : String) :
    (errorLabel text).toList.countP counted =
      text.toList.countP counted + if counted ' ' then 1 else 0 := by
  have hfront : "<error".toList.countP counted = 0 :=
    countP_eq_zero_of_clean hcounted (by cases spaces <;> rfl)
  have hback : ">".toList.countP counted = 0 :=
    countP_eq_zero_of_clean hcounted (by cases spaces <;> rfl)
  have hchars : (errorLabel text).toList =
      "<error".toList ++ ' ' :: (text.toList ++ ">".toList) := by
    simp [errorLabel]
  rw [hchars, List.countP_append, List.countP_cons, List.countP_append, hfront,
    hback, Nat.zero_add, Nat.add_zero]

variable (names : NameTable)

/-- In a text it is the name of a rule, if any, that counts. -/
theorem countP_resolve (node : Node) :
    (resolve (NameResolver.escaping spaces) node
        names).value.toList.countP counted =
      (names.nameOf? (some node)).elim 0 fun name =>
        name.toList.countP counted := by
  obtain ⟨kind, flag⟩ := node
  cases kind with
  | rule index alt =>
      rw [NameResolver.resolve_rule, NameTable.nameOf?]
      cases hname : names.get? index.toNat with
      | none =>
          have hsize := NameTable.get?_eq_none_iff.mp hname
          rw [NameResolver.ruleText_of_le hsize]
          exact countP_decimal hcounted index.toNat
      | some name =>
          rw [NameResolver.ruleText_of_get? hname]
          exact countP_alternativeText hcounted name alt
  | terminal text => exact countP_escapeWhitespace hcounted text
  | error text => exact countP_escapeWhitespace hcounted text

theorem countP_label (entry : Option Node) :
    ((Labeller.mk names (NameResolver.escaping spaces)).label
        entry).value.toList.countP counted =
      ((names.nameOf? entry).elim 0 fun name => name.toList.countP counted) +
        if entry.any Node.isError && counted ' ' then 1 else 0 := by
  cases entry with
  | none =>
      have habsent : absentLabel.toList.countP counted = 0 :=
        countP_eq_zero_of_clean hcounted (by cases spaces <;> rfl)
      exact habsent
  | some node =>
      have htext := countP_resolve hcounted names node
      rw [Labeller.value_label_some, Option.any_some]
      cases node.isError with
      | false => exact htext
      | true =>
          rw [← htext, Bool.true_and]
          exact countP_errorLabel hcounted _

end Counts

theorem count_label {spaces : Bool} {c : Char}
    (hc : isEscapable spaces c = true) (names : NameTable)
    (entry : Option Node) :
    ((Labeller.mk names (NameResolver.escaping spaces)).label
        entry).value.toList.count c =
      ((names.nameOf? entry).elim 0 fun name => name.toList.count c) +
        if entry.any Node.isError && ' ' == c then 1 else 0 := by
  have hcounted : ∀ d : Char, (d == c) = true →
      isEscapable spaces d = true := by
    intro d hd
    rw [eq_of_beq hd]
    exact hc
  exact countP_label hcounted names entry

end TreeLabels
