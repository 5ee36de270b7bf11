/-
Escaping early and escaping late.  A resolver escapes the texts of tokens before
the mark of errors is put around them; a finished label may be escaped as a
whole.  Whatever was escaped early, escaping late brings it to the same text, so
the two differ where the early label still has something to escape.
-/
import TreeLabels.Proofs.EscapePasses
import TreeLabels.Proofs.EscapePieces
import TreeLabels.Proofs.LabelWhitespace

namespace TreeLabels

section Late

variable (names : NameTable) (spaces : Bool)

theorem escapeWhitespace_resolve_escaping (node : Node) :
    (escapeWhitespace spaces
        (resolve (NameResolver.escaping spaces) node names).value).text =
      (escapeWhitespace spaces
        (resolve NameResolver.plain node names).value).text := by
  obtain ⟨kind, flag⟩ := node
  have htoken : ∀ text : String,
      (escapeWhitespace spaces (escapeWhitespace spaces text).text).text =
        (escapeWhitespace spaces text).text := by
    intro text
    rw [text_escapeWhitespace_escapeWhitespace, Bool.or_self]
  cases kind with
  | rule index alt => rfl
  | terminal text => exact htoken text
  | error text => exact htoken text

/-- The mark is escaped on its own, whatever stands in it. -/
theorem escapeWhitespace_errorLabel_congr {text other : String}
    (h : (escapeWhitespace spaces text).text =
      (escapeWhitespace spaces other).text) :
    (escapeWhitespace spaces (errorLabel text)).text =
      (escapeWhitespace spaces (errorLabel other)).text := by
  simp only [errorLabel, text_escapeWhitespace_append, h]

theorem escapeWhitespace_label_escaping (entry : Option Node) :
    (escapeWhitespace spaces
        ((Labeller.mk names (NameResolver.escaping spaces)).label
          entry).value).text =
      (escapeWhitespace spaces
        ((Labeller.ofNames names).label entry).value).text := by
  cases entry with
  | none => rfl
  | some node =>
      have htext := escapeWhitespace_resolve_escaping names spaces node
      rw [Labeller.value_label_some, Labeller.value_label_some]
      cases node.isError with
      | false => exact htext
      | true => exact escapeWhitespace_errorLabel_congr spaces htext

end Late

/-- What is left to escape in an early label: the space in the mark of errors,
and what stands in the name of a rule. -/
theorem whitespaceFree_label_iff (names : NameTable) (spaces : Bool)
    (entry : Option Node) :
    WhitespaceFree spaces
        ((Labeller.mk names (NameResolver.escaping spaces)).label
          entry).value ↔
      ¬ (spaces = true ∧ entry.any Node.isError = true) ∧
        ∀ name, names.nameOf? entry = some name →
          WhitespaceFree spaces name := by
  have hspace : isEscapable spaces ' ' = spaces := by cases spaces <;> rfl
  simp only [whitespaceFree_iff_countP]
  -- Nothing is counted if neither the name nor the mark brings anything.
  rw [countP_label (fun _ h => h), hspace, Nat.add_eq_zero_iff]
  cases names.nameOf? entry <;> cases spaces <;>
    cases entry.any Node.isError <;> simp

/-- Escaping the finished label brings an early label and one that was never
escaped to the same text.  The early label is that text already, except where the
mark of errors keeps its space or the name of a rule has something to escape. -/
theorem label_escaped_early_iff (names : NameTable) (spaces : Bool)
    (entry : Option Node) :
    let early :=
      ((Labeller.mk names (NameResolver.escaping spaces)).label entry).value
    let kept := ((Labeller.ofNames names).label entry).value
    (escapeWhitespace spaces early).text = (escapeWhitespace spaces kept).text ∧
      (early = (escapeWhitespace spaces kept).text ↔
        ¬ (spaces = true ∧ entry.any Node.isError = true) ∧
          ¬ ∃ name, names.nameOf? entry = some name ∧
            ¬ WhitespaceFree spaces name) := by
  intro early kept
  have hlate := escapeWhitespace_label_escaping names spaces entry
  refine ⟨hlate, ?_⟩
  rw [← hlate, eq_comm, text_escapeWhitespace_eq_self_iff,
    whitespaceFree_label_iff]
  simp only [not_exists, not_and, Decidable.not_not]

/-- The mark of errors keeps its space only if it comes after escaping. -/
example :
    let error : Node := .ofKind (.error "a b")
    ((Labeller.mk (.ofList []) (NameResolver.escaping true)).label
        (some error)).value = "<error a·b>" ∧
      (escapeWhitespace true ((Labeller.ofNames (.ofList [])).label
        (some error)).value).text = "<error·a·b>" := by
  decide

end TreeLabels
