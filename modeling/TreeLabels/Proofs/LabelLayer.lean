/-
The layer around a resolver.  A labeller asks its resolver about a node under
its own table and puts the mark of errors around the answer if the node is
one.  The mark can be taken off again, so labels tell apart what the answers
tell apart, and an answer that looks marked already is marked once more.
-/
import TreeLabels.Proofs.ErrorMark

namespace TreeLabels

namespace Labeller

variable {ρ σ : Type} [Resolver ρ] [Resolver σ]

/-- A labeller adds one layer to the answers of its resolver.  A label depends
on the answer under the table of the labeller alone and gives all of it away;
without its mark it is the text again.  An error reads like a node that is none
only if the text of that one brings the mark, which is put around any text. -/
structure OneLayer (labeller : Labeller ρ) : Prop where
  label_eq_iff : ∀ {σ : Type} [Resolver σ] (other : Labeller σ) (node : Node),
    labeller.label (some node) = other.label (some node) ↔
      resolve labeller.resolver node labeller.names =
        resolve other.resolver node other.names
  unmark? : ∀ node : Node,
    node.unmark? (labeller.label (some node)).value =
      some (resolve labeller.resolver node labeller.names).value
  same_error : ∀ a b : Node, a.isError = b.isError →
    ((labeller.label (some a)).value = (labeller.label (some b)).value ↔
      (resolve labeller.resolver a labeller.names).value =
        (resolve labeller.resolver b labeller.names).value)
  one_error : ∀ a b : Node, a.isError = true → b.isError = false →
    ((labeller.label (some a)).value = (labeller.label (some b)).value ↔
      (resolve labeller.resolver b labeller.names).value =
        errorLabel (resolve labeller.resolver a labeller.names).value)
  marked_before : ∀ (node : Node) (text : String),
    (resolve labeller.resolver node labeller.names).value = errorLabel text →
      (node.isError = true →
        (labeller.label (some node)).value = errorLabel (errorLabel text)) ∧
      (node.isError = false →
        (labeller.label (some node)).value = errorLabel text)
  events : ∀ node : Node,
    (labeller.label (some node)).events =
      (resolve labeller.resolver node labeller.names).events ++
        [.labelled (labeller.label (some node)).value]

section TwoLabellers

variable (labeller : Labeller ρ) (other : Labeller σ)

theorem label_congr {node : Node}
    (htext : resolve labeller.resolver node labeller.names =
      resolve other.resolver node other.names) :
    labeller.label (some node) = other.label (some node) := by
  simp only [label, htext]

/-- The trace comes last and is of the label, so the events of the text can be
told from it. -/
theorem label_eq_label_iff (node : Node) :
    labeller.label (some node) = other.label (some node) ↔
      resolve labeller.resolver node labeller.names =
        resolve other.resolver node other.names := by
  constructor
  · intro hlabel
    have hvalue := congrArg Logged.value hlabel
    have hevents := congrArg Logged.events hlabel
    rw [events_label_some, events_label_some] at hevents
    apply Logged.ext
    · exact (value_label_eq_value_label_iff labeller other rfl).mp hvalue
    · exact (List.append_inj' hevents rfl).1
  · exact label_congr labeller other

end TwoLabellers

theorem value_label_eq_of_one_error_iff (labeller : Labeller ρ) {a b : Node}
    (ha : a.isError = true) (hb : b.isError = false) :
    (labeller.label (some a)).value = (labeller.label (some b)).value ↔
      (resolve labeller.resolver b labeller.names).value =
        errorLabel (resolve labeller.resolver a labeller.names).value := by
  rw [labeller.value_label_marked ha, labeller.value_label_unmarked hb, eq_comm]

/-- A labeller adds one layer that can be taken off again, whatever its
resolver answers.  Around a node that is no error there is none, so the plain
labeller, the plain resolver, the standard one and the text of the node itself
agree there. -/
theorem label_one_layer (labeller : Labeller ρ) :
    labeller.OneLayer ∧
      ∀ (names : NameTable) (node : Node), node.isError = false →
        let shown := ((ofNames names).label (some node)).value
        shown = (resolve NameResolver.plain node names).value ∧
          shown = (resolve (default : NameResolver) node names).value ∧
          shown = (nodeText node names).value := by
  constructor
  · exact {
      label_eq_iff := fun other node => labeller.label_eq_label_iff other node
      unmark? := labeller.unmark?_value_label
      same_error := fun _ _ herror =>
        labeller.value_label_eq_value_label_iff labeller herror
      one_error := fun _ _ ha hb =>
        labeller.value_label_eq_of_one_error_iff ha hb
      marked_before := fun node text htext => by
        rw [← htext]
        exact ⟨labeller.value_label_marked, labeller.value_label_unmarked⟩
      events := labeller.events_label_some }
  · intro names node herror shown
    have hshown : shown = (resolve NameResolver.plain node names).value :=
      (ofNames names).value_label_unmarked herror
    -- The standard resolver and the text of a node are the plain one by name.
    exact ⟨hshown, hshown, hshown⟩

/-- A token that imitates the label of an error is not told from it by labels
that keep the text as it is; called an error itself, it has a mark around its
mark. -/
theorem label_one_layer_imitated :
    let labeller : Labeller NameResolver := .ofNames (.ofList ["stat"])
    let error : Node := .ofKind (.error "x")
    let token : Node := .ofKind (.terminal "<error x>")
    let marked : Node := ⟨.terminal "<error x>", some true⟩
    error.isError = true ∧ token.isError = false ∧
      (labeller.label (some error)).value =
        (labeller.label (some token)).value ∧
      (labeller.label (some marked)).value = "<error <error x>>" ∧
      (labeller.label (some token)).value =
        (nodeText token labeller.names).value := by
  intro labeller error token marked
  have herror : error.isError = true := rfl
  have htoken : token.isError = false := rfl
  obtain ⟨hlayer, hplain⟩ := label_one_layer labeller
  refine ⟨herror, htoken, ?_, ?_, ?_⟩
  · exact (hlayer.one_error error token herror htoken).mpr (by decide)
  · exact (hlayer.marked_before marked "x" (by decide)).1 rfl
  · exact (hplain labeller.names token htoken).2.2

end Labeller

end TreeLabels
