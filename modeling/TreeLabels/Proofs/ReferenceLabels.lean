/-
Labels of nodes seen through layers.  No layer hides the kind of a node, so its
text stays the same; behind a reference the kind alone says whether the node is
an error, so its label changes where the node itself disagrees with its kind.
-/
import TreeLabels.Labeller
import TreeLabels.Resolver

namespace TreeLabels

variable {ρ : Type} [Resolver ρ]

/-- The texts that a resolver gives under a table depend on the kinds of nodes
alone. -/
def TextByKind (resolver : ρ) (names : NameTable) : Prop :=
  ∀ a b : Node, a.kind = b.kind →
    (resolve resolver a names).value = (resolve resolver b names).value

theorem KindResolver.textByKind [KindResolver ρ] (resolver : ρ)
    (names : NameTable) : TextByKind resolver names := by
  intro a b hkind
  rw [KindResolver.resolve_congr resolver names hkind]

namespace Node

theorem through_of_not_mem_reference {layers : List Layer}
    (hlayers : .reference ∉ layers) (node : Node) :
    node.through layers = node := by
  induction layers generalizing node with
  | nil => rfl
  | cons layer rest ih =>
      rw [List.mem_cons, not_or] at hlayers
      cases layer with
      | handle => exact ih hlayers.2 node
      | reference => exact absurd rfl hlayers.1

theorem through_ofKind (kind : NodeKind) (layers : List Layer) :
    (ofKind kind).through layers = ofKind kind := by
  induction layers with
  | nil => rfl
  | cons layer rest ih =>
      cases layer with
      | handle => exact ih
      | reference => exact ih

/-- One reference among the layers is enough to leave nothing but the kind. -/
theorem through_of_mem_reference {layers : List Layer}
    (hlayers : .reference ∈ layers) (node : Node) :
    node.through layers = ofKind node.kind := by
  induction layers generalizing node with
  | nil => simp at hlayers
  | cons layer rest ih =>
      cases layer with
      | handle =>
          have hrest : .reference ∈ rest := by simpa using hlayers
          exact ih hrest node
      | reference => exact through_ofKind node.kind rest

/-- A node answers as its kind does unless it says otherwise itself. -/
theorem isError_eq_kind_isError_iff (node : Node) :
    node.isError = node.kind.isError ↔
      node.errorFlag = none ∨ node.errorFlag = some node.kind.isError := by
  obtain ⟨kind, flag⟩ := node
  cases flag with
  | none => simp [isError]
  | some answer => simp [isError]

end Node

/-- The mark of errors always adds something. -/
theorem errorLabel_ne_self (text : String) : errorLabel text ≠ text := by
  intro heq
  have hlength := congrArg String.length heq
  simp only [errorLabel, String.length_append] at hlength
  have hmark : "<error ".length = 7 := rfl
  omega

namespace Labeller

section SameText

variable (labeller : Labeller ρ) {a b : Node}

/-- Nodes with the same text have the same label exactly if they answer alike
whether they are errors. -/
theorem value_label_eq_iff
    (htext : (resolve labeller.resolver a labeller.names).value =
      (resolve labeller.resolver b labeller.names).value) :
    (labeller.label (some a)).value = (labeller.label (some b)).value ↔
      a.isError = b.isError := by
  rw [value_label_some, value_label_some, htext]
  cases a.isError <;> cases b.isError <;>
    simp [errorLabel_ne_self, (errorLabel_ne_self _).symm]

/-- If only one of them is an error, its label is that of the other one with the
mark around it. -/
theorem value_label_of_isError
    (htext : (resolve labeller.resolver a labeller.names).value =
      (resolve labeller.resolver b labeller.names).value)
    (ha : a.isError = true) (hb : b.isError = false) :
    (labeller.label (some a)).value =
      errorLabel (labeller.label (some b)).value := by
  rw [value_label_some, value_label_some, htext, ha, hb]
  rfl

end SameText

section References

variable (labeller : Labeller ρ) (node : Node) {direct hidden : List Layer}

theorem value_label_through_eq_iff
    (htext : TextByKind labeller.resolver labeller.names)
    (hdirect : .reference ∉ direct) (hhidden : .reference ∈ hidden) :
    (labeller.label (some (node.through direct))).value =
        (labeller.label (some (node.through hidden))).value ↔
      node.errorFlag = none ∨ node.errorFlag = some node.kind.isError := by
  rw [Node.through_of_not_mem_reference hdirect,
    Node.through_of_mem_reference hhidden,
    labeller.value_label_eq_iff (htext node (.ofKind node.kind) rfl),
    Node.isError_ofKind, Node.isError_eq_kind_isError_iff]

/-- Where a reference changes the label, it takes the mark of errors away or
brings it in, and it does nothing else. -/
theorem value_label_through_of_ne
    (htext : TextByKind labeller.resolver labeller.names)
    (hdirect : .reference ∉ direct) (hhidden : .reference ∈ hidden)
    (hne : (labeller.label (some (node.through direct))).value ≠
      (labeller.label (some (node.through hidden))).value) :
    (node.isError = true ∧
        (labeller.label (some (node.through direct))).value =
          errorLabel (labeller.label (some (node.through hidden))).value) ∨
      (node.isError = false ∧
        (labeller.label (some (node.through hidden))).value =
          errorLabel (labeller.label (some (node.through direct))).value) := by
  rw [Node.through_of_not_mem_reference hdirect,
    Node.through_of_mem_reference hhidden] at hne ⊢
  have hkind := htext node (.ofKind node.kind) rfl
  rw [ne_eq, labeller.value_label_eq_iff hkind, Node.isError_ofKind] at hne
  cases herror : node.isError with
  | true =>
      have hhide : node.kind.isError = false := by simpa [herror] using hne
      exact Or.inl ⟨rfl, labeller.value_label_of_isError hkind herror hhide⟩
  | false =>
      have hshow : node.kind.isError = true := by simpa [herror] using hne
      exact Or.inr
        ⟨rfl, labeller.value_label_of_isError hkind.symm hshow herror⟩

end References

end Labeller

/-- No layer changes the kind of a node, nor its text and the events of reading
it.  For resolvers that read texts off kinds, references change a label exactly
if the node itself contradicts its kind, and then by the mark of errors. -/
theorem Node.label_through_references (node : Node) :
    (∀ layers : List Layer,
      (node.through layers).kind = node.kind ∧
      ∀ names : NameTable,
        (∀ resolver : NameResolver,
          resolve resolver (node.through layers) names =
            resolve resolver node names) ∧
        nodeText (node.through layers) names = nodeText node names) ∧
    ∀ labeller : Labeller ρ, TextByKind labeller.resolver labeller.names →
      ∀ direct hidden : List Layer,
        .reference ∉ direct → .reference ∈ hidden →
          let shown := (labeller.label (some (node.through direct))).value
          let behind := (labeller.label (some (node.through hidden))).value
          (shown = behind ↔
            node.errorFlag = none ∨
              node.errorFlag = some node.kind.isError) ∧
          (shown ≠ behind →
            (node.isError = true ∧ shown = errorLabel behind) ∨
              (node.isError = false ∧ behind = errorLabel shown)) := by
  constructor
  · intro layers
    refine ⟨kind_through node layers, fun names => ⟨?_, ?_⟩⟩
    · intro resolver
      exact resolver.resolve_through node layers names
    · exact NameResolver.plain.resolve_through node layers names
  · intro labeller htext direct hidden hdirect hhidden shown behind
    exact ⟨labeller.value_label_through_eq_iff node htext hdirect hhidden,
      labeller.value_label_through_of_ne node htext hdirect hhidden⟩

/-- A rule node that calls itself an error loses its mark behind a reference,
even if its text looks marked already. -/
theorem Node.label_through_references_marked :
    let labeller : Labeller FixedText := ⟨.ofList ["stat"], ⟨"<error x>"⟩⟩
    let node : Node := ⟨.rule 0 none, some true⟩
    TextByKind labeller.resolver labeller.names ∧
      Layer.reference ∉ [Layer.handle] ∧
      Layer.reference ∈ [Layer.handle, Layer.reference] ∧
      (labeller.label (some (node.through [.handle]))).value =
        errorLabel (labeller.label
          (some (node.through [.handle, .reference]))).value := by
  intro labeller node
  have htext : TextByKind labeller.resolver labeller.names :=
    KindResolver.textByKind labeller.resolver labeller.names
  have hdirect : Layer.reference ∉ [Layer.handle] := by decide
  have hhidden : Layer.reference ∈ [Layer.handle, Layer.reference] := by decide
  refine ⟨htext, hdirect, hhidden, ?_⟩
  obtain ⟨heq, hmark⟩ := (@Node.label_through_references FixedText _ node).2
    labeller htext _ _ hdirect hhidden
  have hne := mt heq.mp (by decide)
  rcases hmark hne with ⟨_, hshown⟩ | ⟨herror, _⟩
  · exact hshown
  · exact absurd herror (by decide)

end TreeLabels
