/-
The mark of errors.  A text may look marked already, as a token can read like
anything.  Where spaces are escaped and no rule name has one, the space in the
mark is the only one in a label: it gives errors away, and the text can be taken
out of the mark again.
-/
import Mathlib.Data.List.Infix
import TreeLabels.Proofs.LabelWhitespace

namespace TreeLabels

/-- The text in the mark of errors, if a label starts and ends with the mark. -/
def markedText? (label : String) : Option String :=
  ((label.toList.dropPrefix? "<error ".toList).bind
    fun rest => rest.dropSuffix? ">".toList).map String.ofList

/-- A text is in the mark exactly if the label is that text with its mark. -/
theorem markedText?_eq_some_iff {label text : String} :
    markedText? label = some text ↔ label = errorLabel text := by
  simp only [markedText?, Option.map_eq_some_iff, Option.bind_eq_some_iff,
    List.dropPrefix?_eq_some_iff, List.dropSuffix?_eq_some_iff, beq_iff_eq]
  constructor
  · rintro ⟨chars, ⟨rest, ⟨_, hlabel, rfl⟩, _, rfl, rfl⟩, rfl⟩
    rw [← String.toList_inj, hlabel]
    simp [errorLabel]
  · rintro rfl
    refine ⟨text.toList, ⟨text.toList ++ ">".toList, ⟨_, ?_, rfl⟩, _, rfl, rfl⟩,
      String.ofList_toList⟩
    simp [errorLabel]

theorem errorLabel_prefix (text : String) :
    "<error ".toList <+: (errorLabel text).toList :=
  ⟨text.toList ++ ">".toList, by simp [errorLabel]⟩

theorem errorLabel_suffix (text : String) :
    ">".toList <:+ (errorLabel text).toList :=
  ⟨"<error ".toList ++ text.toList, by simp [errorLabel]⟩

/-- Take the mark off the label of a node, if the node is an error. -/
def Node.unmark? (node : Node) (label : String) : Option String :=
  if node.isError then markedText? label else some label

namespace Labeller

variable {ρ σ : Type} [Resolver ρ] [Resolver σ]

theorem value_label_marked (labeller : Labeller ρ) {node : Node}
    (herror : node.isError = true) :
    (labeller.label (some node)).value =
      errorLabel (resolve labeller.resolver node labeller.names).value := by
  rw [value_label_some, if_pos herror]

theorem value_label_unmarked (labeller : Labeller ρ) {node : Node}
    (herror : node.isError = false) :
    (labeller.label (some node)).value =
      (resolve labeller.resolver node labeller.names).value := by
  rw [value_label_some, herror]
  rfl

/-- Without its mark a label is the text of the node again. -/
theorem unmark?_value_label (labeller : Labeller ρ) (node : Node) :
    node.unmark? (labeller.label (some node)).value =
      some (resolve labeller.resolver node labeller.names).value := by
  by_cases herror : node.isError = true
  · rw [Node.unmark?, if_pos herror, labeller.value_label_marked herror]
    exact markedText?_eq_some_iff.mpr rfl
  · rw [Node.unmark?, if_neg herror]
    rw [Bool.not_eq_true] at herror
    rw [labeller.value_label_unmarked herror]

/-- Nodes that are errors together, or not at all, have the same label exactly
if they have the same text, whoever labels them. -/
theorem value_label_eq_value_label_iff (labeller : Labeller ρ)
    (other : Labeller σ) {a b : Node} (herror : a.isError = b.isError) :
    (labeller.label (some a)).value = (other.label (some b)).value ↔
      (resolve labeller.resolver a labeller.names).value =
        (resolve other.resolver b other.names).value := by
  constructor
  · intro hlabel
    apply Option.some.inj
    rw [← unmark?_value_label, ← unmark?_value_label, hlabel, Node.unmark?,
      Node.unmark?, herror]
  · intro htext
    rw [value_label_some, value_label_some, htext, herror]

end Labeller

theorem NameTable.mem_toList_of_nameOf? {names : NameTable}
    {entry : Option Node} {name : String}
    (hname : names.nameOf? entry = some name) : name ∈ names.toList := by
  unfold NameTable.nameOf? at hname
  split at hname
  · exact mem_toList_iff.mpr ⟨_, hname⟩
  · contradiction

section Marks

variable {names : NameTable}

/-- With all other spaces out of the way, the one in the mark is left. -/
theorem count_space_label (hnames : ∀ name ∈ names.toList, ' ' ∉ name.toList)
    (entry : Option Node) :
    ((Labeller.mk names (NameResolver.escaping true)).label
        entry).value.toList.count ' ' =
      if entry.any Node.isError then 1 else 0 := by
  have hname : ((names.nameOf? entry).elim 0 fun name =>
      name.toList.count ' ') = 0 := by
    cases hnameOf : names.nameOf? entry with
    | none => rfl
    | some name =>
        exact List.count_eq_zero.mpr
          (hnames name (NameTable.mem_toList_of_nameOf? hnameOf))
  rw [count_label rfl, hname, beq_self_eq_true, Bool.and_true, Nat.zero_add]

theorem space_mem_label_iff (hnames : ∀ name ∈ names.toList, ' ' ∉ name.toList)
    (entry : Option Node) :
    ' ' ∈ ((Labeller.mk names (NameResolver.escaping true)).label
        entry).value.toList ↔ entry.any Node.isError = true := by
  rw [← List.count_pos_iff, count_space_label hnames]
  cases entry.any Node.isError <;> simp

/-- Nodes with the same label have the same mark, so what is in it or, without
it, the label itself is the text of both. -/
theorem isError_and_text_eq_of_label_eq
    (hnames : ∀ name ∈ names.toList, ' ' ∉ name.toList) {a b : Node}
    (hlabel : ((Labeller.mk names (NameResolver.escaping true)).label
        (some a)).value =
      ((Labeller.mk names (NameResolver.escaping true)).label
        (some b)).value) :
    a.isError = b.isError ∧
      (resolve (NameResolver.escaping true) a names).value =
        (resolve (NameResolver.escaping true) b names).value := by
  have herror : a.isError = b.isError := by
    have ha := space_mem_label_iff hnames (some a)
    have hb := space_mem_label_iff hnames (some b)
    rw [hlabel, hb, Option.any_some, Option.any_some] at ha
    exact (Bool.eq_iff_iff.mpr ha).symm
  refine ⟨herror, ?_⟩
  exact (Labeller.value_label_eq_value_label_iff _ _ herror).mp hlabel

end Marks

/-- Where spaces are escaped and no name of the table has one, a label has a
space exactly if it is that of an error; then the space is the one in the mark,
which stands around the text of the node.  So nodes with the same label are
errors together, and they have the same text. -/
theorem errorMark_unforgeable {names : NameTable}
    (hnames : ∀ name ∈ names.toList, ' ' ∉ name.toList) :
    let labeller : Labeller NameResolver := ⟨names, .escaping true⟩
    (∀ entry : Option Node,
      ' ' ∈ (labeller.label entry).value.toList ↔
        ∃ node, entry = some node ∧ node.isError = true) ∧
    (∀ node : Node, node.isError = true →
      let shown := (labeller.label (some node)).value
      shown.toList.count ' ' = 1 ∧
        "<error ".toList <+: shown.toList ∧ ">".toList <:+ shown.toList ∧
        markedText? shown =
          some (resolve labeller.resolver node names).value) ∧
    ∀ a b : Node,
      (labeller.label (some a)).value = (labeller.label (some b)).value →
        a.isError = b.isError ∧
          (resolve labeller.resolver a names).value =
            (resolve labeller.resolver b names).value := by
  intro labeller
  refine ⟨fun entry => ?_, fun node herror => ?_, fun a b hlabel => ?_⟩
  · rw [space_mem_label_iff hnames, Option.any_eq_true]
  · intro shown
    have hshown : shown =
        errorLabel (resolve labeller.resolver node names).value :=
      labeller.value_label_marked herror
    have hcount := count_space_label hnames (some node)
    rw [Option.any_some, if_pos herror] at hcount
    refine ⟨hcount, ?_, ?_, markedText?_eq_some_iff.mpr hshown⟩
    · rw [hshown]
      exact errorLabel_prefix _
    · rw [hshown]
      exact errorLabel_suffix _
  · exact isError_and_text_eq_of_label_eq hnames hlabel

/-- A token that imitates the label of an error does so only while spaces are
kept. -/
theorem errorMark_unforgeable_token :
    let names : NameTable := .ofList ["stat"]
    let labeller : Labeller NameResolver := ⟨names, .escaping true⟩
    let token : Node := .ofKind (.terminal "<error x>")
    let error : Node := .ofKind (.error "x")
    (∀ name ∈ names.toList, ' ' ∉ name.toList) ∧ error.isError = true ∧
      ((Labeller.ofNames names).label (some token)).value =
        ((Labeller.ofNames names).label (some error)).value ∧
      (labeller.label (some token)).value ≠
        (labeller.label (some error)).value ∧
      markedText? (labeller.label (some error)).value = some "x" := by
  intro names labeller token error
  have hnames : ∀ name ∈ names.toList, ' ' ∉ name.toList := by decide
  obtain ⟨_, hmark, hsame⟩ := errorMark_unforgeable hnames
  refine ⟨hnames, rfl, by decide, fun heq => ?_, ?_⟩
  · exact absurd (hsame token error heq).1 (by decide)
  · exact (hmark error rfl).2.2.2

end TreeLabels
