/-
Labellers.  A labeller owns a table and a resolver and gives every node, present
or absent, the label that a tree view shows for it.  The nodes of a tree are
labelled in order, one label to a line: lines are joined with one newline between
neighbours and found again by cutting at every newline.
-/
import TreeLabels.Resolver

namespace TreeLabels

/-- Write the texts one below the other. -/
def joinLines (lines : List String) : String :=
  "\n".intercalate lines

/-- Cut the characters of a text at every newline. -/
def cutLines : List Char → List (List Char)
  | [] => [[]]
  | '\n' :: rest => [] :: cutLines rest
  | c :: rest => (cutLines rest).modifyHead (c :: ·)

/-- The lines of a text. -/
def splitLines (text : String) : List String :=
  (cutLines text.toList).map String.ofList

@[simp] theorem toList_joinLines (lines : List String) :
    (joinLines lines).toList =
      ['\n'].intercalate (lines.map String.toList) := by
  simp [joinLines]

theorem cutLines_eq_splitOn (chars : List Char) :
    cutLines chars = chars.splitOn '\n' := by
  fun_induction cutLines chars with
  | case1 => rfl
  | case2 rest ih => simp [List.splitOn_cons_eq_if_modifyHead, ih]
  | case3 c rest hc ih =>
      have hne : c ≠ '\n' := hc
      simp [List.splitOn_cons_eq_if_modifyHead, ih, hne]

/-- A table of rule names with a resolver that reads it. -/
structure Labeller (ρ : Type) where
  names : NameTable
  resolver : ρ
deriving DecidableEq, Inhabited, Repr

/-- The label of an absent node. -/
def absentLabel : String :=
  "null"

/-- The label of an error node, around its text. -/
def errorLabel (text : String) : String :=
  "<error " ++ text ++ ">"

namespace Labeller

/-- The labeller for a table that keeps token text as it is. -/
def ofNames (names : NameTable) : Labeller NameResolver :=
  ⟨names, .plain⟩

variable {ρ : Type} [Resolver ρ]

/-- The label of a node.  The text comes from the resolver, errors are marked
around it, and the finished label is traced; an absent node is not. -/
def label (labeller : Labeller ρ) : Option Node → Logged String
  | none => pure absentLabel
  | some node => do
      let text ← resolve labeller.resolver node labeller.names
      let shown := if node.isError then errorLabel text else text
      Logged.emit (.labelled shown)
      return shown

@[simp] theorem label_none (labeller : Labeller ρ) :
    labeller.label none = ⟨absentLabel, []⟩ := rfl

theorem value_label_some (labeller : Labeller ρ) (node : Node) :
    (labeller.label (some node)).value =
      let text := (resolve labeller.resolver node labeller.names).value
      if node.isError then errorLabel text else text := rfl

/-- The events of a label are those of its text, then the trace of the label. -/
theorem events_label_some (labeller : Labeller ρ) (node : Node) :
    (labeller.label (some node)).events =
      (resolve labeller.resolver node labeller.names).events ++
        [.labelled (labeller.label (some node)).value] := rfl

/-- Label the nodes from first to last. -/
def labels (labeller : Labeller ρ) : List (Option Node) → Logged (List String)
  | [] => pure []
  | node :: rest => do
      let text ← labeller.label node
      (text :: ·) <$> labeller.labels rest

/-- The labels of the nodes, one below the other. -/
def dump (labeller : Labeller ρ) (nodes : List (Option Node)) :
    Logged String :=
  joinLines <$> labeller.labels nodes

@[simp] theorem value_labels (labeller : Labeller ρ)
    (nodes : List (Option Node)) :
    (labeller.labels nodes).value =
      nodes.map fun node => (labeller.label node).value := by
  induction nodes with
  | nil => rfl
  | cons node rest ih => simp [labels, ih]

@[simp] theorem value_dump (labeller : Labeller ρ)
    (nodes : List (Option Node)) :
    (labeller.dump nodes).value = joinLines (labeller.labels nodes).value := rfl

@[simp] theorem events_labels (labeller : Labeller ρ)
    (nodes : List (Option Node)) :
    (labeller.labels nodes).events =
      nodes.flatMap fun node => (labeller.label node).events := by
  induction nodes with
  | nil => rfl
  | cons node rest ih => simp [labels, ih]

end Labeller

end TreeLabels
