/-
The lines of a dump.  Escaping keeps every token on one line, and numerals, the
mark of errors and the label of absence stay on one as well; only the names of
rules may bring newlines of their own.
-/
import Mathlib.Algebra.Order.Ring.Nat
import TreeLabels.Labeller
import TreeLabels.Proofs.LabelWhitespace

namespace TreeLabels

theorem length_cutLines (chars : List Char) :
    (cutLines chars).length = chars.count '\n' + 1 := by
  fun_induction cutLines chars with
  | case1 => rfl
  | case2 rest ih => simp [ih]
  | case3 c rest hc ih =>
      have hne : c ≠ '\n' := hc
      simp [hne, ih]

theorem length_splitLines (text : String) :
    (splitLines text).length = text.toList.count '\n' + 1 := by
  rw [splitLines, List.length_map, length_cutLines]

/-- Lines without newlines are found again. -/
theorem splitLines_joinLines {lines : List String} (hne : lines ≠ [])
    (hlines : ∀ line ∈ lines, '\n' ∉ line.toList) :
    splitLines (joinLines lines) = lines := by
  rw [splitLines, toList_joinLines, cutLines_eq_splitOn,
    List.splitOn_intercalate]
  · rw [List.map_map]
    simp [Function.comp_def]
  · intro chars hchars
    obtain ⟨line, hline, rfl⟩ := List.mem_map.mp hchars
    exact hlines line hline
  · simpa using hne

/-- Joining adds one newline for each line but the last. -/
theorem count_newline_joinLines {lines : List String} (hne : lines ≠ []) :
    (joinLines lines).toList.count '\n' + 1 =
      lines.length + (lines.map fun line => line.toList.count '\n').sum := by
  induction lines with
  | nil => exact absurd rfl hne
  | cons first rest ih =>
      cases rest with
      | nil => simp [Nat.add_comm]
      | cons second rest =>
          have hrest := ih (List.cons_ne_nil second rest)
          rw [toList_joinLines] at hrest ⊢
          simp only [List.map_cons, List.intercalate_cons_cons,
            List.count_append, List.count_singleton_self, List.length_cons,
            List.sum_cons] at hrest ⊢
          omega

section Labels

variable (names : NameTable) (spaces : Bool)

/-- The mark of errors and the label of absence bring no newline. -/
theorem count_newline_label (entry : Option Node) :
    ((Labeller.mk names (NameResolver.escaping spaces)).label
        entry).value.toList.count '\n' =
      (names.nameOf? entry).elim 0 fun name => name.toList.count '\n' := by
  have hnewline : isEscapable spaces '\n' = true := rfl
  have hspace : (' ' == '\n') = false := rfl
  rw [count_label hnewline, hspace, Bool.and_false]
  rfl

theorem sum_count_newline_labels (entries : List (Option Node)) :
    (((Labeller.mk names (NameResolver.escaping spaces)).labels
        entries).value.map fun label => label.toList.count '\n').sum =
      ((entries.filterMap names.nameOf?).map fun name =>
        name.toList.count '\n').sum := by
  rw [Labeller.value_labels, List.map_map]
  induction entries with
  | nil => rfl
  | cons entry rest ih =>
      rw [List.map_cons, List.sum_cons, ih, Function.comp_apply,
        count_newline_label]
      cases hname : names.nameOf? entry with
      | none => simp [hname]
      | some name => simp [hname]

theorem length_splitLines_dump {entries : List (Option Node)}
    (hne : entries ≠ []) :
    (splitLines ((Labeller.mk names (NameResolver.escaping spaces)).dump
        entries).value).length =
      entries.length + ((entries.filterMap names.nameOf?).map fun name =>
        name.toList.count '\n').sum := by
  have hlabels : ((Labeller.mk names (NameResolver.escaping spaces)).labels
      entries).value ≠ [] := by
    simpa using hne
  rw [Labeller.value_dump, length_splitLines, count_newline_joinLines hlabels,
    sum_count_newline_labels, Labeller.value_labels, List.length_map]

/-- If no name has a newline, no label has one. -/
theorem newline_not_mem_label {entry : Option Node}
    (hnames : ∀ name, names.nameOf? entry = some name → '\n' ∉ name.toList) :
    '\n' ∉ ((Labeller.mk names (NameResolver.escaping spaces)).label
      entry).value.toList := by
  rw [← List.count_eq_zero, count_newline_label]
  cases hname : names.nameOf? entry with
  | none => rfl
  | some name => exact List.count_eq_zero.mpr (hnames name hname)

end Labels

/-- A dump has one line for each entry, and one more for each newline in the
names of the rules it shows.  So its lines are the labels unless one of these
names has a newline. -/
theorem splitLines_dump (names : NameTable) (spaces : Bool)
    {entries : List (Option Node)} (hne : entries ≠ []) :
    let labeller : Labeller NameResolver := ⟨names, .escaping spaces⟩
    (splitLines (labeller.dump entries).value).length =
        entries.length + ((entries.filterMap names.nameOf?).map fun name =>
          name.toList.count '\n').sum ∧
      (splitLines (labeller.dump entries).value =
          (labeller.labels entries).value ↔
        ∀ entry ∈ entries, ∀ name, names.nameOf? entry = some name →
          '\n' ∉ name.toList) := by
  intro labeller
  have hcount := length_splitLines_dump names spaces hne
  refine ⟨hcount, ?_, ?_⟩
  · intro hlines entry hentry name hname
    rw [hlines, Labeller.value_labels, List.length_map, Nat.left_eq_add,
      List.sum_eq_zero_iff_forall_eq_nat] at hcount
    apply List.count_eq_zero.mp
    apply hcount
    exact List.mem_map_of_mem (List.mem_filterMap.mpr ⟨entry, hentry, hname⟩)
  · intro hnames
    apply splitLines_joinLines
    · simpa using hne
    · rw [Labeller.value_labels]
      intro label hlabel
      obtain ⟨entry, hentry, rfl⟩ := List.mem_map.mp hlabel
      exact newline_not_mem_label names spaces (hnames entry hentry)

/-- A newline in the name of a rule breaks the label of an error, too. -/
theorem splitLines_dump_stat :
    [some (Node.mk (.rule 0 none) (some true)), none] ≠ [] ∧
      (splitLines ((Labeller.mk (.ofList ["st\nat"])
        (NameResolver.escaping true)).dump
          [some (Node.mk (.rule 0 none) (some true)), none]).value).length =
        3 := by
  have hne : [some (Node.mk (.rule 0 none) (some true)), none] ≠ [] := by simp
  refine ⟨hne, ?_⟩
  rw [(splitLines_dump (.ofList ["st\nat"]) true hne).1]
  decide

end TreeLabels
