/-
The diagnostics of labels.  An entry that is present is traced once, with the
very label that is returned for it, and a rule without a name is warned of just
before.
-/
import Mathlib.Data.List.Basic
import TreeLabels.Labeller
import TreeLabels.Proofs.RuleText

namespace TreeLabels

/-- What a log shows of an event. -/
structure Report where
  level : Level
  target : String
  message : String
  fields : List (String × String)
deriving DecidableEq, Repr

def Event.report (event : Event) : Report :=
  ⟨event.level, event.target, event.message, event.fields⟩

/-- What a log has to show of an entry, given the label returned for it. -/
def NameTable.reports (names : NameTable) : Option Node → String → List Report
  | none, _ => []
  | some node, label =>
      ((names.unnamedIndex? (some node)).toList.map fun index =>
        ⟨.warn, "arbor_tree::trees", "rule index has no name",
          [("rule_index", decimal index.toNat),
            ("rule_count", decimal names.size)]⟩) ++
      [⟨.trace, "arbor_text::provider", "labelled node", [("text", label)]⟩]

namespace Labeller

/-- The events of labelled entries are complete, in order, and in agreement with
the labels.  The log is what the entries and their labels call for, one by one.
So the traces show the labels of the entries present, the warnings count the
rules without a name, a warning comes right before the trace of the same node,
and only an absent entry leaves no event. -/
structure Diagnosed (labeller : Labeller NameResolver)
    (entries : List (Option Node)) : Prop where
  length_labels : (labeller.labels entries).value.length = entries.length
  reports : (labeller.labels entries).events.map Event.report =
    (entries.zip (labeller.labels entries).value).flatMap fun shown =>
      labeller.names.reports shown.1 shown.2
  traced : (labeller.labels entries).events.filterMap Event.tracedText? =
    (entries.zip (labeller.labels entries).value).filterMap fun shown =>
      shown.1.map fun _ => shown.2
  warned : (labeller.labels entries).events.countP Event.isWarning =
    entries.countP fun entry => (labeller.names.unnamedIndex? entry).isSome
  traced_after_warning : ∀ before warning after,
    (labeller.labels entries).events = before ++ warning :: after →
      warning.isWarning = true →
        ∃ earlier node later index,
          entries = earlier ++ some node :: later ∧
          labeller.names.unnamedIndex? (some node) = some index ∧
          before = (labeller.labels earlier).events ∧
          warning = .unnamedRule index labeller.names.size ∧
          after = .labelled (if node.isError then
              errorLabel (decimal index.toNat) else decimal index.toNat) ::
            (labeller.labels later).events
  silent_iff : ∀ entry ∈ entries,
    (labeller.label entry).events = [] ↔ entry = none

section OneEntry

variable (labeller : Labeller NameResolver)

theorem events_label (node : Node) :
    (labeller.label (some node)).events =
      ((labeller.names.unnamedIndex? (some node)).toList.map
        (Event.unnamedRule · labeller.names.size)) ++
      [.labelled (labeller.label (some node)).value] := by
  rw [events_label_some, NameResolver.events_resolve]

theorem value_label_of_unnamedIndex? {node : Node} {index : UInt64}
    (hindex : labeller.names.unnamedIndex? (some node) = some index) :
    (labeller.label (some node)).value =
      if node.isError then errorLabel (decimal index.toNat)
      else decimal index.toNat := by
  rw [value_label_some,
    NameResolver.value_resolve_of_unnamedIndex? labeller.resolver hindex]

theorem report_label (entry : Option Node) :
    (labeller.label entry).events.map Event.report =
      labeller.names.reports entry (labeller.label entry).value := by
  cases entry with
  | none => rfl
  | some node =>
      rw [events_label, List.map_append, List.map_map]
      rfl

theorem tracedText_label (entry : Option Node) :
    (labeller.label entry).events.filterMap Event.tracedText? =
      (entry.map fun _ => (labeller.label entry).value).toList := by
  cases entry with
  | none => rfl
  | some node =>
      rw [events_label, List.filterMap_append, List.filterMap_map]
      cases labeller.names.unnamedIndex? (some node) <;> rfl

theorem countP_isWarning_label (entry : Option Node) :
    (labeller.label entry).events.countP Event.isWarning =
      if (labeller.names.unnamedIndex? entry).isSome then 1 else 0 := by
  cases entry with
  | none => rfl
  | some node =>
      rw [events_label, List.countP_append, List.countP_map]
      cases labeller.names.unnamedIndex? (some node) <;> rfl

theorem events_label_eq_nil_iff (entry : Option Node) :
    (labeller.label entry).events = [] ↔ entry = none := by
  cases entry with
  | none => simp
  | some node => simp [events_label]

/-- If one of the events of an entry is a warning, it is the first of two. -/
theorem events_label_warning {entry : Option Node} {before after : List Event}
    {warning : Event}
    (hevents : (labeller.label entry).events = before ++ warning :: after)
    (hwarning : warning.isWarning = true) :
    ∃ node index, entry = some node ∧
      labeller.names.unnamedIndex? (some node) = some index ∧ before = [] ∧
      warning = .unnamedRule index labeller.names.size ∧
      after = [.labelled (if node.isError then
        errorLabel (decimal index.toNat) else decimal index.toNat)] := by
  cases entry with
  | none => simp at hevents
  | some node =>
      rw [events_label] at hevents
      cases hindex : labeller.names.unnamedIndex? (some node) with
      | none =>
          cases before with
          | nil =>
              simp only [hindex, Option.toList_none, List.map_nil,
                List.nil_append, List.cons.injEq] at hevents
              rw [← hevents.1] at hwarning
              contradiction
          | cons first rest => simp [hindex] at hevents
      | some index =>
          simp only [hindex, Option.toList_some, List.map_cons, List.map_nil,
            List.singleton_append] at hevents
          cases before with
          | nil =>
              simp only [List.nil_append, List.cons.injEq] at hevents
              obtain ⟨hfirst, hafter⟩ := hevents
              rw [labeller.value_label_of_unnamedIndex? hindex] at hafter
              exact ⟨node, index, rfl, hindex, rfl, hfirst.symm, hafter.symm⟩
          | cons first rest =>
              cases rest with
              | nil =>
                  simp only [List.cons_append, List.nil_append,
                    List.cons.injEq] at hevents
                  rw [← hevents.2.1] at hwarning
                  contradiction
              | cons second rest => simp at hevents

end OneEntry

section Entries

variable (labeller : Labeller NameResolver)

theorem zip_labels (entries : List (Option Node)) :
    entries.zip (labeller.labels entries).value =
      entries.map fun entry => (entry, (labeller.label entry).value) := by
  rw [value_labels, List.map_prod_left_eq_zip]

theorem events_labels_cons (entry : Option Node)
    (entries : List (Option Node)) :
    (labeller.labels (entry :: entries)).events =
      (labeller.label entry).events ++ (labeller.labels entries).events := by
  simp

theorem report_labels (entries : List (Option Node)) :
    (labeller.labels entries).events.map Event.report =
      (entries.zip (labeller.labels entries).value).flatMap fun shown =>
        labeller.names.reports shown.1 shown.2 := by
  rw [zip_labels, List.flatMap_map, events_labels, List.map_flatMap]
  simp only [report_label]

theorem tracedText_labels (entries : List (Option Node)) :
    (labeller.labels entries).events.filterMap Event.tracedText? =
      (entries.zip (labeller.labels entries).value).filterMap fun shown =>
        shown.1.map fun _ => shown.2 := by
  rw [zip_labels, List.filterMap_map, events_labels, List.filterMap_flatMap,
    List.filterMap_eq_flatMap_toList]
  simp only [tracedText_label, Function.comp_apply]

theorem countP_isWarning_labels (entries : List (Option Node)) :
    (labeller.labels entries).events.countP Event.isWarning =
      entries.countP fun entry =>
        (labeller.names.unnamedIndex? entry).isSome := by
  induction entries with
  | nil => rfl
  | cons entry rest ih =>
      rw [events_labels_cons, List.countP_append, countP_isWarning_label, ih,
        List.countP_cons, Nat.add_comm]

/-- A warning belongs to one of the entries and is followed by its trace. -/
theorem events_labels_warning {entries : List (Option Node)}
    {before after : List Event} {warning : Event}
    (hevents : (labeller.labels entries).events = before ++ warning :: after)
    (hwarning : warning.isWarning = true) :
    ∃ earlier node later index,
      entries = earlier ++ some node :: later ∧
      labeller.names.unnamedIndex? (some node) = some index ∧
      before = (labeller.labels earlier).events ∧
      warning = .unnamedRule index labeller.names.size ∧
      after = .labelled (if node.isError then
          errorLabel (decimal index.toNat) else decimal index.toNat) ::
        (labeller.labels later).events := by
  induction entries generalizing before with
  | nil => simp at hevents
  | cons entry rest ih =>
      rw [events_labels_cons] at hevents
      rcases split_append hevents with
        ⟨between, hbefore, hrest⟩ | ⟨between, hentry, hafter⟩
      · -- The warning is of a later entry, which the induction finds.
        obtain ⟨earlier, node, later, index, hentries, hindex, hbetween,
          hshape⟩ := ih hrest
        refine ⟨entry :: earlier, node, later, index, ?_, hindex, ?_, hshape⟩
        · rw [hentries, List.cons_append]
        · rw [hbefore, hbetween, events_labels_cons]
      · -- The warning is of this entry, and so is the trace behind it.
        obtain ⟨node, index, rfl, hindex, hbefore, hshape, htrace⟩ :=
          labeller.events_label_warning hentry hwarning
        refine ⟨[], node, rest, index, rfl, hindex, hbefore, hshape, ?_⟩
        rw [hafter, htrace, List.singleton_append]

end Entries

/-- Labelling entries in order reports everything that is due, in order, and
nothing else. -/
theorem labels_diagnosed (labeller : Labeller NameResolver)
    (entries : List (Option Node)) : labeller.Diagnosed entries where
  length_labels := by rw [value_labels, List.length_map]
  reports := labeller.report_labels entries
  traced := labeller.tracedText_labels entries
  warned := labeller.countP_isWarning_labels entries
  traced_after_warning := fun _ _ _ hevents hwarning =>
    labeller.events_labels_warning hevents hwarning
  silent_iff := fun entry _ => labeller.events_label_eq_nil_iff entry

/-- An absent entry leaves nothing, a token that reads `null` is traced, and an
error without a name is warned of under its index and traced with its mark. -/
theorem labels_diagnosed_null :
    let labeller : Labeller NameResolver := ⟨.ofList ["stat"], .escaping false⟩
    (labeller.labels [none, some (.ofKind (.terminal "null")),
        some ⟨.rule 7 (some ⟨2, by decide⟩), some true⟩]).events.map
        Event.report =
      [⟨.trace, "arbor_text::provider", "labelled node", [("text", "null")]⟩,
        ⟨.warn, "arbor_tree::trees", "rule index has no name",
          [("rule_index", "7"), ("rule_count", "1")]⟩,
        ⟨.trace, "arbor_text::provider", "labelled node",
          [("text", "<error 7>")]⟩] := by
  intro labeller
  rw [(labels_diagnosed labeller _).reports]
  decide

end Labeller

end TreeLabels
