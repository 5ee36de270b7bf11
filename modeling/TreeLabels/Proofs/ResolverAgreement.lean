/-
Where resolvers agree.  Resolvers by name differ in what they do to the
whitespace of tokens, and a token shows it: what one of them writes for a
character in dispute is never what the other one writes.  So two resolvers
agree on a token exactly if there is no such character in it, and on every node
only if they are the same.
-/
import TreeLabels.Proofs.EscapePasses
import TreeLabels.Proofs.LabelLayer

namespace TreeLabels

/-- The token text of a node, if it is a token. -/
def NodeKind.tokenText? : NodeKind → Option String
  | rule _ _ => none
  | terminal text => some text
  | error text => some text

theorem NodeKind.tokenText?_eq_none_iff {kind : NodeKind} :
    kind.tokenText? = none ↔ ∃ index alt, kind = .rule index alt := by
  cases kind <;> simp [tokenText?]

/-- Spaces are all that the two ways of escaping disagree on. -/
theorem text_escapeWhitespace_true_eq_false_iff {text : String} :
    (escapeWhitespace true text).text = (escapeWhitespace false text).text ↔
      ' ' ∉ text.toList := by
  have hpasses : (escapeWhitespace true text).text =
      (escapeWhitespace true (escapeWhitespace false text).text).text :=
    (text_escapeWhitespace_escapeWhitespace false true text).symm
  rw [hpasses, text_escapeWhitespace_eq_self_iff,
    ← isKept_escapeWhitespace_iff, isKept_escapeWhitespace_again]
  simp

namespace TokenWhitespace

/-- The characters that are replaced where whitespace is escaped. -/
def escapedChars (spaces : Bool) : List Char :=
  ['\t', '\n', '\r'] ++ if spaces then [' '] else []

/-- The characters that two rules for whitespace treat differently. -/
def disputed : TokenWhitespace → TokenWhitespace → List Char
  | keep, keep => []
  | keep, escape spaces => escapedChars spaces
  | escape spaces, keep => escapedChars spaces
  | escape first, escape second => if first = second then [] else [' ']

variable {first second : TokenWhitespace}

theorem mem_escapedChars_iff {spaces : Bool} {c : Char} :
    c ∈ escapedChars spaces ↔ isEscapable spaces c = true := by
  cases spaces <;> simp [escapedChars, isEscapable, or_assoc]

theorem forall_escapedChars_iff {spaces : Bool} {text : String} :
    (∀ c ∈ escapedChars spaces, c ∉ text.toList) ↔
      WhitespaceFree spaces text := by
  rw [whitespaceFree_iff]
  constructor
  · intro hnone c hc
    rw [← Bool.not_eq_true, ← mem_escapedChars_iff]
    intro hescaped
    exact hnone c hescaped hc
  · intro hclean c hescaped hc
    have hkept := hclean c hc
    rw [mem_escapedChars_iff.mp hescaped] at hkept
    contradiction

theorem disputed_eq_nil_iff : first.disputed second = [] ↔ first = second := by
  cases first <;> cases second <;> simp [disputed, escapedChars]

/-- Two rules write the same for a text exactly if nothing in it is in dispute.
-/
theorem apply_eq_apply_iff (first second : TokenWhitespace) (text : String) :
    first.apply text = second.apply text ↔
      ∀ c ∈ first.disputed second, c ∉ text.toList := by
  by_cases hsame : first = second
  · rw [disputed_eq_nil_iff.mpr hsame, hsame]
    simp
  · match first, second, hsame with
    | keep, keep, hsame => exact absurd rfl hsame
    | keep, escape spaces, _ =>
        exact eq_comm.trans
          (text_escapeWhitespace_eq_self_iff.trans forall_escapedChars_iff.symm)
    | escape spaces, keep, _ =>
        exact text_escapeWhitespace_eq_self_iff.trans
          forall_escapedChars_iff.symm
    | escape true, escape false, _ =>
        simpa [disputed, apply] using
          text_escapeWhitespace_true_eq_false_iff
    | escape false, escape true, _ =>
        simpa [disputed, apply, eq_comm] using
          text_escapeWhitespace_true_eq_false_iff

/-- The text of all characters in dispute tells two rules apart. -/
theorem eq_of_forall_apply_eq
    (hall : ∀ text, first.apply text = second.apply text) :
    first = second := by
  have hnone := (apply_eq_apply_iff first second
    (String.ofList (first.disputed second))).mp (hall _)
  rw [String.toList_ofList] at hnone
  apply disputed_eq_nil_iff.mp
  apply List.eq_nil_iff_forall_not_mem.mpr
  intro c hc
  exact hnone c hc hc

end TokenWhitespace

namespace NameResolver

/-- Two resolvers read the nodes of a kind alike: they are the same, the nodes
are uses of a rule, or there is nothing in dispute in the text of the token. -/
def ReadsAlike (left right : NameResolver) (kind : NodeKind) : Prop :=
  left = right ∨ (∃ index alt, kind = .rule index alt) ∨
    ∃ text, kind.tokenText? = some text ∧
      ∀ c ∈ left.whitespace.disputed right.whitespace, c ∉ text.toList

section OneNode

variable (left right : NameResolver) (names : NameTable) {node : Node}

theorem readsAlike_iff_of_tokenText? {kind : NodeKind} {text : String}
    (htext : kind.tokenText? = some text) :
    left.ReadsAlike right kind ↔
      ∀ c ∈ left.whitespace.disputed right.whitespace, c ∉ text.toList := by
  constructor
  · rintro (rfl | ⟨index, alt, rfl⟩ | ⟨other, hother, hnone⟩)
    · rw [TokenWhitespace.disputed_eq_nil_iff.mpr rfl]
      exact fun _ hc => absurd hc List.not_mem_nil
    · contradiction
    · rw [htext, Option.some.injEq] at hother
      rw [hother]
      exact hnone
  · intro hnone
    exact Or.inr (Or.inr ⟨text, htext, hnone⟩)

theorem value_resolve_of_tokenText? {text : String}
    (htext : node.kind.tokenText? = some text) :
    (resolve left node names).value = left.whitespace.apply text := by
  obtain ⟨kind, flag⟩ := node
  cases kind with
  | rule index alt => contradiction
  | terminal token => rw [← Option.some.inj htext]; rfl
  | error token => rw [← Option.some.inj htext]; rfl

theorem value_resolve_eq_iff (node : Node) :
    (resolve left node names).value = (resolve right node names).value ↔
      left.ReadsAlike right node.kind := by
  cases htext : node.kind.tokenText? with
  | none =>
      obtain ⟨index, alt, hkind⟩ := NodeKind.tokenText?_eq_none_iff.mp htext
      obtain ⟨kind, flag⟩ := node
      subst hkind
      exact iff_of_true rfl (Or.inr (Or.inl ⟨index, alt, rfl⟩))
  | some text =>
      rw [value_resolve_of_tokenText? left names htext,
        value_resolve_of_tokenText? right names htext,
        readsAlike_iff_of_tokenText? left right htext]
      exact TokenWhitespace.apply_eq_apply_iff _ _ text

/-- No event depends on what happens to whitespace. -/
theorem events_resolve_eq (node : Node) :
    (resolve left node names).events = (resolve right node names).events := by
  rw [events_resolve, events_resolve]

theorem value_label_eq_iff_readsAlike (node : Node) :
    ((Labeller.mk names left).label (some node)).value =
        ((Labeller.mk names right).label (some node)).value ↔
      left.ReadsAlike right node.kind := by
  rw [Labeller.value_label_eq_value_label_iff _ _ rfl, value_resolve_eq_iff]

theorem eq_iff_forall_readsAlike :
    left = right ↔ ∀ node : Node, left.ReadsAlike right node.kind := by
  constructor
  · intro hsame node
    exact Or.inl hsame
  · intro hall
    have hwhitespace : left.whitespace = right.whitespace := by
      apply TokenWhitespace.eq_of_forall_apply_eq
      intro text
      rw [TokenWhitespace.apply_eq_apply_iff]
      exact (readsAlike_iff_of_tokenText? left right rfl).mp
        (hall (.ofKind (.terminal text)))
    cases left
    cases right
    exact congrArg NameResolver.mk hwhitespace

end OneNode

/-- Two resolvers report the same of every node, seen through any layers, and
they agree on its text, or on its label under the same table, exactly where
they read its kind alike; labels that differ are traced as they are, after the
same events.  Resolvers that agree on every node are the same. -/
theorem agree_iff_readsAlike (left right : NameResolver) (names : NameTable) :
    (∀ (node : Node) (layers : List Layer),
      let seen := node.through layers
      let shown := (Labeller.mk names left).label (some seen)
      let other := (Labeller.mk names right).label (some seen)
      (resolve left seen names).events = (resolve right seen names).events ∧
      ((resolve left seen names).value = (resolve right seen names).value ↔
        left.ReadsAlike right node.kind) ∧
      (shown.value = other.value ↔ left.ReadsAlike right node.kind) ∧
      ∃ events : List Event,
        shown.events = events ++ [.labelled shown.value] ∧
          other.events = events ++ [.labelled other.value]) ∧
    (left = right ↔ ∀ node : Node,
      (resolve left node names).value = (resolve right node names).value) ∧
    (left = right ↔ ∀ node : Node,
      ((Labeller.mk names left).label (some node)).value =
        ((Labeller.mk names right).label (some node)).value) := by
  refine ⟨?_, ?_, ?_⟩
  · intro node layers seen shown other
    have hkind : seen.kind = node.kind := node.kind_through layers
    have hevents := events_resolve_eq left right names seen
    rw [← hkind]
    refine ⟨hevents, value_resolve_eq_iff left right names seen,
      value_label_eq_iff_readsAlike left right names seen,
      (resolve left seen names).events, rfl, ?_⟩
    rw [hevents]
    rfl
  · simp only [value_resolve_eq_iff]
    exact eq_iff_forall_readsAlike left right
  · simp only [value_label_eq_iff_readsAlike]
    exact eq_iff_forall_readsAlike left right

/-- Escapes and middle dots that a token has already are read alike; a space is
not as soon as one of the resolvers escapes it. -/
example :
    let read := fun (resolver : NameResolver) (text : String) =>
      (resolve resolver (.ofKind (.terminal text)) (.ofList [])).value
    read plain "\\t·" = read (escaping true) "\\t·" ∧
      read plain " " = read (escaping false) " " ∧
      read (escaping false) " " ≠ read (escaping true) " " := by
  decide

end NameResolver

end TreeLabels
