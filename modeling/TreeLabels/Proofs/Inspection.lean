/-
Inspection is faithful.  The text that shows a value is on one line, free of
control characters, and no other value of the same type is shown by it.
-/
import TreeLabels.Proofs.DumpLines
import TreeLabels.Proofs.SelfDelimiting

namespace TreeLabels

open Inspect

section SelfDelimiting

theorem quoted_append_ne_bracket (text rest rest' : String) :
    quoted text ++ rest ≠ "]" ++ rest' := by
  intro heq
  have hchars := congrArg String.toList heq
  simp at hchars

theorem NameTable.inspect_selfDelimiting :
    SelfDelimiting NameTable.inspect := by
  have hlist := quoted_selfDelimiting.list quoted_append_ne_bracket
  have hnames : Function.Injective NameTable.toList := fun _ _ => toList_inj.mp
  exact (hlist.comp hnames).record_one "RuleNames" "names"

theorem bool_selfDelimiting : SelfDelimiting Inspect.bool := by
  constructor
  intro a b rest rest' heq
  cases a <;> cases b
  · exact ⟨rfl, (String.append_right_inj _).mp heq⟩
  · simp [Inspect.bool, ← String.toList_inj] at heq
  · simp [Inspect.bool, ← String.toList_inj] at heq
  · exact ⟨rfl, (String.append_right_inj _).mp heq⟩

theorem TokenWhitespace.inspect_selfDelimiting :
    SelfDelimiting TokenWhitespace.inspect := by
  constructor
  intro a b rest rest' heq
  cases a with
  | keep =>
      cases b with
      | keep => exact ⟨rfl, (String.append_right_inj _).mp heq⟩
      | escape => simp [inspect, record, ← String.toList_inj] at heq
  | escape spaces =>
      cases b with
      | keep => simp [inspect, record, ← String.toList_inj] at heq
      | escape spaces' =>
          obtain ⟨rfl, hrest⟩ :=
            (bool_selfDelimiting.record_one "Escape" "spaces").append_inj heq
          exact ⟨rfl, hrest⟩

theorem NameResolver.inspect_selfDelimiting :
    SelfDelimiting NameResolver.inspect := by
  have hwhitespace : Function.Injective NameResolver.whitespace := by
    rintro ⟨a⟩ ⟨b⟩ rfl
    rfl
  exact (TokenWhitespace.inspect_selfDelimiting.comp hwhitespace).record_one
    "RuleNameResolver" "whitespace"

theorem Labeller.inspect_selfDelimiting : SelfDelimiting Labeller.inspect := by
  have hrecord := NameTable.inspect_selfDelimiting.record_two
    NameResolver.inspect_selfDelimiting "RuleTreeTextProvider" "rule_names"
    "resolver"
  constructor
  rintro ⟨names, resolver⟩ ⟨names', resolver'⟩ rest rest' heq
  rw [Labeller.inspect, Labeller.inspect] at heq
  obtain ⟨hparts, hrest⟩ :=
    @hrecord.append_inj (names, resolver) (names', resolver') _ _ heq
  obtain ⟨rfl, rfl⟩ := Prod.mk.inj hparts
  exact ⟨rfl, hrest⟩

theorem alternative_selfDelimiting :
    SelfDelimiting fun alt : Option AltNumber =>
      Inspect.optional (alt.map fun n => decimal n.toNat) := by
  constructor
  intro a b rest rest' heq
  cases a with
  | none =>
      cases b with
      | none => exact ⟨rfl, (String.append_right_inj _).mp heq⟩
      | some n => simp [Inspect.optional, ← String.toList_inj] at heq
  | some m =>
      cases b with
      | none => simp [Inspect.optional, ← String.toList_inj] at heq
      | some n =>
          simp only [Inspect.optional, Option.map_some, String.append_assoc,
            String.append_right_inj] at heq
          obtain ⟨hnumber, hrest⟩ := decimal_append_inj ')' rfl heq
          exact ⟨congrArg some (AltNumber.toNat_inj.mp hnumber), hrest⟩

theorem rule_append_inj {index index' : UInt64} {alt alt' : Option AltNumber}
    {rest rest' : String}
    (heq : (NodeKind.rule index alt).inspect ++ rest =
      (NodeKind.rule index' alt').inspect ++ rest') :
    index = index' ∧ alt = alt' ∧ rest = rest' := by
  have hcomma : ", " = String.singleton ',' ++ " " := rfl
  simp only [NodeKind.inspect, record, field, String.intercalate_cons_cons,
    String.intercalate_singleton, String.append_assoc,
    String.append_right_inj] at heq
  rw [hcomma, String.append_assoc, String.append_assoc] at heq
  obtain ⟨hindex, htail⟩ := decimal_append_inj ',' rfl heq
  simp only [String.append_right_inj] at htail
  obtain ⟨halt, hend⟩ := alternative_selfDelimiting.append_inj htail
  exact ⟨UInt64.toNat_inj.mp hindex, halt, (String.append_right_inj _).mp hend⟩

theorem NodeKind.inspect_selfDelimiting : SelfDelimiting NodeKind.inspect := by
  constructor
  intro a b rest rest' heq
  cases a with
  | rule index alt =>
      cases b with
      | rule index' alt' =>
          obtain ⟨rfl, rfl, hrest⟩ := rule_append_inj heq
          exact ⟨rfl, hrest⟩
      | terminal text => simp [inspect, record, ← String.toList_inj] at heq
      | error text => simp [inspect, record, ← String.toList_inj] at heq
  | terminal text =>
      cases b with
      | rule index alt => simp [inspect, record, ← String.toList_inj] at heq
      | terminal text' =>
          obtain ⟨rfl, hrest⟩ :=
            (quoted_selfDelimiting.record_one "Terminal" "text").append_inj heq
          exact ⟨rfl, hrest⟩
      | error text' => simp [inspect, record, ← String.toList_inj] at heq
  | error text =>
      cases b with
      | rule index alt => simp [inspect, record, ← String.toList_inj] at heq
      | terminal text' => simp [inspect, record, ← String.toList_inj] at heq
      | error text' =>
          obtain ⟨rfl, hrest⟩ :=
            (quoted_selfDelimiting.record_one "Error" "text").append_inj heq
          exact ⟨rfl, hrest⟩

end SelfDelimiting

/-- The text has no control characters of ASCII. -/
def Printable (text : String) : Prop :=
  ∀ c ∈ text.toList, 32 ≤ c.toNat ∧ c.toNat ≠ 127

instance (text : String) : Decidable (Printable text) :=
  List.decidableBAll _ text.toList

section Printable

theorem isControl_eq_false_iff {c : Char} :
    isControl c = false ↔ 32 ≤ c.toNat ∧ c.toNat ≠ 127 := by
  simp [isControl]

@[simp] theorem printable_append {a b : String} :
    Printable (a ++ b) ↔ Printable a ∧ Printable b := by
  unfold Printable
  rw [String.toList_append, List.forall_mem_append]

theorem printable_intercalate {separator : String} {texts : List String}
    (hseparator : Printable separator)
    (htexts : ∀ text ∈ texts, Printable text) :
    Printable (separator.intercalate texts) := by
  induction texts with
  | nil => exact (by decide : Printable "")
  | cons first rest ih =>
      rw [List.forall_mem_cons] at htexts
      cases rest with
      | nil => exact htexts.1
      | cons second rest =>
          rw [String.intercalate_cons_cons, printable_append, printable_append]
          exact ⟨⟨htexts.1, hseparator⟩, ih htexts.2⟩

theorem printable_decimal (n : Nat) : Printable (decimal n) := by
  intro c hc
  have hdigit := isDigit_of_mem_decimal hc
  simp only [Char.isDigit, Bool.and_eq_true, decide_eq_true_eq] at hdigit
  have hlow : 48 ≤ c.toNat := hdigit.1
  have hhigh : c.toNat ≤ 57 := hdigit.2
  omega

theorem Inspect.Written.printable {c d : Char} {code : List Char}
    (hcode : Written c code) (hd : d ∈ code) :
    32 ≤ d.toNat ∧ d.toNat ≠ 127 := by
  cases hcode with
  | @letter letter hletter =>
      have hall : ∀ p ∈ letterEscapes, 32 ≤ p.2.toNat ∧ p.2.toNat ≠ 127 := by
        decide
      simp only [List.mem_cons, List.not_mem_nil, or_false] at hd
      rcases hd with rfl | rfl
      · decide
      · exact hall _ hletter
  | number =>
      have hall : ∀ digit, digit < 16 → 32 ≤ digit.digitChar.toNat ∧
          digit.digitChar.toNat ≠ 127 := by decide
      simp only [List.mem_cons, List.mem_append, List.not_mem_nil,
        or_false] at hd
      rcases hd with rfl | rfl | rfl | hdigit | rfl
      · decide
      · decide
      · decide
      · obtain ⟨digit, hlt, rfl⟩ := exists_digit_of_mem_hexadecimal hdigit
        exact hall digit hlt
      · decide
  | plain _ _ hcontrol =>
      rw [List.mem_singleton.mp hd]
      exact isControl_eq_false_iff.mp hcontrol

theorem printable_quoted (text : String) : Printable (quoted text) := by
  intro d hd
  simp only [toList_quoted, List.mem_cons, List.mem_append, List.mem_flatMap,
    List.not_mem_nil, or_false] at hd
  rcases hd with rfl | ⟨c, _, hcode⟩ | rfl
  · decide
  · exact (written_quotedChar c).printable hcode
  · decide

theorem printable_list {items : List String}
    (hitems : ∀ item ∈ items, Printable item) :
    Printable (Inspect.list items) := by
  rw [Inspect.list, printable_append, printable_append]
  exact ⟨⟨by decide, printable_intercalate (by decide) hitems⟩, by decide⟩

theorem printable_record {name : String} {fields : List String}
    (hname : Printable name) (hfields : ∀ item ∈ fields, Printable item) :
    Printable (record name fields) := by
  rw [record, printable_append, printable_append, printable_append]
  exact ⟨⟨⟨hname, by decide⟩, printable_intercalate (by decide) hfields⟩,
    by decide⟩

theorem printable_field {key value : String} (hkey : Printable key)
    (hvalue : Printable value) : Printable (field key value) := by
  rw [field, printable_append, printable_append]
  exact ⟨⟨hkey, by decide⟩, hvalue⟩

theorem printable_record_one {name key value : String}
    (hname : Printable name) (hkey : Printable key)
    (hvalue : Printable value) :
    Printable (record name [field key value]) :=
  printable_record hname
    (List.forall_mem_singleton.mpr (printable_field hkey hvalue))

theorem printable_record_two {name key key' value value' : String}
    (hname : Printable name) (hkey : Printable key) (hkey' : Printable key')
    (hvalue : Printable value) (hvalue' : Printable value') :
    Printable (record name [field key value, field key' value']) := by
  refine printable_record hname ?_
  rw [List.forall_mem_cons, List.forall_mem_singleton]
  exact ⟨printable_field hkey hvalue, printable_field hkey' hvalue'⟩

theorem printable_alternative (alt : Option AltNumber) :
    Printable (Inspect.optional (alt.map fun n => decimal n.toNat)) := by
  cases alt with
  | none => exact (by decide : Printable "None")
  | some n =>
      rw [Option.map_some, Inspect.optional, printable_append,
        printable_append]
      exact ⟨⟨by decide, printable_decimal n.toNat⟩, by decide⟩

theorem NodeKind.printable_inspect (kind : NodeKind) :
    Printable kind.inspect := by
  cases kind with
  | rule index alt =>
      exact printable_record_two (by decide) (by decide) (by decide)
        (printable_decimal index.toNat) (printable_alternative alt)
  | terminal text =>
      exact printable_record_one (by decide) (by decide)
        (printable_quoted text)
  | error text =>
      exact printable_record_one (by decide) (by decide)
        (printable_quoted text)

theorem NameTable.printable_inspect (table : NameTable) :
    Printable table.inspect := by
  refine printable_record_one (by decide) (by decide)
    (printable_list fun item hitem => ?_)
  obtain ⟨name, _, rfl⟩ := List.mem_map.mp hitem
  exact printable_quoted name

theorem TokenWhitespace.printable_inspect (whitespace : TokenWhitespace) :
    Printable whitespace.inspect := by
  cases whitespace with
  | keep => exact (by decide : Printable "Keep")
  | escape spaces =>
      have hspaces : Printable (Inspect.bool spaces) := by
        cases spaces <;> decide
      exact printable_record_one (by decide) (by decide) hspaces

theorem NameResolver.printable_inspect (resolver : NameResolver) :
    Printable resolver.inspect :=
  printable_record_one (by decide) (by decide)
    resolver.whitespace.printable_inspect

theorem Labeller.printable_inspect (labeller : Labeller NameResolver) :
    Printable labeller.inspect :=
  printable_record_two (by decide) (by decide) (by decide)
    labeller.names.printable_inspect labeller.resolver.printable_inspect

theorem Printable.splitLines_eq {text : String} (h : Printable text) :
    splitLines text = [text] := by
  have hnewline : '\n' ∉ text.toList := fun hmem =>
    absurd (h '\n' hmem).1 (by decide)
  have hjoin : joinLines [text] = text := String.intercalate_singleton
  have hlines := splitLines_joinLines (List.cons_ne_nil text [])
    (List.forall_mem_singleton.mpr hnewline)
  rwa [hjoin] at hlines

end Printable

/-- Values and the texts that show them determine each other, and every text is
one line without control characters. -/
structure ShowsFaithfully {α : Type} (shown : α → String) : Prop where
  eq_iff : ∀ a b : α, shown a = shown b ↔ a = b
  printable : ∀ a : α, Printable (shown a)
  oneLine : ∀ a : α, splitLines (shown a) = [shown a]

theorem Inspect.SelfDelimiting.showsFaithfully {α : Type} {shown : α → String}
    (h : SelfDelimiting shown) (hprintable : ∀ a, Printable (shown a)) :
    ShowsFaithfully shown where
  eq_iff := fun _ _ => h.injective.eq_iff
  printable := hprintable
  oneLine := fun a => (hprintable a).splitLines_eq

/-- Inspection shows kinds, tables, resolvers and labellers faithfully; labellers
are shown alike exactly if their tables and their resolvers are the same. -/
theorem inspect_showsFaithfully :
    ShowsFaithfully NodeKind.inspect ∧ ShowsFaithfully NameTable.inspect ∧
      ShowsFaithfully NameResolver.inspect ∧
      ShowsFaithfully Labeller.inspect ∧
      ∀ a b : Labeller NameResolver, a.inspect = b.inspect ↔
        a.names = b.names ∧ a.resolver = b.resolver := by
  have hlabeller := Labeller.inspect_selfDelimiting.showsFaithfully
    Labeller.printable_inspect
  refine ⟨NodeKind.inspect_selfDelimiting.showsFaithfully
      NodeKind.printable_inspect,
    NameTable.inspect_selfDelimiting.showsFaithfully
      NameTable.printable_inspect,
    NameResolver.inspect_selfDelimiting.showsFaithfully
      NameResolver.printable_inspect, hlabeller, fun a b => ?_⟩
  rw [hlabeller.eq_iff]
  cases a
  cases b
  rw [Labeller.mk.injEq]

/-- A name that looks like the end of one name and the start of the next. -/
example : (NameTable.ofList ["a\", \"b"]).inspect =
    "RuleNames \x7b names: [\"a\\\", \\\"b\"] \x7d" := by
  decide

end TreeLabels
