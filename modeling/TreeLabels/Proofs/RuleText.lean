/-
The texts of rule nodes.  A rule node reads in one of three ways: as the name of
its rule, as that name with an alternative after a colon, or, where the table
has no name, as its bare index.
-/
import TreeLabels.Proofs.Separator
import TreeLabels.Resolver

namespace TreeLabels

/-- Every number of one word is the index of a rule. -/
theorem exists_index_toNat_eq {n : Nat} (hn : n < UInt64.size) :
    ∃ index : UInt64, index.toNat = n :=
  ⟨UInt64.ofNat n, UInt64.toNat_ofNat_of_lt' hn⟩

theorem colon_not_mem_decimal (n : Nat) : ':' ∉ (decimal n).toList :=
  not_mem_decimal (by decide)

/-- The characters of a name with a number after a colon. -/
theorem toList_colon_decimal (name : String) (n : Nat) :
    (name ++ ":" ++ decimal n).toList =
      name.toList ++ ':' :: (decimal n).toList := by
  simp

/-- The last colon ends the name, even if the name has colons of its own. -/
theorem colon_decimal_inj {name name' : String} {m n : Nat}
    (heq : name ++ ":" ++ decimal m = name' ++ ":" ++ decimal n) :
    name = name' ∧ m = n := by
  have hchars := congrArg String.toList heq
  rw [toList_colon_decimal, toList_colon_decimal] at hchars
  obtain ⟨hname, hdigits⟩ := last_separator_inj (colon_not_mem_decimal m)
    (colon_not_mem_decimal n) hchars
  exact ⟨String.toList_inj.mp hname,
    decimal_inj.mp (String.toList_inj.mp hdigits)⟩

theorem colon_decimal_ne_decimal (name : String) (m n : Nat) :
    name ++ ":" ++ decimal m ≠ decimal n := by
  intro heq
  apply colon_not_mem_decimal n
  rw [← heq, toList_colon_decimal]
  exact List.mem_append_right _ List.mem_cons_self

namespace NameTable

/-- The name that a table has for an entry: that of its rule, if the entry is a
rule node within the table. -/
def nameOf? (names : NameTable) : Option Node → Option String
  | some ⟨.rule index _, _⟩ => names.get? index.toNat
  | _ => none

/-- The index that stands for a missing name: that of its rule, if the entry is
a rule node past the end of the table. -/
def unnamedIndex? (names : NameTable) : Option Node → Option UInt64
  | some ⟨.rule index _, _⟩ =>
      if names.size ≤ index.toNat then some index else none
  | _ => none

end NameTable

namespace NameResolver

theorem ruleText_of_get? {names : NameTable} {index : UInt64} {name : String}
    (hname : names.get? index.toNat = some name) (alt : Option AltNumber) :
    ruleText names index alt = pure (alternativeText name alt) := by
  rw [ruleText, hname]

/-- Every resolver by name reads a rule node as the plain one does. -/
theorem resolve_rule (resolver : NameResolver) (names : NameTable)
    (index : UInt64) (alt : Option AltNumber) (flag : Option Bool) :
    resolve resolver ⟨.rule index alt, flag⟩ names =
      ruleText names index alt := rfl

/-- The events of a text: a warning for a rule without a name, and no other. -/
theorem events_resolve (resolver : NameResolver) (node : Node)
    (names : NameTable) :
    (resolve resolver node names).events =
      (names.unnamedIndex? (some node)).toList.map
        (Event.unnamedRule · names.size) := by
  obtain ⟨kind, flag⟩ := node
  cases kind with
  | rule index alt =>
      rw [resolve_rule]
      by_cases hsize : names.size ≤ index.toNat
      · rw [ruleText_of_le hsize]
        simp [NameTable.unnamedIndex?, hsize]
      · obtain ⟨name, _, htext⟩ := ruleText_of_lt (Nat.lt_of_not_le hsize) alt
        rw [htext]
        simp [NameTable.unnamedIndex?, hsize]
  | terminal text => rfl
  | error text => rfl

/-- A rule without a name reads as its index. -/
theorem value_resolve_of_unnamedIndex? (resolver : NameResolver) {node : Node}
    {names : NameTable} {index : UInt64}
    (hindex : names.unnamedIndex? (some node) = some index) :
    (resolve resolver node names).value = decimal index.toNat := by
  obtain ⟨kind, flag⟩ := node
  cases kind with
  | rule i alt =>
      by_cases hsize : names.size ≤ i.toNat
      · simp only [NameTable.unnamedIndex?, hsize, ↓reduceIte,
          Option.some.injEq] at hindex
        subst hindex
        rw [resolve_rule, ruleText_of_le hsize]
      · simp [NameTable.unnamedIndex?, hsize] at hindex
  | terminal text => simp [NameTable.unnamedIndex?] at hindex
  | error text => simp [NameTable.unnamedIndex?] at hindex

end NameResolver

section NodeText

variable {names : NameTable} {index : UInt64}

theorem value_nodeText_of_get? {name : String}
    (hname : names.get? index.toNat = some name) (alt : Option AltNumber)
    (flag : Option Bool) :
    (nodeText ⟨.rule index alt, flag⟩ names).value =
      NameResolver.alternativeText name alt := by
  rw [nodeText, NameResolver.resolve_rule, NameResolver.ruleText_of_get? hname]
  rfl

theorem value_nodeText_of_le (hsize : names.size ≤ index.toNat)
    (alt : Option AltNumber) (flag : Option Bool) :
    (nodeText ⟨.rule index alt, flag⟩ names).value = decimal index.toNat := by
  rw [nodeText, NameResolver.resolve_rule, NameResolver.ruleText_of_le hsize]

/-- Without an alternative a rule node reads as its name, or else its index. -/
theorem value_nodeText_none (names : NameTable) (index : UInt64)
    (flag : Option Bool) :
    (nodeText ⟨.rule index none, flag⟩ names).value =
      (names.get? index.toNat).getD (decimal index.toNat) := by
  cases hname : names.get? index.toNat with
  | none =>
      rw [value_nodeText_of_le (NameTable.get?_eq_none_iff.mp hname)]
      rfl
  | some name =>
      rw [value_nodeText_of_get? hname]
      rfl

end NodeText

end TreeLabels
