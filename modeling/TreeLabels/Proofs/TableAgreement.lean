/-
What rule nodes reveal of a table.  A missing name reads like a name that spells
its own position, so the uses of rules without an alternative leave tables open;
an alternative shows whether there is a name at all.
-/
import TreeLabels.Proofs.RuleText

namespace TreeLabels

namespace NameTable

/-- Every use of a rule has the same text under both tables. -/
def SameRuleTexts (table other : NameTable) : Prop :=
  ∀ (index : UInt64) (alt : Option AltNumber) (flag : Option Bool),
    (nodeText ⟨.rule index alt, flag⟩ table).value =
      (nodeText ⟨.rule index alt, flag⟩ other).value

/-- Every use of a rule without an alternative has the same text under both
tables. -/
def SamePlainTexts (table other : NameTable) : Prop :=
  ∀ (index : UInt64) (flag : Option Bool),
    (nodeText ⟨.rule index none, flag⟩ table).value =
      (nodeText ⟨.rule index none, flag⟩ other).value

/-- The longer table starts with the names of the shorter one, and every further
name spells its own position. -/
structure SpelledOutBy (shorter longer : NameTable) : Prop where
  isPrefix : shorter.toList <+: longer.toList
  eq_decimal : ∀ (position : Nat) (name : String),
    shorter.size ≤ position → longer.get? position = some name →
      name = decimal position

variable {table other : NameTable}

theorem SameRuleTexts.symm (h : table.SameRuleTexts other) :
    other.SameRuleTexts table :=
  fun index alt flag => (h index alt flag).symm

theorem SameRuleTexts.samePlainTexts (h : table.SameRuleTexts other) :
    table.SamePlainTexts other :=
  fun index flag => h index none flag

theorem SamePlainTexts.symm (h : table.SamePlainTexts other) :
    other.SamePlainTexts table :=
  fun index flag => (h index flag).symm

/-- The agreement, read off at a position of one word. -/
theorem SamePlainTexts.getD_eq (h : table.SamePlainTexts other) {position : Nat}
    (hposition : position < UInt64.size) :
    (table.get? position).getD (decimal position) =
      (other.get? position).getD (decimal position) := by
  obtain ⟨index, rfl⟩ := exists_index_toNat_eq hposition
  have htext := h index none
  rw [value_nodeText_none, value_nodeText_none] at htext
  exact htext

theorem SamePlainTexts.spelledOutBy (h : table.SamePlainTexts other)
    (hother : other.size < UInt64.size) (hle : table.size ≤ other.size) :
    table.SpelledOutBy other := by
  constructor
  · rw [List.prefix_iff_getElem?]
    intro position hposition
    have hlt : position < other.size := Nat.lt_of_lt_of_le hposition hle
    have hname := h.getD_eq (Nat.lt_trans hlt hother)
    rw [get?_eq_some_get hposition, get?_eq_some_get hlt] at hname
    rw [getElem?_toList, get?_eq_some_get hlt]
    exact congrArg some hname.symm
  · intro position name hposition hname
    have hlt := lt_size_of_get? hname
    have htext := h.getD_eq (Nat.lt_trans hlt hother)
    rw [get?_eq_none_iff.mpr hposition, hname] at htext
    exact htext.symm

theorem SpelledOutBy.get?_eq (h : table.SpelledOutBy other) {position : Nat}
    {name : String} (hname : table.get? position = some name) :
    other.get? position = some name := by
  obtain ⟨further, hfurther⟩ := h.isPrefix
  have hlt : position < table.toList.length := lt_size_of_get? hname
  rw [← getElem?_toList, ← hfurther, List.getElem?_append_left hlt,
    getElem?_toList]
  exact hname

theorem SpelledOutBy.samePlainTexts (h : table.SpelledOutBy other) :
    table.SamePlainTexts other := by
  intro index flag
  rw [value_nodeText_none, value_nodeText_none]
  cases htable : table.get? index.toNat with
  | some name => rw [h.get?_eq htable]
  | none =>
      cases hother : other.get? index.toNat with
      | none => rfl
      | some name =>
          have hposition := get?_eq_none_iff.mp htable
          exact (h.eq_decimal index.toNat name hposition hother).symm

theorem samePlainTexts_iff (htable : table.size < UInt64.size)
    (hother : other.size < UInt64.size) :
    table.SamePlainTexts other ↔
      table.SpelledOutBy other ∨ other.SpelledOutBy table := by
  constructor
  · intro h
    rcases Nat.le_total table.size other.size with hle | hle
    · exact Or.inl (h.spelledOutBy hother hle)
    · exact Or.inr (h.symm.spelledOutBy htable hle)
  · rintro (h | h)
    · exact h.samePlainTexts
    · exact h.samePlainTexts.symm

/-- A table cannot end before one that it agrees with: just past its end the
first alternative shows behind the name of the other table and nowhere else. -/
theorem SameRuleTexts.size_le (h : table.SameRuleTexts other)
    (hother : other.size < UInt64.size) : other.size ≤ table.size := by
  refine Nat.le_of_not_lt fun hlt => ?_
  obtain ⟨index, hindex⟩ := exists_index_toNat_eq (Nat.lt_trans hlt hother)
  rw [← hindex] at hlt
  have htext := h index (some ⟨1, by decide⟩) none
  rw [value_nodeText_of_le (Nat.le_of_eq hindex.symm),
    value_nodeText_of_get? (get?_eq_some_get hlt)] at htext
  exact colon_decimal_ne_decimal _ _ _ htext.symm

theorem SameRuleTexts.eq (h : table.SameRuleTexts other)
    (htable : table.size < UInt64.size) (hother : other.size < UInt64.size) :
    table = other := by
  have hsize : table.size = other.size :=
    Nat.le_antisymm (h.symm.size_le htable) (h.size_le hother)
  have hstart := (h.samePlainTexts.spelledOutBy hother
    (Nat.le_of_eq hsize)).isPrefix
  exact toList_inj.mp (hstart.eq_of_length hsize)

/-- Tables are equal exactly if the uses of rules read the same under both.
Without alternatives they read the same exactly if one table is the other one,
spelled out further. -/
theorem eq_iff_sameRuleTexts (htable : table.size < UInt64.size)
    (hother : other.size < UInt64.size) :
    (table = other ↔ table.SameRuleTexts other) ∧
      (table.SamePlainTexts other ↔
        table.SpelledOutBy other ∨ other.SpelledOutBy table) := by
  refine ⟨⟨?_, fun h => h.eq htable hother⟩, samePlainTexts_iff htable hother⟩
  rintro rfl
  exact fun index alt flag => rfl

/-- A name that spells its own position shows only behind an alternative. -/
theorem not_sameRuleTexts_stat_one :
    (ofList ["stat"]).size < UInt64.size ∧
      (ofList ["stat", "1"]).size < UInt64.size ∧
      (ofList ["stat"]).SamePlainTexts (ofList ["stat", "1"]) ∧
      ¬ (ofList ["stat"]).SameRuleTexts (ofList ["stat", "1"]) := by
  have htable : (ofList ["stat"]).size < UInt64.size := by decide
  have hother : (ofList ["stat", "1"]).size < UInt64.size := by decide
  obtain ⟨heq, hplain⟩ := eq_iff_sameRuleTexts htable hother
  refine ⟨htable, hother, hplain.mpr (Or.inl ⟨⟨["1"], rfl⟩, ?_⟩), ?_⟩
  · intro position name hposition hname
    have hlt : position < 2 := lt_size_of_get? hname
    have hle : 1 ≤ position := hposition
    obtain rfl : position = 1 := by omega
    have hone : some "1" = some name := hname
    rw [← Option.some.inj hone]
    decide
  · intro hsame
    exact absurd (heq.mpr hsame) (by decide)

end NameTable

end TreeLabels
