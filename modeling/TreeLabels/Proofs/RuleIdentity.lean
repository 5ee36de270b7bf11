/-
Which tables tell the uses of their rules apart.  Names, names with an
alternative and bare indices share one space of texts, so a table has to keep
them disjoint: this is necessary, and it is enough.
-/
import Mathlib.Data.List.Nodup
import TreeLabels.Proofs.RuleText

namespace TreeLabels

namespace NameTable

/-- Rule nodes with the same text are uses of the same rule and, if the table
names that rule, of the same alternative. -/
def TellsRulesApart (names : NameTable) : Prop :=
  ∀ (i j : UInt64) (alt alt' : Option AltNumber) (flag flag' : Option Bool),
    (nodeText ⟨.rule i alt, flag⟩ names).value =
        (nodeText ⟨.rule j alt', flag'⟩ names).value →
      i = j ∧ (i.toNat < names.size → alt = alt')

/-- The names of the table are distinct, none of them looks like a name with an
alternative, and none like the index of a rule past the end. -/
structure Unambiguous (names : NameTable) : Prop where
  nodup : names.toList.Nodup
  ne_alternative : ∀ name ∈ names.toList, ∀ base ∈ names.toList, ∀ n : Nat,
    1 ≤ n → n < UInt64.size → name ≠ base ++ ":" ++ decimal n
  ne_index : ∀ name ∈ names.toList, ∀ index : Nat,
    names.size ≤ index → index < UInt64.size → name ≠ decimal index

variable {names : NameTable}

theorem exists_index_of_mem (hsize : names.size < UInt64.size) {name : String}
    (hname : name ∈ names.toList) :
    ∃ index : UInt64, names.get? index.toNat = some name := by
  obtain ⟨position, hposition⟩ := mem_toList_iff.mp hname
  obtain ⟨index, rfl⟩ := exists_index_toNat_eq
    (Nat.lt_trans (lt_size_of_get? hposition) hsize)
  exact ⟨index, hposition⟩

section Necessary

theorem TellsRulesApart.nodup (h : names.TellsRulesApart)
    (hsize : names.size < UInt64.size) : names.toList.Nodup := by
  rw [List.nodup_iff_getElem?_ne_getElem?]
  intro i j hij hj heq
  rw [length_toList] at hj
  rw [getElem?_toList, getElem?_toList] at heq
  have hi : i < names.size := Nat.lt_trans hij hj
  obtain ⟨i, rfl⟩ := exists_index_toNat_eq (Nat.lt_trans hi hsize)
  obtain ⟨j, rfl⟩ := exists_index_toNat_eq (Nat.lt_trans hj hsize)
  have htext : (nodeText ⟨.rule i none, none⟩ names).value =
      (nodeText ⟨.rule j none, none⟩ names).value := by
    rw [value_nodeText_of_get? (get?_eq_some_get hi), value_nodeText_of_get?]
    rw [← heq, get?_eq_some_get hi]
  have hindex := (h i j none none none none htext).1
  rw [hindex] at hij
  exact Nat.lt_irrefl _ hij

theorem TellsRulesApart.ne_alternative (h : names.TellsRulesApart)
    (hsize : names.size < UInt64.size) {name base : String}
    (hname : name ∈ names.toList) (hbase : base ∈ names.toList) {n : Nat}
    (hpos : 1 ≤ n) (hn : n < UInt64.size) :
    name ≠ base ++ ":" ++ decimal n := by
  intro heq
  obtain ⟨i, hi⟩ := exists_index_of_mem hsize hname
  obtain ⟨j, hj⟩ := exists_index_of_mem hsize hbase
  obtain ⟨alt, rfl⟩ := AltNumber.exists_toNat_eq hpos hn
  have htext : (nodeText ⟨.rule i none, none⟩ names).value =
      (nodeText ⟨.rule j (some alt), none⟩ names).value := by
    rw [value_nodeText_of_get? hi, value_nodeText_of_get? hj]
    exact heq
  have halt := (h i j none (some alt) none none htext).2 (lt_size_of_get? hi)
  contradiction

theorem TellsRulesApart.ne_index (h : names.TellsRulesApart)
    (hsize : names.size < UInt64.size) {name : String}
    (hname : name ∈ names.toList) {index : Nat} (hle : names.size ≤ index)
    (hindex : index < UInt64.size) :
    name ≠ decimal index := by
  intro heq
  obtain ⟨i, hi⟩ := exists_index_of_mem hsize hname
  obtain ⟨j, rfl⟩ := exists_index_toNat_eq hindex
  have htext : (nodeText ⟨.rule i none, none⟩ names).value =
      (nodeText ⟨.rule j none, none⟩ names).value := by
    rw [value_nodeText_of_get? hi, value_nodeText_of_le hle]
    exact heq
  have hsame := (h i j none none none none htext).1
  subst hsame
  exact absurd (lt_size_of_get? hi) (Nat.not_lt.mpr hle)

end Necessary

section Sufficient

theorem Unambiguous.eq_of_get? (h : names.Unambiguous) {i j : UInt64}
    {name : String} (hi : names.get? i.toNat = some name)
    (hj : names.get? j.toNat = some name) : i = j := by
  have hlt : i.toNat < names.toList.length := lt_size_of_get? hi
  have heq : names.toList[i.toNat]? = names.toList[j.toNat]? := by
    rw [getElem?_toList, getElem?_toList, hi, hj]
  exact UInt64.toNat_inj.mp ((List.getElem?_inj hlt h.nodup).mp heq)

/-- A bare name is never a name with an alternative. -/
theorem Unambiguous.ne_alternativeText (h : names.Unambiguous) {i j : Nat}
    {name base : String} (hname : names.get? i = some name)
    (hbase : names.get? j = some base) (alt : AltNumber) :
    name ≠ NameResolver.alternativeText base (some alt) :=
  h.ne_alternative name (mem_toList_iff.mpr ⟨i, hname⟩) base
    (mem_toList_iff.mpr ⟨j, hbase⟩) alt.toNat alt.toNat_pos alt.toNat_lt

/-- The texts of two named rules, alternatives included, differ unless all of it
is the same. -/
theorem Unambiguous.alternativeText_inj (h : names.Unambiguous) {i j : UInt64}
    {name name' : String} (hi : names.get? i.toNat = some name)
    (hj : names.get? j.toNat = some name') {alt alt' : Option AltNumber}
    (heq : NameResolver.alternativeText name alt =
      NameResolver.alternativeText name' alt') : i = j ∧ alt = alt' := by
  cases alt with
  | none =>
      cases alt' with
      | none =>
          have hnames : name = name' := heq
          subst hnames
          exact ⟨h.eq_of_get? hi hj, rfl⟩
      | some n => exact absurd heq (h.ne_alternativeText hi hj n)
  | some m =>
      cases alt' with
      | none => exact absurd heq.symm (h.ne_alternativeText hj hi m)
      | some n =>
          obtain ⟨hnames, hnumbers⟩ := colon_decimal_inj heq
          subst hnames
          exact ⟨h.eq_of_get? hi hj,
            congrArg some (AltNumber.toNat_inj.mp hnumbers)⟩

/-- The text of a named rule is never the index of one without a name. -/
theorem Unambiguous.alternativeText_ne_decimal (h : names.Unambiguous)
    {i : Nat} {name : String} (hi : names.get? i = some name)
    (alt : Option AltNumber) {index : UInt64}
    (hindex : names.size ≤ index.toNat) :
    NameResolver.alternativeText name alt ≠ decimal index.toNat := by
  cases alt with
  | none =>
      exact h.ne_index name (mem_toList_iff.mpr ⟨i, hi⟩) index.toNat hindex
        index.toNat_lt_size
  | some n => exact colon_decimal_ne_decimal name n.toNat index.toNat

theorem Unambiguous.tellsRulesApart (h : names.Unambiguous) :
    names.TellsRulesApart := by
  intro i j alt alt' flag flag' htext
  cases hi : names.get? i.toNat with
  | some name =>
      rw [value_nodeText_of_get? hi] at htext
      cases hj : names.get? j.toNat with
      | some name' =>
          rw [value_nodeText_of_get? hj] at htext
          obtain ⟨hindex, halt⟩ := h.alternativeText_inj hi hj htext
          exact ⟨hindex, fun _ => halt⟩
      | none =>
          have hsize := get?_eq_none_iff.mp hj
          rw [value_nodeText_of_le hsize] at htext
          exact absurd htext (h.alternativeText_ne_decimal hi alt hsize)
  | none =>
      have hsize := get?_eq_none_iff.mp hi
      rw [value_nodeText_of_le hsize] at htext
      cases hj : names.get? j.toNat with
      | some name' =>
          rw [value_nodeText_of_get? hj] at htext
          exact absurd htext.symm (h.alternativeText_ne_decimal hj alt' hsize)
      | none =>
          rw [value_nodeText_of_le (get?_eq_none_iff.mp hj), decimal_inj,
            UInt64.toNat_inj] at htext
          refine ⟨htext, fun hlt => ?_⟩
          exact absurd hsize (Nat.not_le_of_lt hlt)

end Sufficient

/-- The texts of rule nodes identify them under the unambiguous tables, and under
no others. -/
theorem tellsRulesApart_iff_unambiguous (hsize : names.size < UInt64.size) :
    names.TellsRulesApart ↔ names.Unambiguous := by
  constructor
  · intro h
    exact {
      nodup := h.nodup hsize
      ne_alternative := fun _ hname _ hbase _ hpos hn =>
        h.ne_alternative hsize hname hbase hpos hn
      ne_index := fun _ hname _ hle hindex =>
        h.ne_index hsize hname hle hindex }
  · exact Unambiguous.tellsRulesApart

/-- Colons and digits in names do no harm as long as no other node reads like
them: there is no alternative zero, and the rule with index one has a name. -/
theorem tellsRulesApart_stat_zero_one :
    (ofList ["stat", "stat:0", "1"]).size < UInt64.size ∧
      (ofList ["stat", "stat:0", "1"]).TellsRulesApart := by
  have hsize : (ofList ["stat", "stat:0", "1"]).size < UInt64.size := by decide
  refine ⟨hsize,
    (tellsRulesApart_iff_unambiguous hsize).mpr ⟨by decide, ?_, ?_⟩⟩
  · intro name hname base _ n hpos _ heq
    have hcolon : ':' ∈ name.toList := by
      rw [heq, toList_colon_decimal]
      exact List.mem_append_right _ List.mem_cons_self
    simp only [toList_ofList, List.mem_cons, List.not_mem_nil,
      or_false] at hname
    rcases hname with rfl | rfl | rfl
    · exact absurd hcolon (by decide)
    · have hzero : "stat:0" = "stat" ++ ":" ++ decimal 0 := by decide
      have hn := (colon_decimal_inj (hzero.symm.trans heq)).2
      omega
    · exact absurd hcolon (by decide)
  · intro name hname index hle _ heq
    have hdigits : ∀ c ∈ name.toList, c.isDigit = true := by
      intro c hc
      rw [heq] at hc
      exact isDigit_of_mem_decimal hc
    simp only [toList_ofList, List.mem_cons, List.not_mem_nil,
      or_false] at hname
    rcases hname with rfl | rfl | rfl
    · exact absurd (hdigits 's' (by decide)) (by decide)
    · exact absurd (hdigits 's' (by decide)) (by decide)
    · have hone : "1" = decimal 1 := by decide
      have hindex := decimal_inj.mp (hone.symm.trans heq)
      have hthree : 3 ≤ index := hle
      omega

end NameTable

end TreeLabels
