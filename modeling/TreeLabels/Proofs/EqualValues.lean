/-
Groups of equal values.  The search through the hash map finds, for each value,
the first position where it stands, because the map always holds the first
positions of the values read so far.  So two values are told the same position
exactly if they are the same: tables if they have the same names, however they
were built, and kinds of nodes if they agree in everything they are made of.
-/
import Mathlib.Data.List.Basic
import TreeLabels.Proofs.TableBuilding
import TreeLabels.Session.Request

namespace TreeLabels

universe u v

section Search

variable {α : Type u} [BEq α] [Hashable α]

/-- A map holds the first position of every value that was read, and nothing
else. -/
structure HoldsFirst (seen : Std.HashMap α Nat) (read : List α) : Prop where
  of_mem : ∀ value ∈ read, seen[value]? = some (read.idxOf value)
  of_not_mem : ∀ value, value ∉ read → seen[value]? = none

theorem holdsFirst_empty : HoldsFirst (∅ : Std.HashMap α Nat) [] where
  of_mem _ hvalue := absurd hvalue List.not_mem_nil
  of_not_mem _ _ := Std.HashMap.getElem?_empty

variable [LawfulBEq α] {seen : Std.HashMap α Nat} {read : List α} {value : α}

/-- A value that was read before leaves the map as it is. -/
theorem HoldsFirst.repeated (h : HoldsFirst seen read) (hvalue : value ∈ read) :
    HoldsFirst seen (read ++ [value]) := by
  constructor
  · intro other hother
    have hread : other ∈ read := by
      rcases List.mem_append.mp hother with hread | hlast
      · exact hread
      · rw [List.mem_singleton.mp hlast]
        exact hvalue
    rw [List.idxOf_append_of_mem hread]
    exact h.of_mem other hread
  · intro other hother
    apply h.of_not_mem
    exact fun hread => hother (List.mem_append_left _ hread)

/-- A value that was not read before is put into the map with its position. -/
theorem HoldsFirst.fresh (h : HoldsFirst seen read) (hvalue : value ∉ read) :
    HoldsFirst (seen.insert value read.length) (read ++ [value]) := by
  constructor
  · intro other hother
    by_cases hsame : value = other
    · rw [← hsame, Std.HashMap.getElem?_insert_self,
        List.idxOf_append_of_notMem hvalue, List.idxOf_cons_self, Nat.add_zero]
    · have hread : other ∈ read := by
        rcases List.mem_append.mp hother with hread | hlast
        · exact hread
        · exact absurd (List.mem_singleton.mp hlast).symm hsame
      rw [Std.HashMap.getElem?_insert, if_neg (by simpa using hsame),
        List.idxOf_append_of_mem hread]
      exact h.of_mem other hread
  · intro other hother
    rw [List.mem_append, List.mem_singleton, not_or] at hother
    rw [Std.HashMap.getElem?_insert,
      if_neg (by simpa using Ne.symm hother.2)]
    exact h.of_not_mem other hother.1

/-- From any moment on the search finds the first positions in the whole list. -/
theorem firstPositionsFrom_eq (h : HoldsFirst seen read) (rest : List α) :
    firstPositionsFrom seen read.length rest =
      rest.map fun value => (read ++ rest).idxOf value := by
  induction rest generalizing seen read with
  | nil => rfl
  | cons value rest ih =>
      have hlength : read.length + 1 = (read ++ [value]).length := by simp
      have hwhole : (read ++ [value]) ++ rest = read ++ value :: rest := by simp
      rw [firstPositionsFrom, List.map_cons, hlength]
      by_cases hvalue : value ∈ read
      · -- The map tells where the value stood first.
        simp only [h.of_mem value hvalue]
        rw [ih (h.repeated hvalue), hwhole, List.idxOf_append_of_mem hvalue]
      · -- The value stands here first, right behind those read so far.
        simp only [h.of_not_mem value hvalue]
        rw [ih (h.fresh hvalue), hwhole, List.idxOf_append_of_notMem hvalue,
          List.idxOf_cons_self, Nat.add_zero]

theorem firstPositions_eq (values : List α) :
    firstPositions values = values.map fun value => values.idxOf value :=
  firstPositionsFrom_eq holdsFirst_empty values

end Search

section Positions

variable {α : Type u} [BEq α] {values : List α} {value other : α} {i j : Nat}

/-- Equality with the value at the head, told position by position. -/
theorem getElem?_equalToHead {head : α} (hvalue : values[i]? = some value)
    (hhead : values[0]? = some head) :
    (equalToHead values)[i]? = some (value == head) := by
  cases values with
  | nil => simp at hvalue
  | cons first rest =>
      obtain rfl : first = head := Option.some.inj hhead
      rw [equalToHead, List.getElem?_map, hvalue]
      rfl

variable [LawfulBEq α]

theorem idxOf_le_of_getElem? (hvalue : values[i]? = some value) :
    values.idxOf value ≤ i := by
  have htake : value ∈ values.take (i + 1) := by
    apply List.mem_of_getElem? (i := i)
    rw [List.getElem?_take_of_lt (Nat.lt_succ_self i), hvalue]
  have hlt := (List.mem_take_iff_idxOf_lt
    (List.mem_of_getElem? hvalue)).mp htake
  exact Nat.le_of_lt_succ hlt

variable [Hashable α]

theorem getElem?_firstPositions (hvalue : values[i]? = some value) :
    (firstPositions values)[i]? = some (values.idxOf value) := by
  rw [firstPositions_eq, List.getElem?_map, hvalue]
  rfl

/-- The position that is told for a value is told for itself. -/
theorem getElem?_firstPositions_idxOf (hvalue : value ∈ values) :
    (firstPositions values)[values.idxOf value]? =
      some (values.idxOf value) :=
  getElem?_firstPositions (List.getElem?_idxOf hvalue)

theorem getElem?_firstPositions_eq_iff (hvalue : values[i]? = some value)
    (hother : values[j]? = some other) :
    (firstPositions values)[i]? = (firstPositions values)[j]? ↔
      value = other := by
  rw [getElem?_firstPositions hvalue, getElem?_firstPositions hother,
    Option.some.injEq]
  exact List.idxOf_inj (List.mem_of_getElem? hvalue)

theorem getElem?_firstPositions_eq_zero_iff {head : α}
    (hvalue : values[i]? = some value) (hhead : values[0]? = some head) :
    (firstPositions values)[i]? = some 0 ↔ value = head := by
  have hzero : (firstPositions values)[0]? = some 0 := by
    rw [getElem?_firstPositions hhead,
      Nat.le_zero.mp (idxOf_le_of_getElem? hhead)]
  rw [← hzero]
  exact getElem?_firstPositions_eq_iff hvalue hhead

end Positions

/-- Groups show which of the listed items stand for the same value.  An item is
told the earliest position of its value, which is no later than its own and is
told itself.  Two items are told the same position exactly if they are the same,
and those that are the same as the item at the head are told the position of the
head. -/
structure Groups.Classifies {ι : Type v} {α : Type u} [BEq α] (groups : Groups)
    (value : ι → α) (same : ι → ι → Prop) (items : List ι) : Prop where
  beq_iff : ∀ item other, (value item == value other) = true ↔ same item other
  earliest : groups.first =
    items.map fun item => (items.map value).idxOf (value item)
  first_of_first : ∀ i < items.length, ∃ first ≤ i,
    groups.first[i]? = some first ∧ groups.first[first]? = some first
  first_eq_iff : ∀ (i j : Nat) (item other : ι),
    items[i]? = some item → items[j]? = some other →
      (groups.first[i]? = groups.first[j]? ↔ same item other)
  equalToHead : ∀ (i : Nat) (item head : ι),
    items[i]? = some item → items[0]? = some head →
      groups.equalToHead[i]? = some (value item == value head) ∧
        ((value item == value head) = true ↔ groups.first[i]? = some 0)

/-- Items are grouped as their values are, if those are the same exactly where
the items are. -/
theorem Groups.classifies_ofList {ι : Type v} {α : Type u} [BEq α] [LawfulBEq α]
    [Hashable α] {value : ι → α} {same : ι → ι → Prop}
    (hsame : ∀ item other, value item = value other ↔ same item other)
    (items : List ι) :
    (Groups.ofList (items.map value)).Classifies value same items := by
  have hvalue : ∀ {i : Nat} {item : ι}, items[i]? = some item →
      (items.map value)[i]? = some (value item) := by
    intro i item hitem
    rw [List.getElem?_map, hitem]
    rfl
  constructor
  case beq_iff =>
    intro item other
    rw [beq_iff_eq]
    exact hsame item other
  case earliest =>
    show firstPositions (items.map value) = _
    rw [firstPositions_eq, List.map_map]
    rfl
  case first_of_first =>
    intro i hi
    have hitem := hvalue (List.getElem?_eq_getElem hi)
    exact ⟨_, idxOf_le_of_getElem? hitem, getElem?_firstPositions hitem,
      getElem?_firstPositions_idxOf (List.mem_of_getElem? hitem)⟩
  case first_eq_iff =>
    intro i j item other hitem hother
    rw [← hsame item other]
    exact getElem?_firstPositions_eq_iff (hvalue hitem) (hvalue hother)
  case equalToHead =>
    intro i item head hitem hhead
    refine ⟨getElem?_equalToHead (hvalue hitem) (hvalue hhead), ?_⟩
    rw [beq_iff_eq]
    exact (getElem?_firstPositions_eq_zero_iff
      (hvalue hitem) (hvalue hhead)).symm

/-- The names that a form takes of those handed over: the standard form takes
none. -/
def TableForm.taken (form : TableForm) (names : List String) : List String :=
  if form = .standard then [] else names

theorem TableForm.toList_build (form : TableForm) (names : List String) :
    (form.build names).toList = form.taken names := by
  by_cases hform : form = .standard
  · rw [hform]
    rfl
  · rw [build_eq_ofList hform, NameTable.toList_ofList, taken, if_neg hform]

/-- Tables are the same exactly if their forms took the same names. -/
theorem TableForm.build_eq_build_iff (form other : TableForm)
    (names further : List String) :
    form.build names = other.build further ↔
      form.taken names = other.taken further := by
  rw [← NameTable.toList_inj, toList_build, toList_build]

/-- The number that stands for an alternative; it is zero for one that was not
recorded. -/
def AltNumber.numberOf : Option AltNumber → Nat
  | none => 0
  | some alt => alt.toNat

theorem AltNumber.numberOf_inj {alt other : Option AltNumber} :
    numberOf alt = numberOf other ↔ alt = other := by
  cases alt with
  | none =>
      cases other with
      | none => simp
      | some other => simp [numberOf, Nat.ne_of_lt other.toNat_pos]
  | some alt =>
      cases other with
      | none => simp [numberOf, Nat.ne_of_gt alt.toNat_pos]
      | some other => simp [numberOf, toNat_inj]

theorem AltNumber.numberOf_ofUInt64? (n : UInt64) :
    numberOf (ofUInt64? n) = n.toNat := by
  by_cases hpos : 0 < n
  · rw [ofUInt64?, dif_pos hpos]
    rfl
  · rw [ofUInt64?, dif_neg hpos]
    rw [UInt64.lt_iff_toNat_lt] at hpos
    exact (Nat.eq_zero_of_not_pos hpos).symm

/-- Kinds are the same if they are uses of the same rule with the same number
for the alternative, or matched tokens of the same text, or erroneous ones. -/
def NodeKind.Same : NodeKind → NodeKind → Prop
  | rule index alt, rule index' alt' =>
      index = index' ∧ AltNumber.numberOf alt = AltNumber.numberOf alt'
  | terminal text, terminal text' => text = text'
  | error text, error text' => text = text'
  | _, _ => False

theorem NodeKind.same_iff_eq {kind other : NodeKind} :
    kind.Same other ↔ kind = other := by
  cases kind <;> cases other <;> simp [Same, AltNumber.numberOf_inj]

/-- Tables fall into groups by the names that were taken for them, in whatever
forms they were handed over.  Nodes fall into groups by their kinds, whatever
they say of being errors, and an alternative of number zero is none. -/
theorem equal_values_grouped :
    (∀ handed : List (TableForm × List String),
      (Groups.ofList (handed.map fun given => given.1.build given.2)).Classifies
        (fun given => given.1.build given.2)
        (fun given other => given.1.taken given.2 = other.1.taken other.2)
        handed) ∧
    (∀ nodes : List Node,
      (Groups.ofList (nodes.map Node.kind)).Classifies Node.kind
        (fun node other => node.kind.Same other.kind) nodes) ∧
    ∀ n, AltNumber.numberOf (AltNumber.ofUInt64? n) = n.toNat := by
  refine ⟨?_, ?_, AltNumber.numberOf_ofUInt64?⟩
  · apply Groups.classifies_ofList
    intro given other
    exact TableForm.build_eq_build_iff given.1 other.1 given.2 other.2
  · apply Groups.classifies_ofList
    intro node other
    exact NodeKind.same_iff_eq.symm

/-- A table without names is the standard one, and an empty name makes another
one.  A token and an erroneous token of the same text are told apart; a number
of zero and an own answer to whether a node is an error tell nothing apart. -/
theorem equal_values_grouped_zero :
    let handed : List (TableForm × List String) :=
      [(.owned, ["stat"]), (.standard, ["stat"]), (.array, []),
        (.vector, ["stat"]), (.owned, ["stat", ""])]
    let nodes : List Node :=
      [⟨.terminal "a", none⟩, ⟨.error "a", none⟩, ⟨.rule 0 none, some true⟩,
        ⟨.rule 0 (AltNumber.ofUInt64? 0), none⟩, ⟨.terminal "a", some true⟩]
    (Groups.ofList (handed.map fun given => given.1.build given.2)).first =
        [0, 1, 1, 0, 4] ∧
      (Groups.ofList (nodes.map Node.kind)).first = [0, 1, 2, 2, 0] := by
  intro handed nodes
  obtain ⟨htables, hkinds, _⟩ := equal_values_grouped
  constructor
  · rw [(htables handed).earliest]
    decide
  · rw [(hkinds nodes).earliest]
    decide

end TreeLabels
