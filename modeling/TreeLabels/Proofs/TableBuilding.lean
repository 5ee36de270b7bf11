/-
Building tables without loss.  In whatever form names are handed over, the table
has these names in order, repetitions and empty names included, and its cursor
reads them again.  So a table is known by its size and its names, and a labeller
can be built anew from the names that it shows.
-/
import TreeLabels.Labeller
import TreeLabels.NameTable

namespace TreeLabels

namespace NameTable

section Extensional

variable {table other : NameTable}

/-- Tables of the same size that agree up to it are the same. -/
theorem eq_of_forall_lt_get?_eq (hsize : table.size = other.size)
    (hget : ∀ index < table.size, table.get? index = other.get? index) :
    table = other := by
  apply toList_inj.mp
  apply List.ext_getElem?
  intro index
  rw [getElem?_toList, getElem?_toList]
  by_cases hindex : index < table.size
  · exact hget index hindex
  · have hle : table.size ≤ index := Nat.le_of_not_lt hindex
    rw [get?_eq_none_iff.mpr hle, get?_eq_none_iff.mpr (hsize ▸ hle)]

theorem eq_iff_forall_get?_eq :
    table = other ↔ table.size = other.size ∧
      ∀ index, table.get? index = other.get? index := by
  constructor
  · intro hsame
    rw [hsame]
    exact ⟨rfl, fun _ => rfl⟩
  · rintro ⟨hsize, hget⟩
    apply eq_of_forall_lt_get?_eq hsize
    intro index _
    exact hget index

end Extensional

section Items

variable {α : Type} [NameItem α]

theorem ofItems_eq_ofList (items : List α) :
    ofItems items = ofList (items.map NameItem.toName) := by
  apply toList_inj.mp
  rw [toList_ofItems, toList_ofList]

/-- Names are found again in items that were made from them. -/
theorem ofItems_map_eq_ofList {wrap : String → α}
    (hwrap : ∀ name, NameItem.toName (wrap name) = name)
    (names : List String) : ofItems (names.map wrap) = ofList names := by
  have hname : (NameItem.toName ∘ wrap) = id := funext hwrap
  rw [ofItems_eq_ofList, List.map_map, hname, List.map_id]

end Items

theorem ofItems_names (names : List String) : ofItems names = ofList names := by
  rw [ofItems_eq_ofList]
  exact congrArg ofList (List.map_id names)

theorem ofSlices_eq_ofItems (slices : Array String.Slice) :
    ofSlices slices = ofItems slices.toList := by
  apply toList_inj.mp
  rw [toList_ofItems]
  exact Array.toList_map

/-- A table is collected from its own cursor. -/
theorem ofCursor_cursor (table : NameTable) : ofCursor table.cursor = table := by
  rw [ofCursor, Cursor.toList_cursor, ofItems_names, ofList_toList]

end NameTable

namespace TableForm

open NameTable

/-- All forms but the standard one give the table of the names. -/
theorem build_eq_ofList {form : TableForm} (hform : form ≠ .standard)
    (names : List String) : form.build names = ofList names := by
  cases form with
  | array => rfl
  | slices =>
      rw [build, ofSlices_eq_ofItems]
      exact ofItems_map_eq_ofList (fun _ => String.copy_toSlice) names
  | vector => rfl
  | cursor => exact ofCursor_cursor (ofList names)
  | borrowed =>
      exact ofItems_map_eq_ofList (fun _ => String.copy_toSlice) names
  | owned => exact ofItems_names names
  | spelled =>
      exact ofItems_map_eq_ofList (fun _ => String.ofList_toList) names
  | escaped => exact ofItems_map_eq_ofList (fun _ => rfl) names
  | standard => exact absurd rfl hform

theorem toList_cursor_build {form : TableForm} (hform : form ≠ .standard)
    (names : List String) : (form.build names).cursor.toList = names := by
  rw [build_eq_ofList hform, Cursor.toList_cursor, toList_ofList]

theorem build_toList_cursor {form : TableForm} (hform : form ≠ .standard)
    (table : NameTable) : form.build table.cursor.toList = table := by
  rw [build_eq_ofList hform, Cursor.toList_cursor, ofList_toList]

end TableForm

/-- No way of building a table loses anything.  Names in any form, or in items
of any kind, give the same table, and its cursor reads them again; what a
cursor reads gives its table again; and tables that answer alike are the same.
So a labeller that is built anew from the names of another one labels as that
one does. -/
theorem NameTable.built_without_loss {ρ : Type} [Resolver ρ] :
    (∀ (names : List String) (form other : TableForm),
      form ≠ .standard → other ≠ .standard →
        form.build names = other.build names ∧
          (form.build names).cursor.toList = names) ∧
    (∀ (α : Type) [NameItem α] (items : List α) (names : List String),
      items.map NameItem.toName = names →
        ofItems items = ofList names ∧
          (ofItems items).cursor.toList = names) ∧
    (∀ table : NameTable, ofCursor table.cursor = table) ∧
    (∀ table other : NameTable,
      (table = other ↔ table.size = other.size ∧
        ∀ index, table.get? index = other.get? index) ∧
      (table.size = other.size →
        (∀ index < table.size, table.get? index = other.get? index) →
          table = other)) ∧
    ∀ (labeller : Labeller ρ) (form : TableForm), form ≠ .standard →
      ∀ entry : Option Node,
        (Labeller.mk (form.build labeller.names.cursor.toList)
          labeller.resolver).label entry = labeller.label entry := by
  refine ⟨?_, ?_, ofCursor_cursor, ?_, ?_⟩
  · intro names form other hform hother
    refine ⟨?_, TableForm.toList_cursor_build hform names⟩
    rw [TableForm.build_eq_ofList hform, TableForm.build_eq_ofList hother]
  · intro α _ items names hnames
    rw [ofItems_eq_ofList, hnames, Cursor.toList_cursor, toList_ofList]
    exact ⟨rfl, rfl⟩
  · intro table other
    exact ⟨eq_iff_forall_get?_eq, eq_of_forall_lt_get?_eq⟩
  · intro labeller form hform entry
    rw [TableForm.build_toList_cursor hform]

/-- Repeated and empty names are kept, whether items were kept or replaced. -/
theorem NameTable.built_without_loss_repeated :
    let names := ["stat", "", "stat"]
    let items : List Escaped := [.kept "stat", .replaced "", .kept "stat"]
    let labeller : Labeller NameResolver := ⟨.ofList names, .escaping true⟩
    TableForm.slices ≠ .standard ∧ TableForm.spelled ≠ .standard ∧
      TableForm.slices.build names = TableForm.spelled.build names ∧
      items.map NameItem.toName = names ∧
      (ofItems items).cursor.toList = names ∧
      ofList names ≠ ofList ["stat", ""] ∧
      ∀ entry : Option Node,
        (Labeller.mk (TableForm.spelled.build labeller.names.cursor.toList)
          labeller.resolver).label entry = labeller.label entry := by
  intro names items labeller
  have hslices : TableForm.slices ≠ .standard := by decide
  have hspelled : TableForm.spelled ≠ .standard := by decide
  have hitems : items.map NameItem.toName = names := rfl
  obtain ⟨hforms, hread, _, hsame, hlabels⟩ :=
    @built_without_loss NameResolver _
  refine ⟨hslices, hspelled, (hforms names _ _ hslices hspelled).1, hitems,
    (hread Escaped items names hitems).2, fun heq => ?_,
    hlabels labeller _ hspelled⟩
  have hsize := ((hsame _ _).1.mp heq).1
  exact absurd hsize (by decide)

end TreeLabels
