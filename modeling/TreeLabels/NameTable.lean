/-
Tables of rule names.  The names stand in the order of the rules, repetitions and
empty names included; a table never changes.  A cursor reads a table name by name:
it stands before one of the names or at the end, where it stays however often it
is asked for another.  Names for a table may come as an array, a vector, slices
of a larger text, or any list of items that a name can be taken from; the table is
the same.
-/
import TreeLabels.Whitespace

namespace TreeLabels

/-- The names of the grammar rules, by rule index. -/
structure NameTable where
  names : Array String
deriving DecidableEq, Hashable, Inhabited, Repr

namespace NameTable

def ofList (names : List String) : NameTable :=
  ⟨names.toArray⟩

def toList (table : NameTable) : List String :=
  table.names.toList

def size (table : NameTable) : Nat :=
  table.names.size

def isEmpty (table : NameTable) : Bool :=
  table.names.isEmpty

/-- The name of a rule within the table. -/
def get (table : NameTable) (index : Nat) (h : index < table.size) : String :=
  have _inBounds : index < table.names.size := h
  table.names[index]

/-- The name of a rule, if the table has one. -/
def get? (table : NameTable) (index : Nat) : Option String :=
  table.names[index]?

/-- Add a name for the next rule. -/
def push (table : NameTable) (name : String) : NameTable :=
  ⟨table.names.push name⟩

@[simp] theorem toList_ofList (names : List String) :
    (ofList names).toList = names := rfl

@[simp] theorem ofList_toList (table : NameTable) :
    ofList table.toList = table := rfl

@[simp] theorem toList_default : (default : NameTable).toList = [] := rfl

@[simp] theorem toList_push (table : NameTable) (name : String) :
    (table.push name).toList = table.toList ++ [name] :=
  Array.toList_push

theorem toList_inj {table other : NameTable} :
    table.toList = other.toList ↔ table = other := by
  cases table
  cases other
  simp [toList, Array.toList_inj]

@[simp] theorem length_toList (table : NameTable) :
    table.toList.length = table.size := rfl

@[simp] theorem getElem?_toList (table : NameTable) (index : Nat) :
    table.toList[index]? = table.get? index :=
  Array.getElem?_toList

theorem isEmpty_iff_size {table : NameTable} :
    table.isEmpty = true ↔ table.size = 0 := by
  simp [isEmpty, size]

theorem get?_eq_some_get {table : NameTable} {index : Nat}
    (h : index < table.size) : table.get? index = some (table.get index h) :=
  Array.getElem?_eq_getElem h

theorem get?_eq_none_iff {table : NameTable} {index : Nat} :
    table.get? index = none ↔ table.size ≤ index := by
  simp [get?, size]

theorem lt_size_of_get? {table : NameTable} {index : Nat} {name : String}
    (hname : table.get? index = some name) : index < table.size := by
  refine Nat.lt_of_not_le fun hle => ?_
  rw [get?_eq_none_iff.mpr hle] at hname
  contradiction

theorem mem_toList_iff {table : NameTable} {name : String} :
    name ∈ table.toList ↔ ∃ index, table.get? index = some name := by
  simp only [List.mem_iff_getElem?, getElem?_toList]

end NameTable

/-- A place in a table, from which the names after it are read. -/
structure Cursor where
  table : NameTable
  position : Nat
  position_le_size : position ≤ table.size

namespace NameTable

/-- The cursor before the first name. -/
def cursor (table : NameTable) : Cursor :=
  ⟨table, 0, Nat.zero_le _⟩

end NameTable

namespace Cursor

/-- How many names are still to be read. -/
def remaining (cursor : Cursor) : Nat :=
  cursor.table.size - cursor.position

/-- Read one name and move past it; at the end there is none. -/
def next (cursor : Cursor) : Option String × Cursor :=
  if h : cursor.position < cursor.table.size then
    (some (cursor.table.get cursor.position h),
      ⟨cursor.table, cursor.position + 1, h⟩)
  else
    (none, cursor)

theorem next_of_remaining_eq_zero {cursor : Cursor}
    (h : cursor.remaining = 0) : cursor.next = (none, cursor) := by
  unfold remaining at h
  exact dif_neg (by omega)

theorem remaining_next (cursor : Cursor) :
    cursor.next.2.remaining = cursor.remaining - 1 := by
  unfold next
  split <;> simp only [remaining] <;> omega

theorem fst_next (cursor : Cursor) :
    cursor.next.1 = cursor.table.get? cursor.position := by
  unfold next
  split
  · next h => exact (NameTable.get?_eq_some_get h).symm
  · next h =>
      exact (NameTable.get?_eq_none_iff.mpr (Nat.le_of_not_lt h)).symm

theorem remaining_lt_of_next_eq_some {cursor rest : Cursor} {name : String}
    (h : cursor.next = (some name, rest)) :
    rest.remaining < cursor.remaining := by
  have hrest : rest = cursor.next.2 := by rw [h]
  have hpos : cursor.remaining ≠ 0 := by
    intro hzero
    rw [next_of_remaining_eq_zero hzero] at h
    simp at h
  rw [hrest, remaining_next]
  omega

/-- All names still to be read, in order. -/
def toList (cursor : Cursor) : List String :=
  match _h : cursor.next with
  | (none, _) => []
  | (some name, rest) => name :: rest.toList
termination_by cursor.remaining
decreasing_by exact remaining_lt_of_next_eq_some ‹_›

/-- What a cursor still reads is the table without the names before it. -/
theorem toList_eq_drop (cursor : Cursor) :
    cursor.toList = cursor.table.toList.drop cursor.position := by
  fun_induction toList cursor with
  | case1 cursor rest h =>
      have hnone : cursor.table.get? cursor.position = none := by
        rw [← fst_next, h]
      rw [NameTable.get?_eq_none_iff] at hnone
      exact (List.drop_eq_nil_of_le hnone).symm
  | case2 cursor name rest h ih =>
      by_cases hlt : cursor.position < cursor.table.size
      · rw [next, dif_pos hlt, Prod.mk.injEq, Option.some.injEq] at h
        obtain ⟨rfl, rfl⟩ := h
        rw [ih]
        exact (List.drop_eq_getElem_cons (NameTable.length_toList _ ▸ hlt)).symm
      · simp [next, hlt] at h

@[simp] theorem toList_cursor (table : NameTable) :
    table.cursor.toList = table.toList := by
  rw [toList_eq_drop]
  rfl

/-- One observation of a cursor: the name just read, if any, and how many names
are left. -/
structure Reading where
  name : Option String
  remaining : Nat
deriving DecidableEq, Repr

/-- What `count` readings in a row give. -/
def readings : Nat → Cursor → List Reading
  | 0, _ => []
  | count + 1, cursor =>
      ⟨cursor.next.1, cursor.next.2.remaining⟩ :: readings count cursor.next.2

/-- The readings of a cursor, after one that takes no name. -/
def trace (count : Nat) (cursor : Cursor) : List Reading :=
  ⟨none, cursor.remaining⟩ :: readings count cursor

end Cursor

/-- Items that a rule name can be taken from. -/
class NameItem (α : Type) where
  toName : α → String

instance : NameItem String := ⟨id⟩

instance : NameItem String.Slice := ⟨String.Slice.copy⟩

instance : NameItem (List Char) := ⟨String.ofList⟩

instance : NameItem Escaped := ⟨Escaped.text⟩

namespace NameTable

variable {α : Type} [NameItem α]

/-- Take the names of the items one after the other. -/
def ofItems (items : List α) : NameTable :=
  items.foldl (fun table item => table.push (NameItem.toName item)) default

def ofArray (names : Array String) : NameTable :=
  ⟨names⟩

def ofSlices (names : Array String.Slice) : NameTable :=
  ⟨names.map String.Slice.copy⟩

def ofVector {n : Nat} (names : Vector String n) : NameTable :=
  ⟨names.toArray⟩

/-- The table of the names that a cursor has still to read. -/
def ofCursor (cursor : Cursor) : NameTable :=
  ofItems cursor.toList

private theorem toList_foldl_push (items : List α) (table : NameTable) :
    (items.foldl (fun table item => table.push (NameItem.toName item))
      table).toList = table.toList ++ items.map NameItem.toName := by
  induction items generalizing table with
  | nil => simp
  | cons item items ih => simp [ih]

@[simp] theorem toList_ofItems (items : List α) :
    (ofItems items).toList = items.map NameItem.toName := by
  simp [ofItems, toList_foldl_push]

end NameTable

/-- The forms in which a list of names can be handed over: as an array, as slices
of other texts, as a vector, through the cursor of another table, or one by one
as slices, texts, characters or outcomes of escaping; or not at all. -/
inductive TableForm where
  | array
  | slices
  | vector
  | cursor
  | borrowed
  | owned
  | spelled
  | escaped
  | standard
deriving DecidableEq, Repr

/-- Build a table from names in the given form.  The standard table has no names,
whatever is handed over. -/
def TableForm.build : TableForm → List String → NameTable
  | array, names => .ofArray names.toArray
  | slices, names => .ofSlices (names.map String.toSlice).toArray
  | vector, names => .ofVector (Vector.mk names.toArray rfl)
  | cursor, names => .ofCursor (NameTable.ofList names).cursor
  | borrowed, names => .ofItems (names.map String.toSlice)
  | owned, names => .ofItems names
  | spelled, names => .ofItems (names.map String.toList)
  | escaped, names => .ofItems (names.map Escaped.kept)
  | standard, _ => default

end TreeLabels
