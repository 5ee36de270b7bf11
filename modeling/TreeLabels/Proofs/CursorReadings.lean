/-
The ways of reading a table.  Every reading moves a cursor by one name until it
stands at the end of its table, where it stays.  So names read one by one, names
looked up by index, the size of the table and the warnings about missing names
agree, at the end and past it as everywhere else.
-/
import TreeLabels.NameTable
import TreeLabels.Proofs.Diagnostics

namespace TreeLabels

namespace Cursor

/-- The cursor after a number of readings. -/
def advance : Nat → Cursor → Cursor
  | 0, cursor => cursor
  | count + 1, cursor => advance count cursor.next.2

section OneReading

variable (cursor : Cursor)

@[simp] theorem table_next : cursor.next.2.table = cursor.table := by
  unfold next
  split <;> rfl

/-- One reading moves a cursor by one name, but not past the end. -/
theorem position_next :
    cursor.next.2.position =
      min (cursor.position + 1) cursor.table.size := by
  have hle := cursor.position_le_size
  unfold next
  split
  · next h => exact (Nat.min_eq_left h).symm
  · next h =>
      show cursor.position = _
      omega

end OneReading

section Readings

theorem table_advance (count : Nat) (cursor : Cursor) :
    (advance count cursor).table = cursor.table := by
  induction count generalizing cursor with
  | zero => rfl
  | succ count ih => rw [advance, ih, table_next]

/-- Readings in a row move a cursor by their number, but not past the end. -/
theorem position_advance (count : Nat) (cursor : Cursor) :
    (advance count cursor).position =
      min (cursor.position + count) cursor.table.size := by
  induction count generalizing cursor with
  | zero => exact (Nat.min_eq_left cursor.position_le_size).symm
  | succ count ih =>
      rw [advance, ih, table_next, position_next]
      omega

/-- Each reading leaves one name less, as long as there is one. -/
theorem remaining_advance (count : Nat) (cursor : Cursor) :
    (advance count cursor).remaining = cursor.remaining - count := by
  rw [remaining, remaining, table_advance, position_advance]
  omega

/-- The name read next is the one at the place that the readings so far have
come to; past the end there is none to be looked up either. -/
theorem fst_next_advance (count : Nat) (cursor : Cursor) :
    (advance count cursor).next.1 =
      cursor.table.get? (cursor.position + count) := by
  rw [fst_next, table_advance, position_advance]
  by_cases hend : cursor.position + count ≤ cursor.table.size
  · rw [Nat.min_eq_left hend]
  · have hle : cursor.table.size ≤ cursor.position + count := by omega
    rw [Nat.min_eq_right hle, NameTable.get?_eq_none_iff.mpr hle]
    exact NameTable.get?_eq_none_iff.mpr (Nat.le_refl _)

/-- A cursor at the end is left alone by every further reading. -/
theorem next_advance_of_le {count : Nat} {cursor : Cursor}
    (hcount : cursor.remaining ≤ count) :
    (advance count cursor).next = (none, advance count cursor) := by
  apply next_of_remaining_eq_zero
  rw [remaining_advance]
  omega

/-- Every reading is what the cursor shows that the readings before it left. -/
theorem readings_eq_map_advance (count : Nat) (cursor : Cursor) :
    readings count cursor =
      (List.range count).map fun call =>
        ⟨(advance call cursor).next.1, (advance (call + 1) cursor).remaining⟩ := by
  induction count generalizing cursor with
  | zero => rfl
  | succ count ih =>
      rw [readings, ih, List.range_succ_eq_map, List.map_cons, List.map_map]
      rfl

end Readings

end Cursor

namespace NameTable

/-- What a reading of a fresh cursor has to show after so many before it: a name
and how many are left behind it, or at the end nothing. -/
def reading (table : NameTable) (call : Nat) : Cursor.Reading :=
  if h : call < table.size then
    ⟨some (table.get call h), table.size - (call + 1)⟩
  else
    ⟨none, 0⟩

/-- All ways of reading a table tell the same.  A fresh cursor has the whole
table before it; each reading gives the name that is looked up under its number
and leaves one name less, and at the end a cursor stays as it is.  A name is
found exactly within the table, there is a first name unless the table is empty,
and a rule is warned of exactly if its name is not found, with the number of the
names that a cursor reads. -/
structure ReadConsistently (table : NameTable) : Prop where
  fresh : table.cursor.remaining = table.size
  trace : ∀ count, table.cursor.trace count =
    ⟨none, table.size⟩ :: (List.range count).map table.reading
  found : ∀ call, (table.reading call).name = table.get? call
  exhausted : ∀ count, table.size ≤ count →
    (table.cursor.advance count).next = (none, table.cursor.advance count)
  found_iff : ∀ index : UInt64,
    (table.get? index.toNat).isSome = true ↔ index.toNat < table.size
  isEmpty_iff : table.isEmpty = true ↔ table.cursor.next.1 = none
  warned : ∀ (resolver : NameResolver) (index : UInt64)
    (alt : Option AltNumber) (flag : Option Bool),
    (resolve resolver ⟨.rule index alt, flag⟩ table).events.map Event.report =
      if table.get? index.toNat = none then
        [⟨.warn, "arbor_tree::trees", "rule index has no name",
          [("rule_index", decimal index.toNat),
            ("rule_count", decimal table.cursor.toList.length)]⟩]
      else []

section Table

variable (table : NameTable)

theorem reading_eq (call : Nat) :
    table.reading call = ⟨table.get? call, table.size - (call + 1)⟩ := by
  unfold reading
  split
  · next h => rw [get?_eq_some_get h]
  · next h =>
      have hleft : table.size - (call + 1) = 0 := by omega
      rw [get?_eq_none_iff.mpr (Nat.le_of_not_lt h), hleft]

theorem readings_cursor (count : Nat) :
    table.cursor.readings count = (List.range count).map table.reading := by
  rw [Cursor.readings_eq_map_advance]
  apply List.map_congr_left
  intro call _
  have hstart : table.cursor.position + call = call := Nat.zero_add call
  rw [Cursor.fst_next_advance, Cursor.remaining_advance, hstart, reading_eq]
  rfl

theorem isSome_get?_iff {index : Nat} :
    (table.get? index).isSome = true ↔ index < table.size := by
  rw [Option.isSome_iff_ne_none, ne_eq, get?_eq_none_iff, Nat.not_le]

/-- Only an empty table has no first name. -/
theorem isEmpty_iff_fst_next :
    table.isEmpty = true ↔ table.cursor.next.1 = none := by
  rw [isEmpty_iff_size, Cursor.fst_next, get?_eq_none_iff]
  exact Nat.le_zero.symm

theorem report_resolve_rule (resolver : NameResolver) (index : UInt64)
    (alt : Option AltNumber) (flag : Option Bool) :
    (resolve resolver ⟨.rule index alt, flag⟩ table).events.map Event.report =
      if table.get? index.toNat = none then
        [⟨.warn, "arbor_tree::trees", "rule index has no name",
          [("rule_index", decimal index.toNat),
            ("rule_count", decimal table.cursor.toList.length)]⟩]
      else [] := by
  rw [NameResolver.events_resolve, unnamedIndex?, Cursor.toList_cursor,
    length_toList]
  by_cases hsize : table.size ≤ index.toNat
  · rw [if_pos hsize, if_pos (get?_eq_none_iff.mpr hsize)]
    rfl
  · rw [if_neg hsize, if_neg (mt get?_eq_none_iff.mp hsize)]
    rfl

end Table

/-- Names read one by one and names looked up by index agree with each other,
with the size of the table, and with the warnings about missing names. -/
theorem read_consistently (table : NameTable) : table.ReadConsistently where
  fresh := rfl
  trace count := congrArg (_ :: ·) (table.readings_cursor count)
  found call := congrArg Cursor.Reading.name (table.reading_eq call)
  exhausted _ hcount := Cursor.next_advance_of_le hcount
  found_iff _ := table.isSome_get?_iff
  isEmpty_iff := table.isEmpty_iff_fst_next
  warned := table.report_resolve_rule

/-- An empty name is read as a name, unlike the end behind it, and counts among
the names that a warning tells of. -/
theorem read_consistently_past_end :
    let table : NameTable := .ofList ["stat", ""]
    table.cursor.trace 4 =
        [⟨none, 2⟩, ⟨some "stat", 1⟩, ⟨some "", 0⟩, ⟨none, 0⟩, ⟨none, 0⟩] ∧
      (table.cursor.advance 3).next = (none, table.cursor.advance 3) ∧
      (resolve (NameResolver.escaping true) ⟨.rule 2 none, some true⟩
          table).events.map Event.report =
        [⟨.warn, "arbor_tree::trees", "rule index has no name",
          [("rule_index", "2"), ("rule_count", "2")]⟩] := by
  intro table
  have hreads := read_consistently table
  refine ⟨?_, hreads.exhausted 3 (by decide), ?_⟩
  · rw [hreads.trace]
    decide
  · rw [hreads.warned, Cursor.toList_cursor]
    decide

end NameTable

end TreeLabels
