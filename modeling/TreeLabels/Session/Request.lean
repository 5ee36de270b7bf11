/-
Requests of a session and the replies to them.  A query reads something and a
request may also store it; tables and labellers are named by where they come
from.  Replies describe nodes, list the contents of tables, and group equal
values: every value of a list is told the position of the first value equal to
it, which is searched through a hash map.  Some replies carry a text, which later
requests may use.
-/
import Std.Data.HashMap
import TreeLabels.Labeller
import TreeLabels.NameTable

namespace TreeLabels

universe u

/-- Where a table comes from: it was stored, it belongs to a stored labeller, or
it is built on the spot. -/
inductive TableSource where
  | stored (id : String)
  | ofLabeller (id : String)
  | built (form : TableForm) (names : List String)
deriving DecidableEq, Repr

/-- Where a labeller comes from: it was stored, it is the standard one, or it is
made from a table, with the plain resolver or with a given one. -/
inductive LabellerSource where
  | stored (id : String)
  | standard
  | plain (table : TableSource)
  | made (table : TableSource) (resolver : ResolverChoice)
deriving DecidableEq, Repr

/-- What a session can be asked. -/
inductive Query where
  | escape (text : String) (spaces : Bool)
  | nodeText (table : TableSource) (node : Node) (layers : List Layer)
  | resolve (table : TableSource) (resolver : ResolverChoice) (node : Node)
      (layers : List Layer)
  | label (labeller : LabellerSource) (node : Option Node)
      (layers : List Layer)
  | dump (labeller : LabellerSource) (nodes : List (Option Node))
  | describe (node : Node) (layers : List Layer)
  | readNames (table : TableSource) (indices : List UInt64) (count : Nat)
  | groupTables (tables : List TableSource)
  | groupKinds (kinds : List NodeKind)
  | compareResolvers (resolvers : List NameResolver)
  | inspectKind (kind : NodeKind)
  | inspectTable (table : TableSource)
  | inspectResolver (resolver : NameResolver)
  | inspectLabeller (labeller : LabellerSource)
deriving DecidableEq, Repr

/-- One step of a session. -/
inductive Request where
  | ask (query : Query)
  | setTable (id : String) (table : TableSource)
  | setLabeller (id : String) (labeller : LabellerSource)
deriving DecidableEq, Repr

/-- What there is to say about a node seen through layers. -/
structure NodeDescription where
  kindIsError : Bool
  kindIsTerminal : Bool
  nodeIsError : Bool
  sameKind : Bool
deriving DecidableEq, Repr

/-- Describe a node as it looks through layers. -/
def Node.describe (node : Node) (layers : List Layer) : NodeDescription :=
  let seen := node.through layers
  ⟨seen.kind.isError, seen.kind.isTerminal, seen.isError,
    seen.kind == node.kind⟩

/-- The contents of a table, read in every way it offers. -/
structure Listing where
  size : Nat
  isEmpty : Bool
  names : List String
  found : List (Option String)
  readings : List Cursor.Reading
deriving DecidableEq, Repr

/-- Read a table as a whole, at some indices, and with a number of readings of a
fresh cursor. -/
def NameTable.listing (table : NameTable) (indices : List UInt64)
    (count : Nat) : Listing where
  size := table.size
  isEmpty := table.isEmpty
  names := table.cursor.toList
  found := indices.map fun index => table.get? index.toNat
  readings := table.cursor.trace count

section Grouping

variable {α : Type u}

/-- The first positions of the remaining values, when `seen` holds the first
position of every value before `position`. -/
def firstPositionsFrom [BEq α] [Hashable α] (seen : Std.HashMap α Nat)
    (position : Nat) : List α → List Nat
  | [] => []
  | value :: rest =>
      match seen[value]? with
      | some first => first :: firstPositionsFrom seen (position + 1) rest
      | none =>
          position ::
            firstPositionsFrom (seen.insert value position) (position + 1) rest

/-- For each value, the smallest position of a value equal to it. -/
def firstPositions [BEq α] [Hashable α] (values : List α) : List Nat :=
  firstPositionsFrom ∅ 0 values

/-- For each value, whether it equals the one at the head of the list. -/
def equalToHead [BEq α] : List α → List Bool
  | [] => []
  | head :: rest => (head :: rest).map (· == head)

/-- For each pair of values, row by row, whether they are equal. -/
def equalityMatrix [BEq α] (values : List α) : List (List Bool) :=
  values.map fun left => values.map fun right => left == right

/-- How the values of a list fall into groups of equal ones. -/
structure Groups where
  first : List Nat
  equalToHead : List Bool
deriving DecidableEq, Repr

def Groups.ofList [BEq α] [Hashable α] (values : List α) : Groups :=
  ⟨firstPositions values, TreeLabels.equalToHead values⟩

end Grouping

/-- What a session answers. -/
inductive Reply where
  | escaped (result : Escaped)
  | text (result : Logged String)
  | dump (labels : Logged (List String))
  | description (node : NodeDescription)
  | listing (table : Listing)
  | groups (groups : Groups)
  | matrix (rows : List (List Bool))
  | inspected (shown : String)
  | stored (size : Nat)
deriving DecidableEq, Repr

/-- The text of a reply, if it has one; that of a dump is its lines. -/
def Reply.text? : Reply → Option String
  | escaped result => some result.text
  | text result => some result.value
  | dump labels => some (joinLines labels.value)
  | inspected shown => some shown
  | description _ | listing _ | groups _ | matrix _ | stored _ => none

end TreeLabels
