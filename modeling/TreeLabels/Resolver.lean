/-
Resolvers.  A resolver gives the text of one node under a table of rule names; it
always gives one.  The usual one reads a rule node as the name of its rule, with
the number of the alternative after a colon if there is one, and a token as its
own text.  A rule that the table does not name reads as its bare index.  Other
resolvers can be chosen instead: one answers every node with the same text, and
one sums up the table.
-/
import TreeLabels.Event
import TreeLabels.NameTable
import TreeLabels.Node
import TreeLabels.Whitespace

namespace TreeLabels

/-- Ways of turning a node into text. -/
class Resolver (ρ : Type) where
  resolve : ρ → Node → NameTable → Logged String

export Resolver (resolve)

/-- A resolver that looks at the kind of a node and at nothing else of it. -/
class KindResolver (ρ : Type) [Resolver ρ] : Prop where
  resolve_congr (resolver : ρ) {a b : Node} (names : NameTable) :
    a.kind = b.kind → resolve resolver a names = resolve resolver b names

/-- What happens to whitespace in the text of a token. -/
inductive TokenWhitespace where
  | keep
  | escape (spaces : Bool)
deriving DecidableEq, Repr

instance : Inhabited TokenWhitespace := ⟨.keep⟩

/-- Apply the rule for whitespace to the text of a token. -/
def TokenWhitespace.apply : TokenWhitespace → String → String
  | keep, text => text
  | escape spaces, text => (escapeWhitespace spaces text).text

/-- Rule nodes read by name and tokens by their text. -/
structure NameResolver where
  whitespace : TokenWhitespace
deriving DecidableEq, Inhabited, Repr

namespace NameResolver

/-- Token text stays as it is. -/
def plain : NameResolver :=
  ⟨.keep⟩

/-- Token text is escaped, spaces only on request. -/
def escaping (spaces : Bool) : NameResolver :=
  ⟨.escape spaces⟩

/-- A rule name, with the alternative after a colon. -/
def alternativeText (name : String) : Option AltNumber → String
  | none => name
  | some alt => name ++ ":" ++ decimal alt.toNat

/-- The text of a rule node.  Without a name the alternative does not show. -/
def ruleText (names : NameTable) (index : UInt64) (alt : Option AltNumber) :
    Logged String :=
  match names.get? index.toNat with
  | some name => pure (alternativeText name alt)
  | none => do
      Logged.emit (.unnamedRule index names.size)
      return decimal index.toNat

/-- The text of a node of some kind. -/
def kindText (resolver : NameResolver) (names : NameTable) :
    NodeKind → Logged String
  | .rule index alt => ruleText names index alt
  | .terminal text => pure (resolver.whitespace.apply text)
  | .error text => pure (resolver.whitespace.apply text)

instance : Resolver NameResolver where
  resolve resolver node names := resolver.kindText names node.kind

instance : KindResolver NameResolver where
  resolve_congr resolver _ _ names h := congrArg (resolver.kindText names) h

end NameResolver

/-- The text of a node, whitespace included as it is. -/
def nodeText (node : Node) (names : NameTable) : Logged String :=
  resolve NameResolver.plain node names

namespace NameResolver

theorem ruleText_of_lt {names : NameTable} {index : UInt64}
    (h : index.toNat < names.size) (alt : Option AltNumber) :
    ∃ name, names.get? index.toNat = some name ∧
      ruleText names index alt = pure (alternativeText name alt) := by
  cases hget : names.get? index.toNat with
  | none => exact absurd (NameTable.get?_eq_none_iff.mp hget) (Nat.not_le.mpr h)
  | some name => exact ⟨name, rfl, by simp [ruleText, hget]⟩

theorem ruleText_of_le {names : NameTable} {index : UInt64}
    (h : names.size ≤ index.toNat) (alt : Option AltNumber) :
    ruleText names index alt =
      ⟨decimal index.toNat, [.unnamedRule index names.size]⟩ := by
  rw [ruleText, NameTable.get?_eq_none_iff.mpr h]
  rfl

/-- Layers around a node do not change its text or the events of reading it. -/
theorem resolve_through (resolver : NameResolver) (node : Node)
    (layers : List Layer) (names : NameTable) :
    resolve resolver (node.through layers) names =
      resolve resolver node names :=
  KindResolver.resolve_congr resolver names (Node.kind_through node layers)

end NameResolver

/-- Every node reads the same. -/
structure FixedText where
  text : String
deriving DecidableEq, Repr

instance : Resolver FixedText where
  resolve resolver _ _ := pure resolver.text

instance : KindResolver FixedText where
  resolve_congr _ _ _ _ _ := rfl

/-- Every node reads as the table: its size, a bar, and the names with commas
between them. -/
inductive TableSummary where
  | summary
deriving DecidableEq, Repr

/-- The size and the names of a table in one text. -/
def NameTable.summary (names : NameTable) : String :=
  decimal names.size ++ "|" ++ ",".intercalate names.toList

instance : Resolver TableSummary where
  resolve _ _ names := pure names.summary

instance : KindResolver TableSummary where
  resolve_congr _ _ _ _ _ := rfl

/-- One of the resolvers. -/
inductive ResolverChoice where
  | names (resolver : NameResolver)
  | fixed (resolver : FixedText)
  | summary (resolver : TableSummary)
deriving DecidableEq, Repr

namespace ResolverChoice

instance : Inhabited ResolverChoice := ⟨names default⟩

/-- The text that the chosen resolver gives. -/
def text (choice : ResolverChoice) (node : Node) (table : NameTable) :
    Logged String :=
  match choice with
  | names resolver => resolve resolver node table
  | fixed resolver => resolve resolver node table
  | summary resolver => resolve resolver node table

instance : Resolver ResolverChoice := ⟨text⟩

instance : KindResolver ResolverChoice where
  resolve_congr choice _ _ table h := by
    cases choice with
    | names resolver => exact KindResolver.resolve_congr resolver table h
    | fixed resolver => rfl
    | summary resolver => rfl

end ResolverChoice

end TreeLabels
