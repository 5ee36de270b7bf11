/-
Nodes of a parse tree, as far as a label depends on them: what the node is, and
whether it counts as an error.  A node is seen directly, or through any number
of layers: a handle answers everything as the node itself does, a reference
passes on the kind alone.
-/

namespace TreeLabels

/-- The number of the alternative a rule matched.  Alternatives are counted from
one. -/
structure AltNumber where
  val : UInt64
  pos : 0 < val
deriving DecidableEq, Hashable, Repr

namespace AltNumber

/-- Zero stands for an alternative that was not recorded. -/
def ofUInt64? (n : UInt64) : Option AltNumber :=
  if h : 0 < n then some ⟨n, h⟩ else none

def toNat (alt : AltNumber) : Nat :=
  alt.val.toNat

theorem toNat_pos (alt : AltNumber) : 0 < alt.toNat :=
  UInt64.lt_iff_toNat_lt.mp alt.pos

theorem toNat_inj {a b : AltNumber} : a.toNat = b.toNat ↔ a = b := by
  cases a
  cases b
  simp [toNat, UInt64.toNat_inj]

theorem toNat_lt (alt : AltNumber) : alt.toNat < UInt64.size :=
  UInt64.toNat_lt_size alt.val

/-- Every positive number of one word counts an alternative. -/
theorem exists_toNat_eq {n : Nat} (hpos : 0 < n) (hlt : n < UInt64.size) :
    ∃ alt : AltNumber, alt.toNat = n := by
  have hval : (UInt64.ofNat n).toNat = n := UInt64.toNat_ofNat_of_lt' hlt
  refine ⟨⟨UInt64.ofNat n, ?_⟩, hval⟩
  rw [UInt64.lt_iff_toNat_lt, hval]
  exact hpos

end AltNumber

/-- What a node is: the use of a grammar rule, a matched token, or the token text
that stands where recognition failed. -/
inductive NodeKind where
  | rule (index : UInt64) (alt : Option AltNumber)
  | terminal (text : String)
  | error (text : String)
deriving DecidableEq, Hashable, Repr

namespace NodeKind

def isError : NodeKind → Bool
  | error _ => true
  | _ => false

/-- Tokens, erroneous ones included. -/
def isTerminal : NodeKind → Bool
  | rule _ _ => false
  | terminal _ => true
  | error _ => true

end NodeKind

/-- A node: its kind, and its own answer to whether it is an error, if it gives
one. -/
structure Node where
  kind : NodeKind
  errorFlag : Option Bool
deriving DecidableEq, Repr

namespace Node

/-- The node of a kind that leaves the question of errors to the kind. -/
def ofKind (kind : NodeKind) : Node :=
  ⟨kind, none⟩

/-- A node is an error if it says so itself, or else if its kind is one. -/
def isError (node : Node) : Bool :=
  node.errorFlag.getD node.kind.isError

@[simp] theorem isError_ofKind (kind : NodeKind) :
    (ofKind kind).isError = kind.isError := rfl

end Node

/-- One layer between a node and whoever looks at it. -/
inductive Layer where
  | handle
  | reference
deriving DecidableEq, Repr

/-- What a node looks like from outside one layer. -/
def Layer.wrap : Layer → Node → Node
  | handle, node => node
  | reference, node => .ofKind node.kind

/-- What a node looks like from outside all the layers, the innermost first. -/
def Node.through (node : Node) (layers : List Layer) : Node :=
  layers.foldl (fun seen layer => layer.wrap seen) node

namespace Node

@[simp] theorem through_nil (node : Node) : node.through [] = node := rfl

@[simp] theorem through_cons (node : Node) (layer : Layer)
    (layers : List Layer) :
    node.through (layer :: layers) = (layer.wrap node).through layers := rfl

@[simp] theorem kind_wrap (layer : Layer) (node : Node) :
    (layer.wrap node).kind = node.kind := by
  cases layer <;> rfl

/-- No layer hides the kind of a node. -/
@[simp] theorem kind_through (node : Node) (layers : List Layer) :
    (node.through layers).kind = node.kind := by
  induction layers generalizing node with
  | nil => rfl
  | cons layer layers ih => rw [through_cons, ih, kind_wrap]

end Node

end TreeLabels
