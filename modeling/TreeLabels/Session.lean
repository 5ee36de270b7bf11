/-
Sessions.  A session carries out requests one after the other, on what the
earlier ones have stored, and remembers its replies.  What is stored is a copy: a
labeller keeps the table it was made from whatever happens to the name of that
table later.
-/
import TreeLabels.Inspect
import TreeLabels.Session.Request

namespace TreeLabels

/-- Why a request has no reply. -/
inductive Fault where
  | unknownTable (id : String)
  | unknownLabeller (id : String)
  | uninspectable
  | noText (step : Nat)
deriving DecidableEq, Repr

/-- The fault in words. -/
def Fault.message : Fault → String
  | unknownTable id => "no table is stored under " ++ id
  | unknownLabeller id => "no labeller is stored under " ++ id
  | uninspectable => "the resolver of this labeller cannot be inspected"
  | noText step => "no text was answered in step " ++ decimal step

/-- The tables and the labellers that are stored, by name. -/
structure Store where
  tables : String → Option NameTable
  labellers : String → Option (Labeller ResolverChoice)

namespace Store

def empty : Store :=
  ⟨fun _ => none, fun _ => none⟩

def putTable (store : Store) (id : String) (table : NameTable) : Store :=
  { store with
    tables := fun key => if key = id then some table else store.tables key }

def putLabeller (store : Store) (id : String)
    (labeller : Labeller ResolverChoice) : Store :=
  { store with
    labellers := fun key =>
      if key = id then some labeller else store.labellers key }

/-- The table that a source stands for. -/
def table (store : Store) : TableSource → Except Fault NameTable
  | .stored id =>
      match store.tables id with
      | some table => .ok table
      | none => .error (.unknownTable id)
  | .ofLabeller id =>
      match store.labellers id with
      | some labeller => .ok labeller.names
      | none => .error (.unknownLabeller id)
  | .built form names => .ok (form.build names)

/-- The labeller that a source stands for. -/
def labeller (store : Store) :
    LabellerSource → Except Fault (Labeller ResolverChoice)
  | .stored id =>
      match store.labellers id with
      | some labeller => .ok labeller
      | none => .error (.unknownLabeller id)
  | .standard => .ok default
  | .plain source => do
      let plain := Labeller.ofNames (← store.table source)
      return ⟨plain.names, .names plain.resolver⟩
  | .made source resolver => do
      return ⟨← store.table source, resolver⟩

/-- Answer a query.  The store is only read; a labeller can be inspected if it
has the usual resolver. -/
def answer (store : Store) : Query → Except Fault Reply
  | .escape text spaces => return .escaped (escapeWhitespace spaces text)
  | .nodeText source node layers => do
      let names ← store.table source
      return .text (TreeLabels.nodeText (node.through layers) names)
  | .resolve source resolver node layers => do
      let names ← store.table source
      return .text (TreeLabels.resolve resolver (node.through layers) names)
  | .label source node layers => do
      let labeller ← store.labeller source
      return .text (labeller.label (node.map (·.through layers)))
  | .dump source nodes => do
      let labeller ← store.labeller source
      return .dump (labeller.labels nodes)
  | .describe node layers => return .description (node.describe layers)
  | .readNames source indices count => do
      let names ← store.table source
      return .listing (names.listing indices count)
  | .groupTables sources => do
      let tables ← sources.mapM store.table
      return .groups (.ofList tables)
  | .groupKinds kinds => return .groups (.ofList kinds)
  | .compareResolvers resolvers => return .matrix (equalityMatrix resolvers)
  | .inspectKind kind => return .inspected kind.inspect
  | .inspectTable source => do
      let names ← store.table source
      return .inspected names.inspect
  | .inspectResolver resolver => return .inspected resolver.inspect
  | .inspectLabeller source => do
      let labeller ← store.labeller source
      match labeller.resolver with
      | .names resolver =>
          return .inspected (Labeller.mk labeller.names resolver).inspect
      | _ => throw .uninspectable

/-- Carry out a request.  Only the two requests that store something change the
store. -/
def step (store : Store) : Request → Except Fault (Store × Reply)
  | .ask query => do
      return (store, ← store.answer query)
  | .setTable id source => do
      let names ← store.table source
      return (store.putTable id names, .stored names.size)
  | .setLabeller id source => do
      let labeller ← store.labeller source
      return (store.putLabeller id labeller, .stored labeller.names.size)

@[simp] theorem tables_putTable (store : Store) (id key : String)
    (table : NameTable) :
    (store.putTable id table).tables key =
      if key = id then some table else store.tables key := rfl

@[simp] theorem labellers_putTable (store : Store) (id : String)
    (table : NameTable) :
    (store.putTable id table).labellers = store.labellers := rfl

@[simp] theorem labellers_putLabeller (store : Store) (id key : String)
    (labeller : Labeller ResolverChoice) :
    (store.putLabeller id labeller).labellers key =
      if key = id then some labeller else store.labellers key := rfl

@[simp] theorem tables_putLabeller (store : Store) (id : String)
    (labeller : Labeller ResolverChoice) :
    (store.putLabeller id labeller).tables = store.tables := rfl

end Store

/-- The state of a session: what is stored, and the replies so far in order. -/
structure Session where
  store : Store
  replies : Array Reply

namespace Session

def start : Session :=
  ⟨.empty, #[]⟩

/-- The text that was answered in a step, counted from zero. -/
def textOfStep (session : Session) (step : Nat) : Except Fault String :=
  match session.replies[step]?.bind Reply.text? with
  | some text => .ok text
  | none => .error (.noText step)

/-- Carry out one more request. -/
def submit (session : Session) (request : Request) : Except Fault Session := do
  let (store, reply) ← session.store.step request
  return ⟨store, session.replies.push reply⟩

/-- Carry out the requests in order. -/
def run (session : Session) (requests : List Request) :
    Except Fault Session :=
  requests.foldlM submit session

@[simp] theorem run_nil (session : Session) : session.run [] = .ok session :=
  rfl

theorem run_cons (session : Session) (request : Request)
    (requests : List Request) :
    session.run (request :: requests) =
      (session.submit request).bind fun next => next.run requests := rfl

end Session

end TreeLabels
