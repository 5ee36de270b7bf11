/-
Stored labellers are frozen.  Whatever a request reads by name could have been
written out when it was stored, and nothing that happens later under other names
changes it.  The texts of earlier replies are part of a request once it is
submitted, so a list of requests stands for any session.
-/
import TreeLabels.Proofs.SessionHistory

namespace TreeLabels

/-- The source written out: what is stored under a name is built on the spot,
from the names and with the resolver that are stored there. -/
def TableSource.spelledOut (store : Store) : TableSource → TableSource
  | .stored id =>
      match store.tables id with
      | some table => .built .array table.toList
      | none => .stored id
  | .ofLabeller id =>
      match store.labellers id with
      | some labeller => .built .array labeller.names.toList
      | none => .ofLabeller id
  | .built form names => .built form names

def LabellerSource.spelledOut (store : Store) : LabellerSource → LabellerSource
  | .stored id =>
      match store.labellers id with
      | some labeller =>
          .made (.built .array labeller.names.toList) labeller.resolver
      | none => .stored id
  | .standard => .standard
  | .plain source => .plain (source.spelledOut store)
  | .made source resolver => .made (source.spelledOut store) resolver

/-- Put other sources in the place of those that a query reads. -/
def Query.mapSources (tables : TableSource → TableSource)
    (labellers : LabellerSource → LabellerSource) : Query → Query
  | .escape text spaces => .escape text spaces
  | .nodeText source node layers => .nodeText (tables source) node layers
  | .resolve source resolver node layers =>
      .resolve (tables source) resolver node layers
  | .label source node layers => .label (labellers source) node layers
  | .dump source nodes => .dump (labellers source) nodes
  | .describe node layers => .describe node layers
  | .readNames source indices count => .readNames (tables source) indices count
  | .groupTables sources => .groupTables (sources.map tables)
  | .groupKinds kinds => .groupKinds kinds
  | .compareResolvers resolvers => .compareResolvers resolvers
  | .inspectKind kind => .inspectKind kind
  | .inspectTable source => .inspectTable (tables source)
  | .inspectResolver resolver => .inspectResolver resolver
  | .inspectLabeller source => .inspectLabeller (labellers source)

def Request.mapSources (tables : TableSource → TableSource)
    (labellers : LabellerSource → LabellerSource) : Request → Request
  | .ask query => .ask (query.mapSources tables labellers)
  | .setTable id source => .setTable id (tables source)
  | .setLabeller id source => .setLabeller id (labellers source)

/-- The request with everything stored written out. -/
def Request.spelledOut (store : Store) : Request → Request :=
  Request.mapSources (·.spelledOut store) (·.spelledOut store)

/-- The request put to one stored labeller, or to the table of that labeller. -/
def Request.putTo (id : String) : Request → Request :=
  Request.mapSources (fun _ => .ofLabeller id) fun _ => .stored id

/-- The request put to a labeller that is made on the spot from the names and
with the resolver of the given one, or to its table. -/
def Request.putToCopy (labeller : Labeller ResolverChoice) :
    Request → Request :=
  Request.mapSources (fun _ => .built .array labeller.names.toList) fun _ =>
    .made (.built .array labeller.names.toList) labeller.resolver

/-- The reply to a request, if there is one. -/
def Store.reply (store : Store) (request : Request) : Except Fault Reply :=
  (store.step request).map Prod.snd

/-- The reply to a request on its own, with nothing stored. -/
def Request.reply (request : Request) : Except Fault Reply :=
  Store.empty.reply request

theorem Request.mapSources_id (request : Request) :
    request.mapSources id id = request := by
  cases request with
  | ask query => cases query <;> simp [mapSources, Query.mapSources]
  | setTable key source => rfl
  | setLabeller key source => rfl

namespace Store

section Replies

variable {store other : Store}

theorem reply_eq_ok_iff {request : Request} {reply : Reply} :
    store.reply request = .ok reply ↔
      ∃ next, store.step request = .ok (next, reply) := by
  rw [Store.reply]
  cases store.step request with
  | error fault => simp [Except.map]
  | ok result => simp [Except.map, Prod.ext_iff]

theorem table_spelledOut (source : TableSource) :
    empty.table (source.spelledOut store) = store.table source := by
  cases source with
  | stored id =>
      cases hstored : store.tables id with
      | none => simp [TableSource.spelledOut, table, empty, hstored]
      | some stored =>
          simp only [TableSource.spelledOut, table, hstored]
          rfl
  | ofLabeller id =>
      cases hstored : store.labellers id with
      | none => simp [TableSource.spelledOut, table, empty, hstored]
      | some stored =>
          simp only [TableSource.spelledOut, table, hstored]
          rfl
  | built form names => rfl

theorem labeller_spelledOut (source : LabellerSource) :
    empty.labeller (source.spelledOut store) = store.labeller source := by
  cases source with
  | stored id =>
      cases hstored : store.labellers id with
      | none => simp [LabellerSource.spelledOut, labeller, empty, hstored]
      | some stored =>
          simp only [LabellerSource.spelledOut, labeller, hstored]
          rfl
  | standard => rfl
  | plain source =>
      simp only [LabellerSource.spelledOut, labeller, table_spelledOut]
  | made source resolver =>
      simp only [LabellerSource.spelledOut, labeller, table_spelledOut]

/-- A reply depends on a store only through the tables and the labellers that
the sources in the request stand for. -/
theorem reply_mapSources {tables tables' : TableSource → TableSource}
    {labellers labellers' : LabellerSource → LabellerSource}
    (htables : ∀ source,
      store.table (tables source) = other.table (tables' source))
    (hlabellers : ∀ source,
      store.labeller (labellers source) = other.labeller (labellers' source))
    (request : Request) :
    store.reply (request.mapSources tables labellers) =
      other.reply (request.mapSources tables' labellers') := by
  cases request with
  | ask query =>
      have hanswer : store.answer (query.mapSources tables labellers) =
          other.answer (query.mapSources tables' labellers') := by
        cases query with
        | groupTables sources =>
            have hall : store.table ∘ tables = other.table ∘ tables' :=
              funext htables
            simp only [Query.mapSources, answer, List.mapM_map, hall]
        | _ => simp only [Query.mapSources, answer, htables, hlabellers]
      simp only [reply, Request.mapSources, step, hanswer]
      cases other.answer (query.mapSources tables' labellers') <;> rfl
  | setTable id source =>
      simp only [reply, Request.mapSources, step, htables]
      cases other.table (tables' source) <;> rfl
  | setLabeller id source =>
      simp only [reply, Request.mapSources, step, hlabellers]
      cases other.labeller (labellers' source) <;> rfl

theorem reply_spelledOut (request : Request) :
    (request.spelledOut store).reply = store.reply request :=
  calc
    (request.spelledOut store).reply
      = store.reply (request.mapSources id id) :=
        reply_mapSources table_spelledOut labeller_spelledOut request
    _ = store.reply request := by rw [Request.mapSources_id]

theorem reply_putTo_congr {id : String}
    (hlabeller : store.labellers id = other.labellers id) (request : Request) :
    store.reply (request.putTo id) = other.reply (request.putTo id) :=
  reply_mapSources (fun _ => by simp only [table, hlabeller])
    (fun _ => by simp only [labeller, hlabeller]) request

theorem reply_putTo {id : String} {stored : Labeller ResolverChoice}
    (hstored : store.labellers id = some stored) (request : Request) :
    store.reply (request.putTo id) = (request.putToCopy stored).reply :=
  reply_mapSources (fun _ => by simp only [table, hstored]; rfl)
    (fun _ => by simp only [labeller, hstored]; rfl) request

end Replies

end Store

namespace Session

section Runs

variable {session final : Session} {requests : List Request}

/-- A run adds one reply for each request behind the replies that are there. -/
theorem replies_run (hrun : session.run requests = .ok final) :
    ∃ replies : List Reply, replies.length = requests.length ∧
      final.replies.toList = session.replies.toList ++ replies := by
  induction requests generalizing session with
  | nil =>
      obtain rfl := Except.ok.inj hrun
      exact ⟨[], rfl, by rw [List.append_nil]⟩
  | cons request rest ih =>
      obtain ⟨next, hsubmit, hrest⟩ := run_cons_eq_ok_iff.mp hrun
      obtain ⟨store, reply, _, rfl⟩ := submit_eq_ok_iff.mp hsubmit
      obtain ⟨replies, hlength, hreplies⟩ := ih hrest
      refine ⟨reply :: replies, by rw [List.length_cons, hlength,
        List.length_cons], ?_⟩
      rw [hreplies, Array.toList_push, List.append_assoc, List.singleton_append]

/-- Requests that store no labeller under a name leave the one that is there. -/
theorem labellers_run_eq {id : String}
    (hquiet : ∀ request ∈ requests, ¬ request.StoresLabeller id)
    (hrun : session.run requests = .ok final) :
    final.store.labellers id = session.store.labellers id := by
  induction requests generalizing session with
  | nil =>
      obtain rfl := Except.ok.inj hrun
      rfl
  | cons request rest ih =>
      rw [List.forall_mem_cons] at hquiet
      obtain ⟨next, hsubmit, hrest⟩ := run_cons_eq_ok_iff.mp hrun
      obtain ⟨store, reply, hstep, rfl⟩ := submit_eq_ok_iff.mp hsubmit
      rw [ih hquiet.2 hrest]
      ext labeller
      rw [Store.labellers_step_eq_some_iff hstep]
      constructor
      · rintro (⟨source, hrequest, _⟩ | ⟨_, hstored⟩)
        · exact absurd ⟨source, hrequest⟩ hquiet.1
        · exact hstored
      · exact fun hstored => Or.inr ⟨hquiet.1, hstored⟩

end Runs

/-- A session goes on with a request exactly if the request has a reply on its
own, with everything stored written out. -/
theorem submit_iff_reply_spelledOut {session : Session} {request : Request} :
    (∃ next, session.submit request = .ok next) ↔
      ∃ reply, (request.spelledOut session.store).reply = .ok reply := by
  simp only [submit_eq_ok_iff, Store.reply_spelledOut, Store.reply_eq_ok_iff]
  constructor
  · rintro ⟨_, store, reply, hstep, _⟩
    exact ⟨reply, store, hstep⟩
  · rintro ⟨reply, store, hstep⟩
    exact ⟨_, store, reply, hstep, rfl⟩

section Moments

variable {session : Session} {requests before after : List Request}
  {request : Request}

/-- In the middle of a run there is a session that has carried out the requests
so far, and the reply to the next one is added to its replies. -/
theorem moment_of_run (hrun : start.run requests = .ok session)
    (hsplit : requests = before ++ request :: after) :
    ∃ moment store reply, start.run before = .ok moment ∧
      moment.store.step request = .ok (store, reply) ∧
      (Session.mk store (moment.replies.push reply)).run after =
        .ok session := by
  subst hsplit
  obtain ⟨moment, hmoment, hrest⟩ := run_append_eq_ok_iff.mp hrun
  obtain ⟨next, hsubmit, hafter⟩ := run_cons_eq_ok_iff.mp hrest
  obtain ⟨store, reply, hstep, rfl⟩ := submit_eq_ok_iff.mp hsubmit
  exact ⟨moment, store, reply, hmoment, hstep, hafter⟩

theorem replies_of_run (hrun : start.run requests = .ok session)
    (hsplit : requests = before ++ request :: after) :
    ∃ moment reply, start.run before = .ok moment ∧
      moment.store.reply request = .ok reply ∧
      session.replies[before.length]? = some reply := by
  obtain ⟨moment, store, reply, hmoment, hstep, hafter⟩ :=
    moment_of_run hrun hsplit
  obtain ⟨earlier, hlength, hearlier⟩ := replies_run hmoment
  obtain ⟨later, _, hlater⟩ := replies_run hafter
  refine ⟨moment, reply, hmoment, Store.reply_eq_ok_iff.mpr ⟨store, hstep⟩, ?_⟩
  have hstart : (start.replies.toList : List Reply) = [] := rfl
  rw [← Array.getElem?_toList, hlater, Array.toList_push, hearlier, hstart,
    List.nil_append, ← hlength]
  simp

/-- After the latest request that stored a labeller under a name, the labeller
is the one that the source of this request stood for then. -/
theorem labellers_of_latest (hrun : start.run requests = .ok session)
    {id : String} {source : LabellerSource}
    (hlatest : Latest (Request.StoresLabeller id) requests before
      (.setLabeller id source)) :
    ∃ labeller, LabellerAfter before source labeller ∧
      session.store.labellers id = some labeller := by
  obtain ⟨_, after, hsplit, hquiet⟩ := hlatest
  obtain ⟨moment, store, reply, hmoment, hstep, hafter⟩ :=
    moment_of_run hrun hsplit
  rcases Store.step_cases hstep with ⟨_, hrequest, _⟩ | ⟨_, _, _, hrequest, _⟩ |
    ⟨_, _, labeller, hrequest, hlabeller, _, rfl⟩
  · cases hrequest
  · cases hrequest
  · cases hrequest
    refine ⟨labeller,
      ((reflects_run hmoment).labeller_iff source labeller).mp hlabeller, ?_⟩
    rw [labellers_run_eq hquiet hafter]
    simp

end Moments

/-- What a session keeps of the requests that it has carried out.  It holds under
every name what the latest request to store something there found at its time.
A stored labeller replies as one that is made on the spot from the names and with
the resolver of that time, and so it has replied to all requests so far; others
were replied to as if everything stored were written out in them, and whether the
session goes on is told in the same way.  What comes later under other names
changes neither a stored labeller nor a reply of it. -/
structure Frozen (session : Session) (requests : List Request) : Prop where
  reflects : session.store.Reflects requests
  stored : ∀ id earlier source,
    Latest (Request.StoresLabeller id) requests earlier
      (.setLabeller id source) →
        ∃ labeller, LabellerAfter earlier source labeller ∧
          session.store.labellers id = some labeller ∧
          ∀ request : Request, session.store.reply (request.putTo id) =
            (request.putToCopy labeller).reply
  replied : ∀ before request after, requests = before ++ request :: after →
    ∃ moment reply, start.run before = .ok moment ∧
      moment.store.Reflects before ∧
      (request.spelledOut moment.store).reply = .ok reply ∧
      session.replies[before.length]? = some reply
  replied_stored : ∀ before (request : Request) after id earlier source,
    requests = before ++ request.putTo id :: after →
      Latest (Request.StoresLabeller id) before earlier
        (.setLabeller id source) →
          ∃ labeller reply, LabellerAfter earlier source labeller ∧
            (request.putToCopy labeller).reply = .ok reply ∧
            session.replies[before.length]? = some reply
  goes_on : ∀ request : Request, (∃ next, session.submit request = .ok next) ↔
    ∃ reply, (request.spelledOut session.store).reply = .ok reply
  kept : ∀ id later final, session.run later = .ok final →
    (∀ request ∈ later, ¬ request.StoresLabeller id) →
      final.store.labellers id = session.store.labellers id ∧
      ∀ request : Request, final.store.reply (request.putTo id) =
        session.store.reply (request.putTo id)

/-- Every session that gets through its requests has frozen what it stores. -/
theorem run_frozen {requests : List Request} {session : Session}
    (hrun : start.run requests = .ok session) : session.Frozen requests where
  reflects := reflects_run hrun
  stored id earlier source hlatest := by
    obtain ⟨labeller, hlabeller, hstored⟩ := labellers_of_latest hrun hlatest
    exact ⟨labeller, hlabeller, hstored, Store.reply_putTo hstored⟩
  replied before request after hsplit := by
    obtain ⟨moment, reply, hmoment, hreply, hat⟩ := replies_of_run hrun hsplit
    refine ⟨moment, reply, hmoment, reflects_run hmoment, ?_, hat⟩
    rw [Store.reply_spelledOut, hreply]
  replied_stored before request after id earlier source hsplit hlatest := by
    obtain ⟨moment, reply, hmoment, hreply, hat⟩ := replies_of_run hrun hsplit
    obtain ⟨labeller, hlabeller, hstored⟩ := labellers_of_latest hmoment hlatest
    refine ⟨labeller, reply, hlabeller, ?_, hat⟩
    rw [← Store.reply_putTo hstored, hreply]
  goes_on _ := submit_iff_reply_spelledOut
  kept id later final hlater hquiet := by
    have hstored := labellers_run_eq hquiet hlater
    exact ⟨hstored, Store.reply_putTo_congr hstored⟩

/-- A copy of a labeller still has the names and the resolver that it was made
from after the table and the labeller have been replaced. -/
theorem run_frozen_copied :
    let entries : List (Option Node) :=
      [some ⟨.rule 0 none, none⟩, some ⟨.terminal "x y", none⟩]
    let requests : List Request :=
      [.setTable "t" (.built .array ["a b"]),
        .setLabeller "p" (.made (.stored "t") (.names (.escaping true))),
        .setLabeller "q" (.stored "p"),
        .setTable "t" (.built .array []),
        .setLabeller "p" (.plain (.stored "t")),
        .ask (.dump (.stored "q") entries)]
    ∃ session, start.run requests = .ok session ∧ session.Frozen requests ∧
      Latest (Request.StoresLabeller "q") requests (requests.take 2)
        (.setLabeller "q" (.stored "p")) ∧
      session.replies[5]? = some
        (.dump ⟨["a b", "x·y"], [.labelled "a b", .labelled "x·y"]⟩) := by
  intro entries requests
  have hquiet : ∀ request ∈ requests.drop 3, ¬ request.StoresLabeller "q" := by
    simp [requests, Request.StoresLabeller]
  exact ⟨_, rfl, run_frozen rfl, ⟨⟨_, rfl⟩, _, rfl, hquiet⟩, by decide⟩

end Session

end TreeLabels
