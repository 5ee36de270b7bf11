/-
The history of a session.  What a stored name stands for is told by the requests
alone: it is what the latest request that stored something under the name found
at its own time.  A session keeps in its store what its history tells.
-/
import Mathlib.Data.List.Induction
import TreeLabels.Proofs.Separator
import TreeLabels.Session

namespace TreeLabels

/-- A computation gives a result exactly if its first step does and the rest
does on from there. -/
theorem bind_eq_ok_iff {ε α β : Type} {first : Except ε α}
    {rest : α → Except ε β} {result : β} :
    first >>= rest = .ok result ↔
      ∃ value, first = .ok value ∧ rest value = .ok result := by
  cases first with
  | error cause => simp [bind, Except.bind]
  | ok value => simp [bind, Except.bind]

section Latest

variable {p : Request → Prop} {requests earlier : List Request}
  {request last : Request}

/-- Among the requests with a property, `last` is the latest one; `earlier` are
the requests before it, with the property or without. -/
def Latest (p : Request → Prop) (requests earlier : List Request)
    (last : Request) : Prop :=
  p last ∧ ∃ later, requests = earlier ++ last :: later ∧
    ∀ other ∈ later, ¬ p other

theorem not_latest_nil : ¬ Latest p [] earlier last := by
  rintro ⟨_, later, hrequests, _⟩
  simp at hrequests

/-- One more request is the latest one itself, or it changes nothing. -/
theorem latest_concat_iff :
    Latest p (requests ++ [request]) earlier last ↔
      (p request ∧ earlier = requests ∧ last = request) ∨
        (¬ p request ∧ Latest p requests earlier last) := by
  constructor
  · rintro ⟨hlast, later, hsplit, hlater⟩
    rcases split_append hsplit with
      ⟨between, hearlier, htail⟩ | ⟨between, hrequests, hend⟩
    · cases between with
      | nil =>
          rw [List.append_nil] at hearlier
          obtain ⟨rfl, _⟩ := List.cons.inj htail
          exact Or.inl ⟨hlast, hearlier, rfl⟩
      | cons first rest => simp at htail
    · subst hend
      have hrequest : ¬ p request := hlater request
        (List.mem_append_right between (List.mem_singleton_self request))
      exact Or.inr ⟨hrequest, hlast, between, hrequests, fun other hother =>
        hlater other (List.mem_append_left _ hother)⟩
  · rintro (⟨hrequest, rfl, rfl⟩ | ⟨hrequest, hlast, later, rfl, hlater⟩)
    · exact ⟨hrequest, [], rfl, by simp⟩
    · refine ⟨hlast, later ++ [request], by simp, fun other hother => ?_⟩
      rcases List.mem_append.mp hother with hmem | hmem
      · exact hlater other hmem
      · rw [List.mem_singleton.mp hmem]
        exact hrequest

end Latest

def Request.StoresTable (id : String) (request : Request) : Prop :=
  ∃ source, request = .setTable id source

def Request.StoresLabeller (id : String) (request : Request) : Prop :=
  ∃ source, request = .setLabeller id source

mutual

/-- What table a source stands for after some requests. -/
inductive TableAfter : List Request → TableSource → NameTable → Prop where
  | stored {requests earlier : List Request} {id : String}
      {source : TableSource} {table : NameTable}
      (hlatest : Latest (Request.StoresTable id) requests earlier
        (.setTable id source))
      (hsource : TableAfter earlier source table) :
      TableAfter requests (.stored id) table
  | ofLabeller {requests : List Request} {id : String}
      {labeller : Labeller ResolverChoice}
      (hlabeller : LabellerAfter requests (.stored id) labeller) :
      TableAfter requests (.ofLabeller id) labeller.names
  | built {requests : List Request} {form : TableForm} {names : List String} :
      TableAfter requests (.built form names) (form.build names)

/-- What labeller a source stands for after some requests. -/
inductive LabellerAfter :
    List Request → LabellerSource → Labeller ResolverChoice → Prop where
  | stored {requests earlier : List Request} {id : String}
      {source : LabellerSource} {labeller : Labeller ResolverChoice}
      (hlatest : Latest (Request.StoresLabeller id) requests earlier
        (.setLabeller id source))
      (hsource : LabellerAfter earlier source labeller) :
      LabellerAfter requests (.stored id) labeller
  | standard {requests : List Request} :
      LabellerAfter requests .standard ⟨.ofList [], .names .plain⟩
  | plain {requests : List Request} {source : TableSource} {table : NameTable}
      (htable : TableAfter requests source table) :
      LabellerAfter requests (.plain source) ⟨table, .names .plain⟩
  | made {requests : List Request} {source : TableSource} {table : NameTable}
      {resolver : ResolverChoice} (htable : TableAfter requests source table) :
      LabellerAfter requests (.made source resolver) ⟨table, resolver⟩

end

/-- The store holds what the history of the requests tells, and nothing else. -/
structure Store.Reflects (store : Store) (requests : List Request) : Prop where
  tables_iff : ∀ id table,
    store.tables id = some table ↔ TableAfter requests (.stored id) table
  labellers_iff : ∀ id labeller,
    store.labellers id = some labeller ↔
      LabellerAfter requests (.stored id) labeller

section StoredAfter

variable {requests : List Request} {request : Request} {id : String}

theorem tableAfter_concat_iff {table : NameTable} :
    TableAfter (requests ++ [request]) (.stored id) table ↔
      (∃ source, request = .setTable id source ∧
        TableAfter requests source table) ∨
      (¬ request.StoresTable id ∧ TableAfter requests (.stored id) table) := by
  constructor
  · rintro (⟨hlatest, hsource⟩ | _ | _)
    rcases latest_concat_iff.mp hlatest with ⟨_, rfl, rfl⟩ | ⟨hother, hlatest⟩
    · exact Or.inl ⟨_, rfl, hsource⟩
    · exact Or.inr ⟨hother, .stored hlatest hsource⟩
  · rintro (⟨source, rfl, hsource⟩ | ⟨hother, ⟨hlatest, hsource⟩⟩)
    · have hstores : Request.StoresTable id (.setTable id source) :=
        ⟨source, rfl⟩
      exact .stored (latest_concat_iff.mpr (Or.inl ⟨hstores, rfl, rfl⟩)) hsource
    · exact .stored (latest_concat_iff.mpr (Or.inr ⟨hother, hlatest⟩)) hsource

theorem labellerAfter_concat_iff {labeller : Labeller ResolverChoice} :
    LabellerAfter (requests ++ [request]) (.stored id) labeller ↔
      (∃ source, request = .setLabeller id source ∧
        LabellerAfter requests source labeller) ∨
      (¬ request.StoresLabeller id ∧
        LabellerAfter requests (.stored id) labeller) := by
  constructor
  · rintro (⟨hlatest, hsource⟩ | _ | _ | _)
    rcases latest_concat_iff.mp hlatest with ⟨_, rfl, rfl⟩ | ⟨hother, hlatest⟩
    · exact Or.inl ⟨_, rfl, hsource⟩
    · exact Or.inr ⟨hother, .stored hlatest hsource⟩
  · rintro (⟨source, rfl, hsource⟩ | ⟨hother, ⟨hlatest, hsource⟩⟩)
    · have hstores : Request.StoresLabeller id (.setLabeller id source) :=
        ⟨source, rfl⟩
      exact .stored (latest_concat_iff.mpr (Or.inl ⟨hstores, rfl, rfl⟩)) hsource
    · exact .stored (latest_concat_iff.mpr (Or.inr ⟨hother, hlatest⟩)) hsource

end StoredAfter

namespace Store

section Sources

variable {store : Store} {requests : List Request}

theorem table_stored_eq_ok_iff {id : String} {table : NameTable} :
    store.table (.stored id) = .ok table ↔ store.tables id = some table := by
  cases hstored : store.tables id <;> simp [Store.table, hstored]

theorem table_ofLabeller_eq_ok_iff {id : String} {table : NameTable} :
    store.table (.ofLabeller id) = .ok table ↔
      ∃ labeller, store.labellers id = some labeller ∧
        labeller.names = table := by
  cases hstored : store.labellers id <;> simp [Store.table, hstored]

theorem labeller_stored_eq_ok_iff {id : String}
    {labeller : Labeller ResolverChoice} :
    store.labeller (.stored id) = .ok labeller ↔
      store.labellers id = some labeller := by
  cases hstored : store.labellers id <;> simp [Store.labeller, hstored]

theorem labeller_made_eq_ok_iff {source : TableSource}
    {resolver : ResolverChoice} {labeller : Labeller ResolverChoice} :
    store.labeller (.made source resolver) = .ok labeller ↔
      ∃ table, store.table source = .ok table ∧
        ⟨table, resolver⟩ = labeller := by
  rw [Store.labeller, bind_eq_ok_iff]
  simp only [pure, Except.pure, Except.ok.injEq]

theorem labeller_plain (source : TableSource) :
    store.labeller (.plain source) =
      store.labeller (.made source (.names .plain)) := rfl

/-- What the store gives for a table is what the history tells of it. -/
theorem Reflects.table_iff (h : store.Reflects requests)
    (source : TableSource) (table : NameTable) :
    store.table source = .ok table ↔ TableAfter requests source table := by
  cases source with
  | stored id => rw [table_stored_eq_ok_iff, h.tables_iff]
  | ofLabeller id =>
      rw [table_ofLabeller_eq_ok_iff]
      constructor
      · rintro ⟨labeller, hlabeller, rfl⟩
        exact .ofLabeller ((h.labellers_iff id labeller).mp hlabeller)
      · rintro (_ | hlabeller | _)
        exact ⟨_, (h.labellers_iff id _).mpr hlabeller, rfl⟩
  | built form names =>
      constructor
      · rintro htable
        obtain rfl := Except.ok.inj htable
        exact .built
      · rintro (_ | _ | _)
        rfl

theorem Reflects.labeller_iff (h : store.Reflects requests)
    (source : LabellerSource) (labeller : Labeller ResolverChoice) :
    store.labeller source = .ok labeller ↔
      LabellerAfter requests source labeller := by
  cases source with
  | stored id => rw [labeller_stored_eq_ok_iff, h.labellers_iff]
  | standard =>
      constructor
      · intro hlabeller
        obtain rfl := Except.ok.inj hlabeller
        exact .standard
      · rintro (_ | _ | _ | _)
        rfl
  | plain source =>
      rw [labeller_plain, labeller_made_eq_ok_iff]
      constructor
      · rintro ⟨table, htable, rfl⟩
        exact .plain ((h.table_iff source table).mp htable)
      · rintro (_ | _ | htable | _)
        exact ⟨_, (h.table_iff source _).mpr htable, rfl⟩
  | made source resolver =>
      rw [labeller_made_eq_ok_iff]
      constructor
      · rintro ⟨table, htable, rfl⟩
        exact .made ((h.table_iff source table).mp htable)
      · rintro (_ | _ | _ | htable)
        exact ⟨_, (h.table_iff source _).mpr htable, rfl⟩

end Sources

section Steps

variable {store next : Store} {requests : List Request} {request : Request}
  {reply : Reply}

/-- All that a step can do: answer, or store one table or one labeller. -/
theorem step_cases (hstep : store.step request = .ok (next, reply)) :
    (∃ query, request = .ask query ∧ store.answer query = .ok reply ∧
      next = store) ∨
    (∃ id source table, request = .setTable id source ∧
      store.table source = .ok table ∧ reply = .stored table.size ∧
      next = store.putTable id table) ∨
    ∃ id source labeller, request = .setLabeller id source ∧
      store.labeller source = .ok labeller ∧
      reply = .stored labeller.names.size ∧
      next = store.putLabeller id labeller := by
  cases request with
  | ask query =>
      obtain ⟨answer, hanswer, hend⟩ := bind_eq_ok_iff.mp hstep
      obtain ⟨rfl, rfl⟩ := Prod.mk.inj (Except.ok.inj hend)
      exact Or.inl ⟨query, rfl, hanswer, rfl⟩
  | setTable id source =>
      obtain ⟨table, htable, hend⟩ := bind_eq_ok_iff.mp hstep
      obtain ⟨rfl, rfl⟩ := Prod.mk.inj (Except.ok.inj hend)
      exact Or.inr (Or.inl ⟨id, source, table, rfl, htable, rfl, rfl⟩)
  | setLabeller id source =>
      obtain ⟨labeller, hlabeller, hend⟩ := bind_eq_ok_iff.mp hstep
      obtain ⟨rfl, rfl⟩ := Prod.mk.inj (Except.ok.inj hend)
      exact Or.inr (Or.inr ⟨id, source, labeller, rfl, hlabeller, rfl, rfl⟩)

/-- A step changes what is stored as a table only under the name of a request to
store one. -/
theorem tables_step_eq_some_iff
    (hstep : store.step request = .ok (next, reply)) {id : String}
    {table : NameTable} :
    next.tables id = some table ↔
      (∃ source, request = .setTable id source ∧
        store.table source = .ok table) ∨
      (¬ request.StoresTable id ∧ store.tables id = some table) := by
  rcases step_cases hstep with ⟨query, rfl, _, rfl⟩ |
    ⟨key, source, stored, rfl, hstored, _, rfl⟩ |
    ⟨key, source, _, rfl, _, _, rfl⟩
  · simp [Request.StoresTable]
  · by_cases hkey : id = key
    · subst hkey
      simp [Request.StoresTable, hstored]
    · have hkey' : key ≠ id := Ne.symm hkey
      simp [Request.StoresTable, hkey, hkey']
  · simp [Request.StoresTable]

theorem labellers_step_eq_some_iff
    (hstep : store.step request = .ok (next, reply)) {id : String}
    {labeller : Labeller ResolverChoice} :
    next.labellers id = some labeller ↔
      (∃ source, request = .setLabeller id source ∧
        store.labeller source = .ok labeller) ∨
      (¬ request.StoresLabeller id ∧ store.labellers id = some labeller) := by
  rcases step_cases hstep with ⟨query, rfl, _, rfl⟩ |
    ⟨key, source, _, rfl, _, _, rfl⟩ |
    ⟨key, source, stored, rfl, hstored, _, rfl⟩
  · simp [Request.StoresLabeller]
  · simp [Request.StoresLabeller]
  · by_cases hkey : id = key
    · subst hkey
      simp [Request.StoresLabeller, hstored]
    · have hkey' : key ≠ id := Ne.symm hkey
      simp [Request.StoresLabeller, hkey, hkey']

theorem reflects_empty : Store.empty.Reflects [] := by
  constructor
  · intro id table
    simp only [Store.empty, reduceCtorEq, false_iff]
    rintro (⟨hlatest, _⟩ | _ | _)
    exact not_latest_nil hlatest
  · intro id labeller
    simp only [Store.empty, reduceCtorEq, false_iff]
    rintro (⟨hlatest, _⟩ | _ | _ | _)
    exact not_latest_nil hlatest

/-- A step takes the store along with the history. -/
theorem Reflects.step (h : store.Reflects requests)
    (hstep : store.step request = .ok (next, reply)) :
    next.Reflects (requests ++ [request]) := by
  constructor
  · intro id table
    rw [tables_step_eq_some_iff hstep, tableAfter_concat_iff, h.tables_iff]
    simp only [h.table_iff]
  · intro id labeller
    rw [labellers_step_eq_some_iff hstep, labellerAfter_concat_iff,
      h.labellers_iff]
    simp only [h.labeller_iff]

end Steps

end Store

namespace Session

variable {session next final : Session} {request : Request}
  {requests before after : List Request}

theorem submit_eq_ok_iff :
    session.submit request = .ok next ↔
      ∃ store reply, session.store.step request = .ok (store, reply) ∧
        next = ⟨store, session.replies.push reply⟩ := by
  rw [submit, bind_eq_ok_iff]
  simp only [pure, Except.pure, Except.ok.injEq, Prod.exists, eq_comm]

theorem run_append_eq_ok_iff :
    session.run (before ++ after) = .ok final ↔
      ∃ moment, session.run before = .ok moment ∧
        moment.run after = .ok final := by
  rw [run, List.foldlM_append, bind_eq_ok_iff]
  rfl

theorem run_cons_eq_ok_iff :
    session.run (request :: requests) = .ok final ↔
      ∃ next, session.submit request = .ok next ∧
        next.run requests = .ok final := by
  rw [run_cons]
  exact bind_eq_ok_iff

/-- After any run the store holds what the history of the run tells. -/
theorem reflects_run (hrun : start.run requests = .ok session) :
    session.store.Reflects requests := by
  induction requests using List.reverseRecOn generalizing session with
  | nil =>
      obtain rfl := Except.ok.inj hrun
      exact Store.reflects_empty
  | append_singleton requests request ih =>
      obtain ⟨moment, hmoment, hlast⟩ := run_append_eq_ok_iff.mp hrun
      obtain ⟨next, hsubmit, hend⟩ := run_cons_eq_ok_iff.mp hlast
      obtain rfl := Except.ok.inj hend
      obtain ⟨store, reply, hstep, rfl⟩ := submit_eq_ok_iff.mp hsubmit
      exact (ih hmoment).step hstep

end Session

end TreeLabels
