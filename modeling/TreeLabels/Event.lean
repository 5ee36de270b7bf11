/-
Diagnostic events.  Looking up a rule without a name is worth a warning, and
every finished label is traced.  A logged value comes with the events reported
on the way to it, oldest first.
-/
import TreeLabels.Numeral

namespace TreeLabels

universe u

/-- How important an event is. -/
inductive Level where
  | warn
  | trace
deriving DecidableEq, Repr

/-- The name of a level in a log. -/
def Level.name : Level → String
  | warn => "WARN"
  | trace => "TRACE"

/-- What is reported while labels are made. -/
inductive Event where
  | unnamedRule (index : UInt64) (count : Nat)
  | labelled (text : String)
deriving DecidableEq, Repr

namespace Event

def level : Event → Level
  | unnamedRule _ _ => .warn
  | labelled _ => .trace

/-- The name in a log of the part that reports an event. -/
def target : Event → String
  | unnamedRule _ _ => "arbor_tree::trees"
  | labelled _ => "arbor_text::provider"

def message : Event → String
  | unnamedRule _ _ => "rule index has no name"
  | labelled _ => "labelled node"

/-- The data of an event, by name; numbers are written in decimal. -/
def fields : Event → List (String × String)
  | unnamedRule index count =>
      [("rule_index", decimal index.toNat), ("rule_count", decimal count)]
  | labelled text => [("text", text)]

def isWarning (event : Event) : Bool :=
  event.level == .warn

/-- The label that an event traces. -/
def tracedText? : Event → Option String
  | unnamedRule _ _ => none
  | labelled text => some text

end Event

/-- A value and what was reported while it was computed. -/
structure Logged (α : Type u) where
  value : α
  events : List Event
deriving DecidableEq, Repr

namespace Logged

variable {α β : Type u}

instance : Monad Logged where
  pure value := ⟨value, []⟩
  bind x f :=
    let y := f x.value
    ⟨y.value, x.events ++ y.events⟩
  map f x := ⟨f x.value, x.events⟩

/-- Report one event. -/
def emit (event : Event) : Logged PUnit.{u + 1} :=
  ⟨⟨⟩, [event]⟩

@[ext] theorem ext {x y : Logged α} (hvalue : x.value = y.value)
    (hevents : x.events = y.events) : x = y := by
  cases x
  cases y
  simp_all

@[simp] theorem value_pure (value : α) :
    (pure value : Logged α).value = value := rfl

@[simp] theorem events_pure (value : α) :
    (pure value : Logged α).events = [] := rfl

@[simp] theorem value_bind (x : Logged α) (f : α → Logged β) :
    (x >>= f).value = (f x.value).value := rfl

@[simp] theorem events_bind (x : Logged α) (f : α → Logged β) :
    (x >>= f).events = x.events ++ (f x.value).events := rfl

@[simp] theorem value_map (f : α → β) (x : Logged α) :
    (f <$> x).value = f x.value := rfl

@[simp] theorem events_map (f : α → β) (x : Logged α) :
    (f <$> x).events = x.events := rfl

@[simp] theorem events_emit (event : Event) :
    (emit event : Logged PUnit.{u + 1}).events = [event] := rfl

private theorem bind_pure_eq_map (f : α → β) (x : Logged α) :
    (do let value ← x; pure (f value)) = f <$> x := by
  ext1 <;> simp

instance : LawfulMonad Logged :=
  LawfulMonad.mk' Logged
    (fun _ => rfl)
    (fun _ _ => rfl)
    (fun x f g => by ext1 <;> simp)
    (fun _ _ => rfl)
    (fun x y => by ext1 <;> simp [SeqLeft.seqLeft])
    (fun _ _ => rfl)
    bind_pure_eq_map
    (fun _ _ => rfl)

end Logged

end TreeLabels
