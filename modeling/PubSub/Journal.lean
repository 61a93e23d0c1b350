import PubSub.Owner
import PubSub.Failure
import PubSub.Tally

/-!
# Journal — what a bus writes to its log

Everything a bus has to say is a `Record`.  A record has a level, a message and fields, and a
reader chooses how much it wants to see: `Level.shownAt` leaves out what is less severe.
Operations on a bus answer with a `Logged` value: the state they leave, their result, and the
records they wrote, oldest first.
-/

namespace PubSub

/-! ## Levels -/

/-- How much a record matters. -/
inductive Level
  | error | warn | info | debug | trace
  deriving DecidableEq, Repr

namespace Level

/-- The distance from the most severe level. -/
def rank : Level → Nat
  | error => 0 | warn => 1 | info => 2 | debug => 3 | trace => 4

/-- The level in capitals. -/
def name : Level → String
  | error => "ERROR" | warn => "WARN" | info => "INFO" | debug => "DEBUG" | trace => "TRACE"

/-- Whether a reader who wants everything down to `least` sees this level; without `least` it sees
nothing. -/
def shownAt (l : Level) (least : Option Level) : Bool :=
  match least with
  | none => false
  | some least => l.rank ≤ least.rank

end Level

/-! ## Records -/

/-- A line of the log. -/
inductive Record
  | registered (owner : Owner) (inserted : Nat)
  | rejected (owner : Owner) (error : RegisterError)
  | alreadyRegistered (owner : Owner) (handler : String)
  | unregistered (owner : Owner) (removed : Nat)
  | declaredLate (parent : EventType)
  | routesRebuilt (eventTypes : Nat)
  | queuesRebuilt (eventTypes : Nat)
  | oneShotFaulted (event : EventType) (fault : Fault)
  | handlerFaulted (owner : Owner) (handler : String) (event : EventType) (fault : Fault)
  | statistics (report : Report)
  deriving DecidableEq, Repr

/-- What a field of a record holds. -/
inductive Field
  | text (s : String)
  | count (n : Nat)
  deriving DecidableEq, Repr

namespace Fault

/-- The field that tells what went wrong.  A fatal error is told by its bare text. -/
def field : Fault → String × Field
  | .error (.fatal e) => ("error", .text e)
  | .error e => ("error", .text e.message)
  | .panic p => ("panic", .text p.message)

end Fault

namespace Record

/-- How much the record matters. -/
def level : Record → Level
  | oneShotFaulted .. | handlerFaulted .. => .error
  | rejected .. | declaredLate .. => .warn
  | registered .. | unregistered .. | statistics .. => .debug
  | alreadyRegistered .. | routesRebuilt .. | queuesRebuilt .. => .trace

/-- What the record says. -/
def message : Record → String
  | registered .. => "registered handlers"
  | rejected .. => "rejected handler declaration"
  | alreadyRegistered .. => "handler already registered"
  | unregistered .. => "unregistered handlers"
  | declaredLate .. =>
    "child events declared after handlers were registered; existing handlers are not expanded"
  | routesRebuilt .. => "rebuilt subscriber snapshot"
  | queuesRebuilt .. => "rebuilt one-shot snapshot"
  | oneShotFaulted _ (.error (.failed _)) => "one-shot handler failed"
  | oneShotFaulted _ (.error (.fatal _)) => "fatal error in one-shot handler"
  | oneShotFaulted _ (.panic _) => "one-shot handler panicked"
  | handlerFaulted _ _ _ (.error (.failed _)) => "event subscriber failed"
  | handlerFaulted _ _ _ (.error (.fatal _)) =>
    "fatal error in event subscriber; aborting dispatch"
  | handlerFaulted _ _ _ (.panic _) => "event subscriber panicked"
  | statistics r => r.line

/-- What the record says it of. -/
def fields : Record → List (String × Field)
  | registered o n => [("owner", .text o.label), ("inserted", .count n)]
  | rejected o e => [("owner", .text o.label), ("error", .text e.message), ("label", .text e.label)]
  | alreadyRegistered o h => [("owner", .text o.label), ("handler", .text h)]
  | unregistered o n => [("owner", .text o.label), ("removed", .count n)]
  | declaredLate p => [("parent", .text p.shortName)]
  | routesRebuilt n | queuesRebuilt n => [("event_types", .count n)]
  | oneShotFaulted t f => [("event", .text t.shortName), f.field]
  | handlerFaulted o h t f =>
    [("owner", .text o.label), ("handler", .text h), ("event", .text t.shortName), f.field]
  | statistics _ => []

end Record

/-! ## Operations that write to the log -/

/-- What an operation leaves, what it answers, and what it wrote to the log. -/
structure Logged (σ α : Type) where
  state : σ
  value : α
  log : List Record

namespace Logged

variable {σ α : Type}

/-- The same with records written before it. -/
def after (r : Logged σ α) (log : List Record) : Logged σ α := { r with log := log ++ r.log }

@[simp] theorem state_after (r : Logged σ α) (log : List Record) : (r.after log).state = r.state :=
  rfl

@[simp] theorem value_after (r : Logged σ α) (log : List Record) : (r.after log).value = r.value :=
  rfl

@[simp] theorem log_after (r : Logged σ α) (log : List Record) :
    (r.after log).log = log ++ r.log := rfl

theorem after_after (r : Logged σ α) (log log' : List Record) :
    (r.after log').after log = r.after (log ++ log') :=
  congrArg (Logged.mk r.state r.value) (List.append_assoc ..).symm

end Logged

end PubSub
