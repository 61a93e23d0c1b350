import PubSub.Config
import PubSub.Directory
import PubSub.Backlog

/-!
# Bus — subscriptions, one-shots, counters and running posts in one state

A bus calls user code, and user code may call the bus again before it returns.  So a post is not
one step: it stops at each call with a `Frame` on the stack of running posts, and goes on when the
call's outcome is known.  Between the two the bus is an ordinary bus, on which anything may be
done.  This module holds the state and the operations that call nobody; posts are in `Post`.
-/

namespace PubSub

/-! ## Mailboxes -/

/-- Where the event that a receiver waits for arrives. -/
inductive Mailbox (ε : Type)
  /-- Nothing has come yet. -/
  | waiting
  /-- The event is there to be taken. -/
  | full (event : ε)
  /-- The event was taken. -/
  | taken
  /-- No event will come. -/
  | lost
  deriving DecidableEq, Repr

/-- What a receiver finds. -/
inductive Poll (ε : Type)
  | nothing
  | got (event : ε)
  | closed
  deriving DecidableEq, Repr

namespace Mailbox

variable {ε : Type}

/-- Looks into a mailbox and takes what is there. -/
def poll : Mailbox ε → Mailbox ε × Poll ε
  | waiting => (waiting, .nothing)
  | full e => (taken, .got e)
  | taken => (taken, .closed)
  | lost => (lost, .closed)

/-- The mailbox once nobody is left who could fill it. -/
def abandon : Mailbox ε → Mailbox ε
  | waiting => lost
  | m => m

end Mailbox

/-! ## The state -/

/-- Where a running post has stopped. -/
inductive Stage
  /-- At a one-shot of a batch of `size`, with the rest of the batch ahead. -/
  | oneShot (current : OneShot) (rest : List OneShot) (size : Nat)
  /-- At the handler of a route. -/
  | handler (current : Route)
  deriving DecidableEq, Repr

/-- A running post that waits for a call to end, with the routes it has yet to try. -/
structure Frame (ε : Type) where
  event : ε
  stage : Stage
  ahead : List Route
  deriving DecidableEq, Repr

/-- A bus for events in `ε`, its running posts innermost first. -/
structure Bus (ε : Type) where
  config : Config
  directory : Directory
  backlog : Backlog
  tally : Option Tally
  mailboxes : List (Mailbox ε)
  tickets : Nat
  running : List (Frame ε)
  deriving DecidableEq

namespace Bus

variable {ε : Type}

/-- A new bus. -/
def new (c : Config) : Bus ε := ⟨c, .empty, .empty, Tally.ofConfig? c, [], 0, []⟩

instance : Inhabited (Bus ε) := ⟨new {}⟩

/-! ## Handlers -/

/-- Registers handlers for an owner: all of them, or none. -/
def register (b : Bus ε) (o : Owner) (interests : List Interest) :
    Logged (Bus ε) (Except RegisterError Unit) :=
  let r := b.directory.register o interests
  match r.value with
  | .ok n => ⟨{ b with directory := r.state }, .ok (), r.log ++ [.registered o n]⟩
  | .error e => ⟨{ b with directory := r.state }, .error e, r.log ++ [.rejected o e]⟩

/-- Removes all handlers of an owner. -/
def unregister (b : Bus ε) (o : Owner) : Logged (Bus ε) Unit :=
  let r := b.directory.unregister o.id
  ⟨{ b with directory := r.1 }, (), if 0 < r.2 then [.unregistered o r.2] else []⟩

/-- Declares the children of a type. -/
def declare (b : Bus ε) (parent : EventType) (children : List EventType) :
    Logged (Bus ε) (Except DeclareError Unit) :=
  let r := b.directory.declare parent children
  ⟨{ b with directory := r.state }, r.value, r.log⟩

/-- Whether events of a type reach a handler. -/
def hasSubscribers (b : Bus ε) (t : EventType) : Logged (Bus ε) Bool :=
  let r := b.directory.hasSubscribers t
  ⟨{ b with directory := r.state }, r.value, r.log⟩

/-- Whether an owner has anything registered. -/
def isRegistered (b : Bus ε) (o : Owner) : Bool := b.directory.isRegistered o.id

/-- How many owners, subscriptions and reachable types there are. -/
def census (b : Bus ε) : Census := b.directory.census

/-! ## One-shots -/

/-- Queues a one-shot for the next event of a type. -/
def queue (b : Bus ε) (t : EventType) (task : Task) : Bus ε :=
  { b with backlog := b.backlog.add ⟨b.tickets, t, task⟩, tickets := b.tickets + 1 }

/-- Calls back once, at the next event of a type. -/
def once (b : Bus ε) (t : EventType) (c : Callback) : Bus ε := b.queue t (.once c)

/-- Calls back at the events of a type until the callback says it is done. -/
def onceOrMore (b : Bus ε) (t : EventType) (c : Callback) : Bus ε := b.queue t (.untilDone c)

/-- Waits for the next event of a type; the answer is the mailbox it will be in. -/
def next (b : Bus ε) (t : EventType) : Bus ε × Nat :=
  (queue { b with mailboxes := b.mailboxes ++ [.waiting] } t (.deliver b.mailboxes.length),
    b.mailboxes.length)

/-- Looks into a mailbox and takes what is there. -/
def poll (b : Bus ε) (mailbox : Nat) : Bus ε × Poll ε :=
  match b.mailboxes[mailbox]? with
  | none => (b, .closed)
  | some m => ({ b with mailboxes := b.mailboxes.set mailbox m.poll.1 }, m.poll.2)

/-- How many one-shots wait for a type. -/
def pending (b : Bus ε) (t : EventType) : Nat := (b.backlog.waiting t).length

/-! ## The bus as a whole -/

/-- The posts counted so far, if they are. -/
def statistics (b : Bus ε) : Option Counts := b.tally.map (·.counts)

/-- The bus when its last holder lets go: handlers and one-shots are dropped, and mailboxes that
still wait will never be filled. -/
def close (b : Bus ε) : Bus ε :=
  { new b.config with mailboxes := b.mailboxes.map Mailbox.abandon }

/-- What the bus shows of itself. -/
def summary (b : Bus ε) : List (String × String) :=
  [("owners", toString b.census.owners), ("subscriptions", toString b.census.subscriptions),
    ("event_types", toString b.census.eventTypes), ("statistics", toString b.tally.isSome)]

/-- The bus on one line. -/
def inspect (b : Bus ε) : String := Text.braced "EventBus" b.summary

/-- The bus, a line for each field. -/
def inspectLines (b : Bus ε) : String := Text.bracedLines "EventBus" b.summary

end Bus

end PubSub
