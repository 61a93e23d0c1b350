import PubSub.Subscription
import PubSub.Table
import PubSub.Journal

/-!
# Backlog — the one-shots that wait for an event

    queues   type ↦ pending one-shots, oldest first
    cached   the types that had a queue when a post last looked

A one-shot waits for the next event of exactly one type.  A post takes the whole pending list of
its type away and works through it; what is queued meanwhile goes to a new list, so one post never
meets a one-shot twice.  A list that was worked through may be kept as the spare for the next
pending list: it is empty by then, so keeping it saves an allocation and changes nothing else.

A queue is made when its type is first queued for and stays.  Posts learn which types have one
from the cached types, which are dropped when a queue is made.
-/

namespace PubSub

/-- What a one-shot does with its event. -/
inductive Task
  /-- Calls the callback once. -/
  | once (callback : Callback)
  /-- Calls the callback with one event after the other until it says it is done. -/
  | untilDone (callback : Callback)
  /-- Puts a copy of the event into a mailbox. -/
  | deliver (mailbox : Nat)
  deriving DecidableEq, Repr

/-- A task that waits for an event.  Tickets tell two one-shots apart. -/
structure OneShot where
  ticket : Nat
  event : EventType
  task : Task
  deriving DecidableEq, Repr

/-- How a call for a one-shot counts: a callback that runs once is done unless it panics. -/
def OneShot.verdict (s : OneShot) (o : Outcome) : Outcome :=
  match s.task, o with
  | .untilDone _, o => o
  | _, .faulted (.panic p) => .faulted (.panic p)
  | _, _ => .returned true

/-- The one-shots of one type. -/
structure Queue where
  pending : Option (List OneShot)
  spare : Option (List OneShot)
  deriving DecidableEq, Repr

namespace Queue

/-- The queue before anything is queued. -/
def empty : Queue := ⟨none, none⟩

instance : Inhabited Queue := ⟨empty⟩

/-- The one-shots that the next post will find, oldest first. -/
def waiting (q : Queue) : List OneShot := q.pending.getD []

/-- Queues a one-shot behind the others, in the spare list if there are no others. -/
def add (q : Queue) (s : OneShot) : Queue :=
  match q.pending with
  | some live => ⟨some (live ++ [s]), q.spare⟩
  | none => ⟨some (q.spare.getD [] ++ [s]), none⟩

/-- Queues several one-shots in order. -/
def addAll (q : Queue) (l : List OneShot) : Queue := l.foldl add q

/-- The queue once a post has taken the pending list away. -/
def detach (q : Queue) : Queue := { q with pending := none }

/-- Whether a batch of `size` is not much longer than what is pending by now. -/
def isComparable (q : Queue) (size : Nat) : Bool :=
  match q.pending with
  | some live => size < live.length + 16
  | none => false

/-- Keeps the worked-through list of a batch as the spare one, if the batch was shorter than
`threshold` or not much longer than what is pending by now. -/
def settle (q : Queue) (threshold size : Nat) (drained : List OneShot) : Queue :=
  if size < threshold || q.isComparable size then { q with spare := some drained } else q

@[simp] theorem waiting_empty : empty.waiting = [] := rfl

@[simp] theorem waiting_detach (q : Queue) : q.detach.waiting = [] := rfl

@[simp] theorem waiting_settle (q : Queue) (threshold size : Nat) (drained : List OneShot) :
    (q.settle threshold size drained).waiting = q.waiting := by
  unfold settle
  split <;> rfl

end Queue

/-- The one-shots of a bus. -/
structure Backlog where
  queues : Table EventType Queue
  cached : Option (List EventType)
  deriving DecidableEq

namespace Backlog

/-- The backlog of a new bus. -/
def empty : Backlog := ⟨∅, none⟩

instance : Inhabited Backlog := ⟨empty⟩

/-- The one-shots that the next post of a type will find, oldest first. -/
def waiting (b : Backlog) (t : EventType) : List OneShot := (b.queues.getD t .empty).waiting

/-- Queues a one-shot for its type. -/
def add (b : Backlog) (s : OneShot) : Backlog :=
  match b.queues.get? s.event with
  | some q => { b with queues := b.queues.insert s.event (q.add s) }
  | none => ⟨b.queues.insert s.event (Queue.empty.add s), none⟩

/-- Changes the queue of a type, if there is one. -/
def modify (b : Backlog) (t : EventType) (f : Queue → Queue) : Backlog :=
  { b with queues := b.queues.modify t f }

/-- The types that have a queue, listed anew if they are not cached. -/
def refresh (b : Backlog) : Logged Backlog (List EventType) :=
  match b.cached with
  | some types => ⟨b, types, []⟩
  | none => ⟨{ b with cached := some b.queues.keys }, b.queues.keys, [.queuesRebuilt b.queues.size]⟩

/-- The pending list of a type, if the type is among those listed and has one. -/
def batch? (b : Backlog) (types : List EventType) (t : EventType) : Option (List OneShot) :=
  if t ∈ types then (b.queues.get? t).bind (·.pending) else none

end Backlog

end PubSub
