import PubSub.Config
import PubSub.Scenario.Value

/-!
# Scenario/Script — what clients of a bus do

A scenario is a list of actions of a client that has buses, owners, lists of interests,
subscribers and receivers under names of its choice.  The handlers it registers and the one-shots
it queues are scripts: when called they take actions themselves and then return as told.
-/

namespace PubSub.Scenario

/-- How a call of a script ends. -/
inductive Return
  /-- In success; a one-shot is done if so. -/
  | done (done : Bool)
  /-- In success; a one-shot is done if the event counts as at least so much. -/
  | doneFrom (least : Int)
  | failed (text : String)
  | fatal (text : String)
  | panic (p : Panic)
  /-- As the last post among its own actions of this call did. -/
  | inner
  deriving DecidableEq, Repr

mutual

/-- What a script does when called. -/
inductive Script
  /-- In its first calls, as many as `times` if given, it takes the `actions`; it ends as
  `returns` says, one after the other and the last for ever.  An anonymous script is not
  numbered. -/
  | mk (actions : List Action) (times : Option Nat) (returns : List Return) (anonymous : Bool)

/-- A handler for a type of event. -/
inductive Handler
  | mk (event : EventType) (name : String) (script : Script)

/-- Something a client does. -/
inductive Action
  | makeBus (bus : String) (config : Config)
  | shareBus (bus other : String)
  | dropBus (bus : String)
  | makeOwner (owner name : String)
  | shareOwner (owner other : String)
  | describeOwner (owner : String)
  | compareOwners (a b : String)
  | collect (interests : String) (handlers : List Handler)
  | register (bus owner : String) (handlers : List Handler)
  | registerCollected (bus owner interests : String)
  | makeSubscriber (subscriber owner : String) (batches : List (List Handler))
  | registerSubscriber (bus subscriber : String)
  | unregisterSubscriber (bus subscriber : String)
  | unregister (bus owner : String)
  | isRegistered (bus owner : String)
  | declare (bus : String) (parent : EventType) (children : List EventType)
  | post (bus : String) (event : Value) (times : Nat)
  | once (bus : String) (event : EventType) (name : String) (script : Script)
  | onceOrMore (bus : String) (event : EventType) (name : String) (count : Nat) (script : Script)
  | next (bus : String) (event : EventType) (slot : String)
  | receive (slot : String)
  | dropSlot (slot : String)
  | hasSubscribers (bus : String) (event : EventType)
  | pending (bus : String) (event : EventType)
  | census (bus : String)
  | statistics (bus : String) (event : Option EventType)
  | configuration (bus : String)
  | inspect (bus : String)

end

instance : Inhabited Script := ⟨.mk [] none [] false⟩

namespace Script

/-- The actions to take. -/
def actions : Script → List Action | mk as _ _ _ => as

/-- How many calls take them. -/
def times : Script → Option Nat | mk _ n _ _ => n

/-- How the calls end. -/
def returns : Script → List Return | mk _ _ rs _ => rs

/-- Whether the script goes without a number. -/
def anonymous : Script → Bool | mk _ _ _ a => a

/-- Whether a call that comes after `n` others takes the actions. -/
def acts (s : Script) (n : Nat) : Bool :=
  match s.times with
  | none => true
  | some times => n < times

/-- How a call that comes after `n` others ends. -/
def returnAt (s : Script) (n : Nat) : Return :=
  (s.returns[min n (s.returns.length - 1)]?).getD (.done true)

end Script

namespace Return

/-- The outcome of a call with an event, `last` being how the last post of its own ended. -/
def outcome (r : Return) (e : Value) (last : Option Ending) : Outcome :=
  match r with
  | done d => .returned d
  | doneFrom least => .returned (least ≤ e.magnitude)
  | failed text => .faulted (.error (.failed text))
  | fatal text => .faulted (.error (.fatal text))
  | panic p => .faulted (.panic p)
  | inner =>
    match last with
    | none | some .completed => .returned true
    | some (.aborted error) => .faulted (.error error.toHandlerError)
    | some (.unwound p) => .faulted (.panic p)

end Return

end PubSub.Scenario
