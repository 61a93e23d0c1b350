import PubSub.Scenario.Script
import PubSub.Scenario.Trace

/-!
# Scenario/World — what the client of a scenario has

A bus may go under several names and lives as long as it has one, or a post runs on it.  Owners,
lists of interests, subscribers and receivers have names of their own.  The scripts that were made
into handlers and one-shots are numbered in the order they were made and count their calls; the
bus knows them by their place in the cast.
-/

namespace PubSub.Scenario

/-- A bus with the number of its names and of the actions that post on it. -/
structure Shared where
  bus : Bus Value
  names : Nat
  posts : Nat
  deriving DecidableEq

namespace Shared

/-- The bus closed, if nobody has it. -/
def reap (s : Shared) : Shared :=
  if s.names = 0 ∧ s.posts = 0 then { s with bus := s.bus.close } else s

end Shared

/-- A script that can be called, its number being 0 if it is anonymous. -/
structure Performer where
  name : String
  number : Nat
  script : Script
  calls : Nat

/-- One who registers what the next of its batches says, and the last batch for ever. -/
structure Member where
  owner : Owner
  batches : List (List Handler)
  asked : Nat

/-- All that the client has. -/
structure World where
  least : Option Level
  shared : List Shared
  buses : Table String Nat
  owners : Table String Owner
  ownersMade : Nat
  collected : Table String (List Interest)
  members : Table String Member
  slots : Table String (Nat × Nat)
  cast : List Performer
  numbered : Nat

namespace World

/-- The world before the first action, for a reader of the log down to a level. -/
def initial (least : Option Level) : World := ⟨least, [], ∅, ∅, 0, ∅, ∅, ∅, [], 0⟩

/-! ## Traces -/

/-- The records that the reader asked for. -/
def visible (w : World) (log : List Record) : List Record :=
  log.filter fun r => r.level.shownAt w.least

/-- An answer, with the records that the reader asked for. -/
def result (w : World) (a : Answer) (log : List Record := []) : World × Result :=
  (w, ⟨a, (w.visible log).map .record⟩)

/-! ## Buses -/

/-- The place and the bus of a name. -/
def bus? (w : World) (name : String) : Option (Nat × Shared) :=
  (w.buses.get? name).bind fun i => w.shared[i]?.map (i, ·)

/-- Changes what is at a place, and closes the bus there if nobody has it any more. -/
def alter (w : World) (place : Nat) (f : Shared → Shared) : World :=
  { w with shared := w.shared.modify place fun s => (f s).reap }

/-- Puts another state in the place of a bus. -/
def setBus (w : World) (place : Nat) (b : Bus Value) : World :=
  { w with shared := w.shared.modify place ({ · with bus := b }) }

/-- Takes a name away from its bus. -/
def dropBus (w : World) (name : String) : World :=
  match w.buses.get? name with
  | none => w
  | some i =>
    { w with buses := w.buses.erase name }.alter i fun s => { s with names := s.names - 1 }

/-- Gives a new bus a name. -/
def makeBus (w : World) (name : String) (c : Config) : World :=
  let w := w.dropBus name
  { w with
    shared := w.shared ++ [⟨.new c, 1, 0⟩]
    buses := w.buses.insert name w.shared.length }

/-- Gives a bus one more name. -/
def shareBus (w : World) (place : Nat) (other : String) : World :=
  let w := (w.alter place fun s => { s with names := s.names + 1 }).dropBus other
  { w with buses := w.buses.insert other place }

/-- Does something on the bus of a name. -/
def onBus (w : World) (name : String) (f : Bus Value → Logged (Bus Value) Answer) :
    World × Result :=
  match w.bus? name with
  | none => w.result .unknownName
  | some (i, s) =>
    let r := f s.bus
    (w.setBus i r.state).result r.value r.log

/-- Reads something off the bus of a name. -/
def askBus (w : World) (name : String) (f : Bus Value → Answer) : World × Result :=
  w.onBus name fun b => ⟨b, f b, []⟩

/-! ## Owners -/

/-- Gives a new owner a name. -/
def makeOwner (w : World) (owner name : String) : World × Result :=
  let id := w.ownersMade + 1
  { w with owners := w.owners.insert owner ⟨⟨id⟩, name⟩, ownersMade := id }.result (.number id)

/-- How two owners stand to each other. -/
def compareOwners (o p : Owner) : Answer :=
  .comparison (o.same p) (compare o.id.number p.id.number) (if o.same p then 1 else 2)

/-- Does something with the owner of a name. -/
def withOwner (w : World) (owner : String) (f : Owner → World × Result) : World × Result :=
  match w.owners.get? owner with
  | none => w.result .unknownName
  | some o => f o

/-! ## Scripts -/

/-- Makes a script callable. -/
def enlist (w : World) (name : String) (s : Script) : World × Callback :=
  let numbered := if s.anonymous then w.numbered else w.numbered + 1
  let number := if s.anonymous then 0 else numbered
  ({ w with cast := w.cast ++ [⟨name, number, s, 0⟩], numbered := numbered }, ⟨w.cast.length⟩)

/-- Makes handlers callable, in order. -/
def enlistAll (w : World) : List Handler → World × List Interest
  | [] => (w, [])
  | .mk event name script :: rest =>
    let made := w.enlist name script
    let others := made.1.enlistAll rest
    (others.1, ⟨event, name, made.2⟩ :: others.2)

/-- Counts a call. -/
def countCall (w : World) (c : Callback) : World :=
  { w with cast := w.cast.modify c.number fun p => { p with calls := p.calls + 1 } }

/-! ## Registering -/

/-- The answer to an attempt to register. -/
def registered : Except RegisterError Unit → Answer
  | .ok () => .accepted
  | .error e => .notRegistered e

/-- Registers interests with the bus of a name. -/
def register (w : World) (bus : String) (o : Owner) (interests : List Interest) : World × Result :=
  w.onBus bus fun b =>
    let r := b.register o interests
    ⟨r.state, registered r.value, r.log⟩

/-- Removes what an owner has registered with the bus of a name. -/
def unregister (w : World) (bus : String) (o : Owner) : World × Result :=
  w.onBus bus fun b =>
    let r := b.unregister o
    ⟨r.state, .nothing, r.log⟩

/-- Asks a subscriber for its next batch of handlers and makes them callable. -/
def askMember (w : World) (name : String) (m : Member) : World × List Interest :=
  let batch := (m.batches[min m.asked (m.batches.length - 1)]?).getD []
  { w with members := w.members.insert name { m with asked := m.asked + 1 } }.enlistAll batch

/-! ## Receivers -/

/-- Waits for the next event of a type in a slot. -/
def next (w : World) (bus : String) (event : EventType) (slot : String) : World × Result :=
  match w.bus? bus with
  | none => w.result .unknownName
  | some (i, s) =>
    let made := s.bus.next event
    let w := w.setBus i made.1
    { w with slots := w.slots.insert slot (i, made.2) }.result .nothing

/-- Looks into the mailbox of a slot. -/
def receive (w : World) (slot : String) : World × Result :=
  match w.slots.get? slot with
  | none => w.result .unknownName
  | some (i, mailbox) =>
    match w.shared[i]? with
    | none => w.result .unknownName
    | some s =>
      let r := s.bus.poll mailbox
      (w.setBus i r.1).result (.received r.2)

end World

end PubSub.Scenario
