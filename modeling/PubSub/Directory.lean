import PubSub.Subscription
import PubSub.Table
import PubSub.Journal

/-!
# Directory — the subscriptions of a bus, by owner and by event type

    holdings   owner  ↦  key ↦ subscription
    listings   type   ↦  key ↦ route
    families   parent ↦  the upcasts of its children
    cached     type   ↦  routes

Holdings say what an owner has registered, listings say which routes the events of a type take.
A subscription stands in the holdings once and in the listings under each type it covers; which
children it covers is read from the families when it is registered and never again.  Posts read
the cached routes, which are taken from the listings when a post finds none and are dropped when
a subscription comes or goes.
-/

namespace PubSub

/-- The subscriptions of a bus. -/
structure Directory where
  holdings : Table OwnerId (Table Key Subscription)
  listings : Table EventType (Table Key Route)
  families : Table EventType (List Upcast)
  cached : Option (Table EventType (List Route))
  deriving DecidableEq

namespace Directory

/-- The directory of a new bus. -/
def empty : Directory := ⟨∅, ∅, ∅, none⟩

instance : Inhabited Directory := ⟨empty⟩

/-! ## Reading -/

/-- The live subscription of a key. -/
def find? (d : Directory) (k : Key) : Option Subscription :=
  (d.holdings.get? k.owner).bind (·.get? k)

/-- The route that the events of a type take to the subscription of a key. -/
def route? (d : Directory) (t : EventType) (k : Key) : Option Route :=
  (d.listings.get? t).bind (·.get? k)

/-- Whether an owner has anything registered. -/
def isRegistered (d : Directory) (o : OwnerId) : Bool := d.holdings.contains o

/-- The declared children of a type, as the upcasts to it. -/
def childrenOf (d : Directory) (t : EventType) : List Upcast := d.families.getD t []

/-- Everything that is registered, owner by owner. -/
def subscriptions (d : Directory) : List Subscription := d.holdings.values.flatMap Table.values

/-- How much the directory holds. -/
def census (d : Directory) : Census :=
  ⟨d.holdings.size, d.subscriptions.length, d.listings.size⟩

/-- The routes of every listed type. -/
def routeTable (d : Directory) : Table EventType (List Route) := d.listings.mapValues Table.values

/-- The routes to post by, taken from the listings if none are cached. -/
def refresh (d : Directory) : Logged Directory (Table EventType (List Route)) :=
  match d.cached with
  | some routes => ⟨d, routes, []⟩
  | none =>
    ⟨{ d with cached := some d.routeTable }, d.routeTable, [.routesRebuilt d.listings.size]⟩

/-- The routes that a post of a type takes when it begins now. -/
def routesTo (d : Directory) (t : EventType) : List Route := d.refresh.value.getD t []

/-- Whether events of a type reach a subscription. -/
def hasSubscribers (d : Directory) (t : EventType) : Logged Directory Bool :=
  ⟨d.refresh.state, !(d.routesTo t).isEmpty, d.refresh.log⟩

/-! ## Declaring children -/

/-- The first thing wrong with a list of children, `seen` being those before it: the parent among
its own children, or a child for the second time. -/
def badChild? (parent : EventType) : List EventType → List EventType → Option DeclareError
  | _, [] => none
  | seen, c :: rest =>
    if c = parent then some (.selfChild parent)
    else if c ∈ seen then some (.duplicateChild parent c)
    else badChild? parent (c :: seen) rest

/-- Declares the children of a type, once and for all.  Routes that are listed under the parent
by then stay as they are, which is worth a warning whether or not the declaration stands. -/
def declare (d : Directory) (parent : EventType) (children : List EventType) :
    Logged Directory (Except DeclareError Unit) :=
  let log := if d.listings.contains parent then [.declaredLate parent] else []
  if d.families.contains parent then ⟨d, .error (.alreadyDeclared parent), log⟩
  else match badChild? parent [] children with
    | some e => ⟨d, .error e, log⟩
    | none =>
      ⟨{ d with families := d.families.insert parent (Upcast.allTo parent children) }, .ok (), log⟩

/-! ## Registering -/

/-- Lists a route under a type. -/
def list (l : Table EventType (Table Key Route)) (t : EventType) (k : Key) (r : Route) :
    Table EventType (Table Key Route) :=
  l.insert t ((l.getD t ∅).insert k r)

/-- Lists the routes of a subscription, each under its type. -/
def listAll (l : Table EventType (Table Key Route)) (s : Subscription) :
    Table EventType (Table Key Route) :=
  s.routes.foldl (fun l tr => list l tr.1 s.key tr.2) l

/-- The subscription an interest becomes when `o` registers it now. -/
def subscriptionOf (d : Directory) (o : Owner) (i : Interest) : Subscription :=
  ⟨o, i.event, i.name, i.handler, d.childrenOf i.event⟩

/-- Puts a subscription in the holdings and under every type it covers. -/
def enter (d : Directory) (s : Subscription) : Directory :=
  { d with
    holdings := d.holdings.insert s.owner.id
      ((d.holdings.getD s.owner.id ∅).insert s.key s)
    listings := listAll d.listings s }

/-- Enters the interests whose key is not live, in order, and counts them. -/
def enterAll (o : Owner) : List Interest → Directory → Logged Directory Nat
  | [], d => ⟨d, 0, []⟩
  | i :: rest, d =>
    if (d.find? (i.key o)).isSome then (enterAll o rest d).after [.alreadyRegistered o i.name]
    else
      let r := enterAll o rest (d.enter (d.subscriptionOf o i))
      { r with value := r.value + 1 }

/-- Registers a list of interests for an owner: all of it, or none if any of them has a defect.
The answer is the number of subscriptions that were not there before. -/
def register (d : Directory) (o : Owner) (interests : List Interest) :
    Logged Directory (Except RegisterError Nat) :=
  match interests.findSome? Interest.defect? with
  | some e => ⟨d, .error e, []⟩
  | none =>
    let r := enterAll o interests d
    ⟨if r.value = 0 then r.state else { r.state with cached := none }, .ok r.value, r.log⟩

/-! ## Removing -/

/-- Takes the route of a key from under a type; a type left without routes is not listed. -/
def unlist (l : Table EventType (Table Key Route)) (t : EventType) (k : Key) :
    Table EventType (Table Key Route) :=
  match l.get? t with
  | none => l
  | some routes =>
    if (routes.erase k).isEmpty then l.erase t else l.insert t (routes.erase k)

/-- Takes a subscription from under every type it covers. -/
def unlistAll (l : Table EventType (Table Key Route)) (s : Subscription) :
    Table EventType (Table Key Route) :=
  s.covers.foldl (fun l t => unlist l t s.key) l

/-- Removes everything an owner has registered; the answer is how much that was. -/
def unregister (d : Directory) (o : OwnerId) : Directory × Nat :=
  match d.holdings.get? o with
  | none => (d, 0)
  | some held =>
    ({ d with
        holdings := d.holdings.erase o
        listings := held.values.foldl unlistAll d.listings
        cached := none },
      held.size)

end Directory

end PubSub
