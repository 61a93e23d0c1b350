import PubSub.Event
import PubSub.Owner

/-!
# Subscription — a handler that waits for events

    Interest  ──register──▸  Subscription  ──listed under each covered type──▸  Route

An interest names a handler and the type it waits for.  Once registered it is a subscription of an
owner, known by its key, and it covers its own type and the children declared for that type at
that moment.  A route is how the events of one covered type reach it: as they are for its own
type, by the upcast it was registered with for a child.
-/

namespace PubSub

/-- The name of a piece of code that the bus calls and knows nothing else of. -/
structure Callback where
  number : Nat
  deriving DecidableEq, Repr

/-- A named handler for a type of event, not registered yet. -/
structure Interest where
  event : EventType
  name : String
  handler : Callback
  deriving DecidableEq, Repr

namespace Interest

/-- What is wrong with an interest: it has no name, or waits for a primitive type. -/
def defect? (i : Interest) : Option RegisterError :=
  if i.name = "" then some (.emptyName i.event)
  else if i.event.isPrimitive then some (.primitiveEvent i.name i.event)
  else none

/-- An interest as a value: its name and its type. -/
def inspect (i : Interest) : String := Text.paired (Text.quoted i.name) i.event.name

end Interest

/-- What a subscription is known by. -/
structure Key where
  owner : OwnerId
  event : EventType
  name : String
  deriving DecidableEq, Repr

/-- The key of an interest once `o` registers it. -/
def Interest.key (i : Interest) (o : Owner) : Key := ⟨o.id, i.event, i.name⟩

/-- A registered handler, with the upcasts of the children of its type that it was registered
with. -/
structure Subscription where
  owner : Owner
  event : EventType
  name : String
  handler : Callback
  children : List Upcast
  deriving DecidableEq, Repr

/-- The way from the events of one type to a subscription. -/
structure Route where
  subscription : Subscription
  upcast : Option Upcast
  deriving DecidableEq, Repr

namespace Subscription

/-- What the subscription is known by. -/
def key (s : Subscription) : Key := ⟨s.owner.id, s.event, s.name⟩

/-- The types whose events reach the subscription. -/
def covers (s : Subscription) : List EventType := s.event :: s.children.map Upcast.child

/-- The route of the subscription's own type. -/
def direct (s : Subscription) : Route := ⟨s, none⟩

/-- The route of a child. -/
def fromChild (s : Subscription) (u : Upcast) : Route := ⟨s, some u⟩

/-- Every covered type with its route. -/
def routes (s : Subscription) : List (EventType × Route) :=
  (s.event, s.direct) :: s.children.map fun u => (u.child, s.fromChild u)

/-- What a subscription is registered with: it covers no type twice, and its children are seen as
events of its own type. -/
structure Sound (s : Subscription) : Prop where
  covers_nodup : s.covers.Nodup
  parent_eq : ∀ u ∈ s.children, u.parent = s.event

/-- **A subscription has one route for each type it covers.** -/
theorem map_fst_routes (s : Subscription) : s.routes.map Prod.fst = s.covers := by
  simp [routes, covers, List.map_map, Function.comp_def]

theorem mem_covers_iff {s : Subscription} {t : EventType} :
    t ∈ s.covers ↔ ∃ r, (t, r) ∈ s.routes := by
  simp [← map_fst_routes]

theorem subscription_of_mem_routes {s : Subscription} {t : EventType} {r : Route}
    (h : (t, r) ∈ s.routes) : r.subscription = s := by
  simp only [routes, List.mem_cons, Prod.mk.injEq, List.mem_map] at h
  rcases h with ⟨-, rfl⟩ | ⟨c, -, -, rfl⟩ <;> rfl

/-- **How the route of a covered type brings its events**: as they are from the subscription's own
type, seen as events of it from any other. -/
theorem Sound.upcast_of_mem_routes {s : Subscription} (h : s.Sound) {t : EventType} {r : Route}
    (hr : (t, r) ∈ s.routes) : r.upcast = if t = s.event then none else some ⟨t, s.event⟩ := by
  rcases List.mem_cons.1 hr with he | hc
  · obtain ⟨rfl, rfl⟩ := Prod.mk.inj he
    exact (if_pos rfl).symm
  · obtain ⟨⟨child, parent⟩, hu, he⟩ := List.mem_map.1 hc
    obtain ⟨rfl, rfl⟩ := Prod.mk.inj he
    obtain rfl : parent = s.event := h.parent_eq _ hu
    have hne : child ≠ s.event := fun hc =>
      (List.nodup_cons.1 h.covers_nodup).1 (hc ▸ List.mem_map.2 ⟨_, hu, rfl⟩)
    exact (if_neg hne).symm

end Subscription

namespace Route

variable {ε : Type} [EventValue ε]

/-- What the handler is called with: nothing when the event is not of the type the route is
for, else the event itself or the event seen as the parent, unless seeing it so panics. -/
def target? (r : Route) (e : ε) : Option (Except Panic ε) :=
  match r.upcast with
  | none => some (.ok e)
  | some u => u.see? e

end Route

/-- An order in which the handlers of one event are called: any will do. -/
structure Arrangement (α : Type) where
  apply : List α → List α
  perm : ∀ l, (apply l).Perm l

/-- The order in which things are listed. -/
def Arrangement.listed {α : Type} : Arrangement α := ⟨id, fun _ => .refl _⟩

end PubSub
