import PubSub.Failure

/-!
# Event — the values that are posted

What the bus needs of an event: its type, how it is seen as one of its parent's type, and how it
is copied.  Seeing and copying are the work of whoever defines the events and may panic; when they
do not, `typeOf_asParent` and `typeOf_copy` say that the result has the type it should have.
-/

namespace PubSub

/-- Values that can be posted on a bus. -/
class EventValue (ε : Type) where
  /-- The type an event is posted under. -/
  typeOf : ε → EventType
  /-- The event seen as one of the given parent type. -/
  asParent : EventType → ε → Except Panic ε
  /-- The event once more. -/
  copy : ε → Except Panic ε
  typeOf_asParent : ∀ {p : EventType} {e e' : ε}, asParent p e = .ok e' → typeOf e' = p
  typeOf_copy : ∀ {e e' : ε}, copy e = .ok e' → typeOf e' = typeOf e

export EventValue (typeOf)

/-- How an event of a child type reaches handlers of its parent type. -/
structure Upcast where
  child : EventType
  parent : EventType
  deriving DecidableEq, Repr

namespace Upcast

/-- The ways of children to their parent. -/
def allTo (parent : EventType) (children : List EventType) : List Upcast :=
  children.map fun c => ⟨c, parent⟩

@[simp] theorem map_child_allTo (parent : EventType) (children : List EventType) :
    (allTo parent children).map child = children := by
  simp [allTo, Function.comp_def]

theorem allTo_inj {parent : EventType} {children children' : List EventType} :
    allTo parent children = allTo parent children' ↔ children = children' := by
  refine ⟨fun h => ?_, congrArg _⟩
  rw [← map_child_allTo parent children, h, map_child_allTo]

theorem parent_of_mem_allTo {parent : EventType} {children : List EventType} {u : Upcast}
    (h : u ∈ allTo parent children) : u.parent = parent := by
  obtain ⟨c, -, rfl⟩ := List.mem_map.1 h
  rfl

variable {ε : Type} [EventValue ε]

/-- Sees an event of the child type as one of the parent type; an event of any other type is not
seen at all. -/
def see? (u : Upcast) (e : ε) : Option (Except Panic ε) :=
  if typeOf e = u.child then some (EventValue.asParent u.parent e) else none

/-- **An upcast sees exactly the events of its child type.** -/
theorem see?_isSome {u : Upcast} {e : ε} : (u.see? e).isSome ↔ typeOf e = u.child := by
  unfold see?
  split <;> simp [*]

/-- **What an upcast sees is of its parent type.** -/
theorem typeOf_of_see? {u : Upcast} {e e' : ε} (h : u.see? e = some (.ok e')) :
    typeOf e' = u.parent := by
  unfold see? at h
  split at h
  · exact EventValue.typeOf_asParent (Option.some.inj h)
  · simp at h

end Upcast

end PubSub
