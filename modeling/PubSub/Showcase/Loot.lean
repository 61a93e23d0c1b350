import PubSub.Showcase.Stage

/-!
# Showcase/Loot — parent handlers and declared children

Items are spawned and despawned.  A tracker follows all that happens to items with one handler
for the parent type, and spawns with another; it registers both at once.
-/

namespace PubSub.Showcase.Loot

/-- What happens to items. -/
inductive Event
  | item (id : Nat)
  | spawned (id : Nat) (x y : Int)
  | despawned (id : Nat)
  deriving DecidableEq, Repr

namespace Event

/-- The type of everything that happens to an item. -/
def itemType : EventType := .named 0 "ItemEvent"

/-- The type of spawns. -/
def spawnedType : EventType := .named 1 "ItemSpawned"

/-- The type of despawns. -/
def despawnedType : EventType := .named 2 "ItemDespawned"

/-- Spawns and despawns are seen as the item they happen to. -/
def asParent (p : EventType) (e : Event) : Except Panic Event :=
  if p = itemType then
    match e with
    | item id | spawned id _ _ | despawned id => .ok (item id)
  else .error .unreadable

/-- The type of an event. -/
def type : Event → EventType
  | item _ => itemType
  | spawned .. => spawnedType
  | despawned _ => despawnedType

theorem type_asParent {p : EventType} {e e' : Event} (h : e.asParent p = .ok e') :
    e'.type = p := by
  unfold asParent at h
  split at h
  · next hp => cases e <;> (injection h with h; rw [← h, hp]; rfl)
  · cases h

instance : EventValue Event where
  typeOf := type
  asParent := asParent
  copy := .ok
  typeOf_asParent := type_asParent
  typeOf_copy h := by injection h with h; rw [h]

end Event

/-- What the tracker has counted. -/
structure Counters where
  items : Nat
  spawns : Nat
  deriving DecidableEq, Repr

/-- What the handlers of the tracker do. -/
def answer (c : Callback) (e : Event) (s : Scene Counters) : Scene Counters × Outcome :=
  match c.number, e with
  | 0, .item id =>
    let s := s.say ("[loot] item " ++ toString id)
    ({ s with state := { s.state with items := s.state.items + 1 } }, .returned true)
  | 1, .spawned _ x y =>
    let s := s.say ("[loot] spawned at " ++ Text.paired (toString x) (toString y))
    ({ s with state := { s.state with spawns := s.state.spawns + 1 } }, .returned true)
  | _, _ => (s, .returned true)

/-- The handlers of the tracker. -/
def handlers : List Interest :=
  [⟨Event.itemType, "on_item_event", ⟨0⟩⟩, ⟨Event.spawnedType, "on_item_spawned", ⟨1⟩⟩]

/-- The life of a tracker. -/
def program : Act Event Counters Unit := do
  let owner := firstOwner "loot-tracker"
  Act.orEnd DeclareError.message
    (← Act.onBus (·.declare Event.itemType [Event.spawnedType, Event.despawnedType]))
  Act.orEnd RegisterError.message (← Act.onBus (·.register owner handlers))
  for e in [Event.spawned 1 3200 3200, .despawned 1, .item 2] do
    Act.post answer e
  Act.onBus (·.unregister owner)
  Act.say ""
  Act.say "Loot:"
  Act.say (" ├─► Item events: " ++ toString (← Act.ask (·.items)))
  Act.say (" └─► Spawns:      " ++ toString (← Act.ask (·.spawns)))

/-! ## Lines in no particular order

The handlers of one event run in no particular order, so neighbouring lines of theirs are shown
sorted. -/

/-- Whether a handler of the tracker printed the line. -/
def isTracked (line : String) : Bool := "[loot]".toList.isPrefixOf line.toList

/-- Puts a line before a sorted run of lines. -/
def sortIn (line : String) : List String → List String
  | [] => [line]
  | l :: rest =>
    if isTracked l && l < line then l :: sortIn line rest else line :: l :: rest

/-- The lines, neighbouring ones of the tracker sorted. -/
def sorted (lines : List String) : List String :=
  lines.foldr (fun l rest => if isTracked l then sortIn l rest else l :: rest) []

/-- What the program shows. -/
def showing : Showing :=
  let s := program.showing ⟨0, 0⟩
  { s with lines := sorted s.lines }

end PubSub.Showcase.Loot
