import PubSub.Event

/-!
# Scenario/Value — the events that scenarios post

An event of a scenario has a type and contents.  Nodes hold a number and are the events that can
be seen as one another: seen as a node of a parent type, a node keeps its number and remembers
where it came from.  A node may be brittle, so that seeing it as a parent panics, and it may
refuse to be copied.
-/

namespace PubSub.Scenario

/-- The contents of an event. -/
inductive Content
  /-- A number, with the type it was seen as a parent from and to, and the texts of the panics in
  which seeing it as a parent and copying it end, if they do. -/
  | node (number : Int) (via : Option (EventType × EventType)) (brittle uncopyable : Option String)
  | text (s : String)
  | number (n : Int)
  | box (inside : EventType)
  | blank
  deriving DecidableEq, Repr

/-- An event. -/
structure Value where
  type : EventType
  content : Content
  deriving DecidableEq, Repr

/-- What a handler shows of an event it was called with. -/
inductive View
  | node (number : Int) (via : Option (EventType × EventType))
  | text (s : String)
  | number (n : Int)
  | box (inside : EventType)
  | blank
  deriving DecidableEq, Repr

namespace Value

/-- The event seen as one of type `p`: only a node can be, and not a brittle one. -/
def asParent (p : EventType) (e : Value) : Except Panic Value :=
  match e.content with
  | .node _ _ (some text) _ => .error (.text text)
  | .node n _ none uncopyable => .ok ⟨p, .node n (some (e.type, p)) none uncopyable⟩
  | _ => .error .unreadable

/-- The event once more, unless it refuses to be copied. -/
def copy (e : Value) : Except Panic Value :=
  match e.content with
  | .node _ _ _ (some text) => .error (.text text)
  | _ => .ok e

theorem type_asParent {p : EventType} {e e' : Value} (h : e.asParent p = .ok e') : e'.type = p := by
  unfold asParent at h
  split at h <;> simp_all
  exact h ▸ rfl

theorem eq_of_copy {e e' : Value} (h : e.copy = .ok e') : e' = e := by
  unfold copy at h
  split at h <;> simp_all

instance : EventValue Value where
  typeOf := type
  asParent := asParent
  copy := copy
  typeOf_asParent := type_asParent
  typeOf_copy h := congrArg type (eq_of_copy h)

/-- What a handler shows of the event. -/
def view (e : Value) : View :=
  match e.content with
  | .node n via _ _ => .node n via
  | .text s => .text s
  | .number n => .number n
  | .box inside => .box inside
  | .blank => .blank

/-- The number that the event counts as. -/
def magnitude (e : Value) : Int :=
  match e.content with
  | .node n _ _ _ | .number n => n
  | _ => 0

end Value

/-! ## Making events -/

/-- What the events of a type hold. -/
inductive Shape
  | node | text | number | blank
  /-- A box around an event of the given type, unless told otherwise. -/
  | box (inside : EventType)
  deriving DecidableEq, Repr

/-- What is given for an event: the parts that its type has no use for are left out of it. -/
structure Ingredients where
  number : Int := 0
  text : String := ""
  brittle : Option String := none
  uncopyable : Option String := none
  deriving DecidableEq, Repr

/-- The event of a type. -/
def Shape.event (shape : Shape) (type : EventType) (i : Ingredients) : Value :=
  match shape with
  | .node => ⟨type, .node i.number none i.brittle i.uncopyable⟩
  | .text => ⟨type, .text i.text⟩
  | .number => ⟨type, .number i.number⟩
  | .box inside => ⟨type, .box inside⟩
  | .blank => ⟨type, .blank⟩

/-- The event in a box of the given type. -/
def Value.boxed (e : Value) (boxType : EventType) : Value := ⟨boxType, .box e.type⟩

end PubSub.Scenario
