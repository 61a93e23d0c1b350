import PubSub.Showcase.Stage

/-!
# Showcase/Login — one-shots

A line is printed when the login screen is first shown, ticks are followed until the third, and at
the end the program waits for one more tick, which is posted while it waits.
-/

namespace PubSub.Showcase.Login

/-- What happens at a login. -/
inductive Event
  | screen
  | tick (n : Nat)
  deriving DecidableEq, Repr

namespace Event

/-- The type of login screens. -/
def screenType : EventType := .named 0 "LoginScreen"

/-- The type of ticks. -/
def tickType : EventType := .named 1 "GameTick"

instance : EventValue Event where
  typeOf
    | screen => screenType
    | tick _ => tickType
  asParent _ _ := .error .unreadable
  copy := .ok
  typeOf_asParent h := nomatch h
  typeOf_copy h := by injection h with h; rw [h]

/-- The event as a value. -/
def inspect : Event → String
  | screen => "LoginScreen"
  | tick n => "GameTick(" ++ toString n ++ ")"

end Event

/-- What the one-shots do. -/
def answer (c : Callback) (e : Event) (s : Scene Unit) : Scene Unit × Outcome :=
  match c.number, e with
  | 0, _ => (s.say "[once] login screen shown", .returned true)
  | 1, .tick n => (s.say ("[once_or_more] tick " ++ toString n), .returned (3 ≤ n))
  | _, _ => (s, .returned true)

/-- The life of a login. -/
def program : Act Event Unit Unit := do
  Act.changeBus (·.once Event.screenType ⟨0⟩)
  Act.post answer .screen
  Act.post answer .screen
  Act.changeBus (·.onceOrMore Event.tickType ⟨1⟩)
  for n in [1, 2, 3, 4] do
    Act.post answer (.tick n)
    Act.say ("  pending after tick " ++ toString n ++ ": "
      ++ toString (← Act.askBus (·.pending Event.tickType)))
  let mailbox ← Act.onBus fun b => ⟨(b.next Event.tickType).1, (b.next Event.tickType).2, []⟩
  Act.post answer (.tick 42)
  match ← Act.onBus fun b => ⟨(b.poll mailbox).1, (b.poll mailbox).2, []⟩ with
  | .got e => Act.say ("[next] received " ++ e.inspect)
  | .nothing | .closed => throw "channel closed"

/-- What the program shows. -/
def showing : Showing := program.showing ()

end PubSub.Showcase.Login
