import PubSub.Showcase.Stage

/-!
# Showcase/Chat — registering, posting, unregistering

A chat panel counts ticks, echoes messages, and complains of empty ones.  That one of the two
handlers of a message fails does not keep the other from its work, and once the panel has
unregistered nothing reaches it any more.
-/

namespace PubSub.Showcase.Chat

/-- What happens around a chat. -/
inductive Event
  | tick
  | message (text : String)
  deriving DecidableEq, Repr

namespace Event

/-- The type of ticks. -/
def tickType : EventType := .named 0 "GameTick"

/-- The type of messages. -/
def messageType : EventType := .named 1 "ChatMessage"

instance : EventValue Event where
  typeOf
    | tick => tickType
    | message _ => messageType
  asParent _ _ := .error .unreadable
  copy := .ok
  typeOf_asParent h := nomatch h
  typeOf_copy h := by injection h with h; rw [h]

end Event

/-- What the handlers of the panel do; they keep the number of ticks. -/
def answer (c : Callback) (e : Event) (s : Scene Nat) : Scene Nat × Outcome :=
  match c.number, e with
  | 0, _ => ({ s with state := s.state + 1 }, .returned true)
  | 1, .message "" => (s, .faulted (.error (.failed "empty chat message")))
  | 2, .message text => (s.say ("[chat] " ++ Text.quoted text), .returned true)
  | _, _ => (s, .returned true)

/-- The handlers of the panel. -/
def handlers : List Interest :=
  [⟨Event.tickType, "on_game_tick", ⟨0⟩⟩, ⟨Event.messageType, "on_chat_message", ⟨1⟩⟩,
    ⟨Event.messageType, "on_chat_echo", ⟨2⟩⟩]

/-- The life of a chat panel. -/
def program : Act Event Nat Unit := do
  let owner := firstOwner "chat-panel"
  Act.orEnd RegisterError.message (← Act.onBus (·.register owner handlers))
  Act.say ("registered: " ++ toString (← Act.askBus (·.census.subscriptions)) ++ " subscriptions")
  for e in [Event.tick, .tick, .tick, .message "hello", .message ""] do
    Act.post answer e
  Act.onBus (·.unregister owner)
  Act.post answer .tick
  Act.say ("ticks seen: " ++ toString (← Act.ask id))

/-- What the program shows. -/
def showing : Showing := program.showing 0

end PubSub.Showcase.Chat
