import PubSub.Conversation

/-!
# Showcase/Stage — a bus, what is printed, and what is logged

The programs of the showcase work on one bus, print lines, and end early when the bus refuses
something or a post is aborted.  Their handlers print lines too and keep a scene of their own, but
leave the bus alone.
-/

namespace PubSub.Showcase

/-- What a program and its handlers share. -/
structure Scene (σ : Type) where
  state : σ
  lines : List String

/-- A line more. -/
def Scene.say {σ : Type} (s : Scene σ) (line : String) : Scene σ :=
  { s with lines := s.lines ++ [line] }

/-- What a program works on. -/
structure Stage (ε σ : Type) where
  bus : Bus ε
  scene : Scene σ
  log : List Record

/-- A step of a program; it may end the program with a message. -/
abbrev Act (ε σ α : Type) := ExceptT String (StateM (Stage ε σ)) α

/-- What a program shows. -/
structure Showing where
  lines : List String
  log : List Record
  ending : Except String Unit

namespace Act

variable {ε σ α : Type}

/-- Prints a line. -/
def say (line : String) : Act ε σ Unit :=
  modify fun s => { s with scene := s.scene.say line }

/-- Does something on the bus. -/
def onBus (f : Bus ε → Logged (Bus ε) α) : Act ε σ α :=
  modifyGet fun s =>
    let r := f s.bus
    (r.value, { s with bus := r.state, log := s.log ++ r.log })

/-- Changes the bus. -/
def changeBus (f : Bus ε → Bus ε) : Act ε σ Unit := onBus fun b => ⟨f b, (), []⟩

/-- Reads something off the bus. -/
def askBus (f : Bus ε → α) : Act ε σ α := onBus fun b => ⟨b, f b, []⟩

/-- Reads what the handlers keep. -/
def ask (f : σ → α) : Act ε σ α := do return f (← get).scene.state

/-- Ends the program if something was refused. -/
def orEnd {β : Type} (message : β → String) : Except β Unit → Act ε σ Unit
  | .ok () => pure ()
  | .error e => throw (message e)

/-- Posts an event, the handlers doing what `answer` says. -/
def post [EventValue ε] (answer : Callback → ε → Scene σ → Scene σ × Outcome) (e : ε) :
    Act ε σ Unit := do
  let ending ← modifyGet fun s =>
    let r := s.bus.postWith e .listed (fun call => answer call.callback call.event) s.scene
    (r.2, ({ bus := r.1.bus, scene := r.1.state, log := s.log ++ r.1.log } : Stage ε σ))
  match ending with
  | .completed => pure ()
  | .aborted error => throw error.message
  | .unwound p => throw p.message

/-- Runs a program on a new bus. -/
def showing (p : Act ε σ Unit) (state : σ) : Showing :=
  let r := StateT.run (ExceptT.run p) ⟨.new {}, ⟨state, []⟩, []⟩
  ⟨r.2.scene.lines, r.2.log, r.1⟩

end Act

/-- The first owner that a program makes. -/
def firstOwner (name : String) : Owner := ⟨⟨1⟩, name⟩

end PubSub.Showcase
