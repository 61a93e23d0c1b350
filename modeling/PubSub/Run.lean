import PubSub.Post

/-!
# Run — everything that can happen to a bus

A run is a list of commands.  User code that is called by a post appears in it by what it does:
the commands it gives, and then the `resume` that ends the call.  So the commands between a post
and its end are those of its callbacks, posts among them, and what holds after every run holds at
every moment, however deep posts nest.
-/

namespace PubSub

/-- Something that is done to a bus. -/
inductive Command (ε : Type)
  | register (owner : Owner) (interests : List Interest)
  | unregister (owner : Owner)
  | declare (parent : EventType) (children : List EventType)
  | once (event : EventType) (callback : Callback)
  | onceOrMore (event : EventType) (callback : Callback)
  | next (event : EventType)
  | poll (mailbox : Nat)
  | hasSubscribers (event : EventType)
  | post (event : ε) (order : Arrangement Route)
  | resume (outcome : Outcome)

/-- The answer to a command. -/
inductive Reply (ε : Type)
  | nothing
  | registered (result : Except RegisterError Unit)
  | declared (result : Except DeclareError Unit)
  | mailbox (number : Nat)
  | polled (p : Poll ε)
  | subscribers (present : Bool)
  | progress (p : Progress ε)

namespace Logged

variable {σ α β : Type}

/-- The same with another answer. -/
def map (f : α → β) (r : Logged σ α) : Logged σ β := ⟨r.state, f r.value, r.log⟩

@[simp] theorem state_map (f : α → β) (r : Logged σ α) : (r.map f).state = r.state := rfl

@[simp] theorem value_map (f : α → β) (r : Logged σ α) : (r.map f).value = f r.value := rfl

@[simp] theorem log_map (f : α → β) (r : Logged σ α) : (r.map f).log = r.log := rfl

end Logged

namespace Bus

variable {ε : Type} [EventValue ε]

/-- Does a command, with detours in the posts. -/
def execBy (d : Detours ε) (b : Bus ε) : Command ε → Logged (Bus ε) (Reply ε)
  | .register o interests => (b.register o interests).map .registered
  | .unregister o => (b.unregister o).map fun _ => .nothing
  | .declare parent children => (b.declare parent children).map .declared
  | .once t c => ⟨b.once t c, .nothing, []⟩
  | .onceOrMore t c => ⟨b.onceOrMore t c, .nothing, []⟩
  | .next t => ⟨(b.next t).1, .mailbox (b.next t).2, []⟩
  | .poll mailbox => ⟨(b.poll mailbox).1, .polled (b.poll mailbox).2, []⟩
  | .hasSubscribers t => (b.hasSubscribers t).map .subscribers
  | .post e order => (b.postBy d e order).map .progress
  | .resume o => (b.resumeBy d o).map .progress

/-- Does commands one after the other, with detours in the posts; the answer is the list of their
answers. -/
def runBy (d : Detours ε) (b : Bus ε) : List (Command ε) → Logged (Bus ε) (List (Reply ε))
  | [] => ⟨b, [], []⟩
  | c :: rest =>
    let first := b.execBy d c
    let others := first.state.runBy d rest
    ⟨others.state, first.value :: others.value, first.log ++ others.log⟩

/-- Does a command. -/
def exec (b : Bus ε) (c : Command ε) : Logged (Bus ε) (Reply ε) := b.execBy .usual c

/-- Does commands one after the other; the answer is the list of their answers. -/
def run (b : Bus ε) (commands : List (Command ε)) : Logged (Bus ε) (List (Reply ε)) :=
  b.runBy .usual commands

/-- What `f` finds at each command of a run, the bus being as the command finds it. -/
def collect {α : Type} (f : Bus ε → Command ε → List α) (b : Bus ε) : List (Command ε) → List α
  | [] => []
  | c :: rest => f b c ++ (b.exec c).state.collect f rest

/-- The states that a new bus can come to. -/
def Reachable (b : Bus ε) : Prop := ∃ c commands, b = ((new c : Bus ε).run commands).state

theorem exec_resume (b : Bus ε) (o : Outcome) :
    b.exec (.resume o) = (b.resume o).map .progress := rfl

@[simp] theorem run_nil (b : Bus ε) : b.run [] = ⟨b, [], []⟩ := rfl

theorem run_cons (b : Bus ε) (c : Command ε) (rest : List (Command ε)) :
    b.run (c :: rest) = ⟨((b.exec c).state.run rest).state,
      (b.exec c).value :: ((b.exec c).state.run rest).value,
      (b.exec c).log ++ ((b.exec c).state.run rest).log⟩ := rfl

theorem state_run_append (b : Bus ε) (cs ds : List (Command ε)) :
    (b.run (cs ++ ds)).state = ((b.run cs).state.run ds).state := by
  induction cs generalizing b with
  | nil => rfl
  | cons c cs ih => exact ih _

theorem value_run_append (b : Bus ε) (cs ds : List (Command ε)) :
    (b.run (cs ++ ds)).value = (b.run cs).value ++ ((b.run cs).state.run ds).value := by
  induction cs generalizing b with
  | nil => rfl
  | cons c cs ih => exact congrArg (_ :: ·) (ih _)

theorem log_run_append (b : Bus ε) (cs ds : List (Command ε)) :
    (b.run (cs ++ ds)).log = (b.run cs).log ++ ((b.run cs).state.run ds).log := by
  induction cs generalizing b with
  | nil => rfl
  | cons c cs ih => exact (congrArg (_ ++ ·) (ih _)).trans (List.append_assoc ..).symm

theorem collect_append {α : Type} (f : Bus ε → Command ε → List α) (b : Bus ε)
    (cs ds : List (Command ε)) :
    b.collect f (cs ++ ds) = b.collect f cs ++ (b.run cs).state.collect f ds := by
  induction cs generalizing b with
  | nil => rfl
  | cons c cs ih => exact (congrArg (_ ++ ·) (ih _)).trans (List.append_assoc ..).symm

/-- **A command at the end of a run.** -/
theorem state_run_concat (b : Bus ε) (cs : List (Command ε)) (c : Command ε) :
    (b.run (cs ++ [c])).state = ((b.run cs).state.exec c).state := state_run_append b cs [c]

theorem collect_concat {α : Type} (f : Bus ε → Command ε → List α) (b : Bus ε)
    (cs : List (Command ε)) (c : Command ε) :
    b.collect f (cs ++ [c]) = b.collect f cs ++ f (b.run cs).state c :=
  (collect_append f b cs [c]).trans (congrArg (_ ++ ·) (List.append_nil _))

theorem reachable_new (c : Config) : Reachable (new c : Bus ε) := ⟨c, [], rfl⟩

/-- **A command leads from reachable states to reachable states.** -/
theorem Reachable.exec {b : Bus ε} (h : b.Reachable) (c : Command ε) :
    (b.exec c).state.Reachable := by
  obtain ⟨config, cs, rfl⟩ := h
  exact ⟨config, cs ++ [c], by rw [state_run_append]; rfl⟩

theorem Reachable.run {b : Bus ε} (h : b.Reachable) (commands : List (Command ε)) :
    (b.run commands).state.Reachable := by
  obtain ⟨config, cs, rfl⟩ := h
  exact ⟨config, cs ++ commands, (state_run_append ..).symm⟩

/-- **What holds of a new bus and is kept by every command holds in every reachable state.** -/
theorem Reachable.induction {P : Bus ε → Prop} (new : ∀ c, P (new c))
    (exec : ∀ b c, P b → P (b.exec c).state) {b : Bus ε} (h : b.Reachable) : P b := by
  obtain ⟨config, cs, rfl⟩ := h
  have key : ∀ (cs : List (Command ε)) (b : Bus ε), P b → P (b.run cs).state := by
    intro cs
    induction cs with
    | nil => exact fun _ hb => hb
    | cons c cs ih => exact fun b hb => ih _ (exec b c hb)
  exact key cs _ (new config)

end Bus

end PubSub
