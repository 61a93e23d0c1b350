import PubSub.Conversation
import PubSub.Scenario.World

/-!
# Scenario/Play — taking the actions of a scenario

    play (depth + 1)  ──action──▸  post  ──call──▸  script  ──its actions──▸  play depth

An action that posts calls scripts, and a script takes actions of its own.  `depth` bounds how far
calls nest: a script called at the bottom takes no actions.  A scenario that ends at all nests no
deeper than some depth, and from there on the bound changes nothing.
-/

namespace PubSub.Scenario

/-- How the actions of a script are taken. -/
abbrev Actor := List Action → World → World × List Result

/-! ## Posting -/

/-- A post that is being watched, on the bus at a place. -/
structure Watched where
  world : World
  place : Nat
  trace : List Item

/-- Calls a script: it takes its actions, the call is shown, and then it ends as it is told to. -/
def perform (actor : Actor) (call : Call Value) (p : Watched) : Watched × Outcome :=
  match p.world.cast[call.callback.number]? with
  | none => (p, .returned true)
  | some performer =>
    let n := performer.calls
    let world := p.world.countCall call.callback
    let acted :=
      if performer.script.acts n then actor performer.script.actions world else (world, [])
    let caller := match call with
      | .oneShot .. => Caller.oneShot
      | .handler .. => Caller.handler
    let item := Item.call caller performer.name performer.number n call.event.view acted.2 none
    ({ p with world := acted.1, trace := p.trace ++ [item] },
      (performer.script.returnAt n).outcome call.event (lastEnding acted.2))

/-- Adds what the bus logged to what could be watched. -/
def Watched.note (p : Watched) (log : List Record) : Watched :=
  { p with trace := (p.world.visible log).foldl Item.note p.trace }

/-- Lets the bus go on with its post. -/
def goOn (o : Outcome) (p : Watched) : Watched × Progress Value :=
  match p.world.shared[p.place]? with
  | none => (p, .idle)
  | some s =>
    let r := s.bus.resume o
    ({ p with world := p.world.setBus p.place r.state }.note r.log, r.value)

/-- Posts an event once on the bus at a place. -/
def postOnce (actor : Actor) (place : Nat) (e : Value) (w : World) :
    (World × List Item) × Ending :=
  match w.shared[place]? with
  | none => ((w, []), .completed)
  | some s =>
    let begun := s.bus.post e .listed
    let p := Watched.note ⟨w.setBus place begun.state, place, []⟩ begun.log
    let ended := converse (perform actor) goOn begun.state.callsLeft begun.value p
    ((ended.1.world, Item.arrange ended.1.trace), ended.2)

/-- Posts an event again and again, at most `times` times and until it does not succeed; `earlier`
is what could be watched before, newest first. -/
def postTimes (actor : Actor) (place : Nat) (e : Value) :
    Nat → Nat → World → List Item → (World × List Item) × Answer
  | 0, completed, w, earlier => ((w, earlier.reverse), .posted completed .completed)
  | times + 1, completed, w, earlier =>
    let once := postOnce actor place e w
    let earlier := once.1.2.reverse ++ earlier
    match once.2 with
    | .completed => postTimes actor place e times (completed + 1) once.1.1 earlier
    | ending => ((once.1.1, earlier.reverse), .posted completed ending)

/-- Posts an event on the bus of a name, which lives at least as long as the posts run. -/
def post (actor : Actor) (bus : String) (e : Value) (times : Nat) (w : World) : World × Result :=
  match w.bus? bus with
  | none => w.result .unknownName
  | some (place, _) =>
    let w := w.alter place fun s => { s with posts := s.posts + 1 }
    let done := postTimes actor place e times 0 w []
    (done.1.1.alter place fun s => { s with posts := s.posts - 1 }, ⟨done.2, done.1.2⟩)

/-! ## Actions -/

/-- Queues a script as a one-shot. -/
def enqueue (w : World) (bus : String) (name : String) (script : Script)
    (f : Callback → Bus Value → Bus Value) : World :=
  match w.bus? bus with
  | none => w
  | some (place, _) =>
    let made := w.enlist name script
    match made.1.shared[place]? with
    | none => made.1
    | some s => made.1.setBus place (f made.2 s.bus)

/-- Queues a script as a one-shot several times, each with a number and a count of its own. -/
def enqueueTimes (bus name : String) (script : Script) (f : Callback → Bus Value → Bus Value) :
    Nat → World → World
  | 0, w => w
  | n + 1, w => enqueueTimes bus name script f n (enqueue w bus name script f)

/-- Takes an action, the scripts that it leads to being played by `actor`. -/
def take (actor : Actor) (a : Action) (w : World) : World × Result :=
  match a with
  | .makeBus bus config => (w.makeBus bus config).result .nothing
  | .shareBus bus other =>
    match w.bus? bus with
    | none => w.result .unknownName
    | some (place, _) => (w.shareBus place other).result .nothing
  | .dropBus bus => (w.dropBus bus).result (.flag (w.buses.contains bus))
  | .makeOwner owner name => w.makeOwner owner name
  | .shareOwner owner other =>
    w.withOwner owner fun o => { w with owners := w.owners.insert other o }.result .nothing
  | .describeOwner owner => w.withOwner owner fun o => w.result (.owner o)
  | .compareOwners a b =>
    w.withOwner a fun o => w.withOwner b fun p => w.result (World.compareOwners o p)
  | .collect name handlers =>
    let made := w.enlistAll handlers
    { made.1 with collected := made.1.collected.insert name made.2 }.result (.interests made.2)
  | .register bus owner handlers =>
    w.withOwner owner fun o =>
      let made := w.enlistAll handlers
      made.1.register bus o made.2
  | .registerCollected bus owner name =>
    w.withOwner owner fun o =>
      match w.collected.get? name with
      | none => w.result .unknownName
      | some interests => w.register bus o interests
  | .makeSubscriber name owner batches =>
    w.withOwner owner fun o =>
      { w with members := w.members.insert name ⟨o, batches, 0⟩ }.result .nothing
  | .registerSubscriber bus name =>
    match w.members.get? name with
    | none => w.result .unknownName
    | some m =>
      let asked := w.askMember name m
      asked.1.register bus m.owner asked.2
  | .unregisterSubscriber bus name =>
    match w.members.get? name with
    | none => w.result .unknownName
    | some m => w.unregister bus m.owner
  | .unregister bus owner => w.withOwner owner fun o => w.unregister bus o
  | .isRegistered bus owner => w.withOwner owner fun o => w.askBus bus (.flag <| ·.isRegistered o)
  | .declare bus parent children =>
    w.onBus bus fun b =>
      let r := b.declare parent children
      let answer := match r.value with
        | .ok () => Answer.accepted
        | .error e => .notDeclared e
      ⟨r.state, answer, r.log⟩
  | .post bus event times => post actor bus event times w
  | .once bus event name script =>
    (enqueue w bus name script fun c b => b.once event c).result .nothing
  | .onceOrMore bus event name count script =>
    (enqueueTimes bus name script (fun c b => b.onceOrMore event c) count w).result .nothing
  | .next bus event slot => w.next bus event slot
  | .receive slot => w.receive slot
  | .dropSlot slot =>
    { w with slots := w.slots.erase slot }.result (.flag (w.slots.contains slot))
  | .hasSubscribers bus event =>
    w.onBus bus fun b =>
      let r := b.hasSubscribers event
      ⟨r.state, .flag r.value, r.log⟩
  | .pending bus event => w.askBus bus (.number <| ·.pending event)
  | .census bus => w.askBus bus (.census ·.census)
  | .statistics bus event =>
    w.askBus bus fun b =>
      .statistics b.statistics (event.bind fun t => b.statistics.map (·.count t))
  | .configuration bus => w.askBus bus (.configuration ·.config)
  | .inspect bus => w.askBus bus fun b => .shown b.inspect b.inspectLines

/-- Takes actions one after the other. -/
def takeAll (actor : Actor) : List Action → World → World × List Result
  | [], w => (w, [])
  | a :: rest, w =>
    let taken := take actor a w
    let others := takeAll actor rest taken.1
    (others.1, taken.2 :: others.2)

/-- Takes the actions of scripts whose calls nest up to `depth` deep. -/
def play : Nat → List Action → World → World × List Result
  | 0, _, w => (w, [])
  | depth + 1, actions, w => takeAll (play depth) actions w

/-- How deep the calls of a scenario may nest. -/
def depth : Nat := 100000

/-- The results of a scenario, for a reader of the log down to a level. -/
def run (least : Option Level) (actions : List Action) : List Result :=
  (play depth actions (.initial least)).2

end PubSub.Scenario
