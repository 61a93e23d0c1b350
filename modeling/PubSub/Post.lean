import PubSub.Bus

/-!
# Post — bringing an event to everyone who waits for it

    post ──▸ one-shots of the event's own type ──▸ routes of that type ──▸ counted
              │ a call                               │ a call
              ▼                                      ▼
          Progress.calling  ──user code──▸  resume

A post first takes the pending one-shots of exactly its type and then tries the routes that were
there when it began.  At each call it stops, and `resume` takes it on with the outcome.  A handler
that fails or panics is logged and the post goes on; a fatal error ends it, the one-shots not yet
met being pending again.  Only a panic of user code that sees a child event as its parent leaves
the post altogether, uncounted.

Types are only known when an event comes, so there are three places where it may turn out not to be
for whoever is met.  What is done there is a parameter of a post: `postBy` and `resumeBy` take
`Detours`, and `post` and `resume` are what they are with the `usual` ones.
-/

namespace PubSub

/-- A call that a post makes. -/
inductive Call (ε : Type)
  | oneShot (entry : OneShot) (callback : Callback) (event : ε)
  | handler (route : Route) (event : ε)
  deriving DecidableEq, Repr

namespace Call

variable {ε : Type}

/-- What is called. -/
def callback : Call ε → Callback
  | oneShot _ c _ => c
  | handler r _ => r.subscription.handler

/-- What it is called with. -/
def event : Call ε → ε
  | oneShot _ _ e => e
  | handler _ e => e

end Call

/-- How far a post has come. -/
inductive Progress (ε : Type)
  /-- It waits for this call to end. -/
  | calling (call : Call ε)
  /-- It is over. -/
  | finished (ending : Ending)
  /-- There is no post to go on with. -/
  | idle
  deriving DecidableEq, Repr

/-- The handler that a fatal error of a one-shot is put down to. -/
def OneShot.handlerName : String := "one-shot"

variable {ε : Type} [EventValue ε]

namespace Bus

/-- Ends the innermost post in good order: it is counted, and reported if a report is due. -/
def finish (b : Bus ε) (t : EventType) (ending : Ending) : Logged (Bus ε) (Progress ε) :=
  match b.tally with
  | none => ⟨b, .finished ending, []⟩
  | some tally =>
    let counted := tally.count t
    ⟨{ b with tally := some counted.1 }, .finished ending,
      if counted.2 then [.statistics (counted.1.report b.census)] else []⟩

/-- Stops a post at a call. -/
def stop (b : Bus ε) (f : Frame ε) (call : Call ε) : Logged (Bus ε) (Progress ε) :=
  ⟨{ b with running := f :: b.running }, .calling call, []⟩

/-- Puts one-shots back behind those that wait for a type. -/
def requeue (b : Bus ε) (t : EventType) (l : List OneShot) : Bus ε :=
  { b with backlog := b.backlog.modify t (·.addAll l) }

/-- Ends a batch of `size` one-shots of a type, `drained` being what is left of its list. -/
def settle (b : Bus ε) (t : EventType) (size : Nat) (drained : List OneShot) : Bus ε :=
  { b with backlog := b.backlog.modify t (·.settle b.config.recycleThreshold size drained) }

/-- Fills a mailbox with a copy of an event, or loses it to the panic that copying ends in. -/
def fill (b : Bus ε) (mailbox : Nat) (e : ε) : Bus ε × Option Panic :=
  match EventValue.copy e with
  | .ok copy => ({ b with mailboxes := b.mailboxes.set mailbox (.full copy) }, none)
  | .error p => ({ b with mailboxes := b.mailboxes.set mailbox .lost }, some p)

end Bus

/-! ## Those whom an event is not for -/

/-- How a post goes on from a bus. -/
abbrev Onward (ε : Type) := Bus ε → Logged (Bus ε) (Progress ε)

/-- What a post does about somebody its event is not for, before it goes on. -/
structure Detours (ε : Type) where
  /-- The route does not see the event. -/
  unseen : ε → Route → Onward ε → Onward ε
  /-- The handler waits for another type than that of what its route sees. -/
  unsuited : ε → Route → Onward ε → Onward ε
  /-- The one-shot waits for another type. -/
  misplaced : ε → OneShot → Onward ε → Onward ε

/-- What posts do: they pass over handlers and put one-shots back. -/
def Detours.usual : Detours ε where
  unseen _ _ go := go
  unsuited _ _ go := go
  misplaced e s go b := go (b.requeue (typeOf e) [s])

namespace Bus

/-! ## Going on to the next call -/

/-- Tries routes in order up to the next call. -/
def deliverBy (d : Detours ε) (e : ε) : List Route → Onward ε
  | [], b => b.finish (typeOf e) .completed
  | r :: rest, b =>
    match r.target? e with
    | none => d.unseen e r (deliverBy d e rest) b
    | some (.error p) => ⟨b, .finished (.unwound p), []⟩
    | some (.ok seen) =>
      if typeOf seen = r.subscription.event then
        b.stop ⟨e, .handler r, rest⟩ (.handler r seen)
      else d.unsuited e r (deliverBy d e rest) b

/-- Works through the rest of a batch of `size` up to the next call, then goes on to the routes
`ahead`. -/
def visitBy (d : Detours ε) (e : ε) (ahead : List Route) (size : Nat) : List OneShot → Onward ε
  | [], b => deliverBy d e ahead (b.settle (typeOf e) size [])
  | s :: rest, b =>
    if typeOf e = s.event then
      match s.task with
      | .once c | .untilDone c =>
        b.stop ⟨e, .oneShot s rest size, ahead⟩ (.oneShot s c e)
      | .deliver mailbox =>
        match b.fill mailbox e with
        | (b, none) => visitBy d e ahead size rest b
        | (b, some p) =>
          (visitBy d e ahead size rest b).after [.oneShotFaulted (typeOf e) (.panic p)]
    else d.misplaced e s (visitBy d e ahead size rest) b

/-- Begins to post an event, `order` being the order in which its handlers are called. -/
def postBy (d : Detours ε) (b : Bus ε) (e : ε) (order : Arrangement Route) :
    Logged (Bus ε) (Progress ε) :=
  let ahead := order.apply (b.directory.routesTo (typeOf e))
  let routes := b.directory.refresh
  let types := b.backlog.refresh
  let b := { b with directory := routes.state, backlog := types.state }
  let going :=
    match b.backlog.batch? types.value (typeOf e) with
    | none => deliverBy d e ahead b
    | some batch =>
      let b := { b with backlog := b.backlog.modify (typeOf e) Queue.detach }
      visitBy d e ahead batch.length batch b
  going.after (routes.log ++ types.log)

/-- Goes on after a call for a one-shot. -/
def resumeOneShotBy (d : Detours ε) (b : Bus ε) (e : ε) (ahead : List Route) (s : OneShot)
    (rest : List OneShot) (size : Nat) (o : Outcome) : Logged (Bus ε) (Progress ε) :=
  let t := typeOf e
  match s.verdict o with
  | .returned true => visitBy d e ahead size rest b
  | .returned false => visitBy d e ahead size rest (b.requeue t [s])
  | .faulted (.error (.fatal text)) =>
    (((b.requeue t rest).settle t size []).finish t
        (.aborted ⟨OneShot.handlerName, t, text⟩)).after
      [.oneShotFaulted t (.error (.fatal text))]
  | .faulted fault => (visitBy d e ahead size rest b).after [.oneShotFaulted t fault]

/-- Goes on after a call for a route. -/
def resumeHandlerBy (d : Detours ε) (b : Bus ε) (e : ε) (ahead : List Route) (r : Route)
    (o : Outcome) : Logged (Bus ε) (Progress ε) :=
  let s := r.subscription
  let t := typeOf e
  match o with
  | .returned _ => deliverBy d e ahead b
  | .faulted (.error (.fatal text)) =>
    (b.finish t (.aborted ⟨s.name, t, text⟩)).after
      [.handlerFaulted s.owner s.name t (.error (.fatal text))]
  | .faulted fault => (deliverBy d e ahead b).after [.handlerFaulted s.owner s.name t fault]

/-- Goes on with the innermost post, the call that it waits for having ended. -/
def resumeBy (d : Detours ε) (b : Bus ε) (o : Outcome) : Logged (Bus ε) (Progress ε) :=
  match b.running with
  | [] => ⟨b, .idle, []⟩
  | f :: outer =>
    let b := { b with running := outer }
    match f.stage with
    | .oneShot s rest size => b.resumeOneShotBy d f.event f.ahead s rest size o
    | .handler r => b.resumeHandlerBy d f.event f.ahead r o

/-! ## Posts as they are -/

/-- Tries routes in order up to the next call.  An event that a route does not see, or that is not
what its handler waits for, passes it by. -/
def deliver (b : Bus ε) (e : ε) (l : List Route) : Logged (Bus ε) (Progress ε) :=
  deliverBy .usual e l b

/-- Works through the rest of a batch of `size` up to the next call, then goes on to the routes
`ahead`.  A one-shot that waits for another type is put back. -/
def visit (b : Bus ε) (e : ε) (ahead : List Route) (size : Nat) (l : List OneShot) :
    Logged (Bus ε) (Progress ε) := visitBy .usual e ahead size l b

/-- Begins to post an event, `order` being the order in which its handlers are called. -/
def post (b : Bus ε) (e : ε) (order : Arrangement Route) : Logged (Bus ε) (Progress ε) :=
  b.postBy .usual e order

/-- Goes on after a call for a one-shot. -/
def resumeOneShot (b : Bus ε) (e : ε) (ahead : List Route) (s : OneShot) (rest : List OneShot)
    (size : Nat) (o : Outcome) : Logged (Bus ε) (Progress ε) :=
  b.resumeOneShotBy .usual e ahead s rest size o

/-- Goes on after a call for a route. -/
def resumeHandler (b : Bus ε) (e : ε) (ahead : List Route) (r : Route) (o : Outcome) :
    Logged (Bus ε) (Progress ε) := b.resumeHandlerBy .usual e ahead r o

/-- Goes on with the innermost post, the call that it waits for having ended. -/
def resume (b : Bus ε) (o : Outcome) : Logged (Bus ε) (Progress ε) := b.resumeBy .usual o

theorem deliver_cons (b : Bus ε) (e : ε) (r : Route) (rest : List Route) :
    b.deliver e (r :: rest) =
      match r.target? e with
      | none => b.deliver e rest
      | some (.error p) => ⟨b, .finished (.unwound p), []⟩
      | some (.ok seen) =>
        if typeOf seen = r.subscription.event then
          b.stop ⟨e, .handler r, rest⟩ (.handler r seen)
        else b.deliver e rest := rfl

theorem visit_nil (b : Bus ε) (e : ε) (ahead : List Route) (size : Nat) :
    b.visit e ahead size [] = (b.settle (typeOf e) size []).deliver e ahead := rfl

theorem visit_cons (b : Bus ε) (e : ε) (ahead : List Route) (size : Nat) (s : OneShot)
    (rest : List OneShot) :
    b.visit e ahead size (s :: rest) =
      if typeOf e = s.event then
        match s.task with
        | .once c | .untilDone c =>
          b.stop ⟨e, .oneShot s rest size, ahead⟩ (.oneShot s c e)
        | .deliver mailbox =>
          match b.fill mailbox e with
          | (b, none) => b.visit e ahead size rest
          | (b, some p) =>
            (b.visit e ahead size rest).after [.oneShotFaulted (typeOf e) (.panic p)]
      else (b.requeue (typeOf e) [s]).visit e ahead size rest := rfl

/-- At most so many calls the innermost post has yet to make, the one it waits for included. -/
def callsLeft (b : Bus ε) : Nat :=
  match b.running with
  | [] => 0
  | f :: _ =>
    match f.stage with
    | .oneShot _ rest _ => rest.length + 1 + f.ahead.length
    | .handler _ => 1 + f.ahead.length

end Bus

end PubSub
