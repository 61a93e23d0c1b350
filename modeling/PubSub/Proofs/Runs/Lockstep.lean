import PubSub.Proofs.Post.Stack
import PubSub.Proofs.Runs.Alike

/-!
# Proofs/Runs/Lockstep — two buses that do the same

    b  ──c──▸ · ──c'──▸ · …        answers, calls and what the reader heeds of the log:
    b' ──c──▸ · ──c'──▸ · …        the same on both

Two buses are `Alike` for a reader when their directories and backlogs are, the same posts are
running on both, and, if the reader heeds reports, their tallies are equal.  Settings are not
compared.  Whatever is done to two buses that are alike is answered alike and leaves them alike, so
they stay in step along any run.
-/

namespace PubSub

variable {ε : Type}

/-- What a bus answers at a moment to somebody who only asks. -/
structure View where
  pending : EventType → Nat
  isRegistered : Owner → Bool
  census : Census
  hasSubscribers : EventType → Bool

namespace Bus

/-- What can be asked of the bus now. -/
def view (b : Bus ε) : View :=
  ⟨b.pending, b.isRegistered, b.census, fun t => (b.hasSubscribers t).value⟩

/-- A reader sees no difference between two buses, and no command will show it one. -/
structure Alike (r : Reader) (b b' : Bus ε) : Prop where
  directory : b.directory.Alike r b'.directory
  backlog : b.backlog.Alike r b'.backlog
  mailboxes : b.mailboxes = b'.mailboxes
  tickets : b.tickets = b'.tickets
  running : b.running = b'.running
  tally : r.reports = true → b.tally = b'.tally

/-- New buses are alike, and whoever does not heed reports cannot tell how they are set. -/
theorem alike_new {r : Reader} {c c' : Config} (h : r.reports = true → c = c') :
    Alike r (new c : Bus ε) (new c') where
  directory := .refl r Directory.coherent_empty
  backlog := .refl r Backlog.sound_empty
  mailboxes := rfl
  tickets := rfl
  running := rfl
  tally hr := congrArg Tally.ofConfig? (h hr)

theorem filter_due {r : Reader} (hr : r.reports = false) (b : Bus ε) (t : EventType) :
    (b.due t).filter r.reads = [] := by
  unfold due
  split
  · rfl
  · split
    · exact Reader.filter_unread hr
    · rfl

namespace Alike

variable {r : Reader} {b b' : Bus ε}

/-! ## What calls nobody -/

theorem register (h : Alike r b b') (o : Owner) (interests : List Interest) :
    Logged.Agree r (Alike r) (b.register o interests) (b'.register o interests) := by
  have hd := h.directory.register o interests
  have hstate : Alike r { b with directory := (b.directory.register o interests).state }
      { b' with directory := (b'.directory.register o interests).state } :=
    { h with directory := hd.state }
  have hlog : ∀ x : Record, ((b.directory.register o interests).log ++ [x]).filter r.reads =
      ((b'.directory.register o interests).log ++ [x]).filter r.reads := fun x => by
    rw [List.filter_append, List.filter_append, hd.log]
  unfold Bus.register
  dsimp only
  rw [← hd.value]
  split
  · exact ⟨hstate, rfl, hlog _⟩
  · exact ⟨hstate, rfl, hlog _⟩

theorem unregister (h : Alike r b b') (o : Owner) :
    Logged.Agree r (Alike r) (b.unregister o) (b'.unregister o) := by
  obtain ⟨hremoved, hd⟩ := h.directory.unregister o.id
  refine ⟨{ h with directory := hd }, rfl, ?_⟩
  rw [Bus.unregister, Bus.unregister, hremoved]

theorem declare (h : Alike r b b') (parent : EventType) (children : List EventType) :
    Logged.Agree r (Alike r) (b.declare parent children) (b'.declare parent children) :=
  have hd := h.directory.declare parent children
  ⟨{ h with directory := hd.state }, hd.value, hd.log⟩

theorem hasSubscribers (h : Alike r b b') (t : EventType) :
    Logged.Agree r (Alike r) (b.hasSubscribers t) (b'.hasSubscribers t) :=
  have hd := h.directory.hasSubscribers t
  ⟨{ h with directory := hd.state }, hd.value, hd.log⟩

/-- **Whoever only asks is answered the same.** -/
theorem view (h : Alike r b b') : b.view = b'.view := by
  have hpending : b.pending = b'.pending := funext fun t =>
    congrArg List.length (h.backlog.waiting t)
  have hregistered : b.isRegistered = b'.isRegistered := funext fun o =>
    congrArg (Table.contains · o.id) h.directory.holdings
  have hsubscribers : ∀ t, (b.hasSubscribers t).value = (b'.hasSubscribers t).value := fun t =>
    (h.hasSubscribers t).value
  unfold Bus.view Bus.census
  rw [hpending, hregistered, h.directory.census, funext hsubscribers]

theorem queue (h : Alike r b b') (t : EventType) (task : Task) :
    Alike r (b.queue t task) (b'.queue t task) := by
  unfold Bus.queue
  rw [← h.tickets]
  exact { h with backlog := h.backlog.add _, tickets := rfl }

theorem next (h : Alike r b b') (t : EventType) :
    (b.next t).2 = (b'.next t).2 ∧ Alike r (b.next t).1 (b'.next t).1 := by
  have hboxes : Alike r { b with mailboxes := b.mailboxes ++ [.waiting] }
      { b' with mailboxes := b'.mailboxes ++ [.waiting] } :=
    { h with mailboxes := congrArg (· ++ [Mailbox.waiting]) h.mailboxes }
  unfold Bus.next
  rw [← h.mailboxes] at hboxes ⊢
  exact ⟨rfl, hboxes.queue t _⟩

theorem poll (h : Alike r b b') (mailbox : Nat) :
    (b.poll mailbox).2 = (b'.poll mailbox).2 ∧ Alike r (b.poll mailbox).1 (b'.poll mailbox).1 := by
  unfold Bus.poll
  rw [← h.mailboxes]
  split
  · exact ⟨rfl, h⟩
  · exact ⟨rfl, { h with mailboxes := rfl }⟩

/-! ## Parts of a post -/

/-- **Posts end alike**, and whoever does not heed reports cannot tell who counts them. -/
theorem finish (h : Alike r b b') (t : EventType) (ending : Ending) :
    Logged.Agree r (Alike r) (b.finish t ending) (b'.finish t ending) := by
  rw [finish_eq, finish_eq]
  refine ⟨{ h with tally := fun hr => ?_ }, rfl, ?_⟩
  · exact congrArg (Option.map _) (h.tally hr)
  · cases hr : r.reports with
    | true =>
      have hdue : b.due t = b'.due t := by
        rw [due, due, h.tally hr, Bus.census, Bus.census, h.directory.census]
      exact congrArg _ hdue
    | false => exact (filter_due hr b t).trans (filter_due hr b' t).symm

theorem stop (h : Alike r b b') (f : Frame ε) (call : Call ε) :
    Logged.Agree r (Alike r) (b.stop f call) (b'.stop f call) :=
  ⟨{ h with running := congrArg (f :: ·) h.running }, rfl, rfl⟩

theorem requeue (h : Alike r b b') (t : EventType) (l : List OneShot) :
    Alike r (b.requeue t l) (b'.requeue t l) :=
  { h with backlog := h.backlog.modify t fun hq => hq.addAll l }

/-- **Ending a batch does not show**, whatever lists either bus keeps. -/
theorem settle (h : Alike r b b') (t : EventType) (size : Nat) :
    Alike r (b.settle t size []) (b'.settle t size []) :=
  { h with backlog := h.backlog.modify t fun hq => hq.settle _ _ size }

theorem put (h : Alike r b b') (mailbox : Nat) (m : Mailbox ε) :
    Alike r { b with mailboxes := b.mailboxes.set mailbox m }
      { b' with mailboxes := b'.mailboxes.set mailbox m } :=
  { h with mailboxes := congrArg (List.set · mailbox m) h.mailboxes }

/-- Both take the directory and the backlog as they read them. -/
theorem opened (h : Alike r b b') : Alike r b.opened b'.opened :=
  { h with directory := h.directory.refresh.state, backlog := h.backlog.refresh.state }

theorem filter_openingLog (h : Alike r b b') :
    b.openingLog.filter r.reads = b'.openingLog.filter r.reads := by
  unfold openingLog
  rw [List.filter_append, List.filter_append, h.directory.refresh.log, h.backlog.refresh.log]

variable [EventValue ε]

theorem deliver (h : Alike r b b') (e : ε) (l : List Route) :
    Logged.Agree r (Alike r) (b.deliver e l) (b'.deliver e l) := by
  induction l with
  | nil => exact h.finish (typeOf e) .completed
  | cons route rest ih =>
    cases hcarries : route.carries e with
    | false =>
      rw [b.deliver_of_carries_eq_false rest hcarries, b'.deliver_of_carries_eq_false rest hcarries]
      exact ih
    | true =>
      rcases Bool.or_eq_true_iff.1 hcarries with hcall | hpanic
      · obtain ⟨call, hcall⟩ := Option.isSome_iff_exists.1 hcall
        rw [b.deliver_of_call rest hcall, b'.deliver_of_call rest hcall]
        exact h.stop ..
      · obtain ⟨p, hpanic⟩ := Option.isSome_iff_exists.1 hpanic
        rw [b.deliver_of_panic rest hpanic, b'.deliver_of_panic rest hpanic]
        exact ⟨h, rfl, rfl⟩

theorem visit (h : Alike r b b') (e : ε) (ahead : List Route) (size : Nat) (l : List OneShot) :
    Logged.Agree r (Alike r) (b.visit e ahead size l) (b'.visit e ahead size l) := by
  induction l generalizing b b' with
  | nil => exact (h.settle (typeOf e) size).deliver e ahead
  | cons s rest ih =>
    rw [Bus.visit_cons, Bus.visit_cons]
    split
    · cases s.task with
      | once c => exact h.stop ..
      | untilDone c => exact h.stop ..
      | deliver mailbox =>
        unfold fill
        cases EventValue.copy e with
        | ok copy => exact ih (h.put mailbox (.full copy))
        | error p => exact (ih (h.put mailbox .lost)).after rfl
    · exact ih (h.requeue (typeOf e) [s])

/-! ## Posts -/

/-- **Posts begin alike.** -/
theorem post (h : Alike r b b') (e : ε) (order : Arrangement Route) :
    Logged.Agree r (Alike r) (b.post e order) (b'.post e order) := by
  have hbatch : b.opened.backlog.batch? b.backlog.refresh.value (typeOf e) =
      b'.opened.backlog.batch? b'.backlog.refresh.value (typeOf e) :=
    h.backlog.batch?_refresh (typeOf e)
  have hahead := h.directory.routesTo (typeOf e)
  -- the same batch is found on both sides, so the mixed cases cannot be
  rcases b.post_cases e order with ⟨hnone, hpost⟩ | ⟨batch, hsome, hpost⟩
  · rcases b'.post_cases e order with ⟨-, hpost'⟩ | ⟨batch', hsome', -⟩
    · rw [hpost, hpost', hahead]
      exact (h.opened.deliver e _).after h.filter_openingLog
    · cases hnone.symm.trans (hbatch.trans hsome')
  · rcases b'.post_cases e order with ⟨hnone', -⟩ | ⟨batch', hsome', hpost'⟩
    · cases hnone'.symm.trans (hbatch.symm.trans hsome)
    · obtain rfl : batch = batch' := Option.some.inj (hsome.symm.trans (hbatch.trans hsome'))
      have hdetached := h.opened.backlog.modify (typeOf e) fun hq => hq.detach
      rw [hpost, hpost', hahead]
      refine (visit ?_ e _ _ batch).after h.filter_openingLog
      exact { h.opened with backlog := hdetached }

theorem resumeOneShot (h : Alike r b b') (e : ε) (ahead : List Route) (s : OneShot)
    (rest : List OneShot) (size : Nat) (o : Outcome) :
    Logged.Agree r (Alike r) (b.resumeOneShot e ahead s rest size o)
      (b'.resumeOneShot e ahead s rest size o) := by
  unfold Bus.resumeOneShot resumeOneShotBy
  split
  · exact h.visit e ahead size rest
  · exact (h.requeue (typeOf e) [s]).visit e ahead size rest
  · exact (((h.requeue (typeOf e) rest).settle (typeOf e) size).finish (typeOf e) _).after rfl
  · exact (h.visit e ahead size rest).after rfl

theorem resumeHandler (h : Alike r b b') (e : ε) (ahead : List Route) (route : Route)
    (o : Outcome) :
    Logged.Agree r (Alike r) (b.resumeHandler e ahead route o)
      (b'.resumeHandler e ahead route o) := by
  unfold Bus.resumeHandler resumeHandlerBy
  split
  · exact h.deliver e ahead
  · exact (h.finish (typeOf e) _).after rfl
  · exact (h.deliver e ahead).after rfl

/-- **Posts go on alike.** -/
theorem resume (h : Alike r b b') (o : Outcome) :
    Logged.Agree r (Alike r) (b.resume o) (b'.resume o) := by
  unfold Bus.resume resumeBy
  rw [← h.running]
  cases b.running with
  | nil => exact ⟨h, rfl, rfl⟩
  | cons f outer =>
    have houter : Alike r { b with running := outer } { b' with running := outer } :=
      { h with running := rfl }
    cases hs : f.stage with
    | oneShot s rest size =>
      simp only [hs]
      exact houter.resumeOneShot ..
    | handler route =>
      simp only [hs]
      exact houter.resumeHandler ..

/-! ## Commands -/

/-- **Two buses that are alike do a command alike.** -/
theorem exec (h : Alike r b b') (c : Command ε) :
    Logged.Agree r (Alike r) (b.exec c) (b'.exec c) := by
  cases c with
  | register o interests => exact (h.register o interests).map Reply.registered
  | unregister o => exact (h.unregister o).map fun _ => Reply.nothing
  | declare parent children => exact (h.declare parent children).map Reply.declared
  | once t callback => exact ⟨h.queue t _, rfl, rfl⟩
  | onceOrMore t callback => exact ⟨h.queue t _, rfl, rfl⟩
  | next t => exact ⟨(h.next t).2, congrArg Reply.mailbox (h.next t).1, rfl⟩
  | poll mailbox => exact ⟨(h.poll mailbox).2, congrArg Reply.polled (h.poll mailbox).1, rfl⟩
  | hasSubscribers t => exact (h.hasSubscribers t).map Reply.subscribers
  | post e order => exact (h.post e order).map Reply.progress
  | resume o => exact (h.resume o).map Reply.progress

end Alike

end Bus

end PubSub
