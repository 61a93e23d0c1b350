import PubSub.Proofs.Directory.Registration
import PubSub.Proofs.Backlog.Waiting

/-!
# Proofs/Runs/Alike — states between which a reader sees no difference

    routes, queues rebuilt  ·  reports            a reader heeds these or not
    everything else                               every reader heeds

What is cached and what is kept for later never shows in an answer.  Two directories are `Alike`
when they hold the same subscriptions, two backlogs when the same one-shots are pending in them;
what is cached must agree only for a reader who heeds when it is rebuilt.  Whatever is asked of two
that are alike is answered alike, written to the log alike, and leaves them alike.
-/

namespace PubSub

/-! ## Readers -/

/-- A reader of the log, who heeds two kinds of records or leaves them out. -/
structure Reader where
  /-- Whether it heeds that routes or queues were listed anew. -/
  rebuilds : Bool
  /-- Whether it heeds reports of the tally. -/
  reports : Bool
  deriving DecidableEq, Repr

/-- Whether a reader heeds a record. -/
def Reader.reads (r : Reader) : Record → Bool
  | .routesRebuilt _ | .queuesRebuilt _ => r.rebuilds
  | .statistics _ => r.reports
  | _ => true

theorem Reader.filter_unread {r : Reader} {x : Record} (h : r.reads x = false) :
    [x].filter r.reads = [] := by
  rw [List.filter_singleton, h]
  rfl

/-- Two operations leave states that are related, answer the same, and write what the reader takes
to be the same. -/
structure Logged.Agree {σ σ' α : Type} (r : Reader) (R : σ → σ' → Prop) (x : Logged σ α)
    (x' : Logged σ' α) : Prop where
  state : R x.state x'.state
  value : x.value = x'.value
  log : x.log.filter r.reads = x'.log.filter r.reads

namespace Logged.Agree

variable {σ σ' α β : Type} {r : Reader} {R : σ → σ' → Prop} {x : Logged σ α} {x' : Logged σ' α}

/-- What is written after logs that read the same. -/
theorem log_append (h : Agree r R x x') {log log' : List Record}
    (hlog : log.filter r.reads = log'.filter r.reads) :
    (log ++ x.log).filter r.reads = (log' ++ x'.log).filter r.reads := by
  rw [List.filter_append, List.filter_append, hlog, h.log]

theorem after (h : Agree r R x x') {log log' : List Record}
    (hlog : log.filter r.reads = log'.filter r.reads) : Agree r R (x.after log) (x'.after log') :=
  ⟨h.state, h.value, h.log_append hlog⟩

theorem map (h : Agree r R x x') (f : α → β) : Agree r R (x.map f) (x'.map f) :=
  ⟨h.state, congrArg f h.value, h.log⟩

end Logged.Agree

/-! ## Directories -/

namespace Directory

theorem filter_log_refresh {r : Reader} (hr : r.rebuilds = false) (d : Directory) :
    d.refresh.log.filter r.reads = [] := by
  unfold refresh
  cases d.cached with
  | none => exact Reader.filter_unread hr
  | some routes => rfl

/-- The same subscriptions are held and listed, and what is cached is up to date. -/
structure Alike (r : Reader) (d d' : Directory) : Prop where
  holdings : d.holdings = d'.holdings
  listings : d.listings = d'.listings
  families : d.families = d'.families
  cached : r.rebuilds = true → d.cached = d'.cached
  coherent : d.Coherent
  coherent' : d'.Coherent

namespace Alike

variable {r : Reader} {d d' : Directory}

theorem refl (r : Reader) (h : d.Coherent) : Alike r d d := ⟨rfl, rfl, rfl, fun _ => rfl, h, h⟩

/-- Directories that are alike differ in what is cached. -/
theorem eq (h : Alike r d d') : d' = { d with cached := d'.cached } := by
  rw [h.holdings, h.listings, h.families]

theorem routesTo (h : Alike r d d') (t : EventType) : d.routesTo t = d'.routesTo t := by
  rw [h.coherent.routesTo_eq, h.coherent'.routesTo_eq, h.listings]

theorem census (h : Alike r d d') : d.census = d'.census := by
  rw [h.eq]
  rfl

/-- **Routes are read alike**, and whoever does not heed rebuilds cannot tell who rebuilt them. -/
theorem refresh (h : Alike r d d') : Logged.Agree r (Alike r) d.refresh d'.refresh := by
  have hstate : d.refresh.state = d'.refresh.state := by
    rw [h.coherent.state_refresh, h.coherent'.state_refresh, routeTable, routeTable, h.holdings,
      h.listings, h.families]
  refine ⟨hstate ▸ .refl r h.coherent.refresh, ?_, ?_⟩
  · rw [h.coherent.value_refresh, h.coherent'.value_refresh, routeTable, routeTable, h.listings]
  · cases hr : r.rebuilds with
    | true =>
      have hd : d' = d := h.eq.trans (by rw [← h.cached hr])
      rw [hd]
    | false => rw [filter_log_refresh hr, filter_log_refresh hr]

theorem hasSubscribers (h : Alike r d d') (t : EventType) :
    Logged.Agree r (Alike r) (d.hasSubscribers t) (d'.hasSubscribers t) :=
  ⟨h.refresh.state, by rw [Directory.hasSubscribers, Directory.hasSubscribers, h.routesTo],
    h.refresh.log⟩

theorem register (h : Alike r d d') (o : Owner) (is : List Interest) :
    Logged.Agree r (Alike r) (d.register o is) (d'.register o is) := by
  have hc := h.coherent.register o is
  have hc' := h.coherent'.register o is
  obtain ⟨c, rfl⟩ : ∃ c, d' = { d with cached := c } := ⟨_, h.eq⟩
  unfold Directory.register at hc hc' ⊢
  cases hdefect : is.findSome? Interest.defect? with
  | some e => exact ⟨h, rfl, rfl⟩
  | none =>
    simp only [hdefect, enterAll_recached] at hc hc' ⊢
    refine ⟨?_, rfl, rfl⟩
    -- nothing new: both keep what they have cached; something new: both drop it
    by_cases hzero : (enterAll o is d).value = 0
    · rw [if_pos hzero, if_pos hzero, enterAll_eq_of_value_eq_zero o is d hzero]
      exact h
    · rw [if_neg hzero] at hc hc' ⊢
      rw [if_neg hzero]
      exact ⟨rfl, rfl, rfl, fun _ => rfl, hc, hc'⟩

theorem unregister (h : Alike r d d') (o : OwnerId) :
    (d.unregister o).2 = (d'.unregister o).2 ∧ Alike r (d.unregister o).1 (d'.unregister o).1 := by
  have hc := h.coherent.unregister o
  have hc' := h.coherent'.unregister o
  obtain ⟨c, rfl⟩ : ∃ c, d' = { d with cached := c } := ⟨_, h.eq⟩
  unfold Directory.unregister at hc hc' ⊢
  cases ho : d.holdings.get? o with
  | none => exact ⟨rfl, h⟩
  | some held =>
    rw [ho] at hc hc'
    exact ⟨rfl, rfl, rfl, rfl, fun _ => rfl, hc, hc'⟩

theorem declare (h : Alike r d d') (p : EventType) (children : List EventType) :
    Logged.Agree r (Alike r) (d.declare p children) (d'.declare p children) := by
  have hc := h.coherent.declare p children
  have hc' := h.coherent'.declare p children
  obtain ⟨c, rfl⟩ : ∃ c, d' = { d with cached := c } := ⟨_, h.eq⟩
  unfold Directory.declare at hc hc' ⊢
  cases hf : d.families.contains p with
  | true => exact ⟨h, rfl, rfl⟩
  | false =>
    cases hbad : badChild? p [] children with
    | some e => exact ⟨h, rfl, rfl⟩
    | none =>
      rw [hf, hbad] at hc hc'
      exact ⟨⟨rfl, rfl, rfl, h.cached, hc, hc'⟩, rfl, rfl⟩

end Alike

end Directory

/-! ## Backlogs -/

namespace Queue

/-- The same one-shots are pending, and nothing is left in a spare list. -/
structure Alike (q q' : Queue) : Prop where
  pending : q.pending = q'.pending
  spare : q.spare.getD [] = []
  spare' : q'.spare.getD [] = []

namespace Alike

variable {q q' : Queue}

/-- **A one-shot is queued alike, whichever list it goes to.** -/
theorem add (h : q.Alike q') (s : OneShot) : (q.add s).Alike (q'.add s) := by
  refine ⟨?_, spare_add h.spare s, spare_add h.spare' s⟩
  unfold Queue.add
  rw [← h.pending]
  cases q.pending with
  | none => exact congrArg (fun l => some (l ++ [s])) (h.spare.trans h.spare'.symm)
  | some live => rfl

theorem addAll (h : q.Alike q') (l : List OneShot) : (q.addAll l).Alike (q'.addAll l) := by
  induction l generalizing q q' with
  | nil => exact h
  | cons s l ih => exact ih (h.add s)

theorem detach (h : q.Alike q') : q.detach.Alike q'.detach := ⟨rfl, h.spare, h.spare'⟩

theorem pending_settle (q : Queue) (threshold size : Nat) (drained : List OneShot) :
    (q.settle threshold size drained).pending = q.pending := by
  unfold Queue.settle
  split
  · rfl
  · rfl

/-- **Whether a drained list is kept does not show.** -/
theorem settle (h : q.Alike q') (threshold threshold' size : Nat) :
    (q.settle threshold size []).Alike (q'.settle threshold' size []) :=
  ⟨by rw [pending_settle, pending_settle, h.pending], spare_settle h.spare _ _,
    spare_settle h.spare' _ _⟩

theorem bind_pending {q q' : Option Queue} (h : Option.Rel Alike q q') :
    q.bind Queue.pending = q'.bind Queue.pending := by
  cases h with
  | none => rfl
  | some h => exact h.pending

theorem none_or_some {q q' : Option Queue} (h : Option.Rel Alike q q') :
    q = none ∧ q' = none ∨ ∃ p p', q = some p ∧ q' = some p' ∧ p.Alike p' := by
  cases h with
  | none => exact .inl ⟨rfl, rfl⟩
  | some h => exact .inr ⟨_, _, rfl, rfl, h⟩

theorem map {q q' : Option Queue} (h : Option.Rel Alike q q') {f f' : Queue → Queue}
    (hf : ∀ {q q'}, Alike q q' → (f q).Alike (f' q')) : Option.Rel Alike (q.map f) (q'.map f') := by
  cases h with
  | none => exact .none
  | some h => exact .some (hf h)

end Alike

end Queue

namespace Backlog

theorem filter_log_refresh {r : Reader} (hr : r.rebuilds = false) (b : Backlog) :
    b.refresh.log.filter r.reads = [] := by
  unfold refresh
  cases b.cached with
  | none => exact Reader.filter_unread hr
  | some types => rfl

/-- The same types have a queue, with the same one-shots pending, and what is cached is up to
date. -/
structure Alike (r : Reader) (b b' : Backlog) : Prop where
  keys : b.queues.keys = b'.queues.keys
  queues : ∀ t, Option.Rel Queue.Alike (b.queues.get? t) (b'.queues.get? t)
  cached : r.rebuilds = true → b.cached = b'.cached
  sound : b.Sound
  sound' : b'.Sound

namespace Alike

variable {r : Reader} {b b' : Backlog}

theorem refl (r : Reader) (h : b.Sound) : Alike r b b := by
  refine ⟨rfl, fun t => ?_, fun _ => rfl, h, h⟩
  cases hq : b.queues.get? t with
  | none => exact .none
  | some q => exact .some ⟨rfl, h.spare hq, h.spare hq⟩

/-- **The next post of a type takes the same batch.** -/
theorem batch?_refresh (h : Alike r b b') (t : EventType) :
    b.refresh.state.batch? b.refresh.value t = b'.refresh.state.batch? b'.refresh.value t := by
  rw [Backlog.batch?_refresh h.sound, Backlog.batch?_refresh h.sound']
  exact Queue.Alike.bind_pending (h.queues t)

theorem waiting (h : Alike r b b') (t : EventType) : b.waiting t = b'.waiting t := by
  rw [← getD_batch?_refresh h.sound, ← getD_batch?_refresh h.sound', h.batch?_refresh]

/-- **Queues are listed alike**, and whoever does not heed rebuilds cannot tell who listed them
anew. -/
theorem refresh (h : Alike r b b') : Logged.Agree r (Alike r) b.refresh b'.refresh := by
  have hs : b.refresh.state = { b with cached := some b.queues.keys } := h.sound.state_refresh
  have hs' : b'.refresh.state = { b' with cached := some b'.queues.keys } := h.sound'.state_refresh
  refine ⟨⟨?_, ?_, fun _ => ?_, h.sound.refresh, h.sound'.refresh⟩, ?_, ?_⟩
  · rw [hs, hs']
    exact h.keys
  · rw [hs, hs']
    exact h.queues
  · rw [hs, hs', h.keys]
  · rw [h.sound.value_refresh, h.sound'.value_refresh, h.keys]
  · cases hr : r.rebuilds with
    | true =>
      have hsize : b.queues.size = b'.queues.size := by
        rw [← Table.length_keys, ← Table.length_keys, h.keys]
      unfold Backlog.refresh
      rw [← h.cached hr, hsize]
      cases b.cached <;> rfl
    | false => rw [filter_log_refresh hr, filter_log_refresh hr]

/-- **Changing the queue of a type alike keeps backlogs alike.** -/
theorem modify (h : Alike r b b') (t : EventType) {f f' : Queue → Queue}
    (hf : ∀ {q q'}, q.Alike q' → (f q).Alike (f' q')) :
    Alike r (b.modify t f) (b'.modify t f') where
  keys := by
    rw [Backlog.modify, Backlog.modify, Table.keys_modify, Table.keys_modify, h.keys]
  queues t' := by
    rw [Backlog.modify, Backlog.modify, Table.get?_modify, Table.get?_modify]
    split
    · exact Queue.Alike.map (h.queues t') hf
    · exact h.queues t'
  cached := h.cached
  sound := h.sound.modify t fun q hq => (hf ⟨rfl, hq, hq⟩).spare
  sound' := h.sound'.modify t fun q hq => (hf ⟨rfl, hq, hq⟩).spare'

/-- Writing queues that are alike for a type keeps backlogs alike. -/
theorem queues_insert (h : Alike r b b') {q q' : Queue} (hq : q.Alike q') (t t' : EventType) :
    Option.Rel Queue.Alike ((b.queues.insert t q).get? t') ((b'.queues.insert t q').get? t') := by
  rw [Table.get?_insert, Table.get?_insert]
  split
  · exact .some hq
  · exact h.queues t'

/-- **A one-shot is queued alike**, and the cached types are dropped by both or by neither. -/
theorem add (h : Alike r b b') (s : OneShot) : Alike r (b.add s) (b'.add s) := by
  have hs := h.sound.add s
  have hs' := h.sound'.add s
  have hkeys : ∀ q q', (b.queues.insert s.event q).keys = (b'.queues.insert s.event q').keys := by
    intro q q'
    rw [Table.keys_insert, Table.keys_insert, h.keys]
  unfold Backlog.add at hs hs' ⊢
  obtain ⟨hq, hq'⟩ | ⟨q, q', hq, hq', hqueue⟩ := Queue.Alike.none_or_some (h.queues s.event)
  · rw [hq] at hs ⊢
    rw [hq'] at hs' ⊢
    have hempty : Queue.empty.Alike Queue.empty := ⟨rfl, rfl, rfl⟩
    exact ⟨hkeys _ _, h.queues_insert (hempty.add s) s.event, fun _ => rfl, hs, hs'⟩
  · rw [hq] at hs ⊢
    rw [hq'] at hs' ⊢
    exact ⟨hkeys _ _, h.queues_insert (hqueue.add s) s.event, h.cached, hs, hs'⟩

end Alike

end Backlog

end PubSub
