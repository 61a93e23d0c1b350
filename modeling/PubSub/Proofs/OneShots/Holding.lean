import Mathlib.Data.List.Nodup
import Mathlib.Data.List.Perm.Basic
import PubSub.Proofs.Post.Stack

/-!
# Proofs/OneShots/Holding — what posts hold of their batches

    pending ──post──▸ not yet visited ──visit──▸ executing ──▸ gone
       ▲                     │                       │
       └────── put back ─────┴──────── not done ─────┘

A post takes the pending list of its type away, works it off from the front, and puts back what is
to wait again behind what was queued meanwhile.  `holds_post` and `holds_resume` say who waits and
who is held after a step of a post, and that of a batch only those are missing that are gone.
-/

namespace PubSub

variable {ε : Type} [EventValue ε]

/-! ## The line-up -/

/-- What is left of the batch of a post: the one-shot that is executing, then those not yet
visited. -/
def Frame.batch (f : Frame ε) : List OneShot := f.executing ++ f.unvisited

/-- The one-shot that a receipt is the last one of: it is done, or it failed. -/
def Receipt.gone? (x : Receipt ε) : Option OneShot :=
  match x.recipient with
  | .oneShot s => if x.outcome = .returned false then none else some s
  | .handler _ => none

omit [EventValue ε] in
/-- A one-shot that is done, or fails, is gone. -/
theorem Receipt.gone?_of_ne {e : ε} {s : OneShot} {o : Outcome} (h : o ≠ .returned false) :
    (Receipt.mk e (.oneShot s) o).gone? = some s := if_neg h

/-- The one-shots of a type among those given. -/
def ofType (t : EventType) (l : List OneShot) : List OneShot := l.filter (·.event = t)

namespace Bus

/-- The one-shots in the batches of the running posts of a type, innermost first. -/
def held (b : Bus ε) (t : EventType) : List OneShot :=
  (b.running.filter (typeOf ·.event = t)).flatMap Frame.batch

/-- The one-shots of a type: those that are pending, then those that posts have taken. -/
def lineUp (b : Bus ε) (t : EventType) : List OneShot := b.backlog.waiting t ++ b.held t

/-- A bus whose one-shots are where they belong: the backlog is sound, one-shots line up under
their own type, and a type of which a post holds some has a queue to put them back in. -/
structure Sound (b : Bus ε) : Prop where
  backlog : b.backlog.Sound
  event_eq : ∀ {t s}, s ∈ b.lineUp t → s.event = t
  hasQueue : ∀ {f}, f ∈ b.running → f.batch ≠ [] → b.backlog.HasQueue (typeOf f.event)

theorem sound_new (c : Config) : (new c : Bus ε).Sound where
  backlog := Backlog.sound_empty
  event_eq h := absurd h List.not_mem_nil
  hasQueue h := absurd h List.not_mem_nil

/-! ## Held one-shots -/

theorem held_of_running {b b' : Bus ε} (h : b'.running = b.running) (t : EventType) :
    b'.held t = b.held t := by
  rw [held, held, h]

/-- **What a running post holds comes before what the posts it is nested in hold.** -/
theorem held_cons (b₀ : Bus ε) {b : Bus ε} {f : Frame ε} (h : b.running = f :: b₀.running)
    (t : EventType) :
    b.held t = (if typeOf f.event = t then f.batch else []) ++ b₀.held t := by
  rw [held, held, h, List.filter_cons]
  by_cases ht : typeOf f.event = t
  · rw [if_pos (decide_eq_true ht), if_pos ht, List.flatMap_cons]
  · rw [if_neg (by simpa using ht), if_neg ht, List.nil_append]

/-! ## Places -/

/-- The one-shots that are executing. -/
def executing (b : Bus ε) : List OneShot := b.running.flatMap Frame.executing

/-- The one-shots that posts have taken and not yet visited. -/
def unvisited (b : Bus ε) : List OneShot := b.running.flatMap Frame.unvisited

/-- Where one-shots of a type can be: pending, in a batch, or executing. -/
def places (b : Bus ε) (t : EventType) : List OneShot :=
  b.backlog.waiting t ++ b.unvisited ++ b.executing

omit [EventValue ε] in
/-- The one-shot that is executing is the one that is called. -/
theorem mem_executing_iff {f : Frame ε} {s : OneShot} :
    s ∈ f.executing ↔ f.current = .oneShot s := by
  rw [Frame.executing, Frame.current]
  cases f.stage with
  | oneShot s' rest size =>
    rw [List.mem_singleton, Recipient.oneShot.injEq]
    exact eq_comm
  | handler r =>
    have hne : Recipient.handler r ≠ .oneShot s := by
      intro h
      cases h
    exact iff_of_false List.not_mem_nil hne

theorem Sound.event_eq_of_waiting {b : Bus ε} (h : b.Sound) {t : EventType} {s : OneShot}
    (hs : s ∈ b.backlog.waiting t) : s.event = t := h.event_eq (List.mem_append_left _ hs)

theorem batch_sublist_held {b : Bus ε} {f : Frame ε} (hf : f ∈ b.running) :
    f.batch.Sublist (b.held (typeOf f.event)) := by
  rw [held, List.flatMap_def]
  refine List.sublist_flatten_of_mem (List.mem_map_of_mem ?_)
  exact List.mem_filter.2 ⟨hf, decide_eq_true rfl⟩

theorem mem_lineUp_of_batch {b : Bus ε} {f : Frame ε} {s : OneShot} (hf : f ∈ b.running)
    (hs : s ∈ f.batch) : s ∈ b.lineUp (typeOf f.event) :=
  List.mem_append_right _ ((batch_sublist_held hf).subset hs)

theorem Sound.event_eq_of_batch {b : Bus ε} (h : b.Sound) {f : Frame ε} {s : OneShot}
    (hf : f ∈ b.running) (hs : s ∈ f.batch) : s.event = typeOf f.event :=
  h.event_eq (mem_lineUp_of_batch hf hs)

theorem Sound.event_eq_of_unvisited {b : Bus ε} (h : b.Sound) {f : Frame ε}
    (hf : f ∈ b.running) : ∀ s ∈ f.unvisited, s.event = typeOf f.event :=
  fun _ hs => h.event_eq_of_batch hf (List.mem_append_right _ hs)

/-- There is a queue for those of a batch that are to be put back. -/
theorem Sound.hasQueue_of_sublist {b : Bus ε} (h : b.Sound) {f : Frame ε} (hf : f ∈ b.running)
    {l : List OneShot} (hl : l.Sublist f.batch) (hne : l ≠ []) :
    b.backlog.HasQueue (typeOf f.event) :=
  h.hasQueue hf fun hempty => hne (List.sublist_nil.1 (hempty ▸ hl))

/-- **A one-shot is only held by posts of its own type.** -/
theorem Sound.count_held {b : Bus ε} (h : b.Sound) (s : OneShot) :
    (b.unvisited ++ b.executing).count s = (b.held s.event).count s := by
  have hbatch : (b.unvisited ++ b.executing).Perm (b.running.flatMap Frame.batch) :=
    List.perm_append_comm.trans (List.flatMap_append_perm ..)
  have hown : ∀ l : List (Frame ε), (∀ f ∈ l, f ∈ b.running) →
      (l.flatMap Frame.batch).count s =
        ((l.filter (typeOf ·.event = s.event)).flatMap Frame.batch).count s := by
    intro l hl
    induction l with
    | nil => rfl
    | cons f l ih =>
      have hrest := ih fun g hg => hl g (List.mem_cons_of_mem f hg)
      rw [List.flatMap_cons, List.count_append, hrest, List.filter_cons]
      by_cases ht : typeOf f.event = s.event
      · rw [if_pos (decide_eq_true ht), List.flatMap_cons, List.count_append]
      · have hnone : f.batch.count s = 0 := List.count_eq_zero_of_not_mem fun hs =>
          ht (h.event_eq_of_batch (hl f List.mem_cons_self) hs).symm
        rw [if_neg (by simpa using ht), hnone, Nat.zero_add]
  rw [hbatch.count_eq, hown b.running fun _ => id]
  rfl

/-- **Where a one-shot can be is its line-up.** -/
theorem Sound.count_places {b : Bus ε} (h : b.Sound) (s : OneShot) :
    (b.places s.event).count s = (b.lineUp s.event).count s := by
  rw [places, List.append_assoc, List.count_append, h.count_held, lineUp, List.count_append]

/-! ## What a step leaves a post holding -/

/-- `b'` is `b` but for a post of `t` that holds `l` in it, if any; nobody else waits or is held
elsewhere than in `b`. -/
structure Holds (t : EventType) (l : List OneShot) (b b' : Bus ε) : Prop where
  sound : b.backlog.Sound → b'.backlog.Sound
  hasQueue : ∀ {t'}, b.backlog.HasQueue t' → b'.backlog.HasQueue t'
  waiting : ∀ t', b'.backlog.waiting t' = b.backlog.waiting t'
  held : ∀ t', b'.held t' = (if t = t' then l else []) ++ b.held t'
  running : ∀ {f}, f ∈ b'.running → f.batch ≠ [] → f ∈ b.running ∨ typeOf f.event = t ∧ l ≠ []

theorem holds_of_eq {b b' : Bus ε} (hbacklog : b'.backlog = b.backlog)
    (hrunning : b'.running = b.running) (t : EventType) : Holds t [] b b' where
  sound h := hbacklog ▸ h
  hasQueue h := hbacklog ▸ h
  waiting t' := by rw [hbacklog]
  held t' := by rw [held_of_running hrunning, ite_self, List.nil_append]
  running hf _ := .inl (hrunning ▸ hf)

theorem holds_finish (b : Bus ε) (t : EventType) (ending : Ending) :
    Holds t [] b (b.finish t ending).state :=
  holds_of_eq (backlog_finish b t ending) (running_finish b t ending) t

/-- **A post that has come to its routes holds nobody.** -/
theorem holds_deliver (b : Bus ε) (e : ε) (l : List Route) :
    Holds (typeOf e) [] b (b.deliver e l).state := by
  rcases b.deliver_cases e l with ⟨-, h⟩ | ⟨r, rest, p, -, -, h⟩ | ⟨r, rest, call, -, -, h⟩
  · rw [h]
    exact holds_finish b _ _
  · rw [h]
    exact holds_of_eq rfl rfl _
  · rw [h]
    refine ⟨id, id, fun _ => rfl, fun t' => ?_, fun hf hbatch => ?_⟩
    · exact held_cons b (f := ⟨e, .handler r, rest⟩) rfl t'
    · rcases List.mem_cons.1 hf with rfl | hf
      · exact absurd rfl hbatch
      · exact .inl hf

/-- Ending a batch moves nobody. -/
theorem Holds.of_settle {t : EventType} {l : List OneShot} {b b' : Bus ε} {t' : EventType}
    {size : Nat} (h : Holds t l (b.settle t' size []) b') : Holds t l b b' where
  sound hb := h.sound (hb.modify t' fun _ hq => Queue.spare_settle hq _ _)
  hasQueue hq := h.hasQueue ((Backlog.hasQueue_modify ..).2 hq)
  waiting t'' := (h.waiting t'').trans (Backlog.waiting_modify_settle ..)
  held := h.held
  running := h.running

/-- **Working through a batch leaves a post holding the rest from the first that is called.** -/
theorem holds_visit (b : Bus ε) {e : ε} (ahead : List Route) (size : Nat) {l : List OneShot}
    (hl : ∀ s ∈ l, s.event = typeOf e) :
    Holds (typeOf e) (unpassed e l) b (b.visit e ahead size l).state := by
  obtain ⟨backlog, boxes, hkeep, h⟩ := b.visit_cases e ahead size l
  obtain rfl : backlog = b.backlog := hkeep hl
  rcases h with ⟨hnil, h⟩ | ⟨s, rest, call, hcons, -, h⟩
  · rw [h, hnil, Logged.state_after]
    have hd := Holds.of_settle
      (holds_deliver (settle { b with mailboxes := boxes } (typeOf e) size []) e ahead)
    exact ⟨hd.sound, hd.hasQueue, hd.waiting, hd.held, hd.running⟩
  · rw [h, hcons, Logged.state_after]
    refine ⟨id, id, fun _ => rfl, fun t' => ?_, fun hf hbatch => ?_⟩
    · exact held_cons b (f := ⟨e, .oneShot s rest size, ahead⟩) rfl t'
    · rcases List.mem_cons.1 hf with rfl | hf
      · exact .inr ⟨rfl, List.cons_ne_nil s rest⟩
      · exact .inl hf

/-! ## One-shots by type -/

omit [EventValue ε] in
theorem ofType_of_forall {t : EventType} {l : List OneShot} (h : ∀ s ∈ l, s.event = t)
    (t' : EventType) : ofType t' l = if t = t' then l else [] := by
  unfold ofType
  split
  · next ht => exact List.filter_eq_self.2 fun s hs => decide_eq_true ((h s hs).trans ht)
  · next ht =>
    refine List.filter_eq_nil_iff.2 fun s hs he => ht ?_
    exact (h s hs).symm.trans (of_decide_eq_true he)

/-- **A one-shot that is passed is gone.** -/
theorem gone_passed {e : ε} {l : List OneShot} (hl : ∀ s ∈ l, s.event = typeOf e) :
    (passed e l).filterMap Receipt.gone? = l.takeWhile (OneShot.isPassed e) := by
  rw [passed, List.filterMap_map]
  refine (List.filterMap_congr fun s hs => ?_).trans List.filterMap_some
  have he : typeOf e = s.event := (hl s (List.takeWhile_subset _ hs)).symm
  have hdone : s.atOnce e ≠ .returned false := by
    rw [OneShot.atOnce, if_pos he]
    cases EventValue.copy e <;> simp
  exact Receipt.gone?_of_ne hdone

end Bus

namespace Frame

/-- The one-shot that was executing, if it is gone when the call ends. -/
def dismissed (f : Frame ε) (o : Outcome) : List OneShot :=
  if f.verdict o = .returned false then [] else f.executing

omit [EventValue ε] in
theorem kept_append_dismissed (f : Frame ε) (o : Outcome) :
    f.kept o ++ f.dismissed o = f.executing := by
  unfold kept dismissed
  split
  · exact List.append_nil _
  · exact List.nil_append _

omit [EventValue ε] in
theorem kept_sublist_batch (f : Frame ε) (o : Outcome) : (f.kept o).Sublist f.batch := by
  refine List.Sublist.trans ?_ (List.sublist_append_left ..)
  rw [← f.kept_append_dismissed o]
  exact List.sublist_append_left ..

/-- **Who is gone when a call ends**: the one-shot that was called, unless it is not done, and then
those that are passed. -/
theorem gone_receipts (f : Frame ε) (o : Outcome) :
    (f.receipts o).filterMap Receipt.gone? = f.dismissed o ++
      (if (f.verdict o).fatal?.isSome then [] else
        passed f.event f.unvisited).filterMap Receipt.gone? := by
  rw [receipts, ← List.singleton_append, List.filterMap_append]
  refine congrArg (· ++ _) ?_
  cases hs : f.stage with
  | handler r =>
    rw [current, dismissed, executing, hs]
    exact (ite_self []).symm
  | oneShot s rest size =>
    have hcurrent : f.current = .oneShot s := by rw [current, hs]
    have hexecuting : f.executing = [s] := by rw [executing, hs]
    rw [hcurrent, dismissed, hexecuting]
    by_cases hv : f.verdict o = .returned false
    · rw [hv, if_pos rfl]
      rfl
    · rw [if_neg hv]
      exact List.filterMap_cons_some (Receipt.gone?_of_ne hv)

end Frame

namespace Bus

/-! ## Posts -/

variable {b : Bus ε}

/-- **A post takes the pending list of its type** and holds it from the first that is called on. -/
theorem holds_post (h : b.Sound) (e : ε) (order : Arrangement Route) :
    ∃ b₁ : Bus ε, b₁.running = b.running ∧ b₁.backlog.Sound ∧
      (∀ {t}, b.backlog.HasQueue t → b₁.backlog.HasQueue t) ∧
      (∀ t, b₁.backlog.waiting t = if typeOf e = t then [] else b.backlog.waiting t) ∧
      Holds (typeOf e) (unpassed e (b.backlog.waiting (typeOf e))) b₁ (b.post e order).state := by
  have hbatch := Backlog.getD_batch?_refresh h.backlog (typeOf e)
  have hqueues : ∀ {t}, b.backlog.HasQueue t → b.opened.backlog.HasQueue t := fun hq => by
    rwa [Backlog.HasQueue, opened, Backlog.queues_refresh]
  rcases b.post_cases e order with ⟨hnone, hp⟩ | ⟨batch, hsome, hp⟩
  · have hempty : b.backlog.waiting (typeOf e) = [] :=
      hbatch.symm.trans (congrArg (Option.getD · []) hnone)
    refine ⟨b.opened, rfl, h.backlog.refresh, hqueues, fun t => ?_, ?_⟩
    · rw [opened, Backlog.waiting_refresh]
      split
      · next ht => rw [← ht, hempty]
      · rfl
    · rw [hp, hempty]
      exact holds_deliver _ e _
  · obtain rfl : b.backlog.waiting (typeOf e) = batch :=
      hbatch.symm.trans (congrArg (Option.getD · []) hsome)
    refine ⟨{ b.opened with backlog := b.opened.backlog.modify (typeOf e) Queue.detach }, rfl,
      h.backlog.refresh.modify _ fun _ hq => hq,
      fun hq => (Backlog.hasQueue_modify ..).2 (hqueues hq), fun t => ?_, ?_⟩
    · rw [Backlog.waiting_modify_detach, opened, Backlog.waiting_refresh]
    · rw [hp]
      exact holds_visit _ _ _ fun s hs => h.event_eq_of_waiting hs

theorem holds_proceed (b : Bus ε) {f : Frame ε}
    (hf : ∀ s ∈ f.unvisited, s.event = typeOf f.event) :
    Holds (typeOf f.event) (unpassed f.event f.unvisited) b (b.proceed f).state := by
  cases hs : f.stage with
  | oneShot s rest size =>
    rw [Frame.unvisited, hs] at hf
    rw [proceed, Frame.unvisited, hs]
    exact b.holds_visit f.ahead size hf
  | handler r =>
    rw [proceed, Frame.unvisited, hs]
    exact b.holds_deliver f.event f.ahead

/-- **A post that goes on puts back what is to wait again and holds the rest**: of its batch only
those are missing that are gone. -/
theorem holds_resume (h : b.Sound) {f : Frame ε} {outer : List (Frame ε)}
    (hb : b.running = f :: outer) (o : Outcome) :
    ∃ (b₁ : Bus ε) (front later back rest : List OneShot), b₁.running = outer ∧
      b₁.backlog.Sound ∧ (∀ {t}, b.backlog.HasQueue t → b₁.backlog.HasQueue t) ∧
      (∀ t, b₁.backlog.waiting t =
        b.backlog.waiting t ++ if typeOf f.event = t then back else []) ∧
      f.batch = front ++ (f.receipts o).filterMap Receipt.gone? ++ later ∧
      back ++ rest = front ++ later ∧ Holds (typeOf f.event) rest b₁ (b.resume o).state := by
  have hmem : f ∈ b.running := hb ▸ List.mem_cons_self
  have hevents := h.event_eq_of_unvisited hmem
  obtain ⟨b₁, ⟨text, ht, hback, hr⟩ | ⟨ht, hback, hr⟩⟩ := resume_cases hb o
  · have hne : f.verdict o ≠ .returned false := fun hv => by simp [hv, Outcome.fatal?] at ht
    refine ⟨b₁, [], f.unvisited, f.unvisited, [], hback.running, hback.sound h.backlog,
      hback.hasQueue, ?_, ?_, List.append_nil _, ?_⟩
    · exact hback.waiting h.backlog (h.hasQueue_of_sublist hmem (List.sublist_append_right ..))
    · rw [f.gone_receipts o, ht, Frame.dismissed, if_neg hne]
      simp [Frame.batch]
    · rw [hr]
      exact holds_finish _ _ _
  · refine ⟨b₁, f.kept o, unpassed f.event f.unvisited, f.kept o,
      unpassed f.event f.unvisited, hback.running, hback.sound h.backlog, hback.hasQueue, ?_, ?_,
      rfl, ?_⟩
    · exact hback.waiting h.backlog (h.hasQueue_of_sublist hmem (f.kept_sublist_batch o))
    · rw [f.gone_receipts o, ht, Option.isSome_none, if_neg Bool.false_ne_true,
        gone_passed hevents, ← List.append_assoc, f.kept_append_dismissed, List.append_assoc,
        unpassed, List.takeWhile_append_dropWhile]
      rfl
    · rw [hr]
      exact holds_proceed b₁ hevents

end Bus

end PubSub
