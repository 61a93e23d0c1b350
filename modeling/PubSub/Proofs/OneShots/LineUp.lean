import PubSub.Proofs.OneShots.Holding

/-!
# Proofs/OneShots/LineUp — the one order in which one-shots stand

    waiting t ++ held t        held t:  innermost post of t, …, outermost post of t
              └── what is queued comes in here

Put the pending list of a type before the batches of the running posts of that type, innermost
first, and nothing changes the order any more: a command lets new one-shots in between the two
parts and takes some out, and the others stand as they stood (`lineUp_exec`).  Tickets tell the new
ones from those that stand there already.
-/

namespace PubSub

variable {ε : Type} [EventValue ε]

namespace Bus

variable {b : Bus ε}

/-! ## Commands -/

/-- The one-shots that a command queues. -/
def queuedBy (b : Bus ε) : Command ε → List OneShot
  | .once t c => [⟨b.tickets, t, .once c⟩]
  | .onceOrMore t c => [⟨b.tickets, t, .untilDone c⟩]
  | .next t => [⟨b.tickets, t, .deliver b.mailboxes.length⟩]
  | _ => []

/-- The one-shots that are gone by a command. -/
def goneBy (b : Bus ε) (c : Command ε) : List OneShot := (b.receipts c).filterMap Receipt.gone?

/-- The line-up of a type before a command, with the one-shots that the command queues. -/
def joined (b : Bus ε) (c : Command ε) (t : EventType) : List OneShot :=
  b.backlog.waiting t ++ ofType t (b.queuedBy c) ++ b.held t

/-- **A command begins a post, ends a call, or at most queues one-shots.** -/
theorem exec_cases (b : Bus ε) (c : Command ε) :
    (∃ e order, c = .post e order) ∨ (∃ o, c = .resume o) ∨
      (b.exec c).state.backlog = (b.queuedBy c).foldl Backlog.add b.backlog ∧
        (b.exec c).state.running = b.running ∧ b.receipts c = [] := by
  cases c with
  | post e order => exact .inl ⟨e, order, rfl⟩
  | resume o => exact .inr (.inl ⟨o, rfl⟩)
  | register o interests =>
    have h := b.state_register o interests
    exact .inr (.inr ⟨congrArg (·.backlog) h, congrArg (·.running) h, rfl⟩)
  | poll mailbox =>
    obtain ⟨boxes, h⟩ := b.state_poll mailbox
    exact .inr (.inr ⟨congrArg (·.backlog) h, congrArg (·.running) h, rfl⟩)
  | once | onceOrMore | next | unregister | declare | hasSubscribers =>
    exact .inr (.inr ⟨rfl, rfl, rfl⟩)

omit [EventValue ε] in
/-- A command queues one one-shot, with the next ticket, or none. -/
theorem queuedBy_cases (b : Bus ε) (c : Command ε) :
    b.queuedBy c = [] ∨ ∃ s, b.queuedBy c = [s] ∧ s.ticket = b.tickets := by
  cases c with
  | once | onceOrMore | next => exact .inr ⟨_, rfl, rfl⟩
  | _ => exact .inl rfl

/-! ## The line-up after a command -/

/-- The line-up of a post that goes on, before and after. -/
theorem lineUp_resume (h : b.Sound) {f : Frame ε} {outer : List (Frame ε)}
    (hb : b.running = f :: outer) (o : Outcome) (t : EventType) :
    ∃ front back, b.lineUp t =
        front ++ ofType t ((f.receipts o).filterMap Receipt.gone?) ++ back ∧
      (b.resume o).state.lineUp t = front ++ back := by
  obtain ⟨b₁, front, later, back, rest, hrunning, -, -, hw, hbatch, hmoved, hholds⟩ :=
    holds_resume h hb o
  have hgone : ∀ s ∈ (f.receipts o).filterMap Receipt.gone?, s.event = typeOf f.event :=
    fun s hs => h.event_eq_of_batch (hb ▸ List.mem_cons_self)
      (hbatch ▸ List.mem_append_left _ (List.mem_append_right _ hs))
  rw [lineUp, held_cons b₁ (f := f) (by rw [hb, hrunning]), ofType_of_forall hgone,
    lineUp, hholds.waiting, hholds.held, hw]
  by_cases ht : typeOf f.event = t
  · refine ⟨b.backlog.waiting t ++ front, later ++ b₁.held t, ?_, ?_⟩
    · simp only [if_pos ht, hbatch, List.append_assoc]
    · simp only [if_pos ht, List.append_assoc]
      rw [← List.append_assoc back, hmoved, List.append_assoc]
  · refine ⟨b.backlog.waiting t, b₁.held t, ?_, ?_⟩
    · simp only [if_neg ht, List.append_nil, List.nil_append]
    · simp only [if_neg ht, List.append_nil, List.nil_append]

/-- The line-up of a post that begins, before and after. -/
theorem lineUp_post (h : b.Sound) (e : ε) (order : Arrangement Route) (t : EventType) :
    ∃ back, b.lineUp t = ofType t (b.goneBy (.post e order)) ++ back ∧
      (b.post e order).state.lineUp t = back := by
  obtain ⟨b₁, hrunning, -, -, hw, hholds⟩ := holds_post h e order
  have hevents : ∀ s ∈ b.backlog.waiting (typeOf e), s.event = typeOf e := fun s hs =>
    h.event_eq_of_waiting hs
  have hgone : b.goneBy (.post e order) =
      (b.backlog.waiting (typeOf e)).takeWhile (OneShot.isPassed e) := gone_passed hevents
  refine ⟨_, ?_, rfl⟩
  rw [lineUp, lineUp, hholds.waiting, hholds.held, hw, held_of_running hrunning, hgone,
    ofType_of_forall fun s hs => hevents s (List.takeWhile_subset _ hs)]
  by_cases ht : typeOf e = t
  · subst ht
    simp only [if_pos, List.nil_append]
    rw [← List.append_assoc, unpassed, List.takeWhile_append_dropWhile]
  · simp only [if_neg ht, List.nil_append]

/-- **A command lets new one-shots in behind those that are pending and takes out those that are
gone by it; all others stand as they stood.** -/
theorem lineUp_exec (h : b.Sound) (c : Command ε) (t : EventType) :
    ∃ front back, b.joined c t = front ++ ofType t (b.goneBy c) ++ back ∧
      (b.exec c).state.lineUp t = front ++ back := by
  have hquiet : ∀ {c : Command ε}, b.queuedBy c = [] → b.joined c t = b.lineUp t := fun hq => by
    rw [joined, hq]
    exact congrArg (· ++ _) (List.append_nil _)
  have hnobody : ∀ l : List OneShot, l = l ++ ofType t [] ++ [] := fun l => by
    rw [List.append_nil]
    exact (List.append_nil l).symm
  rcases b.exec_cases c with ⟨e, order, rfl⟩ | ⟨o, rfl⟩ | ⟨hbacklog, hrunning, hx⟩
  · obtain ⟨back, hbefore, hafter⟩ := lineUp_post h e order t
    exact ⟨[], back, (hquiet rfl).trans hbefore, hafter⟩
  · rw [hquiet rfl, goneBy, receipts]
    cases hb : b.running with
    | nil =>
      refine ⟨b.lineUp t, [], hnobody _, ?_⟩
      rw [exec_resume, Logged.state_map, resume_of_idle hb, List.append_nil]
    | cons f outer => exact lineUp_resume h hb o t
  · refine ⟨b.joined c t, [], ?_, ?_⟩
    · rw [goneBy, hx]
      exact hnobody _
    · rw [lineUp, hbacklog, Backlog.waiting_foldl_add h.backlog, held_of_running hrunning,
        List.append_nil]
      rfl

/-- Who stands in line after a command stood in line before, or was queued by it. -/
theorem sublist_lineUp_exec (h : b.Sound) (c : Command ε) (t : EventType) :
    ((b.exec c).state.lineUp t).Sublist (b.joined c t) := by
  obtain ⟨front, back, hbefore, hafter⟩ := lineUp_exec h c t
  rw [hbefore, hafter]
  exact (List.sublist_append_left ..).append (List.Sublist.refl back)

theorem joined_perm (b : Bus ε) (c : Command ε) (t : EventType) :
    (b.joined c t).Perm (ofType t (b.queuedBy c) ++ b.lineUp t) := by
  rw [joined, lineUp, ← List.append_assoc]
  exact List.perm_append_comm.append_right _

/-- **Nobody comes into a line-up from elsewhere.** -/
theorem mem_queuedBy_or_lineUp (h : b.Sound) {c : Command ε} {t : EventType} {s : OneShot}
    (hs : s ∈ (b.exec c).state.lineUp t) :
    s.event = t ∧ (s ∈ b.queuedBy c ∨ s ∈ b.lineUp t) := by
  have hjoined := (b.joined_perm c t).mem_iff.1 ((sublist_lineUp_exec h c t).subset hs)
  rcases List.mem_append.1 hjoined with hq | hin
  · obtain ⟨hq, ht⟩ := List.mem_filter.1 hq
    exact ⟨of_decide_eq_true ht, .inl hq⟩
  · exact ⟨h.event_eq hin, .inr hin⟩

/-- A post that holds some of its type leaves the others as sound as they were. -/
theorem Holds.sound_exec (h : b.Sound) {c : Command ε} {t : EventType} {l : List OneShot}
    {b₁ : Bus ε} (hholds : Holds t l b₁ (b.exec c).state) (hsound : b₁.backlog.Sound)
    (hqueue : ∀ {t}, b.backlog.HasQueue t → b₁.backlog.HasQueue t)
    (hrunning : ∀ {f}, f ∈ b₁.running → f ∈ b.running)
    (hl : l ≠ [] → b.backlog.HasQueue t) : (b.exec c).state.Sound where
  backlog := hholds.sound hsound
  event_eq hs := (mem_queuedBy_or_lineUp h hs).1
  hasQueue := by
    intro f hf hbatch
    refine hholds.hasQueue (hqueue ?_)
    rcases hholds.running hf hbatch with hf | ⟨ht, hne⟩
    · exact h.hasQueue (hrunning hf) hbatch
    · exact ht ▸ hl hne

/-- **Every command keeps a bus sound.** -/
theorem Sound.exec (h : b.Sound) (c : Command ε) : (b.exec c).state.Sound := by
  rcases b.exec_cases c with ⟨e, order, rfl⟩ | ⟨o, rfl⟩ | ⟨hbacklog, hrunning, -⟩
  · obtain ⟨b₁, hrunning, hsound, hqueue, -, hholds⟩ := holds_post h e order
    refine Holds.sound_exec h hholds hsound hqueue (fun hf => hrunning ▸ hf) fun hne => ?_
    refine Backlog.hasQueue_of_waiting fun hempty => hne ?_
    rw [hempty]
    rfl
  · cases hb : b.running with
    | nil =>
      rw [Bus.exec_resume, Logged.state_map, resume_of_idle hb]
      exact h
    | cons f outer =>
      obtain ⟨b₁, front, later, back, rest, hrunning, hsound, hqueue, -, hbatch, hmoved, hholds⟩ :=
        holds_resume h hb o
      refine Holds.sound_exec h hholds hsound hqueue (fun hf => ?_) fun hne => ?_
      · rw [hb]
        exact List.mem_cons_of_mem f (hrunning ▸ hf)
      · refine h.hasQueue (hb ▸ List.mem_cons_self) fun hempty => hne ?_
        obtain ⟨hleft, hlater⟩ := List.append_eq_nil_iff.1 (hbatch.symm.trans hempty)
        rw [(List.append_eq_nil_iff.1 hleft).1, hlater] at hmoved
        exact (List.append_eq_nil_iff.1 hmoved).2
  · refine ⟨?_, fun hs => (mem_queuedBy_or_lineUp h hs).1, fun hf hbatch => ?_⟩
    · exact hbacklog ▸ h.backlog.foldl_add _
    · rw [hrunning] at hf
      rw [hbacklog]
      exact Backlog.hasQueue_foldl_add _ (h.hasQueue hf hbatch)

/-- **Every reachable state is sound.** -/
theorem Reachable.sound (h : b.Reachable) : b.Sound :=
  h.induction (P := Sound) sound_new fun _ c hb => hb.exec c

/-! ## Tickets -/

omit [EventValue ε] in
/-- A one-shot is queued with the next ticket. -/
theorem ticket_of_mem_queuedBy {c : Command ε} {s : OneShot} (hs : s ∈ b.queuedBy c) :
    s.ticket = b.tickets := by
  rcases b.queuedBy_cases c with hq | ⟨s', hq, ht⟩
  · rw [hq] at hs
    exact absurd hs List.not_mem_nil
  · rw [hq] at hs
    rw [List.mem_singleton.1 hs, ht]

omit [EventValue ε] in
theorem nodup_queuedBy (b : Bus ε) (c : Command ε) :
    ((b.queuedBy c).map (·.ticket)).Nodup := by
  rcases b.queuedBy_cases c with hq | ⟨s, hq, -⟩
  · exact hq ▸ List.nodup_nil
  · exact hq ▸ List.nodup_singleton s.ticket

/-- **A ticket is given out for every one-shot that is queued.** -/
theorem tickets_exec (b : Bus ε) (c : Command ε) :
    (b.exec c).state.tickets = b.tickets + (b.queuedBy c).length := by
  cases c with
  | post e order => exact congrArg (·.2.2) (b.standing_post e order)
  | resume o => exact congrArg (·.2.2) (b.standing_resume o)
  | register o interests => exact congrArg (·.tickets) (b.state_register o interests)
  | poll mailbox =>
    obtain ⟨boxes, h⟩ := b.state_poll mailbox
    exact congrArg (·.tickets) h
  | once | onceOrMore | next | unregister | declare | hasSubscribers => rfl

theorem ticket_lt_exec (b : Bus ε) {c : Command ε} {s : OneShot}
    (hs : s ∈ b.queuedBy c ∨ s.ticket < b.tickets) : s.ticket < (b.exec c).state.tickets := by
  rw [tickets_exec]
  rcases hs with hs | hs
  · have hlength := List.length_pos_of_mem hs
    have hnew := ticket_of_mem_queuedBy hs
    omega
  · exact Nat.lt_add_right _ hs

/-- A bus on which one-shots stand in line once, and whose next ticket is a new one. -/
structure Ticketed (b : Bus ε) : Prop where
  sound : b.Sound
  nodup : ∀ t, (b.lineUp t).Nodup
  old : ∀ {t s}, s ∈ b.lineUp t → s.ticket < b.tickets

theorem ticketed_new (c : Config) : (new c : Bus ε).Ticketed :=
  ⟨sound_new c, fun _ => List.nodup_nil, fun h => absurd h List.not_mem_nil⟩

/-- **A queued one-shot is none of those that stand in line.** -/
theorem Ticketed.nodup_joined (h : b.Ticketed) (c : Command ε) (t : EventType) :
    (b.joined c t).Nodup := by
  refine (b.joined_perm c t).nodup_iff.2 (List.Nodup.append ?_ (h.nodup t) fun s hs hs' => ?_)
  · exact ((b.nodup_queuedBy c).of_map _).filter _
  · have hnew := ticket_of_mem_queuedBy (List.mem_filter.1 hs).1
    exact absurd (h.old hs') (by omega)

theorem Ticketed.exec (h : b.Ticketed) (c : Command ε) : (b.exec c).state.Ticketed where
  sound := h.sound.exec c
  nodup t := (h.nodup_joined c t).sublist (sublist_lineUp_exec h.sound c t)
  old hs := b.ticket_lt_exec ((mem_queuedBy_or_lineUp h.sound hs).2.imp_right h.old)

/-- **Nobody is twice in a batch.** -/
theorem Ticketed.nodup_batch (h : b.Ticketed) {f : Frame ε} (hf : f ∈ b.running) :
    f.batch.Nodup :=
  (h.nodup (typeOf f.event)).sublist
    ((batch_sublist_held hf).trans (List.sublist_append_right ..))

/-- **Every reachable state is ticketed.** -/
theorem Reachable.ticketed (h : b.Reachable) : b.Ticketed :=
  h.induction (P := Ticketed) ticketed_new fun _ c hb => hb.exec c

end Bus

end PubSub
