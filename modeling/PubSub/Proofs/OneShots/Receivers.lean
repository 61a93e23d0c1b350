import PubSub.Proofs.OneShots.Mailboxes
import PubSub.Scenario.Value

/-!
# Proofs/OneShots/Receivers — what becomes of somebody who waits for the next event

    next t ──▸ waiting ──an event of t──▸ full ──poll──▸ taken
                  │
                  └──an event of t whose copy panics──▸ lost

Who waits for the next event of a type has a mailbox, and a one-shot that is to fill it.  As long as
the one-shot stands in the line-up of its type, pending or in the batch of a running post, the
mailbox waits.  Once it is gone there is in the mailbox what became of the copy of an event that was
posted in the meantime: the copy, or nothing ever if copying panicked.  In the second case the bus
lives on and the receiver is closed.
-/

namespace PubSub

variable {ε : Type}

/-- The event that a command posts. -/
def Command.posted? : Command ε → Option ε
  | post e _ => some e
  | _ => none

namespace Bus

variable [EventValue ε]

/-- How somebody fares who has the one-shot `s` and waits in a mailbox, when `posted` is what was
posted and `answers` is what was found in the mailbox since. -/
inductive Fares (b : Bus ε) (s : OneShot) (posted : List ε) (answers : List (Poll ε)) :
    Mailbox ε → Prop
  /-- The one-shot is pending, or in a running batch. -/
  | waiting (inLine : s ∈ b.lineUp s.event) (nothing : ∀ a ∈ answers, a = .nothing) :
    Fares b s posted answers .waiting
  /-- The copy of an event is there. -/
  | full {e copy : ε} (gone : s ∉ b.lineUp s.event) (mem : e ∈ posted) (type : typeOf e = s.event)
      (copied : EventValue.copy e = .ok copy) (nothing : ∀ a ∈ answers, a = .nothing) :
    Fares b s posted answers (.full copy)
  /-- The copy of an event was there, and was found. -/
  | taken {e copy : ε} (gone : s ∉ b.lineUp s.event) (mem : e ∈ posted) (type : typeOf e = s.event)
      (copied : EventValue.copy e = .ok copy) {earlier later : List (Poll ε)}
      (found : answers = earlier ++ .got copy :: later) (nothing : ∀ a ∈ earlier, a = .nothing) :
    Fares b s posted answers .taken
  /-- Copying an event panicked. -/
  | lost {e : ε} {p : Panic} (gone : s ∉ b.lineUp s.event) (mem : e ∈ posted)
      (type : typeOf e = s.event) (panicked : EventValue.copy e = .error p)
      (never : ∀ a ∈ answers, a = .nothing ∨ a = .closed) :
    Fares b s posted answers .lost

/-- Somebody waits, or has waited, in the mailbox `m`, which only the one-shot `s` can fill. -/
structure Awaits (b : Bus ε) (s : OneShot) (m : Nat) (posted : List ε)
    (answers : List (Poll ε)) : Prop where
  task : s.task = .deliver m
  old : s.ticket < b.tickets
  only : ∀ {t s'}, s' ∈ b.lineUp t → s'.task = .deliver m → s' = s
  /-- Posts that hold the one-shot have begun since. -/
  batch : ∀ f ∈ b.running, s ∈ f.batch → f.event ∈ posted
  fares : ∃ box, b.mailboxes[m]? = some box ∧ Fares b s posted answers box

variable {b : Bus ε}

/-! ## Who holds a one-shot -/

/-- The one-shots that a post has yet to be done with are those of its batch. -/
theorem mem_left_iff {f : Frame ε} {s : OneShot} : .oneShot s ∈ f.left ↔ s ∈ f.batch := by
  have hhandler : .oneShot s ∉ handlersOf f.event f.ahead := fun h => by
    obtain ⟨r, -, hr⟩ := List.mem_map.1 h
    cases hr
  rw [Frame.left, Frame.batch, recipientsOf, List.mem_cons, List.mem_append, List.mem_append,
    or_iff_left hhandler, List.mem_map_of_injective fun _ _ => Recipient.oneShot.inj,
    mem_executing_iff, eq_comm]

/-- A step leaves a post with nobody whom it was not to go to. -/
theorem Rests.mem_agenda {e : ε} {outer : List (Frame ε)} {agenda : List Recipient}
    {xs : List (Receipt ε)} {r : Logged (Bus ε) (Progress ε)} (h : Rests e outer agenda xs r)
    {f : Frame ε} (hf : f ∈ r.state.running) :
    f ∈ outer ∨ f.event = e ∧ ∀ s ∈ f.batch, .oneShot s ∈ agenda := by
  cases h with
  | ended ending hv hr he => exact .inl (hr ▸ hf)
  | waits g call hv hr he hc hh ho =>
    rw [hr] at hf
    rcases List.mem_cons.1 hf with rfl | hf
    · refine .inr ⟨he, fun s hs => ?_⟩
      rw [ho]
      exact List.mem_append_right _ (mem_left_iff.2 hs)
    · exact .inl hf

/-- **Whoever holds a one-shot has begun since it was queued.** -/
theorem Awaits.batch_exec {s : OneShot} {m : Nat} {posted : List ε} {answers : List (Poll ε)}
    (h : b.Awaits s m posted answers) (c : Command ε) :
    ∀ f ∈ (b.exec c).state.running, s ∈ f.batch → f.event ∈ posted ++ c.posted?.toList := by
  intro f hf hs
  rcases b.running_exec c with hrunning | ⟨e, order, rfl⟩ | ⟨o, rfl⟩
  · exact List.mem_append_left _ (h.batch f (hrunning ▸ hf) hs)
  · rcases (b.rests_post e order rfl).mem_agenda hf with hf | ⟨rfl, -⟩
    · exact List.mem_append_left _ (h.batch f hf hs)
    · exact List.mem_append_right _ List.mem_cons_self
  · refine List.mem_append_left _ ?_
    cases hb : b.running with
    | nil =>
      rw [exec_resume, Logged.state_map, resume_of_idle hb, hb] at hf
      exact absurd hf List.not_mem_nil
    | cons g outer =>
      rcases (rests_resume hb o).mem_agenda hf with hf | ⟨hevent, hbatch⟩
      · exact h.batch f (hb ▸ List.mem_cons_of_mem g hf) hs
      · rw [hevent]
        exact h.batch g (hb ▸ List.mem_cons_self) (mem_left_iff.1 (hbatch s hs))

/-- **The event of a receipt for the mailbox was posted since.** -/
theorem Awaits.event_mem {s : OneShot} {m : Nat} {posted : List ε} {answers : List (Poll ε)}
    (h : b.Awaits s m posted answers) {c : Command ε} {x : Receipt ε} (hx : x ∈ b.receipts c)
    (hs : x.recipient = .oneShot s) : x.event ∈ posted ++ c.posted?.toList := by
  cases c with
  | post e order =>
    rw [event_of_mem_passed hx]
    exact List.mem_append_right _ List.mem_cons_self
  | resume o =>
    refine List.mem_append_left _ ?_
    rw [receipts] at hx
    cases hb : b.running with
    | nil =>
      rw [hb] at hx
      exact absurd hx List.not_mem_nil
    | cons f outer =>
      rw [hb] at hx
      have hentry : s ∈ (f.receipts o).filterMap Receipt.oneShot? :=
        List.mem_filterMap.2 ⟨x, hx, by rw [Receipt.oneShot?, hs]⟩
      rw [Frame.event_of_mem_receipts hx]
      exact h.batch f (hb ▸ List.mem_cons_self) ((entries_receipts f o).subset hentry)
  | _ => exact absurd hx List.not_mem_nil

/-! ## One command more -/

section Exec

variable {s : OneShot} {m : Nat} {posted : List ε} {answers : List (Poll ε)}

/-- **A receipt for the mailbox is one of the one-shot, and the last**: it stood in line, and is
gone. -/
theorem Awaits.of_isFor (hb : b.Reachable) (h : b.Awaits s m posted answers) {c : Command ε}
    {x : Receipt ε} (hx : x ∈ b.receipts c) (hm : x.IsFor m) :
    s ∈ b.lineUp s.event ∧ s ∉ (b.exec c).state.lineUp s.event ∧ typeOf x.event = s.event ∧
      x.event ∈ posted ++ c.posted?.toList := by
  obtain ⟨s', hs, htask⟩ := hm
  obtain ⟨hline, hkept⟩ := mem_lineUp_of_mem_receipts hb.sound hx hs
  obtain rfl : s' = s := h.only hline htask
  have hevent : s'.event = typeOf x.event := hb.sound.event_eq hline
  have hne : x.outcome ≠ .returned false := fun ho => by
    obtain ⟨cb, htask'⟩ := hkept ho
    cases htask.symm.trans htask'
  have hgone : s' ∈ b.goneBy c := by
    refine List.mem_filterMap.2 ⟨x, hx, ?_⟩
    obtain ⟨e, recipient, outcome⟩ := x
    obtain rfl : recipient = .oneShot s' := hs
    exact Receipt.gone?_of_ne hne
  refine ⟨hevent ▸ hline, fun hin => ?_, hevent.symm, h.event_mem hx hs⟩
  exact ((mem_lineUp_exec hb.ticketed c s').1 hin).2 hgone

/-- Whether the one-shot stands in line is only changed by a receipt for the mailbox. -/
theorem Awaits.mem_lineUp_exec_iff (hb : b.Reachable) (h : b.Awaits s m posted answers)
    {c : Command ε} (hnone : ∀ x ∈ b.receipts c, ¬ x.IsFor m) :
    s ∈ (b.exec c).state.lineUp s.event ↔ s ∈ b.lineUp s.event := by
  have hqueued : s ∉ b.queuedBy c := fun hs => by
    have hnew := ticket_of_mem_queuedBy hs
    have hold := h.old
    omega
  have hgone : s ∉ b.goneBy c := fun hs => by
    obtain ⟨o, ho, -⟩ := mem_gone_iff.1 hs
    obtain ⟨x, hx, hrecipient, -⟩ := mem_outcomes.1 ho
    exact hnone x hx ⟨s, hrecipient, h.task⟩
  rw [mem_lineUp_exec hb.ticketed, or_iff_left hqueued, and_iff_left hgone]

/-- It fares as before where the one-shot stands as before and no less was posted. -/
theorem Fares.mono {b' : Bus ε} {posted' : List ε} {box : Mailbox ε}
    (h : b.Fares s posted answers box) (hline : s ∈ b'.lineUp s.event ↔ s ∈ b.lineUp s.event)
    (hposted : posted ⊆ posted') : b'.Fares s posted' answers box := by
  cases h with
  | waiting inLine nothing => exact .waiting (hline.2 inLine) nothing
  | full gone mem type copied nothing =>
    exact .full (mt hline.1 gone) (hposted mem) type copied nothing
  | taken gone mem type copied found nothing =>
    exact .taken (mt hline.1 gone) (hposted mem) type copied found nothing
  | lost gone mem type panicked never =>
    exact .lost (mt hline.1 gone) (hposted mem) type panicked never

/-- **Looking into a mailbox finds what is there**, once. -/
theorem Fares.poll {box : Mailbox ε} (h : b.Fares s posted answers box) :
    b.Fares s posted (answers ++ [box.poll.2]) box.poll.1 := by
  cases h with
  | waiting inLine nothing =>
    refine .waiting inLine fun a ha => ?_
    exact (List.mem_append.1 ha).elim (nothing a) List.mem_singleton.1
  | full gone mem type copied nothing => exact .taken gone mem type copied rfl nothing
  | @taken e copy gone mem type copied earlier later found nothing =>
    have hfound : answers ++ [.closed] = earlier ++ .got copy :: (later ++ [.closed]) := by
      rw [found, List.append_assoc, List.cons_append]
    exact .taken gone mem type copied hfound nothing
  | lost gone mem type panicked never =>
    refine .lost gone mem type panicked fun a ha => ?_
    exact (List.mem_append.1 ha).elim (never a) fun ha => .inr (List.mem_singleton.1 ha)

/-- **Filling a mailbox ends the waiting**, one way or the other. -/
theorem Fares.filledBy {b' : Bus ε} {posted' : List ε} {box : Mailbox ε}
    (h : b.Fares s posted answers box) (hin : s ∈ b.lineUp s.event)
    (hout : s ∉ b'.lineUp s.event) {e : ε} (he : e ∈ posted') (htype : typeOf e = s.event) :
    b'.Fares s posted' answers (.filledBy e) := by
  cases h with
  | full gone | taken gone | lost gone => exact absurd hin gone
  | waiting inLine nothing =>
    rw [Mailbox.filledBy]
    cases hcopy : EventValue.copy e with
    | ok copy => exact .full hout he htype hcopy nothing
    | error p => exact .lost hout he htype hcopy fun a ha => .inl (nothing a ha)

theorem Awaits.fares_exec (hb : b.Reachable) (h : b.Awaits s m posted answers) (c : Command ε) :
    ∃ box, (b.exec c).state.mailboxes[m]? = some box ∧
      (b.exec c).state.Fares s (posted ++ c.posted?.toList) (answers ++ b.polled m c) box := by
  obtain ⟨box, hbox, hfares⟩ := h.fares
  have hm : m < b.mailboxes.length := (List.getElem?_eq_some_iff.1 hbox).1
  have hquiet : (∀ x ∈ b.receipts c, ¬ x.IsFor m) →
      (b.exec c).state.Fares s (posted ++ c.posted?.toList) answers box := fun hnone =>
    hfares.mono (h.mem_lineUp_exec_iff hb hnone) (List.subset_append_left ..)
  by_cases hpolled : b.polled m c = []
  · rw [hpolled, List.append_nil]
    rcases getElem?_mailboxes_exec hb.sound hb.waits hm hpolled with
      ⟨hnone, hsame⟩ | ⟨x, hx, hisFor, hfilled⟩
    · exact ⟨box, hsame.trans hbox, hquiet hnone⟩
    · obtain ⟨hin, hout, htype, hposted⟩ := h.of_isFor hb hx hisFor
      exact ⟨_, hfilled, hfares.filledBy hin hout hposted htype⟩
  · obtain rfl : c = .poll m := by
      cases c with
      | poll m' =>
        by_cases he : m' = m
        · rw [he]
        · exact absurd (if_neg he) hpolled
      | _ => exact absurd rfl hpolled
    have hpoll := poll_of_getElem? hbox
    have hfound : b.polled m (.poll m) = [box.poll.2] := by rw [polled, if_pos rfl, hpoll]
    refine ⟨box.poll.1, ?_, ?_⟩
    · change (b.poll m).1.mailboxes[m]? = _
      rw [hpoll]
      exact List.getElem?_set_self hm
    · rw [hfound]
      exact (hquiet fun x hx => absurd hx List.not_mem_nil).poll

omit [EventValue ε] in
/-- The one-shot that a command queues for a mailbox is for a new one. -/
theorem eq_length_of_mem_queuedBy {c : Command ε} {s : OneShot} (hs : s ∈ b.queuedBy c) {m : Nat}
    (htask : s.task = .deliver m) : m = b.mailboxes.length := by
  cases c with
  | once | onceOrMore =>
    rw [List.mem_singleton.1 hs] at htask
    cases htask
  | next t =>
    rw [List.mem_singleton.1 hs] at htask
    exact (Task.deliver.inj htask).symm
  | _ => exact absurd hs List.not_mem_nil

/-- **Whoever waits in a mailbox goes on to do so, or finds it filled.** -/
theorem Awaits.exec (hb : b.Reachable) (h : b.Awaits s m posted answers) (c : Command ε) :
    (b.exec c).state.Awaits s m (posted ++ c.posted?.toList) (answers ++ b.polled m c) where
  task := h.task
  old := b.ticket_lt_exec (.inr h.old)
  only hs htask := by
    rcases (mem_queuedBy_or_lineUp hb.sound hs).2 with hq | hin
    · obtain ⟨box, hbox, -⟩ := h.fares
      have hm : m < b.mailboxes.length := (List.getElem?_eq_some_iff.1 hbox).1
      exact absurd (eq_length_of_mem_queuedBy hq htask) (Nat.ne_of_lt hm)
    · exact h.only hin htask
  batch := h.batch_exec c
  fares := h.fares_exec hb c

theorem Awaits.run (hb : b.Reachable) (h : b.Awaits s m posted answers)
    (commands : List (Command ε)) :
    (b.run commands).state.Awaits s m (posted ++ commands.filterMap Command.posted?)
      (answers ++ b.collect (polled m) commands) := by
  induction commands generalizing b posted answers with
  | nil =>
    rw [List.filterMap_nil, List.append_nil]
    exact (List.append_nil answers).symm ▸ h
  | cons c commands ih =>
    have hrest := ih (hb.exec c) (h.exec hb c)
    rw [List.append_assoc, List.append_assoc, ← filterMap_cons_toList] at hrest
    exact hrest

end Exec

/-! ## Receivers -/

/-- One-shots are for mailboxes that there are. -/
theorem Reachable.lt_of_deliver (h : b.Reachable) {t : EventType} {s : OneShot} {m : Nat}
    (hs : s ∈ b.lineUp t) (htask : s.task = .deliver m) : m < b.mailboxes.length := by
  have hall : b.Ticketed ∧ b.Waits ∧
      ∀ {t s m}, s ∈ b.lineUp t → s.task = .deliver m → m < b.mailboxes.length := by
    refine h.induction (P := fun b => b.Ticketed ∧ b.Waits ∧
      ∀ {t s m}, s ∈ b.lineUp t → s.task = .deliver m → m < b.mailboxes.length)
      (fun c => ⟨ticketed_new c, waits_new c, fun hs => absurd hs List.not_mem_nil⟩) ?_
    rintro b c ⟨hticketed, hwaits, hlt⟩
    refine ⟨hticketed.exec c, hwaits.exec c, fun {t s m} hs htask => ?_⟩
    rcases (mem_queuedBy_or_lineUp hticketed.sound hs).2 with hq | hin
    · obtain rfl := eq_length_of_mem_queuedBy hq htask
      cases c with
      | next t =>
        rw [mailboxes_exec hticketed.sound hwaits, List.length_append]
        exact Nat.lt_succ_self _
      | once | onceOrMore =>
        rw [List.mem_singleton.1 hq] at htask
        cases htask
      | _ => exact absurd hq List.not_mem_nil
    · exact Nat.lt_of_lt_of_le (hlt hin htask)
        (length_mailboxes_exec hticketed.sound hwaits c)
  exact hall.2.2 hs htask

/-- **Who asks for the next event waits for it.** -/
theorem Reachable.awaits_next (h : b.Reachable) (t : EventType) :
    (b.exec (.next t)).state.Awaits ⟨b.tickets, t, .deliver b.mailboxes.length⟩
      b.mailboxes.length [] [] := by
  have hqueued : ⟨b.tickets, t, .deliver b.mailboxes.length⟩ ∈ b.queuedBy (.next t) :=
    List.mem_cons_self
  refine ⟨rfl, b.ticket_lt_exec (.inl hqueued), fun hs htask => ?_, fun f hf hs => ?_,
    .waiting, ?_, .waiting ?_ fun a ha => absurd ha List.not_mem_nil⟩
  · rcases (mem_queuedBy_or_lineUp h.sound hs).2 with hq | hin
    · exact List.mem_singleton.1 hq
    · exact absurd (h.lt_of_deliver hin htask) (Nat.lt_irrefl _)
  · have hold := h.ticketed.old (mem_lineUp_of_batch (b := b) hf hs)
    exact absurd hold (Nat.lt_irrefl _)
  · rw [mailboxes_exec h.sound h.waits]
    exact List.getElem?_concat_length
  · refine (mem_lineUp_exec h.ticketed (.next t) _).2 ⟨.inr hqueued, ?_⟩
    exact not_mem_goneBy rfl

/-- **A receiver waits, or an event has come, or copying one has panicked.**  Ask for the next event
of a type at any moment of a run, and let the run go on in any way, with posts nested to any depth
and whatever fails in them.  Then there is a mailbox for the receiver, and the one-shot that is to
fill it is pending or in a running batch while nothing has come and nothing is found there; or there
is in it, or was found in it first of all, a copy of an event of just that type that was posted
since; or copying such an event has panicked, and then nothing is ever found there.  So if the
events of the type that were posted since can all be copied, the receiver is never lost. -/
theorem receiver_fares (config : Config) (before : List (Command ε)) (t : EventType)
    (after : List (Command ε)) :
    let b := ((new config : Bus ε).run before).state
    let m := b.mailboxes.length
    let s : OneShot := ⟨b.tickets, t, .deliver m⟩
    let asked := b.exec (.next t)
    let later := (asked.state.run after).state
    let posted := after.filterMap Command.posted?
    asked.value = .mailbox m ∧
      ∃ box, later.mailboxes[m]? = some box ∧
        later.Fares s posted (asked.state.collect (polled m) after) box ∧
        ((∀ e ∈ posted, typeOf e = t → ∃ copy, EventValue.copy e = .ok copy) → box ≠ .lost) := by
  intro b m s asked later posted
  have hb : b.Reachable := ⟨config, before, rfl⟩
  obtain ⟨box, hbox, hfares⟩ := ((hb.awaits_next t).run (hb.exec _) after).fares
  refine ⟨rfl, box, hbox, hfares, ?_⟩
  rintro hcopies rfl
  cases hfares with
  | lost gone mem type panicked never =>
    obtain ⟨copy, hcopy⟩ := hcopies _ mem type
    cases panicked.symm.trans hcopy

/-- An event that refuses to be copied closes a receiver although the bus lives on: the post is
over, nobody has the one-shot any more, and nothing was ever found. -/
theorem receiver_closed_of_uncopyable :
    let t : EventType := .named 0 "GameTick"
    let e : Scenario.Value := ⟨t, .node 1 none none (some "no copies")⟩
    let asked := (new {} : Bus Scenario.Value).exec (.next t)
    let after : List (Command Scenario.Value) := [.poll 0, .post e .listed, .poll 0]
    let later := (asked.state.run after).state
    asked.state.collect (polled 0) after = [.nothing, .closed] ∧
      later.mailboxes[0]? = some .lost ∧ later.lineUp t = [] ∧ later.running = [] := by
  decide

end Bus

end PubSub
