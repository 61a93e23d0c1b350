import Mathlib.Data.List.Induction
import PubSub.Proofs.OneShots.LineUp

/-!
# Proofs/OneShots/History — what has become of every one-shot that was queued

    queued ──▸ in the line-up ──returned false──┐
                 │        ◂─────────────────────┘
                 └──any other outcome──▸ gone

The receipts of a run say of every one-shot how its calls have ended.  As long as they ended with
"not done" it stands in the line-up of its type; the first other outcome is the last, and the
one-shot stands nowhere any more.  `Recorded` is this agreement of a bus with what was queued and
what was received, and every command keeps it.
-/

namespace PubSub

variable {ε : Type} [EventValue ε]

/-! ## Outcomes -/

/-- The one-shot that a receipt is from. -/
def Receipt.oneShot? (x : Receipt ε) : Option OneShot :=
  match x.recipient with
  | .oneShot s => some s
  | .handler _ => none

/-- How the calls for a one-shot have ended, oldest first. -/
def outcomes (xs : List (Receipt ε)) (s : OneShot) : List Outcome :=
  (xs.filter (·.recipient = .oneShot s)).map (·.outcome)

/-- Whether the last call for a one-shot left it with nothing more to do: it was done, failed or
panicked. -/
def Gone (xs : List (Receipt ε)) (s : OneShot) : Prop :=
  ∃ o, (outcomes xs s).getLast? = some o ∧ o ≠ .returned false

omit [EventValue ε] in
theorem outcomes_append (xs ys : List (Receipt ε)) (s : OneShot) :
    outcomes (xs ++ ys) s = outcomes xs s ++ outcomes ys s := by
  rw [outcomes, List.filter_append, List.map_append]
  rfl

omit [EventValue ε] in
theorem mem_outcomes {xs : List (Receipt ε)} {s : OneShot} {o : Outcome} :
    o ∈ outcomes xs s ↔ ∃ x ∈ xs, x.recipient = .oneShot s ∧ x.outcome = o := by
  simp only [outcomes, List.mem_map, List.mem_filter, decide_eq_true_eq, and_assoc]

omit [EventValue ε] in
theorem length_outcomes (xs : List (Receipt ε)) (s : OneShot) :
    (outcomes xs s).length = (xs.filterMap Receipt.oneShot?).count s := by
  induction xs with
  | nil => rfl
  | cons x xs ih =>
    rw [← List.singleton_append, outcomes_append, List.length_append, ih, List.filterMap_append,
      List.count_append]
    refine congrArg (· + _) ?_
    obtain ⟨e, recipient, o⟩ := x
    cases recipient with
    | handler r => rfl
    | oneShot s' =>
      by_cases hs : s' = s
      · subst hs
        simp [outcomes, Receipt.oneShot?]
      · simp [outcomes, Receipt.oneShot?, hs]

omit [EventValue ε] in
/-- **Who is gone by some receipts has one that is not "not done".** -/
theorem mem_gone_iff {xs : List (Receipt ε)} {s : OneShot} :
    s ∈ xs.filterMap Receipt.gone? ↔ ∃ o ∈ outcomes xs s, o ≠ .returned false := by
  simp only [List.mem_filterMap, mem_outcomes]
  constructor
  · rintro ⟨⟨e, recipient, o⟩, hx, hgone⟩
    cases recipient with
    | handler r => cases hgone
    | oneShot s' =>
      have hne : o ≠ .returned false := fun ho => by simp [Receipt.gone?, ho] at hgone
      obtain rfl : s' = s := by simpa [Receipt.gone?, hne] using hgone
      exact ⟨o, ⟨_, hx, rfl, rfl⟩, hne⟩
  · rintro ⟨o, ⟨⟨e, recipient, o'⟩, hx, rfl, rfl⟩, hne⟩
    exact ⟨_, hx, Receipt.gone?_of_ne hne⟩

/-- A one-shot that is visited without a call has nothing more to do. -/
theorem OneShot.atOnce_ne (e : ε) {s : OneShot} (h : typeOf e = s.event) :
    s.atOnce e ≠ .returned false := by
  rw [OneShot.atOnce, if_pos h]
  cases EventValue.copy e <;> simp

/-- Only a callback that may be called again is ever not done. -/
theorem OneShot.untilDone_of_verdict {s : OneShot} {o : Outcome}
    (h : s.verdict o = .returned false) : ∃ c, s.task = .untilDone c := by
  obtain ⟨ticket, event, task⟩ := s
  cases task with
  | untilDone c => exact ⟨c, rfl⟩
  | once c => rcases o with done | (err | p) <;> cases h
  | deliver mailbox => rcases o with done | (err | p) <;> cases h

omit [EventValue ε] in
/-- A receipt of the call that a post waits for is of the one-shot that is executing, if one is. -/
theorem Frame.toList_oneShot? (f : Frame ε) (o : Outcome) :
    (Receipt.mk f.event f.current o).oneShot?.toList = f.executing := by
  rw [Receipt.oneShot?, current, executing]
  cases f.stage <;> rfl

omit [EventValue ε] in
theorem Frame.untilDone_of_verdict {f : Frame ε} {s : OneShot} (hs : f.current = .oneShot s)
    {o : Outcome} (h : f.verdict o = .returned false) : ∃ c, s.task = .untilDone c := by
  rw [Frame.current] at hs
  rw [Frame.verdict] at h
  cases hstage : f.stage with
  | oneShot s' rest size =>
    rw [hstage] at hs h
    obtain rfl : s' = s := Recipient.oneShot.inj hs
    exact OneShot.untilDone_of_verdict h
  | handler r =>
    rw [hstage] at hs
    cases hs

namespace Bus

variable {b : Bus ε}

/-! ## The receipts of a command -/

theorem entries_passed (e : ε) (l : List OneShot) :
    (passed e l).filterMap Receipt.oneShot? = l.takeWhile (OneShot.isPassed e) := by
  rw [passed, List.filterMap_map]
  exact List.filterMap_some

/-- **When a call ends, receipts are from the batch of the post, in its order.** -/
theorem entries_receipts (f : Frame ε) (o : Outcome) :
    ((f.receipts o).filterMap Receipt.oneShot?).Sublist f.batch := by
  rw [Frame.receipts, filterMap_cons_toList, f.toList_oneShot?]
  refine (List.Sublist.refl f.executing).append ?_
  split
  · exact List.nil_sublist _
  · rw [entries_passed]
    exact List.takeWhile_sublist _

/-- The receipts of a command are all of one post. -/
theorem receipts_cases (b : Bus ε) (c : Command ε) :
    b.receipts c = [] ∨ (∃ e, b.receipts c = passed e (b.backlog.waiting (typeOf e))) ∨
      ∃ f ∈ b.running, ∃ o, b.receipts c = f.receipts o := by
  rcases b.exec_cases c with ⟨e, order, rfl⟩ | ⟨o, rfl⟩ | ⟨-, -, hx⟩
  · exact .inr (.inl ⟨e, rfl⟩)
  · rw [receipts]
    cases b.running with
    | nil => exact .inl rfl
    | cons f outer => exact .inr (.inr ⟨f, List.mem_cons_self, o, rfl⟩)
  · exact .inl hx

/-- **Nobody gets two receipts by one command.** -/
theorem nodup_entries (h : b.Ticketed) (c : Command ε) :
    ((b.receipts c).filterMap Receipt.oneShot?).Nodup := by
  rcases b.receipts_cases c with hx | ⟨e, hx⟩ | ⟨f, hf, o, hx⟩
  · rw [hx]
    exact List.nodup_nil
  · rw [hx, entries_passed]
    refine (h.nodup (typeOf e)).sublist ((List.takeWhile_sublist _).trans ?_)
    exact List.sublist_append_left ..
  · rw [hx]
    refine (h.nodup (typeOf f.event)).sublist ((entries_receipts f o).trans ?_)
    exact (batch_sublist_held hf).trans (List.sublist_append_right ..)

theorem length_outcomes_le (h : b.Ticketed) (c : Command ε) (s : OneShot) :
    (outcomes (b.receipts c) s).length ≤ 1 := by
  rw [length_outcomes]
  exact List.nodup_iff_count_le_one.1 (nodup_entries h c) s

/-- Who is passed was in the batch, and has nothing more to do. -/
theorem mem_of_mem_passed {e : ε} {l : List OneShot} (hl : ∀ s ∈ l, s.event = typeOf e)
    {x : Receipt ε} (hx : x ∈ passed e l) {s : OneShot} (hs : x.recipient = .oneShot s) :
    s ∈ l ∧ x.event = e ∧ x.outcome ≠ .returned false := by
  obtain ⟨s', hs', rfl⟩ := List.mem_map.1 hx
  obtain rfl : s' = s := Recipient.oneShot.inj hs
  have hmem : s' ∈ l := List.takeWhile_subset _ hs'
  exact ⟨hmem, rfl, OneShot.atOnce_ne e (hl s' hmem).symm⟩

/-- **Who gets a receipt stood in the line-up of the event's type**, and can only stay there if it
may be called again. -/
theorem mem_lineUp_of_mem_receipts (h : b.Sound) {c : Command ε} {x : Receipt ε} {s : OneShot}
    (hx : x ∈ b.receipts c) (hs : x.recipient = .oneShot s) :
    s ∈ b.lineUp (typeOf x.event) ∧
      (x.outcome = .returned false → ∃ cb, s.task = .untilDone cb) := by
  rcases b.receipts_cases c with hnil | ⟨e, hall⟩ | ⟨f, hf, o, hall⟩
  · rw [hnil] at hx
    exact absurd hx List.not_mem_nil
  · rw [hall] at hx
    obtain ⟨hmem, rfl, hne⟩ := mem_of_mem_passed (fun _ => h.event_eq_of_waiting) hx hs
    exact ⟨List.mem_append_left _ hmem, fun ho => absurd ho hne⟩
  · rcases Frame.mem_receipts (hall ▸ hx) with rfl | hx
    · have hmem := List.mem_append_left f.unvisited (mem_executing_iff.2 hs)
      exact ⟨mem_lineUp_of_batch hf hmem, Frame.untilDone_of_verdict hs⟩
    · obtain ⟨hmem, he, hne⟩ := mem_of_mem_passed (h.event_eq_of_unvisited hf) hx hs
      rw [he]
      exact ⟨mem_lineUp_of_batch hf (List.mem_append_right _ hmem), fun ho => absurd ho hne⟩

/-- **Who stands in line after a command** stood there before or was queued, and is not gone. -/
theorem mem_lineUp_exec (h : b.Ticketed) (c : Command ε) (s : OneShot) :
    s ∈ (b.exec c).state.lineUp s.event ↔
      (s ∈ b.lineUp s.event ∨ s ∈ b.queuedBy c) ∧ s ∉ b.goneBy c := by
  obtain ⟨front, back, hbefore, hafter⟩ := lineUp_exec h.sound c s.event
  have hjoined : s ∈ b.joined c s.event ↔ s ∈ b.lineUp s.event ∨ s ∈ b.queuedBy c := by
    rw [(b.joined_perm c s.event).mem_iff, List.mem_append, ofType, List.mem_filter, or_comm]
    simp
  have hgone : s ∈ ofType s.event (b.goneBy c) ↔ s ∈ b.goneBy c := by simp [ofType]
  have hnodup := h.nodup_joined c s.event
  rw [hbefore, List.append_assoc, List.nodup_append'] at hnodup
  obtain ⟨-, hrest, hfront⟩ := hnodup
  rw [← hjoined, ← hgone, hbefore, hafter]
  simp only [List.mem_append]
  constructor
  · rintro (hs | hs)
    · exact ⟨.inl (.inl hs), fun hg => hfront hs (List.mem_append_left _ hg)⟩
    · exact ⟨.inr hs, fun hg => (List.nodup_append'.1 hrest).2.2 hg hs⟩
  · rintro ⟨(hs | hs) | hs, hg⟩
    · exact .inl hs
    · exact absurd hs hg
    · exact .inr hs

/-! ## The record -/

/-- How a one-shot stands when `xs` was received: in line and so far not done, or gone by the last
of its receipts. -/
inductive Standing (b : Bus ε) (xs : List (Receipt ε)) (s : OneShot) : Prop
  | inLine (mem : s ∈ b.lineUp s.event) (notDone : ∀ o ∈ outcomes xs s, o = .returned false)
  | gone (earlier : List Outcome) (last : Outcome) (notMem : s ∉ b.lineUp s.event)
      (ended : outcomes xs s = earlier ++ [last]) (notDone : ∀ o ∈ earlier, o = .returned false)
      (last_ne : last ≠ .returned false)

/-- A bus agrees with what was queued and what was received: those that were queued have tickets of
their own, nobody else stands in line or received anything, and each of them stands as its receipts
say. -/
structure Recorded (b : Bus ε) (queued : List OneShot) (history : List (Receipt ε)) : Prop where
  ticketed : b.Ticketed
  nodup : (queued.map (·.ticket)).Nodup
  old : ∀ {s}, s ∈ queued → s.ticket < b.tickets
  mem_queued : ∀ {t s}, s ∈ b.lineUp t → s ∈ queued
  known : ∀ {x s}, x ∈ history → x.recipient = .oneShot s →
    s ∈ queued ∧ s.event = typeOf x.event ∧
      (x.outcome = .returned false → ∃ cb, s.task = .untilDone cb)
  standing : ∀ {s}, s ∈ queued → b.Standing history s

theorem recorded_new (c : Config) : (new c : Bus ε).Recorded [] [] where
  ticketed := ticketed_new c
  nodup := List.nodup_nil
  old h := absurd h List.not_mem_nil
  mem_queued h := absurd h List.not_mem_nil
  known h := absurd h List.not_mem_nil
  standing h := absurd h List.not_mem_nil

/-- **A one-shot that is queued has no receipts yet.** -/
theorem Recorded.outcomes_of_new {queued : List OneShot} {history : List (Receipt ε)}
    (h : b.Recorded queued history) {c : Command ε} {s : OneShot} (hs : s ∈ b.queuedBy c) :
    outcomes (history ++ b.receipts c) s = [] := by
  have hnew := ticket_of_mem_queuedBy hs
  refine List.eq_nil_iff_forall_not_mem.2 fun o ho => ?_
  obtain ⟨x, hx, hrecipient, -⟩ := mem_outcomes.1 ho
  have hqueued : s ∈ queued := by
    rcases List.mem_append.1 hx with hx | hx
    · exact (h.known hx hrecipient).1
    · exact h.mem_queued (mem_lineUp_of_mem_receipts h.ticketed.sound hx hrecipient).1
  exact absurd (h.old hqueued) (by omega)

/-- A one-shot that a command has no receipt for is not gone by it. -/
theorem not_mem_goneBy {c : Command ε} {s : OneShot} (h : outcomes (b.receipts c) s = []) :
    s ∉ b.goneBy c := fun hg => by
  obtain ⟨o, ho, -⟩ := mem_gone_iff.1 hg
  exact absurd (h ▸ ho) List.not_mem_nil

/-- Who stands in line before a command moves as its receipt says, if it gets one. -/
theorem standing_of_inLine (h : b.Ticketed) (c : Command ε) {history : List (Receipt ε)}
    {s : OneShot} (hin : s ∈ b.lineUp s.event)
    (hnot : ∀ o ∈ outcomes history s, o = .returned false) :
    (b.exec c).state.Standing (history ++ b.receipts c) s := by
  have hmem := mem_lineUp_exec h c s
  have hle := length_outcomes_le h c s
  match hx : outcomes (b.receipts c) s with
  | [] =>
    refine .inLine (hmem.2 ⟨.inl hin, not_mem_goneBy hx⟩) ?_
    rwa [outcomes_append, hx, List.append_nil]
  | o :: o' :: rest =>
    rw [hx] at hle
    exact absurd hle (by simp)
  | [o] =>
    have hgone : s ∈ b.goneBy c ↔ o ≠ .returned false := by
      rw [goneBy, mem_gone_iff, hx]
      simp
    by_cases ho : o = .returned false
    · refine .inLine (hmem.2 ⟨.inl hin, fun hg => hgone.1 hg ho⟩) fun o' ho' => ?_
      rw [outcomes_append, hx] at ho'
      rcases List.mem_append.1 ho' with ho' | ho'
      · exact hnot o' ho'
      · exact (List.mem_singleton.1 ho').trans ho
    · refine .gone (outcomes history s) o (fun hin' => (hmem.1 hin').2 (hgone.2 ho)) ?_ hnot ho
      rw [outcomes_append, hx]

/-- **A command moves a one-shot as its receipt says.** -/
theorem Recorded.standing_exec {queued : List OneShot} {history : List (Receipt ε)}
    (h : b.Recorded queued history) (c : Command ε) {s : OneShot}
    (hs : s ∈ queued ++ b.queuedBy c) :
    (b.exec c).state.Standing (history ++ b.receipts c) s := by
  have hmem := mem_lineUp_exec h.ticketed c s
  rcases List.mem_append.1 hs with hs | hs
  · cases h.standing hs with
    | inLine hin hnot => exact standing_of_inLine h.ticketed c hin hnot
    | gone earlier last hout hended hnot hne =>
      have hold : s ∉ b.queuedBy c := fun hq => by
        have hnew := ticket_of_mem_queuedBy hq
        have hlt := h.old hs
        omega
      have hnone : outcomes (b.receipts c) s = [] := by
        refine List.eq_nil_iff_forall_not_mem.2 fun o ho => hout ?_
        obtain ⟨x, hx, hrecipient, -⟩ := mem_outcomes.1 ho
        have hin := (mem_lineUp_of_mem_receipts h.ticketed.sound hx hrecipient).1
        rwa [h.ticketed.sound.event_eq hin]
      refine .gone earlier last (fun hin => (hmem.1 hin).1.elim hout hold) ?_ hnot hne
      rw [outcomes_append, hnone, List.append_nil, hended]
  · have hnone := h.outcomes_of_new hs
    refine .inLine (hmem.2 ⟨.inr hs, not_mem_goneBy ?_⟩) fun o ho => ?_
    · rw [outcomes_append] at hnone
      exact (List.append_eq_nil_iff.1 hnone).2
    · exact absurd (hnone ▸ ho) List.not_mem_nil

/-- **Every command keeps the record.** -/
theorem Recorded.exec {queued : List OneShot} {history : List (Receipt ε)}
    (h : b.Recorded queued history) (c : Command ε) :
    (b.exec c).state.Recorded (queued ++ b.queuedBy c) (history ++ b.receipts c) where
  ticketed := h.ticketed.exec c
  nodup := by
    rw [List.map_append, List.nodup_append']
    refine ⟨h.nodup, b.nodup_queuedBy c, fun n hn hn' => ?_⟩
    obtain ⟨s, hs, rfl⟩ := List.mem_map.1 hn
    obtain ⟨s', hs', he⟩ := List.mem_map.1 hn'
    have hnew := ticket_of_mem_queuedBy hs'
    have hlt := h.old hs
    omega
  old hs := b.ticket_lt_exec ((List.mem_append.1 hs).symm.imp_right h.old)
  mem_queued hs := by
    rcases (mem_queuedBy_or_lineUp h.ticketed.sound hs).2 with hq | hin
    · exact List.mem_append_right _ hq
    · exact List.mem_append_left _ (h.mem_queued hin)
  known := by
    intro x s hx hs
    rcases List.mem_append.1 hx with hx | hx
    · exact (h.known hx hs).imp_left (List.mem_append_left _)
    · obtain ⟨hin, hdone⟩ := mem_lineUp_of_mem_receipts h.ticketed.sound hx hs
      exact ⟨List.mem_append_left _ (h.mem_queued hin), h.ticketed.sound.event_eq hin, hdone⟩
  standing hs := h.standing_exec c hs

/-- **After every run the bus agrees with what was queued and what was received.** -/
theorem recorded_run (config : Config) (commands : List (Command ε)) :
    ((new config : Bus ε).run commands).state.Recorded
      ((new config : Bus ε).collect queuedBy commands)
      ((new config : Bus ε).collect receipts commands) := by
  induction commands using List.reverseRecOn with
  | nil => exact recorded_new config
  | append_singleton commands c ih =>
    rw [state_run_concat, collect_concat, collect_concat]
    exact ih.exec c

end Bus

end PubSub
