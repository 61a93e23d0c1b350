import PubSub.Proofs.OneShots.History
import PubSub.Proofs.Post.Turns

/-!
# Proofs/OneShots/Calls — every call that is made ends in one receipt

    calls made  =  calls ended (receipts)  +  calls waited for (frames)

A post that makes a call lies on the stack until the call ends, and then leaves a receipt.  So what
is called can be read off the receipts and the stack, and with the record of the one-shots this
bounds how often, and with which events, a one-shot is called.
-/

namespace PubSub

variable {ε : Type} [EventValue ε]

/-- The one-shot that is called. -/
def Call.oneShot? : Call ε → Option OneShot
  | oneShot s _ _ => some s
  | handler _ _ => none

/-- **What a call for a one-shot says**: the event is of the one-shot's own type, and the callback
is its own. -/
theorem Recipient.call?_eq_oneShot {x : Recipient} {e e' : ε} {s : OneShot} {cb : Callback}
    (h : x.call? e = some (.oneShot s cb e')) :
    x = .oneShot s ∧ e' = e ∧ typeOf e = s.event ∧
      (s.task = .once cb ∨ s.task = .untilDone cb) := by
  cases x with
  | handler r =>
    rw [Recipient.call?] at h
    split at h
    · split at h <;> cases h
    · cases h
  | oneShot s' =>
    obtain ⟨htype, h⟩ := Option.ite_none_right_eq_some.1 h
    cases htask : s'.task with
    | deliver mailbox => simp [htask] at h
    | once cb' =>
      simp only [htask, Option.some.injEq, Call.oneShot.injEq] at h
      obtain ⟨rfl, rfl, rfl⟩ := h
      exact ⟨rfl, rfl, htype, .inl htask⟩
    | untilDone cb' =>
      simp only [htask, Option.some.injEq, Call.oneShot.injEq] at h
      obtain ⟨rfl, rfl, rfl⟩ := h
      exact ⟨rfl, rfl, htype, .inr htask⟩

namespace Bus

/-- The calls that the running posts wait for, innermost first. -/
def callsWaited (b : Bus ε) : List (Call ε) := b.running.filterMap Frame.call?

/-- The calls that a run makes. -/
def callsMade (b : Bus ε) (commands : List (Command ε)) : List (Call ε) :=
  (b.run commands).value.filterMap (·.toProgress.call?)

theorem callsWaited_of_rests {e : ε} {outer : List (Frame ε)} {agenda : List Recipient}
    {xs : List (Receipt ε)} {r : Logged (Bus ε) (Progress ε)} (h : Rests e outer agenda xs r) :
    r.state.callsWaited = r.value.call?.toList ++ outer.filterMap Frame.call? := by
  rw [callsWaited]
  cases h with
  | ended ending hv hr hends =>
    rw [hv, hr]
    rfl
  | waits f call hv hr he hc hh ho =>
    have hcall : f.call? = some call := by rw [Frame.call?, he, hc]
    rw [hv, hr, List.filterMap_cons_some hcall]
    rfl

/-- **A call that is made is waited for, and then received.** -/
theorem calls_exec (b : Bus ε) (c : Command ε) :
    (b.callsWaited ++ (b.exec c).value.toProgress.call?.toList).Perm
      ((b.receipts c).filterMap Receipt.call? ++ (b.exec c).state.callsWaited) := by
  cases c with
  | post e order =>
    rw [receipts, calls_passed, List.nil_append]
    refine List.perm_append_comm.trans (List.Perm.of_eq ?_)
    exact (callsWaited_of_rests (b.rests_post e order rfl)).symm
  | resume o =>
    rw [receipts]
    cases hb : b.running with
    | nil =>
      rw [exec_resume, Logged.value_map, Logged.state_map, resume_of_idle hb]
      exact List.Perm.of_eq (List.append_nil _)
    | cons f outer =>
      have hafter : (b.exec (.resume o)).state.callsWaited =
          (b.exec (.resume o)).value.toProgress.call?.toList ++ outer.filterMap Frame.call? :=
        callsWaited_of_rests (rests_resume hb o)
      have hbefore : b.callsWaited = f.call?.toList ++ outer.filterMap Frame.call? := by
        rw [callsWaited, hb, filterMap_cons_toList]
      rw [hafter, hbefore, Frame.calls_receipts, List.append_assoc]
      exact List.perm_append_comm.append_left _
  | register o interests =>
    have h : (b.exec (.register o interests)).state.running = b.running :=
      congrArg (·.running) (b.state_register o interests)
    refine List.Perm.of_eq ((List.append_nil _).trans ?_)
    rw [callsWaited, callsWaited, h]
    rfl
  | poll mailbox =>
    obtain ⟨boxes, hboxes⟩ := b.state_poll mailbox
    have h : (b.exec (.poll mailbox)).state.running = b.running := congrArg (·.running) hboxes
    refine List.Perm.of_eq ((List.append_nil _).trans ?_)
    rw [callsWaited, callsWaited, h]
    rfl
  | unregister | declare | once | onceOrMore | next | hasSubscribers =>
    exact List.Perm.of_eq (List.append_nil _)

/-- **The calls of a run are those that ended and those that are waited for.** -/
theorem callsMade_perm (config : Config) (commands : List (Command ε)) :
    ((new config : Bus ε).callsMade commands).Perm
      (((new config : Bus ε).collect receipts commands).filterMap Receipt.call? ++
        ((new config : Bus ε).run commands).state.callsWaited) := by
  induction commands using List.reverseRecOn with
  | nil => exact .refl _
  | append_singleton commands c ih =>
    have hlast : (new config : Bus ε).callsMade (commands ++ [c]) =
        (new config : Bus ε).callsMade commands ++
          (((new config : Bus ε).run commands).state.exec c).value.toProgress.call?.toList := by
      rw [callsMade, value_run_append, List.filterMap_append]
      refine congrArg (_ ++ ·) ?_
      exact (filterMap_cons_toList _ _ []).trans (List.append_nil _)
    rw [hlast, state_run_concat, collect_concat, List.filterMap_append, List.append_assoc]
    refine (ih.append_right _).trans ?_
    rw [List.append_assoc]
    exact (calls_exec _ c).append_left _

/-! ## One-shots that are called -/

/-- **A call for a one-shot is for one that was queued for just the event's type.** -/
theorem mem_queued_of_callsMade (config : Config) (commands : List (Command ε)) {s : OneShot}
    {cb : Callback} {e : ε} (h : .oneShot s cb e ∈ (new config : Bus ε).callsMade commands) :
    s ∈ (new config : Bus ε).collect queuedBy commands ∧ typeOf e = s.event ∧
      (s.task = .once cb ∨ s.task = .untilDone cb) := by
  have hrecorded := recorded_run (ε := ε) config commands
  rcases List.mem_append.1 ((callsMade_perm config commands).mem_iff.1 h) with h | h
  · obtain ⟨x, hx, hcall⟩ := List.mem_filterMap.1 h
    obtain ⟨hrecipient, -, htype, htask⟩ := Recipient.call?_eq_oneShot hcall
    obtain ⟨hqueued, hevent, -⟩ := hrecorded.known hx hrecipient
    obtain rfl : e = x.event := (Recipient.call?_eq_oneShot hcall).2.1
    exact ⟨hqueued, htype, htask⟩
  · obtain ⟨f, hf, hcall⟩ := List.mem_filterMap.1 h
    obtain ⟨hcurrent, rfl, htype, htask⟩ := Recipient.call?_eq_oneShot hcall
    have hbatch : s ∈ f.batch := List.mem_append_left _ (mem_executing_iff.2 hcurrent)
    exact ⟨hrecorded.mem_queued (mem_lineUp_of_batch hf hbatch), htype, htask⟩

theorem count_called_le (xs : List (Receipt ε)) (s : OneShot) :
    ((xs.filterMap Receipt.call?).filterMap Call.oneShot?).count s ≤ (outcomes xs s).length := by
  rw [length_outcomes, List.filterMap_filterMap]
  refine List.Sublist.count_le s ?_
  induction xs with
  | nil => exact .slnil
  | cons x xs ih =>
    rw [filterMap_cons_toList, filterMap_cons_toList]
    refine List.Sublist.append ?_ ih
    cases hcall : x.call? with
    | none => exact List.nil_sublist _
    | some call =>
      cases call with
      | handler r e => exact List.nil_sublist _
      | oneShot s' cb e =>
        have hrecipient := (Recipient.call?_eq_oneShot hcall).1
        have hentry : x.oneShot? = some s' := by rw [Receipt.oneShot?, hrecipient]
        rw [hentry]
        exact List.Sublist.refl _

theorem count_waited_le (b : Bus ε) (s : OneShot) :
    (b.callsWaited.filterMap Call.oneShot?).count s ≤ b.executing.count s := by
  rw [callsWaited, List.filterMap_filterMap, executing]
  refine List.Sublist.count_le s ?_
  induction b.running with
  | nil => exact .slnil
  | cons f l ih =>
    rw [filterMap_cons_toList, List.flatMap_cons]
    refine List.Sublist.append ?_ ih
    cases hcall : f.call? with
    | none => exact List.nil_sublist _
    | some call =>
      cases call with
      | handler r e => exact List.nil_sublist _
      | oneShot s' cb e =>
        have hmem := mem_executing_iff.2 (Recipient.call?_eq_oneShot hcall).1
        exact List.singleton_sublist.2 hmem

/-- **A one-shot that is to run once is called at most once**, in a whole run. -/
theorem count_callsMade_le_one (config : Config) (commands : List (Command ε)) {s : OneShot}
    (hs : s ∈ (new config : Bus ε).collect queuedBy commands) {cb : Callback}
    (htask : s.task = .once cb) :
    (((new config : Bus ε).callsMade commands).filterMap Call.oneShot?).count s ≤ 1 := by
  have hrecorded := recorded_run (ε := ε) config commands
  have hcount := ((callsMade_perm (ε := ε) config commands).filterMap Call.oneShot?).count_eq s
  rw [List.filterMap_append, List.count_append] at hcount
  have hended := count_called_le ((new config : Bus ε).collect receipts commands) s
  have hwaited := count_waited_le ((new config : Bus ε).run commands).state s
  have hexecuting : ((new config : Bus ε).run commands).state.executing.count s ≤
      (((new config : Bus ε).run commands).state.lineUp s.event).count s := by
    rw [← hrecorded.ticketed.sound.count_places, places, List.count_append]
    exact Nat.le_add_left ..
  -- such a one-shot has a receipt only of being done or of a failure
  have hdone : ∀ o ∈ outcomes ((new config : Bus ε).collect receipts commands) s,
      o ≠ .returned false := by
    rintro o ho rfl
    obtain ⟨x, hx, hrecipient, houtcome⟩ := mem_outcomes.1 ho
    obtain ⟨cb', htask'⟩ := (hrecorded.known hx hrecipient).2.2 houtcome
    rw [htask] at htask'
    cases htask'
  cases hrecorded.standing hs with
  | inLine hin hnot =>
    have hnone : outcomes ((new config : Bus ε).collect receipts commands) s = [] :=
      List.eq_nil_iff_forall_not_mem.2 fun o ho => hdone o ho (hnot o ho)
    have hline := List.nodup_iff_count_le_one.1 (hrecorded.ticketed.nodup s.event) s
    rw [hnone, List.length_nil] at hended
    omega
  | gone earlier last hout hlast hnot hne =>
    obtain rfl : earlier = [] := List.eq_nil_iff_forall_not_mem.2 fun o ho =>
      hdone o (hlast ▸ List.mem_append_left _ ho) (hnot o ho)
    rw [List.count_eq_zero_of_not_mem hout] at hexecuting
    rw [hlast, List.nil_append, List.length_singleton] at hended
    omega

end Bus

end PubSub
