import Mathlib.Data.List.Forall2
import PubSub.Proofs.OneShots.Calls
import PubSub.Proofs.Post.Waits
import PubSub.Proofs.Runs.Log
import PubSub.Showcase.Loot

/-!
# Proofs/Runs/Failures — what goes wrong is reported, and once

    commands, answers ──▸ callbook      calls in the order in which they ended, with their outcomes
                             ║
    receipts              ══ ╝ and copies for mailboxes
       │ what went wrong
       ▼
    log                   one record of level ERROR each, in the same order

Somebody who keeps a callbook sees which calls a bus makes and how they end, and nothing else.  A
post that is aborted or left by a panic may be the reason why the call in which it was made goes
wrong in its turn: then there are two calls, and two records, the inner one first.
-/

namespace PubSub

/-! ## What a record tells -/

/-- What is to be said of a fault: the text that was returned, or the text of the panic, if it has
one. -/
def Fault.text : Fault → String
  | .error (.failed text) | .error (.fatal text) | .panic (.text text) => text
  | .panic .unreadable => "unknown panic"

/-- The field that says it. -/
def Fault.fieldName : Fault → String
  | .error _ => "error"
  | .panic _ => "panic"

/-- What it says before that: of an error that was not fatal, that the handler failed. -/
def Fault.lead : Fault → String
  | .error (.failed _) => "handler failed: "
  | _ => ""

theorem Fault.field_eq (fault : Fault) :
    fault.field = (fault.fieldName, .text (fault.lead ++ fault.text)) := by
  have hbare : ∀ text : String, text = "" ++ text := fun text => String.empty_append.symm
  cases fault with
  | panic p =>
    cases p with
    | text text => exact congrArg (fun text => ("panic", Field.text text)) (hbare text)
    | unreadable => exact congrArg (fun text => ("panic", Field.text text)) (hbare _)
  | error e =>
    cases e with
    | fatal text => exact congrArg (fun text => ("error", Field.text text)) (hbare _)
    | failed text => rfl

/-- A record is of level ERROR and tells of a fault that befell somebody: the type that was posted,
the text, and for a handler its own owner, by name and number, and its own name. -/
structure Record.TellsOf (r : Record) (posted : EventType) (whom : Recipient) (fault : Fault) :
    Prop where
  level : r.level = .error
  event : ("event", .text posted.shortName) ∈ r.fields
  text : (fault.fieldName, .text (fault.lead ++ fault.text)) ∈ r.fields
  handler : ∀ route, whom = .handler route →
    ("owner", .text (route.subscription.owner.name ++ "#" ++
        toString route.subscription.owner.id.number)) ∈ r.fields ∧
      ("handler", .text route.subscription.name) ∈ r.fields

/-- **The record of a fault tells of it.** -/
theorem Recipient.record_tellsOf (posted : EventType) (fault : Fault) (whom : Recipient) :
    (whom.record posted fault).TellsOf posted whom fault := by
  cases whom with
  | oneShot s =>
    have hfields : ((Recipient.oneShot s).record posted fault).fields =
        [("event", .text posted.shortName), fault.field] := rfl
    exact ⟨rfl, by simp [hfields], by simp [hfields, fault.field_eq], fun _ h => nomatch h⟩
  | handler r =>
    have hfields : ((Recipient.handler r).record posted fault).fields =
        [("owner", .text (r.subscription.owner.name ++ "#" ++
            toString r.subscription.owner.id.number)),
          ("handler", .text r.subscription.name), ("event", .text posted.shortName),
          fault.field] := rfl
    refine ⟨rfl, by simp [hfields], by simp [hfields, fault.field_eq], fun route h => ?_⟩
    obtain rfl : r = route := Recipient.handler.inj h
    simp [hfields]

variable {ε : Type}

/-- A record tells of a receipt of something that went wrong. -/
def Record.TellsReceipt [EventValue ε] (r : Record) (x : Receipt ε) : Prop :=
  ∃ fault, x.outcome = .faulted fault ∧ r.TellsOf (typeOf x.event) x.recipient fault

/-- Whether something went wrong. -/
def Outcome.isFaulted : Outcome → Bool
  | returned _ => false
  | faulted _ => true

/-! ## The callbook -/

/-- How a call counts when it has ended so.  A callback that runs once has nothing to return: it is
done, unless it panics. -/
def Call.verdict : Call ε → Outcome → Outcome
  | handler _ _, o | oneShot ⟨_, _, .untilDone _⟩ _ _, o => o
  | oneShot _ _ _, .faulted (.panic p) => .faulted (.panic p)
  | oneShot _ _ _, _ => .returned true

/-- **A call of a one-shot counts as the one-shot has it.** -/
theorem Call.verdict_oneShot (s : OneShot) (c : Callback) (e : ε) (o : Outcome) :
    (Call.oneShot s c e).verdict o = s.verdict o := by
  obtain ⟨ticket, t, task⟩ := s
  cases task with
  | untilDone => rfl
  | once | deliver =>
    cases o with
    | returned done => rfl
    | faulted fault => cases fault <;> rfl

/-- A call that has ended, with the type of the event that was posted. -/
structure Ended (ε : Type) where
  posted : EventType
  call : Call ε
  outcome : Outcome
  deriving DecidableEq, Repr

/-- What can be known of calls from the commands and their answers. -/
structure Callbook (ε : Type) where
  /-- The calls that posts wait for, with what was posted, innermost first. -/
  waited : List (EventType × Call ε)
  /-- The calls that have ended, in the order in which they did. -/
  ended : List (Ended ε)
  deriving DecidableEq, Repr

namespace Callbook

/-- The callbook before anything is posted. -/
def empty : Callbook ε := ⟨[], []⟩

/-- Notes where a post of a type has stopped. -/
def wait (l : Callbook ε) (t : EventType) : Progress ε → Callbook ε
  | .calling call => { l with waited := (t, call) :: l.waited }
  | _ => l

/-- Notes how the innermost call has ended. -/
def hangUp (l : Callbook ε) (o : Outcome) (p : Progress ε) : Callbook ε :=
  match l.waited with
  | [] => l
  | (t, call) :: outer => wait ⟨outer, l.ended ++ [⟨t, call, call.verdict o⟩]⟩ t p

variable [EventValue ε]

/-- Notes a command and its answer. -/
def note (l : Callbook ε) : Command ε → Reply ε → Callbook ε
  | .post e _, .progress p => l.wait (typeOf e) p
  | .resume o, .progress p => l.hangUp o p
  | _, _ => l

/-- Notes commands and their answers, one after the other. -/
def noteAll (l : Callbook ε) : List (Command ε) → List (Reply ε) → Callbook ε
  | c :: commands, reply :: replies => (l.note c reply).noteAll commands replies
  | _, _ => l

end Callbook

variable [EventValue ε]

/-- The call that a receipt is of, as it ended. -/
def Receipt.ended? (x : Receipt ε) : Option (Ended ε) :=
  x.call?.map fun call => ⟨typeOf x.event, call, x.outcome⟩

theorem ended_passed (e : ε) (l : List OneShot) : (passed e l).filterMap Receipt.ended? = [] := by
  refine List.filterMap_eq_nil_iff.2 fun x hx => ?_
  rw [Receipt.ended?, Receipt.call?, event_of_mem_passed hx, call?_of_mem_passed hx]
  rfl

/-- **A call counts for the callbook as it counts for the post that made it.** -/
theorem Frame.verdict_call {f : Frame ε} {call : Call ε} (h : f.call? = some call) (o : Outcome) :
    call.verdict o = f.verdict o := by
  rw [Frame.call?, Frame.current] at h
  rw [Frame.verdict]
  cases hs : f.stage with
  | handler r =>
    rw [hs] at h
    obtain ⟨seen, rfl⟩ := Recipient.call?_handler h
    rfl
  | oneShot s rest size =>
    rw [hs] at h
    cases call with
    | handler r seen => cases Recipient.eq_handler_of_call? h
    | oneShot s' cb e =>
      obtain rfl : s = s' := Recipient.oneShot.inj (Recipient.call?_eq_oneShot h).1
      exact Call.verdict_oneShot s cb e o

/-- When a call ends, it is the one that is noted. -/
theorem Frame.ended_receipts {f : Frame ε} {call : Call ε} (h : f.call? = some call)
    (o : Outcome) :
    (f.receipts o).filterMap Receipt.ended? = [⟨typeOf f.event, call, call.verdict o⟩] := by
  have hpassed : (if (f.verdict o).fatal?.isSome then [] else
      passed f.event f.unvisited).filterMap Receipt.ended? = [] := by
    split
    · rfl
    · exact ended_passed f.event f.unvisited
  have hended : (Receipt.mk f.event f.current (f.verdict o)).ended? =
      some ⟨typeOf f.event, call, call.verdict o⟩ := by
    have hcall : (Receipt.mk f.event f.current (f.verdict o)).call? = some call := h
    rw [Receipt.ended?, hcall, Frame.verdict_call h o]
    rfl
  rw [Frame.receipts, filterMap_cons_toList, hpassed, hended]
  rfl

namespace Callbook

variable {b : Bus ε} {l : Callbook ε}

/-- The callbook is right about the calls that posts wait for. -/
def Keeps (l : Callbook ε) (b : Bus ε) : Prop :=
  b.running.map (fun f => (typeOf f.event, f.call?)) = l.waited.map (Prod.map id some)

/-- **Where a step rests is noted.** -/
theorem keeps_wait {e : ε} {outer : List (Frame ε)} {agenda : List Recipient}
    {xs : List (Receipt ε)} {r : Logged (Bus ε) (Progress ε)} (h : Bus.Rests e outer agenda xs r)
    (houter : outer.map (fun f => (typeOf f.event, f.call?)) = l.waited.map (Prod.map id some)) :
    (l.wait (typeOf e) r.value).Keeps r.state := by
  cases h with
  | ended ending hv hr he =>
    rw [hv, Keeps, hr]
    exact houter
  | waits f call hv hr he hc hh ho =>
    have hcall : f.call? = some call := by rw [Frame.call?, he, hc]
    rw [hv, Keeps, hr, List.map_cons, houter, he, hcall]
    rfl

/-- **A command is noted**: which call ends by it, and which one is then waited for. -/
theorem Keeps.exec (h : l.Keeps b) (c : Command ε) :
    (l.note c (b.exec c).value).Keeps (b.exec c).state ∧
      (l.note c (b.exec c).value).ended =
        l.ended ++ (b.receipts c).filterMap Receipt.ended? := by
  have hwait : ∀ (l : Callbook ε) t p, (l.wait t p).ended = l.ended := fun l t p => by
    cases p <;> rfl
  have hcases := b.running_exec c
  cases c with
  | post e order =>
    refine ⟨keeps_wait (b.rests_post e order rfl) h, ?_⟩
    rw [Bus.receipts, ended_passed, List.append_nil]
    exact hwait ..
  | resume o =>
    obtain ⟨waited, ended⟩ := l
    rw [Keeps] at h
    cases hb : b.running with
    | nil =>
      rw [hb] at h
      obtain rfl : waited = [] := List.map_eq_nil_iff.1 h.symm
      rw [Bus.exec_resume, Logged.state_map, Bus.resume_of_idle hb, Bus.receipts, hb]
      exact ⟨congrArg _ hb, (List.append_nil _).symm⟩
    | cons f outer =>
      rw [hb] at h
      obtain ⟨⟨t, call⟩, waited, rfl, hfirst, houter⟩ := List.map_eq_cons_iff.1 h.symm
      obtain ⟨rfl, hcall⟩ := Prod.mk.inj hfirst
      refine ⟨keeps_wait (Bus.rests_resume hb o) houter.symm, ?_⟩
      rw [Bus.receipts, hb]
      dsimp only
      rw [Frame.ended_receipts hcall.symm]
      exact hwait ..
  | _ =>
    obtain hrunning | ⟨e, order, hc⟩ | ⟨o, hc⟩ := hcases
    · exact ⟨(congrArg (List.map _) hrunning).trans h, (List.append_nil _).symm⟩
    · cases hc
    · cases hc

/-- **The callbook is right at every moment of a run.** -/
theorem keeps_run (b : Bus ε) (commands : List (Command ε)) (h : l.Keeps b) :
    (l.noteAll commands (b.run commands).value).Keeps (b.run commands).state ∧
      (l.noteAll commands (b.run commands).value).ended =
        l.ended ++ (b.collect Bus.receipts commands).filterMap Receipt.ended? := by
  induction commands generalizing l b with
  | nil => exact ⟨h, (List.append_nil _).symm⟩
  | cons c commands ih =>
    obtain ⟨hkeeps, hended⟩ := h.exec c
    obtain ⟨hrest, hlater⟩ := ih (b.exec c).state hkeeps
    refine ⟨hrest, hlater.trans ?_⟩
    rw [hended, Bus.collect, List.filterMap_append, List.append_assoc]

end Callbook

/-! ## The records of what went wrong -/

/-- **Everything that went wrong has its record.** -/
theorem forall₂_records (xs : List (Receipt ε)) :
    List.Forall₂ Record.TellsReceipt (records xs) (xs.filter (·.outcome.isFaulted)) := by
  induction xs with
  | nil => exact .nil
  | cons x xs ih =>
    obtain ⟨e, recipient, outcome⟩ := x
    cases outcome with
    | returned done => exact ih
    | faulted fault => exact .cons ⟨fault, rfl, recipient.record_tellsOf _ fault⟩ ih

theorem filter_level_records (xs : List (Receipt ε)) :
    (records xs).filter (·.level = .error) = records xs := by
  refine List.filter_eq_self.2 fun r hr => ?_
  obtain ⟨x, -, fault, -, rfl⟩ := mem_records hr
  exact decide_eq_true (x.recipient.record_tellsOf _ fault).level

namespace Bus

variable {b : Bus ε}

omit [EventValue ε] in
theorem filter_level_openingLog (b : Bus ε) :
    b.openingLog.filter (·.level = .error) = [] := by
  refine List.filter_eq_nil_iff.2 fun r hr => ?_
  obtain rfl | rfl := eq_of_mem_openingLog hr
  · exact of_decide_eq_false rfl
  · exact of_decide_eq_false rfl

/-- A step of a post writes, at level ERROR, the records of its receipts. -/
theorem filter_level_step (b : Bus ε) (t : EventType) (xs : List (Receipt ε)) (returns : Bool) :
    (records xs ++ if returns then b.due t else []).filter (·.level = .error) = records xs := by
  have hdue : (if returns then b.due t else []).filter (·.level = .error) = [] := by
    refine List.filter_eq_nil_iff.2 fun r hr => ?_
    split at hr
    · obtain ⟨report, rfl, -⟩ := mem_due hr
      exact of_decide_eq_false rfl
    · exact absurd hr List.not_mem_nil
  rw [List.filter_append, filter_level_records, hdue, List.append_nil]

/-- **What a command writes at level ERROR** is the records of its receipts. -/
theorem filter_level_exec (h : b.Sound) (c : Command ε) :
    (b.exec c).log.filter (·.level = .error) = records (b.receipts c) := by
  cases c with
  | post e order =>
    have hbatch := Backlog.getD_batch?_refresh h.backlog (typeOf e)
    change (b.post e order).log.filter _ = _
    rw [b.log_post e order hbatch, List.filter_append, filter_level_openingLog, filter_level_step]
    rfl
  | resume o =>
    change (b.resume o).log.filter _ = _
    rw [receipts]
    cases hb : b.running with
    | nil =>
      rw [resume_of_idle hb]
      rfl
    | cons f outer => rw [log_resume hb, filter_level_step]
  | _ =>
    refine List.filter_eq_nil_iff.2 fun r hr => ?_
    have hwrites := writes_of_mem_log hr
    cases r <;> first | exact of_decide_eq_false rfl | cases hwrites

/-- **What a run writes at level ERROR** is the records of its receipts. -/
theorem Reachable.filter_level_run (h : b.Reachable) (commands : List (Command ε)) :
    (b.run commands).log.filter (·.level = .error) = records (b.collect receipts commands) := by
  induction commands generalizing b with
  | nil => rfl
  | cons c commands ih =>
    rw [Bus.run_cons, collect, List.filter_append, records_append, filter_level_exec h.sound,
      ih (h.exec c)]

theorem filter_level_run (config : Config) (commands : List (Command ε)) :
    ((new config : Bus ε).run commands).log.filter (·.level = .error) =
      records ((new config : Bus ε).collect receipts commands) :=
  (reachable_new config).filter_level_run commands

/-! ## Receipts without a call -/

/-- **Who gets a receipt without being called** is a one-shot that waits for its event in a
mailbox. -/
theorem deliver_of_mem_receipts (h : b.Sound) (hw : b.Waits) {c : Command ε} {x : Receipt ε}
    (hx : x ∈ b.receipts c) (hcall : x.call? = none) :
    ∃ s m, x.recipient = .oneShot s ∧ s.task = .deliver m ∧ x.outcome = s.atOnce x.event := by
  have hpassed : ∀ {e : ε} {l : List OneShot}, (∀ s ∈ l, s.event = typeOf e) → x ∈ passed e l →
      ∃ s m, x.recipient = .oneShot s ∧ s.task = .deliver m ∧ x.outcome = s.atOnce x.event := by
    intro e l hl hx
    obtain ⟨s, hs, rfl⟩ := List.mem_map.1 hx
    have hevent : typeOf e = s.event := (hl s (List.takeWhile_subset _ hs)).symm
    rw [Receipt.call?, Recipient.call?, if_pos hevent] at hcall
    cases htask : s.task with
    | deliver m => exact ⟨s, m, rfl, htask, rfl⟩
    | once | untilDone => simp [htask] at hcall
  rcases b.receipts_cases c with hnil | ⟨e, hall⟩ | ⟨f, hf, o, hall⟩
  · rw [hnil] at hx
    exact absurd hx List.not_mem_nil
  · exact hpassed (fun s => h.event_eq_of_waiting) (hall ▸ hx)
  · rcases Frame.mem_receipts (hall ▸ hx) with rfl | hx
    · obtain ⟨call, hf⟩ := hw f hf
      cases hf.symm.trans hcall
    · exact hpassed (h.event_eq_of_unvisited hf) hx

theorem deliver_of_mem_collect (config : Config) (commands : List (Command ε)) :
    ∀ x ∈ (new config : Bus ε).collect receipts commands, x.call? = none →
      ∃ s m, x.recipient = .oneShot s ∧ s.task = .deliver m ∧ x.outcome = s.atOnce x.event := by
  induction commands using List.reverseRecOn with
  | nil => exact fun x hx => absurd hx List.not_mem_nil
  | append_singleton commands c ih =>
    have hb : ((new config : Bus ε).run commands).state.Reachable := ⟨config, commands, rfl⟩
    rw [collect_concat]
    intro x hx
    exact (List.mem_append.1 hx).elim (ih x) (deliver_of_mem_receipts hb.sound hb.waits)

/-! ## Failures -/

/-- **No failure is silent, and none is reported twice.**  Take any run, with posts nested to any
depth.  Its receipts are of the calls that have ended, in the order in which they did, as somebody
sees who only knows the commands and the answers; and of the copies made for those who wait for an
event in a mailbox, who are called without anybody's noticing.  The records of level ERROR in the
log are one for each receipt of something that went wrong, in the same order: each tells of the type
that was posted, of the text that was returned or with which the call panicked, and for a handler of
its owner and its name.  Of what returned there is no such record. -/
theorem failures_reported_once (config : Config) (commands : List (Command ε)) :
    let run := (new config : Bus ε).run commands
    let history := (new config : Bus ε).collect receipts commands
    List.Forall₂ Record.TellsReceipt (run.log.filter (·.level = .error))
        (history.filter (·.outcome.isFaulted)) ∧
      history.filterMap Receipt.ended? = (Callbook.empty.noteAll commands run.value).ended ∧
      ∀ x ∈ history, x.call? = none →
        ∃ s m, x.recipient = .oneShot s ∧ s.task = .deliver m ∧ x.outcome = s.atOnce x.event := by
  intro run history
  have hnew : Callbook.empty.Keeps (new config : Bus ε) := by
    rw [Callbook.Keeps]
    rfl
  have hbook := (Callbook.keeps_run (new config) commands hnew).2
  refine ⟨?_, hbook.symm, deliver_of_mem_collect config commands⟩
  rw [filter_level_run]
  exact forall₂_records history

/-- A one-shot panics with a text, and then a handler with something that cannot be read. -/
theorem failures_reported_once_of_panics :
    let item := Showcase.Loot.Event.itemType
    let commands : List (Command Showcase.Loot.Event) :=
      [.register ⟨⟨7⟩, "tracker"⟩ [⟨item, "on_item_event", ⟨0⟩⟩], .onceOrMore item ⟨1⟩,
        .post (.item 1) .listed, .resume (.faulted (.panic (.text "lost"))),
        .resume (.faulted (.panic .unreadable))]
    ∃ first second,
      ((new {} : Bus Showcase.Loot.Event).run commands).log.filter (·.level = .error) =
        [first, second] ∧
      ("event", .text "ItemEvent") ∈ first.fields ∧ ("panic", .text "lost") ∈ first.fields ∧
      ("owner", .text "tracker#7") ∈ second.fields ∧
      ("handler", .text "on_item_event") ∈ second.fields ∧
      ("event", .text "ItemEvent") ∈ second.fields ∧
      ("panic", .text "unknown panic") ∈ second.fields := by
  intro item commands
  obtain ⟨htells, -, -⟩ := failures_reported_once {} commands
  obtain ⟨s, r, hhistory, howner, hname⟩ : ∃ s r,
      ((new {} : Bus Showcase.Loot.Event).collect receipts commands).filter
          (·.outcome.isFaulted) =
        [⟨.item 1, .oneShot s, .faulted (.panic (.text "lost"))⟩,
          ⟨.item 1, .handler r, .faulted (.panic .unreadable)⟩] ∧
      r.subscription.owner = ⟨⟨7⟩, "tracker"⟩ ∧ r.subscription.name = "on_item_event" := by
    refine ⟨⟨0, item, .untilDone ⟨1⟩⟩,
      ⟨⟨⟨⟨7⟩, "tracker"⟩, item, "on_item_event", ⟨0⟩, []⟩, none⟩, ?_⟩
    decide
  rw [hhistory] at htells
  obtain ⟨first, _, hfirst, hrest, hlog⟩ := List.forall₂_cons_right_iff.1 htells
  obtain ⟨second, _, hsecond, hnil, rfl⟩ := List.forall₂_cons_right_iff.1 hrest
  obtain rfl := List.forall₂_nil_right_iff.1 hnil
  obtain ⟨_, hfault, hfirst⟩ := hfirst
  obtain rfl := Outcome.faulted.inj hfault
  obtain ⟨_, hfault', hsecond⟩ := hsecond
  obtain rfl := Outcome.faulted.inj hfault'
  obtain ⟨ho, hn⟩ := hsecond.handler r rfl
  rw [howner] at ho
  rw [hname] at hn
  have hshort : item.shortName = "ItemEvent" := by decide
  refine ⟨first, second, hlog, hshort ▸ hfirst.event, hfirst.text, ho, hn, ?_, hsecond.text⟩
  exact hshort ▸ hsecond.event

/-- The one-shot of a spawn is fatal, and the handler that posted the spawn passes that on: the
inner failure is reported before the outer one. -/
example :
    let item := Showcase.Loot.Event.itemType
    let spawned := Showcase.Loot.Event.spawnedType
    let commands : List (Command Showcase.Loot.Event) :=
      [.register ⟨⟨0⟩, "tracker"⟩ [⟨item, "on_item_event", ⟨0⟩⟩], .onceOrMore spawned ⟨1⟩,
        .post (.item 1) .listed, .post (.spawned 1 0 0) .listed,
        .resume (.faulted (.error (.fatal "lost"))),
        .resume (.faulted (.error (.failed "no spawn")))]
    (((new {} : Bus Showcase.Loot.Event).run commands).log.filter (·.level = .error)).map
        Record.fields =
      [[("event", .text "ItemSpawned"), ("error", .text "lost")],
        [("owner", .text "tracker#0"), ("handler", .text "on_item_event"),
          ("event", .text "ItemEvent"), ("error", .text "handler failed: no spawn")]] := by decide

end Bus

end PubSub
