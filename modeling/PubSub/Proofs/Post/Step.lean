import PubSub.Proofs.Backlog.Waiting
import PubSub.Run

/-!
# Proofs/Post/Step — what a post does between two calls

    visit  ──passes──▸ … ──stops──▸ a one-shot's callback
      └── nobody left ──▸ deliver ──skips──▸ … ──stops──▸ a handler
                             └── nobody left ──▸ finish

A post goes on alone until it meets somebody who must be called.  `visit_cases` and
`deliver_cases` say where it stops and what it has changed by then; what holds of a running post is
read off these two, and nobody else opens the loops.
-/

namespace PubSub

variable {ε : Type} [EventValue ε]

/-! ## Recipients and receipts

A post works off recipients: the one-shots of its batch, then the handlers of its routes.  Every
recipient it is done with leaves a receipt. -/

/-- Somebody a post brings its event to. -/
inductive Recipient
  | oneShot (entry : OneShot)
  | handler (route : Route)
  deriving DecidableEq, Repr

/-- The name a fatal error of the recipient is put down to. -/
def Recipient.name : Recipient → String
  | oneShot _ => "one-shot"
  | handler r => r.subscription.name

/-- The call by which an event reaches the recipient; a mailbox is filled without one. -/
def Recipient.call? (e : ε) : Recipient → Option (Call ε)
  | oneShot s =>
    if typeOf e = s.event then
      match s.task with
      | .once c | .untilDone c => some (.oneShot s c e)
      | .deliver _ => none
    else none
  | handler r =>
    match r.target? e with
    | some (.ok seen) =>
      if typeOf seen = r.subscription.event then some (.handler r seen) else none
    | _ => none

/-- The panic that seeing an event for the recipient ends in, if it does. -/
def Recipient.panic? (e : ε) : Recipient → Option Panic
  | oneShot _ => none
  | handler r =>
    match r.target? e with
    | some (.error p) => some p
    | _ => none

/-- Whether a route brings an event to its handler, or would if seeing it did not panic. -/
def Route.carries (e : ε) (r : Route) : Bool :=
  ((Recipient.handler r).call? e).isSome || ((Recipient.handler r).panic? e).isSome

/-- Those whom routes bring an event to. -/
def handlersOf (e : ε) (l : List Route) : List Recipient :=
  (l.filter (Route.carries e)).map .handler

/-- Those whom a batch and routes bring an event to, in order. -/
def recipientsOf (e : ε) (batch : List OneShot) (routes : List Route) : List Recipient :=
  batch.map .oneShot ++ handlersOf e routes

/-- An event that was brought to somebody, and how that ended. -/
structure Receipt (ε : Type) where
  event : ε
  recipient : Recipient
  outcome : Outcome
  deriving DecidableEq, Repr

/-- The text of a fatal error. -/
def Outcome.fatal? : Outcome → Option String
  | faulted (.error (.fatal text)) => some text
  | _ => none

/-- The error that a post ends in when this was fatal. -/
def Receipt.fatal? (x : Receipt ε) : Option FatalError :=
  x.outcome.fatal?.map fun text => ⟨x.recipient.name, typeOf x.event, text⟩

/-- The record of something that went wrong for the recipient. -/
def Recipient.record (t : EventType) (fault : Fault) : Recipient → Record
  | oneShot _ => .oneShotFaulted t fault
  | handler r => .handlerFaulted r.subscription.owner r.subscription.name t fault

/-- What is logged of a receipt: nothing, unless something went wrong. -/
def Receipt.record? (x : Receipt ε) : Option Record :=
  match x.outcome with
  | .returned _ => none
  | .faulted fault => some (x.recipient.record (typeOf x.event) fault)

/-- Whether a record is a report of the tally. -/
def Record.isReport : Record → Bool
  | .statistics _ => true
  | _ => false

/-- What is logged of receipts, in their order. -/
def records (xs : List (Receipt ε)) : List Record := xs.filterMap Receipt.record?

/-- How an event reaches a one-shot that calls nobody: it is copied into the mailbox. -/
def OneShot.atOnce (e : ε) (s : OneShot) : Outcome :=
  if typeOf e = s.event then
    match EventValue.copy e with
    | .ok _ => .returned true
    | .error p => .faulted (.panic p)
  else .returned false

/-- Whether an event reaches the one-shot without a call. -/
def OneShot.isPassed (e : ε) (s : OneShot) : Bool := ((Recipient.oneShot s).call? e).isNone

/-- What happens to the one-shots in front of the first that is called. -/
def passed (e : ε) (l : List OneShot) : List (Receipt ε) :=
  (l.takeWhile (OneShot.isPassed e)).map fun s => ⟨e, .oneShot s, s.atOnce e⟩

/-- The one-shots from the first that is called on. -/
def unpassed (e : ε) (l : List OneShot) : List OneShot := l.dropWhile (OneShot.isPassed e)

/-- A list with what `f` finds at its first member in front. -/
theorem filterMap_cons_toList {α β : Type} (f : α → Option β) (a : α) (l : List α) :
    (a :: l).filterMap f = (f a).toList ++ l.filterMap f := by
  rw [List.filterMap_cons]
  cases f a <;> rfl

theorem records_append (xs ys : List (Receipt ε)) :
    records (xs ++ ys) = records xs ++ records ys := List.filterMap_append

/-- **No report is made of receipts.** -/
theorem filter_isReport_records (xs : List (Receipt ε)) :
    (records xs).filter Record.isReport = [] := by
  refine List.filter_eq_nil_iff.2 fun record hrecord => ?_
  obtain ⟨x, -, hx⟩ := List.mem_filterMap.1 hrecord
  unfold Receipt.record? at hx
  split at hx
  · cases hx
  · cases hx
    unfold Recipient.record
    split <;> exact Bool.false_ne_true

/-- **The one-shots that are passed come first.** -/
theorem recipientsOf_eq (e : ε) (l : List OneShot) (routes : List Route) :
    recipientsOf e l routes =
      (passed e l).map (·.recipient) ++ recipientsOf e (unpassed e l) routes := by
  rw [recipientsOf, recipientsOf, passed, unpassed, List.map_map, ← List.append_assoc]
  refine congrArg (· ++ _) (Eq.trans ?_ List.map_append)
  exact congrArg _ List.takeWhile_append_dropWhile.symm

theorem fatal?_atOnce (e : ε) (s : OneShot) : (s.atOnce e).fatal? = none := by
  unfold OneShot.atOnce
  split
  · cases EventValue.copy e <;> rfl
  · rfl

theorem call?_of_mem_passed {e : ε} {l : List OneShot} {x : Receipt ε} (h : x ∈ passed e l) :
    x.recipient.call? e = none := by
  obtain ⟨s, hs, rfl⟩ := List.mem_map.1 h
  exact Option.isNone_iff_eq_none.1 (List.all_eq_true.1 List.all_takeWhile s hs)

namespace Bus

/-! ## The end of a post -/

/-- The tally once a post of a type is over. -/
def counted (b : Bus ε) (t : EventType) : Option Tally :=
  b.tally.map fun tally => (tally.count t).1

/-- What is logged when a post of a type is over: the report, if one is due. -/
def due (b : Bus ε) (t : EventType) : List Record :=
  match b.tally with
  | none => []
  | some tally =>
    if (tally.count t).2 then [.statistics ((tally.count t).1.report b.census)] else []

omit [EventValue ε] in
/-- **A post that ends in good order is counted, and nothing else changes.** -/
theorem finish_eq (b : Bus ε) (t : EventType) (ending : Ending) :
    b.finish t ending = ⟨{ b with tally := b.counted t }, .finished ending, b.due t⟩ := by
  obtain ⟨config, directory, backlog, tally, mailboxes, tickets, running⟩ := b
  cases tally <;> rfl

/-! ## Routes -/

/-- **Delivering stops at a route whose handler can be called.** -/
theorem deliver_of_call (b : Bus ε) {e : ε} {r : Route} {call : Call ε} (rest : List Route)
    (h : (Recipient.handler r).call? e = some call) :
    b.deliver e (r :: rest) = b.stop ⟨e, .handler r, rest⟩ call := by
  rw [Recipient.call?] at h
  cases htarget : r.target? e with
  | none => simp [htarget] at h
  | some target =>
    cases target with
    | error p => simp [htarget] at h
    | ok seen =>
      simp only [htarget, Option.ite_none_right_eq_some, Option.some.injEq] at h
      obtain ⟨hseen, rfl⟩ := h
      simp only [deliver_cons, htarget, if_pos hseen]

/-- **Delivering ends in a panic at a route for which seeing the event panics.** -/
theorem deliver_of_panic (b : Bus ε) {e : ε} {r : Route} {p : Panic} (rest : List Route)
    (h : (Recipient.handler r).panic? e = some p) :
    b.deliver e (r :: rest) = ⟨b, .finished (.unwound p), []⟩ := by
  rw [Recipient.panic?] at h
  cases htarget : r.target? e with
  | none => simp [htarget] at h
  | some target =>
    cases target with
    | ok seen => simp [htarget] at h
    | error p' =>
      obtain rfl : p' = p := by simpa [htarget] using h
      simp only [deliver_cons, htarget]

/-- Any other route is skipped. -/
theorem deliver_of_carries_eq_false (b : Bus ε) {e : ε} {r : Route} (rest : List Route)
    (h : r.carries e = false) : b.deliver e (r :: rest) = b.deliver e rest := by
  obtain ⟨hcall, hpanic⟩ := Bool.or_eq_false_iff.1 h
  rw [Recipient.call?] at hcall
  rw [Recipient.panic?] at hpanic
  cases htarget : r.target? e with
  | none => rw [deliver_cons, htarget]
  | some target =>
    cases target with
    | error p => simp [htarget] at hpanic
    | ok seen =>
      have hseen : typeOf seen ≠ r.subscription.event := fun he => by simp [htarget, he] at hcall
      simp only [deliver_cons, htarget, if_neg hseen]

/-- **Delivering ends the post, ends in a panic, or stops at a handler**, the first of those whom
the routes bring the event to. -/
theorem deliver_cases (b : Bus ε) (e : ε) (l : List Route) :
    handlersOf e l = [] ∧ b.deliver e l = b.finish (typeOf e) .completed ∨
      (∃ r rest p, handlersOf e l = .handler r :: handlersOf e rest ∧
        (Recipient.handler r).panic? e = some p ∧
        b.deliver e l = ⟨b, .finished (.unwound p), []⟩) ∨
      ∃ r rest call, handlersOf e l = .handler r :: handlersOf e rest ∧
        (Recipient.handler r).call? e = some call ∧
        b.deliver e l = b.stop ⟨e, .handler r, rest⟩ call := by
  induction l with
  | nil => exact .inl ⟨rfl, rfl⟩
  | cons r rest ih =>
    cases hcarries : r.carries e with
    | false =>
      have hskip : handlersOf e (r :: rest) = handlersOf e rest := by
        rw [handlersOf, List.filter_cons_of_neg (by simp [hcarries])]
        rfl
      rw [hskip, b.deliver_of_carries_eq_false rest hcarries]
      exact ih
    | true =>
      have hfirst : handlersOf e (r :: rest) = .handler r :: handlersOf e rest := by
        rw [handlersOf, List.filter_cons_of_pos hcarries]
        rfl
      rcases Bool.or_eq_true_iff.1 hcarries with hcall | hpanic
      · obtain ⟨call, hcall⟩ := Option.isSome_iff_exists.1 hcall
        exact .inr (.inr ⟨r, rest, call, hfirst, hcall, b.deliver_of_call rest hcall⟩)
      · obtain ⟨p, hpanic⟩ := Option.isSome_iff_exists.1 hpanic
        exact .inr (.inl ⟨r, rest, p, hfirst, hpanic, b.deliver_of_panic rest hpanic⟩)

/-! ## One-shots -/

/-- **Working through a batch stops at a one-shot whose callback can be called.** -/
theorem visit_of_call (b : Bus ε) {e : ε} {s : OneShot} {call : Call ε} (ahead : List Route)
    (size : Nat) (rest : List OneShot) (h : (Recipient.oneShot s).call? e = some call) :
    b.visit e ahead size (s :: rest) = b.stop ⟨e, .oneShot s rest size, ahead⟩ call := by
  rw [Recipient.call?] at h
  by_cases htype : typeOf e = s.event
  · cases htask : s.task with
    | once c =>
      obtain rfl : .oneShot s c e = call := by simpa [htype, htask] using h
      simp [visit_cons, htype, htask]
    | untilDone c =>
      obtain rfl : .oneShot s c e = call := by simpa [htype, htask] using h
      simp [visit_cons, htype, htask]
    | deliver mailbox => simp [htask] at h
  · simp [htype] at h

/-- Any other one-shot is passed: its mailbox is filled, or it is put back if it waits for another
type. -/
theorem visit_of_isPassed (b : Bus ε) {e : ε} {s : OneShot} (ahead : List Route) (size : Nat)
    (rest : List OneShot) (h : s.isPassed e = true) :
    ∃ backlog boxes, (s.event = typeOf e → backlog = b.backlog) ∧
      b.visit e ahead size (s :: rest) =
        (visit { b with backlog := backlog, mailboxes := boxes } e ahead size rest).after
          (records [⟨e, .oneShot s, s.atOnce e⟩]) := by
  by_cases htype : typeOf e = s.event
  · cases htask : s.task with
    | once c => simp [OneShot.isPassed, Recipient.call?, htype, htask] at h
    | untilDone c => simp [OneShot.isPassed, Recipient.call?, htype, htask] at h
    | deliver mailbox =>
      cases hcopy : EventValue.copy e with
      | ok copy =>
        refine ⟨b.backlog, b.mailboxes.set mailbox (.full copy), fun _ => rfl, ?_⟩
        simp only [visit_cons, if_pos htype, htask, fill, hcopy, OneShot.atOnce]
        rfl
      | error p =>
        refine ⟨b.backlog, b.mailboxes.set mailbox .lost, fun _ => rfl, ?_⟩
        simp only [visit_cons, if_pos htype, htask, fill, hcopy, OneShot.atOnce]
        rfl
  · refine ⟨(b.requeue (typeOf e) [s]).backlog, b.mailboxes, fun hs => absurd hs.symm htype, ?_⟩
    simp only [visit_cons, if_neg htype, OneShot.atOnce]
    rfl

/-- **Working through a batch stops at the first one-shot that is called, or goes on to the
routes.**  By then only mailboxes have changed, unless a one-shot of another type had to be put
back, and what is logged is of those that were passed. -/
theorem visit_cases (b : Bus ε) (e : ε) (ahead : List Route) (size : Nat) (l : List OneShot) :
    ∃ backlog boxes, ((∀ s ∈ l, s.event = typeOf e) → backlog = b.backlog) ∧
      (unpassed e l = [] ∧
          b.visit e ahead size l =
            ((settle { b with backlog := backlog, mailboxes := boxes } (typeOf e) size
              []).deliver e ahead).after (records (passed e l)) ∨
        ∃ s rest call, unpassed e l = s :: rest ∧ (Recipient.oneShot s).call? e = some call ∧
          b.visit e ahead size l =
            (stop { b with backlog := backlog, mailboxes := boxes }
              ⟨e, .oneShot s rest size, ahead⟩ call).after (records (passed e l))) := by
  induction l generalizing b with
  | nil => exact ⟨b.backlog, b.mailboxes, fun _ => rfl, .inl ⟨rfl, rfl⟩⟩
  | cons s l ih =>
    cases hcall : (Recipient.oneShot s).call? e with
    | some call =>
      have hcalled : ¬ s.isPassed e = true := by simp [OneShot.isPassed, hcall]
      refine ⟨b.backlog, b.mailboxes, fun _ => rfl, .inr ⟨s, l, call, ?_, hcall, ?_⟩⟩
      · rw [unpassed, List.dropWhile_cons, if_neg hcalled]
      · rw [b.visit_of_call ahead size l hcall, passed, List.takeWhile_cons, if_neg hcalled]
        rfl
    | none =>
      have hpass : s.isPassed e = true := by rw [OneShot.isPassed, hcall]; rfl
      have hun : unpassed e (s :: l) = unpassed e l := by
        rw [unpassed, List.dropWhile_cons, if_pos hpass]
        rfl
      have hpassed : passed e (s :: l) = [⟨e, .oneShot s, s.atOnce e⟩] ++ passed e l := by
        rw [passed, List.takeWhile_cons, if_pos hpass]
        rfl
      obtain ⟨backlog, boxes, hkeep, hvisit⟩ := b.visit_of_isPassed ahead size l hpass
      obtain ⟨backlog', boxes', hkeep', hcases⟩ :=
        ih { b with backlog := backlog, mailboxes := boxes }
      have hafter : ∀ r : Logged (Bus ε) (Progress ε),
          (r.after (records (passed e l))).after (records [⟨e, .oneShot s, s.atOnce e⟩]) =
            r.after (records (passed e (s :: l))) := fun r => by
        rw [hpassed, records_append, Logged.after_after]
      refine ⟨backlog', boxes', fun hall => ?_, ?_⟩
      · exact (hkeep' fun x hx => hall x (List.mem_cons_of_mem _ hx)).trans
          (hkeep (hall s List.mem_cons_self))
      · rw [hun, hvisit]
        rcases hcases with ⟨hnil, hv⟩ | ⟨s', rest, call, hs, hc, hv⟩
        · exact .inl ⟨hnil, by rw [hv, hafter]⟩
        · exact .inr ⟨s', rest, call, hs, hc, by rw [hv, hafter]⟩

end Bus

/-! ## Where a post has stopped -/

namespace Frame

/-- Whose call the post waits for. -/
def current (f : Frame ε) : Recipient :=
  match f.stage with
  | .oneShot s _ _ => .oneShot s
  | .handler r => .handler r

/-- The one-shot that is executing, if it is one. -/
def executing (f : Frame ε) : List OneShot :=
  match f.stage with
  | .oneShot s _ _ => [s]
  | .handler _ => []

/-- The part of the batch that was not visited yet. -/
def unvisited (f : Frame ε) : List OneShot :=
  match f.stage with
  | .oneShot _ rest _ => rest
  | .handler _ => []

/-- Everybody the post has yet to be done with. -/
def left (f : Frame ε) : List Recipient :=
  f.current :: recipientsOf f.event f.unvisited f.ahead

/-- How the call that the post waits for counts. -/
def verdict (f : Frame ε) (o : Outcome) : Outcome :=
  match f.stage with
  | .oneShot s _ _ => s.verdict o
  | .handler _ => o

/-- The one-shot that was executing, if it is not done when the call ends. -/
def kept (f : Frame ε) (o : Outcome) : List OneShot :=
  if f.verdict o = .returned false then f.executing else []

/-- The receipts when the call ends: that of the call, and those of the one-shots passed before the
next one. -/
def receipts (f : Frame ε) (o : Outcome) : List (Receipt ε) :=
  ⟨f.event, f.current, f.verdict o⟩ ::
    if (f.verdict o).fatal?.isSome then [] else passed f.event f.unvisited

/-- A receipt is that of the call that has ended, or of somebody who was passed after it. -/
theorem mem_receipts {f : Frame ε} {o : Outcome} {x : Receipt ε} (h : x ∈ f.receipts o) :
    x = ⟨f.event, f.current, f.verdict o⟩ ∨ x ∈ passed f.event f.unvisited := by
  refine (List.mem_cons.1 h).imp_right fun hx => ?_
  split at hx
  · exact absurd hx List.not_mem_nil
  · exact hx

end Frame

namespace Bus

/-- The receipts of a command. -/
def receipts (b : Bus ε) : Command ε → List (Receipt ε)
  | .post e _ => passed e (b.backlog.waiting (typeOf e))
  | .resume o =>
    match b.running with
    | [] => []
    | f :: _ => f.receipts o
  | _ => []

/-- The bus once a post has read which routes and which queues there are. -/
def opened (b : Bus ε) : Bus ε :=
  { b with directory := b.directory.refresh.state, backlog := b.backlog.refresh.state }

/-- What a post logs when it reads which routes and which queues there are. -/
def openingLog (b : Bus ε) : List Record := b.directory.refresh.log ++ b.backlog.refresh.log

/-- **A post begins with the batch of its type, if there is one, and else with the routes.** -/
theorem post_cases (b : Bus ε) (e : ε) (order : Arrangement Route) :
    (b.opened.backlog.batch? b.backlog.refresh.value (typeOf e) = none ∧
        b.post e order =
          (b.opened.deliver e (order.apply (b.directory.routesTo (typeOf e)))).after
            b.openingLog) ∨
      ∃ batch, b.opened.backlog.batch? b.backlog.refresh.value (typeOf e) = some batch ∧
        b.post e order =
          (visit { b.opened with backlog := b.opened.backlog.modify (typeOf e) Queue.detach } e
            (order.apply (b.directory.routesTo (typeOf e))) batch.length batch).after
            b.openingLog := by
  unfold post postBy opened openingLog
  cases hfound : b.backlog.refresh.state.batch? b.backlog.refresh.value (typeOf e) with
  | none => exact .inl ⟨rfl, by simp only [hfound]; rfl⟩
  | some batch => exact .inr ⟨batch, rfl, by simp only [hfound]; rfl⟩

/-- **A post goes on after a call for a one-shot** by ending, by putting it back, or without it. -/
theorem resume_oneShot_cases {b : Bus ε} {f : Frame ε} {outer : List (Frame ε)} {s : OneShot}
    {rest : List OneShot} {size : Nat} (hb : b.running = f :: outer)
    (hs : f.stage = .oneShot s rest size) (o : Outcome) :
    let t := typeOf f.event
    let b₀ : Bus ε := { b with running := outer }
    let log := records [⟨f.event, .oneShot s, s.verdict o⟩]
    (∃ text, (s.verdict o).fatal? = some text ∧
        b.resume o =
          (((b₀.requeue t rest).settle t size []).finish t
            (.aborted ⟨"one-shot", t, text⟩)).after log) ∨
      (s.verdict o = .returned false ∧
        b.resume o = ((b₀.requeue t [s]).visit f.event f.ahead size rest).after log) ∨
      s.verdict o ≠ .returned false ∧ (s.verdict o).fatal? = none ∧
        b.resume o = (b₀.visit f.event f.ahead size rest).after log := by
  intro t b₀ log
  have hres : b.resume o = b₀.resumeOneShot f.event f.ahead s rest size o := by
    unfold resume resumeBy
    simp only [hb, hs]
    rfl
  rw [hres]
  unfold resumeOneShot resumeOneShotBy
  cases hv : s.verdict o with
  | returned done =>
    cases done with
    | true => exact .inr (.inr ⟨by simp, rfl, by simp only [log, hv]; rfl⟩)
    | false => exact .inr (.inl ⟨rfl, by simp only [log, hv]; rfl⟩)
  | faulted fault =>
    cases fault with
    | panic p => exact .inr (.inr ⟨by simp, rfl, by simp only [log, hv]; rfl⟩)
    | error err =>
      cases err with
      | fatal text => exact .inl ⟨text, rfl, by simp only [log, hv]; rfl⟩
      | failed text => exact .inr (.inr ⟨by simp, rfl, by simp only [log, hv]; rfl⟩)

/-- **A post goes on after a call for a route** by ending or with the next route. -/
theorem resume_handler_cases {b : Bus ε} {f : Frame ε} {outer : List (Frame ε)} {r : Route}
    (hb : b.running = f :: outer) (hs : f.stage = .handler r) (o : Outcome) :
    let t := typeOf f.event
    let b₀ : Bus ε := { b with running := outer }
    let log := records [⟨f.event, .handler r, o⟩]
    (∃ text, o.fatal? = some text ∧
        b.resume o = (b₀.finish t (.aborted ⟨r.subscription.name, t, text⟩)).after log) ∨
      o.fatal? = none ∧ b.resume o = (b₀.deliver f.event f.ahead).after log := by
  intro t b₀ log
  have hres : b.resume o = b₀.resumeHandler f.event f.ahead r o := by
    unfold resume resumeBy
    simp only [hb, hs]
    rfl
  rw [hres]
  unfold resumeHandler resumeHandlerBy
  cases o with
  | returned done => exact .inr ⟨rfl, rfl⟩
  | faulted fault =>
    cases fault with
    | panic p => exact .inr ⟨rfl, rfl⟩
    | error err =>
      cases err with
      | fatal text => exact .inl ⟨text, rfl, rfl⟩
      | failed text => exact .inr ⟨rfl, rfl⟩

theorem resume_of_idle {b : Bus ε} (hb : b.running = []) (o : Outcome) :
    b.resume o = ⟨b, .idle, []⟩ := by
  unfold resume resumeBy
  rw [hb]

/-! ## Going on after a call -/

/-- The part of a bus that running posts leave alone. -/
def standing (b : Bus ε) : Config × Directory × Nat := (b.config, b.directory, b.tickets)

/-- Goes on with the rest of the batch of a post, or with its routes. -/
def proceed (b : Bus ε) (f : Frame ε) : Logged (Bus ε) (Progress ε) :=
  match f.stage with
  | .oneShot _ rest size => b.visit f.event f.ahead size rest
  | .handler _ => b.deliver f.event f.ahead

/-- `b'` is `b` with `l` put back behind those that wait for `t`. -/
structure PutsBack (t : EventType) (l : List OneShot) (b b' : Bus ε) : Prop where
  running : b'.running = b.running
  standing : b'.standing = b.standing
  tally : b'.tally = b.tally
  sound : b.backlog.Sound → b'.backlog.Sound
  hasQueue : ∀ {t'}, b.backlog.HasQueue t' → b'.backlog.HasQueue t'
  waiting : b.backlog.Sound → (l ≠ [] → b.backlog.HasQueue t) →
    ∀ t', b'.backlog.waiting t' = b.backlog.waiting t' ++ if t = t' then l else []

omit [EventValue ε] in
theorem putsBack_nil (t : EventType) (b : Bus ε) : PutsBack t [] b b :=
  ⟨rfl, rfl, rfl, id, id, fun _ _ t' => by rw [ite_self, List.append_nil]⟩

omit [EventValue ε] in
theorem putsBack_requeue (t : EventType) (l : List OneShot) (b : Bus ε) :
    PutsBack t l b (b.requeue t l) where
  running := rfl
  standing := rfl
  tally := rfl
  sound h := h.modify t fun _ hq => Queue.spare_addAll hq l
  hasQueue h := (Backlog.hasQueue_modify ..).2 h
  waiting h hqueue t' := by
    by_cases hl : l = []
    · subst hl
      rw [ite_self, List.append_nil, requeue, Backlog.waiting_modify]
      split
      · exact congrArg (fun q => (Option.getD q Queue.empty).waiting) Option.map_id'
      · rfl
    · exact Backlog.waiting_modify_addAll h (hqueue hl) l t'

omit [EventValue ε] in
/-- Ending a batch moves nobody. -/
theorem PutsBack.settle {t : EventType} {l : List OneShot} {b b' : Bus ε} (h : PutsBack t l b b')
    (size : Nat) : PutsBack t l b (b'.settle t size []) where
  running := h.running
  standing := h.standing
  tally := h.tally
  sound hb := (h.sound hb).modify t fun _ hq => Queue.spare_settle hq _ _
  hasQueue hq := (Backlog.hasQueue_modify ..).2 (h.hasQueue hq)
  waiting hb hqueue t' := (Backlog.waiting_modify_settle ..).trans (h.waiting hb hqueue t')

/-- **A post goes on after a call**: after a fatal outcome it ends, and those not yet visited are
put back; after any other it proceeds, the one-shot that was called being put back if it is not
done.  Either way the outcome is logged first. -/
theorem resume_cases {b : Bus ε} {f : Frame ε} {outer : List (Frame ε)}
    (hb : b.running = f :: outer) (o : Outcome) :
    let t := typeOf f.event
    let log := records [⟨f.event, f.current, f.verdict o⟩]
    ∃ b₁,
      (∃ text, (f.verdict o).fatal? = some text ∧
          PutsBack t f.unvisited { b with running := outer } b₁ ∧
          b.resume o = (b₁.finish t (.aborted ⟨f.current.name, t, text⟩)).after log) ∨
        (f.verdict o).fatal? = none ∧ PutsBack t (f.kept o) { b with running := outer } b₁ ∧
          b.resume o = (b₁.proceed f).after log := by
  intro t log
  cases hs : f.stage with
  | oneShot s rest size =>
    simp only [log, Frame.verdict, Frame.unvisited, Frame.kept, Frame.executing, Frame.current,
      proceed, hs]
    rcases resume_oneShot_cases hb hs o with ⟨text, ht, h⟩ | ⟨hv, h⟩ | ⟨hv, ht, h⟩
    · exact ⟨_, .inl ⟨text, ht, (putsBack_requeue t rest _).settle size, h⟩⟩
    · refine ⟨requeue { b with running := outer } t [s], .inr ⟨by rw [hv]; rfl, ?_, h⟩⟩
      rw [if_pos hv]
      exact putsBack_requeue t [s] _
    · refine ⟨{ b with running := outer }, .inr ⟨ht, ?_, h⟩⟩
      rw [if_neg hv]
      exact putsBack_nil t _
  | handler r =>
    simp only [log, Frame.verdict, Frame.unvisited, Frame.kept, Frame.executing, Frame.current,
      proceed, hs, ite_self]
    rcases resume_handler_cases hb hs o with ⟨text, ht, h⟩ | ⟨ht, h⟩
    · exact ⟨_, .inl ⟨text, ht, putsBack_nil t _, h⟩⟩
    · exact ⟨_, .inr ⟨ht, putsBack_nil t _, h⟩⟩

end Bus

end PubSub
