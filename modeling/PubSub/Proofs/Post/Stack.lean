import PubSub.Proofs.Post.Step

/-!
# Proofs/Post/Stack — running posts lie on each other

    post e       new? ++ running
    resume o     new? ++ running.tail        new? at most one frame
    all else     running

A step of a post moves the innermost frame only: a post that it is nested in lies where it lay,
with the same one-shots and routes before it.  Nor does a running post touch the directory, which
only changes when somebody asks for it.
-/

namespace PubSub

variable {ε : Type} [EventValue ε]

/-! ## How a post ends -/

/-- Nothing fatal happened. -/
def Harmless (xs : List (Receipt ε)) : Prop := ∀ x ∈ xs, x.fatal? = none

theorem harmless_nil : Harmless ([] : List (Receipt ε)) := fun _ hx => absurd hx List.not_mem_nil

theorem harmless_singleton {x : Receipt ε} (h : x.fatal? = none) : Harmless [x] := fun y hy => by
  rwa [List.mem_singleton.1 hy]

theorem Harmless.append {xs ys : List (Receipt ε)} (hx : Harmless xs) (hy : Harmless ys) :
    Harmless (xs ++ ys) := fun z hz => (List.mem_append.1 hz).elim (hx z) (hy z)

theorem Harmless.left {xs ys : List (Receipt ε)} (h : Harmless (xs ++ ys)) : Harmless xs :=
  fun x hx => h x (List.mem_append_left ys hx)

theorem Harmless.right {xs ys : List (Receipt ε)} (h : Harmless (xs ++ ys)) : Harmless ys :=
  fun x hx => h x (List.mem_append_right xs hx)

/-- **Who is passed does no harm.** -/
theorem harmless_passed (e : ε) (l : List OneShot) : Harmless (passed e l) := by
  intro x hx
  obtain ⟨s, -, rfl⟩ := List.mem_map.1 hx
  rw [Receipt.fatal?, fatal?_atOnce]
  rfl

/-- How a post that was to bring `e` to `agenda` ends, when `xs` is what it did: with everybody,
with the first fatal error, or in a panic of the code that sees the event as its parent. -/
inductive Ends (e : ε) (agenda : List Recipient) (xs : List (Receipt ε)) : Ending → Prop
  | completed (order : agenda = xs.map (·.recipient)) (harmless : Harmless xs) :
    Ends e agenda xs .completed
  | aborted {earlier : List (Receipt ε)} {last : Receipt ε} {left : List Recipient}
      {error : FatalError} (done : xs = earlier ++ [last])
      (order : agenda = xs.map (·.recipient) ++ left) (harmless : Harmless earlier)
      (fatal : last.fatal? = some error) : Ends e agenda xs (.aborted error)
  | unwound {x : Recipient} {left : List Recipient} {p : Panic}
      (order : agenda = xs.map (·.recipient) ++ x :: left) (harmless : Harmless xs)
      (panics : x.panic? e = some p) : Ends e agenda xs (.unwound p)

theorem Ends.prepend {e : ε} {agenda : List Recipient} {xs ys : List (Receipt ε)}
    {ending : Ending} (h : Ends e agenda xs ending) (hys : Harmless ys) :
    Ends e (ys.map (·.recipient) ++ agenda) (ys ++ xs) ending := by
  cases h with
  | completed ho hh =>
    refine .completed ?_ (hys.append hh)
    rw [ho, List.map_append]
  | @aborted earlier last left error hd ho hh hf =>
    have horder : ys.map (·.recipient) ++ agenda = (ys ++ xs).map (·.recipient) ++ left := by
      rw [ho, List.map_append, List.append_assoc]
    refine .aborted ?_ horder (hys.append hh) hf
    rw [hd, List.append_assoc]
  | @unwound x left p ho hh hp =>
    have horder : ys.map (·.recipient) ++ agenda =
        (ys ++ xs).map (·.recipient) ++ x :: left := by
      rw [ho, List.map_append, List.append_assoc]
    exact .unwound horder (hys.append hh) hp

namespace Bus

/-! ## What a running post leaves alone -/

omit [EventValue ε] in
theorem standing_finish (b : Bus ε) (t : EventType) (ending : Ending) :
    (b.finish t ending).state.standing = b.standing := by
  rw [finish_eq]
  rfl

theorem standing_deliver (b : Bus ε) (e : ε) (l : List Route) :
    (b.deliver e l).state.standing = b.standing := by
  rcases b.deliver_cases e l with ⟨-, h⟩ | ⟨r, rest, p, -, -, h⟩ | ⟨r, rest, call, -, -, h⟩
  · rw [h, standing_finish]
  · rw [h]
  · rw [h]
    rfl

theorem standing_visit (b : Bus ε) (e : ε) (ahead : List Route) (size : Nat)
    (l : List OneShot) : (b.visit e ahead size l).state.standing = b.standing := by
  obtain ⟨backlog, boxes, -, h⟩ := b.visit_cases e ahead size l
  rcases h with ⟨-, h⟩ | ⟨s, rest, call, -, -, h⟩
  · rw [h, Logged.state_after, standing_deliver]
    rfl
  · rw [h]
    rfl

theorem standing_post (b : Bus ε) (e : ε) (order : Arrangement Route) :
    (b.post e order).state.standing = (b.config, b.directory.refresh.state, b.tickets) := by
  rcases b.post_cases e order with ⟨-, h⟩ | ⟨batch, -, h⟩
  · rw [h, Logged.state_after, standing_deliver]
    rfl
  · rw [h, Logged.state_after, standing_visit]
    rfl

theorem standing_proceed (b : Bus ε) (f : Frame ε) :
    (b.proceed f).state.standing = b.standing := by
  unfold proceed
  split
  · exact standing_visit ..
  · exact standing_deliver ..

theorem standing_resume (b : Bus ε) (o : Outcome) :
    (b.resume o).state.standing = b.standing := by
  cases hb : b.running with
  | nil => rw [resume_of_idle hb]
  | cons f outer =>
    obtain ⟨b₁, ⟨text, -, hback, h⟩ | ⟨-, hback, h⟩⟩ := resume_cases hb o
    · rw [h, Logged.state_after, standing_finish, hback.standing]
      rfl
    · rw [h, Logged.state_after, standing_proceed, hback.standing]
      rfl

omit [EventValue ε] in
theorem running_finish (b : Bus ε) (t : EventType) (ending : Ending) :
    (b.finish t ending).state.running = b.running := by
  rw [finish_eq]

omit [EventValue ε] in
theorem backlog_finish (b : Bus ε) (t : EventType) (ending : Ending) :
    (b.finish t ending).state.backlog = b.backlog := by
  rw [finish_eq]

/-! ## Where a step leaves a post -/

/-- Where a step leaves a post of `e` that is nested in `outer` and was to go to `agenda`, `xs`
being what it did: it is over, or it waits for a call. -/
inductive Rests (e : ε) (outer : List (Frame ε)) (agenda : List Recipient) (xs : List (Receipt ε))
    (r : Logged (Bus ε) (Progress ε)) : Prop
  | ended (ending : Ending) (value : r.value = .finished ending) (running : r.state.running = outer)
      (ends : Ends e agenda xs ending)
  | waits (f : Frame ε) (call : Call ε) (value : r.value = .calling call)
      (running : r.state.running = f :: outer) (event : f.event = e)
      (called : f.current.call? e = some call) (harmless : Harmless xs)
      (order : agenda = xs.map (·.recipient) ++ f.left)

section Rests

variable {e : ε} {outer : List (Frame ε)} {agenda : List Recipient} {xs : List (Receipt ε)}
  {r : Logged (Bus ε) (Progress ε)}

theorem Rests.after (h : Rests e outer agenda xs r) (log : List Record) :
    Rests e outer agenda xs (r.after log) := by
  cases h with
  | ended ending hv hr he => exact .ended ending hv hr he
  | waits f call hv hr he hc hh ho => exact .waits f call hv hr he hc hh ho

theorem Rests.suffix (h : Rests e outer agenda xs r) : outer <:+ r.state.running := by
  cases h with
  | ended ending hv hr he => exact hr ▸ List.suffix_refl _
  | waits f call hv hr he hc hh ho => exact hr ▸ List.suffix_cons f outer

/-- **What was done before a step comes before what the step does.** -/
theorem Rests.prepend (h : Rests e outer agenda xs r) {ys : List (Receipt ε)} (hys : Harmless ys) :
    Rests e outer (ys.map (·.recipient) ++ agenda) (ys ++ xs) r := by
  cases h with
  | ended ending hv hr he => exact .ended ending hv hr (he.prepend hys)
  | waits f call hv hr he hc hh ho =>
    refine .waits f call hv hr he hc (hys.append hh) ?_
    rw [ho, List.map_append, List.append_assoc]

end Rests

variable {b : Bus ε} {outer : List (Frame ε)}

theorem rests_finish (hb : b.running = outer) {e : ε} {t : EventType} {ending : Ending}
    {agenda : List Recipient} {xs : List (Receipt ε)} (h : Ends e agenda xs ending) :
    Rests e outer agenda xs (b.finish t ending) := by
  refine .ended ending ?_ ((running_finish b t ending).trans hb) h
  rw [finish_eq]

theorem rests_stop (hb : b.running = outer) (f : Frame ε) {call : Call ε}
    (hc : f.current.call? f.event = some call) :
    Rests f.event outer f.left [] (b.stop f call) :=
  .waits f call rfl (congrArg (f :: ·) hb) rfl hc harmless_nil rfl

theorem rests_deliver (hb : b.running = outer) (e : ε) (l : List Route) :
    Rests e outer (handlersOf e l) [] (b.deliver e l) := by
  rcases b.deliver_cases e l with ⟨hl, h⟩ | ⟨r, rest, p, hl, hp, h⟩ | ⟨r, rest, call, hl, hc, h⟩
  · rw [h]
    exact rests_finish hb (.completed hl harmless_nil)
  · rw [h]
    exact .ended _ rfl hb (.unwound hl harmless_nil hp)
  · rw [h, hl]
    exact rests_stop hb ⟨e, .handler r, rest⟩ hc

theorem rests_visit (hb : b.running = outer) (e : ε) (ahead : List Route) (size : Nat)
    (l : List OneShot) :
    Rests e outer (recipientsOf e l ahead) (passed e l) (b.visit e ahead size l) := by
  obtain ⟨backlog, boxes, -, h⟩ := b.visit_cases e ahead size l
  have hprepend : ∀ {agenda r}, Rests e outer agenda [] r →
      Rests e outer ((passed e l).map (·.recipient) ++ agenda) (passed e l) r := by
    intro agenda r hr
    have hp := hr.prepend (harmless_passed e l)
    rwa [List.append_nil] at hp
  rw [recipientsOf_eq]
  rcases h with ⟨hl, h⟩ | ⟨s, rest, call, hl, hc, h⟩
  · rw [h, hl]
    refine hprepend (Rests.after ?_ _)
    refine rests_deliver ?_ e ahead
    exact hb
  · rw [h, hl]
    refine hprepend (Rests.after ?_ _)
    refine rests_stop ?_ ⟨e, .oneShot s rest size, ahead⟩ hc
    exact hb

/-- **A post that begins rests on those that are running.** -/
theorem rests_post (b : Bus ε) (e : ε) (order : Arrangement Route) {batch : List OneShot}
    (hb : (b.opened.backlog.batch? b.backlog.refresh.value (typeOf e)).getD [] = batch) :
    Rests e b.running (recipientsOf e batch (order.apply (b.directory.routesTo (typeOf e))))
      (passed e batch) (b.post e order) := by
  rcases b.post_cases e order with ⟨hnone, h⟩ | ⟨batch', hsome, h⟩
  · obtain rfl : [] = batch := by rw [← hb, hnone, Option.getD_none]
    rw [h]
    refine Rests.after (rests_deliver ?_ e _) _
    rfl
  · obtain rfl : batch' = batch := by rw [← hb, hsome, Option.getD_some]
    rw [h]
    refine Rests.after (rests_visit ?_ e _ _ batch') _
    rfl

theorem rests_proceed (hb : b.running = outer) (f : Frame ε) :
    Rests f.event outer (recipientsOf f.event f.unvisited f.ahead) (passed f.event f.unvisited)
      (b.proceed f) := by
  cases hs : f.stage with
  | oneShot s rest size =>
    rw [proceed, Frame.unvisited, hs]
    exact rests_visit hb f.event f.ahead size rest
  | handler r =>
    rw [proceed, Frame.unvisited, hs]
    exact rests_deliver hb f.event f.ahead

/-- **A post that goes on rests where it rested before.** -/
theorem rests_resume {f : Frame ε} (hb : b.running = f :: outer) (o : Outcome) :
    Rests f.event outer f.left (f.receipts o) (b.resume o) := by
  have hfatal? : (Receipt.mk f.event f.current (f.verdict o)).fatal? =
      (f.verdict o).fatal?.map fun text => ⟨f.current.name, typeOf f.event, text⟩ := rfl
  obtain ⟨b₁, ⟨text, ht, hback, h⟩ | ⟨ht, hback, h⟩⟩ := resume_cases hb o
  · have hends : Ends f.event f.left (f.receipts o)
        (.aborted ⟨f.current.name, typeOf f.event, text⟩) := by
      rw [Frame.receipts, ht]
      exact .aborted rfl rfl harmless_nil (by rw [hfatal?, ht]; rfl)
    rw [h]
    exact (rests_finish hback.running hends).after _
  · have hharmless : Harmless [Receipt.mk f.event f.current (f.verdict o)] :=
      harmless_singleton (by rw [hfatal?, ht]; rfl)
    rw [h, Frame.receipts, ht]
    exact ((rests_proceed hback.running f).after _).prepend hharmless

end Bus

/-! ## Commands -/

/-- Whether a command ends a call. -/
def Command.isResume : Command ε → Bool
  | .resume _ => true
  | _ => false

namespace Bus

omit [EventValue ε] in
theorem state_register (b : Bus ε) (o : Owner) (interests : List Interest) :
    (b.register o interests).state =
      { b with directory := (b.directory.register o interests).state } := by
  unfold register
  dsimp only
  split
  · rfl
  · rfl

omit [EventValue ε] in
theorem state_poll (b : Bus ε) (mailbox : Nat) :
    ∃ boxes, (b.poll mailbox).1 = { b with mailboxes := boxes } := by
  unfold poll
  split
  · exact ⟨b.mailboxes, rfl⟩
  · exact ⟨_, rfl⟩

/-- **Only a post and the end of a call move the stack.** -/
theorem running_exec (b : Bus ε) (c : Command ε) :
    (b.exec c).state.running = b.running ∨ (∃ e order, c = .post e order) ∨ ∃ o, c = .resume o := by
  cases c with
  | register o interests =>
    exact .inl (congrArg (·.running) (b.state_register o interests))
  | poll mailbox =>
    obtain ⟨boxes, h⟩ := b.state_poll mailbox
    exact .inl (congrArg (·.running) h)
  | post e order => exact .inr (.inl ⟨e, order, rfl⟩)
  | resume o => exact .inr (.inr ⟨o, rfl⟩)
  | unregister | declare | once | onceOrMore | next | hasSubscribers => exact .inl rfl

/-- **A command that ends no call leaves every running post where it lies.** -/
theorem suffix_running_exec (b : Bus ε) {c : Command ε} (hc : c.isResume = false) :
    b.running <:+ (b.exec c).state.running := by
  rcases b.running_exec c with h | ⟨e, order, rfl⟩ | ⟨o, rfl⟩
  · exact h ▸ List.suffix_refl _
  · exact (b.rests_post e order rfl).suffix
  · cases hc

/-- **What the directory becomes by a command**: only those that are about it change it. -/
theorem directory_exec (b : Bus ε) (c : Command ε) :
    (b.exec c).state.directory =
      match c with
      | .register o interests => (b.directory.register o interests).state
      | .unregister o => (b.directory.unregister o.id).1
      | .declare parent children => (b.directory.declare parent children).state
      | .hasSubscribers _ | .post _ _ => b.directory.refresh.state
      | _ => b.directory := by
  cases c with
  | register o interests =>
    exact congrArg (·.directory) (b.state_register o interests)
  | poll mailbox =>
    obtain ⟨boxes, h⟩ := b.state_poll mailbox
    exact congrArg (·.directory) h
  | post e order => exact congrArg (·.2.1) (b.standing_post e order)
  | resume o => exact congrArg (·.2.1) (b.standing_resume o)
  | unregister | declare | once | onceOrMore | next | hasSubscribers => rfl

end Bus

end PubSub
