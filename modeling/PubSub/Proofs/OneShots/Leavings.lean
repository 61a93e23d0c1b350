import PubSub.Proofs.OneShots.Meeting
import PubSub.Proofs.OneShots.Visits

/-!
# Proofs/OneShots/Leavings — what a running post leaves pending

    notes      x queued   s₁ not done   y queued   s₂ done   s₃ fatal
    pending      x          s₁            y                    s₄ … sₙ

The pending list of a type is empty when a post of it has begun.  From then on whatever is noted of
the post adds to the end of that list, and a fatal one-shot has the rest of the batch put back behind
all the others.  Posts of other types may be nested in it as they like.
-/

namespace PubSub

variable {ε : Type} [EventValue ε]

/-! ## One-shots among recipients -/

/-- The one-shot, if the recipient is one. -/
def Recipient.oneShot? : Recipient → Option OneShot
  | oneShot s => some s
  | handler _ => none

omit [EventValue ε] in
theorem entries_eq (xs : List (Receipt ε)) :
    xs.filterMap Receipt.oneShot? = (xs.map (·.recipient)).filterMap Recipient.oneShot? := by
  rw [List.filterMap_map]
  rfl

theorem oneShots_handlersOf (e : ε) (routes : List Route) :
    (handlersOf e routes).filterMap Recipient.oneShot? = [] := by
  rw [handlersOf, List.filterMap_map]
  exact List.filterMap_eq_nil_iff.2 fun _ _ => rfl

theorem oneShots_recipientsOf (e : ε) (l : List OneShot) (routes : List Route) :
    (recipientsOf e l routes).filterMap Recipient.oneShot? = l := by
  rw [recipientsOf, List.filterMap_append, oneShots_handlersOf, List.append_nil,
    List.filterMap_map]
  exact List.filterMap_some

/-- **The one-shots that a post has yet to be done with** are what is left of its batch. -/
theorem Frame.oneShots_left (f : Frame ε) : f.left.filterMap Recipient.oneShot? = f.batch := by
  rw [left, filterMap_cons_toList, oneShots_recipientsOf]
  exact congrArg (· ++ f.unvisited) (f.toList_oneShot? (.returned true))

theorem Recipient.call?_oneShot {s : OneShot} {e : ε} {call : Call ε}
    (h : (Recipient.oneShot s).call? e = some call) : ∃ c, call = .oneShot s c e := by
  rw [Recipient.call?] at h
  obtain ⟨-, h⟩ := Option.ite_none_right_eq_some.1 h
  cases htask : s.task with
  | deliver mailbox => simp [htask] at h
  | once c => exact ⟨c, by simpa [htask] using h.symm⟩
  | untilDone c => exact ⟨c, by simpa [htask] using h.symm⟩

/-- The part of a batch that is put back because of a fatal receipt: what comes after it. -/
def putBack (batch : List OneShot) (xs : List (Receipt ε)) : List OneShot :=
  if xs.any (·.fatal?.isSome) then batch.drop (xs.filterMap Receipt.oneShot?).length else []

theorem Harmless.any_fatal? {xs : List (Receipt ε)} (h : Harmless xs) :
    xs.any (·.fatal?.isSome) = false := by
  refine List.any_eq_false.2 fun x hx => ?_
  rw [h x hx]
  exact Bool.false_ne_true

theorem putBack_of_harmless {xs : List (Receipt ε)} (h : Harmless xs) (batch : List OneShot) :
    putBack batch xs = [] := by
  rw [putBack, h.any_fatal?, if_neg Bool.false_ne_true]

theorem putBack_append {xs : List (Receipt ε)} (h : Harmless xs) (l : List OneShot)
    (ys : List (Receipt ε)) :
    putBack (xs.filterMap Receipt.oneShot? ++ l) (xs ++ ys) = putBack l ys := by
  rw [putBack, putBack, List.any_append, h.any_fatal?, Bool.false_or, List.filterMap_append,
    List.length_append, ← List.drop_drop, List.drop_left]

namespace Bus

variable {b : Bus ε} {inner outer : List (Frame ε)} {f : Frame ε} {t : EventType}

/-! ## What is pending -/

/-- Who is passed is done, or failed. -/
theorem notDone_passed {e : ε} {l : List OneShot} (hl : ∀ s ∈ l, s.event = typeOf e) :
    (passed e l).flatMap Receipt.notDone = [] := by
  refine List.flatMap_eq_nil_iff.2 fun x hx => ?_
  obtain ⟨s, hs, rfl⟩ := List.mem_map.1 hx
  exact if_neg (OneShot.atOnce_ne e (hl s (List.takeWhile_subset _ hs)).symm)

/-- **When a call ends, the one-shot that is not done is kept**, and nobody else is. -/
theorem notDone_receipts (hf : ∀ s ∈ f.unvisited, s.event = typeOf f.event) (o : Outcome) :
    (f.receipts o).flatMap Receipt.notDone = f.kept o := by
  have hrest : (if (f.verdict o).fatal?.isSome then [] else
      passed f.event f.unvisited).flatMap Receipt.notDone = [] := by
    split
    · rfl
    · exact notDone_passed hf
  rw [Frame.receipts, List.flatMap_cons, hrest, List.append_nil, Receipt.notDone,
    f.toList_oneShot?, Frame.kept]

omit [EventValue ε] in
theorem flatMap_leaves_done (xs : List (Receipt ε)) :
    (xs.map Note.done).flatMap Note.leaves = xs.flatMap Receipt.notDone :=
  List.flatMap_map ..

omit [EventValue ε] in
theorem flatMap_leaves_queued (l : List OneShot) :
    (l.map (Note.queued (ε := ε))).flatMap Note.leaves = l :=
  (List.flatMap_map ..).trans (List.flatMap_singleton' l)

/-- Who is pending again when a call ends: the one-shot that is not done, or whoever was not
visited. -/
theorem kept_append_putBack (f : Frame ε) (o : Outcome) :
    f.kept o ++ putBack f.batch (f.receipts o) =
      if (f.verdict o).fatal?.isSome then f.unvisited else f.kept o := by
  cases ho : (f.verdict o).fatal? with
  | none => rw [putBack_of_harmless (harmless_receipts ho), List.append_nil]; rfl
  | some text =>
    have hkept : f.kept o = [] := if_neg fun hv => by simp [hv, Outcome.fatal?] at ho
    have hfatal : (Receipt.mk f.event f.current (f.verdict o)).fatal?.isSome = true := by
      rw [Receipt.fatal?, ho]
      rfl
    have hentries : (f.receipts o).filterMap Receipt.oneShot? = f.executing := by
      rw [Frame.receipts, ho, filterMap_cons_toList, f.toList_oneShot?]
      exact List.append_nil _
    rw [hkept, List.nil_append, putBack, hentries, Frame.batch, List.drop_left, Frame.receipts,
      List.any_cons, hfatal]
    rfl

/-- **What is pending when a call has ended**: behind what was pending there is the one-shot that is
not done, or after a fatal one whoever was not visited. -/
theorem waiting_resume (h : b.Sound) (hb : b.running = f :: outer) (o : Outcome) :
    (b.resume o).state.backlog.waiting (typeOf f.event) = b.backlog.waiting (typeOf f.event) ++
      if (f.verdict o).fatal?.isSome then f.unvisited else f.kept o := by
  have hmem : f ∈ b.running := hb ▸ List.mem_cons_self
  obtain ⟨b₁, ⟨text, ht, hback, hr⟩ | ⟨ht, hback, hr⟩⟩ := resume_cases hb o
  · have hqueue := h.hasQueue_of_sublist hmem (List.sublist_append_right f.executing f.unvisited)
    rw [hr, Logged.state_after, backlog_finish, hback.waiting h.backlog hqueue, if_pos rfl, ht]
    rfl
  · have hqueue := h.hasQueue_of_sublist hmem (f.kept_sublist_batch o)
    rw [hr, Logged.state_after, (holds_proceed b₁ (h.event_eq_of_unvisited hmem)).waiting,
      hback.waiting h.backlog hqueue, if_pos rfl, ht]
    rfl

/-- A post of another type is no concern of those that wait. -/
theorem waiting_resume_of_ne (h : b.Sound) (hb : b.running = f :: outer)
    (ht : typeOf f.event ≠ t) (o : Outcome) :
    (b.resume o).state.backlog.waiting t = b.backlog.waiting t := by
  obtain ⟨b₁, front, later, back, rest, -, -, -, hw, -, -, hholds⟩ := holds_resume h hb o
  rw [hholds.waiting, hw, if_neg ht, List.append_nil]

/-- Where a step leaves the stack. -/
theorem running_of_rests {e : ε} {agenda : List Recipient} {xs : List (Receipt ε)}
    {r : Logged (Bus ε) (Progress ε)} (h : Rests e outer agenda xs r) :
    ∃ new, r.state.running = new ++ outer ∧ ∀ g ∈ new, g.event = e := by
  cases h with
  | ended ending hv hr hends => exact ⟨[], hr, fun g hg => absurd hg List.not_mem_nil⟩
  | waits f call hv hr he hc hh ho => exact ⟨[f], hr, fun g hg => List.mem_singleton.1 hg ▸ he⟩

/-- **What is pending while a post waits for its call.**  As long as nobody posts its type, what is
queued goes behind what is pending, and no post of that type is nested in it. -/
theorem waiting_of_other (h : b.Sound) (hb : b.running = inner ++ f :: outer)
    (hinner : ∀ g ∈ inner, typeOf g.event ≠ t) {c : Command ε}
    (hown : c.isResume = false ∨ inner ≠ []) (hc : ¬ c.Posts t) :
    (b.exec c).state.backlog.waiting t = b.backlog.waiting t ++ ofType t (b.queuedBy c) ∧
      ∃ inner', (b.exec c).state.running = inner' ++ f :: outer ∧
        ∀ g ∈ inner', typeOf g.event ≠ t := by
  rcases b.exec_cases c with ⟨e, order, rfl⟩ | ⟨o, rfl⟩ | ⟨hbacklog, hrunning, -⟩
  · have hne : typeOf e ≠ t := hc
    obtain ⟨b₁, -, -, -, hw, hholds⟩ := holds_post h e order
    obtain ⟨new, hnew, hevent⟩ := running_of_rests (b.rests_post e order rfl)
    refine ⟨?_, new ++ inner, ?_, fun g hg => ?_⟩
    · change (b.post e order).state.backlog.waiting t = _ ++ []
      rw [hholds.waiting, hw, if_neg hne, List.append_nil]
    · change (b.post e order).state.running = _
      rw [hnew, hb, List.append_assoc]
    · rcases List.mem_append.1 hg with hg | hg
      · exact hevent g hg ▸ hne
      · exact hinner g hg
  · obtain ⟨g, inner₀, rfl⟩ := List.exists_cons_of_ne_nil (hown.resolve_left Bool.noConfusion)
    have hne : typeOf g.event ≠ t := hinner g List.mem_cons_self
    obtain ⟨new, hnew, hevent⟩ := running_of_rests (rests_resume hb o)
    refine ⟨?_, new ++ inner₀, ?_, fun g' hg' => ?_⟩
    · change (b.resume o).state.backlog.waiting t = _ ++ []
      rw [waiting_resume_of_ne h hb hne, List.append_nil]
    · change (b.resume o).state.running = _
      rw [hnew, List.append_assoc]
      rfl
    · rcases List.mem_append.1 hg' with hg' | hg'
      · exact hevent g' hg' ▸ hne
      · exact hinner g' (List.mem_cons_of_mem g hg')
  · refine ⟨?_, inner, hrunning.trans hb, hinner⟩
    rw [hbacklog, Backlog.waiting_foldl_add h.backlog]
    rfl

/-- **What is pending after a step of a post and all that follows it**, `w` being pending after the
step but for those who are put back. -/
theorem waiting_run_of_rests {e : ε} {agenda : List Recipient} {xs : List (Receipt ε)}
    {r : Logged (Bus ε) (Progress ε)} (h : Rests e outer agenda xs r) {batch w : List OneShot}
    (hbatch : agenda.filterMap Recipient.oneShot? = batch)
    (hw : r.state.backlog.waiting t = w ++ putBack batch xs) {commands : List (Command ε)}
    (hlasts : r.state.Lasts outer.length commands)
    (later : ∀ f, r.state.running = f :: outer → f.event = e →
      (r.state.run commands).state.backlog.waiting t = r.state.backlog.waiting t ++
        (r.state.notesFrom outer.length t commands).flatMap Note.leaves ++
        putBack f.batch ((r.state.turnsFrom outer.length commands).flatMap (·.receipts))) :
    (r.state.run commands).state.backlog.waiting t =
      w ++ (r.state.notesFrom outer.length t commands).flatMap Note.leaves ++
        putBack batch (xs ++ (r.state.turnsFrom outer.length commands).flatMap (·.receipts)) := by
  cases h with
  | ended ending hv hr hends =>
    -- a post that is over sees no further command
    have hover : commands = [] := by
      cases commands with
      | nil => rfl
      | cons c rest => exact absurd hlasts.1 (by rw [hr]; exact Nat.lt_irrefl _)
    rw [hover, notesFrom, turnsFrom, List.flatMap_nil, List.flatMap_nil, List.append_nil,
      List.append_nil]
    exact hw
  | waits f call hv hr he hc hh horder =>
    have hleft : batch = xs.filterMap Receipt.oneShot? ++ f.batch := by
      rw [← hbatch, horder, List.filterMap_append, ← entries_eq, f.oneShots_left]
    rw [putBack_of_harmless hh, List.append_nil] at hw
    rw [later f hr he, hw, hleft, putBack_append hh]

/-- **What is pending while a post is running, and when it ends.**  Whatever is done meanwhile, as
long as nobody else posts the type: behind what was pending stands what the notes of the post have
left, and then whoever a fatal one-shot kept from being visited. -/
theorem waiting_run (commands : List (Command ε)) {b : Bus ε} (h : b.Sound)
    (inner : List (Frame ε)) {outer : List (Frame ε)} {f : Frame ε}
    (hb : b.running = inner ++ f :: outer) {t : EventType} (ht : typeOf f.event = t)
    (hinner : ∀ g ∈ inner, typeOf g.event ≠ t) (hlasts : b.Lasts outer.length commands)
    (hposts : ∀ c ∈ commands, ¬ c.Posts t) :
    (b.run commands).state.backlog.waiting t = b.backlog.waiting t ++
      (b.notesFrom outer.length t commands).flatMap Note.leaves ++
      putBack f.batch ((b.turnsFrom outer.length commands).flatMap (·.receipts)) := by
  induction commands generalizing b inner f with
  | nil => exact ((List.append_nil _).trans (List.append_nil _)).symm
  | cons c rest ih =>
    have hrest : ∀ c' ∈ rest, ¬ c'.Posts t := fun c' hc' =>
      hposts c' (List.mem_cons_of_mem c hc')
    by_cases hown : c.isResume = false ∨ inner ≠ []
    · obtain ⟨hw, inner', hb', hinner'⟩ :=
        waiting_of_other h hb hinner hown (hposts c List.mem_cons_self)
      have hlater := ih (h.exec c) inner' hb' ht hinner' hlasts.2 hrest
      rw [notesFrom_of_other hb hown, (turnsFrom_of_other hb hown rest).1, List.flatMap_append,
        flatMap_leaves_queued, ← List.append_assoc, ← hw]
      exact hlater
    · obtain ⟨o, rfl, rfl⟩ := own_turn hown
      subst ht
      have hevents := h.event_eq_of_unvisited (hb ▸ List.mem_cons_self : f ∈ b.running)
      have hw := waiting_resume h hb o
      rw [← kept_append_putBack, ← List.append_assoc] at hw
      rw [notesFrom_of_own hb, turnsFrom_of_own hb, List.flatMap_append, List.flatMap_cons,
        flatMap_leaves_done, notDone_receipts hevents, ← List.append_assoc]
      refine waiting_run_of_rests (rests_resume hb o) f.oneShots_left hw hlasts.2 fun f' hr he => ?_
      exact ih (h.exec (.resume o)) [] hr (congrArg typeOf he)
        (fun g hg => absurd hg List.not_mem_nil) hlasts.2 hrest

/-- **What is pending after a post began**, as long as it is running and nobody else posts its
type. -/
theorem waiting_run_post (h : b.Sound) {e : ε} {order : Arrangement Route}
    {during : List (Command ε)} (hspans : b.Spans e order during)
    (hposts : ∀ c ∈ during, ¬ c.Posts (typeOf e)) :
    (b.run (.post e order :: during)).state.backlog.waiting (typeOf e) =
      (b.notes e order during).flatMap Note.leaves ++
        putBack (b.backlog.waiting (typeOf e)) ((b.turns e order during).flatMap (·.receipts)) := by
  have hrests := b.rests_post e order (Backlog.getD_batch?_refresh h.backlog (typeOf e))
  have hempty : (b.post e order).state.backlog.waiting (typeOf e) =
      [] ++ putBack (b.backlog.waiting (typeOf e)) (passed e (b.backlog.waiting (typeOf e))) := by
    obtain ⟨b₁, -, -, -, hw, hholds⟩ := holds_post h e order
    rw [hholds.waiting, hw, if_pos rfl, putBack_of_harmless (harmless_passed e _)]
    rfl
  have hfirst : ((b.receipts (.post e order)).map Note.done).flatMap Note.leaves = [] := by
    rw [flatMap_leaves_done]
    exact notDone_passed fun s hs => h.event_eq_of_waiting hs
  rw [notes, turns, List.flatMap_append, hfirst, List.flatMap_cons]
  refine waiting_run_of_rests hrests (oneShots_recipientsOf ..) hempty hspans fun f hr he => ?_
  exact waiting_run during (h.exec (.post e order)) [] hr (congrArg typeOf he)
    (fun g hg => absurd hg List.not_mem_nil) hspans hposts

end Bus

end PubSub
