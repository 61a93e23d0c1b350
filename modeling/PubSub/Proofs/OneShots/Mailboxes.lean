import Mathlib.Data.List.Induction
import PubSub.Proofs.OneShots.History
import PubSub.Proofs.Post.Waits

/-!
# Proofs/OneShots/Mailboxes — who fills a mailbox

    next         one more, in which nothing has come yet
    poll m       m, looked into
    all else     receipts ──▸ the mailboxes that they are for

A mailbox is filled when a post passes a one-shot that was queued for it, by a copy of the event; if
copying panics, it is lost.  Each such passing leaves a receipt, and nothing else touches mailboxes,
so what a command does to them is read off its receipts.
-/

namespace PubSub

variable {ε : Type} [EventValue ε]

/-! ## Filling -/

/-- What is in a mailbox after an event was copied into it. -/
def Mailbox.filledBy (e : ε) : Mailbox ε :=
  match EventValue.copy e with
  | .ok copy => .full copy
  | .error _ => .lost

omit [EventValue ε] in
/-- A receipt is for a mailbox. -/
def Receipt.IsFor (x : Receipt ε) (m : Nat) : Prop :=
  ∃ s, x.recipient = .oneShot s ∧ s.task = .deliver m

/-- What a receipt does to the mailboxes: one that is for a mailbox has filled it. -/
def Receipt.fill (boxes : List (Mailbox ε)) (x : Receipt ε) : List (Mailbox ε) :=
  match x.recipient with
  | .handler _ => boxes
  | .oneShot s =>
    match s.task with
    | .deliver m => boxes.set m (.filledBy x.event)
    | _ => boxes

theorem Receipt.fill_cases (x : Receipt ε) (boxes : List (Mailbox ε)) :
    (∃ m, x.IsFor m ∧ x.fill boxes = boxes.set m (.filledBy x.event)) ∨
      (∀ m, ¬ x.IsFor m) ∧ x.fill boxes = boxes := by
  obtain ⟨e, recipient, outcome⟩ := x
  cases recipient with
  | handler r => exact .inr ⟨fun m ⟨s, hs, _⟩ => (nomatch hs), rfl⟩
  | oneShot s =>
    cases htask : s.task with
    | deliver m => exact .inl ⟨m, ⟨s, rfl, htask⟩, by simp only [Receipt.fill, htask]⟩
    | once | untilDone =>
      refine .inr ⟨?_, by simp only [Receipt.fill, htask]⟩
      rintro m ⟨s', hs, hm⟩
      obtain rfl : s = s' := Recipient.oneShot.inj hs
      rw [htask] at hm
      cases hm

/-- **Who is called waits for no mailbox to be filled.** -/
theorem Receipt.not_isFor_of_call {x : Receipt ε} {call : Call ε} (h : x.call? = some call)
    (m : Nat) : ¬ x.IsFor m := by
  rintro ⟨s, hs, htask⟩
  rw [Receipt.call?, hs, Recipient.call?, htask] at h
  exact Option.some_ne_none call (h.symm.trans (ite_self none))

theorem length_foldl_fill (xs : List (Receipt ε)) (boxes : List (Mailbox ε)) :
    (xs.foldl Receipt.fill boxes).length = boxes.length := by
  induction xs generalizing boxes with
  | nil => rfl
  | cons x xs ih =>
    rw [List.foldl_cons, ih]
    rcases x.fill_cases boxes with ⟨m, -, h⟩ | ⟨-, h⟩
    · rw [h, List.length_set]
    · rw [h]

/-- **A mailbox is as it was, or a receipt that is for it has filled it.** -/
theorem getElem?_foldl_fill (xs : List (Receipt ε)) {boxes : List (Mailbox ε)} {m : Nat}
    (hm : m < boxes.length) :
    (∀ x ∈ xs, ¬ x.IsFor m) ∧ (xs.foldl Receipt.fill boxes)[m]? = boxes[m]? ∨
      ∃ x ∈ xs, x.IsFor m ∧ (xs.foldl Receipt.fill boxes)[m]? = some (.filledBy x.event) := by
  induction xs using List.reverseRecOn with
  | nil => exact .inl ⟨fun x hx => absurd hx List.not_mem_nil, rfl⟩
  | append_singleton xs x ih =>
    have hother : (¬ x.IsFor m) → (x.fill (xs.foldl Receipt.fill boxes))[m]? =
        (xs.foldl Receipt.fill boxes)[m]? := by
      intro hx
      rcases x.fill_cases (xs.foldl Receipt.fill boxes) with ⟨m', hm', h⟩ | ⟨-, h⟩
      · have hne : m' ≠ m := fun he => hx (he ▸ hm')
        rw [h, List.getElem?_set_ne hne]
      · rw [h]
    rw [List.foldl_concat]
    by_cases hx : x.IsFor m
    · refine .inr ⟨x, List.mem_append_right _ List.mem_cons_self, hx, ?_⟩
      rcases x.fill_cases (xs.foldl Receipt.fill boxes) with ⟨m', hm', h⟩ | ⟨hnone, -⟩
      · obtain ⟨s, hs, htask⟩ := hx
        obtain ⟨s', hs', htask'⟩ := hm'
        obtain rfl : s = s' := Recipient.oneShot.inj (hs.symm.trans hs')
        obtain rfl : m = m' := Task.deliver.inj (htask.symm.trans htask')
        rw [h, List.getElem?_set_self ((length_foldl_fill xs boxes).symm ▸ hm)]
      · exact absurd hx (hnone m)
    · rw [hother hx]
      refine ih.imp (fun ⟨hnone, h⟩ => ⟨fun y hy => ?_, h⟩) fun ⟨y, hy, h⟩ =>
        ⟨y, List.mem_append_left _ hy, h⟩
      exact (List.mem_append.1 hy).elim (hnone y) fun hy => List.mem_singleton.1 hy ▸ hx

namespace Bus

variable {b : Bus ε}

/-! ## What commands do to mailboxes -/

omit [EventValue ε] in
theorem mailboxes_finish (b : Bus ε) (t : EventType) (ending : Ending) :
    (b.finish t ending).state.mailboxes = b.mailboxes := by
  rw [finish_eq]

theorem mailboxes_deliver (b : Bus ε) (e : ε) (l : List Route) :
    (b.deliver e l).state.mailboxes = b.mailboxes := by
  rcases b.deliver_cases e l with ⟨-, h⟩ | ⟨r, rest, p, -, -, h⟩ | ⟨r, rest, call, -, -, h⟩
  · rw [h, mailboxes_finish]
  · rw [h]
  · rw [h]
    rfl

/-- **Working through a batch fills the mailboxes of those that are passed.** -/
theorem mailboxes_visit (b : Bus ε) {e : ε} (ahead : List Route) (size : Nat) {l : List OneShot}
    (hl : ∀ s ∈ l, s.event = typeOf e) :
    (b.visit e ahead size l).state.mailboxes = (passed e l).foldl Receipt.fill b.mailboxes := by
  induction l generalizing b with
  | nil =>
    rw [visit_nil, mailboxes_deliver]
    rfl
  | cons s l ih =>
    have hrest : ∀ s ∈ l, s.event = typeOf e := fun s' hs' => hl s' (List.mem_cons_of_mem s hs')
    cases hcall : (Recipient.oneShot s).call? e with
    | some call =>
      have hcalled : ¬ s.isPassed e = true := by simp [OneShot.isPassed, hcall]
      rw [b.visit_of_call ahead size l hcall, passed, List.takeWhile_cons, if_neg hcalled]
      rfl
    | none =>
      have hpass : s.isPassed e = true := by
        rw [OneShot.isPassed, hcall]
        rfl
      have hevent : typeOf e = s.event := (hl s List.mem_cons_self).symm
      rw [passed, List.takeWhile_cons, if_pos hpass, List.map_cons, List.foldl_cons]
      change _ = (passed e l).foldl Receipt.fill _
      rw [Recipient.call?, if_pos hevent] at hcall
      cases htask : s.task with
      | once | untilDone => simp [htask] at hcall
      | deliver m =>
        rw [visit_cons, if_pos hevent]
        cases hcopy : EventValue.copy e with
        | ok copy =>
          simp only [htask, fill, hcopy, Receipt.fill, Mailbox.filledBy]
          exact ih _ hrest
        | error p =>
          simp only [htask, fill, hcopy, Receipt.fill, Mailbox.filledBy]
          exact ih _ hrest

theorem mailboxes_post (h : b.Sound) (e : ε) (order : Arrangement Route) :
    (b.post e order).state.mailboxes =
      (passed e (b.backlog.waiting (typeOf e))).foldl Receipt.fill b.mailboxes := by
  have hbatch := Backlog.getD_batch?_refresh h.backlog (typeOf e)
  rcases b.post_cases e order with ⟨hnone, hp⟩ | ⟨batch, hsome, hp⟩
  · have hempty : b.backlog.waiting (typeOf e) = [] :=
      hbatch.symm.trans (congrArg (Option.getD · []) hnone)
    rw [hp, hempty, Logged.state_after, mailboxes_deliver]
    rfl
  · obtain rfl : b.backlog.waiting (typeOf e) = batch :=
      hbatch.symm.trans (congrArg (Option.getD · []) hsome)
    rw [hp, Logged.state_after, mailboxes_visit _ _ _ fun s hs => h.event_eq_of_waiting hs]
    rfl

theorem mailboxes_resume (h : b.Sound) (hw : b.Waits) {f : Frame ε} {outer : List (Frame ε)}
    (hb : b.running = f :: outer) (o : Outcome) :
    (b.resume o).state.mailboxes = (f.receipts o).foldl Receipt.fill b.mailboxes := by
  have hmem : f ∈ b.running := hb ▸ List.mem_cons_self
  have hcalled : (Receipt.mk f.event f.current (f.verdict o)).fill b.mailboxes = b.mailboxes := by
    obtain ⟨call, hcall⟩ := hw f hmem
    rcases Receipt.fill_cases ⟨f.event, f.current, f.verdict o⟩ b.mailboxes with
      ⟨m, hm, -⟩ | ⟨-, h⟩
    · exact absurd hm (Receipt.not_isFor_of_call (x := ⟨f.event, f.current, _⟩) hcall m)
    · exact h
  rw [Frame.receipts, List.foldl_cons, hcalled]
  cases hs : f.stage with
  | handler r =>
    have hnobody :
        (if (f.verdict o).fatal?.isSome then [] else passed f.event f.unvisited) = [] := by
      rw [Frame.unvisited, hs]
      exact ite_self []
    rw [hnobody]
    rcases resume_handler_cases hb hs o with ⟨text, -, hr⟩ | ⟨-, hr⟩
    · rw [hr, Logged.state_after, mailboxes_finish]
      rfl
    · rw [hr, Logged.state_after, mailboxes_deliver]
      rfl
  | oneShot s rest size =>
    have hverdict : f.verdict o = s.verdict o := by rw [Frame.verdict, hs]
    have hunvisited : f.unvisited = rest := by rw [Frame.unvisited, hs]
    have hrest : ∀ s ∈ rest, s.event = typeOf f.event := fun s' hs' =>
      h.event_eq_of_batch hmem (List.mem_append_right _ (hunvisited.symm ▸ hs'))
    rw [hverdict, hunvisited]
    rcases resume_oneShot_cases hb hs o with ⟨text, ht, hr⟩ | ⟨hv, hr⟩ | ⟨-, ht, hr⟩
    · rw [hr, Logged.state_after, mailboxes_finish, ht]
      rfl
    · rw [hr, Logged.state_after, mailboxes_visit _ _ _ hrest, hv]
      rfl
    · rw [hr, Logged.state_after, mailboxes_visit _ _ _ hrest, ht]
      rfl

/-- **What a command does to the mailboxes**: one may be opened, or looked into; else some are
filled, as the receipts say. -/
theorem mailboxes_exec (h : b.Sound) (hw : b.Waits) (c : Command ε) :
    (b.exec c).state.mailboxes =
      match c with
      | .next _ => b.mailboxes ++ [.waiting]
      | .poll m => (b.poll m).1.mailboxes
      | c => (b.receipts c).foldl Receipt.fill b.mailboxes := by
  cases c with
  | post e order => exact mailboxes_post h e order
  | resume o =>
    dsimp only
    rw [receipts]
    cases hb : b.running with
    | nil =>
      rw [exec_resume, Logged.state_map, resume_of_idle hb]
      rfl
    | cons f outer => exact mailboxes_resume h hw hb o
  | register o interests => exact congrArg (·.mailboxes) (b.state_register o interests)
  | _ => rfl

/-- What is found in a mailbox by a command that looks into it. -/
def polled (m : Nat) (b : Bus ε) : Command ε → List (Poll ε)
  | .poll m' => if m' = m then [(b.poll m).2] else []
  | _ => []

omit [EventValue ε] in
theorem poll_of_getElem? {m : Nat} {box : Mailbox ε} (h : b.mailboxes[m]? = some box) :
    b.poll m = ({ b with mailboxes := b.mailboxes.set m box.poll.1 }, box.poll.2) := by
  rw [poll, h]

/-- **A command that does not look into a mailbox** leaves it as it was, or has receipts that are
for it, one of which has filled it. -/
theorem getElem?_mailboxes_exec (h : b.Sound) (hw : b.Waits) {m : Nat}
    (hm : m < b.mailboxes.length) {c : Command ε} (hc : b.polled m c = []) :
    (∀ x ∈ b.receipts c, ¬ x.IsFor m) ∧
        (b.exec c).state.mailboxes[m]? = b.mailboxes[m]? ∨
      ∃ x ∈ b.receipts c, x.IsFor m ∧
        (b.exec c).state.mailboxes[m]? = some (.filledBy x.event) := by
  have hnobody : ∀ x ∈ ([] : List (Receipt ε)), ¬ x.IsFor m := fun x hx =>
    absurd hx List.not_mem_nil
  have hexec := mailboxes_exec h hw c
  cases c with
  | next t =>
    refine .inl ⟨hnobody, ?_⟩
    rw [hexec]
    exact List.getElem?_append_left hm
  | poll m' =>
    have hne : m' ≠ m := fun he => by simp [polled, he] at hc
    refine .inl ⟨hnobody, ?_⟩
    rw [hexec]
    change (b.poll m').1.mailboxes[m]? = _
    unfold poll
    split
    · rfl
    · exact List.getElem?_set_ne hne
  | _ =>
    rw [hexec]
    exact getElem?_foldl_fill _ hm

/-- No mailbox ever goes. -/
theorem length_mailboxes_exec (h : b.Sound) (hw : b.Waits) (c : Command ε) :
    b.mailboxes.length ≤ (b.exec c).state.mailboxes.length := by
  rw [mailboxes_exec h hw]
  cases c with
  | next t =>
    rw [List.length_append]
    exact Nat.le_add_right ..
  | poll m =>
    change _ ≤ (b.poll m).1.mailboxes.length
    unfold poll
    split
    · exact Nat.le_refl _
    · exact Nat.le_of_eq (List.length_set ..).symm
  | _ => exact Nat.le_of_eq (length_foldl_fill ..).symm

end Bus

end PubSub
