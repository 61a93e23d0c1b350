import PubSub.Proofs.OneShots.LineUp
import PubSub.Proofs.Post.Turns

/-!
# Proofs/OneShots/Meeting — the first post that meets a one-shot

    queued ──▸ pending ──any other command──▸ pending ──post of its type──▸ received
                  ▲                                          │
                  └──────── the post is cut short ◂──────────┘

A pending one-shot waits for the next post of its type and for nothing else.  That post has it in
its batch and keeps it there until it is received, unless another one-shot of the batch ends the
post with a fatal error: then it is pending again.
-/

namespace PubSub

variable {ε : Type} [EventValue ε]

/-- Whether a command posts an event of a type. -/
def Command.Posts (t : EventType) : Command ε → Prop
  | .post e _ => typeOf e = t
  | _ => False

namespace Bus

variable {b : Bus ε}

/-! ## Pending -/

/-- **A one-shot is pending as soon as it is queued.** -/
theorem mem_waiting_of_queuedBy (h : b.Sound) {c : Command ε} {s : OneShot}
    (hs : s ∈ b.queuedBy c) : s ∈ (b.exec c).state.backlog.waiting s.event := by
  rcases b.exec_cases c with ⟨e, order, rfl⟩ | ⟨o, rfl⟩ | ⟨hbacklog, -, -⟩
  · exact absurd hs List.not_mem_nil
  · exact absurd hs List.not_mem_nil
  · rw [hbacklog, Backlog.waiting_foldl_add h.backlog]
    exact List.mem_append_right _ (List.mem_filter.2 ⟨hs, decide_eq_true rfl⟩)

/-- **Only a post of its type takes a pending one-shot away.** -/
theorem mem_waiting_exec (h : b.Sound) {c : Command ε} {t : EventType} (hc : ¬ c.Posts t)
    {s : OneShot} (hs : s ∈ b.backlog.waiting t) : s ∈ (b.exec c).state.backlog.waiting t := by
  rcases b.exec_cases c with ⟨e, order, rfl⟩ | ⟨o, rfl⟩ | ⟨hbacklog, -, -⟩
  · obtain ⟨b₁, -, -, -, hw, hholds⟩ := holds_post h e order
    have hne : typeOf e ≠ t := hc
    change s ∈ (b.post e order).state.backlog.waiting t
    rwa [hholds.waiting, hw, if_neg hne]
  · cases hb : b.running with
    | nil =>
      rw [exec_resume, Logged.state_map, resume_of_idle hb]
      exact hs
    | cons f outer =>
      obtain ⟨b₁, front, later, back, rest, -, -, -, hw, -, -, hholds⟩ := holds_resume h hb o
      change s ∈ (b.resume o).state.backlog.waiting t
      rw [hholds.waiting, hw]
      exact List.mem_append_left _ hs
  · rw [hbacklog, Backlog.waiting_foldl_add h.backlog]
    exact List.mem_append_left _ hs

theorem mem_waiting_run (h : b.Sound) {commands : List (Command ε)} {t : EventType}
    (hc : ∀ c ∈ commands, ¬ c.Posts t) {s : OneShot} (hs : s ∈ b.backlog.waiting t) :
    s ∈ (b.run commands).state.backlog.waiting t := by
  induction commands generalizing b with
  | nil => exact hs
  | cons c rest ih =>
    refine ih (h.exec c) (fun c' hc' => hc c' (List.mem_cons_of_mem c hc')) ?_
    exact mem_waiting_exec h (hc c List.mem_cons_self) hs

/-! ## In the batch of a post -/

omit [EventValue ε] in
/-- A post that has not visited its whole batch is at a one-shot of it. -/
theorem exists_current_of_mem_unvisited {f : Frame ε} {s : OneShot} (hs : s ∈ f.unvisited) :
    ∃ s', f.current = .oneShot s' := by
  rw [Frame.unvisited] at hs
  rw [Frame.current]
  cases hstage : f.stage with
  | oneShot s' rest size => exact ⟨s', rfl⟩
  | handler r =>
    rw [hstage] at hs
    exact absurd hs List.not_mem_nil

/-- Who is in a batch that is worked through has its receipt, or is held when that stops. -/
theorem met_visit (b : Bus ε) (e : ε) (ahead : List Route) (size : Nat) {l : List OneShot}
    {s : OneShot} (hs : s ∈ l) :
    (∃ o, ⟨e, .oneShot s, o⟩ ∈ passed e l) ∨
      ∃ f, (b.visit e ahead size l).state.running = f :: b.running ∧ f.event = e ∧
        s ∈ f.batch := by
  obtain ⟨backlog, boxes, -, h⟩ := b.visit_cases e ahead size l
  have hsplit : l.takeWhile (OneShot.isPassed e) ++ unpassed e l = l :=
    List.takeWhile_append_dropWhile
  rw [← hsplit] at hs
  rcases List.mem_append.1 hs with hs | hs
  · exact .inl ⟨s.atOnce e, List.mem_map_of_mem hs⟩
  · right
    rcases h with ⟨hnil, -⟩ | ⟨s', rest, call, hcons, -, h⟩
    · rw [hnil] at hs
      exact absurd hs List.not_mem_nil
    · rw [hcons] at hs
      exact ⟨⟨e, .oneShot s' rest size, ahead⟩, by rw [h]; rfl, rfl, hs⟩

theorem met_proceed (b : Bus ε) {f : Frame ε} {s : OneShot} (hs : s ∈ f.unvisited) :
    (∃ o, ⟨f.event, .oneShot s, o⟩ ∈ passed f.event f.unvisited) ∨
      ∃ f', (b.proceed f).state.running = f' :: b.running ∧ f'.event = f.event ∧ s ∈ f'.batch := by
  cases hstage : f.stage with
  | oneShot s' rest size =>
    rw [Frame.unvisited, hstage] at hs
    rw [proceed, Frame.unvisited, hstage]
    exact b.met_visit f.event f.ahead size hs
  | handler r =>
    rw [Frame.unvisited, hstage] at hs
    exact absurd hs List.not_mem_nil

/-- **Who is in the batch of a post that goes on** has its receipt, or is still in the batch, or is
put back because the one-shot before it was fatal. -/
theorem met_resume (h : b.Ticketed) {f : Frame ε} {outer : List (Frame ε)}
    (hb : b.running = f :: outer) {s : OneShot} (hs : s ∈ f.batch) (o : Outcome) :
    (∃ o', ⟨f.event, .oneShot s, o'⟩ ∈ f.receipts o) ∨
      (∃ f', (b.resume o).state.running = f' :: outer ∧ f'.event = f.event ∧ s ∈ f'.batch) ∨
      ((b.resume o).state.running = outer ∧
        s ∈ (b.resume o).state.backlog.waiting (typeOf f.event) ∧
        ∃ x s', x ∈ f.receipts o ∧ x.recipient = .oneShot s' ∧ s' ≠ s ∧ x.fatal?.isSome) := by
  have hf : f ∈ b.running := hb ▸ List.mem_cons_self
  rcases List.mem_append.1 hs with hs | hs
  · refine .inl ⟨f.verdict o, ?_⟩
    rw [Frame.receipts, mem_executing_iff.1 hs]
    exact List.mem_cons_self
  · obtain ⟨b₁, ⟨text, ht, hback, hr⟩ | ⟨ht, hback, hr⟩⟩ := resume_cases hb o
    · obtain ⟨s', hs'⟩ := exists_current_of_mem_unvisited hs
      have hqueue := h.sound.hasQueue hf (List.ne_nil_of_mem (List.mem_append_right f.executing hs))
      have hother : s' ≠ s := by
        rintro rfl
        exact (List.nodup_append'.1 (h.nodup_batch hf)).2.2 (mem_executing_iff.2 hs') hs
      refine .inr (.inr ⟨?_, ?_, _, s', List.mem_cons_self, hs', hother, ?_⟩)
      · rw [hr, Logged.state_after, running_finish, hback.running]
      · rw [hr, Logged.state_after, backlog_finish, hback.waiting h.sound.backlog fun _ => hqueue,
          if_pos rfl]
        exact List.mem_append_right _ hs
      · rw [Receipt.fatal?, ht]
        rfl
    · rcases b₁.met_proceed hs with ⟨o', ho'⟩ | ⟨f', hf', he', hs'⟩
      · refine .inl ⟨o', List.mem_cons_of_mem _ ?_⟩
        rwa [ht]
      · refine .inr (.inl ⟨f', ?_, he', hs'⟩)
        rw [hr, Logged.state_after, hf', hback.running]

/-! ## The post that meets it -/

/-- How a post of `e` that began with `s` pending has met it, `during` being done since. -/
inductive Meets (b : Bus ε) (e : ε) (order : Arrangement Route) (during : List (Command ε))
    (s : OneShot) : Prop
  /-- It was called with the event, if it is one to be called, and has its receipt. -/
  | received (o : Outcome)
      (mem : ⟨e, .oneShot s, o⟩ ∈ (b.turns e order during).flatMap (·.receipts))
      (called : ∀ call, (Recipient.oneShot s).call? e = some call →
        call ∈ (b.turns e order during).filterMap (·.progress.call?))
  /-- The post is still running and has it in its batch. -/
  | held (inner : List (Frame ε)) (f : Frame ε)
      (running : (b.run (.post e order :: during)).state.running = inner ++ f :: b.running)
      (event : f.event = e) (mem : s ∈ f.batch)
  /-- The post was cut short by another one-shot, and it was pending when that ended. -/
  | putBack (first rest : List (Command ε)) (x : Receipt ε) (s' : OneShot)
      (split : during = first ++ rest)
      (running : (b.run (.post e order :: first)).state.running = b.running)
      (pending : s ∈ (b.run (.post e order :: first)).state.backlog.waiting (typeOf e))
      (mem : x ∈ (b.turns e order during).flatMap (·.receipts))
      (recipient : x.recipient = .oneShot s') (other : s' ≠ s) (fatal : x.fatal?.isSome)

/-- What becomes of a one-shot that a post holds while `commands` are done. -/
theorem met_turnsFrom (commands : List (Command ε)) {b : Bus ε} (h : b.Ticketed)
    (inner : List (Frame ε)) {outer : List (Frame ε)} {f : Frame ε}
    (hb : b.running = inner ++ f :: outer) {e : ε} (he : f.event = e) {s : OneShot}
    (hs : s ∈ f.batch) :
    (∃ o, ⟨e, .oneShot s, o⟩ ∈ (b.turnsFrom outer.length commands).flatMap (·.receipts)) ∨
      (∃ inner' f', (b.run commands).state.running = inner' ++ f' :: outer ∧ f'.event = e ∧
        s ∈ f'.batch) ∨
      ∃ first rest x s', commands = first ++ rest ∧ (b.run first).state.running = outer ∧
        s ∈ (b.run first).state.backlog.waiting (typeOf e) ∧
        x ∈ (b.turnsFrom outer.length commands).flatMap (·.receipts) ∧
        x.recipient = .oneShot s' ∧ s' ≠ s ∧ x.fatal?.isSome := by
  induction commands generalizing b inner f with
  | nil => exact .inr (.inl ⟨inner, f, hb, he, hs⟩)
  | cons c rest ih =>
    by_cases hown : c.isResume = false ∨ inner ≠ []
    · obtain ⟨hturns, inner', hb'⟩ := turnsFrom_of_other hb hown rest
      rw [hturns]
      refine (ih (h.exec c) inner' hb' he hs).imp_right (Or.imp_right ?_)
      rintro ⟨first, later, x, s', rfl, hmet⟩
      exact ⟨c :: first, later, x, s', rfl, hmet⟩
    · obtain ⟨o, rfl, rfl⟩ := own_turn hown
      rw [turnsFrom_of_own hb, List.flatMap_cons]
      rcases met_resume h hb hs o with ⟨o', ho'⟩ | ⟨f', hf', he', hs'⟩ |
        ⟨hover, hwaiting, x, s', hx, hblame⟩
      · exact .inl ⟨o', List.mem_append_left _ (he ▸ ho')⟩
      · refine (ih (h.exec (.resume o)) [] hf' (he'.trans he) hs').imp ?_
          (Or.imp_right ?_)
        · rintro ⟨o', ho'⟩
          exact ⟨o', List.mem_append_right _ ho'⟩
        · rintro ⟨first, later, x, s', rfl, hover, hwaiting, hx, hmet⟩
          exact ⟨.resume o :: first, later, x, s', rfl, hover, hwaiting,
            List.mem_append_right _ hx, hmet⟩
      · exact .inr (.inr ⟨[.resume o], rest, x, s', rfl, hover, he ▸ hwaiting,
          List.mem_append_left _ hx, hblame⟩)

/-- **The next post of its type meets a pending one-shot.** -/
theorem meets_post (h : b.Ticketed) {e : ε} {s : OneShot} (hs : s ∈ b.backlog.waiting (typeOf e))
    (order : Arrangement Route) (during : List (Command ε)) : b.Meets e order during s := by
  have hcalled : ∀ {o}, ⟨e, .oneShot s, o⟩ ∈ (b.turns e order during).flatMap (·.receipts) →
      ∀ call, (Recipient.oneShot s).call? e = some call →
        call ∈ (b.turns e order during).filterMap (·.progress.call?) := by
    intro o ho call hcall
    rw [(b.account_turns h.sound.backlog e order during).calls_eq]
    exact List.mem_append_left _ (List.mem_filterMap.2 ⟨_, ho, hcall⟩)
  have hpost : (∃ o, ⟨e, .oneShot s, o⟩ ∈ b.receipts (.post e order)) ∨
      ∃ f, (b.post e order).state.running = f :: b.running ∧ f.event = e ∧ s ∈ f.batch := by
    have hbatch := Backlog.getD_batch?_refresh h.sound.backlog (typeOf e)
    rcases b.post_cases e order with ⟨hnone, -⟩ | ⟨batch, hsome, hp⟩
    · obtain hempty : b.backlog.waiting (typeOf e) = [] :=
        hbatch.symm.trans (congrArg (Option.getD · []) hnone)
      rw [hempty] at hs
      exact absurd hs List.not_mem_nil
    · obtain rfl : b.backlog.waiting (typeOf e) = batch :=
        hbatch.symm.trans (congrArg (Option.getD · []) hsome)
      rw [hp]
      exact met_visit _ e _ _ hs
  have hreceipts : (b.turns e order during).flatMap (·.receipts) =
      b.receipts (.post e order) ++
        ((b.exec (.post e order)).state.turnsFrom b.running.length during).flatMap
          (·.receipts) := List.flatMap_cons
  rcases hpost with ⟨o, ho⟩ | ⟨f, hf, he, hs'⟩
  · have hmem := hreceipts ▸ List.mem_append_left _ ho
    exact .received o hmem (hcalled hmem)
  · rcases met_turnsFrom during (h.exec (.post e order)) [] hf he hs' with
      ⟨o, ho⟩ | ⟨inner', f', hf', he', hs''⟩ |
      ⟨first, rest, x, s', hsplit, hover, hwaiting, hx, hrecipient, hother, hfatal⟩
    · have hmem := hreceipts ▸ List.mem_append_right _ ho
      exact .received o hmem (hcalled hmem)
    · exact .held inner' f' hf' he' hs''
    · exact .putBack first rest x s' hsplit hover hwaiting
        (hreceipts ▸ List.mem_append_right _ hx) hrecipient hother hfatal

end Bus

end PubSub
