import PubSub.Proofs.OneShots.Calls

/-!
# Proofs/OneShots/Visits — what is noted of a running post

    notes    … | s₁ done | x queued  y queued | s₂ done | z queued …
    visits         s₁          meanwhile x y       s₂          since: z

While a post is running, one-shots are queued for its type and it is done with one recipient after
the other.  The notes of the post have both in the order in which they happened, and its visits are
read off them: each one-shot it is done with, together with what was queued since the one before.
-/

namespace PubSub

variable {ε : Type} [EventValue ε]

/-! ## Visits -/

/-- A one-shot of a batch that was visited: what was queued for its type meanwhile, and how it
ended. -/
structure Visit where
  entry : OneShot
  meanwhile : List OneShot
  outcome : Outcome
  deriving DecidableEq, Repr

namespace Visit

/-- What a visit leaves pending. -/
def leaves (v : Visit) : List OneShot :=
  v.meanwhile ++ if v.outcome = .returned false then [v.entry] else []

/-- The receipt of a visit with an event. -/
def receipt (e : ε) (v : Visit) : Receipt ε := ⟨e, .oneShot v.entry, v.outcome⟩

end Visit

/-- Something that is noted of a running post: what is queued for its type, and whom it is done
with. -/
inductive Note (ε : Type)
  | queued (entry : OneShot)
  | done (receipt : Receipt ε)
  deriving DecidableEq, Repr

/-- The one-shot that a receipt leaves not done. -/
def Receipt.notDone (x : Receipt ε) : List OneShot :=
  if x.outcome = .returned false then x.oneShot?.toList else []

namespace Note

/-- The receipt that is noted, if it is one. -/
def receipt? : Note ε → Option (Receipt ε)
  | queued _ => none
  | done x => some x

/-- What a note leaves pending. -/
def leaves : Note ε → List OneShot
  | queued s => [s]
  | done x => x.notDone

end Note

/-- The visits that notes tell of, and what was queued after the last one, `since` having been
queued before all of them. -/
def attend : List OneShot → List (Note ε) → List Visit × List OneShot
  | since, [] => ([], since)
  | since, .queued s :: ms => attend (since ++ [s]) ms
  | since, .done x :: ms =>
    match x.oneShot? with
    | some s => (⟨s, since, x.outcome⟩ :: (attend [] ms).1, (attend [] ms).2)
    | none => attend since ms

omit [EventValue ε] in
/-- **Visits leave what their notes leave**, in the same order. -/
theorem leaves_attend (since : List OneShot) (ms : List (Note ε)) :
    (attend since ms).1.flatMap Visit.leaves ++ (attend since ms).2 =
      since ++ ms.flatMap Note.leaves := by
  induction ms generalizing since with
  | nil => exact (List.append_nil since).symm
  | cons m ms ih =>
    cases m with
    | queued s =>
      rw [attend, ih, List.flatMap_cons, List.append_assoc]
      rfl
    | done x =>
      rw [attend, List.flatMap_cons, Note.leaves, Receipt.notDone]
      cases hx : x.oneShot? with
      | none =>
        dsimp only
        rw [ih, Option.toList_none, ite_self, List.nil_append]
      | some s =>
        dsimp only
        rw [List.flatMap_cons, List.append_assoc, ih, Visit.leaves, List.nil_append,
          Option.toList_some, List.append_assoc]

omit [EventValue ε] in
/-- What was queued since the last visit of some notes waits for the next visit of those after
them. -/
theorem attend_append (since : List OneShot) (ms ms' : List (Note ε)) :
    (attend since (ms ++ ms')).2 = (attend (attend since ms).2 ms').2 := by
  induction ms generalizing since with
  | nil => rfl
  | cons m ms ih =>
    cases m with
    | queued s => exact ih _
    | done x =>
      rw [List.cons_append, attend, attend]
      cases x.oneShot? with
      | none => exact ih since
      | some s => exact ih []

omit [EventValue ε] in
theorem eq_of_oneShot? {x : Receipt ε} {s : OneShot} (h : x.oneShot? = some s) :
    x.recipient = .oneShot s := by
  rw [Receipt.oneShot?] at h
  cases hx : x.recipient with
  | oneShot s' =>
    rw [hx] at h
    exact congrArg _ (Option.some.inj h)
  | handler r =>
    rw [hx] at h
    cases h

omit [EventValue ε] in
/-- **The receipts of visits are the receipts of one-shots**, in their order. -/
theorem receipts_attend {e : ε} (since : List OneShot) (ms : List (Note ε))
    (he : ∀ x ∈ ms.filterMap Note.receipt?, x.event = e) :
    (attend since ms).1.map (Visit.receipt e) =
      (ms.filterMap Note.receipt?).filter (·.oneShot?.isSome) := by
  induction ms generalizing since with
  | nil => rfl
  | cons m ms ih =>
    cases m with
    | queued s => exact ih _ he
    | done x =>
      have hx : x.event = e := he x List.mem_cons_self
      have hms := fun since => ih since fun y hy => he y (List.mem_cons_of_mem x hy)
      change _ = (x :: ms.filterMap Note.receipt?).filter _
      rw [attend, List.filter_cons]
      cases hs : x.oneShot? with
      | none => exact hms since
      | some s =>
        have hreceipt : Visit.receipt e ⟨s, since, x.outcome⟩ = x := by
          rw [Visit.receipt, ← hx, ← eq_of_oneShot? hs]
        dsimp only
        rw [List.map_cons, hreceipt, hms]
        rfl

omit [EventValue ε] in
/-- What was queued meanwhile, or since, was noted. -/
theorem queued_of_attend {since : List OneShot} {ms : List (Note ε)} {s : OneShot}
    (hs : (∃ v ∈ (attend since ms).1, s ∈ v.meanwhile) ∨ s ∈ (attend since ms).2) :
    s ∈ since ∨ .queued s ∈ ms := by
  induction ms generalizing since with
  | nil => exact .inl (hs.resolve_left fun ⟨_, hv, _⟩ => absurd hv List.not_mem_nil)
  | cons m ms ih =>
    cases m with
    | queued s' =>
      rcases ih hs with h | h
      · rcases List.mem_append.1 h with h | h
        · exact .inl h
        · exact .inr (List.mem_singleton.1 h ▸ List.mem_cons_self)
      · exact .inr (List.mem_cons_of_mem _ h)
    | done x =>
      rw [attend] at hs
      cases hx : x.oneShot? with
      | none =>
        rw [hx] at hs
        exact (ih hs).imp_right (List.mem_cons_of_mem _)
      | some s' =>
        rw [hx] at hs
        rcases hs with ⟨v, hv, hs⟩ | hs
        · rcases List.mem_cons.1 hv with rfl | hv
          · exact .inl hs
          · refine .inr (List.mem_cons_of_mem _ ?_)
            exact (ih (.inl ⟨v, hv, hs⟩)).resolve_left List.not_mem_nil
        · refine .inr (List.mem_cons_of_mem _ ?_)
          exact (ih (.inr hs)).resolve_left List.not_mem_nil

namespace Bus

/-! ## Notes of a post -/

/-- The notes of the post of `t` that lies on `depth` others, up to its end. -/
def notesFrom (depth : Nat) (t : EventType) (b : Bus ε) : List (Command ε) → List (Note ε)
  | [] => []
  | c :: rest =>
    if b.running.length ≤ depth then []
    else (if c.isResume ∧ b.running.length = depth + 1 then (b.receipts c).map .done
      else (ofType t (b.queuedBy c)).map .queued) ++ (b.exec c).state.notesFrom depth t rest

/-- All notes of a post when `commands` follow its beginning. -/
def notes (b : Bus ε) (e : ε) (order : Arrangement Route) (commands : List (Command ε)) :
    List (Note ε) :=
  (b.receipts (.post e order)).map .done ++
    (b.exec (.post e order)).state.notesFrom b.running.length (typeOf e) commands

/-- The visits of a post when `commands` follow its beginning. -/
def visits (b : Bus ε) (e : ε) (order : Arrangement Route) (commands : List (Command ε)) :
    List Visit := (attend [] (b.notes e order commands)).1

/-- What was queued for the type of a post since its last visit. -/
def newcomers (b : Bus ε) (e : ε) (order : Arrangement Route) (commands : List (Command ε)) :
    List OneShot := (attend [] (b.notes e order commands)).2

/-- Whether more than `depth` posts are running whenever a command is given. -/
def Lasts (depth : Nat) (b : Bus ε) : List (Command ε) → Prop
  | [] => True
  | c :: rest => depth < b.running.length ∧ (b.exec c).state.Lasts depth rest

/-- Whether a post is running whenever one of the `commands` after its beginning is given. -/
def Spans (b : Bus ε) (e : ε) (order : Arrangement Route) (commands : List (Command ε)) : Prop :=
  (b.exec (.post e order)).state.Lasts b.running.length commands

variable {b : Bus ε} {inner outer : List (Frame ε)} {f : Frame ε} {t : EventType}

theorem notesFrom_of_le {depth : Nat} (h : b.running.length ≤ depth)
    (commands : List (Command ε)) : b.notesFrom depth t commands = [] := by
  cases commands with
  | nil => rfl
  | cons c rest => rw [notesFrom, if_pos h]

theorem notesFrom_of_other (hb : b.running = inner ++ f :: outer) {c : Command ε}
    (hc : c.isResume = false ∨ inner ≠ []) (rest : List (Command ε)) :
    b.notesFrom outer.length t (c :: rest) = (ofType t (b.queuedBy c)).map .queued ++
      (b.exec c).state.notesFrom outer.length t rest := by
  have hlength : b.running.length = inner.length + 1 + outer.length := by
    rw [hb, List.length_append, List.length_cons]
    omega
  rw [notesFrom, if_neg (by omega), if_neg]
  rintro ⟨hresume, hdepth⟩
  rcases hc with hc | hc
  · simp [hc] at hresume
  · exact hc (List.length_eq_zero_iff.1 (by omega))

theorem notesFrom_of_own (hb : b.running = f :: outer) (o : Outcome)
    (rest : List (Command ε)) :
    b.notesFrom outer.length t (.resume o :: rest) = (f.receipts o).map .done ++
      (b.exec (.resume o)).state.notesFrom outer.length t rest := by
  have hlength : b.running.length = outer.length + 1 := by rw [hb]; rfl
  rw [notesFrom, if_neg (by omega), if_pos ⟨rfl, hlength⟩, receipts, hb]

omit [EventValue ε] in
theorem filterMap_receipt?_done (xs : List (Receipt ε)) :
    (xs.map Note.done).filterMap Note.receipt? = xs := by
  rw [List.filterMap_map]
  exact List.filterMap_some

omit [EventValue ε] in
theorem filterMap_receipt?_queued (l : List OneShot) :
    (l.map (Note.queued (ε := ε))).filterMap Note.receipt? = [] := by
  rw [List.filterMap_map]
  exact List.filterMap_eq_nil_iff.2 fun _ _ => rfl

/-- **The receipts among the notes of a post are those of its turns.** -/
theorem receipts_notesFrom (depth : Nat) (t : EventType) (b : Bus ε)
    (commands : List (Command ε)) :
    (b.notesFrom depth t commands).filterMap Note.receipt? =
      (b.turnsFrom depth commands).flatMap (·.receipts) := by
  induction commands generalizing b with
  | nil => rfl
  | cons c rest ih =>
    rw [notesFrom, turnsFrom]
    by_cases hover : b.running.length ≤ depth
    · rw [if_pos hover, if_pos hover]
      rfl
    · rw [if_neg hover, if_neg hover]
      by_cases hown : c.isResume ∧ b.running.length = depth + 1
      · rw [if_pos hown, if_pos hown, List.filterMap_append, filterMap_receipt?_done, ih]
        rfl
      · rw [if_neg hown, if_neg hown, List.filterMap_append, filterMap_receipt?_queued, ih]
        rfl

/-- **What is queued while a post is running** is new. -/
theorem tickets_le_of_queued {depth : Nat} {commands : List (Command ε)} {s : OneShot}
    (hs : .queued s ∈ b.notesFrom depth t commands) : b.tickets ≤ s.ticket := by
  induction commands generalizing b with
  | nil => exact absurd hs List.not_mem_nil
  | cons c rest ih =>
    rw [notesFrom] at hs
    split at hs
    · exact absurd hs List.not_mem_nil
    · rcases List.mem_append.1 hs with hs | hs
      · split at hs
        · obtain ⟨x, -, hx⟩ := List.mem_map.1 hs
          cases hx
        · obtain ⟨s', hs', hx⟩ := List.mem_map.1 hs
          cases hx
          exact Nat.le_of_eq (ticket_of_mem_queuedBy (List.mem_filter.1 hs').1).symm
      · have hnext := ih hs
        rw [tickets_exec] at hnext
        omega

/-! ## A batch that is cut short -/

theorem harmless_receipts {o : Outcome} (ho : (f.verdict o).fatal? = none) :
    Harmless (f.receipts o) := by
  have hfirst : (Receipt.mk f.event f.current (f.verdict o)).fatal? = none := by
    rw [Receipt.fatal?, ho]
    rfl
  rw [Frame.receipts, ho]
  exact (harmless_singleton hfirst).append (harmless_passed f.event f.unvisited)

theorem attend_receipts_of_fatal {f : Frame ε} {o : Outcome} {x : Receipt ε}
    (hx : x ∈ f.receipts o) (hfatal : x.fatal?.isSome = true) (hentry : x.oneShot?.isSome = true)
    (since : List OneShot) : (attend since ((f.receipts o).map .done)).2 = [] := by
  cases hv : (f.verdict o).fatal? with
  | none =>
    rw [harmless_receipts hv x hx] at hfatal
    cases hfatal
  | some text =>
    rw [Frame.receipts, hv] at hx ⊢
    obtain rfl := List.mem_singleton.1 hx
    obtain ⟨s, hs⟩ := Option.isSome_iff_exists.1 hentry
    simp [attend, hs]

/-- **A batch that is cut short ends with its last visit**: nothing is queued since. -/
theorem attend_notesFrom_of_fatal (commands : List (Command ε)) {b : Bus ε}
    (inner : List (Frame ε)) {outer : List (Frame ε)} {f : Frame ε}
    (hb : b.running = inner ++ f :: outer) (t : EventType) {x : Receipt ε}
    (hx : x ∈ (b.turnsFrom outer.length commands).flatMap (·.receipts))
    (hfatal : x.fatal?.isSome = true) (hentry : x.oneShot?.isSome = true) (since : List OneShot) :
    (attend since (b.notesFrom outer.length t commands)).2 = [] := by
  induction commands generalizing b inner f since with
  | nil => exact absurd hx List.not_mem_nil
  | cons c rest ih =>
    by_cases hown : c.isResume = false ∨ inner ≠ []
    · obtain ⟨hturns, inner', hb'⟩ := turnsFrom_of_other hb hown rest
      rw [hturns] at hx
      rw [notesFrom_of_other hb hown, attend_append]
      exact ih inner' hb' hx _
    · obtain ⟨o, rfl, rfl⟩ := own_turn hown
      rw [turnsFrom_of_own hb, List.flatMap_cons] at hx
      rw [notesFrom_of_own hb]
      cases rests_resume hb o with
      | ended ending _ hr _ =>
        have hover : (b.exec (.resume o)).state.running.length ≤ outer.length :=
          Nat.le_of_eq (congrArg List.length hr)
        rw [turnsFrom_of_le hover, List.flatMap_nil, List.append_nil] at hx
        rw [notesFrom_of_le hover, List.append_nil]
        exact attend_receipts_of_fatal hx hfatal hentry since
      | waits f' call _ hr he hc hh ho =>
        rw [attend_append]
        refine ih [] hr ((List.mem_append.1 hx).resolve_left fun hx => ?_) _
        rw [hh x hx] at hfatal
        cases hfatal

/-- Nothing is queued after a one-shot has ended its post. -/
theorem newcomers_of_fatal (h : b.Sound) {e : ε} {order : Arrangement Route}
    {during : List (Command ε)} {x : Receipt ε}
    (hx : x ∈ (b.turns e order during).flatMap (·.receipts)) (hfatal : x.fatal?.isSome = true)
    (hentry : x.oneShot?.isSome = true) : b.newcomers e order during = [] := by
  have hlater : x ∈ ((b.exec (.post e order)).state.turnsFrom b.running.length during).flatMap
      (·.receipts) := by
    rw [turns, List.flatMap_cons] at hx
    refine (List.mem_append.1 hx).resolve_left fun hx => ?_
    rw [harmless_passed e _ x hx] at hfatal
    cases hfatal
  rw [newcomers, notes, attend_append]
  cases b.rests_post e order (Backlog.getD_batch?_refresh h.backlog (typeOf e)) with
  | ended ending _ hr _ =>
    have hover : (b.exec (.post e order)).state.running.length ≤ b.running.length :=
      Nat.le_of_eq (congrArg List.length hr)
    rw [turnsFrom_of_le hover] at hlater
    exact absurd hlater List.not_mem_nil
  | waits f call _ hr he hc hh ho =>
    exact attend_notesFrom_of_fatal during [] hr (typeOf e) hlater hfatal hentry _

end Bus

end PubSub
