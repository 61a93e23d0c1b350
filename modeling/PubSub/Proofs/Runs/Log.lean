import PubSub.Proofs.Directory.Census
import PubSub.Proofs.Runs.Ledger

/-!
# Proofs/Runs/Log — what each command writes

    register        already registered …      registered / rejected
    hasSubscribers  routes rebuilt?
    post            routes rebuilt?  queues rebuilt?  faults of those passed           report?
    resume                                            fault of the call, those passed  report?

A step of a post writes the records of its receipts, in their order, and the report that is due
when the post returns with it.  Before that a post that begins may say that it has read its caches
anew.  Nothing else in the log comes from posts, and every kind of record has its own commands.
-/

namespace PubSub

variable {ε : Type}

/-- Whether a record is of a kind that the command writes. -/
def Command.writes (c : Command ε) : Record → Bool
  | .registered .. | .rejected .. | .alreadyRegistered .. => (c matches .register ..)
  | .unregistered .. => (c matches .unregister _)
  | .declaredLate _ => (c matches .declare ..)
  | .routesRebuilt _ => (c matches .post .. | .hasSubscribers _)
  | .queuesRebuilt _ => (c matches .post ..)
  | .oneShotFaulted .. | .handlerFaulted .. | .statistics _ => (c matches .post .. | .resume _)

/-- Whether a command is one by which subscriptions come or go. -/
def Command.moves (c : Command ε) : Bool := c matches .register .. | .unregister _

/-- Whether a record is of something that came or went. -/
def Record.isOfMove : Record → Bool
  | .registered .. | .unregistered .. => true
  | _ => false

/-! ## Parts of a log -/

theorem Directory.eq_of_mem_log_refresh {d : Directory} {x : Record} (h : x ∈ d.refresh.log) :
    x = .routesRebuilt d.listings.size := by
  unfold refresh at h
  cases hc : d.cached with
  | some routes => simp [hc] at h
  | none => simpa [hc] using h

theorem Backlog.eq_of_mem_log_refresh {b : Backlog} {x : Record} (h : x ∈ b.refresh.log) :
    x = .queuesRebuilt b.queues.size := by
  unfold refresh at h
  cases hc : b.cached with
  | some types => simp [hc] at h
  | none => simpa [hc] using h

/-- **A registration says of every interest that it skips that it was there already.** -/
theorem Directory.eq_of_mem_log_enterAll {o : Owner} {is : List Interest} {d : Directory}
    {x : Record} (h : x ∈ (enterAll o is d).log) : ∃ name, x = .alreadyRegistered o name := by
  induction is generalizing d with
  | nil => exact absurd h List.not_mem_nil
  | cons i is ih =>
    unfold enterAll at h
    split at h
    · rcases List.mem_cons.1 h with rfl | h
      · exact ⟨i.name, rfl⟩
      · exact ih h
    · exact ih h

/-- What a directory writes when interests are registered: nothing if they are refused. -/
theorem Directory.eq_of_mem_log_register {d : Directory} {o : Owner} {is : List Interest}
    {x : Record} (h : x ∈ (d.register o is).log) : ∃ name, x = .alreadyRegistered o name := by
  unfold register at h
  split at h
  · exact absurd h List.not_mem_nil
  · exact eq_of_mem_log_enterAll h

theorem Directory.eq_of_mem_log_declare {d : Directory} {p : EventType} {cs : List EventType}
    {x : Record} (h : x ∈ (d.declare p cs).log) : x = .declaredLate p := by
  have hlog : (d.declare p cs).log = if d.listings.contains p then [.declaredLate p] else [] := by
    unfold declare
    cases d.families.contains p <;> cases badChild? p [] cs <;> rfl
  rw [hlog] at h
  split at h
  · exact List.mem_singleton.1 h
  · exact absurd h List.not_mem_nil

theorem Bus.mem_due {b : Bus ε} {t : EventType} {x : Record} (h : x ∈ b.due t) :
    ∃ report, x = .statistics report ∧ report.census = b.census := by
  unfold due at h
  split at h
  · exact absurd h List.not_mem_nil
  · split at h
    · exact ⟨_, List.mem_singleton.1 h, rfl⟩
    · exact absurd h List.not_mem_nil

theorem Bus.eq_of_mem_openingLog {b : Bus ε} {x : Record} (h : x ∈ b.openingLog) :
    x = .routesRebuilt b.directory.listings.size ∨ x = .queuesRebuilt b.backlog.queues.size :=
  (List.mem_append.1 h).imp Directory.eq_of_mem_log_refresh Backlog.eq_of_mem_log_refresh

variable [EventValue ε]

/-- **A record of receipts is of one of them in which something went wrong.** -/
theorem mem_records {xs : List (Receipt ε)} {x : Record} (h : x ∈ records xs) :
    ∃ r ∈ xs, ∃ fault, r.outcome = .faulted fault ∧
      x = r.recipient.record (typeOf r.event) fault := by
  obtain ⟨r, hr, hx⟩ := List.mem_filterMap.1 h
  unfold Receipt.record? at hx
  split at hx
  · cases hx
  · next fault ho => exact ⟨r, hr, fault, ho, (Option.some.inj hx).symm⟩

namespace Bus

/-! ## Steps of a post -/

/-- What a step of a post of type `t` that begins on `b` writes when it is done with `xs`: their
records, and if the post returns the report that is due. -/
def Writes (b : Bus ε) (t : EventType) (xs : List (Receipt ε))
    (r : Logged (Bus ε) (Progress ε)) : Prop :=
  r.log = records xs ++ if r.value.returns then b.due t else []

section Writes

variable {b b' : Bus ε} {t : EventType} {xs : List (Receipt ε)} {r : Logged (Bus ε) (Progress ε)}

/-- The step may begin on any bus with the same tally and the same census. -/
theorem Writes.congr (h : b'.Writes t xs r) (htally : b'.tally = b.tally)
    (hcensus : b'.census = b.census) : b.Writes t xs r := by
  unfold Writes at h ⊢
  rwa [due, htally, hcensus] at h

/-- **What was done before a step is written before what the step does.** -/
theorem Writes.after (h : b.Writes t xs r) (ys : List (Receipt ε)) :
    b.Writes t (ys ++ xs) (r.after (records ys)) := by
  unfold Writes at h ⊢
  rw [Logged.log_after, h, records_append, List.append_assoc]
  rfl

theorem writes_finish (b : Bus ε) (t : EventType) {ending : Ending} (h : ending.returns = true) :
    b.Writes t [] (b.finish t ending) := by
  rw [Writes, finish_eq]
  exact (if_pos h).symm

theorem writes_deliver (b : Bus ε) (e : ε) (l : List Route) :
    b.Writes (typeOf e) [] (b.deliver e l) := by
  rcases b.deliver_cases e l with ⟨-, h⟩ | ⟨r, rest, p, -, -, h⟩ | ⟨r, rest, call, -, -, h⟩
  · rw [h]
    exact b.writes_finish _ rfl
  · rw [h]
    rfl
  · rw [h]
    rfl

theorem writes_visit (b : Bus ε) (e : ε) (ahead : List Route) (size : Nat) (l : List OneShot) :
    b.Writes (typeOf e) (passed e l) (b.visit e ahead size l) := by
  obtain ⟨backlog, boxes, -, h⟩ := b.visit_cases e ahead size l
  have hpassed : passed e l = passed e l ++ [] := (List.append_nil _).symm
  rw [hpassed]
  rcases h with ⟨-, h⟩ | ⟨s, rest, call, -, -, h⟩
  · rw [h]
    refine Writes.after ?_ (passed e l)
    exact Writes.congr (writes_deliver _ e ahead) rfl rfl
  · rw [h]
    refine Writes.after ?_ (passed e l)
    rfl

theorem writes_proceed (b : Bus ε) (f : Frame ε) :
    b.Writes (typeOf f.event) (passed f.event f.unvisited) (b.proceed f) := by
  cases hs : f.stage with
  | oneShot s rest size =>
    rw [proceed, Frame.unvisited, hs]
    exact b.writes_visit ..
  | handler r =>
    rw [proceed, Frame.unvisited, hs]
    exact b.writes_deliver ..

end Writes

/-- **What a post writes when it begins.** -/
theorem log_post (b : Bus ε) (e : ε) (order : Arrangement Route) {batch : List OneShot}
    (hb : (b.opened.backlog.batch? b.backlog.refresh.value (typeOf e)).getD [] = batch) :
    (b.post e order).log = b.openingLog ++
      (records (passed e batch) ++
        if (b.post e order).value.returns then b.due (typeOf e) else []) := by
  have hopened : ∀ {xs r}, Writes b.opened (typeOf e) xs r → b.Writes (typeOf e) xs r :=
    fun h => h.congr rfl b.census_opened
  rcases b.post_cases e order with ⟨hnone, h⟩ | ⟨batch', hsome, h⟩
  · obtain rfl : [] = batch := by rw [← hb, hnone, Option.getD_none]
    rw [h]
    exact congrArg _ (hopened (b.opened.writes_deliver e _))
  · obtain rfl : batch' = batch := by rw [← hb, hsome, Option.getD_some]
    rw [h]
    refine congrArg _ (hopened ?_)
    exact Writes.congr (writes_visit _ e _ _ batch') rfl rfl

/-- **What a post writes when a call of it ends.** -/
theorem log_resume {b : Bus ε} {f : Frame ε} {outer : List (Frame ε)} (hb : b.running = f :: outer)
    (o : Outcome) :
    (b.resume o).log = records (f.receipts o) ++
      if (b.resume o).value.returns then b.due (typeOf f.event) else [] := by
  obtain ⟨b₁, ⟨text, ht, hback, h⟩ | ⟨ht, hback, h⟩⟩ := resume_cases hb o
  · have hcensus : b₁.census = b.census := congrArg (·.2.1.census) hback.standing
    rw [h, Frame.receipts, ht]
    exact Writes.congr (Writes.after (b₁.writes_finish _ rfl) _) hback.tally hcensus
  · have hcensus : b₁.census = b.census := congrArg (·.2.1.census) hback.standing
    rw [h, Frame.receipts, ht]
    exact Writes.congr (Writes.after (b₁.writes_proceed f) _) hback.tally hcensus

/-! ## Commands -/

/-- **What can be in the log of a step of a post**: records of what went wrong, and a report. -/
theorem mem_log_step {b : Bus ε} {t : EventType} {xs : List (Receipt ε)} {returns : Bool}
    {x : Record} (h : x ∈ records xs ++ if returns then b.due t else []) :
    (∃ (whom : Recipient) (posted : EventType) (fault : Fault), x = whom.record posted fault) ∨
      ∃ report, x = .statistics report ∧ report.census = b.census := by
  rcases List.mem_append.1 h with h | h
  · obtain ⟨r, -, fault, -, hx⟩ := mem_records h
    exact .inl ⟨r.recipient, typeOf r.event, fault, hx⟩
  · split at h
    · exact .inr (mem_due h)
    · exact absurd h List.not_mem_nil

theorem mem_log_post {b : Bus ε} {e : ε} {order : Arrangement Route} {x : Record}
    (h : x ∈ (b.post e order).log) :
    (x = .routesRebuilt b.directory.listings.size ∨ x = .queuesRebuilt b.backlog.queues.size) ∨
      (∃ (whom : Recipient) (posted : EventType) (fault : Fault), x = whom.record posted fault) ∨
        ∃ report, x = .statistics report ∧ report.census = b.census := by
  rw [b.log_post e order rfl] at h
  exact (List.mem_append.1 h).imp eq_of_mem_openingLog mem_log_step

theorem mem_log_resume {b : Bus ε} {o : Outcome} {x : Record} (h : x ∈ (b.resume o).log) :
    (∃ (whom : Recipient) (posted : EventType) (fault : Fault), x = whom.record posted fault) ∨
      ∃ report, x = .statistics report ∧ report.census = b.census := by
  cases hb : b.running with
  | nil =>
    rw [resume_of_idle hb] at h
    exact absurd h List.not_mem_nil
  | cons f outer =>
    rw [log_resume hb] at h
    exact mem_log_step h

omit [EventValue ε] in
theorem mem_log_register {b : Bus ε} {o : Owner} {is : List Interest} {x : Record}
    (h : x ∈ (b.register o is).log) :
    (∃ name, x = .alreadyRegistered o name) ∨ (∃ n, x = .registered o n) ∨
      ∃ error, x = .rejected o error := by
  unfold register at h
  dsimp only at h
  split at h
  · exact (List.mem_append.1 h).imp Directory.eq_of_mem_log_register fun hx =>
      .inl ⟨_, List.mem_singleton.1 hx⟩
  · exact (List.mem_append.1 h).imp Directory.eq_of_mem_log_register fun hx =>
      .inr ⟨_, List.mem_singleton.1 hx⟩

omit [EventValue ε] in
theorem mem_log_unregister {b : Bus ε} {o : Owner} {x : Record} (h : x ∈ (b.unregister o).log) :
    x = .unregistered o (b.directory.unregister o.id).2 := by
  unfold unregister at h
  dsimp only at h
  split at h
  · exact List.mem_singleton.1 h
  · exact absurd h List.not_mem_nil

/-- **Every kind of record has its own commands.** -/
theorem writes_of_mem_log {b : Bus ε} {c : Command ε} {x : Record} (h : x ∈ (b.exec c).log) :
    c.writes x = true := by
  cases c with
  | register o interests =>
    obtain ⟨name, rfl⟩ | ⟨n, rfl⟩ | ⟨error, rfl⟩ := mem_log_register (b := b) h
    · rfl
    · rfl
    · rfl
  | unregister o => rw [mem_log_unregister (b := b) h, Command.writes]
  | declare parent children => rw [Directory.eq_of_mem_log_declare h, Command.writes]
  | hasSubscribers t => rw [Directory.eq_of_mem_log_refresh h, Command.writes]
  | post e order =>
    obtain (rfl | rfl) | ⟨whom, posted, fault, rfl⟩ | ⟨report, rfl, -⟩ := mem_log_post (b := b) h
    · rfl
    · rfl
    · cases whom <;> rfl
    · rfl
  | resume o =>
    obtain ⟨whom, posted, fault, rfl⟩ | ⟨report, rfl, -⟩ := mem_log_resume (b := b) h
    · cases whom <;> rfl
    · rfl
  | once | onceOrMore | next | poll => exact absurd h List.not_mem_nil

theorem log_run_concat (b : Bus ε) (cs : List (Command ε)) (c : Command ε) :
    (b.run (cs ++ [c])).log = (b.run cs).log ++ ((b.run cs).state.exec c).log :=
  (log_run_append b cs [c]).trans (congrArg (_ ++ ·) (List.append_nil _))

/-- **What a registration says of how many were inserted.** -/
theorem registered_mem_log {b : Bus ε} {o o' : Owner} {is : List Interest} {n : Nat} :
    .registered o' n ∈ (b.exec (.register o is)).log ↔
      o' = o ∧ (b.directory.register o is).value = .ok n := by
  have hskip : ∀ {d : Directory}, .registered o' n ∉ (d.register o is).log := fun hx => by
    cases (Directory.eq_of_mem_log_register hx).choose_spec
  change _ ∈ (b.register o is).log ↔ _
  unfold Bus.register
  dsimp only
  cases hv : (b.directory.register o is).value with
  | error e => simp [hskip]
  | ok m => simp [hskip, eq_comm]

/-- **What a removal says of how many were removed.** -/
theorem unregistered_mem_log {b : Bus ε} {o o' : Owner} {n : Nat} :
    .unregistered o' n ∈ (b.exec (.unregister o)).log ↔
      o' = o ∧ n = (b.directory.unregister o.id).2 ∧ 0 < n := by
  change _ ∈ (b.unregister o).log ↔ _
  unfold Bus.unregister
  dsimp only
  split
  · next hpos =>
    rw [List.mem_singleton, Record.unregistered.injEq]
    refine and_congr_right fun _ => (and_iff_left_of_imp ?_).symm
    rintro rfl
    exact hpos
  · next hzero =>
    refine iff_of_false List.not_mem_nil ?_
    rintro ⟨-, rfl, hpos⟩
    exact hzero hpos

/-- A command by which nothing comes or goes says of nothing that it did. -/
theorem isOfMove_of_mem_log {b : Bus ε} {c : Command ε} (hc : c.moves = false) {x : Record}
    (hx : x ∈ (b.exec c).log) : x.isOfMove = false := by
  have hwrites := writes_of_mem_log hx
  cases x with
  | registered | unregistered => cases c with
    | register | unregister => cases hc
    | _ => cases hwrites
  | _ => rfl

/-- **A command by which nothing comes or goes leaves what is held.** -/
theorem holdings_exec {b : Bus ε} {c : Command ε} (hc : c.moves = false) :
    (b.exec c).state.directory.holdings = b.directory.holdings := by
  rw [directory_exec]
  cases c with
  | register | unregister => cases hc
  | declare p cs => exact b.directory.holdings_declare p cs
  | hasSubscribers | post => exact b.directory.holdings_refresh
  | once | onceOrMore | next | poll | resume => rfl

/-- **A report has the census of the moment at which it is made.** -/
theorem census_of_mem_log {b : Bus ε} {c : Command ε} {report : Report}
    (h : .statistics report ∈ (b.exec c).log) : report.census = b.census := by
  have hfault : ∀ {whom : Recipient} {posted : EventType} {fault : Fault},
      .statistics report ≠ whom.record posted fault := fun {whom _ _} he => by
    cases whom <;> cases he
  cases c with
  | post e order =>
    obtain (he | he) | ⟨whom, posted, fault, he⟩ | ⟨report', he, hcensus⟩ :=
      mem_log_post (b := b) h
    · cases he
    · cases he
    · exact absurd he hfault
    · exact (Record.statistics.inj he) ▸ hcensus
  | resume o =>
    obtain ⟨whom, posted, fault, he⟩ | ⟨report', he, hcensus⟩ := mem_log_resume (b := b) h
    · exact absurd he hfault
    · exact (Record.statistics.inj he) ▸ hcensus
  | register | unregister | declare | hasSubscribers | once | onceOrMore | next | poll =>
    cases writes_of_mem_log h

end Bus

end PubSub
