import PubSub.Proofs.Post.Dispatch
import PubSub.Proofs.Runs.Failures
import PubSub.Proofs.Runs.Ledger
import PubSub.Scenario.Value

/-!
# Proofs/Runs/Panics — which panics stay inside a post

    one-shot, copy, handler  panics ──▸ logged ──▸ the next one, as if it had returned
    event seen as a parent   panics ──▸ out of the post: nothing logged, nobody else called,
                                        nothing counted

Of the user code that a post runs, calls and copies are guarded, and seeing the event as its parent
is not.  A guarded panic makes no difference but the record that tells of it: put a return in its
place, and the bus comes to the same state and gives the same answers.  A panic that is not guarded
ends the post on the spot.
-/

namespace PubSub

/-! ## Panics in outcomes and in the log -/

/-- Whether a call ended in a panic. -/
def Outcome.isPanic : Outcome → Bool
  | faulted (.panic _) => true
  | _ => false

/-- Whether a record is of a panic. -/
def Record.isOfPanic : Record → Bool
  | oneShotFaulted _ (.panic _) | handlerFaulted _ _ _ (.panic _) => true
  | _ => false

theorem Record.level_of_isOfPanic {x : Record} (h : x.isOfPanic = true) : x.level = .error := by
  cases x with
  | oneShotFaulted | handlerFaulted => rfl
  | _ => cases h

variable {σ α ε : Type}

/-- Two operations leave the same, answer the same and write the same but for records of panics. -/
structure Logged.SameButPanics (r r' : Logged σ α) : Prop where
  state : r.state = r'.state
  value : r.value = r'.value
  log : r.log.filter (!·.isOfPanic) = r'.log.filter (!·.isOfPanic)

namespace Logged.SameButPanics

theorem refl (r : Logged σ α) : SameButPanics r r := ⟨rfl, rfl, rfl⟩

theorem map {β : Type} {r r' : Logged σ α} (h : SameButPanics r r') (f : α → β) :
    SameButPanics (r.map f) (r'.map f) := ⟨h.state, congrArg f h.value, h.log⟩

/-- Records of panics may be written before or not. -/
theorem after (r : Logged σ α) {log : List Record} (h : ∀ x ∈ log, x.isOfPanic = true) :
    SameButPanics (r.after log) r where
  state := rfl
  value := rfl
  log := by
    have hnone : log.filter (!·.isOfPanic) = [] :=
      List.filter_eq_nil_iff.2 fun x hx => by simp [h x hx]
    rw [Logged.log_after, List.filter_append, hnone, List.nil_append]

end Logged.SameButPanics

/-- A command, and what it is if the call that it ends may return instead of panicking. -/
inductive Command.Calmed : Command ε → Command ε → Prop
  | same (c : Command ε) : Calmed c c
  | returns (p : Panic) : Calmed (.resume (.faulted (.panic p))) (.resume (.returned true))

variable [EventValue ε]

/-- The records of panics are those of the receipts that ended in one. -/
theorem filter_isOfPanic_records (xs : List (Receipt ε)) :
    (records xs).filter Record.isOfPanic = records (xs.filter (·.outcome.isPanic)) := by
  induction xs with
  | nil => rfl
  | cons x xs ih =>
    obtain ⟨e, whom, outcome⟩ := x
    have hcons : ∀ fault, records (⟨e, whom, .faulted fault⟩ :: xs) =
        whom.record (typeOf e) fault :: records xs := fun fault => rfl
    cases outcome with
    | returned done => exact ih
    | faulted fault =>
      have hrecord : (whom.record (typeOf e) fault).isOfPanic =
          (Outcome.faulted fault).isPanic := by
        cases whom <;> cases fault <;> rfl
      rw [hcons, List.filter_cons, List.filter_cons, hrecord, ih]
      split
      · rfl
      · rfl

/-! ## Seeing the event for a route -/

/-- **Seeing an event for a route panics where seeing it as the parent does**, if the route comes
from a child. -/
theorem Route.Brings.panic?_eq_some {r : Route} {e : ε} (h : r.Brings e) {p : Panic} :
    (Recipient.handler r).panic? e = some p ↔
      ∃ u, r.upcast = some u ∧ EventValue.asParent u.parent e = .error p := by
  rcases h with ⟨hnone, hcall⟩ | ⟨u, hu, ⟨seen, hseen, hcall⟩ | ⟨p', hpanic, h⟩⟩
  · rw [Recipient.panic?_of_call? hcall, hnone]
    refine iff_of_false (fun hp => nomatch hp) ?_
    rintro ⟨u, hu, -⟩
    cases hu
  · rw [Recipient.panic?_of_call? hcall, hu]
    refine iff_of_false (fun hp => nomatch hp) ?_
    rintro ⟨u', hu', hp⟩
    obtain rfl := Option.some.inj hu'
    cases hseen.symm.trans hp
  · rw [h, hu]
    constructor
    · rintro ⟨⟩
      exact ⟨u, rfl, hpanic⟩
    · rintro ⟨u', hu', hp⟩
      obtain rfl := Option.some.inj hu'
      rw [Except.error.inj (hpanic.symm.trans hp)]

/-! ## A panic of a call is as good as a return -/

namespace OneShot

/-- A panic counts as a panic. -/
theorem verdict_panic (s : OneShot) (p : Panic) :
    s.verdict (.faulted (.panic p)) = .faulted (.panic p) := by
  unfold verdict
  cases s.task <;> rfl

/-- Being done counts as being done. -/
theorem verdict_returned_true (s : OneShot) : s.verdict (.returned true) = .returned true := by
  unfold verdict
  cases s.task <;> rfl

end OneShot

namespace Frame

omit [EventValue ε]

theorem verdict_panic (f : Frame ε) (p : Panic) :
    f.verdict (.faulted (.panic p)) = .faulted (.panic p) := by
  unfold verdict
  split
  · exact OneShot.verdict_panic ..
  · rfl

theorem verdict_returned_true (f : Frame ε) : f.verdict (.returned true) = .returned true := by
  unfold verdict
  split
  · exact OneShot.verdict_returned_true ..
  · rfl

end Frame

namespace Bus

variable {b : Bus ε}

/-- **A post goes on where it stopped**, unless the call was fatal or is put back. -/
theorem resume_of_done {f : Frame ε} {outer : List (Frame ε)} (hb : b.running = f :: outer)
    {o : Outcome} (hfatal : (f.verdict o).fatal? = none) (hdone : f.verdict o ≠ .returned false) :
    b.resume o = (proceed { b with running := outer } f).after
      (records [⟨f.event, f.current, f.verdict o⟩]) := by
  cases hs : f.stage with
  | oneShot s rest size =>
    simp only [Frame.verdict, hs] at hfatal hdone
    simp only [Frame.verdict, Frame.current, proceed, hs]
    rcases resume_oneShot_cases hb hs o with ⟨text, ht, -⟩ | ⟨hv, -⟩ | ⟨-, -, h⟩
    · cases hfatal.symm.trans ht
    · exact absurd hv hdone
    · exact h
  | handler r =>
    simp only [Frame.verdict, hs] at hfatal
    simp only [Frame.verdict, Frame.current, proceed, hs]
    rcases resume_handler_cases hb hs o with ⟨text, ht, -⟩ | ⟨-, h⟩
    · cases hfatal.symm.trans ht
    · exact h

/-- **A call that panics leaves the bus as if it had returned**, and only its record tells. -/
theorem sameButPanics_resume (b : Bus ε) (p : Panic) :
    Logged.SameButPanics (b.resume (.faulted (.panic p))) (b.resume (.returned true)) := by
  cases hb : b.running with
  | nil =>
    rw [resume_of_idle hb, resume_of_idle hb]
    exact .refl _
  | cons f outer =>
    have hpanic := f.verdict_panic p
    have hreturned := f.verdict_returned_true
    have hnothing : records [Receipt.mk f.event f.current (.returned true)] = [] := rfl
    rw [resume_of_done hb (by rw [hpanic]; rfl) (by simp [hpanic]),
      resume_of_done hb (by rw [hreturned]; rfl) (by simp [hreturned]), hpanic, hreturned,
      hnothing]
    refine .after _ fun x hx => ?_
    obtain rfl := List.mem_singleton.1 hx
    cases f.current <;> rfl

theorem sameButPanics_exec {c c' : Command ε} (h : c.Calmed c') (b : Bus ε) :
    Logged.SameButPanics (b.exec c) (b.exec c') := by
  cases h with
  | same => exact .refl _
  | returns p => exact (b.sameButPanics_resume p).map Reply.progress

/-- **Panics of calls make no difference to a run**, but for the records that tell of them. -/
theorem sameButPanics_run {commands commands' : List (Command ε)}
    (h : List.Forall₂ Command.Calmed commands commands') (b : Bus ε) :
    Logged.SameButPanics (b.run commands) (b.run commands') := by
  induction h generalizing b with
  | nil => exact .refl _
  | @cons c c' commands commands' hc _ ih =>
    have hfirst := sameButPanics_exec hc b
    have hothers := ih (b.exec c).state
    rw [Bus.run_cons, Bus.run_cons, ← hfirst.state, ← hfirst.value]
    refine ⟨hothers.state, congrArg (_ :: ·) hothers.value, ?_⟩
    dsimp only
    rw [List.filter_append, List.filter_append, hfirst.log, hothers.log]

/-! ## Panics in the log of a run -/

/-- **The panics of calls and copies are reported**, each once, in the order in which they came, and
no others. -/
theorem Reachable.panics_reported (h : b.Reachable) (commands : List (Command ε)) :
    List.Forall₂ Record.TellsReceipt ((b.run commands).log.filter Record.isOfPanic)
      ((b.collect receipts commands).filter (·.outcome.isPanic)) := by
  have hlevel : (b.run commands).log.filter Record.isOfPanic =
      ((b.run commands).log.filter (·.level = .error)).filter Record.isOfPanic := by
    rw [List.filter_filter]
    refine List.filter_congr fun x _ => ?_
    cases hx : x.isOfPanic with
    | false => rfl
    | true => rw [Record.level_of_isOfPanic hx]; rfl
  have hfaulted : ((b.collect receipts commands).filter (·.outcome.isPanic)).filter
      (·.outcome.isFaulted) = (b.collect receipts commands).filter (·.outcome.isPanic) := by
    refine List.filter_eq_self.2 fun x hx => ?_
    have hpanic := (List.mem_filter.1 hx).2
    cases ho : x.outcome with
    | returned done => rw [ho] at hpanic; cases hpanic
    | faulted fault => rfl
  have hall := forall₂_records ((b.collect receipts commands).filter (·.outcome.isPanic))
  rw [hlevel, h.filter_level_run, filter_isOfPanic_records]
  rwa [hfaulted] at hall

/-- What a post does is among what is done while it is running. -/
theorem receipts_turnsFrom_sublist (depth : Nat) (b : Bus ε) (commands : List (Command ε)) :
    ((b.turnsFrom depth commands).flatMap (·.receipts)).Sublist (b.collect receipts commands) := by
  induction commands generalizing b with
  | nil => exact .slnil
  | cons c commands ih =>
    rw [turnsFrom, collect]
    split
    · exact List.nil_sublist _
    · split
      · rw [List.flatMap_cons]
        exact (List.Sublist.refl _).append (ih _)
      · exact (ih _).trans (List.sublist_append_right ..)

theorem receipts_turns_sublist (b : Bus ε) (e : ε) (order : Arrangement Route)
    (commands : List (Command ε)) :
    ((b.turns e order commands).flatMap (·.receipts)).Sublist
      (b.collect receipts (.post e order :: commands)) := by
  rw [turns, List.flatMap_cons, collect]
  exact (List.Sublist.refl _).append (receipts_turnsFrom_sublist ..)

/-! ## The end of a post -/

/-- A post of type `t` that lies on `outer` ends with a command: it is counted, unless it is left by
a panic. -/
structure EndsWith (b : Bus ε) (c : Command ε) (t : EventType) (outer : List (Frame ε))
    (ending : Ending) : Prop where
  value : (b.exec c).value = .progress (.finished ending)
  running : (b.exec c).state.running = outer
  tally : (b.exec c).state.tally = if ending.returns then b.counted t else b.tally

/-- A step that ends a post. -/
theorem endsWith_of_rests {e : ε} {outer : List (Frame ε)} {agenda : List Recipient}
    {xs : List (Receipt ε)} {r : Logged (Bus ε) (Progress ε)} {c : Command ε} {ending : Ending}
    (hc : b.exec c = r.map .progress) (hrests : Rests e outer agenda xs r)
    (hbooks : b.Books (typeOf e) r) (hvalue : r.value = .finished ending) :
    b.EndsWith c (typeOf e) outer ending := by
  have htally := hbooks.tally
  rw [hvalue] at htally
  cases hrests with
  | waits f call hv hr he hcall hh ho => cases hv.symm.trans hvalue
  | ended ending' hv hr he =>
    refine ⟨?_, ?_, ?_⟩
    · rw [hc, Logged.value_map, hvalue]
    · rw [hc, Logged.state_map, hr]
    · rw [hc, Logged.state_map, htally]
      rfl

/-- **A post that waits for a call and is over in the end has ended with one of the commands.** -/
theorem endsWith_of_turnsFrom (commands : List (Command ε)) {b : Bus ε} (inner : List (Frame ε))
    {outer : List (Frame ε)} {f : Frame ε} (hb : b.running = inner ++ f :: outer)
    {call : Call ε} {ending : Ending}
    (h : ((b.turnsFrom outer.length commands).map (·.progress)).getLastD (.calling call) =
      .finished ending) :
    ∃ first c rest, commands = first ++ c :: rest ∧
      (b.run first).state.EndsWith c (typeOf f.event) outer ending := by
  induction commands generalizing b inner f call with
  | nil => cases h
  | cons c rest ih =>
    by_cases hown : c.isResume = false ∨ inner ≠ []
    · obtain ⟨hturns, inner', hrunning⟩ := turnsFrom_of_other hb hown rest
      obtain ⟨first, d, rest', rfl, hends⟩ := ih inner' hrunning (hturns ▸ h)
      exact ⟨c :: first, d, rest', rfl, hends⟩
    · obtain ⟨o, rfl, rfl⟩ := own_turn hown
      rw [turnsFrom_of_own hb, List.map_cons, List.getLastD_cons] at h
      cases rests_resume hb o with
      | waits f' call' hv hr he hcall hh ho =>
        obtain ⟨first, d, rest', rfl, hends⟩ := ih [] hr (hv ▸ h)
        exact ⟨.resume o :: first, d, rest', rfl, he ▸ hends⟩
      | ended ending' hv hr he =>
        have hnone : (b.exec (.resume o)).state.turnsFrom outer.length rest = [] :=
          turnsFrom_of_le (Nat.le_of_eq (congrArg List.length hr)) rest
        rw [hnone] at h
        refine ⟨[], .resume o, rest, rfl, ?_⟩
        exact endsWith_of_rests rfl (rests_resume hb o) (b.books_resume hb o) h

theorem endsWith_of_turns (b : Bus ε) {e : ε} {order : Arrangement Route}
    {commands : List (Command ε)} {ending : Ending}
    (h : ((b.turns e order commands).map (·.progress)).getLastD .idle = .finished ending) :
    ∃ first c rest, .post e order :: commands = first ++ c :: rest ∧
      (b.run first).state.EndsWith c (typeOf e) b.running ending := by
  have hturn : (b.turn (.post e order)).progress = (b.post e order).value := rfl
  rw [turns, List.map_cons, List.getLastD_cons, hturn] at h
  cases b.rests_post e order rfl with
  | waits f call hv hr he hcall hh ho =>
    obtain ⟨first, c, rest, rfl, hends⟩ := endsWith_of_turnsFrom commands [] hr (hv ▸ h)
    exact ⟨.post e order :: first, c, rest, rfl, he ▸ hends⟩
  | ended ending' hv hr he =>
    have hnone : (b.exec (.post e order)).state.turnsFrom b.running.length commands = [] :=
      turnsFrom_of_le (Nat.le_of_eq (congrArg List.length hr)) commands
    rw [hnone] at h
    refine ⟨[], .post e order, commands, rfl, ?_⟩
    exact endsWith_of_rests rfl (b.rests_post e order rfl) (b.books_post e order) h

/-! ## Containment -/

/-- **A panic stays inside the post, unless it comes from seeing the event as its parent.**  Take
any post, in any reachable state, and whatever is done while it is running.

It goes through its agenda in order and calls nobody else.  It is completed when everybody on the
agenda has been attended to and everybody who is to be called has been called; it is aborted with
the fatal error of somebody it went to, and only so; and a panic leaves it only where the next one
is a route from a child type and seeing the event as the parent panics.

A call that panics makes no difference but its record: with a return in its place, in one call of
this post or in several, the bus comes to the same state, gives the same answers and writes the same
otherwise.  All that panicked in calls and copies is reported at level ERROR, once each, and nothing
else is reported as a panic.  A post that is completed or aborted is counted when it ends, and one
that is left by a panic is not. -/
theorem panics_contained (config : Config) (before : List (Command ε)) (e : ε)
    (order : Arrangement Route) (during : List (Command ε)) :
    let b := ((new config : Bus ε).run before).state
    let agenda := (b.backlog.waiting (typeOf e)).map Recipient.oneShot ++
      (order.apply (b.directory.routesTo (typeOf e))).map .handler
    let turns := b.turns e order during
    let calls := turns.filterMap (·.progress.call?)
    let done := turns.flatMap (·.receipts)
    let progress := (turns.map (·.progress)).getLastD .idle
    let run := b.run (.post e order :: during)
    let history := b.collect receipts (.post e order :: during)
    calls <+: agenda.filterMap (Recipient.call? e) ∧
      (progress = .finished .completed →
        done.map (·.recipient) = agenda ∧ calls = agenda.filterMap (Recipient.call? e)) ∧
      (∀ error, progress = .finished (.aborted error) ↔ ∃ x ∈ done, x.fatal? = some error) ∧
      (∀ p, progress = .finished (.unwound p) ↔
        Harmless done ∧ ∃ r left, agenda = done.map (·.recipient) ++ .handler r :: left ∧
          ∃ u, r.upcast = some u ∧ EventValue.asParent u.parent e = .error p) ∧
      (∀ during', List.Forall₂ Command.Calmed during during' →
        Logged.SameButPanics run (b.run (.post e order :: during'))) ∧
      (done.Sublist history ∧ List.Forall₂ Record.TellsReceipt
        (run.log.filter Record.isOfPanic) (history.filter (·.outcome.isPanic))) ∧
      ∀ ending, progress = .finished ending →
        ∃ first c rest, .post e order :: during = first ++ c :: rest ∧
          (b.run first).state.EndsWith c (typeOf e) b.running ending := by
  intro b agenda turns calls done progress run history
  have hb : b.Reachable := ⟨config, before, rfl⟩
  have haccount : Account e b.running run.state.running agenda calls done progress :=
    hb.accounts e order during
  have hserves := haccount.serves
  have hbrings : ∀ r, .handler r ∈ agenda → r.Brings e := by
    intro r hr
    have hmem : r ∈ order.apply (b.directory.routesTo (typeOf e)) := by simpa [agenda] using hr
    exact hb.brings_of_mem_routesTo ((order.perm _).mem_iff.1 hmem)
  refine ⟨haccount.calls_isPrefix, fun hcompleted => ?_, fun error => hserves.aborted_iff,
    fun p => hserves.unwound_iff.trans (and_congr_right fun _ => ?_), fun during' hcalmed => ?_,
    ⟨b.receipts_turns_sublist e order during, hb.panics_reported _⟩,
    fun ending => b.endsWith_of_turns⟩
  · exact ⟨(hcompleted ▸ hserves).agenda_of_completed.symm,
      (hcompleted ▸ haccount).calls_of_completed⟩
  · constructor
    · rintro ⟨x, left, hx, hp⟩
      cases x with
      | oneShot s => cases hp
      | handler r => exact ⟨r, left, hx, (hbrings r (by simp [hx])).panic?_eq_some.1 hp⟩
    · rintro ⟨r, left, hr, hu⟩
      exact ⟨.handler r, left, hr, (hbrings r (by simp [hr])).panic?_eq_some.2 hu⟩
  · exact sameButPanics_run (.cons (.same _) hcalmed) b

/-- A spawn that cannot be seen as an item is posted to a handler for items and one for spawns: the
post is left by the panic, nothing is reported, the other handler is not called, and although posts
are counted this one is not. -/
theorem unwound_of_brittle :
    let item : EventType := .named 0 "ItemEvent"
    let spawned : EventType := .named 1 "ItemSpawned"
    let e : Scenario.Value := ⟨spawned, .node 1 none (some "no view") none⟩
    let b := ((new .counting : Bus Scenario.Value).run
      [.declare item [spawned], .register ⟨⟨0⟩, "o"⟩
        [⟨item, "on_item", ⟨0⟩⟩, ⟨spawned, "on_spawned", ⟨1⟩⟩]]).state
    let run := b.run [.post e .listed]
    (b.agenda e .listed).map (·.name) = ["on_item", "on_spawned"] ∧
      (b.turns e .listed []).map (·.progress) = [.finished (.unwound (.text "no view"))] ∧
      (b.turns e .listed []).filterMap (·.progress.call?) = [] ∧
      run.log.filter (·.level = .error) = [] ∧ run.state.statistics = some .zero := by
  decide

end Bus

end PubSub
