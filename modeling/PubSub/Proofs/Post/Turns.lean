import Mathlib.Data.List.Basic
import PubSub.Proofs.Post.Stack

/-!
# Proofs/Post/Turns — one post among everything else that happens

    post ──▸ turn ┄ callback: commands, posts ┄ resume ──▸ turn ┄ … ┄ resume ──▸ turn

Between the beginning of a post and its end, user code may do anything to the bus, and post again.
The turns of the post are its own steps among all that: its beginning, and every `resume` that
finds it innermost.  `account_turns` says what they add up to: the post works off the agenda that
it began with, in order, and nothing that happens between two turns gets a word in.
-/

namespace PubSub

variable {ε : Type} [EventValue ε]

/-! ## Turns -/

/-- The call that is waited for, if one is. -/
def Progress.call? : Progress ε → Option (Call ε)
  | calling call => some call
  | _ => none

/-- The call that a post waits for. -/
def Frame.call? (f : Frame ε) : Option (Call ε) := f.current.call? f.event

/-- The call that a receipt is for, if there was one. -/
def Receipt.call? (x : Receipt ε) : Option (Call ε) := x.recipient.call? x.event

/-- How far a post has come by the command that is answered. -/
def Reply.toProgress : Reply ε → Progress ε
  | .progress p => p
  | _ => .idle

/-- What a post does without a break: its receipts, and where it stops. -/
structure Turn (ε : Type) where
  receipts : List (Receipt ε)
  progress : Progress ε
  deriving DecidableEq, Repr

namespace Bus

/-- The turn that a command is for the post it moves. -/
def turn (b : Bus ε) (c : Command ε) : Turn ε := ⟨b.receipts c, (b.exec c).value.toProgress⟩

/-- The turns that commands are for the post that lies on `depth` others, up to its end. -/
def turnsFrom (depth : Nat) (b : Bus ε) : List (Command ε) → List (Turn ε)
  | [] => []
  | c :: rest =>
    if b.running.length ≤ depth then []
    else if c.isResume ∧ b.running.length = depth + 1 then
      b.turn c :: (b.exec c).state.turnsFrom depth rest
    else (b.exec c).state.turnsFrom depth rest

/-- All turns of a post when `commands` follow its beginning. -/
def turns (b : Bus ε) (e : ε) (order : Arrangement Route) (commands : List (Command ε)) :
    List (Turn ε) :=
  b.turn (.post e order) :: (b.exec (.post e order)).state.turnsFrom b.running.length commands

/-- Everybody a post of an event is to go to: the pending one-shots of its type, then the handlers
of its routes in the given order. -/
def agenda (b : Bus ε) (e : ε) (order : Arrangement Route) : List Recipient :=
  recipientsOf e (b.backlog.waiting (typeOf e)) (order.apply (b.directory.routesTo (typeOf e)))

end Bus

/-! ## What turns add up to -/

/-- How far a post that was to bring `e` to `agenda` has come when it is done with `xs`, the stack
of running posts being `stack`: it is over, or it waits for a call, and is where it began, on top of
`outer`. -/
inductive Serves (e : ε) (outer stack : List (Frame ε)) (agenda : List Recipient)
    (xs : List (Receipt ε)) : Progress ε → Prop
  | waits {inner : List (Frame ε)} {f : Frame ε} {call : Call ε}
      (stack_eq : stack = inner ++ f :: outer) (event : f.event = e)
      (called : f.current.call? e = some call) (harmless : Harmless xs)
      (order : agenda = xs.map (·.recipient) ++ f.left) :
    Serves e outer stack agenda xs (.calling call)
  | ended {ending : Ending} (ends : Ends e agenda xs ending) :
    Serves e outer stack agenda xs (.finished ending)

/-- The account of a post that was to bring `e` to `agenda`: the calls it made, what it is done
with and how far it has come. -/
structure Account (e : ε) (outer stack : List (Frame ε)) (agenda : List Recipient)
    (calls : List (Call ε)) (xs : List (Receipt ε)) (p : Progress ε) : Prop where
  serves : Serves e outer stack agenda xs p
  events : ∀ x ∈ xs, x.event = e
  calls_eq : calls = xs.filterMap Receipt.call? ++ p.call?.toList

/-- The account of all turns of a post when `commands` follow its beginning. -/
def Bus.Accounts (b : Bus ε) (e : ε) (order : Arrangement Route) (commands : List (Command ε))
    (agenda : List Recipient) : Prop :=
  Account e b.running (b.run (.post e order :: commands)).state.running agenda
    ((b.turns e order commands).filterMap (·.progress.call?))
    ((b.turns e order commands).flatMap (·.receipts))
    (((b.turns e order commands).map (·.progress)).getLastD .idle)

/-- **A post is aborted with the fatal error of somebody it went to itself, and only so.** -/
theorem Serves.aborted_iff {e : ε} {outer stack : List (Frame ε)} {agenda : List Recipient}
    {xs : List (Receipt ε)} {p : Progress ε} (h : Serves e outer stack agenda xs p)
    {error : FatalError} :
    p = .finished (.aborted error) ↔ ∃ x ∈ xs, x.fatal? = some error := by
  have hnone : Harmless xs → ¬ ∃ x ∈ xs, x.fatal? = some error := by
    rintro hh ⟨x, hx, hf⟩
    rw [hh x hx] at hf
    cases hf
  cases h with
  | waits hs he hc hh ho => exact ⟨fun hp => (nomatch hp), fun hx => absurd hx (hnone hh)⟩
  | ended hends =>
    cases hends with
    | completed ho hh => exact ⟨fun hp => (nomatch hp), fun hx => absurd hx (hnone hh)⟩
    | unwound ho hh hp => exact ⟨fun hp => (nomatch hp), fun hx => absurd hx (hnone hh)⟩
    | @aborted earlier last left error' hd ho hh hf =>
      subst hd
      constructor
      · intro hp
        obtain rfl : error' = error := by injection hp with hp; injection hp
        exact ⟨last, by simp, hf⟩
      · rintro ⟨x, hx, hxf⟩
        rcases List.mem_append.1 hx with hx | hx
        · rw [hh x hx] at hxf
          cases hxf
        · rw [List.mem_singleton.1 hx, hf] at hxf
          rw [Option.some.inj hxf]

/-- Seeing an event does not panic for somebody who can be called with it. -/
theorem Recipient.panic?_of_call? {x : Recipient} {e : ε} {call : Call ε}
    (h : x.call? e = some call) : x.panic? e = none := by
  cases x with
  | oneShot s => rfl
  | handler r =>
    rw [Recipient.call?] at h
    rw [Recipient.panic?]
    split at h
    · next seen hseen => rw [hseen]
    · cases h

/-- **A post is completed when it is done with everybody.** -/
theorem Serves.agenda_of_completed {e : ε} {outer stack : List (Frame ε)}
    {agenda : List Recipient} {xs : List (Receipt ε)}
    (h : Serves e outer stack agenda xs (.finished .completed)) :
    agenda = xs.map (·.recipient) := by
  cases h with
  | ended hends =>
    cases hends with
    | completed ho hh => exact ho

/-- **A post is left by a panic where seeing the event panics for whoever is next**, nothing fatal
having happened before, and only there. -/
theorem Serves.unwound_iff {e : ε} {outer stack : List (Frame ε)} {agenda : List Recipient}
    {xs : List (Receipt ε)} {progress : Progress ε} (h : Serves e outer stack agenda xs progress)
    {p : Panic} :
    progress = .finished (.unwound p) ↔
      Harmless xs ∧ ∃ x left, agenda = xs.map (·.recipient) ++ x :: left ∧ x.panic? e = some p := by
  cases h with
  | @waits inner f call hs he hc hh ho =>
    refine iff_of_false (fun hp => nomatch hp) ?_
    rintro ⟨-, x, left, hx, hpanic⟩
    obtain ⟨rfl, -⟩ := List.cons.inj (List.append_cancel_left (ho.symm.trans hx))
    rw [Recipient.panic?_of_call? hc] at hpanic
    cases hpanic
  | ended hends =>
    cases hends with
    | completed ho hh =>
      refine iff_of_false (fun hp => nomatch hp) ?_
      rintro ⟨-, x, left, hx, -⟩
      cases List.append_cancel_left ((List.append_nil _).trans (ho.symm.trans hx))
    | @aborted earlier last left error hd ho hh hf =>
      refine iff_of_false (fun hp => nomatch hp) ?_
      rintro ⟨hnone, -⟩
      rw [hnone last (by simp [hd])] at hf
      cases hf
    | @unwound x left p' ho hh hp =>
      constructor
      · intro he
        obtain rfl : p' = p := by injection he with he; injection he
        exact ⟨hh, x, left, ho, hp⟩
      · rintro ⟨-, x', left', hx, hpanic⟩
        obtain ⟨rfl, -⟩ := List.cons.inj (List.append_cancel_left (ho.symm.trans hx))
        rw [Option.some.inj (hp.symm.trans hpanic)]

/-- **What a post is done with comes first on its agenda.** -/
theorem Serves.recipients_isPrefix {e : ε} {outer stack : List (Frame ε)}
    {agenda : List Recipient} {xs : List (Receipt ε)} {p : Progress ε}
    (h : Serves e outer stack agenda xs p) : xs.map (·.recipient) <+: agenda := by
  cases h with
  | waits hs he hc hh ho => exact ho ▸ List.prefix_append ..
  | ended hends =>
    cases hends with
    | completed ho hh => exact ho ▸ List.prefix_rfl
    | aborted hd ho hh hf => exact ho ▸ List.prefix_append ..
    | unwound ho hh hp => exact ho ▸ List.prefix_append ..

/-- The calls that receipts are for are those of their recipients. -/
theorem calls_receipts_of_event {e : ε} {xs : List (Receipt ε)} (h : ∀ x ∈ xs, x.event = e) :
    xs.filterMap Receipt.call? = (xs.map (·.recipient)).filterMap (Recipient.call? e) := by
  rw [List.filterMap_map]
  refine List.filterMap_congr fun x hx => ?_
  rw [Receipt.call?, h x hx]
  rfl

/-- **The calls of a post** are those of its agenda, in order, as far as it has come. -/
theorem Account.calls_isPrefix {e : ε} {outer stack : List (Frame ε)} {agenda : List Recipient}
    {calls : List (Call ε)} {xs : List (Receipt ε)} {p : Progress ε}
    (h : Account e outer stack agenda calls xs p) :
    calls <+: agenda.filterMap (Recipient.call? e) := by
  have hdone := h.serves.recipients_isPrefix.filterMap (Recipient.call? e)
  rw [h.calls_eq, calls_receipts_of_event h.events]
  cases h.serves with
  | @waits inner f call hs hf hc hh ho =>
    rw [ho, List.filterMap_append, Frame.left, List.filterMap_cons_some hc]
    exact (List.prefix_append_right_inj _).2 (List.prefix_append [call] _)
  | ended hends => exact (List.append_nil _).symm ▸ hdone

/-- **A post that is completed has called everybody who is to be called.** -/
theorem Account.calls_of_completed {e : ε} {outer stack : List (Frame ε)}
    {agenda : List Recipient} {calls : List (Call ε)} {xs : List (Receipt ε)}
    (h : Account e outer stack agenda calls xs (.finished .completed)) :
    calls = agenda.filterMap (Recipient.call? e) := by
  rw [h.calls_eq, calls_receipts_of_event h.events, h.serves.agenda_of_completed]
  exact List.append_nil _

/-- **What a post did before comes first in its account.** -/
theorem Account.prepend {e : ε} {outer stack : List (Frame ε)} {agenda : List Recipient}
    {calls : List (Call ε)} {xs ys : List (Receipt ε)} {p : Progress ε}
    (h : Account e outer stack agenda calls xs p) (hys : Harmless ys)
    (he : ∀ y ∈ ys, y.event = e) :
    Account e outer stack (ys.map (·.recipient) ++ agenda)
      (ys.filterMap Receipt.call? ++ calls) (ys ++ xs) p where
  serves := by
    cases h.serves with
    | ended hends => exact .ended (hends.prepend hys)
    | waits hs hf hc hh ho =>
      refine .waits hs hf hc (hys.append hh) ?_
      rw [ho, List.map_append, List.append_assoc]
  events x hx := (List.mem_append.1 hx).elim (he x) (h.events x)
  calls_eq := by rw [h.calls_eq, List.filterMap_append, List.append_assoc]

theorem event_of_mem_passed {e : ε} {l : List OneShot} {x : Receipt ε} (h : x ∈ passed e l) :
    x.event = e := by
  obtain ⟨s, -, rfl⟩ := List.mem_map.1 h
  rfl

theorem calls_passed (e : ε) (l : List OneShot) :
    (passed e l).filterMap Receipt.call? = [] := by
  refine List.filterMap_eq_nil_iff.2 fun x hx => ?_
  rw [Receipt.call?, event_of_mem_passed hx, call?_of_mem_passed hx]

namespace Frame

theorem event_of_mem_receipts {f : Frame ε} {o : Outcome} {x : Receipt ε} (h : x ∈ f.receipts o) :
    x.event = f.event := by
  rcases mem_receipts h with rfl | hx
  · rfl
  · exact event_of_mem_passed hx

/-- **When a call ends, it is the only one there is a receipt for.** -/
theorem calls_receipts (f : Frame ε) (o : Outcome) :
    (f.receipts o).filterMap Receipt.call? = f.call?.toList := by
  have hpassed : (if (f.verdict o).fatal?.isSome then [] else
      passed f.event f.unvisited).filterMap Receipt.call? = [] := by
    split
    · rfl
    · exact calls_passed f.event f.unvisited
  rw [receipts, filterMap_cons_toList, hpassed, List.append_nil]
  rfl

end Frame

namespace Bus

/-! ## Turns in a run -/

/-- A post that is over has no more turns. -/
theorem turnsFrom_of_le {depth : Nat} {b : Bus ε} (h : b.running.length ≤ depth)
    (commands : List (Command ε)) : b.turnsFrom depth commands = [] := by
  cases commands with
  | nil => rfl
  | cons c rest => rw [turnsFrom, if_pos h]

/-- **What is no turn of a post leaves it where it is.** -/
theorem turnsFrom_of_other {b : Bus ε} {inner outer : List (Frame ε)} {f : Frame ε}
    (hb : b.running = inner ++ f :: outer) {c : Command ε} (hc : c.isResume = false ∨ inner ≠ [])
    (rest : List (Command ε)) :
    b.turnsFrom outer.length (c :: rest) = (b.exec c).state.turnsFrom outer.length rest ∧
      ∃ inner', (b.exec c).state.running = inner' ++ f :: outer := by
  have hlength : b.running.length = inner.length + 1 + outer.length := by
    rw [hb, List.length_append, List.length_cons]
    omega
  refine ⟨?_, ?_⟩
  · rw [turnsFrom, if_neg (by omega), if_neg]
    rintro ⟨hresume, hdepth⟩
    rcases hc with hc | hc
    · simp [hc] at hresume
    · exact hc (List.length_eq_zero_iff.1 (by omega))
  · have hsuffix : f :: outer <:+ (b.exec c).state.running := by
      rcases Bool.eq_false_or_eq_true c.isResume with hresume | hresume
      · obtain ⟨o, rfl⟩ : ∃ o, c = .resume o := by
          cases c with
          | resume o => exact ⟨o, rfl⟩
          | _ => cases hresume
        obtain ⟨g, inner', rfl⟩ := List.exists_cons_of_ne_nil (hc.resolve_left (by simp [hresume]))
        exact (List.suffix_append inner' _).trans (rests_resume hb o).suffix
      · exact (hb ▸ List.suffix_append inner _).trans (b.suffix_running_exec hresume)
    obtain ⟨inner', h⟩ := hsuffix
    exact ⟨inner', h.symm⟩

omit [EventValue ε] in
/-- What is not left to others ends the call that the innermost post waits for. -/
theorem own_turn {inner : List (Frame ε)} {c : Command ε}
    (h : ¬ (c.isResume = false ∨ inner ≠ [])) : ∃ o, c = .resume o ∧ inner = [] := by
  obtain ⟨hresume, hinner⟩ := not_or.1 h
  cases c with
  | resume o => exact ⟨o, rfl, Decidable.not_not.1 hinner⟩
  | _ => exact absurd rfl hresume

/-- **The turn of a post when its call ends.** -/
theorem turnsFrom_of_own {b : Bus ε} {outer : List (Frame ε)} {f : Frame ε}
    (hb : b.running = f :: outer) (o : Outcome) (rest : List (Command ε)) :
    b.turnsFrom outer.length (.resume o :: rest) =
      ⟨f.receipts o, (b.resume o).value⟩ ::
        (b.exec (.resume o)).state.turnsFrom outer.length rest := by
  have hlength : b.running.length = outer.length + 1 := by rw [hb]; rfl
  rw [turnsFrom, if_neg (by omega), if_pos ⟨rfl, hlength⟩, turn, receipts, hb]
  rfl

/-- The account of a post from where it waits for a call, `commands` being done then. -/
def AccountFrom (b : Bus ε) (e : ε) (outer : List (Frame ε)) (commands : List (Command ε))
    (agenda : List Recipient) (call : Call ε) : Prop :=
  Account e outer (b.run commands).state.running agenda
    (call :: (b.turnsFrom outer.length commands).filterMap (·.progress.call?))
    ((b.turnsFrom outer.length commands).flatMap (·.receipts))
    (((b.turnsFrom outer.length commands).map (·.progress)).getLastD (.calling call))

/-- An account goes on from where a step leaves the post. -/
theorem account_of_rests {e : ε} {outer : List (Frame ε)} {agenda : List Recipient}
    {ys : List (Receipt ε)} {r : Logged (Bus ε) (Progress ε)} (h : Rests e outer agenda ys r)
    (he : ∀ y ∈ ys, y.event = e) (commands : List (Command ε))
    (later : ∀ f call, r.state.running = f :: outer → f.event = e →
      f.current.call? e = some call → r.state.AccountFrom e outer commands f.left call) :
    Account e outer (r.state.run commands).state.running agenda
      (ys.filterMap Receipt.call? ++ (r.value.call?.toList ++
        (r.state.turnsFrom outer.length commands).filterMap (·.progress.call?)))
      (ys ++ (r.state.turnsFrom outer.length commands).flatMap (·.receipts))
      (((r.state.turnsFrom outer.length commands).map (·.progress)).getLastD r.value) := by
  cases h with
  | ended ending hv hr hends =>
    rw [turnsFrom_of_le (Nat.le_of_eq (congrArg List.length hr)), hv]
    refine ⟨?_, ?_, ?_⟩
    · rw [List.flatMap_nil, List.append_nil]
      exact .ended hends
    · rwa [List.flatMap_nil, List.append_nil]
    · rw [List.flatMap_nil, List.append_nil]
      rfl
  | waits f call hv hr hf hc hh ho =>
    rw [hv, ho]
    exact (later f call hr hf hc).prepend hh he

/-- **The turns of a post that waits for a call add up**, whatever else is done between them. -/
theorem account_turnsFrom (commands : List (Command ε)) {b : Bus ε} (inner : List (Frame ε))
    {outer : List (Frame ε)} {f : Frame ε} (hb : b.running = inner ++ f :: outer) {e : ε}
    (he : f.event = e) {call : Call ε} (hc : f.current.call? e = some call) :
    b.AccountFrom e outer commands f.left call := by
  induction commands generalizing b inner f call with
  | nil => exact ⟨.waits hb he hc harmless_nil rfl, fun _ hx => absurd hx List.not_mem_nil, rfl⟩
  | cons c rest ih =>
    rw [AccountFrom]
    by_cases hown : c.isResume = false ∨ inner ≠ []
    · obtain ⟨hturns, inner', hb'⟩ := turnsFrom_of_other hb hown rest
      rw [hturns]
      exact ih inner' hb' he hc
    · obtain ⟨o, rfl, rfl⟩ := own_turn hown
      have haccount := account_of_rests (he ▸ rests_resume hb o)
        (fun _ hy => (Frame.event_of_mem_receipts hy).trans he) rest
        fun f' call' hr hf hc' => ih [] hr hf hc'
      have hcall : f.call? = some call := by rw [Frame.call?, he, hc]
      rw [turnsFrom_of_own hb, List.map_cons, List.getLastD_cons, filterMap_cons_toList]
      rwa [Frame.calls_receipts, hcall] at haccount

/-- **The turns of a post add up.**  It goes through the agenda that it began with, in order, to
the first fatal error: what is done between its turns, by whomever, changes nothing about that. -/
theorem account_turns (b : Bus ε) (hb : b.backlog.Sound) (e : ε) (order : Arrangement Route)
    (commands : List (Command ε)) : b.Accounts e order commands (b.agenda e order) := by
  have hrests := b.rests_post e order (Backlog.getD_batch?_refresh hb (typeOf e))
  have haccount := account_of_rests hrests (fun _ hy => event_of_mem_passed hy) commands
    fun f call hr hf hc => account_turnsFrom commands [] hr hf hc
  rw [calls_passed, List.nil_append] at haccount
  rw [Accounts, turns, List.map_cons, List.getLastD_cons, filterMap_cons_toList]
  exact haccount

end Bus

end PubSub
