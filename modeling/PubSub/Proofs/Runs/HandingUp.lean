import PubSub.Proofs.OneShots.Leavings
import PubSub.Showcase.Loot

/-!
# Proofs/Runs/HandingUp — a fatal error is handed from post to post

    post ▸ h₁ ┄ post ▸ h₂ ┄ … ┄ post ▸ hₙ        n posts nested, each at a call
                                      │ fatal text
    aborted ◂ … ◂ aborted ◂ aborted ◂─┘          each callback returns the error of its post

The callback of a post may post itself, and may return the error that its own post ends in.  A fatal
error that is handed up so ends every post on its way, with the message of the one before for its
text.  In between the callbacks may do what they like.
-/

namespace PubSub

namespace FatalError

/-- What the message of an error says in front of its text. -/
def lead (handler : String) (event : EventType) : String :=
  "fatal error in `" ++ handler ++ "` while dispatching " ++ event.shortName ++ ": "

theorem message_eq (e : FatalError) : e.message = lead e.handler e.event ++ e.error := rfl

end FatalError

/-- How a callback ends that hands up what its post has come to. -/
def Progress.passedOn {ε : Type} : Progress ε → Outcome
  | .finished (.aborted e) => .faulted (.error e.toHandlerError)
  | .finished (.unwound p) => .faulted (.panic p)
  | _ => .returned true

variable {ε : Type} [EventValue ε]

namespace Frame

/-- Whether the callback that is called can return an error: one that runs once cannot. -/
def mayFail (f : Frame ε) : Bool :=
  match f.stage with
  | .oneShot s _ _ =>
    match s.task with
    | .untilDone _ => true
    | .once _ | .deliver _ => false
  | .handler _ => true

/-- The error that the post ends in when its callback returns a fatal one. -/
def abort (f : Frame ε) (text : String) : FatalError := ⟨f.current.name, typeOf f.event, text⟩

/-- What is said of the post when its error is handed up. -/
def lead (f : Frame ε) : String := FatalError.lead f.current.name (typeOf f.event)

/-- The text that an error has when it was handed up from one post to the next, innermost first. -/
def handedUp (text : String) (inner : List (Frame ε)) : String :=
  String.join (inner.reverse.map lead) ++ text

omit [EventValue ε] in
/-- **Errors count**, of handlers and of one-shots alike. -/
theorem verdict_of_mayFail {f : Frame ε} (h : f.mayFail = true) (e : HandlerError) :
    f.verdict (.faulted (.error e)) = .faulted (.error e) := by
  unfold mayFail at h
  cases hs : f.stage with
  | handler r => rw [verdict, hs]
  | oneShot s rest size =>
    rw [verdict, hs]
    rw [hs] at h
    cases htask : s.task with
    | once c => simp [htask] at h
    | deliver mailbox => simp [htask] at h
    | untilDone c => simp [OneShot.verdict, htask]

/-- The text of a post in whose callback nobody posted is that of its own error. -/
theorem handedUp_nil (text : String) : handedUp text ([] : List (Frame ε)) = text :=
  String.empty_append

/-- **An error that has come up through one post more.** -/
theorem handedUp_cons (text : String) (f : Frame ε) (inner : List (Frame ε)) :
    handedUp text (f :: inner) = handedUp (f.abort text).message inner := by
  have hmessage : (f.abort text).message = f.lead ++ text := FatalError.message_eq _
  rw [handedUp, handedUp, hmessage, List.reverse_cons, List.map_append, String.join_append,
    List.map_singleton, String.join_cons, String.join_nil, String.append_empty,
    String.append_assoc]

end Frame

namespace Bus

/-! ## What a callback does on its own account -/

/-- Commands that leave the posts alone that are running, `depth` of them: they end no calls but
those of posts that they have begun, and leave none of these behind. -/
def Aside (depth : Nat) (b : Bus ε) : List (Command ε) → Prop
  | [] => b.running.length = depth
  | c :: rest => (c.isResume = true → depth < b.running.length) ∧ (b.exec c).state.Aside depth rest

variable {b : Bus ε} {inner outer : List (Frame ε)} {f : Frame ε}

/-- No command of them is a turn of a post that was running before. -/
theorem Aside.isResume_or_ne_nil {c : Command ε} {rest : List (Command ε)}
    (h : b.Aside outer.length (c :: rest)) (hb : b.running = inner ++ outer) :
    c.isResume = false ∨ inner ≠ [] := by
  cases hc : c.isResume with
  | false => exact .inl rfl
  | true =>
    have hlength : outer.length < (inner ++ outer).length := hb ▸ h.1 hc
    refine .inr ?_
    rintro rfl
    exact Nat.lt_irrefl _ hlength

/-- **The stack afterwards is the one before.** -/
theorem Aside.running {commands : List (Command ε)}
    (h : b.Aside (f :: outer).length commands) (hb : b.running = inner ++ f :: outer) :
    (b.run commands).state.running = f :: outer := by
  induction commands generalizing b inner with
  | nil =>
    have hlength : (inner ++ f :: outer).length = (f :: outer).length := hb ▸ h
    have hinner : inner = [] := List.length_eq_zero_iff.1 (by simpa using hlength)
    rw [run_nil, hb, hinner, List.nil_append]
  | cons c rest ih =>
    obtain ⟨-, inner', hb'⟩ := turnsFrom_of_other hb (h.isResume_or_ne_nil hb) rest
    exact ih h.2 hb'

/-- **A post that was running before has no turn among the commands.** -/
theorem Aside.turnsFrom {commands : List (Command ε)} {before : List (Frame ε)} {g : Frame ε}
    {below : List (Frame ε)} (h : b.Aside (f :: outer).length commands)
    (hb : b.running = inner ++ f :: outer) (hg : f :: outer = before ++ g :: below)
    (later : List (Command ε)) :
    b.turnsFrom below.length (commands ++ later) =
      (b.run commands).state.turnsFrom below.length later := by
  induction commands generalizing b inner with
  | nil => rfl
  | cons c rest ih =>
    have hown := h.isResume_or_ne_nil hb
    have hown' : c.isResume = false ∨ inner ++ before ≠ [] :=
      hown.imp_right fun hne hnil => hne (List.append_eq_nil_iff.1 hnil).1
    have hbelow : b.running = (inner ++ before) ++ g :: below := by
      rw [hb, hg, List.append_assoc]
    obtain ⟨-, inner', hb'⟩ := turnsFrom_of_other hb hown rest
    rw [List.cons_append, (turnsFrom_of_other hbelow hown' (rest ++ later)).1]
    exact ih h.2 hb'

/-! ## Callbacks that hand up what they get -/

/-- `n` callbacks end, one inside the other: the innermost with `o`, and each of the others with
what the post it has begun came to, once it has done what it likes. -/
inductive Unwinds : Bus ε → Outcome → Nat → List (Command ε) → Prop
  | outermost (b : Bus ε) (o : Outcome) : Unwinds b o 1 [.resume o]
  | inside {b : Bus ε} {o : Outcome} {n : Nat} {aside rest : List (Command ε)}
      (own : (b.resume o).state.Aside (b.resume o).state.running.length aside)
      (others : Unwinds ((b.resume o).state.run aside).state (b.resume o).value.passedOn n rest) :
    Unwinds b o (n + 1) (.resume o :: (aside ++ rest))

/-- The post of `f`, which lies on `outer`, is ended by a fatal error of its callback: nobody else
is attended to, it is over with that error, and who was not visited is pending again. -/
structure StopsAt (b : Bus ε) (c : Command ε) (f : Frame ε) (outer : List (Frame ε))
    (text : String) : Prop where
  before : b.running = f :: outer
  turn : b.turn c = ⟨[⟨f.event, f.current, .faulted (.error (.fatal text))⟩],
    .finished (.aborted (f.abort text))⟩
  after : (b.exec c).state.running = outer
  pending : ∀ t, (b.exec c).state.backlog.waiting t =
    b.backlog.waiting t ++ if typeOf f.event = t then f.unvisited else []

/-- The turn of the innermost post when its call ends. -/
theorem turn_resume (hb : b.running = f :: outer) (o : Outcome) :
    b.turn (.resume o) = ⟨f.receipts o, (b.resume o).value⟩ := by
  unfold turn receipts
  rw [hb]
  rfl

/-- **A fatal error of its callback ends a post**, whether the callback is a handler or a one-shot
that may fail. -/
theorem Reachable.stopsAt (h : b.Reachable) (hb : b.running = f :: outer) (hf : f.mayFail = true)
    (text : String) :
    b.StopsAt (.resume (.faulted (.error (.fatal text)))) f outer text := by
  have hverdict := f.verdict_of_mayFail hf (.fatal text)
  have hreceipts : f.receipts (.faulted (.error (.fatal text))) =
      [⟨f.event, f.current, .faulted (.error (.fatal text))⟩] := by
    rw [Frame.receipts, hverdict]
    rfl
  obtain ⟨b₁, ⟨text', ht, hback, hr⟩ | ⟨ht, -, -⟩⟩ :=
    resume_cases hb (.faulted (.error (.fatal text)))
  · obtain rfl : text = text' := by
      rw [hverdict] at ht
      exact Option.some.inj ht
    refine ⟨hb, ?_, ?_, fun t => ?_⟩
    · rw [turn_resume hb, hreceipts, hr, Logged.value_after, finish_eq]
      rfl
    · change (b.resume _).state.running = outer
      rw [hr, Logged.state_after, running_finish, hback.running]
    · change (b.resume _).state.backlog.waiting t = _
      by_cases htype : typeOf f.event = t
      · subst htype
        rw [if_pos rfl, waiting_resume h.sound hb, ht]
        rfl
      · rw [if_neg htype, List.append_nil, waiting_resume_of_ne h.sound hb htype]
  · rw [hverdict] at ht
    cases ht

theorem StopsAt.value {o : Outcome} {text : String} (h : b.StopsAt (.resume o) f outer text) :
    (b.resume o).value = .finished (.aborted (f.abort text)) := congrArg Turn.progress h.turn

/-- One of the commands ends the post of `f`, which lies on `outer`, and is the only turn that the
post has among them. -/
def StoppedBy (b : Bus ε) (commands : List (Command ε)) (f : Frame ε) (outer : List (Frame ε))
    (text : String) : Prop :=
  ∃ first o later, commands = first ++ .resume o :: later ∧
    (b.run first).state.StopsAt (.resume o) f outer text ∧
    b.turnsFrom outer.length commands = [(b.run first).state.turn (.resume o)]

/-- A post that is ended by the first command has no other turn. -/
theorem StopsAt.stoppedBy {o : Outcome} {text : String} (h : b.StopsAt (.resume o) f outer text)
    (later : List (Command ε)) : b.StoppedBy (.resume o :: later) f outer text := by
  refine ⟨[], o, later, rfl, h, ?_⟩
  rw [turnsFrom_of_own h.before, turnsFrom_of_le (Nat.le_of_eq (congrArg List.length h.after)),
    run_nil, turn_resume h.before]

/-- **A post that lies further down is ended by the commands that come after.** -/
theorem StoppedBy.later {o : Outcome} {g h : Frame ε} {rest below before : List (Frame ε)}
    {aside commands : List (Command ε)} {text : String} (hb : b.running = f :: h :: rest)
    (hrunning : (b.resume o).state.running = h :: rest) (hbelow : h :: rest = before ++ g :: below)
    (hown : (b.resume o).state.Aside (h :: rest).length aside)
    (hlater : ((b.resume o).state.run aside).state.StoppedBy commands g below text) :
    b.StoppedBy (.resume o :: (aside ++ commands)) g below text := by
  obtain ⟨first, o', later, rfl, hstops, hturns⟩ := hlater
  have hstate : (b.run (.resume o :: (aside ++ first))).state =
      (((b.resume o).state.run aside).state.run first).state := state_run_append _ aside first
  have hrest : b.running = (f :: before) ++ g :: below := by rw [hb, hbelow]; rfl
  have hfirst := (turnsFrom_of_other hrest (c := .resume o) (.inr (List.cons_ne_nil _ _))
    (aside ++ (first ++ .resume o' :: later))).1
  have hnone : (b.resume o).state.running = [] ++ h :: rest := hrunning
  refine ⟨.resume o :: (aside ++ first), o', later, by simp, hstate ▸ hstops, ?_⟩
  rw [hfirst, hstate, ← hturns]
  exact hown.turnsFrom hnone hbelow _

/-- The answer to the last command comes last. -/
theorem getLast?_value_run_append {c : Command ε} {commands later : List (Command ε)}
    {reply : Reply ε}
    (h : (((b.exec c).state.run commands).state.run later).value.getLast? = some reply) :
    (b.run (c :: (commands ++ later))).value.getLast? = some reply := by
  have hvalue : (b.run (c :: (commands ++ later))).value =
      ((b.exec c).value :: ((b.exec c).state.run commands).value) ++
        (((b.exec c).state.run commands).state.run later).value :=
    congrArg ((b.exec c).value :: ·) (value_run_append _ commands later)
  rw [hvalue, List.getLast?_append, h, Option.some_or]

/-- The posts of `chain`, the innermost first, are all ended by the commands, each with the text that
has come up to it, and the outermost by the last command. -/
structure HandsUp (b : Bus ε) (commands : List (Command ε)) (chain outer : List (Frame ε))
    (text : String) : Prop where
  ended : (b.run commands).state.running = outer
  stopped : ∀ {inner f below}, chain = inner ++ f :: below →
    b.StoppedBy commands f (below ++ outer) (Frame.handedUp text inner)
  last : ∀ {inner f}, chain = inner ++ [f] → (b.run commands).value.getLast? =
    some (.progress (.finished (.aborted (f.abort (Frame.handedUp text inner)))))

/-- One post is ended when its call ends. -/
theorem StopsAt.handsUp {o : Outcome} {text : String} (h : b.StopsAt (.resume o) f outer text) :
    b.HandsUp [.resume o] [f] outer text := by
  have hone : ∀ {inner g below}, [f] = inner ++ g :: below → inner = [] ∧ f = g ∧ below = [] := by
    intro inner g below hsplit
    cases inner with
    | nil => exact ⟨rfl, (List.cons.inj hsplit).1, (List.cons.inj hsplit).2.symm⟩
    | cons => simp at hsplit
  refine ⟨h.after, fun hsplit => ?_, fun hsplit => ?_⟩
  · obtain ⟨rfl, rfl, rfl⟩ := hone hsplit
    rw [Frame.handedUp_nil]
    exact h.stoppedBy []
  · obtain ⟨rfl, rfl, -⟩ := hone hsplit
    rw [Frame.handedUp_nil]
    exact congrArg (fun p => some (Reply.progress p)) h.value

/-- **One post more is ended before the others**, when the next callback returns its error. -/
theorem StopsAt.handsUp_cons {o : Outcome} {text : String} {g : Frame ε} {rest : List (Frame ε)}
    {aside commands : List (Command ε)} (h : b.StopsAt (.resume o) f (g :: (rest ++ outer)) text)
    (hown : (b.resume o).state.Aside (g :: (rest ++ outer)).length aside)
    (hothers : ((b.resume o).state.run aside).state.HandsUp commands (g :: rest) outer
      (f.abort text).message) :
    b.HandsUp (.resume o :: (aside ++ commands)) (f :: g :: rest) outer text where
  ended := by
    rw [← hothers.ended]
    exact congrArg Bus.running (state_run_append _ aside commands)
  stopped {inner f' below} hsplit := by
    cases inner with
    | nil =>
      obtain ⟨rfl, rfl⟩ := List.cons.inj hsplit
      rw [Frame.handedUp_nil]
      exact h.stoppedBy _
    | cons f₀ inner =>
      obtain ⟨rfl, hsplit'⟩ : f = f₀ ∧ g :: rest = inner ++ f' :: below := List.cons.inj hsplit
      have hbelow : g :: (rest ++ outer) = inner ++ f' :: (below ++ outer) := by
        rw [← List.cons_append, hsplit', List.append_assoc, List.cons_append]
      rw [Frame.handedUp_cons]
      exact .later h.before h.after hbelow hown (hothers.stopped hsplit')
  last {inner f'} hsplit := by
    cases inner with
    | nil => simp at hsplit
    | cons f₀ inner =>
      obtain ⟨rfl, hsplit'⟩ : f = f₀ ∧ g :: rest = inner ++ [f'] := List.cons.inj hsplit
      rw [Frame.handedUp_cons]
      exact getLast?_value_run_append (hothers.last hsplit')

theorem Unwinds.pos {n : Nat} {o : Outcome} {commands : List (Command ε)}
    (h : b.Unwinds o n commands) : 0 < n := by
  cases h with
  | outermost => exact Nat.one_pos
  | inside => exact Nat.succ_pos _

/-- **Every post of a chain is ended when its callback hands up what it gets.** -/
theorem Unwinds.handsUp {n : Nat} {o : Outcome} {commands : List (Command ε)}
    (h : b.Unwinds o n commands) (hb : b.Reachable) {text : String}
    (ho : o = .faulted (.error (.fatal text))) {chain : List (Frame ε)} (hn : chain.length = n)
    (hrunning : b.running = chain ++ outer) (hfail : ∀ f ∈ chain, f.mayFail = true) :
    b.HandsUp commands chain outer text := by
  induction h generalizing chain text with
  | outermost b o =>
    subst ho
    obtain ⟨f, rfl⟩ := List.length_eq_one_iff.1 hn
    exact (hb.stopsAt hrunning (hfail f List.mem_cons_self) text).handsUp
  | @inside b o n aside commands own others ih =>
    subst ho
    obtain ⟨f, chain, rfl⟩ := List.exists_cons_of_length_eq_add_one hn
    have hlength : chain.length = n := Nat.succ.inj hn
    obtain ⟨g, rest, rfl⟩ := List.exists_cons_of_length_pos (hlength.symm ▸ others.pos)
    have hstops : b.StopsAt (.resume (.faulted (.error (.fatal text)))) f (g :: (rest ++ outer))
        text := hb.stopsAt hrunning (hfail f List.mem_cons_self) text
    have hafter : (b.resume (.faulted (.error (.fatal text)))).state.running =
        [] ++ g :: (rest ++ outer) := hstops.after
    rw [hafter, List.nil_append] at own
    -- the next callback finds itself innermost, and returns the error of this post
    have hpassed : (b.resume (.faulted (.error (.fatal text)))).value.passedOn =
        .faulted (.error (.fatal (f.abort text).message)) := by rw [hstops.value]; rfl
    exact hstops.handsUp_cons own (ih ((hb.exec (.resume _)).run aside) hpassed hlength
      (own.running hafter) fun f' hf' => hfail f' (List.mem_cons_of_mem f hf'))

/-- **A fatal error that is handed up ends every post on its way.**  In any reachable state, let the
posts of `chain` be running, the innermost first, each at a callback that may fail; and let the
innermost callback return a fatal error and every other one, once it has done what it likes, the
error of the post that it began.  Then each of these posts is ended at its callback: it has no other
turn and calls nobody else, whom it had not visited is pending again, and its error is fatal, in the
name of its callback.  The text is put together from what is said of the posts inside it, the
outermost of them first, and ends in the text of the innermost callback.  The last answer is that
the outermost post is aborted so, and the posts it was nested in are where they were. -/
theorem fatal_handed_up (hb : b.Reachable) {chain : List (Frame ε)}
    (hrunning : b.running = chain ++ outer) (hfail : ∀ f ∈ chain, f.mayFail = true) {text : String}
    {commands : List (Command ε)}
    (hcommands : b.Unwinds (.faulted (.error (.fatal text))) chain.length commands) :
    (∀ inner f below, chain = inner ++ f :: below →
        b.StoppedBy commands f (below ++ outer)
          (String.join (inner.reverse.map fun g => FatalError.lead g.current.name (typeOf g.event))
            ++ text)) ∧
      (∀ inner f, chain = inner ++ [f] → (b.run commands).value.getLast? =
        some (.progress (.finished (.aborted ⟨f.current.name, typeOf f.event,
          String.join (inner.reverse.map fun g => FatalError.lead g.current.name (typeOf g.event))
            ++ text⟩)))) ∧
      (b.run commands).state.running = outer := by
  have hup := hcommands.handsUp hb rfl rfl hrunning hfail
  exact ⟨fun inner f below => hup.stopped, fun inner f => hup.last, hup.ended⟩

/-- A handler for items has posted a spawn, its first one-shot a despawn, and the handler for despawns
fails fatally.  The one-shot queues another before it returns the error.  The despawn, the spawn and
the item are all aborted, and the second one-shot for spawns is pending again. -/
theorem fatal_handed_up_of_loot :
    let item := Showcase.Loot.Event.itemType
    let spawned := Showcase.Loot.Event.spawnedType
    let despawned := Showcase.Loot.Event.despawnedType
    let b := ((new {} : Bus Showcase.Loot.Event).run
      [.register ⟨⟨0⟩, "tracker"⟩ [⟨item, "on_item", ⟨0⟩⟩, ⟨despawned, "on_despawned", ⟨1⟩⟩],
        .onceOrMore spawned ⟨2⟩, .onceOrMore spawned ⟨3⟩, .post (.item 1) .listed,
        .post (.spawned 1 0 0) .listed, .post (.despawned 1) .listed]).state
    let lost : Outcome := .faulted (.error (.fatal "lost"))
    let b₁ := ((b.resume lost).state.run [.once item ⟨4⟩]).state
    let again := (b.resume lost).value.passedOn
    let commands : List (Command Showcase.Loot.Event) :=
      [.resume lost, .once item ⟨4⟩, .resume again, .resume (b₁.resume again).value.passedOn]
    b.Reachable ∧ b.running.length = 3 ∧ (∀ f ∈ b.running, f.mayFail = true) ∧
      b.Unwinds lost b.running.length commands ∧
      (b.run commands).value.getLast? = some (.progress (.finished (.aborted ⟨"on_item", item,
        FatalError.lead "one-shot" spawned ++ (FatalError.lead "on_despawned" despawned ++
          "lost")⟩))) ∧
      (b.run commands).state.backlog.waiting spawned = [⟨1, spawned, .untilDone ⟨3⟩⟩] ∧
      (b.run commands).state.running = [] := by
  intro item spawned despawned b lost b₁ again commands
  have hb : b.Reachable := ⟨{}, _, rfl⟩
  have hlength : b.running.length = 3 := by decide
  have hfail : ∀ f ∈ b.running, f.mayFail = true := by decide
  have hchain : b.running =
      [⟨.despawned 1, .handler ⟨⟨⟨⟨0⟩, "tracker"⟩, despawned, "on_despawned", ⟨1⟩, []⟩, none⟩, []⟩,
        ⟨.spawned 1 0 0, .oneShot ⟨0, spawned, .untilDone ⟨2⟩⟩ [⟨1, spawned, .untilDone ⟨3⟩⟩] 2,
          []⟩] ++
        [⟨.item 1, .handler ⟨⟨⟨⟨0⟩, "tracker"⟩, item, "on_item", ⟨0⟩, []⟩, none⟩, []⟩] := by decide
  have hown : ∀ b : Bus Showcase.Loot.Event, b.Aside b.running.length [.once item ⟨4⟩] :=
    fun b => ⟨nofun, rfl⟩
  have hnothing : ∀ b : Bus Showcase.Loot.Event, b.Aside b.running.length [] := fun _ => rfl
  have hunwinds : ∀ (b : Bus Showcase.Loot.Event) (o : Outcome), b.Unwinds o 2
      [.resume o, .resume (b.resume o).value.passedOn] := fun _ _ =>
    .inside (hnothing _) (.outermost _ _)
  have hcommands : b.Unwinds lost b.running.length commands := by
    rw [hlength]
    exact .inside (hown _) (hunwinds _ _)
  obtain ⟨-, hlast, hover⟩ := fatal_handed_up hb (List.append_nil _).symm hfail hcommands
  refine ⟨hb, hlength, hfail, hcommands, ?_, ?_, hover⟩
  · have htext : ∀ s t u : String, String.join [s, t] ++ u = s ++ (t ++ u) := fun s t u => by
      rw [String.join_cons, String.join_cons, String.join_nil, String.append_empty,
        String.append_assoc]
    rw [hlast _ _ hchain]
    exact congrArg (fun error => some (Reply.progress (.finished (.aborted ⟨_, _, error⟩))))
      (htext _ _ _)
  · decide

end Bus

end PubSub
