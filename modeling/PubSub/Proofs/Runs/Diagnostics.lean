import PubSub.Proofs.Directory.Census
import PubSub.Proofs.Post.Dispatch
import PubSub.Proofs.Post.Waits
import PubSub.Proofs.Runs.Log
import PubSub.Showcase.Loot

/-!
# Proofs/Runs/Diagnostics — what a bus says of its subscriptions is so

    past ──▸ live keys, their owners, the types they cover
               │          │                │
    census   subscriptions  owners      eventTypes      isRegistered, hasSubscribers
               │                                          ▲
    log      inserted − removed                         calls of posts

Whoever asks a bus how much is registered, or whether anything is, is answered from tables and
caches.  The answers are about the past alone: they are the numbers of what is live after it, they
balance with what the log says was inserted and removed, and a type has subscribers just when posts
of it call handlers.
-/

namespace PubSub

/-! ## What the log says came and went -/

namespace Record

/-- How many subscriptions a record says were inserted. -/
def inserted : Record → Nat
  | registered _ n => n
  | _ => 0

/-- How many subscriptions a record says were removed. -/
def removed : Record → Nat
  | unregistered _ n => n
  | _ => 0

/-- **Where nothing came or went, nothing is said to have.** -/
theorem sums_of_quiet {log : List Record} (h : ∀ x ∈ log, x.isOfMove = false) :
    (log.map inserted).sum = 0 ∧ (log.map removed).sum = 0 := by
  refine ⟨List.sum_eq_zero fun n hn => ?_, List.sum_eq_zero fun n hn => ?_⟩
  · obtain ⟨x, hx, rfl⟩ := List.mem_map.1 hn
    have hquiet := h x hx
    cases x with
    | registered | unregistered => cases hquiet
    | _ => rfl
  · obtain ⟨x, hx, rfl⟩ := List.mem_map.1 hn
    have hquiet := h x hx
    cases x with
    | registered | unregistered => cases hquiet
    | _ => rfl

end Record

variable {ε : Type} [EventValue ε]

namespace Bus

variable {b : Bus ε}

/-- A step is balanced if what it says of comings and goings accounts for the subscriptions that
there are after it. -/
def Balanced (before after : Bus ε) (log : List Record) : Prop :=
  before.census.subscriptions + (log.map Record.inserted).sum =
    after.census.subscriptions + (log.map Record.removed).sum

omit [EventValue ε] in
theorem balanced_register (h : b.directory.Indexed) (o : Owner) (is : List Interest) :
    Balanced b (b.register o is).state (b.register o is).log := by
  obtain ⟨hinserted, hremoved⟩ := Record.sums_of_quiet fun x hx => by
    obtain ⟨name, rfl⟩ := Directory.eq_of_mem_log_register (d := b.directory) hx
    rfl
  rw [Balanced, state_register]
  unfold register
  dsimp only
  cases hv : (b.directory.register o is).value with
  | ok n =>
    have hcount := h.length_subscriptions_register o hv
    rw [List.map_append, List.map_append, List.sum_append, List.sum_append, hinserted, hremoved]
    change b.directory.subscriptions.length + (0 + n) =
      (b.directory.register o is).state.subscriptions.length + 0
    omega
  | error e =>
    rw [List.map_append, List.map_append, List.sum_append, List.sum_append, hinserted, hremoved,
      Directory.state_register_of_error hv]
    rfl

omit [EventValue ε] in
theorem balanced_unregister (h : b.directory.Coherent) (o : Owner) :
    Balanced b (b.unregister o).state (b.unregister o).log := by
  have hcount := h.length_subscriptions_unregister o.id
  rw [Balanced, unregister]
  dsimp only
  change b.directory.subscriptions.length + _ =
    (b.directory.unregister o.id).1.subscriptions.length + _
  by_cases hn : 0 < (b.directory.unregister o.id).2
  · rw [if_pos hn]
    change _ + 0 = _ + (b.directory.unregister o.id).2
    omega
  · rw [if_neg hn]
    change _ + 0 = _ + 0
    omega

/-- A command by which nothing comes or goes is balanced. -/
theorem balanced_of_quiet {c : Command ε} (hc : c.moves = false) :
    Balanced b (b.exec c).state (b.exec c).log := by
  obtain ⟨hinserted, hremoved⟩ := Record.sums_of_quiet fun x => isOfMove_of_mem_log (b := b) hc
  have hsame := Directory.subscriptions_congr (holdings_exec (b := b) hc)
  rw [Balanced, hinserted, hremoved]
  exact congrArg (·.length + 0) hsame.symm

/-- **A command is balanced.** -/
theorem balanced_exec (h : b.directory.Coherent) (c : Command ε) :
    Balanced b (b.exec c).state (b.exec c).log := by
  cases c with
  | register o is => exact balanced_register h.toIndexed o is
  | unregister o => exact balanced_unregister h o
  | _ => exact balanced_of_quiet rfl

/-- **The log of a run accounts for the subscriptions that there are.** -/
theorem balanced_run (config : Config) (commands : List (Command ε)) :
    let run := (new config : Bus ε).run commands
    (run.log.map Record.inserted).sum =
      (run.log.map Record.removed).sum + run.state.census.subscriptions := by
  induction commands using List.reverseRecOn with
  | nil => rfl
  | append_singleton commands c ih =>
    have hb : ((new config : Bus ε).run commands).state.Reachable := ⟨config, commands, rfl⟩
    have hstep := balanced_exec hb.coherent c
    rw [Balanced] at hstep
    dsimp only at ih ⊢
    rw [state_run_concat, log_run_concat, List.map_append, List.map_append, List.sum_append,
      List.sum_append]
    omega

end Bus

/-! ## Whether a post calls a handler -/

/-- **A post that neither a fatal one-shot nor a panic has stopped went to a handler just when there
was one to go to.** -/
theorem Ends.exists_handler_iff {e : ε} {agenda : List Recipient} {xs : List (Receipt ε)}
    {ending : Ending} (h : Ends e agenda xs ending) (hunwound : ∀ p, ending ≠ .unwound p)
    (hfatal : ∀ x ∈ xs, ∀ s, x.recipient = .oneShot s → x.fatal? = none) :
    (∃ r, .handler r ∈ agenda) ↔ ∃ x ∈ xs, ∃ r, x.recipient = .handler r := by
  cases h with
  | unwound ho hh hp => exact absurd rfl (hunwound _)
  | completed ho hh =>
    rw [ho]
    constructor
    · rintro ⟨r, hr⟩
      obtain ⟨x, hx, hxr⟩ := List.mem_map.1 hr
      exact ⟨x, hx, r, hxr⟩
    · rintro ⟨x, hx, r, hxr⟩
      exact ⟨r, hxr ▸ List.mem_map_of_mem hx⟩
  | @aborted earlier last left error hd ho hh hf =>
    -- what was fatal was no one-shot, so it was a handler
    have hlast : last ∈ xs := hd ▸ List.mem_append_right _ List.mem_cons_self
    obtain ⟨r, hr⟩ : ∃ r, last.recipient = .handler r := by
      cases hrecipient : last.recipient with
      | handler r => exact ⟨r, rfl⟩
      | oneShot s =>
        rw [hfatal last hlast s hrecipient] at hf
        cases hf
    refine iff_of_true ⟨r, ?_⟩ ⟨last, hlast, r, hr⟩
    rw [ho, ← hr]
    exact List.mem_append_left _ (List.mem_map_of_mem hlast)

namespace Bus

/-- A post that is begun, and then let run, is over, and what ended it was neither a fatal one-shot
nor a panic of the code that sees its event as the parent's. -/
structure RunsThrough (b : Bus ε) (e : ε) (order : Arrangement Route)
    (during : List (Command ε)) : Prop where
  ended : ∃ ending, ((b.turns e order during).map (·.progress)).getLastD .idle =
    .finished ending ∧ ∀ p, ending ≠ .unwound p
  oneShots : ∀ x ∈ (b.turns e order during).flatMap (·.receipts), ∀ s,
    x.recipient = .oneShot s → x.fatal? = none

/-- A post calls some handler. -/
def CallsHandler (b : Bus ε) (e : ε) (order : Arrangement Route) (during : List (Command ε)) :
    Prop :=
  ∃ r seen, .handler r seen ∈ (b.turns e order during).filterMap (·.progress.call?)

variable {b : Bus ε}

/-- **A post that runs through calls a handler just when its type has a route.** -/
theorem RunsThrough.callsHandler_iff (hb : b.Reachable) {e : ε} {order : Arrangement Route}
    {during : List (Command ε)} (h : b.RunsThrough e order during) :
    b.CallsHandler e order during ↔ ∃ r, r ∈ b.directory.routesTo (typeOf e) := by
  have haccount := b.account_turns hb.sound.backlog e order during
  obtain ⟨ending, hending, hunwound⟩ := h.ended
  have hroutes : (∃ r, r ∈ b.directory.routesTo (typeOf e)) ↔
      ∃ r, .handler r ∈ b.agenda e order := by
    refine exists_congr fun r => ?_
    rw [hb.agenda_eq, ← (order.perm _).mem_iff]
    simp
  have hends : Ends e (b.agenda e order) ((b.turns e order during).flatMap (·.receipts))
      ending := by
    have hserves := haccount.serves
    rw [hending] at hserves
    cases hserves with
    | ended hends => exact hends
  have hcalls := haccount.calls_eq
  rw [hending] at hcalls
  change _ = _ ++ [] at hcalls
  rw [List.append_nil] at hcalls
  rw [hroutes, hends.exists_handler_iff hunwound h.oneShots, CallsHandler, hcalls]
  constructor
  · rintro ⟨r, seen, hr⟩
    obtain ⟨x, hx, hcall⟩ := List.mem_filterMap.1 hr
    exact ⟨x, hx, r, Recipient.eq_handler_of_call? hcall⟩
  · rintro ⟨x, hx, r, hr⟩
    obtain ⟨seen, hcall⟩ := hb.waits.call?_of_mem_turns hx hr
    exact ⟨r, seen, List.mem_filterMap.2 ⟨x, hx, hcall⟩⟩

/-! ## What a bus says of itself -/

/-- What is reported is reported by a step of a post, which has no deeds. -/
theorem deeds_of_report {c : Command ε} {report : Report}
    (h : .statistics report ∈ (b.exec c).log) : c.deeds (b.exec c).value = [] := by
  have hwrites := writes_of_mem_log h
  cases c with
  | post | resume => rfl
  | _ => cases hwrites

omit [EventValue ε] in
/-- **The text of a bus**, piece by piece. -/
theorem inspect_eq (b : Bus ε) :
    b.inspect =
      "EventBus \x7b owners: " ++ toString b.census.owners ++
        ", subscriptions: " ++ toString b.census.subscriptions ++
        ", event_types: " ++ toString b.census.eventTypes ++
        ", statistics: " ++ toString b.tally.isSome ++ " \x7d" := by
  have hfirst : "EventBus \x7b owners: " = "EventBus" ++ " \x7b " ++ ("owners" ++ ": ") := rfl
  have hlater : ", subscriptions: " = ", " ++ ("subscriptions" ++ ": ") ∧
      ", event_types: " = ", " ++ ("event_types" ++ ": ") ∧
      ", statistics: " = ", " ++ ("statistics" ++ ": ") := ⟨rfl, rfl, rfl⟩
  rw [hfirst, hlater.1, hlater.2.1, hlater.2.2]
  simp only [inspect, summary, Text.braced, List.map_cons, List.map_nil,
    String.intercalate_cons_cons, String.intercalate_singleton, String.append_assoc]

/-- **Diagnostics agree with what is live and with what posts do.**  After any run, however its
commands are nested in posts: a type has subscribers when a live subscription covers it, and then
posts that are begun now, and that neither a fatal one-shot nor a panicking view of the event stops,
call some handler, and otherwise none; an owner is registered when one of its keys is live; the
census tells the numbers of live keys, of their owners and of the types they cover, and so do the
reports that the next command may make; what the log says was inserted, less what it says was
removed, is the number of subscriptions; and the bus shows the census as it is. -/
theorem diagnostics_agree (config : Config) (commands : List (Command ε)) :
    let run := (new config : Bus ε).run commands
    let past := (new config : Bus ε).deeds commands
    let b := run.state
    (∀ t, (b.hasSubscribers t).value = true ↔ Deed.Covers past t) ∧
      (∀ e order during, b.RunsThrough e order during →
        ((b.hasSubscribers (typeOf e)).value = true ↔ b.CallsHandler e order during)) ∧
      (∀ o : Owner, b.isRegistered o = true ↔ ∃ k, Deed.Live past k ∧ k.owner = o.id) ∧
      b.census.Tells past ∧
      (run.log.map Record.inserted).sum =
        (run.log.map Record.removed).sum + b.census.subscriptions ∧
      (∀ c report, .statistics report ∈ (b.exec c).log →
        report.census.Tells ((new config : Bus ε).deeds (commands ++ [c]))) ∧
      b.inspect =
        "EventBus \x7b owners: " ++ toString b.census.owners ++
          ", subscriptions: " ++ toString b.census.subscriptions ++
          ", event_types: " ++ toString b.census.eventTypes ++
          ", statistics: " ++ toString b.tally.isSome ++ " \x7d" ∧
      b.summary =
        [("owners", toString b.census.owners), ("subscriptions", toString b.census.subscriptions),
          ("event_types", toString b.census.eventTypes),
          ("statistics", toString b.tally.isSome)] := by
  intro run past b
  have hb : b.Reachable := ⟨config, commands, rfl⟩
  have hco : b.directory.Coherent := hb.coherent
  have hre : b.directory.Reflects past := reflects_run config commands
  have htells : b.census.Tells past := hco.toIndexed.tells hre
  refine ⟨fun t => ?_, fun e order during h => ?_, fun o => ?_, htells,
    balanced_run config commands, fun c report h => ?_, b.inspect_eq, rfl⟩
  · exact (hco.value_hasSubscribers t).trans hre.mem_covered
  · rw [h.callsHandler_iff hb]
    change (!(b.directory.routesTo (typeOf e)).isEmpty) = true ↔ _
    rw [Bool.not_eq_true', List.isEmpty_eq_false_iff_exists_mem]
  · refine (hco.toIndexed.isRegistered_iff o.id).trans (exists_congr fun k => ?_)
    rw [hre.liveKeys_eq]
    rfl
  · have hnone : (new config : Bus ε).deeds (commands ++ [c]) = past := by
      rw [deeds, collect_concat]
      exact (congrArg (past ++ ·) (deeds_of_report h)).trans (List.append_nil past)
    rw [census_of_mem_log h, hnone]
    exact htells

/-- While a post of a spawn waits for a one-shot, a despawn has a subscriber, and a post of one that
is nested in it calls the handler of all items. -/
theorem diagnostics_agree_of_nested :
    let item := Showcase.Loot.Event.itemType
    let spawned := Showcase.Loot.Event.spawnedType
    let despawned := Showcase.Loot.Event.despawnedType
    let commands : List (Command Showcase.Loot.Event) :=
      [.declare item [spawned, despawned],
        .register ⟨⟨0⟩, "tracker"⟩ [⟨item, "on_item_event", ⟨0⟩⟩], .once spawned ⟨1⟩,
        .post (.spawned 1 0 0) .listed]
    let during : List (Command Showcase.Loot.Event) := [.resume (.returned true)]
    let b := ((new {} : Bus Showcase.Loot.Event).run commands).state
    b.running.length = 1 ∧ b.RunsThrough (.despawned 1) .listed during ∧
      (b.hasSubscribers despawned).value = true ∧
      b.CallsHandler (.despawned 1) .listed during := by
  intro item spawned despawned commands during b
  have hthrough : b.RunsThrough (.despawned 1) .listed during := by
    have hreceipts : (b.turns (.despawned 1) .listed during).flatMap (·.receipts) =
        [⟨.despawned 1, .handler (Subscription.fromChild ⟨⟨⟨0⟩, "tracker"⟩, item, "on_item_event",
          ⟨0⟩, [⟨spawned, item⟩, ⟨despawned, item⟩]⟩ ⟨despawned, item⟩), .returned true⟩] := by
      decide
    refine ⟨⟨.completed, by decide, fun _ => Ending.noConfusion⟩, fun x hx s hs => ?_⟩
    rw [hreceipts] at hx
    rw [List.mem_singleton.1 hx] at hs
    cases hs
  obtain ⟨-, hpost, -⟩ := diagnostics_agree {} commands
  have hsubscribers : (b.hasSubscribers despawned).value = true := by decide
  exact ⟨by decide, hthrough, hsubscribers, (hpost _ _ _ hthrough).1 hsubscribers⟩

end Bus

end PubSub
