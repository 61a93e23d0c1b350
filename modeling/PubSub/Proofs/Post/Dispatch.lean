import PubSub.Proofs.Directory.Deeds
import PubSub.Proofs.OneShots.LineUp
import PubSub.Proofs.Post.Turns

/-!
# Proofs/Post/Dispatch — whom a post goes to

    pending one-shots of the type ──▸ routes of the type, as arranged
    └────────────────────────── agenda ────────────────────────────┘

In a reachable state every route that is listed for a type carries the events of that type, and
every one-shot that is pending for it waits for just that type.  So the agenda of a post is what
was pending and what was registered when it began, each of them once, and the account of its turns
is an account of exactly these.  What was registered is told by the past (`routes_bijOn_live`).
-/

namespace PubSub

variable {ε : Type} [EventValue ε]

/-! ## What a route calls its handler with -/

/-- What the handler of a route is called with: the event itself on the way from the subscription's
own type, the event seen as the parent on the way from a child.  There is no call if seeing it so
panics. -/
def Route.Brings (r : Route) (e : ε) : Prop :=
  r.upcast = none ∧ (Recipient.handler r).call? e = some (.handler r e) ∨
    ∃ u, r.upcast = some u ∧
      ((∃ seen, EventValue.asParent u.parent e = .ok seen ∧
          (Recipient.handler r).call? e = some (.handler r seen)) ∨
        ∃ p, EventValue.asParent u.parent e = .error p ∧ (Recipient.handler r).panic? e = some p)

/-- **The routes of a subscription carry the events of the types they are for.** -/
theorem Subscription.Sound.brings_of_mem_routes {s : Subscription} (hs : s.Sound) {e : ε}
    {r : Route} (h : (typeOf e, r) ∈ s.routes) : r.Brings e := by
  rcases List.mem_cons.1 h with he | hc
  · obtain ⟨ht, rfl⟩ := Prod.mk.inj he
    refine .inl ⟨rfl, ?_⟩
    simp [Recipient.call?, Route.target?, direct, ht]
  · obtain ⟨u, hu, he⟩ := List.mem_map.1 hc
    obtain ⟨ht, rfl⟩ := Prod.mk.inj he
    have htarget : (s.fromChild u).target? e = some (EventValue.asParent u.parent e) :=
      if_pos ht.symm
    refine .inr ⟨u, rfl, ?_⟩
    cases hseen : EventValue.asParent u.parent e with
    | ok seen =>
      refine .inl ⟨seen, rfl, ?_⟩
      have htype : typeOf seen = s.event :=
        (EventValue.typeOf_asParent hseen).trans (hs.parent_eq u hu)
      rw [Recipient.call?, htarget, hseen]
      exact if_pos htype
    | error p =>
      refine .inr ⟨p, rfl, ?_⟩
      rw [Recipient.panic?, htarget, hseen]

theorem Route.Brings.carries {r : Route} {e : ε} (h : r.Brings e) : r.carries e = true := by
  rw [Route.carries]
  rcases h with ⟨-, h⟩ | ⟨u, -, ⟨seen, -, h⟩ | ⟨p, -, h⟩⟩
  · rw [h]
    rfl
  · rw [h]
    rfl
  · rw [h]
    exact Bool.or_true _

namespace Bus

variable {b : Bus ε}

/-- A route that posts of a type read is one of a live subscription that covers the type. -/
theorem Reachable.mem_routesTo (h : b.Reachable) {t : EventType} {r : Route} :
    r ∈ b.directory.routesTo t ↔ ∃ s ∈ b.directory.subscriptions, (t, r) ∈ s.routes := by
  rw [h.coherent.mem_routesTo]
  constructor
  · rintro ⟨k, s, hs, hr⟩
    exact ⟨s, h.coherent.mem_subscriptions.2 ⟨k, hs⟩, hr⟩
  · rintro ⟨s, hs, hr⟩
    obtain ⟨k, hk⟩ := h.coherent.mem_subscriptions.1 hs
    exact ⟨k, s, hk, hr⟩

theorem Reachable.brings_of_mem_routesTo (h : b.Reachable) {e : ε} {r : Route}
    (hr : r ∈ b.directory.routesTo (typeOf e)) : r.Brings e := by
  obtain ⟨s, hs, hroute⟩ := h.mem_routesTo.1 hr
  exact (h.coherent.sound_of_mem_subscriptions hs).brings_of_mem_routes hroute

/-! ## The agenda -/

/-- **The agenda of a post**: whoever is pending, then all routes as arranged. -/
theorem Reachable.agenda_eq (h : b.Reachable) (e : ε) (order : Arrangement Route) :
    b.agenda e order = (b.backlog.waiting (typeOf e)).map .oneShot ++
      (order.apply (b.directory.routesTo (typeOf e))).map .handler := by
  rw [agenda, recipientsOf, handlersOf, List.filter_eq_self.2]
  exact fun r hr => (h.brings_of_mem_routesTo ((order.perm _).mem_iff.1 hr)).carries

/-- **Nobody is on the agenda twice.** -/
theorem Reachable.nodup_agenda (h : b.Reachable) (e : ε) (order : Arrangement Route) :
    (b.agenda e order).Nodup := by
  rw [h.agenda_eq]
  have hwaiting := (h.ticketed.nodup (typeOf e)).sublist (List.sublist_append_left ..)
  have hroutes := (order.perm _).nodup_iff.2 (h.coherent.nodup_routesTo (typeOf e))
  refine List.Nodup.append (hwaiting.map fun s s' he => ?_) (hroutes.map fun r r' he => ?_) ?_
  · exact Recipient.oneShot.inj he
  · exact Recipient.handler.inj he
  · intro x hx hx'
    obtain ⟨s, -, rfl⟩ := List.mem_map.1 hx
    obtain ⟨r, -, he⟩ := List.mem_map.1 hx'
    cases he

/-- **A post accounts for whoever was pending and all routes as arranged.** -/
theorem Reachable.accounts (h : b.Reachable) (e : ε) (order : Arrangement Route)
    (during : List (Command ε)) :
    b.Accounts e order during ((b.backlog.waiting (typeOf e)).map .oneShot ++
      (order.apply (b.directory.routesTo (typeOf e))).map .handler) :=
  h.agenda_eq e order ▸ b.account_turns h.sound.backlog e order during

/-! ## Live subscriptions -/

/-- **Posts take the routes of the live subscriptions, each once.**  After any run, however its
commands are nested in posts, the routes to the handlers of a type are in one-to-one
correspondence with the live subscriptions that cover it: the type a subscription was entered for
and the children that were declared for it by then.  An event of the type itself is carried as it
is, one of a child is seen as the parent.

These are the routes that a post of the type begins with: whatever is done between its turns, it
accounts for the one-shots that were pending and then for these routes as they are arranged, and for
nobody else. -/
theorem routes_bijOn_live (config : Config) (commands : List (Command ε)) (t : EventType) :
    let b := ((new config : Bus ε).run commands).state
    let routes := b.directory.routesTo t
    let past := (new config : Bus ε).deeds commands
    routes.Nodup ∧
      Set.BijOn Route.subscription {r | r ∈ routes}
        {s | ∃ k, Deed.LiveAs past k s ∧ t ∈ s.covers} ∧
      (∀ r ∈ routes, r.upcast =
        if t = r.subscription.event then none else some ⟨t, r.subscription.event⟩) ∧
      (∀ k, (Deed.Live past k ↔ ∃! s, Deed.LiveAs past k s) ∧
        ∀ s, Deed.LiveAs past k s → s.key = k ∧ s.covers.Nodup) ∧
      ∀ e order during, typeOf e = t → b.Accounts e order during
        ((b.backlog.waiting t).map .oneShot ++ (order.apply routes).map .handler) := by
  intro b routes past
  have hb : b.Reachable := ⟨config, commands, rfl⟩
  have hre : b.directory.Reflects past := reflects_run config commands
  have hlive : {s | ∃ k, Deed.LiveAs past k s ∧ t ∈ s.covers} =
      {s | ∃ k, b.directory.find? k = some s ∧ t ∈ s.covers} :=
    Set.ext fun s => exists_congr fun k => and_congr_left' (hre.live k s).symm
  refine ⟨hb.coherent.nodup_routesTo t, ?_, fun r => hb.coherent.upcast_of_mem_routesTo,
    fun k => ⟨hre.live_iff_existsUnique k, fun s hs => ⟨Deed.key_of_liveAs hs, ?_⟩⟩, ?_⟩
  · rw [hlive]
    exact hb.coherent.bijOn_routesTo t
  · exact (hb.coherent.sound ((hre.live k s).2 hs)).covers_nodup
  · rintro e order during rfl
    exact hb.accounts e order during

/-! ## Dispatch -/

/-- **A post goes to whoever was pending and then to whatever was registered when it began, in
order and each once, to the first fatal error.**  This holds in every reachable state, for every
order of the routes and whatever is done between the turns of the post: by its own one-shots and
handlers, by posts nested in it, and by anybody else.

The agenda is fixed when the post begins and has nobody on it twice: first the one-shots pending for
just the event's type, then the handlers of the routes of the live subscriptions that cover it,
called with what the route carries.  The account of the turns goes through it in order; it stops
early only after a fatal outcome, with which the post ends, or where seeing the event panics. -/
theorem dispatch_accounts (config : Config) (before : List (Command ε)) (e : ε)
    (order : Arrangement Route) (during : List (Command ε)) :
    let b := ((new config : Bus ε).run before).state
    let agenda := (b.backlog.waiting (typeOf e)).map Recipient.oneShot ++
      (order.apply (b.directory.routesTo (typeOf e))).map .handler
    let turns := b.turns e order during
    agenda.Nodup ∧
      (∀ s, .oneShot s ∈ agenda → s.event = typeOf e) ∧
      (∀ r, .handler r ∈ agenda ↔
        ∃ s ∈ b.directory.subscriptions, (typeOf e, r) ∈ s.routes) ∧
      (∀ r, .handler r ∈ agenda → r.Brings e) ∧
      b.Accounts e order during agenda ∧
      ∀ error, (turns.map (·.progress)).getLastD .idle = .finished (.aborted error) ↔
        ∃ x ∈ turns.flatMap (·.receipts), x.fatal? = some error := by
  intro b agenda turns
  have hb : b.Reachable := ⟨config, before, rfl⟩
  have hagenda : b.agenda e order = agenda := hb.agenda_eq e order
  have haccounts : b.Accounts e order during agenda := hb.accounts e order during
  have hhandler : ∀ r, .handler r ∈ agenda ↔
      ∃ s ∈ b.directory.subscriptions, (typeOf e, r) ∈ s.routes := by
    intro r
    rw [← hb.mem_routesTo, ← (order.perm _).mem_iff]
    simp [agenda]
  refine ⟨hagenda ▸ hb.nodup_agenda e order, fun s hs => ?_, hhandler, fun r hr => ?_, haccounts,
    fun error => haccounts.serves.aborted_iff⟩
  · refine hb.sound.event_eq_of_waiting ?_
    simpa [agenda] using hs
  · exact hb.brings_of_mem_routesTo (hb.mem_routesTo.2 ((hhandler r).1 hr))

end Bus

end PubSub
