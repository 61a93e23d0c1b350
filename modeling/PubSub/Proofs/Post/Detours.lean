import PubSub.Proofs.OneShots.History
import PubSub.Proofs.Post.Dispatch
import PubSub.Showcase.Loot

/-!
# Proofs/Post/Detours — whoever is met waits for what comes

    a route of t      as it is, to a handler for t
                      seen as a p, by an upcast that sees every t, to a handler for p
    a one-shot of t   for t

A post knows what to do about somebody its event is not for: it passes over a route that does not
see the event and a handler that waits for another type, and puts a one-shot back.  In a reachable
state it never comes to that: whatever `Detours` a run has in those three places, from a new bus it
is the same run.
-/

namespace PubSub

variable {ε : Type} [EventValue ε]

/-! ## Routes that fit -/

/-- Events of type `t` are for the handler of a route: they are what it waits for, or the route sees
every one of them and whatever it sees is what the handler waits for. -/
inductive Route.Fits (ε : Type) [EventValue ε] (r : Route) (t : EventType) : Prop
  | direct (upcast : r.upcast = none) (event : r.subscription.event = t)
  | upcast {u : Upcast} (upcast : r.upcast = some u)
      (sees : ∀ e : ε, typeOf e = t → (u.see? e).isSome)
      (seen : ∀ e seen : ε, u.see? e = some (.ok seen) → typeOf seen = r.subscription.event)

/-- **The routes of a subscription fit the types they are for.** -/
theorem Subscription.Sound.fits_of_mem_routes {s : Subscription} (hs : s.Sound) {t : EventType}
    {r : Route} (h : (t, r) ∈ s.routes) : r.Fits ε t := by
  rcases List.mem_cons.1 h with he | hc
  · obtain ⟨rfl, rfl⟩ := Prod.mk.inj he
    exact .direct rfl rfl
  · obtain ⟨u, hu, he⟩ := List.mem_map.1 hc
    obtain ⟨rfl, rfl⟩ := Prod.mk.inj he
    exact .upcast rfl (fun _ he => Upcast.see?_isSome.2 he) fun _ _ hseen =>
      (Upcast.typeOf_of_see? hseen).trans (hs.parent_eq u hu)

/-- An event of the type is seen. -/
theorem Route.Fits.target?_ne_none {r : Route} {e : ε} (h : r.Fits ε (typeOf e)) :
    r.target? e ≠ none := by
  rw [target?]
  cases h with
  | direct hr _ =>
    rw [hr]
    exact Option.some_ne_none _
  | upcast hr hsees _ =>
    rw [hr]
    exact Option.isSome_iff_ne_none.1 (hsees e rfl)

/-- What is seen is what the handler waits for. -/
theorem Route.Fits.typeOf_eq {r : Route} {e seen : ε} (h : r.Fits ε (typeOf e))
    (hseen : r.target? e = some (.ok seen)) : typeOf seen = r.subscription.event := by
  rw [target?] at hseen
  cases h with
  | direct hr ht =>
    rw [hr] at hseen
    obtain rfl : e = seen := Except.ok.inj (Option.some.inj hseen)
    exact ht.symm
  | upcast hr _ hsame =>
    rw [hr] at hseen
    exact hsame e seen hseen

/-! ## Detours -/

namespace Detours

/-- Bringing an event to a batch and then to routes is as usual: where it is not for somebody, what
is done is what posts do. -/
structure AsUsual (d : Detours ε) (e : ε) (batch : List OneShot) (routes : List Route) : Prop where
  unseen : ∀ r ∈ routes, r.target? e = none → d.unseen e r = usual.unseen e r
  unsuited : ∀ r ∈ routes, ∀ seen, r.target? e = some (.ok seen) →
    typeOf seen ≠ r.subscription.event → d.unsuited e r = usual.unsuited e r
  misplaced : ∀ s ∈ batch, typeOf e ≠ s.event → d.misplaced e s = usual.misplaced e s

/-- **Nothing depends on detours where the event is for everybody.** -/
theorem asUsual_of_fits (d : Detours ε) {e : ε} {batch : List OneShot} {routes : List Route}
    (hroutes : ∀ r ∈ routes, r.Fits ε (typeOf e)) (hbatch : ∀ s ∈ batch, s.event = typeOf e) :
    d.AsUsual e batch routes where
  unseen r hr hnone := absurd hnone (hroutes r hr).target?_ne_none
  unsuited r hr _ hseen hne := absurd ((hroutes r hr).typeOf_eq hseen) hne
  misplaced s hs hne := absurd (hbatch s hs).symm hne

theorem AsUsual.mono {d : Detours ε} {e : ε} {batch batch' : List OneShot}
    {routes routes' : List Route} (h : d.AsUsual e batch routes) (hbatch : batch' ⊆ batch)
    (hroutes : routes' ⊆ routes) : d.AsUsual e batch' routes' :=
  ⟨fun r hr => h.unseen r (hroutes hr), fun r hr => h.unsuited r (hroutes hr),
    fun s hs => h.misplaced s (hbatch hs)⟩

end Detours

namespace Bus

/-- The batch that a post of an event takes away, if there is one. -/
def batch? (b : Bus ε) (e : ε) : Option (List OneShot) :=
  b.opened.backlog.batch? b.backlog.refresh.value (typeOf e)

/-! ## Where nothing depends on detours -/

variable {d : Detours ε}

theorem deliverBy_eq {e : ε} {batch : List OneShot} {l : List Route} (h : d.AsUsual e batch l) :
    deliverBy d e l = deliverBy .usual e l := by
  induction l with
  | nil => rfl
  | cons r rest ih =>
    have hrest : deliverBy d e rest = deliverBy .usual e rest :=
      ih (h.mono (List.Subset.refl _) (List.subset_cons_self r rest))
    funext b
    rw [deliverBy, deliverBy, hrest]
    cases htarget : r.target? e with
    | none =>
      dsimp only
      rw [h.unseen r List.mem_cons_self htarget]
    | some view =>
      cases view with
      | error p => rfl
      | ok seen =>
        by_cases hsame : typeOf seen = r.subscription.event
        · simp only [if_pos hsame]
        · simp only [if_neg hsame]
          rw [h.unsuited r List.mem_cons_self seen htarget hsame]

theorem visitBy_eq {e : ε} {ahead : List Route} {l : List OneShot} (h : d.AsUsual e l ahead)
    (size : Nat) : visitBy d e ahead size l = visitBy .usual e ahead size l := by
  induction l with
  | nil =>
    funext b
    rw [visitBy, visitBy, deliverBy_eq h]
  | cons s rest ih =>
    have hrest : visitBy d e ahead size rest = visitBy .usual e ahead size rest :=
      ih (h.mono (List.subset_cons_self s rest) (List.Subset.refl _))
    funext b
    rw [visitBy, visitBy, hrest]
    by_cases htype : typeOf e = s.event
    · exact (if_pos htype).trans (if_pos htype).symm
    · rw [if_neg htype, if_neg htype, h.misplaced s List.mem_cons_self htype]

theorem postBy_eq {b : Bus ε} {e : ε} {order : Arrangement Route}
    (h : d.AsUsual e ((b.batch? e).getD []) (order.apply (b.directory.routesTo (typeOf e)))) :
    b.postBy d e order = b.post e order := by
  unfold post postBy
  cases hbatch : b.backlog.refresh.state.batch? b.backlog.refresh.value (typeOf e) with
  | none => simp only [hbatch, deliverBy_eq h]
  | some batch =>
    have hfound : b.batch? e = some batch := hbatch
    rw [hfound, Option.getD_some] at h
    simp only [hbatch, visitBy_eq h]

theorem resumeOneShotBy_eq {e : ε} {ahead : List Route} {rest : List OneShot}
    (h : d.AsUsual e rest ahead) (b : Bus ε) (s : OneShot) (size : Nat) (o : Outcome) :
    b.resumeOneShotBy d e ahead s rest size o = b.resumeOneShot e ahead s rest size o := by
  unfold resumeOneShot resumeOneShotBy
  rw [visitBy_eq h]

theorem resumeHandlerBy_eq {e : ε} {batch : List OneShot} {ahead : List Route}
    (h : d.AsUsual e batch ahead) (b : Bus ε) (r : Route) (o : Outcome) :
    b.resumeHandlerBy d e ahead r o = b.resumeHandler e ahead r o := by
  unfold resumeHandler resumeHandlerBy
  rw [deliverBy_eq h]

theorem resumeBy_eq {b : Bus ε} (h : ∀ f ∈ b.running, d.AsUsual f.event f.unvisited f.ahead)
    (o : Outcome) : b.resumeBy d o = b.resume o := by
  unfold resume resumeBy
  cases hb : b.running with
  | nil => rfl
  | cons f outer =>
    have hf := h f (hb ▸ List.mem_cons_self)
    obtain ⟨e, stage, ahead⟩ := f
    cases stage with
    | oneShot s rest size => exact resumeOneShotBy_eq hf _ s size o
    | handler r => exact resumeHandlerBy_eq hf _ r o

/-- Posts on a bus, new and running ones, are as usual. -/
structure AsUsual (d : Detours ε) (b : Bus ε) : Prop where
  post : ∀ (e : ε) (order : Arrangement Route),
    d.AsUsual e ((b.batch? e).getD []) (order.apply (b.directory.routesTo (typeOf e)))
  resume : ∀ f ∈ b.running, d.AsUsual f.event f.unvisited f.ahead

theorem AsUsual.execBy_eq {b : Bus ε} (h : b.AsUsual d) (c : Command ε) :
    b.execBy d c = b.exec c := by
  cases c with
  | post e order => exact congrArg (Logged.map Reply.progress) (postBy_eq (h.post e order))
  | resume o => exact congrArg (Logged.map Reply.progress) (resumeBy_eq h.resume o)
  | _ => rfl

/-! ## Where a running post has its routes from -/

end Bus

/-- The routes of a running post: that of the handler it waits for, if it is one, and those ahead. -/
def Frame.routes (f : Frame ε) : List Route :=
  match f.stage with
  | .oneShot .. => f.ahead
  | .handler r => r :: f.ahead

omit [EventValue ε] in
theorem Frame.ahead_subset_routes (f : Frame ε) : f.ahead ⊆ f.routes := by
  unfold routes
  split
  · exact List.Subset.refl _
  · exact List.subset_cons_self ..

namespace Bus

/-- The routes of every running post fit its event. -/
def Fitted (b : Bus ε) : Prop := ∀ f ∈ b.running, ∀ r ∈ f.routes, r.Fits ε (typeOf f.event)

theorem fitted_new (c : Config) : (new c : Bus ε).Fitted := fun _ hf => absurd hf List.not_mem_nil

section Fitted

variable {b : Bus ε} {e : ε} {l : List Route}

theorem Fitted.congr {b' : Bus ε} (h : b.Fitted) (hrunning : b'.running = b.running) :
    b'.Fitted := fun f hf => h f (hrunning ▸ hf)

theorem Fitted.stop (h : b.Fitted) {f : Frame ε} (hf : ∀ r ∈ f.routes, r.Fits ε (typeOf f.event))
    (call : Call ε) : (b.stop f call).state.Fitted :=
  fun _ hg => (List.mem_cons.1 hg).elim (fun he => he ▸ hf) (h _)

/-- **Routes that fit are not passed over**: a post stops at the first, unless seeing the event
panics. -/
theorem Fitted.deliver (h : b.Fitted) (hl : ∀ r ∈ l, r.Fits ε (typeOf e)) :
    (b.deliver e l).state.Fitted := by
  cases l with
  | nil => exact h.congr (running_finish ..)
  | cons r rest =>
    have hr := hl r List.mem_cons_self
    rw [deliver_cons]
    cases htarget : r.target? e with
    | none => exact absurd htarget hr.target?_ne_none
    | some view =>
      cases view with
      | error p => exact h
      | ok seen =>
        simp only [if_pos (hr.typeOf_eq htarget)]
        exact h.stop (f := ⟨e, .handler r, rest⟩) hl _

theorem Fitted.visit (h : b.Fitted) (hl : ∀ r ∈ l, r.Fits ε (typeOf e)) (size : Nat)
    (batch : List OneShot) : (b.visit e l size batch).state.Fitted := by
  obtain ⟨backlog, boxes, -, hvisit | ⟨s, rest, call, -, -, hvisit⟩⟩ :=
    b.visit_cases e l size batch
  · rw [hvisit.2]
    exact Fitted.deliver (h.congr rfl) hl
  · rw [hvisit]
    exact Fitted.stop (h.congr rfl) (f := ⟨e, .oneShot s rest size, l⟩) hl call

theorem Fitted.post (h : b.Fitted) (order : Arrangement Route)
    (hl : ∀ r ∈ b.directory.routesTo (typeOf e), r.Fits ε (typeOf e)) :
    (b.post e order).state.Fitted := by
  have hordered : ∀ r ∈ order.apply (b.directory.routesTo (typeOf e)), r.Fits ε (typeOf e) :=
    fun r hr => hl r ((order.perm _).mem_iff.1 hr)
  rcases b.post_cases e order with ⟨-, hpost⟩ | ⟨batch, -, hpost⟩
  · rw [hpost, Logged.state_after]
    refine Fitted.deliver (h.congr ?_) hordered
    rfl
  · rw [hpost, Logged.state_after]
    refine Fitted.visit (h.congr ?_) hordered _ batch
    rfl

theorem Fitted.resume (h : b.Fitted) (o : Outcome) : (b.resume o).state.Fitted := by
  cases hb : b.running with
  | nil => rwa [resume_of_idle hb]
  | cons f outer =>
    have hf : ∀ r ∈ f.ahead, r.Fits ε (typeOf f.event) := fun r hr =>
      h f (hb ▸ List.mem_cons_self) r (f.ahead_subset_routes hr)
    have houter : Fitted { b with running := outer } := fun g hg =>
      h g (hb ▸ List.mem_cons_of_mem f hg)
    obtain ⟨b₁, ⟨text, -, hback, hresume⟩ | ⟨-, hback, hresume⟩⟩ := resume_cases hb o
    · rw [hresume]
      exact (houter.congr hback.running).congr (running_finish ..)
    · have hb₁ : b₁.Fitted := houter.congr hback.running
      rw [hresume, Logged.state_after, proceed]
      split
      · exact hb₁.visit hf _ _
      · exact hb₁.deliver hf

theorem Fitted.exec (h : b.Fitted) (hroutes : ∀ t, ∀ r ∈ b.directory.routesTo t, r.Fits ε t)
    (c : Command ε) : (b.exec c).state.Fitted := by
  rcases b.running_exec c with hrunning | ⟨e, order, rfl⟩ | ⟨o, rfl⟩
  · exact h.congr hrunning
  · exact h.post order (hroutes (typeOf e))
  · exact h.resume o

end Fitted

section Reachable

variable {b : Bus ε}

/-- **The routes that posts of a type take fit the type.** -/
theorem Reachable.fits_of_mem_routesTo (h : b.Reachable) :
    ∀ t, ∀ r ∈ b.directory.routesTo t, r.Fits ε t := by
  intro t r hr
  obtain ⟨s, hs, hroute⟩ := h.mem_routesTo.1 hr
  exact (h.coherent.sound_of_mem_subscriptions hs).fits_of_mem_routes hroute

/-- **In every reachable state the routes of every running post fit its event.** -/
theorem Reachable.fitted (h : b.Reachable) : b.Fitted := by
  refine (h.induction (P := fun b => b.Reachable ∧ b.Fitted) (fun c => ?_) fun b c hb => ?_).2
  · exact ⟨reachable_new c, fitted_new c⟩
  · exact ⟨hb.1.exec c, hb.2.exec hb.1.fits_of_mem_routesTo c⟩

/-- **On a reachable bus no post comes to a detour.** -/
theorem Reachable.asUsual (h : b.Reachable) (d : Detours ε) : b.AsUsual d where
  post e order := by
    refine d.asUsual_of_fits (fun r hr => ?_) fun s hs => ?_
    · exact h.fits_of_mem_routesTo _ r ((order.perm _).mem_iff.1 hr)
    · rw [batch?] at hs
      exact h.sound.event_eq_of_waiting (Backlog.getD_batch?_refresh h.sound.backlog _ ▸ hs)
  resume f hf := d.asUsual_of_fits (fun r hr => h.fitted f hf r (f.ahead_subset_routes hr))
    (h.sound.event_eq_of_unvisited hf)

theorem Reachable.runBy_eq (h : b.Reachable) (d : Detours ε) (commands : List (Command ε)) :
    b.runBy d commands = b.run commands := by
  induction commands generalizing b with
  | nil => rfl
  | cons c rest ih => rw [runBy, run_cons, (h.asUsual d).execBy_eq, ih (h.exec c)]

end Reachable

/-! ## Delivery -/

/-- **Every event is delivered as what its recipient waits for.**  After every run, however its
posts are nested, each route that a post of a type takes is direct to a handler for the type, or
sees every event of the type as one that its handler waits for; each one-shot that is pending for a
type was queued for it; and so it is with whatever the running posts still have before them.

So nobody is passed over or put back because an event is not for them: whatever were done in these
places instead, every run from a new bus would be the same, answer by answer and record by
record. -/
theorem delivery_wellTyped (config : Config) (commands : List (Command ε)) :
    let start : Bus ε := new config
    let b := (start.run commands).state
    let queued := start.collect queuedBy commands
    (∀ t, ∀ r ∈ b.directory.routesTo t, r.Fits ε t) ∧
      (∀ t, ∀ s ∈ b.backlog.waiting t, s ∈ queued ∧ s.event = t) ∧
      (∀ f ∈ b.running, (∀ r ∈ f.routes, r.Fits ε (typeOf f.event)) ∧
        ∀ s ∈ f.batch, s ∈ queued ∧ s.event = typeOf f.event) ∧
      (∀ (b : Bus ε) commands, b.runBy .usual commands = b.run commands) ∧
      ∀ d : Detours ε, start.runBy d commands = start.run commands := by
  intro start b queued
  have hb : b.Reachable := ⟨config, commands, rfl⟩
  have hqueued : ∀ {t s}, s ∈ b.lineUp t → s ∈ queued ∧ s.event = t := fun hs =>
    ⟨(recorded_run config commands).mem_queued hs, hb.sound.event_eq hs⟩
  refine ⟨hb.fits_of_mem_routesTo, fun t s hs => ?_, fun f hf => ⟨hb.fitted f hf, fun s hs => ?_⟩,
    fun _ _ => rfl, fun d => (reachable_new config).runBy_eq d commands⟩
  · exact hqueued (List.mem_append_left _ hs)
  · exact hqueued (mem_lineUp_of_batch hf hs)

/-- On a bus that no run leads to, with a one-shot under a type that it does not wait for, it matters
what is done about it. -/
example :
    let item := Showcase.Loot.Event.itemType
    let stray : OneShot := ⟨0, Showcase.Loot.Event.spawnedType, .once ⟨1⟩⟩
    let b : Bus Showcase.Loot.Event :=
      { new {} with backlog := ⟨Table.ofList [(item, ⟨some [stray], none⟩)], none⟩ }
    let dropping : Detours Showcase.Loot.Event :=
      { Detours.usual with misplaced := fun _ _ go => go }
    (b.run [.post (.item 1) .listed]).state.pending item = 1 ∧
      (b.runBy dropping [.post (.item 1) .listed]).state.pending item = 0 := by decide

end Bus

end PubSub
