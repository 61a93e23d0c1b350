import PubSub.Proofs.Runs.Lockstep

/-!
# Proofs/Runs/Caches — caches may be lost at any moment

    c   c'   drop   c''   drop   drop   c'''
    │   │           │                   │
    ▼   ▼           ▼                   ▼          the answers and the log of  c  c'  c''  c'''

What is cached is never stale: the routes are those that are listed, and the types are those that
have a queue.  So it does not matter whether a post finds its caches or has to make them anew, and
somebody who drops them between any two commands, in the middle of running posts too, changes
nothing but the records that say so.
-/

namespace PubSub

variable {ε : Type}

/-- What a bus keeps for its posts to read. -/
inductive Cache
  | routes
  | queues
  deriving DecidableEq, Repr

/-- Whether a record says that a cache was made anew. -/
def Record.isRebuild : Record → Bool
  | .routesRebuilt _ | .queuesRebuilt _ => true
  | _ => false

namespace Bus

/-! ## Fresh caches -/

/-- What is cached says what the indices say. -/
structure Fresh (b : Bus ε) : Prop where
  /-- The routes cached for a type are those that are listed under it. -/
  routes : ∀ {routes}, b.directory.cached = some routes →
    ∀ t, routes.get? t = (b.directory.listings.get? t).map Table.values
  /-- The types that are cached are those that have a queue, and their queues are found by them. -/
  queues : ∀ {types}, b.backlog.cached = some types →
    ∀ t, (t ∈ types ↔ b.backlog.HasQueue t) ∧
      b.backlog.batch? types t = (b.backlog.queues.get? t).bind (·.pending)

theorem fresh_of_coherent {b : Bus ε} (hd : b.directory.Coherent) (hb : b.backlog.Sound) :
    b.Fresh where
  routes hc t := by
    rw [hd.cached hc, Directory.routeTable, Table.get?_mapValues]
  queues hc t := by
    rw [hb.cached hc]
    exact ⟨Table.contains_iff.symm, Backlog.batch?_keys _ t⟩

/-! ## Dropping caches -/

/-- Drops what is cached. -/
def drop (b : Bus ε) : Cache → Bus ε
  | .routes => { b with directory := { b.directory with cached := none } }
  | .queues => { b with backlog := { b.backlog with cached := none } }

variable [EventValue ε]

/-- Does commands one after the other and drops caches in between; the answer is the list of the
answers to the commands. -/
def follow (b : Bus ε) : List (Command ε ⊕ Cache) → Logged (Bus ε) (List (Reply ε))
  | [] => ⟨b, [], []⟩
  | .inl c :: rest =>
    let first := b.exec c
    let others := first.state.follow rest
    ⟨others.state, first.value :: others.value, first.log ++ others.log⟩
  | .inr cache :: rest => (b.drop cache).follow rest

/-! ## Runs with and without -/

/-- Reads everything but that caches were made anew. -/
def cacheless : Reader := ⟨false, true⟩

theorem reads_cacheless : cacheless.reads = fun x => !x.isRebuild := by
  ext x
  cases x <;> rfl

omit [EventValue ε] in
/-- **Nobody who does not heed rebuilds sees a cache go.** -/
theorem Alike.drop {b b' : Bus ε} (h : Alike cacheless b b') (cache : Cache) :
    Alike cacheless b (b'.drop cache) := by
  have hblind : ¬ cacheless.rebuilds = true := Bool.false_ne_true
  cases cache with
  | routes =>
    exact { h with directory := { h.directory with
      cached := fun hr => absurd hr hblind
      coherent' := h.directory.coherent'.toIndexed.uncached } }
  | queues =>
    exact { h with backlog := { h.backlog with
      cached := fun hr => absurd hr hblind
      sound' := ⟨h.backlog.sound'.spare, fun hc => (nomatch hc)⟩ } }

/-- **A bus that loses its caches stays in step with one that does not.** -/
theorem Alike.follow {b b' : Bus ε} (h : Alike cacheless b b') (steps : List (Command ε ⊕ Cache)) :
    Logged.Agree cacheless (Alike cacheless) (b.run (steps.filterMap Sum.getLeft?))
      (b'.follow steps) := by
  induction steps generalizing b b' with
  | nil => exact ⟨h, rfl, rfl⟩
  | cons step steps ih =>
    cases step with
    | inr cache => exact ih (h.drop cache)
    | inl c =>
      have hfirst := h.exec c
      have hrest := ih hfirst.state
      exact ⟨hrest.state, congrArg₂ List.cons hfirst.value hrest.value,
        hrest.log_append hfirst.log⟩

omit [EventValue ε] in
theorem Alike.fresh {r : Reader} {b b' : Bus ε} (h : Alike r b b') : b.Fresh ∧ b'.Fresh :=
  ⟨fresh_of_coherent h.directory.coherent h.backlog.sound,
    fresh_of_coherent h.directory.coherent' h.backlog.sound'⟩

/-- **Caches are never stale, and losing them never shows.**  Take any run of a new bus, and drop
either cache at any moments of it, between the turns of running posts as anywhere else.  On both
sides what is cached then says what the indices say.  The answers are the same, so every call is
made with the same event and every post ends as it did; what the bus says of itself is the same;
and of the log only the records of rebuilding differ. -/
theorem caches_transparent (config : Config) (steps : List (Command ε ⊕ Cache)) :
    let plain := (new config : Bus ε).run (steps.filterMap Sum.getLeft?)
    let dropped := (new config : Bus ε).follow steps
    (plain.state.Fresh ∧ dropped.state.Fresh) ∧
      plain.value = dropped.value ∧
      plain.log.filter (!·.isRebuild) = dropped.log.filter (!·.isRebuild) ∧
      plain.state.view = dropped.state.view ∧
      plain.state.statistics = dropped.state.statistics ∧
      plain.state.inspect = dropped.state.inspect ∧
      plain.state.inspectLines = dropped.state.inspectLines := by
  intro plain dropped
  have hnew : Alike cacheless (new config : Bus ε) (new config) := alike_new fun _ => rfl
  have hrun : Logged.Agree cacheless (Alike cacheless) plain dropped := hnew.follow steps
  have htally : plain.state.tally = dropped.state.tally := hrun.state.tally rfl
  have hcensus : plain.state.census = dropped.state.census := hrun.state.directory.census
  have hsummary : plain.state.summary = dropped.state.summary := by
    rw [summary, summary, hcensus, htally]
  refine ⟨hrun.state.fresh, hrun.value, ?_, hrun.state.view, ?_, ?_, ?_⟩
  · rw [← reads_cacheless]
    exact hrun.log
  · rw [statistics, statistics, htally]
  · rw [inspect, inspect, hsummary]
  · rw [inspectLines, inspectLines, hsummary]

end Bus

end PubSub
