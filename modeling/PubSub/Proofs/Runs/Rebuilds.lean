import PubSub.Proofs.Directory.Census
import PubSub.Proofs.OneShots.Queues
import PubSub.Proofs.Runs.Caches
import PubSub.Proofs.Runs.Log
import PubSub.Showcase.Loot

/-!
# Proofs/Runs/Rebuilds — a cache is made anew once after it was spoilt

    read ┄┄┄ spoilt ┄ spoilt ┄┄┄ read ┄┄┄ read ┄┄┄ spoilt ┄┄┄ read
      │                           │         │                   │
    rebuilt                     rebuilt     ·                 rebuilt

The cached routes are spoilt by whatever makes a key live or ends one, the cached queues by a
one-shot for a type that nothing was ever queued for.  The first read after that makes the cache
anew and says so, as does the first read of all; any other read finds the cache and says nothing,
and what reads no cache makes none.  All this is a matter of the past of a run: how its commands
are nested in posts plays no part.
-/

namespace PubSub

/-- The record that says that a cache was made anew, for so many types. -/
def Record.rebuilt : Cache → Nat → Record
  | .routes, n => .routesRebuilt n
  | .queues, n => .queuesRebuilt n

/-- Whether a record says that this cache was made anew. -/
def Record.isRebuildOf : Cache → Record → Bool
  | .routes, .routesRebuilt _ | .queues, .queuesRebuilt _ => true
  | _, _ => false

variable {ε : Type}

/-- Whether a command reads a cache. -/
def Command.reads : Command ε → Cache → Bool
  | .post .., _ | .hasSubscribers _, .routes => true
  | _, _ => false

/-- A cache is only made anew by a command that reads it. -/
theorem Command.reads_of_writes {c : Command ε} {x : Record} {cache : Cache}
    (hx : c.writes x = true) (hcache : x.isRebuildOf cache = true) : c.reads cache = true := by
  cases x with
  | routesRebuilt | queuesRebuilt =>
    cases cache <;> cases hcache
    cases c <;> first | rfl | cases hx
  | _ => cases cache <;> cases hcache

namespace Bus

variable {b : Bus ε}

/-! ## What a command says of a cache -/

/-- Whether a bus has a cache. -/
def has (b : Bus ε) : Cache → Bool
  | .routes => b.directory.cached.isSome
  | .queues => b.backlog.cached.isSome

/-- How many types a cache is for when it is made now. -/
def width (b : Bus ε) : Cache → Nat
  | .routes => b.directory.listings.size
  | .queues => b.backlog.queues.size

theorem filter_refresh_routes (b : Bus ε) :
    b.directory.refresh.log.filter (Record.isRebuildOf .routes) =
      if b.has .routes then [] else [.rebuilt .routes (b.width .routes)] := by
  unfold has Directory.refresh
  cases b.directory.cached <;> rfl

/-- **A post that begins says of every cache that it does not find that it was made anew.** -/
theorem filter_openingLog (b : Bus ε) (cache : Cache) :
    b.openingLog.filter (Record.isRebuildOf cache) =
      if b.has cache then [] else [.rebuilt cache (b.width cache)] := by
  unfold has openingLog Directory.refresh Backlog.refresh
  cases cache <;> cases b.directory.cached <;> cases b.backlog.cached <;> rfl

variable [EventValue ε]

/-- Steps of a post make no cache. -/
theorem filter_step (b : Bus ε) (cache : Cache) (t : EventType) (xs : List (Receipt ε))
    (returns : Bool) :
    (records xs ++ if returns then b.due t else []).filter (Record.isRebuildOf cache) = [] := by
  refine List.filter_eq_nil_iff.2 fun x hx => ?_
  obtain ⟨whom, posted, fault, rfl⟩ | ⟨report, rfl, -⟩ := mem_log_step hx
  · cases whom <;> cases cache <;> exact Bool.false_ne_true
  · cases cache <;> exact Bool.false_ne_true

/-- **A command makes a cache anew when it reads it and it is not there**, and only then. -/
theorem filter_isRebuildOf_exec (b : Bus ε) (c : Command ε) (cache : Cache) :
    (b.exec c).log.filter (Record.isRebuildOf cache) =
      if c.reads cache = true ∧ b.has cache = false then [.rebuilt cache (b.width cache)]
      else [] := by
  have hquiet : c.reads cache = false →
      (b.exec c).log.filter (Record.isRebuildOf cache) = [] := fun hc => by
    refine List.filter_eq_nil_iff.2 fun x hx hcache => ?_
    rw [Command.reads_of_writes (writes_of_mem_log hx) hcache] at hc
    cases hc
  cases hc : c.reads cache with
  | false => rw [hquiet hc, if_neg fun h => Bool.false_ne_true h.1]
  | true =>
    have hflip : (if b.has cache then [] else [Record.rebuilt cache (b.width cache)]) =
        if true = true ∧ b.has cache = false then [.rebuilt cache (b.width cache)] else [] := by
      cases b.has cache <;> rfl
    rw [← hflip]
    cases c with
    | post e order =>
      change (b.post e order).log.filter _ = _
      rw [b.log_post e order rfl, List.filter_append, filter_openingLog, filter_step,
        List.append_nil]
    | hasSubscribers t =>
      cases cache with
      | routes => exact b.filter_refresh_routes
      | queues => cases hc
    | _ => cases cache <;> cases hc

/-! ## What a command does to a cache -/

/-- **The keys that are live change just when something is said to have come or gone.** -/
theorem liveKeys_exec (h : b.directory.Coherent) (c : Command ε) :
    (b.exec c).state.directory.liveKeys ≠ b.directory.liveKeys ↔
      ∃ o n, 0 < n ∧
        (.registered o n ∈ (b.exec c).log ∨ .unregistered o n ∈ (b.exec c).log) := by
  cases hc : c.moves with
  | false =>
    refine iff_of_false (not_not.2 (Directory.liveKeys_congr (holdings_exec hc))) ?_
    rintro ⟨o, n, -, hx | hx⟩
    · cases isOfMove_of_mem_log hc hx
    · cases isOfMove_of_mem_log hc hx
  | true =>
    rw [directory_exec]
    cases c with
    | register o is =>
      refine h.liveKeys_register_ne_iff.trans ?_
      constructor
      · rintro ⟨n, hn, hv⟩
        exact ⟨o, n, hn, .inl (registered_mem_log.2 ⟨rfl, hv⟩)⟩
      · rintro ⟨o', n, hn, hx | hx⟩
        · exact ⟨n, hn, (registered_mem_log.1 hx).2⟩
        · cases writes_of_mem_log hx
    | unregister o =>
      refine (not_congr (h.liveKeys_unregister o.id)).trans ?_
      constructor
      · intro hne
        have hpos := Nat.pos_of_ne_zero hne
        exact ⟨o, _, hpos, .inr (unregistered_mem_log.2 ⟨rfl, rfl, hpos⟩)⟩
      · rintro ⟨o', n, hn, hx | hx⟩
        · cases writes_of_mem_log hx
        · obtain ⟨-, rfl, -⟩ := unregistered_mem_log.1 hx
          exact hn.ne'
    | _ => cases hc

/-- **What is cached of the routes is there after it was read**, and stays as long as the same keys
are live. -/
theorem cached_routes_exec (h : b.directory.Coherent) (c : Command ε) :
    (b.exec c).state.directory.cached.isSome = true ↔ c.reads .routes = true ∨
      b.directory.cached.isSome = true ∧
        (b.exec c).state.directory.liveKeys = b.directory.liveKeys := by
  have hnot : ∀ {p : Prop}, p ↔ false = true ∨ p := fun {p} =>
    (or_iff_right Bool.false_ne_true).symm
  rw [directory_exec]
  cases c with
  | register o is => exact (h.cached_register o is).trans hnot
  | unregister o => exact (h.cached_unregister o.id).trans hnot
  | declare p cs =>
    refine Iff.trans ?_ hnot
    rcases Directory.declare_cases b.directory p cs with ⟨-, -, -, hs⟩ | ⟨-, hs⟩
    · dsimp only
      rw [hs]
      exact (and_iff_left rfl).symm
    · dsimp only
      rw [hs]
      exact (and_iff_left rfl).symm
  | hasSubscribers | post =>
    refine iff_of_true ?_ (.inl rfl)
    dsimp only
    rw [h.state_refresh]
    rfl
  | once | onceOrMore | next | poll | resume =>
    exact (and_iff_left rfl).symm.trans hnot

/-! ## What the past says of a cache -/

/-- A command after `before` spoils a cache: the routes by a key that comes to live or is ended, the
queues by a one-shot for a type that nothing was ever queued for. -/
def Spoils (config : Config) (before : List (Command ε)) (c : Command ε) : Cache → Prop
  | .routes => {k | Deed.Live ((new config : Bus ε).deeds (before ++ [c])) k} ≠
      {k | Deed.Live ((new config : Bus ε).deeds before) k}
  | .queues => ∃ s ∈ ((new config : Bus ε).run before).state.queuedBy c,
      ∀ s' ∈ (new config : Bus ε).collect queuedBy before, s'.event ≠ s.event

/-- A cache is due to be made anew after `before`: nobody has read it yet, or it was spoilt and has
not been made anew since. -/
def Due (config : Config) (before : List (Command ε)) (cache : Cache) : Prop :=
  (∀ c ∈ before, c.reads cache = false) ∨
    ∃ early c late, before = early ++ c :: late ∧ Spoils config early c cache ∧
      ∀ x ∈ (((new config : Bus ε).run (early ++ [c])).state.run late).log,
        x.isRebuildOf cache = false

/-- The types that a cache is for when it is made after `before`: those that a live subscription
covers, those that anything was ever queued for. -/
def typesOf (config : Config) (before : List (Command ε)) : Cache → Set EventType
  | .routes => {t | Deed.Covers ((new config : Bus ε).deeds before) t}
  | .queues => {t | ∃ s ∈ (new config : Bus ε).collect queuedBy before, s.event = t}

theorem encard_typesOf (config : Config) (before : List (Command ε)) (cache : Cache) :
    (typesOf config before cache).encard =
      ((new config : Bus ε).run before).state.width cache := by
  have hb : ((new config : Bus ε).run before).state.Reachable := ⟨config, before, rfl⟩
  cases cache with
  | routes => exact (hb.coherent.toIndexed.tells (reflects_run config before)).eventTypes
  | queues =>
    have htypes : typesOf config before .queues =
        {t | ((new config : Bus ε).run before).state.backlog.queues.contains t = true} :=
      Set.ext fun t => (hasQueue_iff_queued config before t).symm
    rw [htypes, Table.encard_contains]
    rfl

theorem spoils_routes_iff (config : Config) (before : List (Command ε)) (c : Command ε) :
    Spoils config before c .routes ↔
      (((new config : Bus ε).run before).state.exec c).state.directory.liveKeys ≠
        ((new config : Bus ε).run before).state.directory.liveKeys := by
  rw [Spoils, ← (reflects_run config before).liveKeys_eq,
    ← (reflects_run config (before ++ [c])).liveKeys_eq, state_run_concat]

theorem spoils_queues_iff (config : Config) (before : List (Command ε)) (c : Command ε) :
    Spoils config before c .queues ↔
      ∃ s ∈ ((new config : Bus ε).run before).state.queuedBy c,
        ¬ ((new config : Bus ε).run before).state.backlog.HasQueue s.event := by
  refine exists_congr fun s => and_congr_right fun _ => ?_
  rw [hasQueue_iff_queued]
  simp

/-- **A cache is there after it was read**, and stays until it is spoilt. -/
theorem has_exec (config : Config) (before : List (Command ε)) (c : Command ε) (cache : Cache) :
    (((new config : Bus ε).run before).state.exec c).state.has cache = true ↔
      c.reads cache = true ∨
        ((new config : Bus ε).run before).state.has cache = true ∧
          ¬ Spoils config before c cache := by
  have hb : ((new config : Bus ε).run before).state.Reachable := ⟨config, before, rfl⟩
  cases cache with
  | routes =>
    rw [spoils_routes_iff, not_not]
    exact cached_routes_exec hb.coherent c
  | queues =>
    rw [spoils_queues_iff]
    refine (cached_queues_exec hb.sound c).trans (or_congr_left ?_)
    cases c <;> rfl

/-- What reads a cache does not spoil it. -/
theorem not_spoils_of_reads (config : Config) (before : List (Command ε)) {c : Command ε}
    {cache : Cache} (hc : c.reads cache = true) : ¬ Spoils config before c cache := by
  cases cache with
  | routes =>
    have hmoves : c.moves = false := by
      cases c with
      | hasSubscribers | post => rfl
      | _ => cases hc
    rw [spoils_routes_iff, not_not]
    exact Directory.liveKeys_congr (holdings_exec hmoves)
  | queues =>
    have hqueued : ((new config : Bus ε).run before).state.queuedBy c = [] := by
      cases c with
      | post => rfl
      | _ => cases hc
    rintro ⟨s, hs, -⟩
    exact absurd (hqueued ▸ hs) List.not_mem_nil

/-- **What reads no cache leaves it due, or makes it due by spoiling it.** -/
theorem due_concat (config : Config) (before : List (Command ε)) {c : Command ε} {cache : Cache}
    (hc : c.reads cache = false) :
    Due config (before ++ [c]) cache ↔ Due config before cache ∨ Spoils config before c cache := by
  constructor
  · rintro (hnone | ⟨early, d, late, he, hspoils, hlog⟩)
    · exact .inl (.inl fun d hd => hnone d (List.mem_append_left _ hd))
    · rcases concat_eq_append_cons.1 he with ⟨rfl, rfl, rfl⟩ | ⟨late, rfl, rfl⟩
      · exact .inr hspoils
      · refine .inl (.inr ⟨early, d, late, rfl, hspoils, fun x hx => hlog x ?_⟩)
        rw [log_run_concat]
        exact List.mem_append_left _ hx
  · rintro ((hnone | ⟨early, d, late, rfl, hspoils, hlog⟩) | hspoils)
    · refine .inl fun d hd => (List.mem_append.1 hd).elim (hnone d) fun hd => ?_
      rwa [List.mem_singleton.1 hd]
    · refine .inr ⟨early, d, late ++ [c], by simp, hspoils, fun x hx => ?_⟩
      rw [log_run_concat] at hx
      rcases List.mem_append.1 hx with hx | hx
      · exact hlog x hx
      · refine Bool.eq_false_iff.2 fun hcache => ?_
        rw [Command.reads_of_writes (writes_of_mem_log hx) hcache] at hc
        cases hc
    · exact .inr ⟨before, c, [], rfl, hspoils, fun x hx => absurd hx List.not_mem_nil⟩

/-- **A read ends what was due**: it has made the cache anew by then. -/
theorem not_due_of_reads (config : Config) (before : List (Command ε)) {c : Command ε}
    {cache : Cache} (hc : c.reads cache = true)
    (hdue : Due config before cache → ((new config : Bus ε).run before).state.has cache = false) :
    ¬ Due config (before ++ [c]) cache := by
  rintro (hnone | ⟨early, d, late, he, hspoils, hlog⟩)
  · rw [hnone c (List.mem_append_right _ List.mem_cons_self)] at hc
    cases hc
  · rcases concat_eq_append_cons.1 he with ⟨rfl, rfl, rfl⟩ | ⟨late, rfl, rfl⟩
    · exact not_spoils_of_reads config _ hc hspoils
    -- it was due before the read, so the read is in the log after what spoilt it
    · have hstate : ((new config : Bus ε).run (early ++ d :: late)).state =
          (((new config : Bus ε).run (early ++ [d])).state.run late).state := by
        rw [← state_run_append, List.append_assoc, List.singleton_append]
      rw [log_run_concat, ← hstate] at hlog
      have hmissing := hdue (.inr ⟨early, d, late, rfl, hspoils, fun x hx =>
        hlog x (List.mem_append_left _ hx)⟩)
      have hfilter := filter_isRebuildOf_exec ((new config : Bus ε).run (early ++ d :: late)).state
        c cache
      rw [if_pos ⟨hc, hmissing⟩, List.filter_eq_nil_iff.2] at hfilter
      · cases hfilter
      · exact fun x hx => Bool.eq_false_iff.1 (hlog x (List.mem_append_right _ hx))

/-- **A cache is due just when it is not there.** -/
theorem due_iff (config : Config) (before : List (Command ε)) (cache : Cache) :
    Due config before cache ↔ ((new config : Bus ε).run before).state.has cache = false := by
  induction before using List.reverseRecOn with
  | nil =>
    refine iff_of_true (.inl fun c hc => absurd hc List.not_mem_nil) ?_
    cases cache <;> rfl
  | append_singleton before c ih =>
    rw [state_run_concat, ← Bool.not_eq_true, has_exec]
    by_cases hc : c.reads cache = true
    · exact iff_of_false (not_due_of_reads config before hc ih.1) (not_not.2 (.inl hc))
    · rw [due_concat config before (Bool.eq_false_iff.2 hc), ih, ← Bool.not_eq_true]
      tauto

/-! ## Rebuilds -/

/-- **A cache is made anew once after it was spoilt.**  After any run, however its commands are
nested in posts, a command that reads the routes (a post, or the question whether a type has
subscribers) or the queues (a post) makes them anew and writes so, once, just when it is the first
to read them or something has spoilt them since they were last made; and then it writes of how many
types there are: those that live subscriptions cover, those that anything was ever queued for.  No
other command ever writes so.  The routes are spoilt just by a registration that inserts something
and a removal that removes something; the queues, by a one-shot for a type that nothing was ever
queued for. -/
theorem rebuilt_once_per_interval (config : Config) (before : List (Command ε)) (c : Command ε)
    (cache : Cache) :
    let log := (((new config : Bus ε).run before).state.exec c).log
    (c.reads cache = true ∧ Due config before cache →
        ∃ n : ℕ, (typesOf config before cache).encard = n ∧
          log.filter (Record.isRebuildOf cache) = [.rebuilt cache n]) ∧
      (¬ (c.reads cache = true ∧ Due config before cache) →
        log.filter (Record.isRebuildOf cache) = []) ∧
      (Spoils config before c .routes ↔
        ∃ o n, 0 < n ∧ (.registered o n ∈ log ∨ .unregistered o n ∈ log)) := by
  intro log
  have hb : ((new config : Bus ε).run before).state.Reachable := ⟨config, before, rfl⟩
  have hfilter := filter_isRebuildOf_exec ((new config : Bus ε).run before).state c cache
  rw [due_iff]
  refine ⟨fun h => ⟨_, encard_typesOf config before cache, ?_⟩, fun h => ?_, ?_⟩
  · exact hfilter.trans (if_pos h)
  · exact hfilter.trans (if_neg h)
  · exact (spoils_routes_iff config before c).trans (liveKeys_exec hb.coherent c)

/-- The question in the middle of the second post finds the routes that the post has made anew. -/
example :
    let item := Showcase.Loot.Event.itemType
    let spawned := Showcase.Loot.Event.spawnedType
    let commands : List (Command Showcase.Loot.Event) :=
      [.hasSubscribers item, .post (.item 1) .listed, .once spawned ⟨1⟩,
        .register ⟨⟨0⟩, "tracker"⟩ [⟨item, "on_item_event", ⟨0⟩⟩], .post (.spawned 1 0 0) .listed,
        .hasSubscribers item, .once spawned ⟨1⟩, .resume (.returned true),
        .post (.item 1) .listed]
    (((new {} : Bus Showcase.Loot.Event).run commands).log.filter Record.isRebuild).map
        (fun x => (x.message, x.fields)) =
      [("rebuilt subscriber snapshot", [("event_types", .count 0)]),
        ("rebuilt one-shot snapshot", [("event_types", .count 0)]),
        ("rebuilt subscriber snapshot", [("event_types", .count 1)]),
        ("rebuilt one-shot snapshot", [("event_types", .count 1)])] := by decide

end Bus

end PubSub
