import Mathlib.Data.List.Induction
import PubSub.Proofs.OneShots.LineUp

/-!
# Proofs/OneShots/Queues — a queue is made once for a type, and stays

    once, onceOrMore, next     a queue for the type, if it had none: then nothing is cached
    post                       the same queues: now they are cached
    all else                   the same queues, cached or not as before

Which types have a queue is not for posts to change: they take lists away and put one-shots back,
but in the queues that are there.  So the types that have a queue are just those that something was
ever queued for, and what is cached of them goes only when there is a new one.
-/

namespace PubSub

namespace Backlog

variable {b : Backlog}

/-- The types that have a queue, and what is cached of them. -/
def index (b : Backlog) : List EventType × Option (List EventType) := (b.queues.keys, b.cached)

/-- **Changing a queue makes none and removes none.** -/
theorem index_modify (b : Backlog) (t : EventType) (f : Queue → Queue) :
    (b.modify t f).index = b.index := by
  rw [index, modify, Table.keys_modify, index]

theorem index_refresh (b : Backlog) :
    b.refresh.state.index = (b.queues.keys, some b.refresh.value) := by
  unfold refresh index
  cases hc : b.cached with
  | none => rfl
  | some types => exact congrArg (Prod.mk _) hc

/-- **A one-shot for a type that has a queue changes nothing about the queues.** -/
theorem index_add_of_hasQueue {s : OneShot} (h : b.HasQueue s.event) :
    (b.add s).index = b.index := by
  obtain ⟨q, hq⟩ := Option.isSome_iff_exists.1 h
  rw [add, hq, index, Table.keys_insert, if_pos (Table.contains_iff.1 h), index]

/-- **A one-shot for any other type makes a queue for it**, and what was cached goes. -/
theorem index_add_of_not_hasQueue {s : OneShot} (h : ¬ b.HasQueue s.event) :
    (b.add s).index = (b.queues.keys ++ [s.event], none) := by
  have hq : b.queues.get? s.event = none := Option.not_isSome_iff_eq_none.1 h
  have hkey : s.event ∉ b.queues.keys := fun hk => h (Table.contains_iff.2 hk)
  rw [add, hq, index, Table.keys_insert, if_neg hkey]

theorem hasQueue_iff_mem_keys {t : EventType} : b.HasQueue t ↔ t ∈ b.index.1 := Table.contains_iff

end Backlog

variable {ε : Type} [EventValue ε]

namespace Bus

variable {b : Bus ε}

/-! ## Posts keep the queues -/

theorem index_deliver (b : Bus ε) (e : ε) (l : List Route) :
    (b.deliver e l).state.backlog.index = b.backlog.index := by
  rcases b.deliver_cases e l with ⟨-, h⟩ | ⟨r, rest, p, -, -, h⟩ | ⟨r, rest, call, -, -, h⟩
  · rw [h, backlog_finish]
  · rw [h]
  · rw [h]
    rfl

theorem index_visit (b : Bus ε) {e : ε} (ahead : List Route) (size : Nat) {l : List OneShot}
    (hl : ∀ s ∈ l, s.event = typeOf e) :
    (b.visit e ahead size l).state.backlog.index = b.backlog.index := by
  obtain ⟨backlog, boxes, hkeep, h⟩ := b.visit_cases e ahead size l
  obtain rfl : backlog = b.backlog := hkeep hl
  rcases h with ⟨-, h⟩ | ⟨s, rest, call, -, -, h⟩
  · rw [h, Logged.state_after, index_deliver]
    exact Backlog.index_modify ..
  · rw [h]
    rfl

/-- **A post that begins caches which queues there are.** -/
theorem index_post (h : b.Sound) (e : ε) (order : Arrangement Route) :
    (b.post e order).state.backlog.index =
      (b.backlog.queues.keys, some b.backlog.refresh.value) := by
  rcases b.post_cases e order with ⟨-, hp⟩ | ⟨batch, hsome, hp⟩
  · rw [hp, Logged.state_after, index_deliver]
    exact b.backlog.index_refresh
  · have hbatch : b.backlog.waiting (typeOf e) = batch :=
      (Backlog.getD_batch?_refresh h.backlog _).symm.trans (congrArg (Option.getD · []) hsome)
    rw [hp, Logged.state_after, index_visit]
    · exact (Backlog.index_modify ..).trans b.backlog.index_refresh
    · exact fun s hs => h.event_eq_of_waiting (hbatch ▸ hs)

/-- **A post that goes on keeps the queues.** -/
theorem index_resume (h : b.Sound) (o : Outcome) :
    (b.resume o).state.backlog.index = b.backlog.index := by
  cases hb : b.running with
  | nil => rw [resume_of_idle hb]
  | cons f outer =>
    cases hs : f.stage with
    | handler r =>
      rcases resume_handler_cases hb hs o with ⟨text, -, hr⟩ | ⟨-, hr⟩
      · rw [hr, Logged.state_after, backlog_finish]
      · rw [hr, Logged.state_after, index_deliver]
    | oneShot s rest size =>
      have hrest : ∀ s ∈ rest, s.event = typeOf f.event := fun s' hs' => by
        refine h.event_eq_of_batch (hb ▸ List.mem_cons_self) (List.mem_append_right _ ?_)
        rwa [Frame.unvisited, hs]
      rcases resume_oneShot_cases hb hs o with ⟨text, -, hr⟩ | ⟨-, hr⟩ | ⟨-, -, hr⟩
      · rw [hr, Logged.state_after, backlog_finish]
        exact (Backlog.index_modify ..).trans (Backlog.index_modify ..)
      · rw [hr, Logged.state_after, index_visit _ _ _ hrest]
        exact Backlog.index_modify ..
      · rw [hr, Logged.state_after, index_visit _ _ _ hrest]

/-! ## Commands -/

/-- **A post caches which queues there are, a command may queue a one-shot, and that is all.** -/
theorem index_exec (h : b.Sound) (c : Command ε) :
    (c matches .post ..) = true ∧ b.queuedBy c = [] ∧ (b.exec c).state.backlog.index =
        (b.backlog.queues.keys, some b.backlog.refresh.value) ∨
      (c matches .post ..) = false ∧ ((∃ s, b.queuedBy c = [s] ∧
          (b.exec c).state.backlog = b.backlog.add s) ∨
        b.queuedBy c = [] ∧ (b.exec c).state.backlog.index = b.backlog.index) := by
  have hquiet : (b.exec c).state.backlog = (b.queuedBy c).foldl Backlog.add b.backlog →
      (∃ s, b.queuedBy c = [s] ∧ (b.exec c).state.backlog = b.backlog.add s) ∨
        b.queuedBy c = [] ∧ (b.exec c).state.backlog.index = b.backlog.index := by
    intro hbacklog
    rcases b.queuedBy_cases c with hq | ⟨s, hq, -⟩
    · exact .inr ⟨hq, by rw [hbacklog, hq, List.foldl_nil]⟩
    · exact .inl ⟨s, hq, by rw [hbacklog, hq, List.foldl_cons, List.foldl_nil]⟩
  have hcases := b.exec_cases c
  cases c with
  | post e order => exact .inl ⟨rfl, rfl, index_post h e order⟩
  | resume o => exact .inr ⟨rfl, .inr ⟨rfl, index_resume h o⟩⟩
  | _ =>
    obtain ⟨e, order, hc⟩ | ⟨o, hc⟩ | ⟨hbacklog, -⟩ := hcases
    · cases hc
    · cases hc
    · exact .inr ⟨rfl, hquiet hbacklog⟩

/-- **A type has a queue after a command if it had one, or the command queues something for it.** -/
theorem hasQueue_exec (h : b.Sound) (c : Command ε) (t : EventType) :
    (b.exec c).state.backlog.HasQueue t ↔
      b.backlog.HasQueue t ∨ ∃ s ∈ b.queuedBy c, s.event = t := by
  have hquiet : b.queuedBy c = [] →
      (b.exec c).state.backlog.index.1 = b.backlog.queues.keys →
      ((b.exec c).state.backlog.HasQueue t ↔
        b.backlog.HasQueue t ∨ ∃ s ∈ b.queuedBy c, s.event = t) := by
    intro hq hkeys
    rw [Backlog.hasQueue_iff_mem_keys, hkeys, hq]
    exact Table.contains_iff.symm.trans (by simp [Backlog.HasQueue])
  rcases index_exec h c with ⟨-, hq, hindex⟩ | ⟨-, ⟨s, hq, hbacklog⟩ | ⟨hq, hindex⟩⟩
  · exact hquiet hq (congrArg Prod.fst hindex)
  · rw [hbacklog, hq, Backlog.hasQueue_iff_mem_keys]
    by_cases hs : b.backlog.HasQueue s.event
    · rw [Backlog.index_add_of_hasQueue hs, ← Backlog.hasQueue_iff_mem_keys]
      refine (or_iff_left_of_imp ?_).symm
      rintro ⟨s', hs', rfl⟩
      exact List.mem_singleton.1 hs' ▸ hs
    · rw [Backlog.index_add_of_not_hasQueue hs, List.mem_append, List.mem_singleton]
      refine or_congr Table.contains_iff.symm ?_
      simp [eq_comm]
  · exact hquiet hq (congrArg Prod.fst hindex)

/-- **What is cached of the queues is there after a post**, and stays until there is a new one. -/
theorem cached_queues_exec (h : b.Sound) (c : Command ε) :
    (b.exec c).state.backlog.cached.isSome = true ↔ (c matches .post ..) = true ∨
      b.backlog.cached.isSome = true ∧ ¬ ∃ s ∈ b.queuedBy c, ¬ b.backlog.HasQueue s.event := by
  rcases index_exec h c with ⟨hc, hq, hindex⟩ | ⟨hc, ⟨s, hq, hbacklog⟩ | ⟨hq, hindex⟩⟩
  · have hcached : (b.exec c).state.backlog.cached = some b.backlog.refresh.value :=
      congrArg Prod.snd hindex
    rw [hcached, hc]
    simp
  · have hcached : (b.backlog.add s).cached = (b.backlog.add s).index.2 := rfl
    rw [hbacklog, hq, hc, hcached]
    by_cases hs : b.backlog.HasQueue s.event
    · rw [Backlog.index_add_of_hasQueue hs]
      simp [hs, Backlog.index]
    · rw [Backlog.index_add_of_not_hasQueue hs]
      simp [hs]
  · have hcached : (b.exec c).state.backlog.cached = b.backlog.cached := congrArg Prod.snd hindex
    rw [hcached, hq, hc]
    simp

/-- **The types that have a queue are those that something was ever queued for.** -/
theorem hasQueue_iff_queued (config : Config) (commands : List (Command ε)) (t : EventType) :
    ((new config : Bus ε).run commands).state.backlog.HasQueue t ↔
      ∃ s ∈ (new config : Bus ε).collect queuedBy commands, s.event = t := by
  induction commands using List.reverseRecOn with
  | nil => exact iff_of_false Bool.false_ne_true fun ⟨_, hs, _⟩ => absurd hs List.not_mem_nil
  | append_singleton commands c ih =>
    have hb : ((new config : Bus ε).run commands).state.Reachable := ⟨config, commands, rfl⟩
    rw [state_run_concat, collect_concat, hasQueue_exec hb.sound, ih]
    simp only [List.mem_append, or_and_right, exists_or]

end Bus

end PubSub
