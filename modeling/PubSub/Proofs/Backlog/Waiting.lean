import PubSub.Backlog

/-!
# Proofs/Backlog/Waiting — what each operation does to those who wait

    add s             waiting s.event  grows by s at the end
    modify t detach   waiting t        is empty
    modify t addAll   waiting t        grows by the list at the end
    modify t settle   waiting          is as before

Everything that is said of a backlog is said of `waiting`.  The laws need a `Sound` backlog: a list
that is kept as the spare one has nothing in it, or those it holds would come back to life, and
the types that posts look through are those that have a queue.
-/

namespace PubSub

namespace Queue

/-- **A one-shot is queued behind the others.** -/
theorem waiting_add {q : Queue} (h : q.spare.getD [] = []) (s : OneShot) :
    (q.add s).waiting = q.waiting ++ [s] := by
  unfold add waiting
  cases q.pending with
  | none => simp [h]
  | some live => rfl

theorem spare_add {q : Queue} (h : q.spare.getD [] = []) (s : OneShot) :
    (q.add s).spare.getD [] = [] := by
  unfold add
  cases q.pending with
  | none => rfl
  | some live => exact h

theorem spare_addAll {q : Queue} (h : q.spare.getD [] = []) (l : List OneShot) :
    (q.addAll l).spare.getD [] = [] := by
  induction l generalizing q with
  | nil => exact h
  | cons s l ih => exact ih (spare_add h s)

/-- **One-shots are queued behind the others, in their order.** -/
theorem waiting_addAll {q : Queue} (h : q.spare.getD [] = []) (l : List OneShot) :
    (q.addAll l).waiting = q.waiting ++ l := by
  induction l generalizing q with
  | nil => exact (List.append_nil _).symm
  | cons s l ih =>
    calc (q.addAll (s :: l)).waiting = (q.add s).waiting ++ l := ih (spare_add h s)
      _ = q.waiting ++ (s :: l) := by rw [waiting_add h, List.append_assoc, List.singleton_append]

theorem spare_settle {q : Queue} (h : q.spare.getD [] = []) (threshold size : Nat) :
    (q.settle threshold size []).spare.getD [] = [] := by
  unfold settle
  split
  · rfl
  · exact h

end Queue

namespace Backlog

/-- Spare lists are empty, and the types that are cached are those that have a queue. -/
structure Sound (b : Backlog) : Prop where
  spare : ∀ {t q}, b.queues.get? t = some q → q.spare.getD [] = []
  cached : ∀ {types}, b.cached = some types → types = b.queues.keys

theorem sound_empty : empty.Sound where
  spare h := by cases h
  cached h := by cases h

/-- Whether a type has a queue. -/
def HasQueue (b : Backlog) (t : EventType) : Prop := b.queues.contains t = true

variable {b : Backlog}

/-! ## Queueing -/

theorem hasQueue_of_waiting {t : EventType} (h : b.waiting t ≠ []) : b.HasQueue t := by
  unfold HasQueue Table.contains
  cases hq : b.queues.get? t with
  | none =>
    rw [waiting, Table.getD, hq] at h
    exact absurd rfl h
  | some q => rfl

theorem Sound.add (h : b.Sound) (s : OneShot) : (b.add s).Sound := by
  unfold Backlog.add
  cases hq : b.queues.get? s.event with
  | none =>
    refine ⟨fun {t q} ht => ?_, fun hc => (nomatch hc)⟩
    rw [Table.get?_insert] at ht
    split at ht
    · cases ht
      rfl
    · exact h.spare ht
  | some q₀ =>
    refine ⟨fun {t q} ht => ?_, fun {types} hc => ?_⟩
    · rw [Table.get?_insert] at ht
      split at ht
      · cases ht
        exact Queue.spare_add (h.spare hq) s
      · exact h.spare ht
    · rw [Table.keys_insert, if_pos (Table.contains_iff.1 (by rw [Table.contains, hq]; rfl))]
      exact h.cached hc

/-- **A one-shot waits behind the others of its type, and nobody else is moved.** -/
theorem waiting_add (h : b.Sound) (s : OneShot) (t : EventType) :
    (b.add s).waiting t = b.waiting t ++ if s.event = t then [s] else [] := by
  unfold Backlog.add waiting Table.getD
  cases hq : b.queues.get? s.event with
  | none =>
    by_cases ht : s.event = t
    · subst ht
      simp [hq]
      rfl
    · simp [ht, Table.get?_insert]
  | some q =>
    by_cases ht : s.event = t
    · subst ht
      simp [hq, Queue.waiting_add (h.spare hq)]
    · simp [ht, Table.get?_insert]

theorem hasQueue_add (s : OneShot) {t : EventType} (h : b.HasQueue t) : (b.add s).HasQueue t := by
  unfold HasQueue Backlog.add Table.contains at *
  cases b.queues.get? s.event with
  | none =>
    rw [Table.get?_insert]
    split
    · rfl
    · exact h
  | some q =>
    rw [Table.get?_insert]
    split
    · rfl
    · exact h

/-- Queueing several one-shots keeps a backlog sound and its queues. -/
theorem Sound.foldl_add (h : b.Sound) (l : List OneShot) : (l.foldl Backlog.add b).Sound := by
  induction l generalizing b with
  | nil => exact h
  | cons s l ih => exact ih (h.add s)

theorem hasQueue_foldl_add (l : List OneShot) {t : EventType} (h : b.HasQueue t) :
    (l.foldl Backlog.add b).HasQueue t := by
  induction l generalizing b with
  | nil => exact h
  | cons s l ih => exact ih (hasQueue_add s h)

/-- **Those that are queued wait behind the others of their type.** -/
theorem waiting_foldl_add (h : b.Sound) (l : List OneShot) (t : EventType) :
    (l.foldl Backlog.add b).waiting t = b.waiting t ++ l.filter (·.event = t) := by
  induction l generalizing b with
  | nil => exact (List.append_nil _).symm
  | cons s l ih =>
    rw [List.foldl_cons, ih (h.add s), waiting_add h, List.append_assoc, List.filter_cons]
    by_cases ht : s.event = t
    · rw [if_pos ht, if_pos (decide_eq_true ht), List.singleton_append]
    · rw [if_neg ht, if_neg (by simpa using ht), List.nil_append]

/-! ## Changing the queue of a type -/

theorem Sound.modify (h : b.Sound) (t : EventType) {f : Queue → Queue}
    (hf : ∀ q, q.spare.getD [] = [] → (f q).spare.getD [] = []) : (b.modify t f).Sound := by
  refine ⟨fun {t' q} ht => ?_, fun {types} hc => ?_⟩
  · unfold Backlog.modify at ht
    rw [Table.get?_modify] at ht
    split at ht
    · obtain ⟨q', hq', rfl⟩ := Option.map_eq_some_iff.1 ht
      exact hf q' (h.spare hq')
    · exact h.spare ht
  · exact (h.cached hc).trans (Table.keys_modify ..).symm

theorem hasQueue_modify (t t' : EventType) (f : Queue → Queue) :
    (b.modify t f).HasQueue t' ↔ b.HasQueue t' := by
  unfold HasQueue
  rw [Table.contains_iff, Table.contains_iff, Backlog.modify, Table.keys_modify]

/-- What waits for a type after its queue was changed. -/
theorem waiting_modify (t t' : EventType) (f : Queue → Queue) :
    (b.modify t f).waiting t' =
      if t = t' then ((b.queues.get? t').map f |>.getD .empty).waiting else b.waiting t' := by
  unfold Backlog.modify waiting Table.getD
  rw [Table.get?_modify]
  split
  · rfl
  · rfl

/-- **Those whom a post takes away wait no more.** -/
theorem waiting_modify_detach (t t' : EventType) :
    (b.modify t Queue.detach).waiting t' = if t = t' then [] else b.waiting t' := by
  rw [waiting_modify]
  cases b.queues.get? t' <;> rfl

/-- **Those who are put back wait behind the others.** -/
theorem waiting_modify_addAll (h : b.Sound) {t : EventType} (hq : b.HasQueue t)
    (l : List OneShot) (t' : EventType) :
    (b.modify t (·.addAll l)).waiting t' = b.waiting t' ++ if t = t' then l else [] := by
  rw [waiting_modify]
  by_cases ht : t = t'
  · subst ht
    obtain ⟨q, hget⟩ := Option.isSome_iff_exists.1 hq
    rw [if_pos rfl, if_pos rfl, waiting, Table.getD, hget]
    exact Queue.waiting_addAll (h.spare hget) l
  · rw [if_neg ht, if_neg ht, List.append_nil]

/-- **Keeping a spare list moves nobody.** -/
theorem waiting_modify_settle (t t' : EventType) (threshold size : Nat) (drained : List OneShot) :
    (b.modify t (·.settle threshold size drained)).waiting t' = b.waiting t' := by
  rw [waiting_modify]
  split
  · unfold waiting Table.getD
    cases b.queues.get? t' with
    | none => rfl
    | some q => exact Queue.waiting_settle ..
  · rfl

/-! ## What a post finds -/

theorem Sound.refresh (h : b.Sound) : b.refresh.state.Sound := by
  unfold Backlog.refresh
  split
  · exact h
  · exact ⟨h.spare, fun hc => (Option.some.inj hc).symm⟩

theorem queues_refresh (b : Backlog) : b.refresh.state.queues = b.queues := by
  unfold Backlog.refresh
  split
  · rfl
  · rfl

theorem waiting_refresh (b : Backlog) (t : EventType) :
    b.refresh.state.waiting t = b.waiting t := by
  rw [waiting, waiting, queues_refresh]

/-- **Posts look through the types that have a queue, whether or not they were cached.** -/
theorem Sound.value_refresh (h : b.Sound) : b.refresh.value = b.queues.keys := by
  unfold Backlog.refresh
  cases hc : b.cached with
  | none => rfl
  | some types => exact h.cached hc

/-- The types are cached once somebody has read them. -/
theorem Sound.state_refresh (h : b.Sound) :
    b.refresh.state = { b with cached := some b.queues.keys } := by
  unfold Backlog.refresh
  cases hc : b.cached with
  | none => rfl
  | some types => exact h.cached hc ▸ congrArg (Backlog.mk b.queues) hc

/-- The pending list of a type is found where the types that have a queue are listed. -/
theorem batch?_keys (b : Backlog) (t : EventType) :
    b.batch? b.queues.keys t = (b.queues.get? t).bind (·.pending) := by
  unfold batch?
  by_cases ht : t ∈ b.queues.keys
  · rw [if_pos ht]
  · rw [if_neg ht, Table.get?_eq_none_iff.2 ht, Option.bind_none]

/-- **A post finds the pending list of its type, whether or not the types were cached.** -/
theorem batch?_refresh (h : b.Sound) (t : EventType) :
    b.refresh.state.batch? b.refresh.value t = (b.queues.get? t).bind (·.pending) := by
  rw [h.value_refresh, h.state_refresh]
  exact batch?_keys b t

theorem getD_batch?_refresh (h : b.Sound) (t : EventType) :
    (b.refresh.state.batch? b.refresh.value t).getD [] = b.waiting t := by
  rw [batch?_refresh h, waiting, Table.getD]
  cases b.queues.get? t <;> rfl

end Backlog

end PubSub
