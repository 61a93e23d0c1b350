import PubSub.Proofs.OneShots.Calls
import PubSub.Proofs.OneShots.Meeting

/-!
# Proofs/OneShots/Conservation — no one-shot is lost or doubled

    queued  =  pending  +  not yet visited  +  executing  +  gone

At every moment of every run each one-shot that was queued is in exactly one of these places, and
it is gone just when its last call left it with nothing more to do.  So what is to run once runs at
most once, and it runs in the first post of its type that comes to it.
-/

namespace PubSub

variable {ε : Type} [EventValue ε]

namespace Bus

/-- Every one-shot that was queued is in one place: what was queued has tickets of its own; nobody
else is pending or held, and nobody under another type; nobody is anywhere twice; those that are
nowhere are those that are gone.  Calls are for the event's own type, and at most one for what is
to run once. -/
structure Conserved (b : Bus ε) (queued : List OneShot) (history : List (Receipt ε))
    (calls : List (Call ε)) : Prop where
  nodup_tickets : (queued.map (·.ticket)).Nodup
  pending : ∀ {t s}, s ∈ b.backlog.waiting t → s ∈ queued ∧ s.event = t
  held : ∀ {f s}, f ∈ b.running → s ∈ f.batch → s ∈ queued ∧ s.event = typeOf f.event
  nodup_places : ∀ t, (b.places t).Nodup
  mem_places_iff : ∀ {s}, s ∈ queued → (s ∈ b.places s.event ↔ ¬ Gone history s)
  called : ∀ {s cb e}, .oneShot s cb e ∈ calls → s ∈ queued ∧ typeOf e = s.event
  once : ∀ {s cb}, s ∈ queued → s.task = .once cb → (calls.filterMap Call.oneShot?).count s ≤ 1

theorem Sound.mem_places_iff {b : Bus ε} (h : b.Sound) (s : OneShot) :
    s ∈ b.places s.event ↔ s ∈ b.lineUp s.event := by
  rw [← List.count_pos_iff, ← List.count_pos_iff, h.count_places]

/-- **Nobody is anywhere twice.** -/
theorem Ticketed.nodup_places {b : Bus ε} (h : b.Ticketed) (t : EventType) :
    (b.places t).Nodup := by
  refine List.nodup_iff_count_le_one.2 fun s => ?_
  have hline := List.nodup_iff_count_le_one.1 (h.nodup s.event) s
  rw [← h.sound.count_places, places, List.append_assoc, List.count_append] at hline
  rw [places, List.append_assoc, List.count_append]
  by_cases ht : s.event = t
  · rwa [ht] at hline
  · have hnone : (b.backlog.waiting t).count s = 0 := List.count_eq_zero_of_not_mem fun hs =>
      ht (h.sound.event_eq_of_waiting hs)
    omega

/-- **Those that are in no place are those that are gone.** -/
theorem Recorded.mem_places_iff {b : Bus ε} {queued : List OneShot} {history : List (Receipt ε)}
    (h : b.Recorded queued history) {s : OneShot} (hs : s ∈ queued) :
    s ∈ b.places s.event ↔ ¬ Gone history s := by
  rw [h.ticketed.sound.mem_places_iff]
  cases h.standing hs with
  | inLine hin hnot =>
    refine iff_of_true hin ?_
    rintro ⟨o, ho, hne⟩
    exact hne (hnot o (List.mem_of_getLast? ho))
  | gone earlier last hout hended hnot hne =>
    refine iff_of_false hout (not_not_intro ⟨last, ?_, hne⟩)
    rw [hended, List.getLast?_concat]

/-- **One-shots are conserved.**  After every run, however its posts are nested, every one-shot
that was queued is pending for its type, or not yet visited in the batch of a running post, or
executing, or gone, and only one of these; it is gone when its last call was done, failed or
panicked, and not before.

A one-shot that is queued is pending at once and stays so until an event of just its type is
posted.  That post then calls it with its event, unless another one-shot cuts the post short; it is
pending again then, for the next one. -/
theorem oneShots_conserved (config : Config) :
    (∀ commands : List (Command ε),
      ((new config : Bus ε).run commands).state.Conserved
        ((new config : Bus ε).collect queuedBy commands)
        ((new config : Bus ε).collect receipts commands)
        ((new config : Bus ε).callsMade commands)) ∧
      (∀ (before : List (Command ε)) c,
        ∀ s ∈ ((new config : Bus ε).run before).state.queuedBy c,
          s ∈ ((new config : Bus ε).run (before ++ [c])).state.backlog.waiting s.event) ∧
      ∀ (before idle : List (Command ε)) e order during,
        ∀ s ∈ ((new config : Bus ε).run before).state.backlog.waiting (typeOf e),
          (∀ c ∈ idle, ¬ c.Posts (typeOf e)) →
            ((new config : Bus ε).run (before ++ idle)).state.Meets e order during s := by
  have hticketed : ∀ commands : List (Command ε),
      ((new config : Bus ε).run commands).state.Ticketed :=
    fun commands => (recorded_run config commands).ticketed
  refine ⟨fun commands => ?_, fun before c s hs => ?_, fun before idle e order during s hs hidle =>
    ?_⟩
  · have hrecorded := recorded_run (ε := ε) config commands
    have hline : ∀ {t s}, s ∈ ((new config : Bus ε).run commands).state.lineUp t →
        s ∈ (new config : Bus ε).collect queuedBy commands ∧ s.event = t := fun hs =>
      ⟨hrecorded.mem_queued hs, hrecorded.ticketed.sound.event_eq hs⟩
    exact {
      nodup_tickets := hrecorded.nodup
      pending := fun hs => hline (List.mem_append_left _ hs)
      held := fun hf hs => hline (mem_lineUp_of_batch hf hs)
      nodup_places := hrecorded.ticketed.nodup_places
      mem_places_iff := hrecorded.mem_places_iff
      called := fun hc => (mem_queued_of_callsMade config commands hc).imp_right And.left
      once := fun hs htask => count_callsMade_le_one config commands hs htask }
  · rw [state_run_concat]
    exact mem_waiting_of_queuedBy (hticketed before).sound hs
  · refine meets_post (hticketed _) ?_ order during
    rw [state_run_append]
    exact mem_waiting_run (hticketed before).sound hidle hs

end Bus

end PubSub
