import Mathlib.Data.List.Induction
import PubSub.Proofs.OneShots.LineUp
import PubSub.Showcase.Loot

/-!
# Proofs/OneShots/Order — who waits before whom

    waiting t ──sublist── lineUp t ──run──▸ lineUp t ──sublist── waiting t

One-shots leave the pending list and come back to it one by one, a nested post taking some of them
while an outer one holds the others.  All that time they stand in the line-up of their type, where
nobody overtakes anybody, so two that are pending again stand as they stood.
-/

namespace PubSub

variable {ε : Type} [EventValue ε]

/-- **A part of a list without repetitions has its members in the same order.** -/
theorem pair_sublist_of_sublist {α : Type} [DecidableEq α] {l l' : List α} (hl : l.Nodup)
    (hs : l'.Sublist l) {x y : α} (hxy : [x, y].Sublist l) (hx : x ∈ l') (hy : y ∈ l') :
    [x, y].Sublist l' := by
  have hfilter : l.filter (· ∈ l') = l' := by
    have hself : l'.filter (· ∈ l') = l' := List.filter_eq_self.2 fun _ ha => decide_eq_true ha
    have hsub := hs.filter (· ∈ l')
    rw [hself] at hsub
    refine (hsub.eq_of_length_le (Nat.le_of_eq (List.Perm.length_eq ?_))).symm
    refine (List.perm_ext_iff_of_nodup (hl.filter _) (hl.sublist hs)).2 fun a => ?_
    rw [List.mem_filter, decide_eq_true_iff]
    exact ⟨And.right, fun ha => ⟨hs.subset ha, ha⟩⟩
  have hpair := hxy.filter (· ∈ l')
  rwa [hfilter, List.filter_eq_self.2] at hpair
  intro a ha
  rcases List.mem_pair.1 ha with rfl | rfl
  · exact decide_eq_true hx
  · exact decide_eq_true hy

namespace Bus

variable {b : Bus ε}

theorem Ticketed.run (h : b.Ticketed) (commands : List (Command ε)) :
    (b.run commands).state.Ticketed := by
  induction commands using List.reverseRecOn with
  | nil => exact h
  | append_singleton commands c ih => exact state_run_concat b commands c ▸ ih.exec c

theorem tickets_le_run (b : Bus ε) (commands : List (Command ε)) :
    b.tickets ≤ (b.run commands).state.tickets := by
  induction commands using List.reverseRecOn with
  | nil => exact Nat.le_refl _
  | append_singleton commands c ih =>
    rw [state_run_concat, tickets_exec]
    exact Nat.le_add_right_of_le ih

/-- **A one-shot that has left the line-up does not come back.** -/
theorem mem_lineUp_of_mem_exec (h : b.Ticketed) {c : Command ε} {t : EventType} {s : OneShot}
    (hold : s.ticket < b.tickets) (hs : s ∈ (b.exec c).state.lineUp t) : s ∈ b.lineUp t := by
  refine (mem_queuedBy_or_lineUp h.sound hs).2.resolve_left fun hq => ?_
  have hnew := ticket_of_mem_queuedBy hq
  omega

/-- **Nobody in the line-up overtakes anybody**, whatever is done. -/
theorem pair_sublist_lineUp_run (h : b.Ticketed) {t : EventType} {x y : OneShot}
    (hxy : [x, y].Sublist (b.lineUp t)) (commands : List (Command ε))
    (hx : x ∈ (b.run commands).state.lineUp t) (hy : y ∈ (b.run commands).state.lineUp t) :
    [x, y].Sublist ((b.run commands).state.lineUp t) := by
  induction commands using List.reverseRecOn with
  | nil => exact hxy
  | append_singleton commands c ih =>
    rw [state_run_concat] at hx hy ⊢
    have hb := h.run commands
    have hold : ∀ s ∈ [x, y], s.ticket < (b.run commands).state.tickets := fun s hs =>
      Nat.lt_of_lt_of_le (h.old (hxy.subset hs)) (b.tickets_le_run commands)
    have hpair := ih (mem_lineUp_of_mem_exec hb (hold x (by simp)) hx)
      (mem_lineUp_of_mem_exec hb (hold y (by simp)) hy)
    refine pair_sublist_of_sublist (hb.nodup_joined c t) (sublist_lineUp_exec hb.sound c t)
      (hpair.trans ?_) hx hy
    exact (List.sublist_append_left ..).append (List.Sublist.refl _)

/-- **Pending one-shots keep their order.**  If `x` waits before `y` for events of a type at some
moment of a run, then so it does at every later moment at which both wait: whatever posts have
taken them meanwhile, nested to any depth, and however these ended. -/
theorem waiting_order_stable (config : Config) (before during : List (Command ε)) (t : EventType)
    {x y : OneShot}
    (hxy : [x, y].Sublist (((new config : Bus ε).run before).state.backlog.waiting t))
    (hx : x ∈ ((new config : Bus ε).run (before ++ during)).state.backlog.waiting t)
    (hy : y ∈ ((new config : Bus ε).run (before ++ during)).state.backlog.waiting t) :
    [x, y].Sublist (((new config : Bus ε).run (before ++ during)).state.backlog.waiting t) := by
  have hb := (ticketed_new config : (new config : Bus ε).Ticketed).run before
  have hlater := hb.run during
  rw [state_run_append] at hx hy ⊢
  have hpair := pair_sublist_lineUp_run hb (hxy.trans (List.sublist_append_left ..)) during
    (List.mem_append_left _ hx) (List.mem_append_left _ hy)
  exact pair_sublist_of_sublist (hlater.nodup t) (List.sublist_append_left ..) hpair hx hy

/-- The first of two one-shots posts while it executes and is put back before the second one, which
was not visited yet. -/
theorem waiting_order_stable_of_nested :
    let t := Showcase.Loot.Event.itemType
    let x : OneShot := ⟨0, t, .untilDone ⟨0⟩⟩
    let y : OneShot := ⟨1, t, .untilDone ⟨1⟩⟩
    let before : List (Command Showcase.Loot.Event) := [.onceOrMore t ⟨0⟩, .onceOrMore t ⟨1⟩]
    let during : List (Command Showcase.Loot.Event) :=
      [.post (.item 1) .listed, .once t ⟨2⟩, .post (.item 2) .listed, .resume (.returned true),
        .resume (.returned false), .resume (.returned false)]
    let waiting (commands : List (Command Showcase.Loot.Event)) : List OneShot :=
      ((new {} : Bus Showcase.Loot.Event).run commands).state.backlog.waiting t
    [x, y].Sublist (waiting before) ∧ x ∈ waiting (before ++ during) ∧
      y ∈ waiting (before ++ during) ∧ [x, y].Sublist (waiting (before ++ during)) := by
  intro t x y before during waiting
  have hxy : [x, y].Sublist (waiting before) := by decide
  have hx : x ∈ waiting (before ++ during) := by decide
  have hy : y ∈ waiting (before ++ during) := by decide
  exact ⟨hxy, hx, hy, waiting_order_stable {} before during t hxy hx hy⟩

end Bus

end PubSub
