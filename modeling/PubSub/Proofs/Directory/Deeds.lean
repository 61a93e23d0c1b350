import Mathlib.Data.List.Induction
import PubSub.Proofs.Directory.Index
import PubSub.Proofs.Post.Stack

/-!
# Proofs/Directory/Deeds — who is live, told from what was done

    … leaves o … enters o i … enters o j … declares p cs …      (the past, oldest first)
        │           └── the first entry of its key since: this one counts
        └── the last time the owner left

The past of a bus is the list of its deeds: what was accepted, one entry after the other, whoever
asked for it and however deep posts were nested.  It alone decides which subscriptions are live
and what they cover.  The directory is the past folded up as it happens (`Reflects`).
-/

namespace PubSub

/-- **A member of a list with one more at its end** is that one, or a member of the list. -/
theorem concat_eq_append_cons {α : Type} {past before after : List α} {d x : α} :
    past ++ [d] = before ++ x :: after ↔
      (after = [] ∧ before = past ∧ x = d) ∨
        ∃ after', after = after' ++ [d] ∧ past = before ++ x :: after' := by
  rcases List.eq_nil_or_concat' after with rfl | ⟨after', y, rfl⟩
  · constructor
    · intro h
      obtain ⟨hp, hd⟩ := List.append_inj' h rfl
      exact .inl ⟨rfl, hp.symm, (List.singleton_inj.1 hd).symm⟩
    · rintro (⟨-, rfl, rfl⟩ | ⟨after', h, -⟩)
      · rfl
      · exact absurd h.symm (by simp)
  · constructor
    · intro h
      rw [← List.cons_append, ← List.append_assoc] at h
      obtain ⟨hp, hd⟩ := List.append_inj' h rfl
      exact .inr ⟨after', by rw [List.singleton_inj.1 hd], hp⟩
    · rintro (⟨h, -⟩ | ⟨after'', h, rfl⟩)
      · exact absurd h (by simp)
      · obtain ⟨rfl, hd⟩ := List.append_inj' h rfl
        rw [List.singleton_inj.1 hd, List.append_assoc, List.cons_append]

/-- Something that was accepted about the subscriptions of a bus. -/
inductive Deed
  | enters (owner : Owner) (interest : Interest)
  | leaves (owner : OwnerId)
  | declares (parent : EventType) (children : List EventType)
  deriving DecidableEq, Repr

namespace Deed

/-! ## What the past says -/

/-- The family that a deed founds for a type. -/
def founds? (t : EventType) : Deed → Option (List EventType)
  | declares p cs => if p = t then some cs else none
  | _ => none

@[simp] theorem founds?_enters (t : EventType) (o : Owner) (i : Interest) :
    founds? t (enters o i) = none := rfl

@[simp] theorem founds?_leaves (t : EventType) (o : OwnerId) : founds? t (leaves o) = none := rfl

@[simp] theorem founds?_declares (t p : EventType) (cs : List EventType) :
    founds? t (declares p cs) = if p = t then some cs else none := rfl

/-- The declared children of a type, if it was declared. -/
def family? (past : List Deed) (t : EventType) : Option (List EventType) :=
  past.findSome? (founds? t)

/-- What an interest becomes when `o` enters it after `past`: it covers the children declared by
then, seen as events of its own type, and never any others. -/
def subscriptionAt (past : List Deed) (o : Owner) (i : Interest) : Subscription :=
  ⟨o, i.event, i.name, i.handler, Upcast.allTo i.event ((family? past i.event).getD [])⟩

/-- A key was entered since its owner last left, and `P` holds of the entry and of what had been
done before it. -/
def EnteredWith (P : List Deed → Owner → Interest → Prop) (past : List Deed) (k : Key) : Prop :=
  ∃ before o i after, past = before ++ enters o i :: after ∧ i.key o = k ∧
    leaves k.owner ∉ after ∧ P before o i

/-- A key is live when it was entered since its owner last left. -/
def Live : List Deed → Key → Prop := EnteredWith fun _ _ _ => True

/-- The subscription of a live key is that of its earliest entry since its owner last left. -/
def LiveAs (past : List Deed) (k : Key) (s : Subscription) : Prop :=
  EnteredWith (fun before o i => ¬ Live before k ∧ s = subscriptionAt before o i) past k

/-! ## One deed more -/

/-- **What a deed changes**: an entry may be a first one, leaving ends all entries of the owner. -/
theorem enteredWith_concat {P : List Deed → Owner → Interest → Prop} {past : List Deed} {d : Deed}
    {k : Key} :
    EnteredWith P (past ++ [d]) k ↔
      (∃ o i, d = enters o i ∧ i.key o = k ∧ P past o i) ∨
        (d ≠ leaves k.owner ∧ EnteredWith P past k) := by
  constructor
  · rintro ⟨before, o, i, after, h, hk, hstay, hP⟩
    rcases concat_eq_append_cons.1 h with ⟨rfl, rfl, hd⟩ | ⟨after', rfl, rfl⟩
    · exact .inl ⟨o, i, hd.symm, hk, hP⟩
    · rw [List.mem_append, List.mem_singleton, not_or] at hstay
      exact .inr ⟨Ne.symm hstay.2, before, o, i, after', rfl, hk, hstay.1, hP⟩
  · rintro (⟨o, i, rfl, hk, hP⟩ | ⟨hd, before, o, i, after, rfl, hk, hstay, hP⟩)
    · exact ⟨past, o, i, [], rfl, hk, List.not_mem_nil, hP⟩
    · refine ⟨before, o, i, after ++ [d], ?_, hk, ?_, hP⟩
      · rw [List.append_assoc, List.cons_append]
      · rw [List.mem_append, List.mem_singleton, not_or]
        exact ⟨hstay, hd.symm⟩

theorem not_enteredWith_nil {P : List Deed → Owner → Interest → Prop} {k : Key} :
    ¬ EnteredWith P [] k := by
  rintro ⟨before, o, i, after, h, -⟩
  exact absurd h.symm (by simp)

/-- **A live key has a subscription, and only a live key has one.** -/
theorem live_iff_exists_liveAs (past : List Deed) (k : Key) :
    Live past k ↔ ∃ s, LiveAs past k s := by
  induction past using List.reverseRecOn with
  | nil => exact iff_of_false not_enteredWith_nil fun ⟨_, h⟩ => not_enteredWith_nil h
  | append_singleton past d ih =>
    constructor
    · intro h
      rcases enteredWith_concat.1 h with ⟨o, i, rfl, hk, -⟩ | ⟨hd, hpast⟩
      · by_cases hlive : Live past k
        · obtain ⟨s, hs⟩ := ih.1 hlive
          exact ⟨s, enteredWith_concat.2 (.inr ⟨Deed.noConfusion, hs⟩)⟩
        · exact ⟨_, enteredWith_concat.2 (.inl ⟨o, i, rfl, hk, hlive, rfl⟩)⟩
      · obtain ⟨s, hs⟩ := ih.1 hpast
        exact ⟨s, enteredWith_concat.2 (.inr ⟨hd, hs⟩)⟩
    · rintro ⟨s, hs⟩
      refine enteredWith_concat.2 ((enteredWith_concat.1 hs).imp ?_ ?_)
      · rintro ⟨o, i, hd, hk, -⟩
        exact ⟨o, i, hd, hk, trivial⟩
      · rintro ⟨hd, hpast⟩
        exact ⟨hd, ih.2 ⟨s, hpast⟩⟩

theorem liveAs_concat {past : List Deed} {d : Deed} {k : Key} {s : Subscription} :
    LiveAs (past ++ [d]) k s ↔
      (∃ o i, d = enters o i ∧ i.key o = k ∧ ¬ Live past k ∧ s = subscriptionAt past o i) ∨
        (d ≠ leaves k.owner ∧ LiveAs past k s) := enteredWith_concat

theorem key_of_liveAs {past : List Deed} {k : Key} {s : Subscription} (h : LiveAs past k s) :
    s.key = k := by
  obtain ⟨before, o, i, after, -, hk, -, -, rfl⟩ := h
  exact hk

theorem family?_concat (past : List Deed) (d : Deed) (t : EventType) :
    family? (past ++ [d]) t = (family? past t).or (founds? t d) := by
  rw [family?, List.findSome?_append, family?, List.findSome?_singleton]

end Deed

/-! ## The directory is the past folded up -/

namespace Directory

open Deed

/-- A directory knows of the past which families there are and who is live. -/
structure Reflects (d : Directory) (past : List Deed) : Prop where
  family : ∀ t, d.families.get? t = (family? past t).map (Upcast.allTo t)
  live : ∀ k s, d.find? k = some s ↔ LiveAs past k s

theorem reflects_empty : Reflects empty [] where
  family _ := rfl
  live _ _ := ⟨fun h => (nomatch h), fun h => absurd h not_enteredWith_nil⟩

variable {d : Directory} {past : List Deed}

/-- The children of a type are those of its family, if it has one. -/
theorem Reflects.childrenOf_eq (h : d.Reflects past) (t : EventType) :
    d.childrenOf t = Upcast.allTo t ((family? past t).getD []) := by
  rw [childrenOf, Table.getD, h.family]
  cases family? past t <;> rfl

/-- A key is live when something is found under it. -/
theorem Reflects.live_iff (h : d.Reflects past) (k : Key) :
    Live past k ↔ (d.find? k).isSome = true := by
  rw [live_iff_exists_liveAs, Option.isSome_iff_exists]
  exact exists_congr fun s => (h.live k s).symm

/-- A live key has just one subscription. -/
theorem Reflects.live_iff_existsUnique (h : d.Reflects past) (k : Key) :
    Live past k ↔ ∃! s, LiveAs past k s := by
  rw [live_iff_exists_liveAs]
  refine ⟨fun ⟨s, hs⟩ => ⟨s, hs, fun s' hs' => ?_⟩, fun ⟨s, hs, _⟩ => ⟨s, hs⟩⟩
  exact Option.some.inj (((h.live k s').2 hs').symm.trans ((h.live k s).2 hs))

/-- Entering a key that is live changes nothing. -/
theorem Reflects.enters_live (h : d.Reflects past) {o : Owner} {i : Interest}
    (hlive : (d.find? (i.key o)).isSome = true) : d.Reflects (past ++ [enters o i]) where
  family t := by rw [family?_concat, h.family, founds?_enters, Option.or_none]
  live k s := by
    rw [h.live, liveAs_concat]
    refine ⟨fun hs => .inr ⟨Deed.noConfusion, hs⟩, ?_⟩
    rintro (⟨o', i', he, hk, hnot, -⟩ | ⟨-, hs⟩)
    · cases he
      exact absurd ((h.live_iff k).2 (hk ▸ hlive)) hnot
    · exact hs

/-- **Entering a free key makes its subscription live.** -/
theorem Reflects.enters_free (h : d.Reflects past) {o : Owner} {i : Interest}
    (hfree : d.find? (i.key o) = none) :
    (d.enter (d.subscriptionOf o i)).Reflects (past ++ [enters o i]) where
  family t := by
    rw [family?_concat, founds?_enters, Option.or_none]
    exact h.family t
  live k s := by
    have hsub : d.subscriptionOf o i = subscriptionAt past o i := by
      rw [subscriptionOf, h.childrenOf_eq, subscriptionAt]
    have hkey : (subscriptionAt past o i).key = i.key o := rfl
    rw [find?_enter, hsub, hkey, liveAs_concat]
    by_cases hk : i.key o = k
    · have hdead : ¬ Live past k := by
        rw [h.live_iff, ← hk, hfree]
        exact Bool.false_ne_true
      rw [if_pos hk]
      constructor
      · intro hs
        exact .inl ⟨o, i, rfl, hk, hdead, (Option.some.inj hs).symm⟩
      · rintro (⟨o', i', he, -, -, rfl⟩ | ⟨-, hs⟩)
        · cases he
          rfl
        · exact absurd ((live_iff_exists_liveAs past k).2 ⟨s, hs⟩) hdead
    · rw [if_neg hk, h.live]
      refine ⟨fun hs => .inr ⟨Deed.noConfusion, hs⟩, ?_⟩
      rintro (⟨o', i', he, hk', -⟩ | ⟨-, hs⟩)
      · cases he
        exact absurd hk' hk
      · exact hs

theorem Reflects.enterAll (h : d.Reflects past) (o : Owner) (is : List Interest) :
    (enterAll o is d).state.Reflects (past ++ is.map (enters o)) := by
  induction is generalizing d past with
  | nil => simpa [Directory.enterAll] using h
  | cons i is ih =>
    have hcons : past ++ (i :: is).map (enters o) =
        (past ++ [enters o i]) ++ is.map (enters o) := by
      rw [List.map_cons, List.append_assoc, List.singleton_append]
    rw [hcons]
    unfold Directory.enterAll
    by_cases hlive : (d.find? (i.key o)).isSome = true
    · rw [if_pos hlive]
      exact ih (h.enters_live hlive)
    · rw [if_neg hlive]
      exact ih (h.enters_free (Option.not_isSome_iff_eq_none.1 hlive))

/-- **A registration that is accepted enters its interests one after the other.** -/
theorem Reflects.register (h : d.Reflects past) (o : Owner) {is : List Interest} {n : Nat}
    (hok : (d.register o is).value = .ok n) :
    (d.register o is).state.Reflects (past ++ is.map (enters o)) := by
  have hall := h.enterAll o is
  unfold Directory.register at hok ⊢
  cases hdefect : is.findSome? Interest.defect? with
  | some e => simp [hdefect] at hok
  | none =>
    by_cases hzero : (Directory.enterAll o is d).value = 0
    · simp only [hzero, if_true]
      exact hall
    · simp only [if_neg hzero]
      exact ⟨hall.family, hall.live⟩

/-- A registration that is refused changes nothing. -/
theorem state_register_of_error {o : Owner} {is : List Interest} {e : RegisterError}
    (herr : (d.register o is).value = .error e) : (d.register o is).state = d := by
  unfold Directory.register at herr ⊢
  cases hdefect : is.findSome? Interest.defect? with
  | some e => rfl
  | none => simp [hdefect] at herr

/-- **An owner who leaves ends what it entered.** -/
theorem Reflects.unregister (h : d.Reflects past) (o : OwnerId) :
    (d.unregister o).1.Reflects (past ++ [leaves o]) where
  family t := by
    have hfamilies : (d.unregister o).1.families = d.families := by
      unfold Directory.unregister
      cases d.holdings.get? o <;> rfl
    rw [family?_concat, hfamilies, h.family, founds?_leaves, Option.or_none]
  live k s := by
    rw [find?_unregister, liveAs_concat]
    by_cases ho : o = k.owner
    · rw [if_pos ho, ho]
      refine ⟨fun hs => (nomatch hs), ?_⟩
      rintro (⟨o', i', he, -⟩ | ⟨hne, -⟩)
      · cases he
      · exact absurd rfl hne
    · rw [if_neg ho, h.live]
      refine ⟨fun hs => .inr ⟨fun he => ho (leaves.inj he), hs⟩, ?_⟩
      rintro (⟨o', i', he, -⟩ | ⟨-, hs⟩)
      · cases he
      · exact hs

/-- **A declaration founds a family, and moves nobody.** -/
theorem Reflects.declare (h : d.Reflects past) {p : EventType} (cs : List EventType)
    (hnew : d.families.contains p = false) :
    Reflects { d with families := d.families.insert p (Upcast.allTo p cs) }
      (past ++ [declares p cs]) where
  family t := by
    rw [family?_concat, Table.get?_insert, founds?_declares]
    by_cases ht : p = t
    · subst ht
      have hnone : family? past p = none := by
        have hget : d.families.get? p = none :=
          Option.not_isSome_iff_eq_none.1 (Bool.eq_false_iff.1 hnew)
        rwa [h.family, Option.map_eq_none_iff] at hget
      rw [if_pos rfl, if_pos rfl, hnone, Option.none_or, Option.map_some]
    · rw [if_neg ht, if_neg ht, Option.or_none, h.family]
  live k s := by
    rw [liveAs_concat]
    refine (h.live k s).trans ⟨fun hs => .inr ⟨Deed.noConfusion, hs⟩, ?_⟩
    rintro (⟨o', i', he, -⟩ | ⟨-, hs⟩)
    · cases he
    · exact hs

end Directory

/-! ## Runs -/

variable {ε : Type}

/-- The deeds of a command, by the answer it got. -/
def Command.deeds : Command ε → Reply ε → List Deed
  | .register o interests, .registered (.ok ()) => interests.map (Deed.enters o)
  | .unregister o, _ => [.leaves o.id]
  | .declare p cs, .declared (.ok ()) => [.declares p cs]
  | _, _ => []

namespace Bus

variable [EventValue ε]

/-- The deeds of a run, oldest first. -/
def deeds (b : Bus ε) (commands : List (Command ε)) : List Deed :=
  b.collect (fun b c => c.deeds (b.exec c).value) commands

/-- **A command keeps the directory coherent.** -/
theorem coherent_exec {b : Bus ε} (h : b.directory.Coherent) (c : Command ε) :
    (b.exec c).state.directory.Coherent := by
  rw [directory_exec]
  cases c with
  | register o interests => exact h.register o interests
  | unregister o => exact h.unregister o.id
  | declare p cs => exact h.declare p cs
  | hasSubscribers t => exact h.refresh
  | post e order => exact h.refresh
  | once | onceOrMore | next | poll | resume => exact h

/-- **In every reachable state the two indices agree and the cached routes are up to date.** -/
theorem Reachable.coherent {b : Bus ε} (h : b.Reachable) : b.directory.Coherent :=
  h.induction (P := fun b => b.directory.Coherent) (fun _ => Directory.coherent_empty)
    fun _ c hb => coherent_exec hb c

omit [EventValue ε] in
/-- A bus answers a registration as its directory does. -/
theorem value_register (b : Bus ε) (o : Owner) (interests : List Interest) :
    (∃ n, (b.directory.register o interests).value = .ok n ∧
        (b.register o interests).value = .ok ()) ∨
      ∃ e, (b.directory.register o interests).value = .error e ∧
        (b.register o interests).value = .error e := by
  unfold register
  dsimp only
  cases hv : (b.directory.register o interests).value with
  | ok n => exact .inl ⟨n, rfl, rfl⟩
  | error e => exact .inr ⟨e, rfl, rfl⟩

theorem reflects_refresh {d : Directory} {past : List Deed} (h : d.Reflects past) :
    d.refresh.state.Reflects past := by
  unfold Directory.refresh
  cases d.cached with
  | some routes => exact h
  | none => exact ⟨h.family, h.live⟩

/-- **A command adds its deeds to the past that the directory reflects.** -/
theorem reflects_exec {b : Bus ε} {past : List Deed} (h : b.directory.Reflects past)
    (c : Command ε) :
    (b.exec c).state.directory.Reflects (past ++ c.deeds (b.exec c).value) := by
  have idle : ∀ {d : Directory}, d.Reflects past → d.Reflects (past ++ []) := fun hd => by
    rwa [List.append_nil]
  rw [directory_exec]
  cases c with
  | register o interests =>
    rcases b.value_register o interests with ⟨n, hd, hb⟩ | ⟨e, hd, hb⟩
    · have hdeeds : (Command.register o interests : Command ε).deeds
          (b.exec (.register o interests)).value = interests.map (Deed.enters o) := by
        simp [exec, execBy, hb, Command.deeds]
      rw [hdeeds]
      exact h.register o hd
    · have hdeeds : (Command.register o interests : Command ε).deeds
          (b.exec (.register o interests)).value = [] := by
        simp [exec, execBy, hb, Command.deeds]
      dsimp only
      rw [hdeeds, Directory.state_register_of_error hd]
      exact idle h
  | unregister o => exact h.unregister o.id
  | declare p cs =>
    rcases Directory.declare_cases b.directory p cs with ⟨hv, hnew, -, hs⟩ | ⟨⟨e, hv⟩, hs⟩
    · have hdeeds : (Command.declare p cs : Command ε).deeds (b.exec (.declare p cs)).value =
          [.declares p cs] := by
        simp [exec, execBy, declare, hv, Command.deeds]
      dsimp only
      rw [hdeeds, hs]
      exact h.declare cs hnew
    · have hdeeds : (Command.declare p cs : Command ε).deeds (b.exec (.declare p cs)).value =
          [] := by
        simp [exec, execBy, declare, hv, Command.deeds]
      dsimp only
      rw [hdeeds, hs]
      exact idle h
  | hasSubscribers t => exact idle (reflects_refresh h)
  | post e order => exact idle (reflects_refresh h)
  | once | onceOrMore | next | poll | resume => exact idle h

/-- **After every run the directory is its deeds folded up.** -/
theorem reflects_run (config : Config) (commands : List (Command ε)) :
    ((new config : Bus ε).run commands).state.directory.Reflects
      ((new config : Bus ε).deeds commands) := by
  induction commands using List.reverseRecOn with
  | nil => exact Directory.reflects_empty
  | append_singleton commands c ih =>
    rw [state_run_concat, deeds, collect_concat]
    exact reflects_exec ih c

end Bus

end PubSub
