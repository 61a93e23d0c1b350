import PubSub.Proofs.Directory.Census
import PubSub.Showcase.Loot

/-!
# Proofs/Directory/Registration — what a list of interests does

    valid … valid  bad  …            refused: as if nobody had asked
    i₁ … iₘ ++ j₁ … jₙ               entered: as if the two parts had come one after the other

A list is looked through for a defect before anything of it is entered, so the first defect decides
and nothing else is left of a refused list but the record of the refusal.  What is accepted is
entered one interest after the other.  An interest whose key is live is passed over, so of each key
the first counts, and a list that brings no new key does nothing at all.
-/

namespace PubSub

/-! ## Defects -/

/-- A key under which something may be registered: with a name, and for a type that is not
primitive. -/
def Key.Admissible (k : Key) : Prop := k.name ≠ "" ∧ ∀ p, k.event ≠ .primitive p

namespace Interest

/-- **What is wrong with an interest**: the missing name comes before the primitive type. -/
theorem defect?_eq_some_iff {i : Interest} {e : RegisterError} :
    i.defect? = some e ↔ (i.name = "" ∧ e = .emptyName i.event) ∨
      (i.name ≠ "" ∧ (∃ p, i.event = .primitive p) ∧ e = .primitiveEvent i.name i.event) := by
  rw [← EventType.isPrimitive_iff]
  unfold defect?
  split
  · next hname => simp only [Option.some.injEq, hname, true_and, ne_eq, not_true, false_and,
      or_false, eq_comm]
  · next hname =>
    split
    · next hprimitive => simp only [Option.some.injEq, hname, hprimitive, ne_eq, not_false_eq_true,
        true_and, false_and, false_or, eq_comm]
    · next hprimitive => simp [hname, hprimitive]

/-- An interest without a defect is one that gives an admissible key to whoever registers it. -/
theorem defect?_eq_none_iff {i : Interest} (o : Owner) :
    i.defect? = none ↔ (i.key o).Admissible := by
  have hevent : (∀ p, i.event ≠ .primitive p) ↔ i.event.isPrimitive = false := by
    rw [← Bool.not_eq_true, EventType.isPrimitive_iff, not_exists]
  change _ ↔ i.name ≠ "" ∧ ∀ p, i.event ≠ .primitive p
  rw [hevent]
  unfold defect?
  split
  · next hname => simp [hname]
  · next hname =>
    split
    · next hprimitive => simp [hprimitive]
    · next hprimitive => simp [hname, hprimitive]

end Interest

namespace Directory

variable {d : Directory} {o : Owner} {is : List Interest}

/-! ## Refused or accepted -/

theorem value_register_eq_error_iff {e : RegisterError} :
    (d.register o is).value = .error e ↔ is.findSome? Interest.defect? = some e := by
  unfold register
  cases is.findSome? Interest.defect? with
  | none => simp
  | some e' => simp

/-- **A list is refused for the first defect in it.** -/
theorem value_register_eq_error_iff_first {e : RegisterError} :
    (d.register o is).value = .error e ↔ ∃ before i after, is = before ++ i :: after ∧
      i.defect? = some e ∧ ∀ j ∈ before, j.defect? = none := by
  rw [value_register_eq_error_iff, List.findSome?_eq_some_iff]

/-- **A list is accepted when nothing in it has a defect**, and then all of it is entered. -/
theorem register_of_accepted (h : ∀ i ∈ is, i.defect? = none) :
    d.register o is =
      ⟨{ (enterAll o is d).state with
          cached := if (enterAll o is d).value = 0 then d.cached else none },
        .ok (enterAll o is d).value, (enterAll o is d).log⟩ := by
  unfold register
  rw [List.findSome?_eq_none_iff.2 h]
  dsimp only
  by_cases hzero : (enterAll o is d).value = 0
  · rw [if_pos hzero, if_pos hzero, enterAll_eq_of_value_eq_zero o is d hzero]
  · rw [if_neg hzero, if_neg hzero]

theorem value_register_eq_ok_iff {n : Nat} :
    (d.register o is).value = .ok n ↔
      (∀ i ∈ is, i.defect? = none) ∧ (enterAll o is d).value = n := by
  rw [← List.findSome?_eq_none_iff]
  unfold register
  cases is.findSome? Interest.defect? with
  | none => simp
  | some e => simp

/-! ## Entering one list after another -/

theorem enterAll_cons_of_live {i : Interest} {s : Subscription}
    (h : d.find? (i.key o) = some s) :
    enterAll o (i :: is) d = (enterAll o is d).after [.alreadyRegistered o i.name] := by
  rw [enterAll, if_pos (by rw [h, Option.isSome_some])]

theorem enterAll_cons_of_free {i : Interest} (h : d.find? (i.key o) = none) :
    enterAll o (i :: is) d =
      { enterAll o is (d.enter (d.subscriptionOf o i)) with
        value := (enterAll o is (d.enter (d.subscriptionOf o i))).value + 1 } := by
  rw [enterAll, if_neg (by rw [h]; exact Bool.false_ne_true)]

/-- What is cached plays no part in entering interests. -/
theorem enterAll_recached (o : Owner) (is : List Interest) (d : Directory)
    (c : Option (Table EventType (List Route))) :
    enterAll o is { d with cached := c } =
      { enterAll o is d with state := { (enterAll o is d).state with cached := c } } := by
  induction is generalizing d with
  | nil => rfl
  | cons i is ih =>
    have hfind : find? { d with cached := c } (i.key o) = d.find? (i.key o) := rfl
    unfold enterAll
    rw [hfind]
    split
    · rw [ih]
      rfl
    · exact congrArg (fun x => { x with value := x.value + 1 })
        (ih (d.enter (d.subscriptionOf o i)))

/-- **Two lists are entered as one**: the second finds what the first has left. -/
theorem enterAll_append (o : Owner) (xs ys : List Interest) (d : Directory) :
    enterAll o (xs ++ ys) d =
      let first := enterAll o xs d
      let second := enterAll o ys first.state
      ⟨second.state, first.value + second.value, first.log ++ second.log⟩ := by
  induction xs generalizing d with
  | nil => simp [enterAll]
  | cons x xs ih =>
    rw [List.cons_append]
    cases hx : d.find? (x.key o) with
    | none =>
      rw [enterAll_cons_of_free hx, enterAll_cons_of_free hx, ih]
      simp only [Nat.add_right_comm]
    | some s =>
      rw [enterAll_cons_of_live hx, enterAll_cons_of_live hx, ih]
      simp only [Logged.after, List.append_assoc]

/-- **Registering two lists is registering the one they make together.** -/
theorem register_append {xs ys : List Interest} {m n : Nat}
    (hxs : (d.register o xs).value = .ok m)
    (hys : ((d.register o xs).state.register o ys).value = .ok n) :
    d.register o (xs ++ ys) =
      ⟨((d.register o xs).state.register o ys).state, .ok (m + n),
        (d.register o xs).log ++ ((d.register o xs).state.register o ys).log⟩ := by
  obtain ⟨hx, rfl⟩ := value_register_eq_ok_iff.1 hxs
  obtain ⟨hy, rfl⟩ := value_register_eq_ok_iff.1 hys
  have hxy : ∀ i ∈ xs ++ ys, i.defect? = none := fun i hi =>
    (List.mem_append.1 hi).elim (hx i) (hy i)
  have hsecond := enterAll_recached o ys (enterAll o xs d).state
    (if (enterAll o xs d).value = 0 then d.cached else none)
  rw [register_of_accepted hx, register_of_accepted hy, register_of_accepted hxy, enterAll_append,
    hsecond]
  dsimp only
  -- routes stay cached just when neither list brings anything
  by_cases hm : (enterAll o xs d).value = 0
  · simp only [hm, Nat.zero_add, if_true]
  · simp only [hm, Nat.add_eq_zero_iff, false_and, if_false, ite_self]

/-! ## What is found afterwards -/

/-- **Of each key the first entry counts**, and it counts only if the key is free. -/
theorem find?_enterAll (o : Owner) (is : List Interest) (d : Directory) (k : Key) :
    (enterAll o is d).state.find? k =
      (d.find? k).or ((is.find? (·.key o = k)).map (d.subscriptionOf o)) := by
  induction is generalizing d with
  | nil => simp [enterAll]
  | cons i is ih =>
    rw [List.find?_cons]
    cases hi : d.find? (i.key o) with
    | some s =>
      rw [enterAll_cons_of_live hi, Logged.state_after, ih]
      by_cases hk : i.key o = k
      · rw [← hk, hi, Option.some_or, Option.some_or]
      · rw [decide_eq_false hk]
    | none =>
      rw [enterAll_cons_of_free hi]
      have hkey : (d.subscriptionOf o i).key = i.key o := rfl
      have hsame : (d.enter (d.subscriptionOf o i)).subscriptionOf o = d.subscriptionOf o := rfl
      dsimp only
      rw [ih, find?_enter, hkey, hsame]
      by_cases hk : i.key o = k
      · rw [if_pos hk, decide_eq_true hk, ← hk, hi, Option.some_or, Option.none_or,
          Option.map_some]
      · rw [if_neg hk, decide_eq_false hk]

theorem find?_register {n : Nat} (h : (d.register o is).value = .ok n) (k : Key) :
    (d.register o is).state.find? k =
      (d.find? k).or ((is.find? (·.key o = k)).map (d.subscriptionOf o)) := by
  rw [register_of_accepted (value_register_eq_ok_iff.1 h).1]
  exact find?_enterAll o is d k

/-- What a key is live with is not replaced. -/
theorem find?_register_of_live (d : Directory) (o : Owner) (is : List Interest) {k : Key}
    {s : Subscription} (hs : d.find? k = some s) : (d.register o is).state.find? k = some s := by
  cases hv : (d.register o is).value with
  | error e => rwa [state_register_of_error hv]
  | ok n => rw [find?_register hv, hs, Option.some_or]

/-- **What is live after a registration** was so before, or its key was accepted. -/
theorem admissible_of_register {k : Key} (hold : (d.find? k).isSome = true → k.Admissible)
    (hk : ((d.register o is).state.find? k).isSome = true) : k.Admissible := by
  cases hv : (d.register o is).value with
  | error e =>
    rw [state_register_of_error hv] at hk
    exact hold hk
  | ok n =>
    rw [find?_register hv, Option.isSome_or, Option.isSome_map, Bool.or_eq_true_iff,
      List.find?_isSome] at hk
    rcases hk with hk | ⟨i, hi, hkey⟩
    · exact hold hk
    · have hok := (value_register_eq_ok_iff.1 hv).1 i hi
      exact of_decide_eq_true hkey ▸ (Interest.defect?_eq_none_iff o).1 hok

/-- The keys of a list that nothing is found under. -/
def fresh (d : Directory) (o : Owner) (is : List Interest) : Set Key :=
  {k | (∃ i ∈ is, i.key o = k) ∧ d.find? k = none}

/-- A live key is not new. -/
theorem fresh_cons_of_live {i : Interest} {s : Subscription} (h : d.find? (i.key o) = some s) :
    d.fresh o (i :: is) = d.fresh o is := by
  ext k
  refine and_congr_left fun hfree => ?_
  have hne : i.key o ≠ k := by
    rintro rfl
    rw [hfree] at h
    cases h
  rw [List.exists_mem_cons_iff, or_iff_right hne]

/-- A free key is new, and no longer so once it was entered. -/
theorem fresh_cons_of_free {i : Interest} (is : List Interest) (h : d.find? (i.key o) = none) :
    d.fresh o (i :: is) = insert (i.key o) ((d.enter (d.subscriptionOf o i)).fresh o is) ∧
      i.key o ∉ (d.enter (d.subscriptionOf o i)).fresh o is := by
  have hkey : (d.subscriptionOf o i).key = i.key o := rfl
  constructor
  · ext k
    change (∃ j ∈ i :: is, j.key o = k) ∧ d.find? k = none ↔
      k = i.key o ∨ (∃ j ∈ is, j.key o = k) ∧ (d.enter (d.subscriptionOf o i)).find? k = none
    rw [find?_enter, hkey, List.exists_mem_cons_iff]
    by_cases hk : i.key o = k
    · simp [← hk, h]
    · simp [hk, Ne.symm hk]
  · rintro ⟨-, hnone⟩
    rw [find?_enter, hkey, if_pos rfl] at hnone
    cases hnone

/-- **As many are entered as there are new keys**, each key counting once. -/
theorem encard_fresh (o : Owner) (is : List Interest) (d : Directory) :
    (d.fresh o is).encard = (enterAll o is d).value := by
  induction is generalizing d with
  | nil => simp [fresh, enterAll]
  | cons i is ih =>
    cases hi : d.find? (i.key o) with
    | some s =>
      rw [fresh_cons_of_live hi, enterAll_cons_of_live hi, ih, Logged.value_after]
    | none =>
      obtain ⟨hinsert, hnew⟩ := fresh_cons_of_free is hi
      rw [hinsert, Set.encard_insert_of_notMem hnew, ih, enterAll_cons_of_free hi]
      rfl

theorem encard_fresh_register {n : Nat} (h : (d.register o is).value = .ok n) :
    (d.fresh o is).encard = n := by
  rw [encard_fresh, (value_register_eq_ok_iff.1 h).2]

/-- **A list whose keys are all live does nothing.** -/
theorem register_of_live (h : ∀ i ∈ is, i.defect? = none ∧ (d.find? (i.key o)).isSome = true) :
    (d.register o is).value = .ok 0 ∧ (d.register o is).state = d := by
  have hnone : d.fresh o is = ∅ := by
    refine Set.eq_empty_of_forall_notMem ?_
    rintro k ⟨⟨i, hi, rfl⟩, hfree⟩
    have hlive := (h i hi).2
    rw [hfree] at hlive
    cases hlive
  have hzero : (enterAll o is d).value = 0 := by
    have hcard := encard_fresh o is d
    rw [hnone, Set.encard_empty] at hcard
    exact_mod_cast hcard.symm
  have hvalue : (d.register o is).value = .ok 0 :=
    value_register_eq_ok_iff.2 ⟨fun i hi => (h i hi).1, hzero⟩
  exact ⟨hvalue, state_register_of_zero hvalue⟩

end Directory

/-! ## On a bus -/

namespace Bus

variable {ε : Type} {b : Bus ε} {o : Owner} {interests : List Interest}

/-- A refused list leaves nothing but the record of the refusal. -/
theorem register_of_error {e : RegisterError}
    (h : (b.directory.register o interests).value = .error e) :
    b.register o interests = ⟨b, .error e, [.rejected o e]⟩ := by
  unfold register Directory.register
  rw [Directory.value_register_eq_error_iff.1 h]
  rfl

theorem value_register_eq_error_iff {e : RegisterError} :
    (b.register o interests).value = .error e ↔
      (b.directory.register o interests).value = .error e := by
  rcases b.value_register o interests with ⟨n, hd, hb⟩ | ⟨e', hd, hb⟩
  · rw [hd, hb]
    simp
  · rw [hd, hb]
    simp

/-- **A list is registered as a whole or not at all.**  It is refused just when something in it has
no name or waits for a primitive type.  The error is that of the first such interest, and says that
the name is missing if it is, whatever the type.  What came before it has not been entered: the bus
is the same in all its parts, and the refusal is the only thing in the log. -/
theorem register_refused (b : Bus ε) (o : Owner) (interests : List Interest) :
    ((∃ e, (b.register o interests).value = .error e) ↔
        ∃ i ∈ interests, i.name = "" ∨ ∃ p, i.event = .primitive p) ∧
      ∀ e, (b.register o interests).value = .error e →
        (∃ before i after, interests = before ++ i :: after ∧
            (∀ j ∈ before, j.name ≠ "" ∧ ∀ p, j.event ≠ .primitive p) ∧
            ((i.name = "" ∧ e = .emptyName i.event) ∨
              (i.name ≠ "" ∧ (∃ p, i.event = .primitive p) ∧
                e = .primitiveEvent i.name i.event))) ∧
          (b.register o interests).state = b ∧
          (b.register o interests).log = [.rejected o e] ∧
          (Record.rejected o e).level = .warn := by
  constructor
  · have hdefect : ∀ i : Interest,
        i.defect? ≠ none ↔ i.name = "" ∨ ∃ p, i.event = .primitive p := by
      intro i
      rw [ne_eq, Interest.defect?_eq_none_iff o, Key.Admissible, not_and_or, not_not, not_forall_not]
      rfl
    have hrefused : (∃ e, (b.register o interests).value = .error e) ↔
        interests.findSome? Interest.defect? ≠ none := by
      simp only [value_register_eq_error_iff, Directory.value_register_eq_error_iff,
        Option.ne_none_iff_exists']
    rw [hrefused, ne_eq, List.findSome?_eq_none_iff, not_forall]
    refine exists_congr fun i => ?_
    rw [Classical.not_imp]
    exact and_congr_right fun _ => hdefect i
  · intro e he
    have hd := value_register_eq_error_iff.1 he
    obtain ⟨before, i, after, heq, hi, hbefore⟩ := Directory.value_register_eq_error_iff_first.1 hd
    have hrefused := register_of_error hd
    refine ⟨⟨before, i, after, heq, fun j hj => ?_, Interest.defect?_eq_some_iff.1 hi⟩, ?_, ?_, rfl⟩
    · exact (Interest.defect?_eq_none_iff o).1 (hbefore j hj)
    · rw [hrefused]
    · rw [hrefused]

variable [EventValue ε]

/-- What is live under a key stays so, whatever is done, until its owner is removed. -/
theorem find?_exec_of_live {c : Command ε} {k : Key} {s : Subscription}
    (hs : b.directory.find? k = some s) (hc : ∀ p, c = .unregister p → p.id ≠ k.owner) :
    (b.exec c).state.directory.find? k = some s := by
  have hheld : ∀ {d' : Directory}, d'.holdings = b.directory.holdings → d'.find? k = some s :=
    fun h => by rw [Directory.find?, h]; exact hs
  rw [directory_exec]
  cases c with
  | register o interests => exact b.directory.find?_register_of_live o interests hs
  | unregister p =>
    dsimp only
    rw [Directory.find?_unregister, if_neg (hc p rfl)]
    exact hs
  | declare p children => exact hheld (b.directory.holdings_declare p children)
  | hasSubscribers t => exact hheld b.directory.holdings_refresh
  | post e order => exact hheld b.directory.holdings_refresh
  | once | onceOrMore | next | poll | resume => exact hs

theorem find?_run_of_live {commands : List (Command ε)} {k : Key} {s : Subscription}
    (hs : b.directory.find? k = some s)
    (hstays : ∀ p, .unregister p ∈ commands → p.id ≠ k.owner) :
    (b.run commands).state.directory.find? k = some s := by
  induction commands generalizing b with
  | nil => exact hs
  | cons c commands ih =>
    refine ih (find?_exec_of_live hs ?_) fun p hp => hstays p (List.mem_cons_of_mem _ hp)
    rintro p rfl
    exact hstays p List.mem_cons_self

/-- **Whatever is live was once accepted**, so nothing is wrong with its key. -/
theorem Reachable.admissible (h : b.Reachable) {k : Key}
    (hk : (b.directory.find? k).isSome = true) : k.Admissible := by
  refine h.induction (P := fun b => ∀ {k}, (b.directory.find? k).isSome = true → k.Admissible)
    (fun _ k hk => nomatch hk) (fun b c ih k hk => ?_) hk
  have hheld : ∀ {d' : Directory}, d'.holdings = b.directory.holdings →
      (d'.find? k).isSome = true → k.Admissible := by
    intro d' h hk
    rw [Directory.find?, h] at hk
    exact ih hk
  rw [directory_exec] at hk
  cases c with
  | register o interests => exact Directory.admissible_of_register ih hk
  | unregister p =>
    dsimp only at hk
    rw [Directory.find?_unregister] at hk
    split at hk
    · cases hk
    · exact ih hk
  | declare p children => exact hheld (b.directory.holdings_declare p children) hk
  | hasSubscribers t => exact hheld b.directory.holdings_refresh hk
  | post e order => exact hheld b.directory.holdings_refresh hk
  | once | onceOrMore | next | poll | resume => exact ih hk

/-- A list whose keys are all live does nothing to a bus. -/
theorem Reachable.register_of_live (h : b.Reachable)
    (hlive : ∀ i ∈ interests, (b.directory.find? (i.key o)).isSome = true) :
    (b.directory.register o interests).value = .ok 0 ∧ (b.register o interests).state = b := by
  obtain ⟨hvalue, hstate⟩ := Directory.register_of_live fun i hi =>
    ⟨(Interest.defect?_eq_none_iff o).2 (h.admissible (hlive i hi)), hlive i hi⟩
  refine ⟨hvalue, ?_⟩
  rw [state_register, hstate]

/-- **Lists may be registered one by one or together.**  Of two lists that are accepted one after
the other, the list they make together leaves the same bus, with the same indices and routes cached
or not just the same, and enters as many.  A list enters as many as there are keys in it that were
not live, each counted once.  Afterwards a key that was live is live with what it was; any other is
live with the first entry of the list that has it and the children its type has at that moment; and
the routes are those of the subscriptions.  So a list whose keys are all live does nothing, and that
is so of any list that was accepted, for as long as its owner is not removed. -/
theorem registrations_compose (hb : b.Reachable) (o : Owner) {xs ys : List Interest} {m n : Nat}
    (hxs : (b.directory.register o xs).value = .ok m)
    (hys : ((b.register o xs).state.directory.register o ys).value = .ok n) :
    let first := b.register o xs
    ((b.register o (xs ++ ys)).state = (first.state.register o ys).state ∧
        (b.directory.register o (xs ++ ys)).value = .ok (m + n)) ∧
      (b.directory.fresh o xs).encard = m ∧
      (∀ k, first.state.directory.find? k = (b.directory.find? k).or
        ((xs.find? (·.key o = k)).map (b.directory.subscriptionOf o))) ∧
      (∀ t k r, first.state.directory.route? t k = some r ↔
        ∃ s, first.state.directory.find? k = some s ∧ (t, r) ∈ s.routes) ∧
      (∀ zs, (∀ i ∈ zs, (b.directory.find? (i.key o)).isSome = true) →
        (b.directory.register o zs).value = .ok 0 ∧ (b.register o zs).state = b) ∧
      ∀ commands, (∀ p, .unregister p ∈ commands → p.id ≠ o.id) →
        let later := (first.state.run commands).state
        (later.directory.register o xs).value = .ok 0 ∧ (later.register o xs).state = later := by
  intro first
  have hfirst : first.state.directory = (b.directory.register o xs).state := by
    rw [b.state_register]
  have hreach : first.state.Reachable := hb.exec (.register o xs)
  have hfind : ∀ k, first.state.directory.find? k = (b.directory.find? k).or
      ((xs.find? (·.key o = k)).map (b.directory.subscriptionOf o)) := fun k => by
    rw [hfirst, Directory.find?_register hxs]
  have happend := Directory.register_append hxs (hfirst ▸ hys)
  refine ⟨⟨?_, ?_⟩, Directory.encard_fresh_register hxs, hfind,
    fun t k r => hreach.coherent.listed_iff, fun zs => hb.register_of_live,
    fun commands hstays => ?_⟩
  · rw [state_register, state_register, happend, hfirst, state_register]
  · rw [happend]
  · -- what was accepted is live, and stays so
    refine (hreach.run commands).register_of_live fun i hi => ?_
    have hlive : (first.state.directory.find? (i.key o)).isSome = true := by
      rw [hfind, Option.isSome_or, Option.isSome_map, List.find?_isSome.2 ⟨i, hi, by simp⟩,
        Bool.or_true]
    obtain ⟨s, hs⟩ := Option.isSome_iff_exists.1 hlive
    rw [find?_run_of_live hs hstays, Option.isSome_some]

/-- A handler for items is live, and spawns became children of items since.  The first list repeats
it with another handler and names one new handler twice; the second repeats that one and brings a
second handler for items, which covers spawns. -/
theorem registrations_compose_of_repeats :
    let item := Showcase.Loot.Event.itemType
    let spawned := Showcase.Loot.Event.spawnedType
    let o : Owner := ⟨⟨0⟩, "tracker"⟩
    let b := ((new {} : Bus Showcase.Loot.Event).run
      [.register o [⟨item, "on_item", ⟨0⟩⟩], .declare item [spawned],
        .post (.spawned 1 0 0) .listed]).state
    let xs : List Interest :=
      [⟨item, "on_item", ⟨9⟩⟩, ⟨spawned, "on_spawn", ⟨1⟩⟩, ⟨spawned, "on_spawn", ⟨2⟩⟩]
    let ys : List Interest := [⟨spawned, "on_spawn", ⟨3⟩⟩, ⟨item, "on_any", ⟨4⟩⟩]
    let first := b.register o xs
    (b.directory.register o xs).value = .ok 1 ∧
      (first.state.directory.register o ys).value = .ok 1 ∧
      ((b.register o (xs ++ ys)).state = (first.state.register o ys).state ∧
        (b.directory.register o (xs ++ ys)).value = .ok (1 + 1)) ∧
      (b.directory.fresh o xs).encard = 1 ∧
      first.state.directory.find? ⟨o.id, item, "on_item"⟩ = some ⟨o, item, "on_item", ⟨0⟩, []⟩ ∧
      first.state.directory.find? ⟨o.id, spawned, "on_spawn"⟩ =
        some ⟨o, spawned, "on_spawn", ⟨1⟩, []⟩ ∧
      (first.state.register o xs).state = first.state := by
  intro item spawned o b xs ys first
  have hxs : (b.directory.register o xs).value = .ok 1 := by decide
  have hys : (first.state.directory.register o ys).value = .ok 1 := by decide
  obtain ⟨hboth, hcount, hfind, -, -, hagain⟩ :=
    registrations_compose ⟨{}, _, (rfl : b = _)⟩ o hxs hys
  refine ⟨hxs, hys, hboth, hcount, ?_, ?_, (hagain [] fun p hp => nomatch hp).2⟩
  · rw [hfind]
    decide
  · rw [hfind]
    decide

end Bus

end PubSub
