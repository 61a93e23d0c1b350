import PubSub.Proofs.Directory.Registration

/-!
# Proofs/Directory/Families — children are declared once, for whoever comes later

    declare p cs      c₁ … cᵢ ∣ c ∣ …      the first child that is p, or one of c₁ … cᵢ, decides
    afterwards        families p = cs      for good, and nothing else in the directory has moved

A list of children is looked through like a list of interests: the first bad one decides what is
said.  What stands is never taken back.  Two directories that differ in what is declared for one
type (`DeclaredOn`) are told apart only by the subscriptions entered for that type afterwards.
-/

namespace PubSub

/-- What the first bad child of a family is, `earlier` being the children before it: the parent, or
one of those. -/
def DeclareError.FirstIn (e : DeclareError) (p : EventType) (cs : List EventType) : Prop :=
  ∃ earlier c rest, cs = earlier ++ c :: rest ∧ (p :: earlier).Nodup ∧
    (c = p ∧ e = .selfChild p ∨ c ∈ earlier ∧ e = .duplicateChild p c)

/-- The subscription as it would be with `cs` for children of `p`. -/
def Subscription.regrown (p : EventType) (cs : List EventType) (s : Subscription) : Subscription :=
  if s.event = p then { s with children := Upcast.allTo p cs } else s

namespace Directory

/-! ## What is wrong with a list of children -/

theorem badChild?_cons (p : EventType) (seen : List EventType) (c : EventType)
    (rest : List EventType) :
    badChild? p seen (c :: rest) =
      if c = p then some (.selfChild p)
      else if c ∈ seen then some (.duplicateChild p c)
      else badChild? p (c :: seen) rest := rfl

/-- **The end of a list is looked through after its beginning.** -/
theorem badChild?_append (p : EventType) (seen xs ys : List EventType) :
    badChild? p seen (xs ++ ys) =
      (badChild? p seen xs).or (badChild? p (xs.reverse ++ seen) ys) := by
  induction xs generalizing seen with
  | nil => rfl
  | cons x xs ih =>
    rw [List.cons_append, List.reverse_cons, List.append_assoc, badChild?_cons, badChild?_cons]
    split
    · rfl
    · split
      · rfl
      · exact ih (x :: seen)

/-- One child more is the first bad one, or it does not matter. -/
theorem firstIn_concat {e : DeclareError} {p c : EventType} {cs : List EventType} :
    e.FirstIn p (cs ++ [c]) ↔ e.FirstIn p cs ∨ (p :: cs).Nodup ∧
      (c = p ∧ e = .selfChild p ∨ c ∈ cs ∧ e = .duplicateChild p c) := by
  constructor
  · rintro ⟨earlier, x, rest, h, hnodup, hx⟩
    rcases concat_eq_append_cons.1 h with ⟨-, rfl, rfl⟩ | ⟨rest', -, rfl⟩
    · exact .inr ⟨hnodup, hx⟩
    · exact .inl ⟨earlier, x, rest', rfl, hnodup, hx⟩
  · rintro (⟨earlier, x, rest, rfl, hnodup, hx⟩ | ⟨hnodup, hc⟩)
    · exact ⟨earlier, x, rest ++ [c], by rw [List.append_assoc, List.cons_append], hnodup, hx⟩
    · exact ⟨cs, c, [], rfl, hnodup, hc⟩

/-- A list with a bad child in it repeats a type, the parent counted in. -/
theorem not_nodup_of_firstIn {e : DeclareError} {p : EventType} {cs : List EventType}
    (h : e.FirstIn p cs) : ¬ (p :: cs).Nodup := by
  obtain ⟨earlier, c, rest, rfl, -, hc⟩ := h
  intro hnodup
  obtain ⟨hp, hcs⟩ := List.nodup_cons.1 hnodup
  rcases hc with ⟨rfl, -⟩ | ⟨hmem, -⟩
  · exact hp (List.mem_append_right _ List.mem_cons_self)
  · exact List.disjoint_of_nodup_append hcs hmem List.mem_cons_self

/-- **The first bad child decides what is said.** -/
theorem badChild?_eq_some_iff {e : DeclareError} {p : EventType} {cs : List EventType} :
    badChild? p [] cs = some e ↔ e.FirstIn p cs := by
  induction cs using List.reverseRecOn generalizing e with
  | nil => exact iff_of_false (fun h => nomatch h) fun ⟨_, _, _, h, _⟩ => absurd h.symm (by simp)
  | append_singleton cs c ih =>
    have hlast : badChild? p [] cs = none → (badChild? p (cs.reverse ++ []) [c] = some e ↔
        (p :: cs).Nodup ∧ (c = p ∧ e = .selfChild p ∨ c ∈ cs ∧ e = .duplicateChild p c)) := by
      intro hnone
      have hnodup := (nodup_of_badChild?_eq_none hnone).1
      have hp : p ∉ cs := (List.nodup_cons.1 hnodup).1
      rw [and_iff_right hnodup, List.append_nil, badChild?_cons]
      by_cases hc : c = p
      · simp [hc, hp, eq_comm]
      · by_cases hmem : c ∈ cs
        · simp [hc, hmem, eq_comm]
        · simp [hc, hmem, badChild?]
    rw [badChild?_append, Option.or_eq_some_iff, firstIn_concat, ih]
    refine or_congr_right ⟨fun ⟨hnone, h⟩ => (hlast hnone).1 h, fun h => ?_⟩
    have hnone : badChild? p [] cs = none := by
      refine Option.eq_none_iff_forall_ne_some.2 fun e' he' => ?_
      exact not_nodup_of_firstIn (ih.1 he') h.1
    exact ⟨hnone, (hlast hnone).2 h⟩

/-- **Nothing is wrong with a list that repeats no type, the parent counted in.** -/
theorem badChild?_eq_none_iff {p : EventType} {cs : List EventType} :
    badChild? p [] cs = none ↔ (p :: cs).Nodup := by
  refine ⟨fun h => (nodup_of_badChild?_eq_none h).1, fun h => ?_⟩
  exact Option.eq_none_iff_forall_ne_some.2 fun e he =>
    not_nodup_of_firstIn (badChild?_eq_some_iff.1 he) h

/-! ## What is answered -/

variable {d d' : Directory} {p : EventType} {cs : List EventType}

/-- **A declaration stands when the type is new and no type is repeated.** -/
theorem value_declare_eq_ok_iff :
    (d.declare p cs).value = .ok () ↔ d.families.contains p = false ∧ (p :: cs).Nodup := by
  rw [← badChild?_eq_none_iff]
  unfold declare
  cases d.families.contains p with
  | true => simp
  | false => cases badChild? p [] cs <;> simp

/-- **Of a type that has a family nothing else is said**, and of any other the first bad child. -/
theorem value_declare_eq_error_iff {e : DeclareError} :
    (d.declare p cs).value = .error e ↔
      d.families.contains p = true ∧ e = .alreadyDeclared p ∨
        d.families.contains p = false ∧ e.FirstIn p cs := by
  have hagain : Except.error (ε := DeclareError) (α := Unit) (.alreadyDeclared p) = .error e ↔
      e = .alreadyDeclared p := ⟨fun h => (Except.error.inj h).symm, fun h => h ▸ rfl⟩
  rw [← badChild?_eq_some_iff]
  unfold declare
  cases d.families.contains p with
  | true => simpa using hagain
  | false => cases badChild? p [] cs <;> simp

theorem state_declare_of_ok (h : (d.declare p cs).value = .ok ()) :
    (d.declare p cs).state =
      { d with families := d.families.insert p (Upcast.allTo p cs) } := by
  rcases declare_cases d p cs with ⟨-, -, -, hs⟩ | ⟨⟨e, he⟩, -⟩
  · exact hs
  · cases h.symm.trans he

theorem state_declare_of_error {e : DeclareError} (h : (d.declare p cs).value = .error e) :
    (d.declare p cs).state = d := by
  rcases declare_cases d p cs with ⟨hok, -⟩ | ⟨-, hs⟩
  · cases h.symm.trans hok
  · exact hs

/-- The families after a declaration. -/
theorem get?_families_declare (d : Directory) (p : EventType) (cs : List EventType)
    (q : EventType) :
    (d.declare p cs).state.families.get? q =
      if p = q ∧ (d.declare p cs).value = .ok () then some (Upcast.allTo p cs)
      else d.families.get? q := by
  by_cases hv : (d.declare p cs).value = .ok ()
  · simp only [state_declare_of_ok hv, Table.get?_insert, hv, and_true]
  · rcases declare_cases d p cs with ⟨hok, -⟩ | ⟨-, hs⟩
    · exact absurd hok hv
    · rw [hs, if_neg fun h => hv h.2]

/-- **A family that was declared stays as it is**, whatever is declared next. -/
theorem get?_families_declare_of_some {q : EventType} {us : List Upcast}
    (h : d.families.get? q = some us) :
    (d.declare p cs).state.families.get? q = some us := by
  rw [get?_families_declare, if_neg, h]
  rintro ⟨rfl, hok⟩
  have hnew := (value_declare_eq_ok_iff.1 hok).1
  rw [Table.contains, h] at hnew
  cases hnew

/-! ## What else touches the families -/

theorem families_enterAll (o : Owner) (is : List Interest) (d : Directory) :
    (enterAll o is d).state.families = d.families := by
  induction is generalizing d with
  | nil => rfl
  | cons i is ih =>
    unfold enterAll
    split
    · exact ih d
    · exact ih _

theorem families_register (d : Directory) (o : Owner) (is : List Interest) :
    (d.register o is).state.families = d.families := by
  cases hv : (d.register o is).value with
  | error e => rw [state_register_of_error hv]
  | ok n =>
    rw [register_of_accepted (value_register_eq_ok_iff.1 hv).1]
    exact families_enterAll o is d

theorem families_unregister (d : Directory) (o : OwnerId) :
    (d.unregister o).1.families = d.families := by
  unfold unregister
  cases d.holdings.get? o <;> rfl

theorem families_refresh (d : Directory) : d.refresh.state.families = d.families := by
  unfold refresh
  cases d.cached <;> rfl

/-! ## Who is affected -/

/-- `cs` are declared for `p` in `d'` but not in `d`, and beyond that the same was done to both: for
every other type there is the same family.  What is under a key that is not `kept` was entered after
the declaration, if it is there, and has the children in `d'` if it is for `p`. -/
structure DeclaredOn (p : EventType) (cs : List EventType) (kept : Set Key) (d d' : Directory) :
    Prop where
  declared : d'.families.get? p = some (Upcast.allTo p cs)
  families : ∀ {q}, q ≠ p → d'.families.get? q = d.families.get? q
  entered : ∀ {k}, k ∉ kept → d'.find? k = (d.find? k).map (.regrown p cs)

namespace DeclaredOn

variable {kept : Set Key}

theorem of_declare (h : (d.declare p cs).value = .ok ()) :
    DeclaredOn p cs d.liveKeys d (d.declare p cs).state where
  declared := by rw [get?_families_declare, if_pos ⟨rfl, h⟩]
  families hq := by rw [get?_families_declare, if_neg fun hp => hq hp.1.symm]
  entered {k} hk := by
    have hnone : d.find? k = none := Option.not_isSome_iff_eq_none.1 hk
    rw [state_declare_of_ok h, hnone]
    exact hnone

/-- **A subscription that is entered is the same on both, or it is for `p` and has the family.** -/
theorem subscriptionOf (h : DeclaredOn p cs kept d d') (o : Owner) (i : Interest) :
    d'.subscriptionOf o i = (d.subscriptionOf o i).regrown p cs := by
  unfold Directory.subscriptionOf childrenOf Table.getD Subscription.regrown
  by_cases hi : i.event = p
  · rw [if_pos hi, hi, h.declared, Option.getD_some]
  · rw [if_neg hi, h.families hi]

theorem congr {e e' : Directory} (h : DeclaredOn p cs kept d d') (hf : e.families = d.families)
    (hf' : e'.families = d'.families) (hh : e.holdings = d.holdings)
    (hh' : e'.holdings = d'.holdings) : DeclaredOn p cs kept e e' where
  declared := by rw [hf', h.declared]
  families hq := by rw [hf, hf', h.families hq]
  entered hk := by
    rw [find?, find?, hh, hh']
    exact h.entered hk

theorem register (h : DeclaredOn p cs kept d d') (o : Owner) (is : List Interest) :
    DeclaredOn p cs kept (d.register o is).state (d'.register o is).state where
  declared := by rw [families_register, h.declared]
  families hq := by rw [families_register, families_register, h.families hq]
  entered {k} hk := by
    -- a list is accepted or refused for what is in it, on both alike
    cases hv : (d.register o is).value with
    | error e =>
      have hv' : (d'.register o is).value = .error e :=
        value_register_eq_error_iff.2 (value_register_eq_error_iff.1 hv)
      rw [state_register_of_error hv, state_register_of_error hv', h.entered hk]
    | ok n =>
      have hv' : (d'.register o is).value = .ok (enterAll o is d').value :=
        value_register_eq_ok_iff.2 ⟨(value_register_eq_ok_iff.1 hv).1, rfl⟩
      have hsub : d'.subscriptionOf o = Subscription.regrown p cs ∘ d.subscriptionOf o :=
        funext (h.subscriptionOf o)
      rw [find?_register hv, find?_register hv', hsub, h.entered hk, ← Option.map_map,
        ← Option.map_or]

theorem unregister (h : DeclaredOn p cs kept d d') (o : OwnerId) :
    DeclaredOn p cs {k ∈ kept | o ≠ k.owner} (d.unregister o).1 (d'.unregister o).1 where
  declared := by rw [families_unregister, h.declared]
  families hq := by rw [families_unregister, families_unregister, h.families hq]
  entered {k} hk := by
    rw [find?_unregister, find?_unregister]
    split
    · rfl
    · next ho => exact h.entered fun hkept => hk ⟨hkept, ho⟩

theorem declare (h : DeclaredOn p cs kept d d') {q : EventType} (hq : q ≠ p)
    (children : List EventType) :
    DeclaredOn p cs kept (d.declare q children).state (d'.declare q children).state := by
  have hvalue : (d'.declare q children).value = .ok () ↔ (d.declare q children).value = .ok () := by
    rw [value_declare_eq_ok_iff, value_declare_eq_ok_iff, Table.contains, h.families hq]
    rfl
  refine ⟨get?_families_declare_of_some h.declared, fun {q'} hq' => ?_, fun hk => ?_⟩
  · simp only [get?_families_declare, hvalue, h.families hq']
  · rw [find?, find?, holdings_declare, holdings_declare]
    exact h.entered hk

theorem refresh (h : DeclaredOn p cs kept d d') :
    DeclaredOn p cs kept d.refresh.state d'.refresh.state :=
  h.congr d.families_refresh d'.families_refresh d.holdings_refresh d'.holdings_refresh

end DeclaredOn

end Directory

end PubSub
