import Mathlib.Data.List.Nodup
import Mathlib.Data.Set.Function
import PubSub.Directory

/-!
# Proofs/Directory/Index — holdings and listings tell the same story

    holdings   s.owner ↦ s.key ↦ s
                                │ s.routes
    listings         t ↦ s.key ↦ r        for each (t, r)

A directory keeps every subscription twice over: once under its owner and once under each type it
covers.  `Coherent` says that neither index knows anything the other does not, that no bucket is
empty, and that cached routes are those of the listings.  Everything that is done to a directory
keeps it coherent, so a reader may use whichever index suits the question.
-/

namespace PubSub

namespace Directory

/-! ## Reading what was listed -/

/-- The route that stands under a type and a key. -/
def listed (l : Table EventType (Table Key Route)) (t : EventType) (k : Key) : Option Route :=
  (l.get? t).bind (·.get? k)

/-- **Listing a route changes one place.** -/
theorem listed_list (l : Table EventType (Table Key Route)) (t t' : EventType) (k k' : Key)
    (r : Route) :
    listed (list l t k r) t' k' = if t = t' ∧ k = k' then some r else listed l t' k' := by
  unfold listed list
  rw [Table.get?_insert]
  by_cases ht : t = t'
  · subst ht
    rw [if_pos rfl, Option.bind_some, Table.get?_insert]
    by_cases hk : k = k'
    · rw [if_pos hk, if_pos ⟨rfl, hk⟩]
    · rw [if_neg hk, if_neg fun h => hk h.2, Table.getD]
      cases l.get? t <;> rfl
  · rw [if_neg ht, if_neg fun h => ht h.1]

/-- What stands under a key once routes were listed for it, one type after the other. -/
theorem listed_foldl_list (k k' : Key) (t : EventType) (r : Route) :
    ∀ (rs : List (EventType × Route)) (l : Table EventType (Table Key Route)),
      (rs.map Prod.fst).Nodup →
        (listed (rs.foldl (fun l tr => list l tr.1 k tr.2) l) t k' = some r ↔
          (k = k' ∧ (t, r) ∈ rs) ∨
            ((k = k' → t ∉ rs.map Prod.fst) ∧ listed l t k' = some r))
  | [], l, _ => by simp
  | (t₀, r₀) :: rs, l, h => by
    obtain ⟨h₀, hrs⟩ := List.nodup_cons.1 h
    rw [List.foldl_cons, listed_foldl_list k k' t r rs _ hrs, listed_list]
    by_cases hk : k = k'
    · by_cases ht : t₀ = t
      · subst ht
        have hr : (t₀, r) ∉ rs := fun hm => h₀ (List.mem_map.2 ⟨_, hm, rfl⟩)
        simp [hk, hr, h₀, eq_comm]
      · simp [hk, ht, Ne.symm ht]
    · simp [hk]

/-- **A subscription is listed under the types it covers, and nothing else changes.** -/
theorem listed_listAll (l : Table EventType (Table Key Route)) {s : Subscription}
    (hs : s.covers.Nodup) (t : EventType) (k : Key) (r : Route) :
    listed (listAll l s) t k = some r ↔
      (s.key = k ∧ (t, r) ∈ s.routes) ∨ ((s.key = k → t ∉ s.covers) ∧ listed l t k = some r) := by
  have h := listed_foldl_list s.key k t r s.routes l (by rwa [s.map_fst_routes])
  rwa [s.map_fst_routes] at h

/-- **Unlisting a route changes one place.** -/
theorem listed_unlist (l : Table EventType (Table Key Route)) (t t' : EventType) (k k' : Key) :
    listed (unlist l t k) t' k' = if t = t' ∧ k = k' then none else listed l t' k' := by
  unfold unlist
  cases hl : l.get? t with
  | none =>
    by_cases h : t = t' ∧ k = k'
    · rw [if_pos h, listed, ← h.1]
      simp [hl]
    · rw [if_neg h]
  | some routes =>
    have here : ∀ k', (routes.erase k).get? k' = if k = k' then none else listed l t k' := by
      intro k'
      rw [Table.get?_erase, listed, hl, Option.bind_some]
    by_cases ht : t = t'
    · subst ht
      simp only [true_and]
      rw [← here k']
      by_cases he : (routes.erase k).isEmpty = true
      · simp [he, listed, Table.isEmpty_iff.1 he k']
      · simp [he, listed]
    · rw [if_neg fun h => ht h.1]
      by_cases he : (routes.erase k).isEmpty = true
      · simp [he, listed, Table.get?_erase, ht]
      · simp [he, listed, Table.get?_insert, ht]

theorem listed_foldl_unlist (k k' : Key) (t : EventType) :
    ∀ (ts : List EventType) (l : Table EventType (Table Key Route)),
      listed (ts.foldl (fun l t => unlist l t k) l) t k' =
        if k = k' ∧ t ∈ ts then none else listed l t k'
  | [], l => by simp
  | t₀ :: ts, l => by
    rw [List.foldl_cons, listed_foldl_unlist k k' t ts, listed_unlist]
    by_cases hk : k = k'
    · by_cases ht : t₀ = t
      · simp [hk, ht]
      · simp [hk, ht, Ne.symm ht]
    · simp [hk]

/-- **Taking subscriptions away empties their places, and nothing else changes.** -/
theorem listed_unlistAll (t : EventType) (k : Key) :
    ∀ (ss : List Subscription) (l : Table EventType (Table Key Route)),
      listed (ss.foldl unlistAll l) t k =
        if ∃ s ∈ ss, s.key = k ∧ t ∈ s.covers then none else listed l t k
  | [], l => by simp
  | s :: ss, l => by
    rw [List.foldl_cons, listed_unlistAll t k ss, unlistAll, listed_foldl_unlist]
    by_cases hs : s.key = k ∧ t ∈ s.covers
    · simp [hs]
    · simp [hs]

/-- Whether every listed type has a route. -/
def NoEmptyBucket (l : Table EventType (Table Key Route)) : Prop :=
  ∀ t routes, l.get? t = some routes → routes.isEmpty = false

theorem NoEmptyBucket.list {l : Table EventType (Table Key Route)} (h : NoEmptyBucket l)
    (t : EventType) (k : Key) (r : Route) : NoEmptyBucket (list l t k r) := by
  intro t' routes ht
  rw [Directory.list, Table.get?_insert] at ht
  split at ht
  · cases ht
    exact Table.isEmpty_insert ..
  · exact h t' routes ht

theorem NoEmptyBucket.listAll {l : Table EventType (Table Key Route)} (h : NoEmptyBucket l)
    (s : Subscription) : NoEmptyBucket (listAll l s) := by
  unfold Directory.listAll
  induction s.routes generalizing l with
  | nil => exact h
  | cons tr rs ih => exact ih (h.list tr.1 _ tr.2)

theorem NoEmptyBucket.unlist {l : Table EventType (Table Key Route)} (h : NoEmptyBucket l)
    (t : EventType) (k : Key) : NoEmptyBucket (unlist l t k) := by
  intro t' routes ht
  unfold Directory.unlist at ht
  split at ht
  · exact h t' routes ht
  · split at ht
    · rw [Table.get?_erase] at ht
      split at ht
      · cases ht
      · exact h t' routes ht
    · next hne =>
      rw [Table.get?_insert] at ht
      split at ht
      · cases ht
        exact Bool.eq_false_iff.2 hne
      · exact h t' routes ht

theorem NoEmptyBucket.unlistAll {l : Table EventType (Table Key Route)} (h : NoEmptyBucket l)
    (ss : List Subscription) : NoEmptyBucket (ss.foldl unlistAll l) := by
  induction ss generalizing l with
  | nil => exact h
  | cons s ss ih =>
    refine ih ?_
    unfold Directory.unlistAll
    generalize s.covers = ts
    induction ts generalizing l with
    | nil => exact h
    | cons t ts iht => exact iht (h.unlist t _)

/-! ## Coherence -/

/-- The two indices of a directory agree. -/
structure Indexed (d : Directory) : Prop where
  /-- An owner who is listed holds something, and everything it holds is its own, under its key. -/
  held : ∀ {o held}, d.holdings.get? o = some held →
    held.isEmpty = false ∧ ∀ {k s}, held.get? k = some s → s.key = k ∧ s.owner.id = o
  /-- No subscription covers a type twice, and each sees its children as events of its own type. -/
  sound : ∀ {k s}, d.find? k = some s → s.Sound
  /-- The listed routes are those of the live subscriptions. -/
  listed_iff : ∀ {t k r}, listed d.listings t k = some r ↔
    ∃ s, d.find? k = some s ∧ (t, r) ∈ s.routes
  /-- A type that is listed has a route. -/
  noEmptyBucket : NoEmptyBucket d.listings
  /-- Declared children are distinct, the parent is none of them, and their upcasts lead to it. -/
  family : ∀ {p us}, d.families.get? p = some us →
    (p :: us.map Upcast.child).Nodup ∧ ∀ u ∈ us, u.parent = p

/-- The two indices of a directory agree, and what is cached is up to date. -/
structure Coherent (d : Directory) : Prop extends Indexed d where
  /-- Routes are cached as they are listed. -/
  cached : ∀ {routes}, d.cached = some routes → routes = d.routeTable

theorem coherent_empty : empty.Coherent where
  held h := by cases h
  sound h := by cases h
  listed_iff := ⟨fun h => (nomatch h), fun ⟨_, h, _⟩ => (nomatch h)⟩
  noEmptyBucket _ _ h := by cases h
  family h := by cases h
  cached h := by cases h

namespace Indexed

variable {d : Directory}

/-- A live subscription is known by the key it is found under. -/
theorem key_of_find? (h : d.Indexed) {k : Key} {s : Subscription} (hs : d.find? k = some s) :
    s.key = k := by
  obtain ⟨held, ho, hk⟩ := Option.bind_eq_some_iff.1 hs
  exact ((h.held ho).2 hk).1

/-- What an owner holds under a key is found under it. -/
theorem find?_of_held (h : d.Indexed) {o : OwnerId} {held : Table Key Subscription} {k : Key}
    {s : Subscription} (ho : d.holdings.get? o = some held) (hk : held.get? k = some s) :
    d.find? k = some s := by
  obtain ⟨rfl, rfl⟩ := (h.held ho).2 hk
  exact Option.bind_eq_some_iff.2 ⟨held, ho, hk⟩

/-- **A new subscription is sound**, as declared children are. -/
theorem sound_subscriptionOf (h : d.Indexed) (o : Owner) (i : Interest) :
    (d.subscriptionOf o i).Sound := by
  have hfamily : (i.event :: (d.childrenOf i.event).map Upcast.child).Nodup ∧
      ∀ u ∈ d.childrenOf i.event, u.parent = i.event := by
    unfold childrenOf Table.getD
    cases hf : d.families.get? i.event with
    | none => exact ⟨List.nodup_singleton _, fun u hu => absurd hu List.not_mem_nil⟩
    | some us => exact h.family hf
  exact ⟨hfamily.1, hfamily.2⟩

/-- **Every live subscription is found among all of them.** -/
theorem mem_subscriptions (h : d.Indexed) {s : Subscription} :
    s ∈ d.subscriptions ↔ ∃ k, d.find? k = some s := by
  unfold subscriptions
  rw [List.mem_flatMap]
  constructor
  · rintro ⟨held, hh, hs⟩
    obtain ⟨o, ho⟩ := Table.mem_values_iff.1 hh
    obtain ⟨k, hk⟩ := Table.mem_values_iff.1 hs
    exact ⟨k, h.find?_of_held ho hk⟩
  · rintro ⟨k, hk⟩
    obtain ⟨held, ho, hs⟩ := Option.bind_eq_some_iff.1 hk
    exact ⟨held, Table.mem_values_iff.2 ⟨_, ho⟩, Table.mem_values_iff.2 ⟨_, hs⟩⟩

theorem sound_of_mem_subscriptions (h : d.Indexed) {s : Subscription} (hs : s ∈ d.subscriptions) :
    s.Sound := by
  obtain ⟨k, hk⟩ := h.mem_subscriptions.1 hs
  exact h.sound hk

end Indexed

namespace Coherent

variable {d : Directory}

/-- **Posts read the listings, whether or not the routes were cached.** -/
theorem value_refresh (h : d.Coherent) : d.refresh.value = d.routeTable := by
  unfold refresh
  cases hc : d.cached with
  | none => rfl
  | some routes => exact h.cached hc

/-- The routes are cached once somebody has read them. -/
theorem state_refresh (h : d.Coherent) :
    d.refresh.state = { d with cached := some d.routeTable } := by
  unfold Directory.refresh
  cases hc : d.cached with
  | none => rfl
  | some routes =>
    exact h.cached hc ▸ congrArg (Directory.mk d.holdings d.listings d.families) hc

theorem routesTo_eq (h : d.Coherent) (t : EventType) :
    d.routesTo t = ((d.listings.get? t).map Table.values).getD [] := by
  rw [routesTo, h.value_refresh, Table.getD, routeTable, Table.get?_mapValues]

/-- **Posts read the routes that are listed.** -/
theorem mem_routesTo_iff_listed (h : d.Coherent) {t : EventType} {r : Route} :
    r ∈ d.routesTo t ↔ ∃ k, listed d.listings t k = some r := by
  rw [h.routesTo_eq]
  unfold listed
  cases d.listings.get? t with
  | none => simp
  | some routes => exact Table.mem_values_iff

/-- **Posts read the routes of the live subscriptions.** -/
theorem mem_routesTo (h : d.Coherent) {t : EventType} {r : Route} :
    r ∈ d.routesTo t ↔ ∃ k s, d.find? k = some s ∧ (t, r) ∈ s.routes :=
  h.mem_routesTo_iff_listed.trans (exists_congr fun _ => h.listed_iff)

/-- **No two routes of a type lead to the same key.** -/
theorem nodup_keys_routesTo (h : d.Coherent) (t : EventType) :
    ((d.routesTo t).map (·.subscription.key)).Nodup := by
  rw [h.routesTo_eq]
  cases ht : d.listings.get? t with
  | none => exact .nil
  | some routes =>
    have hk : ∀ k r, routes.get? k = some r → r.subscription.key = k := by
      intro k r hr
      obtain ⟨s, hs, hm⟩ := h.listed_iff.1 (Option.bind_eq_some_iff.2 ⟨routes, ht, hr⟩)
      rw [Subscription.subscription_of_mem_routes hm]
      exact h.key_of_find? hs
    rw [Option.map_some, Option.getD_some, Table.map_values_eq_keys _ hk]
    exact routes.nodup

theorem nodup_routesTo (h : d.Coherent) (t : EventType) : (d.routesTo t).Nodup :=
  (h.nodup_keys_routesTo t).of_map _

/-- **The routes of a type and the live subscriptions that cover it** are in one-to-one
correspondence. -/
theorem bijOn_routesTo (h : d.Coherent) (t : EventType) :
    Set.BijOn Route.subscription {r | r ∈ d.routesTo t}
      {s | ∃ k, d.find? k = some s ∧ t ∈ s.covers} := by
  refine ⟨fun r hr => ?_, fun r hr r' hr' he => ?_, ?_⟩
  · obtain ⟨k, s, hs, hm⟩ := h.mem_routesTo.1 hr
    rw [Subscription.subscription_of_mem_routes hm]
    exact ⟨k, hs, Subscription.mem_covers_iff.2 ⟨r, hm⟩⟩
  · exact List.inj_on_of_nodup_map (h.nodup_keys_routesTo t) hr hr' (congrArg (·.key) he)
  · rintro s ⟨k, hs, ht⟩
    obtain ⟨r, hm⟩ := Subscription.mem_covers_iff.1 ht
    exact ⟨r, h.mem_routesTo.2 ⟨k, s, hs, hm⟩, Subscription.subscription_of_mem_routes hm⟩

/-- A route is direct from the type of its subscription, and by the upcast to it from any other. -/
theorem upcast_of_mem_routesTo (h : d.Coherent) {t : EventType} {r : Route}
    (hr : r ∈ d.routesTo t) :
    r.upcast = if t = r.subscription.event then none else some ⟨t, r.subscription.event⟩ := by
  obtain ⟨k, s, hs, hm⟩ := h.mem_routesTo.1 hr
  rw [Subscription.subscription_of_mem_routes hm]
  exact (h.sound hs).upcast_of_mem_routes hm

end Coherent

/-! ## Entering and removing subscriptions -/

/-- **A new subscription is found under its key, and nothing else changes.** -/
theorem find?_enter (d : Directory) (s : Subscription) (k : Key) :
    (d.enter s).find? k = if s.key = k then some s else d.find? k := by
  unfold find? enter
  rw [Table.get?_insert]
  by_cases ho : s.owner.id = k.owner
  · rw [if_pos ho, Option.bind_some, Table.get?_insert, Table.getD, ho]
    cases d.holdings.get? k.owner <;> rfl
  · have hk : s.key ≠ k := fun e => ho (e ▸ rfl)
    rw [if_neg ho, if_neg hk]

/-- **A subscription whose key is free may be entered.** -/
theorem Indexed.enter {d : Directory} (h : d.Indexed) {s : Subscription} (hs : s.Sound)
    (hfree : d.find? s.key = none) : (d.enter s).Indexed where
  held := by
    intro o held ho
    unfold Directory.enter at ho
    rw [Table.get?_insert] at ho
    split at ho
    · next heq =>
      cases ho
      refine ⟨Table.isEmpty_insert .., fun {k s'} hk => ?_⟩
      rw [Table.get?_insert] at hk
      split at hk
      · next hkey =>
        cases hk
        exact ⟨hkey, heq⟩
      · rw [Table.getD] at hk
        cases hget : d.holdings.get? s.owner.id with
        | none =>
          rw [hget] at hk
          cases hk
        | some old =>
          rw [hget] at hk
          exact heq ▸ (h.held hget).2 hk
    · exact h.held ho
  sound := by
    intro k s' hk
    rw [find?_enter] at hk
    split at hk
    · cases hk
      exact hs
    · exact h.sound hk
  listed_iff := by
    intro t k r
    change listed (listAll d.listings s) t k = some r ↔ _
    rw [listed_listAll _ hs.covers_nodup, find?_enter]
    by_cases hk : s.key = k
    · subst hk
      have hnone : listed d.listings t s.key ≠ some r := by
        intro hl
        obtain ⟨s', hs', -⟩ := h.listed_iff.1 hl
        rw [hfree] at hs'
        cases hs'
      simp [hnone]
    · simp [hk, h.listed_iff]
  noEmptyBucket := h.noEmptyBucket.listAll s
  family := h.family

theorem unregister_of_held {d : Directory} {o : OwnerId} {held : Table Key Subscription}
    (ho : d.holdings.get? o = some held) :
    (d.unregister o).1 =
      { d with
        holdings := d.holdings.erase o
        listings := held.values.foldl unlistAll d.listings
        cached := none } := by
  unfold unregister
  rw [ho]

theorem unregister_of_free {d : Directory} {o : OwnerId} (ho : d.holdings.get? o = none) :
    d.unregister o = (d, 0) := by
  unfold unregister
  rw [ho]

/-- **An owner who is removed holds nothing, and nothing else changes.** -/
theorem find?_unregister (d : Directory) (o : OwnerId) (k : Key) :
    (d.unregister o).1.find? k = if o = k.owner then none else d.find? k := by
  cases ho : d.holdings.get? o with
  | none =>
    rw [unregister_of_free ho]
    split
    · next hk => rw [find?, ← hk, ho, Option.bind_none]
    · rfl
  | some held =>
    rw [unregister_of_held ho]
    change ((d.holdings.erase o).get? k.owner).bind _ = _
    rw [Table.get?_erase]
    split
    · rfl
    · rfl

/-- What an owner holds is what is found under its keys. -/
theorem Indexed.covers_of_held {d : Directory} (h : d.Indexed) {o : OwnerId}
    {held : Table Key Subscription} (ho : d.holdings.get? o = some held) (t : EventType)
    (k : Key) :
    (∃ s ∈ held.values, s.key = k ∧ t ∈ s.covers) ↔
      o = k.owner ∧ ∃ s, d.find? k = some s ∧ t ∈ s.covers := by
  constructor
  · rintro ⟨s, hs, rfl, ht⟩
    obtain ⟨k, hk⟩ := Table.mem_values_iff.1 hs
    obtain ⟨rfl, rfl⟩ := (h.held ho).2 hk
    exact ⟨rfl, s, Option.bind_eq_some_iff.2 ⟨held, ho, hk⟩, ht⟩
  · rintro ⟨rfl, s, hs, ht⟩
    obtain ⟨held', ho', hk⟩ := Option.bind_eq_some_iff.1 hs
    obtain rfl : held = held' := Option.some.inj (ho.symm.trans ho')
    exact ⟨s, Table.mem_values_iff.2 ⟨k, hk⟩, h.key_of_find? hs, ht⟩

/-- A listed route belongs to a live subscription that covers the type. -/
theorem Indexed.covers_of_listed {d : Directory} (h : d.Indexed) {t : EventType} {k : Key}
    {r : Route} (hr : listed d.listings t k = some r) :
    ∃ s, d.find? k = some s ∧ t ∈ s.covers := by
  obtain ⟨s, hs, hm⟩ := h.listed_iff.1 hr
  exact ⟨s, hs, Subscription.mem_covers_iff.2 ⟨r, hm⟩⟩

/-- **Removing an owner takes its routes away, and no others.** -/
theorem Indexed.listed_unregister {d : Directory} (h : d.Indexed) (o : OwnerId) (t : EventType)
    (k : Key) :
    listed (d.unregister o).1.listings t k =
      if o = k.owner then none else listed d.listings t k := by
  cases ho : d.holdings.get? o with
  | none =>
    rw [unregister_of_free ho]
    split
    · next hk =>
      refine Option.eq_none_iff_forall_ne_some.2 fun r hr => ?_
      obtain ⟨s, hs, -⟩ := h.covers_of_listed hr
      rw [find?, ← hk, ho] at hs
      cases hs
    · rfl
  | some held =>
    rw [unregister_of_held ho, listed_unlistAll]
    split
    · next hex => rw [if_pos ((h.covers_of_held ho t k).1 hex).1]
    · next hex =>
      split
      · next hk =>
        refine Option.eq_none_iff_forall_ne_some.2 fun r hr => ?_
        exact hex ((h.covers_of_held ho t k).2 ⟨hk, h.covers_of_listed hr⟩)
      · rfl

/-- **Whoever is removed leaves nothing behind.** -/
theorem Coherent.unregister {d : Directory} (h : d.Coherent) (o : OwnerId) :
    (d.unregister o).1.Coherent := by
  cases ho : d.holdings.get? o with
  | none =>
    rw [unregister_of_free ho]
    exact h
  | some held =>
    have hlisted := h.listed_unregister o
    have hfind := find?_unregister d o
    rw [unregister_of_held ho] at hlisted hfind ⊢
    constructor
    · refine ⟨fun {o' held'} ho' => ?_, fun {k s} hk => ?_, fun {t k r} => ?_,
        h.noEmptyBucket.unlistAll held.values, h.family⟩
      · rw [Table.get?_erase] at ho'
        split at ho'
        · cases ho'
        · exact h.held ho'
      · rw [hfind] at hk
        split at hk
        · cases hk
        · exact h.sound hk
      · rw [hlisted, hfind]
        split
        · simp
        · exact h.listed_iff
    · intro routes hc
      cases hc

/-! ## Registering and declaring -/

/-- A registration that enters nothing leaves the directory as it is. -/
theorem enterAll_eq_of_value_eq_zero (o : Owner) :
    ∀ (is : List Interest) (d : Directory), (enterAll o is d).value = 0 →
      (enterAll o is d).state = d
  | [], _, _ => rfl
  | i :: is, d, h => by
    unfold enterAll at h ⊢
    split at h
    · next hlive =>
      rw [if_pos hlive]
      exact enterAll_eq_of_value_eq_zero o is d h
    · exact absurd h (Nat.succ_ne_zero _)

/-- **Entering interests keeps the indices in step.** -/
theorem Indexed.enterAll {d : Directory} (h : d.Indexed) (o : Owner) (is : List Interest) :
    (enterAll o is d).state.Indexed := by
  induction is generalizing d with
  | nil => exact h
  | cons i is ih =>
    unfold Directory.enterAll
    split
    · exact ih h
    · next hfree =>
      refine ih (h.enter (h.sound_subscriptionOf o i) ?_)
      exact Option.not_isSome_iff_eq_none.1 hfree

/-- Dropping what is cached leaves the indices alone. -/
theorem Indexed.uncached {d : Directory} (h : d.Indexed) :
    Coherent { d with cached := none } :=
  ⟨⟨h.held, h.sound, h.listed_iff, h.noEmptyBucket, h.family⟩, fun hc => (nomatch hc)⟩

theorem Coherent.register {d : Directory} (h : d.Coherent) (o : Owner) (is : List Interest) :
    (d.register o is).state.Coherent := by
  unfold Directory.register
  split
  · exact h
  · change Coherent (if (enterAll o is d).value = 0 then _ else _)
    split
    · next hzero => rwa [enterAll_eq_of_value_eq_zero o is d hzero]
    · exact (h.toIndexed.enterAll o is).uncached

/-- A list of children with nothing wrong with it has no child twice and lacks the parent. -/
theorem nodup_of_badChild?_eq_none {p : EventType} :
    ∀ {cs seen : List EventType}, badChild? p seen cs = none →
      (p :: cs).Nodup ∧ ∀ c ∈ cs, c ∉ seen
  | [], _, _ => ⟨List.nodup_singleton _, fun _ h => nomatch h⟩
  | c :: cs, seen, h => by
    unfold badChild? at h
    split at h
    · cases h
    · next hp =>
      split at h
      · cases h
      · next hseen =>
        obtain ⟨hnodup, hfresh⟩ := nodup_of_badChild?_eq_none h
        obtain ⟨hpcs, hcs⟩ := List.nodup_cons.1 hnodup
        refine ⟨?_, ?_⟩
        · refine List.nodup_cons.2 ⟨?_, List.nodup_cons.2 ⟨?_, hcs⟩⟩
          · exact fun hm => (List.mem_cons.1 hm).elim (fun e => hp e.symm) hpcs
          · exact fun hm => hfresh c hm List.mem_cons_self
        · intro c' hc'
          rcases List.mem_cons.1 hc' with rfl | hm
          · exact hseen
          · exact fun hs => hfresh c' hm (List.mem_cons_of_mem _ hs)

/-- **A declaration that stands adds a family; any other changes nothing.** -/
theorem declare_cases (d : Directory) (p : EventType) (cs : List EventType) :
    (d.declare p cs).value = .ok () ∧ d.families.contains p = false ∧
        badChild? p [] cs = none ∧
        (d.declare p cs).state =
          { d with families := d.families.insert p (Upcast.allTo p cs) } ∨
      (∃ e, (d.declare p cs).value = .error e) ∧ (d.declare p cs).state = d := by
  cases hf : d.families.contains p with
  | true => exact .inr (by simp [declare, hf])
  | false =>
    cases hb : badChild? p [] cs with
    | none => exact .inl (by simp [declare, hf, hb])
    | some e => exact .inr (by simp [declare, hf, hb])

theorem Coherent.declare {d : Directory} (h : d.Coherent) (p : EventType)
    (cs : List EventType) : (d.declare p cs).state.Coherent := by
  rcases declare_cases d p cs with ⟨-, -, hok, hs⟩ | ⟨-, hs⟩
  · rw [hs]
    refine ⟨⟨h.held, h.sound, h.listed_iff, h.noEmptyBucket, fun {p' us} hf => ?_⟩,
      h.cached⟩
    rw [Table.get?_insert] at hf
    split at hf
    · next hp =>
      cases hf
      subst hp
      refine ⟨?_, fun u => Upcast.parent_of_mem_allTo⟩
      rw [Upcast.map_child_allTo]
      exact (nodup_of_badChild?_eq_none hok).1
    · exact h.family hf
  · rwa [hs]

theorem Coherent.refresh {d : Directory} (h : d.Coherent) : d.refresh.state.Coherent := by
  unfold Directory.refresh
  split
  · exact h
  · exact ⟨⟨h.held, h.sound, h.listed_iff, h.noEmptyBucket, h.family⟩,
      fun hc => (Option.some.inj hc).symm⟩

end Directory

end PubSub
