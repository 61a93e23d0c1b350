import Mathlib.Data.Set.Card
import PubSub.Proofs.Directory.Deeds

/-!
# Proofs/Directory/Census — sizes of tables are numbers of live things

    holdings.size             owners of live keys
    subscriptions.length      live keys
    listings.size             types that a live subscription covers

A census is read off as three sizes, of tables whose buckets come and go.  In a coherent directory
no bucket is empty and nothing is kept twice, so the sizes are what they should be: the numbers of
live keys, of their owners and of the types they cover.  What is entered adds as many live keys as
it says, and what is removed takes as many.
-/

namespace PubSub

/-- **A list without repetitions is as long as the set of its members is large.** -/
theorem encard_setOf_mem {α : Type} {l : List α} (h : l.Nodup) :
    {a | a ∈ l}.encard = l.length := by
  classical
  rw [← l.coe_toFinset, Set.encard_coe_eq_coe_finsetCard, List.toFinset_card_of_nodup h]

theorem Table.encard_contains {κ ν : Type} [DecidableEq κ] (t : Table κ ν) :
    {k | t.contains k = true}.encard = t.size := by
  have hkeys : {k | t.contains k = true} = {k | k ∈ t.keys} := Set.ext fun _ => t.contains_iff
  rw [hkeys, ← t.length_keys]
  exact encard_setOf_mem t.nodup

/-- In a table that is not empty there is something. -/
theorem Table.exists_get? {κ ν : Type} [DecidableEq κ] {t : Table κ ν} (h : t.isEmpty = false) :
    ∃ k v, t.get? k = some v := by
  by_contra hnone
  refine Bool.false_ne_true (h.symm.trans (Table.isEmpty_iff.2 fun k => ?_))
  exact Option.eq_none_iff_forall_ne_some.2 fun v hv => hnone ⟨k, v, hv⟩

namespace Directory

variable {d : Directory}

/-- The keys that something is found under. -/
def liveKeys (d : Directory) : Set Key := {k | (d.find? k).isSome = true}

theorem mem_liveKeys {k : Key} : k ∈ d.liveKeys ↔ (d.find? k).isSome = true := Iff.rfl

/-- The types that events must have to reach some subscription. -/
def covered (d : Directory) : Set EventType := {t | ∃ k s, d.find? k = some s ∧ t ∈ s.covers}

/-! ## What there is -/

/-- **No two subscriptions have the same key.** -/
theorem Indexed.nodup_map_key_subscriptions (h : d.Indexed) :
    (d.subscriptions.map (·.key)).Nodup := by
  have hkeys : d.subscriptions.map (·.key) = d.holdings.entries.flatMap fun p => p.2.keys := by
    rw [subscriptions, Table.values, List.flatMap_map, List.map_flatMap]
    refine List.flatMap_congr fun p hp => ?_
    exact Table.map_values_eq_keys _ fun k s hk =>
      ((h.held (Table.mem_entries_iff.1 hp)).2 hk).1
  rw [hkeys, List.nodup_flatMap]
  refine ⟨fun p _ => p.2.nodup, ?_⟩
  -- keys of different owners differ in the owner
  have howner : ∀ p ∈ d.holdings.entries, ∀ k ∈ p.2.keys, k.owner = p.1 := by
    intro p hp k hk
    obtain ⟨s, hs⟩ := Option.isSome_iff_exists.1 (Table.contains_iff.2 hk)
    obtain ⟨rfl, ho⟩ := (h.held (Table.mem_entries_iff.1 hp)).2 hs
    exact ho
  have hdistinct := List.pairwise_map.1 d.holdings.nodup
  refine hdistinct.imp_of_mem fun {p q} hp hq hne k hk hk' => hne ?_
  exact (howner p hp k hk).symm.trans (howner q hq k hk')

/-- **There are as many subscriptions as live keys.** -/
theorem Indexed.encard_liveKeys (h : d.Indexed) :
    d.liveKeys.encard = d.subscriptions.length := by
  have hlive : d.liveKeys = {k | k ∈ d.subscriptions.map (·.key)} := by
    ext k
    rw [mem_liveKeys, Option.isSome_iff_exists]
    refine Iff.trans ?_ List.mem_map.symm
    constructor
    · rintro ⟨s, hs⟩
      exact ⟨s, h.mem_subscriptions.2 ⟨k, hs⟩, h.key_of_find? hs⟩
    · rintro ⟨s, hs, rfl⟩
      obtain ⟨k, hk⟩ := h.mem_subscriptions.1 hs
      exact ⟨s, (h.key_of_find? hk).symm ▸ hk⟩
  rw [hlive, encard_setOf_mem h.nodup_map_key_subscriptions, List.length_map]

/-- Directories with the same live keys have as many subscriptions. -/
theorem Indexed.length_subscriptions_eq {d' : Directory} (h' : d'.Indexed) (h : d.Indexed)
    (hlive : d'.liveKeys = d.liveKeys) : d'.subscriptions.length = d.subscriptions.length := by
  have hcard := congrArg Set.encard hlive
  rw [h'.encard_liveKeys, h.encard_liveKeys] at hcard
  exact_mod_cast hcard

/-- **An owner is listed when one of its keys is live.** -/
theorem Indexed.isRegistered_iff (h : d.Indexed) (o : OwnerId) :
    d.isRegistered o = true ↔ ∃ k ∈ d.liveKeys, k.owner = o := by
  rw [isRegistered, Table.contains, Option.isSome_iff_exists]
  constructor
  · rintro ⟨held, ho⟩
    obtain ⟨hne, hkeys⟩ := h.held ho
    obtain ⟨k, s, hs⟩ := Table.exists_get? hne
    obtain ⟨rfl, rfl⟩ := hkeys hs
    exact ⟨s.key, Option.isSome_iff_exists.2 ⟨s, Option.bind_eq_some_iff.2 ⟨held, ho, hs⟩⟩, rfl⟩
  · rintro ⟨k, hk, rfl⟩
    obtain ⟨s, hs⟩ := Option.isSome_iff_exists.1 hk
    obtain ⟨held, ho, -⟩ := Option.bind_eq_some_iff.1 hs
    exact ⟨held, ho⟩

theorem Indexed.encard_owners (h : d.Indexed) :
    (Key.owner '' d.liveKeys).encard = d.holdings.size := by
  have howners : Key.owner '' d.liveKeys = {o | d.holdings.contains o = true} := by
    ext o
    exact (h.isRegistered_iff o).symm
  rw [howners, Table.encard_contains]

/-- **A type is listed when a live subscription covers it.** -/
theorem Indexed.contains_listings_iff (h : d.Indexed) (t : EventType) :
    d.listings.contains t = true ↔ t ∈ d.covered := by
  rw [Table.contains, Option.isSome_iff_exists]
  constructor
  · rintro ⟨routes, ht⟩
    obtain ⟨k, r, hr⟩ := Table.exists_get? (h.noEmptyBucket t routes ht)
    obtain ⟨s, hs⟩ := h.covers_of_listed (Option.bind_eq_some_iff.2 ⟨routes, ht, hr⟩)
    exact ⟨k, s, hs⟩
  · rintro ⟨k, s, hs, hm⟩
    obtain ⟨r, hr⟩ := Subscription.mem_covers_iff.1 hm
    obtain ⟨routes, ht, -⟩ := Option.bind_eq_some_iff.1 (h.listed_iff.2 ⟨s, hs, hr⟩)
    exact ⟨routes, ht⟩

theorem Indexed.encard_covered (h : d.Indexed) : d.covered.encard = d.listings.size := by
  have hcovered : d.covered = {t | d.listings.contains t = true} :=
    Set.ext fun t => (h.contains_listings_iff t).symm
  rw [hcovered, Table.encard_contains]

/-- **Events of a type have a route just when a live subscription covers the type.** -/
theorem Coherent.value_hasSubscribers (h : d.Coherent) (t : EventType) :
    (d.hasSubscribers t).value = true ↔ t ∈ d.covered := by
  have hroutes : (d.hasSubscribers t).value = true ↔ ∃ r, r ∈ d.routesTo t := by
    rw [hasSubscribers, Bool.not_eq_true', List.isEmpty_eq_false_iff_exists_mem]
  rw [hroutes]
  constructor
  · rintro ⟨r, hr⟩
    obtain ⟨k, s, hs, hm⟩ := h.mem_routesTo.1 hr
    exact ⟨k, s, hs, Subscription.mem_covers_iff.2 ⟨r, hm⟩⟩
  · rintro ⟨k, s, hs, hm⟩
    obtain ⟨r, hr⟩ := Subscription.mem_covers_iff.1 hm
    exact ⟨r, h.mem_routesTo.2 ⟨k, s, hs, hr⟩⟩

/-! ## What comes and goes -/

/-- **A subscription that is entered is one more.** -/
theorem Indexed.length_subscriptions_enter (h : d.Indexed) {s : Subscription}
    (hs : s.Sound) (hfree : d.find? s.key = none) :
    (d.enter s).subscriptions.length = d.subscriptions.length + 1 := by
  have hlive : (d.enter s).liveKeys = insert s.key d.liveKeys := by
    ext k
    rw [mem_liveKeys, find?_enter, Set.mem_insert_iff, mem_liveKeys]
    by_cases hk : s.key = k
    · simp [hk]
    · simp [hk, Ne.symm hk]
  have hnew : s.key ∉ d.liveKeys := by
    rw [mem_liveKeys, hfree]
    exact Bool.false_ne_true
  have hcard := congrArg Set.encard hlive
  rw [Set.encard_insert_of_notMem hnew, h.encard_liveKeys, (h.enter hs hfree).encard_liveKeys]
    at hcard
  exact_mod_cast hcard

/-- **A registration enters as many as it says.** -/
theorem Indexed.length_subscriptions_enterAll (o : Owner) (is : List Interest) (h : d.Indexed) :
    (Directory.enterAll o is d).state.subscriptions.length =
      d.subscriptions.length + (Directory.enterAll o is d).value := by
  induction is generalizing d with
  | nil => rfl
  | cons i is ih =>
    unfold Directory.enterAll
    split
    · exact ih h
    · next hfree =>
      have hsound := h.sound_subscriptionOf o i
      have hnone := Option.not_isSome_iff_eq_none.1 hfree
      have hone := h.length_subscriptions_enter hsound hnone
      have hrest := ih (h.enter hsound hnone)
      dsimp only
      omega

theorem Indexed.length_subscriptions_register (h : d.Indexed) (o : Owner) {is : List Interest}
    {n : Nat} (hn : (d.register o is).value = .ok n) :
    (d.register o is).state.subscriptions.length = d.subscriptions.length + n := by
  have hall := h.length_subscriptions_enterAll o is
  unfold Directory.register at hn ⊢
  cases hdefect : is.findSome? Interest.defect? with
  | some e => simp [hdefect] at hn
  | none =>
    obtain rfl : (Directory.enterAll o is d).value = n := by simpa [hdefect] using hn
    dsimp only
    split
    · exact hall
    · exact hall

theorem removed_of_held {o : OwnerId} {held : Table Key Subscription}
    (ho : d.holdings.get? o = some held) : (d.unregister o).2 = held.size := by
  unfold unregister
  rw [ho]

/-- **Removing an owner takes as many subscriptions as it says.** -/
theorem Coherent.length_subscriptions_unregister (h : d.Coherent) (o : OwnerId) :
    (d.unregister o).1.subscriptions.length + (d.unregister o).2 = d.subscriptions.length := by
  cases ho : d.holdings.get? o with
  | none =>
    rw [unregister_of_free ho]
    rfl
  | some held =>
    have howner : ∀ k, held.contains k = true → k.owner = o := by
      intro k hk
      obtain ⟨s, hs⟩ := Option.isSome_iff_exists.1 hk
      obtain ⟨rfl, howner⟩ := (h.held ho).2 hs
      exact howner
    have hlive : d.liveKeys = (d.unregister o).1.liveKeys ∪ {k | held.contains k = true} := by
      ext k
      rw [Set.mem_union, mem_liveKeys, mem_liveKeys, find?_unregister]
      by_cases hk : o = k.owner
      · rw [if_pos hk, find?, ← hk, ho, Option.bind_some]
        exact (or_iff_right Bool.false_ne_true).symm
      · have hnot : ¬ held.contains k = true := fun hc => hk (howner k hc).symm
        rw [if_neg hk]
        exact (or_iff_left hnot).symm
    have hdisjoint : Disjoint (d.unregister o).1.liveKeys {k | held.contains k = true} := by
      refine Set.disjoint_left.2 fun k hk hheld => ?_
      rw [mem_liveKeys, find?_unregister, if_pos (howner k hheld).symm] at hk
      exact Bool.false_ne_true hk
    have hcard := congrArg Set.encard hlive
    rw [Set.encard_union_eq hdisjoint, Table.encard_contains, h.encard_liveKeys,
      (h.unregister o).encard_liveKeys] at hcard
    rw [removed_of_held ho]
    exact_mod_cast hcard.symm

/-! ## Where nobody comes or goes -/

/-- A registration that enters nothing leaves the directory as it is. -/
theorem state_register_of_zero {o : Owner} {is : List Interest}
    (h : (d.register o is).value = .ok 0) : (d.register o is).state = d := by
  unfold register at h ⊢
  cases hdefect : is.findSome? Interest.defect? with
  | some e => rfl
  | none =>
    have hzero : (enterAll o is d).value = 0 := by simpa [hdefect] using h
    simp only [hzero, if_true]
    exact enterAll_eq_of_value_eq_zero o is d hzero

/-- **A registration makes keys live just when it says so.** -/
theorem Coherent.liveKeys_register (h : d.Coherent) {o : Owner} {is : List Interest} {n : Nat}
    (hn : (d.register o is).value = .ok n) :
    (d.register o is).state.liveKeys = d.liveKeys ↔ n = 0 := by
  constructor
  · intro hlive
    have hcount := h.length_subscriptions_register o hn
    have hsame := (h.register o is).length_subscriptions_eq h.toIndexed hlive
    omega
  · rintro rfl
    rw [state_register_of_zero hn]

theorem Coherent.liveKeys_register_ne_iff (h : d.Coherent) {o : Owner} {is : List Interest} :
    (d.register o is).state.liveKeys ≠ d.liveKeys ↔
      ∃ n, 0 < n ∧ (d.register o is).value = .ok n := by
  constructor
  · intro hne
    cases hv : (d.register o is).value with
    | error e => exact absurd (congrArg liveKeys (state_register_of_error hv)) hne
    | ok n => exact ⟨n, Nat.pos_of_ne_zero (mt (h.liveKeys_register hv).2 hne), rfl⟩
  · rintro ⟨n, hn, hv⟩ hsame
    exact absurd ((h.liveKeys_register hv).1 hsame) hn.ne'

/-- An owner who is listed holds something. -/
theorem Indexed.removed_ne_zero (h : d.Indexed) {o : OwnerId} {held : Table Key Subscription}
    (ho : d.holdings.get? o = some held) : (d.unregister o).2 ≠ 0 := by
  rw [removed_of_held ho]
  intro hzero
  have hempty : held.entries = [] := List.length_eq_zero_iff.1 hzero
  exact absurd (h.held ho).1 (by simp [Table.isEmpty, hempty])

/-- **Removing an owner ends live keys just when it says so.** -/
theorem Coherent.liveKeys_unregister (h : d.Coherent) (o : OwnerId) :
    (d.unregister o).1.liveKeys = d.liveKeys ↔ (d.unregister o).2 = 0 := by
  constructor
  · intro hlive
    have hcount := h.length_subscriptions_unregister o
    have hsame := (h.unregister o).length_subscriptions_eq h.toIndexed hlive
    omega
  · intro hzero
    cases ho : d.holdings.get? o with
    | none => rw [unregister_of_free ho]
    | some held => exact absurd hzero (h.removed_ne_zero ho)

theorem holdings_refresh (d : Directory) : d.refresh.state.holdings = d.holdings := by
  unfold refresh
  cases d.cached <;> rfl

theorem holdings_declare (d : Directory) (p : EventType) (cs : List EventType) :
    (d.declare p cs).state.holdings = d.holdings := by
  rcases declare_cases d p cs with ⟨-, -, -, h⟩ | ⟨-, h⟩
  · rw [h]
  · rw [h]

/-- What is subscribed is a matter of what is held alone. -/
theorem subscriptions_congr {d' : Directory} (h : d'.holdings = d.holdings) :
    d'.subscriptions = d.subscriptions := by
  rw [subscriptions, subscriptions, h]

theorem liveKeys_congr {d' : Directory} (h : d'.holdings = d.holdings) :
    d'.liveKeys = d.liveKeys := by
  ext k
  rw [mem_liveKeys, mem_liveKeys, find?, find?, h]

/-- What is cached stays just as long as no key comes to live by a registration. -/
theorem Coherent.cached_register (h : d.Coherent) (o : Owner) (is : List Interest) :
    (d.register o is).state.cached.isSome = true ↔
      d.cached.isSome = true ∧ (d.register o is).state.liveKeys = d.liveKeys := by
  cases hv : (d.register o is).value with
  | error e =>
    rw [state_register_of_error hv]
    exact (and_iff_left rfl).symm
  | ok n =>
    rw [h.liveKeys_register hv]
    by_cases hn : n = 0
    · subst hn
      rw [state_register_of_zero hv]
      exact (and_iff_left rfl).symm
    · refine iff_of_false ?_ fun hc => hn hc.2
      unfold Directory.register at hv ⊢
      cases hdefect : is.findSome? Interest.defect? with
      | some e => simp [hdefect] at hv
      | none =>
        obtain rfl : (enterAll o is d).value = n := by simpa [hdefect] using hv
        simp [hn]

/-- What is cached stays just as long as no key is ended by a removal. -/
theorem Coherent.cached_unregister (h : d.Coherent) (o : OwnerId) :
    (d.unregister o).1.cached.isSome = true ↔
      d.cached.isSome = true ∧ (d.unregister o).1.liveKeys = d.liveKeys := by
  rw [h.liveKeys_unregister]
  cases ho : d.holdings.get? o with
  | none =>
    rw [unregister_of_free ho]
    exact (and_iff_left rfl).symm
  | some held =>
    refine iff_of_false ?_ fun hc => h.removed_ne_zero ho hc.2
    rw [unregister_of_held ho]
    exact Bool.false_ne_true

end Directory

/-! ## What is live after a past -/

/-- Some live subscription covers a type. -/
def Deed.Covers (past : List Deed) (t : EventType) : Prop :=
  ∃ k s, Deed.LiveAs past k s ∧ t ∈ s.covers

/-- A census tells how much is live after a past: how many keys, how many owners they have, and how
many types they cover. -/
structure Census.Tells (c : Census) (past : List Deed) : Prop where
  subscriptions : {k | Deed.Live past k}.encard = c.subscriptions
  owners : (Key.owner '' {k | Deed.Live past k}).encard = c.owners
  eventTypes : {t | Deed.Covers past t}.encard = c.eventTypes

namespace Directory

variable {d : Directory} {past : List Deed}

theorem Reflects.liveKeys_eq (h : d.Reflects past) : d.liveKeys = {k | Deed.Live past k} :=
  Set.ext fun k => (h.live_iff k).symm

theorem Reflects.mem_covered (h : d.Reflects past) {t : EventType} :
    t ∈ d.covered ↔ Deed.Covers past t :=
  exists_congr fun k => exists_congr fun s => and_congr_left' (h.live k s)

/-- **The sizes of the tables are the numbers of what is live.** -/
theorem Indexed.tells (h : d.Indexed) (hr : d.Reflects past) : d.census.Tells past where
  subscriptions := hr.liveKeys_eq ▸ h.encard_liveKeys
  owners := hr.liveKeys_eq ▸ h.encard_owners
  eventTypes := by
    have hcovered : d.covered = {t | Deed.Covers past t} := Set.ext fun _ => hr.mem_covered
    exact hcovered ▸ h.encard_covered

end Directory

end PubSub
