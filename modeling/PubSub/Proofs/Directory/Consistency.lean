import PubSub.Proofs.Directory.Deeds
import PubSub.Proofs.Directory.Isolation

/-!
# Proofs/Directory/Consistency — each index tells what the other holds

    families   s.event ↦ [c₁ as s.event, …, cₙ as s.event]     c₁, …, cₙ, s.event pairwise distinct
                       │ when s was registered
    holdings   o ↦ k ↦ s          s.key = k, s.owner = o
                       │ s.covers = [s.event, c₁, …, cₙ], pairwise distinct
    listings   s.event ↦ k ↦ s            as it is
                    cᵢ ↦ k ↦ s            seen as an s.event

What is kept under a key of an owner and what is listed under that key can be told from each other,
bucket by bucket.  `Consistent` says so of the tables as they lie; `Coherent`, which every request
keeps, says the same of what is found in them.
-/

namespace PubSub

namespace Directory

/-- The two indices of a directory tell the same of every key, and neither has an empty bucket; what
is declared for a type are ways from other types to it. -/
structure Consistent (d : Directory) : Prop where
  /-- What an owner holds is its own, under its key. -/
  own : ∀ {o held k s}, d.holdings.get? o = some held → held.get? k = some s →
    s.key = k ∧ s.owner.id = o
  /-- A subscription covers its type first, and no type twice. -/
  covers : ∀ {o held k s}, d.holdings.get? o = some held → held.get? k = some s →
    s.covers.head? = some s.event ∧ s.covers.Nodup
  /-- What is held is listed under every type it covers: as it is under its own type, and seen as
  one of its own type under any other. -/
  listed : ∀ {o held k s t}, d.holdings.get? o = some held → held.get? k = some s → t ∈ s.covers →
    ∃ routes, d.listings.get? t = some routes ∧
      routes.get? k = some ⟨s, if t = s.event then none else some ⟨t, s.event⟩⟩
  /-- What is listed is held by the owner of its key, and covers the type. -/
  backed : ∀ {t routes k r}, d.listings.get? t = some routes → routes.get? k = some r →
    t ∈ r.subscription.covers ∧
      ∃ held, d.holdings.get? k.owner = some held ∧ held.get? k = some r.subscription
  held_isEmpty : ∀ {o held}, d.holdings.get? o = some held → held.isEmpty = false
  listed_isEmpty : ∀ {t routes}, d.listings.get? t = some routes → routes.isEmpty = false
  /-- The children of a type are distinct, it is none of them, and each is seen as one of it. -/
  family : ∀ {p us}, d.families.get? p = some us →
    (p :: us.map Upcast.child).Nodup ∧ ∀ u ∈ us, u.parent = p

variable {d : Directory}

/-- **The route of a covered type is listed under it.** -/
theorem Indexed.listed_of_mem_covers (h : d.Indexed) {k : Key} {s : Subscription} {t : EventType}
    (hs : d.find? k = some s) (ht : t ∈ s.covers) :
    Directory.listed d.listings t k =
      some ⟨s, if t = s.event then none else some ⟨t, s.event⟩⟩ := by
  obtain ⟨⟨sub, upcast⟩, hr⟩ := Subscription.mem_covers_iff.1 ht
  obtain rfl : sub = s := Subscription.subscription_of_mem_routes hr
  obtain rfl : upcast = _ := (h.sound hs).upcast_of_mem_routes hr
  exact h.listed_iff.2 ⟨_, hs, hr⟩

/-- **Indices that agree are consistent, bucket by bucket.** -/
theorem Indexed.consistent (h : d.Indexed) : d.Consistent where
  own ho hk := (h.held ho).2 hk
  covers ho hk := ⟨rfl, (h.sound (h.find?_of_held ho hk)).covers_nodup⟩
  listed ho hk ht := Option.bind_eq_some_iff.1 (h.listed_of_mem_covers (h.find?_of_held ho hk) ht)
  backed ht hk := by
    obtain ⟨s, hs, hr⟩ := h.listed_iff.1 (Option.bind_eq_some_iff.2 ⟨_, ht, hk⟩)
    rw [Subscription.subscription_of_mem_routes hr]
    exact ⟨Subscription.mem_covers_iff.2 ⟨_, hr⟩, Option.bind_eq_some_iff.1 hs⟩
  held_isEmpty ho := (h.held ho).1
  listed_isEmpty := h.noEmptyBucket _ _
  family := h.family

end Directory

namespace Bus

variable {ε : Type} [EventValue ε]

/-- **The two indices are consistent at every moment.**  This holds after any requests, whether they
are accepted or refused, and of the directory of a bus after any run, however its commands are
nested in posts. -/
theorem directory_consistent (config : Config) (commands : List (Command ε)) :
    (∀ requests, (Directory.empty.serveAll requests).1.Consistent) ∧
      ((new config : Bus ε).run commands).state.directory.Consistent := by
  refine ⟨fun requests => ?_, ?_⟩
  · exact (Directory.coherent_serveAll requests).consistent
  · exact ((reachable_new config).run commands).coherent.consistent

end Bus

end PubSub
