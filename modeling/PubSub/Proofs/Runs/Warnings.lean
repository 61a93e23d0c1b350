import PubSub.Proofs.Runs.Declarations

/-!
# Proofs/Runs/Warnings — which handlers a declaration comes too late for

    past                      … enters o i …                  s
    declares p cs :: past     declares p cs … enters o i …    s with the children, if it is for p

Whoever is live for a type when its children are declared would have them if they had been declared
at the very beginning; nobody else would be any different.  The warning asks less: whether anybody
is listed under the type.  Listed are the handlers for the type, and also those for a parent of it,
who lose nothing by the declaration.
-/

namespace PubSub

namespace Deed

/-! ## Had the declaration come first -/

variable {p : EventType} {cs : List EventType} {past : List Deed} {k : Key}

/-- Of all families of a type the first counts. -/
theorem family?_cons_declares (p : EventType) (cs : List EventType) (past : List Deed)
    (t : EventType) :
    family? (declares p cs :: past) t = if p = t then some cs else family? past t := by
  rw [family?, List.findSome?_cons, founds?_declares]
  by_cases hp : p = t
  · rw [if_pos hp, if_pos hp]
  · rw [if_neg hp, if_neg hp]
    rfl

theorem subscriptionAt_cons_declares (p : EventType) (cs : List EventType) (past : List Deed)
    (o : Owner) (i : Interest) :
    subscriptionAt (declares p cs :: past) o i = (subscriptionAt past o i).regrown p cs := by
  unfold subscriptionAt Subscription.regrown
  rw [family?_cons_declares]
  by_cases hp : i.event = p
  · rw [if_pos hp, if_pos hp.symm, Option.getD_some, hp]
  · rw [if_neg hp, if_neg (Ne.symm hp)]

/-- With a declaration alone nobody has entered. -/
theorem not_enteredWith_declares {P : List Deed → Owner → Interest → Prop} :
    ¬ EnteredWith P [declares p cs] k := by
  intro (h : EnteredWith P ([] ++ [declares p cs]) k)
  rcases enteredWith_concat.1 h with ⟨o, i, hd, -⟩ | ⟨-, hnil⟩
  · cases hd
  · exact not_enteredWith_nil hnil

/-- A declaration makes nobody live. -/
theorem live_cons_declares : Live (declares p cs :: past) k ↔ Live past k := by
  induction past using List.reverseRecOn with
  | nil => exact iff_of_false not_enteredWith_declares not_enteredWith_nil
  | append_singleton past d ih =>
    rw [← List.cons_append]
    refine enteredWith_concat.trans (Iff.trans ?_ enteredWith_concat.symm)
    exact or_congr_right (and_congr_right fun _ => ih)

/-- **Who would have had the children if they had been declared first**: whoever is live for the
type, and nobody else. -/
theorem liveAs_cons_declares {s' : Subscription} :
    LiveAs (declares p cs :: past) k s' ↔ ∃ s, LiveAs past k s ∧ s' = s.regrown p cs := by
  induction past using List.reverseRecOn with
  | nil => exact iff_of_false not_enteredWith_declares fun ⟨_, hs, _⟩ => not_enteredWith_nil hs
  | append_singleton past d ih =>
    rw [← List.cons_append, liveAs_concat, live_cons_declares, ih]
    constructor
    · rintro (⟨o, i, rfl, hk, hfree, rfl⟩ | ⟨hd, s, hs, rfl⟩)
      · refine ⟨_, liveAs_concat.2 (.inl ⟨o, i, rfl, hk, hfree, rfl⟩), ?_⟩
        exact subscriptionAt_cons_declares p cs past o i
      · exact ⟨s, liveAs_concat.2 (.inr ⟨hd, hs⟩), rfl⟩
    · rintro ⟨s, hs, rfl⟩
      rcases liveAs_concat.1 hs with ⟨o, i, rfl, hk, hfree, rfl⟩ | ⟨hd, hs⟩
      · refine .inl ⟨o, i, rfl, hk, hfree, ?_⟩
        exact (subscriptionAt_cons_declares p cs past o i).symm
      · exact .inr ⟨hd, s, hs, rfl⟩

end Deed

/-! ## The warning -/

theorem Directory.log_declare (d : Directory) (p : EventType) (cs : List EventType) :
    (d.declare p cs).log = if d.listings.contains p then [.declaredLate p] else [] := by
  unfold declare
  cases d.families.contains p with
  | true => rfl
  | false => cases badChild? p [] cs <;> rfl

namespace Bus

variable {ε : Type} [EventValue ε]

/-- **A declaration warns when somebody is live for the type or for a parent of it.**  After any run
a declaration writes the warning and nothing else when a live subscription covers the type, and
writes nothing otherwise, whether or not the declaration stands.  So it warns whenever somebody is
live for the type itself: these are the subscriptions that would have the children if they had been
declared first, and no others would be different.  It warns of nobody else as long as no live
subscription has the type for a child. -/
theorem late_declaration_warned (config : Config) (before : List (Command ε)) (p : EventType)
    (cs : List EventType) :
    let past := (new config : Bus ε).deeds before
    let log := (((new config : Bus ε).run before).state.exec (.declare p cs)).log
    let concerned := ∃ k s, Deed.LiveAs past k s ∧ s.event = p
    (.declaredLate p ∈ log ↔ Deed.Covers past p) ∧
      (∀ x ∈ log, x = .declaredLate p ∧ x.level = .warn ∧ x.message =
        "child events declared after handlers were registered; existing handlers are not expanded") ∧
      (concerned → .declaredLate p ∈ log) ∧
      ((∀ k s, Deed.LiveAs past k s → p ∉ s.children.map Upcast.child) → (.declaredLate p ∈ log ↔ concerned)) ∧
      ∀ k s', Deed.LiveAs (.declares p cs :: past) k s' ↔
        ∃ s, Deed.LiveAs past k s ∧ s' = s.regrown p cs := by
  intro past log concerned
  have hco : Directory.Coherent _ := Reachable.coherent ⟨config, before, rfl⟩
  have hlog : log = if _ then _ else _ := Directory.log_declare _ p cs
  have hwarned : .declaredLate p ∈ log ↔ Deed.Covers past p := by
    rw [← (reflects_run config before).mem_covered, ← hco.contains_listings_iff, hlog]
    split
    · next h => exact iff_of_true (List.mem_singleton_self _) h
    · next h => exact iff_of_false List.not_mem_nil h
  have hconcerned : concerned → .declaredLate p ∈ log := by
    rintro ⟨k, s, hs, rfl⟩
    exact hwarned.2 ⟨k, s, hs, List.mem_cons_self⟩
  refine ⟨hwarned, fun x hx => ?_, hconcerned, fun hchild => ⟨fun h => ?_, hconcerned⟩,
    fun k s' => Deed.liveAs_cons_declares⟩
  · have hx' : x = .declaredLate p := by
      rw [hlog] at hx
      split at hx
      · exact List.mem_singleton.1 hx
      · cases hx
    subst hx'
    exact ⟨rfl, rfl, rfl⟩
  · obtain ⟨k, s, hs, hm⟩ := hwarned.1 h
    exact ⟨k, s, hs, ((List.mem_cons.1 hm).resolve_right (hchild k s hs)).symm⟩

/-- A handler for items is live, and spawns are children of items.  When spawns are declared to have
children of their own there is a warning, and nobody is live for spawns. -/
theorem warned_of_parent :
    let item := Showcase.Loot.Event.itemType
    let spawned := Showcase.Loot.Event.spawnedType
    let despawned := Showcase.Loot.Event.despawnedType
    let before : List (Command Showcase.Loot.Event) :=
      [.declare item [spawned], .register ⟨⟨0⟩, "tracker"⟩ [⟨item, "on_item", ⟨0⟩⟩]]
    let past := (new {} : Bus Showcase.Loot.Event).deeds before
    let b := ((new {} : Bus Showcase.Loot.Event).run before).state
    (b.exec (.declare spawned [despawned])).log = [.declaredLate spawned] ∧
      ¬ ∃ k s, Deed.LiveAs past k s ∧ s.event = spawned := by
  intro item spawned despawned before past b
  refine ⟨by decide, ?_⟩
  rintro ⟨k, s, hs, hevent⟩
  have hco : b.directory.Coherent := Reachable.coherent ⟨{}, before, rfl⟩
  have hmem : s ∈ b.directory.subscriptions :=
    hco.mem_subscriptions.2 ⟨k, ((reflects_run {} before).live k s).2 hs⟩
  have hnone : ∀ s ∈ b.directory.subscriptions, s.event ≠ spawned := by decide
  exact hnone s hmem hevent

end Bus

end PubSub
