import Mathlib.Data.List.Induction
import PubSub.Proofs.Directory.Index

/-!
# Proofs/Directory/Isolation — nobody notices what an owner does

    all requests          o   p   o   q   p   o      ──▸  answers to p, q; what p, q hold
    those that are not o's    p       q   p          ──▸  the same

What an owner registers is kept under the owner's own number in the holdings, and under keys with
that number in the listings, so two directories may differ in it and agree on everything else
(`AgreeBut`).  A request of the owner moves a directory only within that difference, and a request
of anybody else moves both alike and is answered alike.  Once the owner has left there is nothing
for them to differ in.
-/

namespace PubSub

/-! ## Requests -/

/-- Something that is asked of a directory. -/
inductive Request
  | register (owner : Owner) (interests : List Interest)
  | unregister (owner : OwnerId)
  | declare (parent : EventType) (children : List EventType)
  deriving DecidableEq, Repr

/-- What a directory says to a request. -/
inductive Answer
  | registered (inserted : Except RegisterError Nat)
  | unregistered (removed : Nat)
  | declared (result : Except DeclareError Unit)

/-- Whether a request is about what an owner has registered. -/
def Request.isBy (o : OwnerId) : Request → Bool
  | register p _ => p.id = o
  | unregister p => p = o
  | declare _ _ => false

namespace Directory

/-- Does what is asked. -/
def serve (d : Directory) : Request → Directory × Answer
  | .register o interests =>
    ((d.register o interests).state, .registered (d.register o interests).value)
  | .unregister o => ((d.unregister o).1, .unregistered (d.unregister o).2)
  | .declare p children => ((d.declare p children).state, .declared (d.declare p children).value)

/-- Does what is asked, one request after the other; the answer to each stands beside it. -/
def serveAll (d : Directory) : List Request → Directory × List (Request × Answer)
  | [] => (d, [])
  | r :: rest =>
    let first := d.serve r
    let others := first.1.serveAll rest
    (others.1, (r, first.2) :: others.2)

theorem serveAll_append (d : Directory) (rs rs' : List Request) :
    d.serveAll (rs ++ rs') = (((d.serveAll rs).1.serveAll rs').1,
      (d.serveAll rs).2 ++ ((d.serveAll rs).1.serveAll rs').2) := by
  induction rs generalizing d with
  | nil => rfl
  | cons r rs ih => simp only [List.cons_append, serveAll, ih]

theorem Coherent.serve {d : Directory} (h : d.Coherent) (r : Request) : (d.serve r).1.Coherent := by
  cases r with
  | register o interests => exact h.register o interests
  | unregister o => exact h.unregister o
  | declare p children => exact h.declare p children

theorem coherent_serveAll (rs : List Request) : (empty.serveAll rs).1.Coherent := by
  induction rs using List.reverseRecOn with
  | nil => exact coherent_empty
  | append_singleton rs r ih =>
    rw [serveAll_append]
    exact ih.serve r

/-! ## All but one owner -/

/-- Two directories agree on everything but what `o` has registered. -/
structure AgreeBut (o : OwnerId) (d d' : Directory) : Prop where
  families : d.families = d'.families
  holdings : ∀ p, p ≠ o → d.holdings.get? p = d'.holdings.get? p

namespace AgreeBut

variable {o : OwnerId} {d d' : Directory}

theorem refl (o : OwnerId) (d : Directory) : AgreeBut o d d := ⟨rfl, fun _ _ => rfl⟩

theorem trans {d'' : Directory} (h : AgreeBut o d d') (h' : AgreeBut o d' d'') :
    AgreeBut o d d'' :=
  ⟨h.families.trans h'.families, fun p hp => (h.holdings p hp).trans (h'.holdings p hp)⟩

theorem find? (h : AgreeBut o d d') {k : Key} (hk : k.owner ≠ o) : d.find? k = d'.find? k := by
  rw [Directory.find?, Directory.find?, h.holdings k.owner hk]

/-- **Routes of the other owners are the same** where the two indices agree. -/
theorem route? (h : AgreeBut o d d') (hd : d.Indexed) (hd' : d'.Indexed) (t : EventType) {k : Key}
    (hk : k.owner ≠ o) : d.route? t k = d'.route? t k := by
  ext r
  refine (hd.listed_iff (t := t)).trans (Iff.trans ?_ hd'.listed_iff.symm)
  rw [h.find? hk]

end AgreeBut

/-! ## What the owner itself asks for -/

/-- Entering a subscription of an owner changes only what that owner has. -/
theorem agreeBut_enter (d : Directory) (s : Subscription) : AgreeBut s.owner.id (d.enter s) d :=
  ⟨rfl, fun _ hp => Table.get?_insert_of_ne _ _ (Ne.symm hp)⟩

theorem agreeBut_enterAll (p : Owner) (is : List Interest) (d : Directory) :
    AgreeBut p.id (enterAll p is d).state d := by
  induction is generalizing d with
  | nil => exact .refl p.id d
  | cons i is ih =>
    unfold enterAll
    split
    · exact ih d
    · exact (ih _).trans (agreeBut_enter d (d.subscriptionOf p i))

theorem agreeBut_register (d : Directory) (p : Owner) (is : List Interest) :
    AgreeBut p.id (d.register p is).state d := by
  unfold register
  split
  · exact .refl p.id d
  · have h := agreeBut_enterAll p is d
    dsimp only
    split
    · exact h
    · exact ⟨h.families, h.holdings⟩

theorem agreeBut_unregister (d : Directory) (p : OwnerId) : AgreeBut p (d.unregister p).1 d := by
  cases hp : d.holdings.get? p with
  | none =>
    rw [unregister_of_free hp]
    exact .refl p d
  | some held =>
    rw [unregister_of_held hp]
    refine ⟨rfl, fun q hq => ?_⟩
    rw [Table.get?_erase, if_neg (Ne.symm hq)]

/-- **What an owner asks for changes only what it has itself.** -/
theorem agreeBut_serve {o : OwnerId} {r : Request} (hr : r.isBy o = true) (d : Directory) :
    AgreeBut o (d.serve r).1 d := by
  cases r with
  | register p is =>
    obtain rfl : p.id = o := of_decide_eq_true hr
    exact agreeBut_register d p is
  | unregister p =>
    obtain rfl : p = o := of_decide_eq_true hr
    exact agreeBut_unregister d p
  | declare p children => cases hr

/-- **Nobody else changes what an owner has.** -/
theorem holdings_serve {o : OwnerId} {r : Request} (hr : r.isBy o = false) (d : Directory) :
    (d.serve r).1.holdings.get? o = d.holdings.get? o := by
  cases r with
  | register p is => exact (agreeBut_register d p is).holdings o (Ne.symm (of_decide_eq_false hr))
  | unregister p => exact (agreeBut_unregister d p).holdings o (Ne.symm (of_decide_eq_false hr))
  | declare p children =>
    rcases declare_cases d p children with ⟨-, -, -, h⟩ | ⟨-, h⟩
    · exact congrArg (·.holdings.get? o) h
    · exact congrArg (·.holdings.get? o) h

/-! ## What the others ask for -/

namespace AgreeBut

variable {o : OwnerId} {d d' : Directory}

/-- The same subscription may be entered in both. -/
theorem enter (h : AgreeBut o d d') {s : Subscription} (hs : s.owner.id ≠ o) :
    AgreeBut o (d.enter s) (d'.enter s) := by
  refine ⟨h.families, fun p hp => ?_⟩
  unfold Directory.enter
  rw [Table.get?_insert, Table.get?_insert, Table.getD, Table.getD, h.holdings _ hs,
    h.holdings p hp]

theorem enterAll {p : Owner} (hp : p.id ≠ o) (is : List Interest) (h : AgreeBut o d d') :
    (Directory.enterAll p is d).value = (Directory.enterAll p is d').value ∧
      AgreeBut o (Directory.enterAll p is d).state (Directory.enterAll p is d').state := by
  induction is generalizing d d' with
  | nil => exact ⟨rfl, h⟩
  | cons i is ih =>
    have hsame : d.subscriptionOf p i = d'.subscriptionOf p i := by
      rw [subscriptionOf, subscriptionOf, childrenOf, childrenOf, h.families]
    unfold Directory.enterAll
    rw [h.find? (k := i.key p) hp, hsame]
    split
    · exact ih h
    · obtain ⟨hvalue, hstate⟩ := ih (h.enter (s := d'.subscriptionOf p i) hp)
      exact ⟨congrArg (· + 1) hvalue, hstate⟩

theorem register {p : Owner} (hp : p.id ≠ o) (is : List Interest) (h : AgreeBut o d d') :
    (d.register p is).value = (d'.register p is).value ∧
      AgreeBut o (d.register p is).state (d'.register p is).state := by
  unfold Directory.register
  split
  · exact ⟨rfl, h⟩
  · obtain ⟨hvalue, hstate⟩ := h.enterAll hp is
    dsimp only
    rw [hvalue]
    refine ⟨rfl, ?_⟩
    split
    · exact hstate
    · exact ⟨hstate.families, hstate.holdings⟩

theorem unregister {p : OwnerId} (hp : p ≠ o) (h : AgreeBut o d d') :
    (d.unregister p).2 = (d'.unregister p).2 ∧
      AgreeBut o (d.unregister p).1 (d'.unregister p).1 := by
  unfold Directory.unregister
  rw [h.holdings p hp]
  split
  · exact ⟨rfl, h⟩
  · refine ⟨rfl, h.families, fun q hq => ?_⟩
    rw [Table.get?_erase, Table.get?_erase, h.holdings q hq]

theorem declare (h : AgreeBut o d d') (p : EventType) (children : List EventType) :
    (d.declare p children).value = (d'.declare p children).value ∧
      AgreeBut o (d.declare p children).state (d'.declare p children).state := by
  unfold Directory.declare
  rw [h.families]
  cases d'.families.contains p with
  | true => exact ⟨rfl, h⟩
  | false =>
    cases badChild? p [] children with
    | some e => exact ⟨rfl, h⟩
    | none => exact ⟨rfl, rfl, h.holdings⟩

/-- **What somebody else asks for is answered alike and moves both alike.** -/
theorem serve (h : AgreeBut o d d') {r : Request} (hr : r.isBy o = false) :
    (d.serve r).2 = (d'.serve r).2 ∧ AgreeBut o (d.serve r).1 (d'.serve r).1 := by
  cases r with
  | register p is =>
    obtain ⟨hvalue, hstate⟩ := h.register (of_decide_eq_false hr) is
    exact ⟨congrArg Answer.registered hvalue, hstate⟩
  | unregister p =>
    obtain ⟨hvalue, hstate⟩ := h.unregister (of_decide_eq_false hr)
    exact ⟨congrArg Answer.unregistered hvalue, hstate⟩
  | declare p children =>
    obtain ⟨hvalue, hstate⟩ := h.declare p children
    exact ⟨congrArg Answer.declared hvalue, hstate⟩

/-- **Requests of the owner may be left out** and nobody else notices. -/
theorem serveAll (h : AgreeBut o d d') (rs : List Request) :
    (d.serveAll rs).2.filter (!·.1.isBy o) = (d'.serveAll (rs.filter (!·.isBy o))).2 ∧
      AgreeBut o (d.serveAll rs).1 (d'.serveAll (rs.filter (!·.isBy o))).1 := by
  induction rs generalizing d d' with
  | nil => exact ⟨rfl, h⟩
  | cons r rs ih =>
    cases hr : r.isBy o with
    -- the request is left out on the right: only the left directory moves
    | true =>
      obtain ⟨hanswers, hstate⟩ := ih ((agreeBut_serve hr d).trans h)
      simp only [Directory.serveAll, List.filter_cons, hr, Bool.not_true]
      exact ⟨hanswers, hstate⟩
    | false =>
      obtain ⟨hanswer, hserved⟩ := h.serve hr
      obtain ⟨hanswers, hstate⟩ := ih hserved
      simp only [Directory.serveAll, List.filter_cons, hr, Bool.not_false, if_true]
      exact ⟨by rw [hanswer, hanswers], hstate⟩

end AgreeBut

/-! ## When the owner has left -/

/-- An owner has left when the last thing it asked for was to be removed, or it never asked for
anything. -/
def HasLeft (o : OwnerId) (rs : List Request) : Prop :=
  ∀ r ∈ (rs.filter (·.isBy o)).getLast?, r = .unregister o

/-- Whoever is removed holds nothing. -/
theorem holdings_unregister (d : Directory) (o : OwnerId) :
    (d.unregister o).1.holdings.get? o = none := by
  cases ho : d.holdings.get? o with
  | none => rwa [unregister_of_free ho]
  | some held => rw [unregister_of_held ho, Table.get?_erase_self]

/-- **An owner that has left holds nothing.** -/
theorem holdings_of_hasLeft {o : OwnerId} (rs : List Request) (h : HasLeft o rs) :
    (empty.serveAll rs).1.holdings.get? o = none := by
  induction rs using List.reverseRecOn with
  | nil => rfl
  | append_singleton rs r ih =>
    have hserve : (empty.serveAll (rs ++ [r])).1 = ((empty.serveAll rs).1.serve r).1 := by
      rw [serveAll_append]
      rfl
    unfold HasLeft at h
    rw [List.filter_append, List.filter_singleton] at h
    rw [hserve]
    cases hr : r.isBy o with
    | true =>
      obtain rfl : r = .unregister o := h r (by rw [hr, cond_true, List.getLast?_concat]; rfl)
      exact holdings_unregister ..
    | false =>
      rw [hr, cond_false, List.append_nil] at h
      rw [holdings_serve hr]
      exact ih h

/-- An owner that never asked for anything has left. -/
theorem hasLeft_filter (o : OwnerId) (rs : List Request) : HasLeft o (rs.filter (!·.isBy o)) := by
  intro r hr
  have hm := List.mem_of_getLast? hr
  simp at hm

/-- An owner that holds nothing has no route. -/
theorem Indexed.route?_of_free {d : Directory} (h : d.Indexed) (t : EventType) {k : Key}
    (hk : d.holdings.get? k.owner = none) : d.route? t k = none := by
  refine Option.eq_none_iff_forall_ne_some.2 fun r hr => ?_
  obtain ⟨s, hs, -⟩ := h.listed_iff.1 hr
  rw [Directory.find?, hk] at hs
  cases hs

/-- Two indices of routes are equal as maps: the same types are listed, each with the same routes
under the same keys. -/
def SameListings (l l' : Table EventType (Table Key Route)) : Prop :=
  ∀ t, Option.Rel (fun routes routes' => ∀ k, routes.get? k = routes'.get? k) (l.get? t) (l'.get? t)

/-- A bucket that is not empty has a counterpart where the same routes are listed. -/
theorem exists_bucket {l l' : Table EventType (Table Key Route)} (hl : NoEmptyBucket l)
    {t : EventType} (h : ∀ k, listed l t k = listed l' t k) {routes : Table Key Route}
    (ht : l.get? t = some routes) : ∃ routes', l'.get? t = some routes' := by
  -- a bucket has a route, and that route is listed on the other side too
  have hne : ¬ ∀ k, routes.get? k = none := fun hall =>
    Bool.false_ne_true ((hl t routes ht).symm.trans (Table.isEmpty_iff.2 hall))
  obtain ⟨k, hk⟩ := not_forall.1 hne
  refine Option.ne_none_iff_exists'.1 fun hnone => hk ?_
  have hroute := h k
  rw [listed, listed, ht, hnone] at hroute
  exact hroute

/-- **Indices without empty buckets are the same if the same routes are listed.** -/
theorem sameListings_of_listed {l l' : Table EventType (Table Key Route)} (hl : NoEmptyBucket l)
    (hl' : NoEmptyBucket l') (h : ∀ t k, listed l t k = listed l' t k) : SameListings l l' := by
  intro t
  cases ht : l.get? t with
  | none =>
    cases ht' : l'.get? t with
    | none => exact .none
    | some routes' =>
      obtain ⟨routes, hr⟩ := exists_bucket hl' (fun k => (h t k).symm) ht'
      rw [ht] at hr
      cases hr
  | some routes =>
    obtain ⟨routes', ht'⟩ := exists_bucket hl (h t) ht
    rw [ht']
    refine .some fun k => ?_
    have hk := h t k
    rwa [listed, listed, ht, ht'] at hk

/-! ## Isolation -/

/-- **Nobody notices what an owner does, and it leaves nothing behind.**  Leave the requests of one
owner out of any sequence: everybody else gets the same answers, holds the same subscriptions and
has the same routes.  If the owner has left, the two indices are those of a directory that it never
came to. -/
theorem owner_isolated (o : OwnerId) (requests : List Request) :
    let all := empty.serveAll requests
    let others := empty.serveAll (requests.filter (!·.isBy o))
    all.2.filter (!·.1.isBy o) = others.2 ∧
      (∀ k, k.owner ≠ o → all.1.find? k = others.1.find? k) ∧
      (∀ t k, k.owner ≠ o → all.1.route? t k = others.1.route? t k) ∧
      (HasLeft o requests →
        (∀ p, all.1.holdings.get? p = others.1.holdings.get? p) ∧
          SameListings all.1.listings others.1.listings ∧
          all.1.holdings.get? o = none ∧ ∀ t k, k.owner = o → all.1.route? t k = none) := by
  intro all others
  have hall : all.1.Coherent := coherent_serveAll requests
  have hothers : others.1.Coherent := coherent_serveAll _
  obtain ⟨hanswers, hagree⟩ := (AgreeBut.refl o empty).serveAll requests
  have hroute : ∀ t k, k.owner ≠ o → all.1.route? t k = others.1.route? t k :=
    fun t k => hagree.route? hall.toIndexed hothers.toIndexed t
  refine ⟨hanswers, fun k => hagree.find?, hroute, fun hleft => ?_⟩
  have hgone : all.1.holdings.get? o = none := holdings_of_hasLeft requests hleft
  have hnever : others.1.holdings.get? o = none := holdings_of_hasLeft _ (hasLeft_filter o requests)
  have hfree : ∀ t k, k.owner = o → all.1.route? t k = none := fun t k hk =>
    hall.route?_of_free t (hk ▸ hgone)
  have hfree' : ∀ t k, k.owner = o → others.1.route? t k = none := fun t k hk =>
    hothers.route?_of_free t (hk ▸ hnever)
  refine ⟨fun p => ?_, sameListings_of_listed hall.noEmptyBucket hothers.noEmptyBucket ?_, hgone,
    hfree⟩
  · by_cases hp : p = o
    · rw [hp, hgone, hnever]
    · exact hagree.holdings p hp
  · intro t k
    by_cases hk : k.owner = o
    · exact (hfree t k hk).trans (hfree' t k hk).symm
    · exact hroute t k hk

end Directory

end PubSub
