import PubSub.Proofs.OneShots.Leavings
import PubSub.Proofs.Post.Dispatch
import PubSub.Proofs.Post.Waits
import PubSub.Showcase.Loot

/-!
# Proofs/OneShots/Batch — how a batch is worked off, and what it leaves pending

    batch                 s₁        s₂        s₃        s₄
    queued meanwhile      x y       z
    outcome               not done  done      fatal     (not visited)
    pending afterwards    x y s₁    z                   s₄

A post visits the one-shots of its batch in order, each once, up to the first that is fatal.  What
is queued for its type while one of them is executing goes to the new pending list, and the one-shot
goes behind it if it is not done; whom a fatal one leaves unvisited goes last.  Nobody of that list
is met by this post.
-/

namespace PubSub

variable {ε : Type} [EventValue ε]

/-! ## How a batch is worked off -/

/-- How far a post has come with its batch when `visits` are the visits it made and `xs` all that it
did: it waits for a one-shot; or it is through and has gone on to the handlers; or it was cut short
by a one-shot, in whose name it ends, and put back the rest. -/
inductive WorksOff (e : ε) (outer stack : List (Frame ε)) (batch : List OneShot)
    (handlers : List Recipient) (visits : List Visit) (xs : List (Receipt ε)) :
    List OneShot → Progress ε → Prop
  | underway {s : OneShot} {c : Callback} {rest : List OneShot}
      (batch_eq : batch = visits.map (·.entry) ++ s :: rest)
      (receipts_eq : xs = visits.map (Visit.receipt e))
      (harmless : ∀ v ∈ visits, v.outcome.fatal? = none) :
    WorksOff e outer stack batch handlers visits xs [] (.calling (.oneShot s c e))
  | through {ys : List (Receipt ε)} {p : Progress ε} (batch_eq : batch = visits.map (·.entry))
      (receipts_eq : xs = visits.map (Visit.receipt e) ++ ys)
      (harmless : ∀ v ∈ visits, v.outcome.fatal? = none)
      (onward : Serves e outer stack handlers ys p) :
    WorksOff e outer stack batch handlers visits xs [] p
  | cutShort {earlier : List Visit} {last : Visit} {rest : List OneShot} {text : String}
      (visits_eq : visits = earlier ++ [last]) (batch_eq : batch = visits.map (·.entry) ++ rest)
      (receipts_eq : xs = visits.map (Visit.receipt e))
      (harmless : ∀ v ∈ earlier, v.outcome.fatal? = none)
      (fatal : last.outcome.fatal? = some text) :
    WorksOff e outer stack batch handlers visits xs rest
      (.finished (.aborted ⟨"one-shot", typeOf e, text⟩))

section WorksOff

variable {e : ε} {batch : List OneShot} {handlers left : List Recipient}
  {visits : List Visit} {xs ys : List (Receipt ε)}

omit [EventValue ε] in
/-- **A post that goes to one-shots and then to handlers** is still at the one-shots, or past all of
them. -/
theorem split_agenda (h : batch.map .oneShot ++ handlers = xs.map (·.recipient) ++ left) :
    (∃ ys zs, xs = ys ++ zs ∧ ys.map (·.recipient) = batch.map .oneShot ∧
        handlers = zs.map (·.recipient) ++ left) ∨
      ∃ entries s rest, batch = entries ++ s :: rest ∧
        xs.map (·.recipient) = entries.map .oneShot ∧
        left = .oneShot s :: (rest.map .oneShot ++ handlers) := by
  rcases List.append_eq_append_iff.1 h with ⟨zs, hxs, hhandlers⟩ | ⟨later, hbatch, hleft⟩
  · obtain ⟨ys, zs', rfl, hys, rfl⟩ := List.map_eq_append_iff.1 hxs
    exact .inl ⟨ys, zs', rfl, hys, hhandlers⟩
  · obtain ⟨entries, rest, rfl, hentries, rfl⟩ := List.map_eq_append_iff.1 hbatch
    cases rest with
    | nil =>
      refine .inl ⟨xs, [], (List.append_nil xs).symm, ?_, hleft.symm⟩
      rw [List.append_nil, hentries]
    | cons s rest => exact .inr ⟨entries, s, rest, rfl, hentries.symm, hleft⟩

omit [EventValue ε] in
/-- Receipts of one-shots alone are those of visits. -/
theorem eq_visits_of_oneShots {entries : List OneShot}
    (hxs : xs.map (·.recipient) = entries.map .oneShot)
    (hvisits : visits.map (Visit.receipt e) = xs.filter (·.oneShot?.isSome)) :
    xs = visits.map (Visit.receipt e) ∧ entries = visits.map (·.entry) := by
  have hall : ∀ x ∈ xs, x.oneShot?.isSome = true := by
    intro x hx
    have hmem : x.recipient ∈ entries.map Recipient.oneShot := hxs ▸ List.mem_map_of_mem hx
    obtain ⟨s, -, hs⟩ := List.mem_map.1 hmem
    rw [Receipt.oneShot?, ← hs]
    rfl
  rw [List.filter_eq_self.2 hall] at hvisits
  refine ⟨hvisits.symm, ?_⟩
  rw [← hvisits, List.map_map] at hxs
  have hinj : Function.Injective Recipient.oneShot := fun _ _ => Recipient.oneShot.inj
  refine (hinj.list_map ?_).symm
  rw [List.map_map]
  exact hxs

/-- A batch that a post is through with, `zs` being what it did since. -/
theorem worksOff_through {outer stack : List (Frame ε)} {p : Progress ε}
    {zs : List (Receipt ε)} (hys : ys.map (·.recipient) = batch.map .oneShot)
    (hzs : ∀ x ∈ zs, x.oneShot? = none) (hharmless : Harmless ys)
    (hvisits : visits.map (Visit.receipt e) = (ys ++ zs).filter (·.oneShot?.isSome))
    (honward : Serves e outer stack handlers zs p) :
    WorksOff e outer stack batch handlers visits (ys ++ zs) (putBack batch (ys ++ zs)) p := by
  have hnone : zs.filter (·.oneShot?.isSome) = [] := by
    refine List.filter_eq_nil_iff.2 fun x hx => ?_
    rw [hzs x hx]
    exact Bool.false_ne_true
  rw [List.filter_append, hnone, List.append_nil] at hvisits
  obtain ⟨hreceipts, hbatch⟩ := eq_visits_of_oneShots hys hvisits
  have hput : putBack batch (ys ++ zs) = [] := by
    have hentries : ys.filterMap Receipt.oneShot? ++ [] = batch := by
      rw [List.append_nil, entries_eq, hys, List.filterMap_map]
      exact List.filterMap_some
    rw [← hentries, putBack_append hharmless, putBack, List.drop_nil, ite_self]
  rw [hput]
  refine .through hbatch (congrArg (· ++ zs) hreceipts) (fun v hv => ?_) honward
  have hfatal := hharmless _ (hreceipts ▸ List.mem_map_of_mem hv)
  rwa [Receipt.fatal?, Option.map_eq_none_iff] at hfatal

/-- A batch that a fatal one-shot cuts short, `rest` being those after it. -/
theorem worksOff_cutShort {outer stack : List (Frame ε)} {entries rest : List OneShot}
    {earlier : List (Receipt ε)} {last : Receipt ε} {error : FatalError}
    (hxs : xs.map (·.recipient) = entries.map .oneShot) (hdone : xs = earlier ++ [last])
    (hharmless : Harmless earlier) (hfatal : last.fatal? = some error) (hevent : last.event = e)
    (hvisits : visits.map (Visit.receipt e) = xs.filter (·.oneShot?.isSome)) :
    WorksOff e outer stack (entries ++ rest) handlers visits xs (putBack (entries ++ rest) xs)
      (.finished (.aborted error)) := by
  obtain ⟨hreceipts, hentries⟩ := eq_visits_of_oneShots hxs hvisits
  have hput : putBack (entries ++ rest) xs = rest := by
    have hlength : xs.filterMap Receipt.oneShot? = entries := by
      rw [entries_eq, hxs, List.filterMap_map]
      exact List.filterMap_some
    have hany : xs.any (·.fatal?.isSome) = true :=
      List.any_eq_true.2 ⟨last, by rw [hdone]; simp, by rw [hfatal, Option.isSome_some]⟩
    rw [putBack, hany, if_pos rfl, hlength, List.drop_left]
  obtain ⟨before, tail, hvisits', hearlier, hlast⟩ :=
    List.map_eq_append_iff.1 (hreceipts.symm.trans hdone)
  obtain ⟨v, rfl, rfl⟩ := List.map_eq_singleton_iff.1 hlast
  obtain ⟨text, htext, rfl⟩ := Option.map_eq_some_iff.1 hfatal
  rw [hput]
  refine .cutShort hvisits' (congrArg (· ++ rest) hentries) hreceipts (fun v hv => ?_) htext
  have hnone := hharmless _ (hearlier ▸ List.mem_map_of_mem hv)
  rwa [Receipt.fatal?, Option.map_eq_none_iff] at hnone

/-- **A post that serves one-shots and then handlers** is past the one-shots, waits for one of them,
or was cut short by one. -/
theorem Serves.split {outer stack : List (Frame ε)} {p : Progress ε}
    (h : Serves e outer stack (batch.map .oneShot ++ handlers) xs p) :
    (∃ ys zs, xs = ys ++ zs ∧ ys.map (·.recipient) = batch.map .oneShot ∧ Harmless ys ∧
        Serves e outer stack handlers zs p) ∨
      (∃ entries s rest c, batch = entries ++ s :: rest ∧
        xs.map (·.recipient) = entries.map .oneShot ∧ Harmless xs ∧
        p = .calling (.oneShot s c e)) ∨
      ∃ entries rest earlier last error, batch = entries ++ rest ∧
        xs.map (·.recipient) = entries.map .oneShot ∧ xs = earlier ++ [last] ∧ Harmless earlier ∧
        last.fatal? = some error ∧ p = .finished (.aborted error) := by
  cases h with
  | @waits inner f call hs hf hc hh ho =>
    rcases split_agenda ho with ⟨ys, zs, rfl, hys, hz⟩ | ⟨entries, s, rest, rfl, hxs, hcurrent⟩
    · exact .inl ⟨ys, zs, rfl, hys, hh.left, .waits hs hf hc hh.right hz⟩
    · have hcall : f.current = .oneShot s := (List.cons.inj hcurrent).1
      obtain ⟨c, rfl⟩ := Recipient.call?_oneShot (hcall ▸ hc)
      exact .inr (.inl ⟨entries, s, rest, c, rfl, hxs, hh, rfl⟩)
  | ended hends =>
    cases hends with
    | completed ho hh =>
      rcases split_agenda (ho.trans (List.append_nil _).symm) with
        ⟨ys, zs, rfl, hys, hz⟩ | ⟨entries, s, rest, -, -, hnil⟩
      · rw [List.append_nil] at hz
        exact .inl ⟨ys, zs, rfl, hys, hh.left, .ended (.completed hz hh.right)⟩
      · cases hnil
    | @aborted earlier last left error hd ho hh hf =>
      rcases split_agenda ho with ⟨ys, zs, hxs, hys, hz⟩ | ⟨entries, s, rest, rfl, hxs, -⟩
      · -- the last one-shot may have been the one that was fatal
        rcases List.eq_nil_or_concat' zs with rfl | ⟨zs', z, rfl⟩
        · rw [List.append_nil] at hxs
          refine .inr (.inr ⟨batch, [], earlier, last, error, ?_, hxs ▸ hys, hd, hh, hf, rfl⟩)
          rw [List.append_nil]
        · have hsplit : (ys ++ zs') ++ [z] = earlier ++ [last] := by
            rw [List.append_assoc, ← hxs, hd]
          obtain ⟨rfl, hsame⟩ := List.append_inj' hsplit rfl
          obtain rfl : z = last := List.singleton_inj.1 hsame
          exact .inl ⟨ys, zs' ++ [z], hxs, hys, hh.left, .ended (.aborted rfl hz hh.right hf)⟩
      · exact .inr (.inr ⟨entries, s :: rest, earlier, last, error, rfl, hxs, hd, hh, hf, rfl⟩)
    | @unwound x left p ho hh hp =>
      rcases split_agenda ho with ⟨ys, zs, rfl, hys, hz⟩ | ⟨entries, s, rest, -, -, hx⟩
      · exact .inl ⟨ys, zs, rfl, hys, hh.left, .ended (.unwound hz hh.right hp)⟩
      · rw [(List.cons.inj hx).1] at hp
        cases hp

/-- **A post that serves one-shots and then handlers works its batch off.** -/
theorem Serves.worksOff {outer stack : List (Frame ε)} {p : Progress ε}
    (h : Serves e outer stack (batch.map .oneShot ++ handlers) xs p)
    (hhandlers : ∀ x ∈ handlers, x.oneShot? = none) (hevents : ∀ x ∈ xs, x.event = e)
    (hvisits : visits.map (Visit.receipt e) = xs.filter (·.oneShot?.isSome)) :
    WorksOff e outer stack batch handlers visits xs (putBack batch xs) p := by
  rcases h.split with ⟨ys, zs, rfl, hys, hharmless, honward⟩ |
    ⟨entries, s, rest, c, rfl, hxs, hharmless, rfl⟩ |
    ⟨entries, rest, earlier, last, error, rfl, hxs, hdone, hharmless, hfatal, rfl⟩
  · refine worksOff_through hys (fun x hx => ?_) hharmless hvisits honward
    exact hhandlers x.recipient (honward.recipients_isPrefix.subset (List.mem_map_of_mem hx))
  · obtain ⟨hreceipts, rfl⟩ := eq_visits_of_oneShots hxs hvisits
    rw [putBack_of_harmless hharmless]
    refine .underway rfl hreceipts fun v hv => ?_
    have hnone := hharmless _ (hreceipts ▸ List.mem_map_of_mem hv)
    rwa [Receipt.fatal?, Option.map_eq_none_iff] at hnone
  · have hlast : last.event = e := hevents last (hdone ▸ by simp)
    exact worksOff_cutShort hxs hdone hharmless hfatal hlast hvisits

/-- Only a fatal one-shot has others put back. -/
theorem WorksOff.eq_nil_or_fatal {outer stack : List (Frame ε)} {rest : List OneShot}
    {p : Progress ε} (h : WorksOff e outer stack batch handlers visits xs rest p) :
    rest = [] ∨ ∃ x ∈ xs, x.fatal?.isSome = true ∧ x.oneShot?.isSome = true := by
  cases h with
  | underway | through => exact .inl rfl
  | @cutShort earlier last rest text hv hb hr hh hf =>
    refine .inr ⟨last.receipt e, ?_, ?_, rfl⟩
    · rw [hr, hv]
      exact List.mem_map_of_mem (List.mem_append_right _ List.mem_cons_self)
    · rw [Receipt.fatal?, Visit.receipt, hf]
      rfl

end WorksOff

/-! ## Who is called -/

/-- **The one-shots that are called are among those that are on the agenda**, in the same order. -/
theorem oneShots_calls (e : ε) (xs : List Recipient) :
    ((xs.filterMap (Recipient.call? e)).filterMap Call.oneShot?).Sublist
      (xs.filterMap Recipient.oneShot?) := by
  induction xs with
  | nil => exact List.Sublist.refl []
  | cons x xs ih =>
    rw [filterMap_cons_toList, List.filterMap_append, filterMap_cons_toList]
    refine List.Sublist.append ?_ ih
    cases hx : x.call? e with
    | none => exact List.nil_sublist _
    | some call =>
      cases x with
      | oneShot s =>
        obtain ⟨c, rfl⟩ := Recipient.call?_oneShot hx
        exact List.Sublist.refl _
      | handler r =>
        obtain ⟨seen, rfl⟩ := Recipient.call?_handler hx
        exact List.Sublist.refl _

namespace Bus

section Visits

variable {b : Bus ε} {e : ε} {order : Arrangement Route} {during : List (Command ε)}

/-! ## The visits of a post -/

/-- **The visits of a post are what it did with one-shots**, in the same order. -/
theorem map_receipt_visits (h : b.backlog.Sound) (e : ε) (order : Arrangement Route)
    (during : List (Command ε)) :
    (b.visits e order during).map (Visit.receipt e) =
      ((b.turns e order during).flatMap (·.receipts)).filter (·.oneShot?.isSome) := by
  have hnotes : (b.notes e order during).filterMap Note.receipt? =
      (b.turns e order during).flatMap (·.receipts) := by
    rw [notes, List.filterMap_append, filterMap_receipt?_done, receipts_notesFrom]
    rfl
  have hevents := (b.account_turns h e order during).events
  rw [← hnotes] at hevents ⊢
  exact receipts_attend [] _ hevents

/-- **What is queued while a post is running is none of its batch**: its ticket is newer. -/
theorem Reachable.not_mem_waiting_of_visits (h : b.Reachable) {s : OneShot}
    (hs : (∃ v ∈ b.visits e order during, s ∈ v.meanwhile) ∨ s ∈ b.newcomers e order during) :
    s ∉ b.backlog.waiting (typeOf e) := by
  intro hold
  have hqueued := (queued_of_attend hs).resolve_left List.not_mem_nil
  have hnew : (b.exec (.post e order)).state.tickets ≤ s.ticket := by
    refine tickets_le_of_queued ((List.mem_append.1 hqueued).resolve_left fun hq => ?_)
    obtain ⟨x, -, hx⟩ := List.mem_map.1 hq
    cases hx
  have htickets : (b.exec (.post e order)).state.tickets = b.tickets := tickets_exec b _
  have hlt := h.ticketed.old (List.mem_append_left (b.held (typeOf e)) hold)
  omega

/-- **What is pending when a post has come so far with its batch**, nobody else having posted its
type: what each visit leaves, those who were put back, and what was queued since.  If anybody was
put back, a one-shot was fatal, and nothing was queued since. -/
theorem waiting_run_of_worksOff (h : b.Sound) {stack : List (Frame ε)} {handlers : List Recipient}
    {p : Progress ε}
    (hworks : WorksOff e b.running stack (b.backlog.waiting (typeOf e)) handlers
      (b.visits e order during) ((b.turns e order during).flatMap (·.receipts))
      (putBack (b.backlog.waiting (typeOf e)) ((b.turns e order during).flatMap (·.receipts))) p)
    (hspans : b.Spans e order during) (hposts : ∀ c ∈ during, ¬ c.Posts (typeOf e)) :
    (b.run (.post e order :: during)).state.backlog.waiting (typeOf e) =
      (b.visits e order during).flatMap Visit.leaves ++
        putBack (b.backlog.waiting (typeOf e)) ((b.turns e order during).flatMap (·.receipts)) ++
        b.newcomers e order during := by
  have hleaves : (b.visits e order during).flatMap Visit.leaves ++ b.newcomers e order during =
      (b.notes e order during).flatMap Note.leaves := leaves_attend [] (b.notes e order during)
  rw [waiting_run_post h hspans hposts, ← hleaves]
  rcases hworks.eq_nil_or_fatal with hnil | ⟨x, hx, hfatal, hentry⟩
  · rw [hnil, List.append_nil, List.append_nil]
  · rw [newcomers_of_fatal h hx hfatal hentry, List.append_nil, List.append_nil]

end Visits

/-- **A batch is worked off in order, each once, and leaves what was queued meanwhile.**  Take any
post, in any reachable state, and whatever is done while it is running.

Its visits go through the one-shots that were pending when it began, in order, up to the first that
is fatal; then it puts the rest back and ends with that error, in the name of the one-shot.  If none
is fatal it goes on to the handlers.  It calls nobody else's one-shots: each of the batch at most
once, with its event, and none of those that are queued for its type meanwhile.

If nobody posts the type meanwhile, then for as long as the post is running and when it ends, the
pending list is made of what each visit leaves, in their order: what was queued while the one-shot
was executing, and the one-shot itself if it is not done.  Behind it stand those that were put back,
and what was queued since. -/
theorem batch_worked_off (config : Config) (before : List (Command ε)) (e : ε)
    (order : Arrangement Route) (during : List (Command ε)) :
    let b := ((new config : Bus ε).run before).state
    let t := typeOf e
    let batch := b.backlog.waiting t
    let handlers := (order.apply (b.directory.routesTo t)).map Recipient.handler
    let after := (b.run (.post e order :: during)).state
    let turns := b.turns e order during
    let calls := turns.filterMap (·.progress.call?)
    let visits := b.visits e order during
    let newcomers := b.newcomers e order during
    ∃ rest,
      WorksOff e b.running after.running batch handlers visits (turns.flatMap (·.receipts)) rest
        ((turns.map (·.progress)).getLastD .idle) ∧
      batch.Nodup ∧
      (calls.filterMap Call.oneShot?).Sublist batch ∧
      (∀ s c seen, .oneShot s c seen ∈ calls → seen = e) ∧
      (∀ s, (∃ v ∈ visits, s ∈ v.meanwhile) ∨ s ∈ newcomers → s ∉ batch) ∧
      (b.Spans e order during → (∀ c ∈ during, ¬ c.Posts t) →
        after.backlog.waiting t = visits.flatMap Visit.leaves ++ rest ++ newcomers) := by
  intro b t batch handlers after turns calls visits newcomers
  have hb : b.Reachable := ⟨config, before, rfl⟩
  have haccounts := b.account_turns hb.sound.backlog e order during
  have hagenda : b.agenda e order = batch.map .oneShot ++ handlers := hb.agenda_eq e order
  have hworks : WorksOff e b.running after.running batch handlers visits
      (turns.flatMap (·.receipts)) (putBack batch (turns.flatMap (·.receipts)))
      ((turns.map (·.progress)).getLastD .idle) := by
    refine (hagenda ▸ haccounts.serves).worksOff (fun x hx => ?_) haccounts.events
      (b.map_receipt_visits hb.sound.backlog e order during)
    obtain ⟨r, -, rfl⟩ := List.mem_map.1 hx
    rfl
  have hcalls := haccounts.calls_isPrefix.sublist
  refine ⟨_, hworks, ?_, ?_, fun s c seen hc => ?_, fun s => hb.not_mem_waiting_of_visits,
    waiting_run_of_worksOff hb.sound hworks⟩
  · exact (hb.ticketed.nodup t).sublist (List.sublist_append_left ..)
  · refine (hcalls.filterMap Call.oneShot?).trans ?_
    have hall := oneShots_calls e (b.agenda e order)
    rwa [agenda, oneShots_recipientsOf] at hall
  · obtain ⟨x, -, hx⟩ := List.mem_filterMap.1 (hcalls.subset hc)
    exact (Recipient.call?_eq_oneShot hx).2.1

/-- Of four one-shots the first is not done and the third is fatal; while the first is executing two
one-shots are queued, and one more while the second is. -/
example :
    let t := Showcase.Loot.Event.itemType
    let b := ((new {} : Bus Showcase.Loot.Event).run
      [.onceOrMore t ⟨1⟩, .onceOrMore t ⟨2⟩, .onceOrMore t ⟨3⟩, .onceOrMore t ⟨4⟩]).state
    let during : List (Command Showcase.Loot.Event) :=
      [.once t ⟨5⟩, .next t, .resume (.returned false), .once t ⟨6⟩, .resume (.returned true),
        .resume (.faulted (.error (.fatal "stop")))]
    ((b.visits (.item 1) .listed during).map fun v =>
        (v.entry.ticket, v.meanwhile.map (·.ticket), v.outcome)) =
        [(0, [4, 5], .returned false), (1, [6], .returned true),
          (2, [], .faulted (.error (.fatal "stop")))] ∧
      ((b.run (.post (.item 1) .listed :: during)).state.backlog.waiting t).map (·.ticket) =
        [4, 5, 0, 6, 3] := by decide

end Bus

end PubSub
