import PubSub.Proofs.Directory.Families
import PubSub.Proofs.Post.Turns

/-!
# Proofs/Runs/Declarations — a declaration moves nobody

    b ──declare p cs──▸ b'       the families of b' are others, and nothing else
    │ commands          │ the same commands
    ▼                   ▼
    ·   ══ answers ══   ·        until somebody registers for p or declares it again

Only registrations and declarations read the families, so two buses that differ in the family of one
type stay in step for as long as neither is about that type (`AlikeBut`).  And once a family is
there, no command takes it away: the declarations that were accepted are the families.
-/

namespace PubSub

/-- The same answer and log with another state. -/
def Logged.mapState {σ σ' α : Type} (f : σ → σ') (r : Logged σ α) : Logged σ' α :=
  ⟨f r.state, r.value, r.log⟩

namespace Directory

/-! ## Directories with other families -/

/-- The directory with other families. -/
def withFamilies (F : Table EventType (List Upcast)) (d : Directory) : Directory :=
  { d with families := F }

variable (F : Table EventType (List Upcast)) (d : Directory)

theorem refresh_withFamilies : (d.withFamilies F).refresh = d.refresh.mapState (withFamilies F) := by
  obtain ⟨holdings, listings, families, cached⟩ := d
  cases cached <;> rfl

theorem routesTo_withFamilies (t : EventType) : (d.withFamilies F).routesTo t = d.routesTo t := by
  rw [routesTo, routesTo, refresh_withFamilies]
  rfl

theorem hasSubscribers_withFamilies (t : EventType) :
    (d.withFamilies F).hasSubscribers t = (d.hasSubscribers t).mapState (withFamilies F) := by
  rw [hasSubscribers, hasSubscribers, routesTo_withFamilies, refresh_withFamilies]
  rfl

theorem unregister_withFamilies (o : OwnerId) :
    (d.withFamilies F).unregister o =
      ((d.unregister o).1.withFamilies F, (d.unregister o).2) := by
  unfold unregister withFamilies
  cases d.holdings.get? o <;> rfl

variable {F d}

/-- **Interests are entered alike when their types have the same family.** -/
theorem enterAll_withFamilies (o : Owner) {is : List Interest} {d : Directory}
    (h : ∀ i ∈ is, F.get? i.event = d.families.get? i.event) :
    enterAll o is (d.withFamilies F) = (enterAll o is d).mapState (withFamilies F) := by
  induction is generalizing d with
  | nil => rfl
  | cons i is ih =>
    have hrest : ∀ j ∈ is, F.get? j.event = d.families.get? j.event := fun j hj =>
      h j (List.mem_cons_of_mem i hj)
    cases hi : d.find? (i.key o) with
    | some s =>
      have hi' : (d.withFamilies F).find? (i.key o) = some s := hi
      rw [enterAll_cons_of_live hi, enterAll_cons_of_live hi', ih hrest]
      rfl
    | none =>
      have hi' : (d.withFamilies F).find? (i.key o) = none := hi
      have hsub : (d.withFamilies F).subscriptionOf o i = d.subscriptionOf o i := by
        have hfamily := h i List.mem_cons_self
        unfold subscriptionOf childrenOf Table.getD withFamilies
        rw [hfamily]
      have hrest' : enterAll o is ((d.withFamilies F).enter (d.subscriptionOf o i)) =
          (enterAll o is (d.enter (d.subscriptionOf o i))).mapState (withFamilies F) :=
        ih (d := d.enter (d.subscriptionOf o i)) hrest
      rw [enterAll_cons_of_free hi, enterAll_cons_of_free hi', hsub, hrest']
      rfl

theorem register_withFamilies (o : Owner) {is : List Interest}
    (h : ∀ i ∈ is, F.get? i.event = d.families.get? i.event) :
    (d.withFamilies F).register o is = (d.register o is).mapState (withFamilies F) := by
  unfold register
  cases is.findSome? Interest.defect? with
  | some e => rfl
  | none =>
    dsimp only
    rw [enterAll_withFamilies o h]
    unfold Logged.mapState withFamilies
    dsimp only
    split <;> rfl

/-- **A type is declared alike when it has a family on both or on neither.** -/
theorem declare_withFamilies {p : EventType} (cs : List EventType)
    (h : F.get? p = d.families.get? p) :
    (d.withFamilies F).declare p cs =
      (d.declare p cs).mapState (withFamilies
        (if (d.declare p cs).value = .ok () then F.insert p (Upcast.allTo p cs) else F)) := by
  have hcontains : F.contains p = d.families.contains p := congrArg Option.isSome h
  unfold declare withFamilies
  dsimp only
  rw [hcontains]
  cases d.families.contains p with
  | true => rfl
  | false => cases badChild? p [] cs <;> rfl

end Directory

variable {ε : Type}

namespace Bus

/-! ## Buses with other families -/

/-- The bus with other families. -/
def withFamilies (F : Table EventType (List Upcast)) (b : Bus ε) : Bus ε :=
  { b with directory := b.directory.withFamilies F }

variable (F : Table EventType (List Upcast)) (b : Bus ε)

/-- A post ends alike: a census does not ask for families. -/
theorem finish_withFamilies (t : EventType) (ending : Ending) :
    (b.withFamilies F).finish t ending = (b.finish t ending).mapState (withFamilies F) := by
  rw [finish_eq, finish_eq]
  rfl

theorem opened_withFamilies : (b.withFamilies F).opened = b.opened.withFamilies F := by
  have hrefresh := congrArg Logged.state (b.directory.refresh_withFamilies F)
  exact congrArg (fun d => { b with directory := d, backlog := b.backlog.refresh.state }) hrefresh

theorem openingLog_withFamilies : (b.withFamilies F).openingLog = b.openingLog := by
  have hrefresh := congrArg Logged.log (b.directory.refresh_withFamilies F)
  exact congrArg (· ++ b.backlog.refresh.log) hrefresh

theorem register_withFamilies (o : Owner) {interests : List Interest}
    (h : ∀ i ∈ interests, F.get? i.event = b.directory.families.get? i.event) :
    (b.withFamilies F).register o interests =
      (b.register o interests).mapState (withFamilies F) := by
  have hd : (b.withFamilies F).directory.register o interests =
      (b.directory.register o interests).mapState (Directory.withFamilies F) :=
    Directory.register_withFamilies o h
  unfold register
  dsimp only
  rw [hd]
  dsimp only [Logged.mapState]
  split <;> rfl

theorem unregister_withFamilies (o : Owner) :
    (b.withFamilies F).unregister o = (b.unregister o).mapState (withFamilies F) := by
  have hd : (b.withFamilies F).directory.unregister o.id =
      ((b.directory.unregister o.id).1.withFamilies F, (b.directory.unregister o.id).2) :=
    b.directory.unregister_withFamilies F o.id
  unfold unregister
  rw [hd]
  rfl

theorem hasSubscribers_withFamilies (t : EventType) :
    (b.withFamilies F).hasSubscribers t = (b.hasSubscribers t).mapState (withFamilies F) := by
  have hd : (b.withFamilies F).directory.hasSubscribers t =
      (b.directory.hasSubscribers t).mapState (Directory.withFamilies F) :=
    b.directory.hasSubscribers_withFamilies F t
  unfold hasSubscribers
  rw [hd]
  rfl

/-- **A type is declared alike on a bus where it has a family just when it has one on the other.** -/
theorem declare_withFamilies {b : Bus ε} {p : EventType} (cs : List EventType)
    (h : F.get? p = b.directory.families.get? p) :
    (b.withFamilies F).declare p cs = (b.declare p cs).mapState (withFamilies
      (if (b.declare p cs).value = .ok () then F.insert p (Upcast.allTo p cs) else F)) := by
  have hd : (b.withFamilies F).directory.declare p cs = _ := Directory.declare_withFamilies cs h
  unfold declare
  rw [hd]
  rfl

/-- What is refused changes nothing. -/
theorem state_declare_of_error {b : Bus ε} {p : EventType} {cs : List EventType} {e : DeclareError}
    (h : (b.declare p cs).value = .error e) : (b.declare p cs).state = b :=
  congrArg (fun d => { b with directory := d }) (Directory.state_declare_of_error h)

/-- What stands changes the families alone. -/
theorem state_declare_of_ok {b : Bus ε} {p : EventType} {cs : List EventType}
    (h : (b.declare p cs).value = .ok ()) :
    (b.declare p cs).state =
      b.withFamilies (b.directory.families.insert p (Upcast.allTo p cs)) :=
  congrArg (fun d => { b with directory := d }) (Directory.state_declare_of_ok h)

theorem poll_withFamilies (mailbox : Nat) :
    (b.withFamilies F).poll mailbox = ((b.poll mailbox).1.withFamilies F, (b.poll mailbox).2) := by
  unfold poll withFamilies
  dsimp only
  split <;> rfl

variable [EventValue ε]

/-! ## Posts -/

theorem deliver_withFamilies (e : ε) (l : List Route) :
    (b.withFamilies F).deliver e l = (b.deliver e l).mapState (withFamilies F) := by
  induction l with
  | nil => exact b.finish_withFamilies F (typeOf e) .completed
  | cons r rest ih =>
    rw [deliver_cons, deliver_cons]
    split
    · exact ih
    · rfl
    · split
      · rfl
      · exact ih

theorem visit_withFamilies (e : ε) (ahead : List Route) (size : Nat) (l : List OneShot) :
    (b.withFamilies F).visit e ahead size l =
      (b.visit e ahead size l).mapState (withFamilies F) := by
  induction l generalizing b with
  | nil => exact (b.settle (typeOf e) size []).deliver_withFamilies F e ahead
  | cons s rest ih =>
    rw [visit_cons, visit_cons]
    split
    · cases s.task with
      | once c => rfl
      | untilDone c => rfl
      | deliver mailbox =>
        unfold fill
        cases EventValue.copy e with
        | ok copy => exact ih { b with mailboxes := b.mailboxes.set mailbox (.full copy) }
        | error p =>
          exact congrArg (Logged.after · [.oneShotFaulted (typeOf e) (.panic p)])
            (ih { b with mailboxes := b.mailboxes.set mailbox .lost })
    · exact ih (b.requeue (typeOf e) [s])

theorem post_withFamilies (e : ε) (order : Arrangement Route) :
    (b.withFamilies F).post e order = (b.post e order).mapState (withFamilies F) := by
  have hopened := b.opened_withFamilies F
  have hlog := b.openingLog_withFamilies F
  have hahead : (b.withFamilies F).directory.routesTo (typeOf e) =
      b.directory.routesTo (typeOf e) := b.directory.routesTo_withFamilies F (typeOf e)
  have hbatch : (b.withFamilies F).opened.backlog.batch? (b.withFamilies F).backlog.refresh.value
      (typeOf e) = b.opened.backlog.batch? b.backlog.refresh.value (typeOf e) := by
    rw [hopened]
    rfl
  rcases (b.withFamilies F).post_cases e order with ⟨hnone, h⟩ | ⟨batch, hsome, h⟩ <;>
    rcases b.post_cases e order with ⟨hnone', h'⟩ | ⟨batch', hsome', h'⟩
  · rw [h, h', hopened, hlog, hahead, deliver_withFamilies]
    rfl
  · cases hnone.symm.trans (hbatch.trans hsome')
  · cases hnone'.symm.trans (hbatch.symm.trans hsome)
  · obtain rfl : batch = batch' := Option.some.inj (hsome.symm.trans (hbatch.trans hsome'))
    have hvisit := visit_withFamilies F
      { b.opened with backlog := b.opened.backlog.modify (typeOf e) Queue.detach } e
      (order.apply (b.directory.routesTo (typeOf e))) batch.length batch
    rw [h, h', hopened, hlog, hahead]
    exact congrArg (Logged.after · b.openingLog) hvisit

theorem resumeOneShot_withFamilies (e : ε) (ahead : List Route) (s : OneShot)
    (rest : List OneShot) (size : Nat) (o : Outcome) :
    (b.withFamilies F).resumeOneShot e ahead s rest size o =
      (b.resumeOneShot e ahead s rest size o).mapState (withFamilies F) := by
  have hlogged : ∀ (b : Bus ε) (log : List Record),
      ((b.withFamilies F).visit e ahead size rest).after log =
        ((b.visit e ahead size rest).after log).mapState (withFamilies F) := fun b log =>
    congrArg (Logged.after · log) (b.visit_withFamilies F e ahead size rest)
  unfold resumeOneShot resumeOneShotBy
  split
  · exact b.visit_withFamilies F e ahead size rest
  · exact (b.requeue (typeOf e) [s]).visit_withFamilies F e ahead size rest
  · next text _ =>
    exact congrArg (Logged.after · [.oneShotFaulted (typeOf e) (.error (.fatal text))])
      (finish_withFamilies F ((b.requeue (typeOf e) rest).settle (typeOf e) size []) (typeOf e)
        (.aborted ⟨OneShot.handlerName, typeOf e, text⟩))
  · exact hlogged b _

theorem resumeHandler_withFamilies (e : ε) (ahead : List Route) (r : Route) (o : Outcome) :
    (b.withFamilies F).resumeHandler e ahead r o =
      (b.resumeHandler e ahead r o).mapState (withFamilies F) := by
  unfold resumeHandler resumeHandlerBy
  split
  · exact b.deliver_withFamilies F e ahead
  · exact congrArg (Logged.after · _) (b.finish_withFamilies F (typeOf e) _)
  · exact congrArg (Logged.after · _) (b.deliver_withFamilies F e ahead)

theorem resume_withFamilies (o : Outcome) :
    (b.withFamilies F).resume o = (b.resume o).mapState (withFamilies F) := by
  have hrunning : (b.withFamilies F).running = b.running := rfl
  cases hb : b.running with
  | nil => rw [resume_of_idle hb, resume_of_idle (hrunning.trans hb)]; rfl
  | cons f outer =>
    unfold resume resumeBy
    rw [hrunning, hb]
    dsimp only
    split
    · exact resumeOneShot_withFamilies F { b with running := outer } f.event f.ahead _ _ _ o
    · exact resumeHandler_withFamilies F { b with running := outer } f.event f.ahead _ o

end Bus

/-! ## Commands -/

/-- Whether a command registers something for a type, or declares the type. -/
def Command.Concerns (p : EventType) : Command ε → Prop
  | .register _ interests => ∃ i ∈ interests, i.event = p
  | .declare q _ => q = p
  | _ => False

/-- Nothing founds a family but a declaration that is accepted. -/
theorem Command.declares_mem_deeds_iff {c : Command ε} {v : Reply ε} {q : EventType}
    {children : List EventType} :
    Deed.declares q children ∈ c.deeds v ↔ c = .declare q children ∧ v = .declared (.ok ()) := by
  constructor
  · intro h
    unfold Command.deeds at h
    split at h
    · simp at h
    · simp at h
    · obtain ⟨rfl, rfl⟩ := Deed.declares.inj (List.mem_singleton.1 h)
      exact ⟨rfl, rfl⟩
    · cases h
  · rintro ⟨rfl, rfl⟩
    exact List.mem_singleton_self _

namespace Bus

/-- `b'` is `b` with other families, and only that of `p` is another one. -/
def AlikeBut (p : EventType) (b b' : Bus ε) : Prop :=
  ∃ F, b' = b.withFamilies F ∧ ∀ q, q ≠ p → F.get? q = b.directory.families.get? q

/-- A declaration changes the family of its type and nothing else. -/
theorem alikeBut_declare (b : Bus ε) (p : EventType) (cs : List EventType) :
    AlikeBut p b (b.declare p cs).state := by
  cases hv : (b.declare p cs).value with
  | error e => exact ⟨b.directory.families, state_declare_of_error hv, fun _ _ => rfl⟩
  | ok => exact ⟨_, state_declare_of_ok hv, fun q hq => Table.get?_insert_of_ne _ _ hq.symm⟩

variable [EventValue ε] {p : EventType} {b b' : Bus ε}

theorem families_exec (b : Bus ε) {c : Command ε} (hc : ∀ q cs, c ≠ .declare q cs) :
    (b.exec c).state.directory.families = b.directory.families := by
  rw [directory_exec]
  cases c with
  | register o interests => exact b.directory.families_register o interests
  | unregister o => exact b.directory.families_unregister o.id
  | declare q cs => exact absurd rfl (hc q cs)
  | hasSubscribers t => exact b.directory.families_refresh
  | post e order => exact b.directory.families_refresh
  | once | onceOrMore | next | poll | resume => rfl

/-- **What is no declaration is done alike**, and the families stay as they are. -/
theorem AlikeBut.of_mapState {F : Table EventType (List Upcast)}
    (hF : ∀ q, q ≠ p → F.get? q = b.directory.families.get? q) {c : Command ε}
    (hc : ∀ q cs, c ≠ .declare q cs)
    (hexec : (b.withFamilies F).exec c = (b.exec c).mapState (withFamilies F)) :
    AlikeBut p (b.exec c).state ((b.withFamilies F).exec c).state ∧
      ((b.withFamilies F).exec c).value = (b.exec c).value ∧
      ((b.withFamilies F).exec c).log = (b.exec c).log := by
  rw [hexec]
  refine ⟨⟨F, rfl, ?_⟩, rfl, rfl⟩
  rwa [b.families_exec hc]

/-- **A command that is not about a type is done without its family.** -/
theorem AlikeBut.exec (h : AlikeBut p b b') {c : Command ε} (hc : ¬ c.Concerns p) :
    AlikeBut p (b.exec c).state (b'.exec c).state ∧ (b'.exec c).value = (b.exec c).value ∧
      (b'.exec c).log = (b.exec c).log := by
  obtain ⟨F, rfl, hF⟩ := h
  by_cases hdeclares : ∃ q cs, c = .declare q cs
  · obtain ⟨q, cs, rfl⟩ := hdeclares
    have hexec : (b.withFamilies F).exec (.declare q cs) =
        (b.exec (.declare q cs)).mapState (withFamilies
          (if (b.declare q cs).value = .ok () then F.insert q (Upcast.allTo q cs) else F)) :=
      congrArg (Logged.map Reply.declared) (declare_withFamilies F cs (hF q hc))
    rw [hexec]
    refine ⟨⟨_, rfl, fun q' hq' => ?_⟩, rfl, rfl⟩
    change _ = (b.directory.declare q cs).state.families.get? q'
    rw [Directory.get?_families_declare, ← hF q' hq']
    have hvalue : (b.declare q cs).value = (b.directory.declare q cs).value := rfl
    by_cases hok : (b.directory.declare q cs).value = .ok ()
    · simp only [hvalue, hok, if_true, and_true, Table.get?_insert]
    · simp only [hvalue, hok, if_false, and_false]
  · refine of_mapState hF (fun q cs hq => hdeclares ⟨q, cs, hq⟩) ?_
    cases c with
    | declare q cs => exact absurd ⟨q, cs, rfl⟩ hdeclares
    | register o interests =>
      have hregister := b.register_withFamilies F o fun i (hi : i ∈ interests) =>
        hF i.event fun hp => hc ⟨i, hi, hp⟩
      exact congrArg (Logged.map Reply.registered) hregister
    | unregister o =>
      exact congrArg (Logged.map fun _ => Reply.nothing) (b.unregister_withFamilies F o)
    | poll mailbox =>
      have hpoll := b.poll_withFamilies F mailbox
      exact congrArg (fun r => Logged.mk r.1 (Reply.polled r.2) []) hpoll
    | hasSubscribers t =>
      exact congrArg (Logged.map Reply.subscribers) (b.hasSubscribers_withFamilies F t)
    | post e order => exact congrArg (Logged.map Reply.progress) (b.post_withFamilies F e order)
    | resume o => exact congrArg (Logged.map Reply.progress) (b.resume_withFamilies F o)
    | once | onceOrMore | next => rfl

/-- **Two buses that differ in the family of a type stay in step** until it matters to a command. -/
theorem AlikeBut.run (h : AlikeBut p b b') {commands : List (Command ε)}
    (hc : ∀ c ∈ commands, ¬ c.Concerns p) :
    AlikeBut p (b.run commands).state (b'.run commands).state ∧
      (b'.run commands).value = (b.run commands).value ∧
      (b'.run commands).log = (b.run commands).log := by
  induction commands generalizing b b' with
  | nil => exact ⟨h, rfl, rfl⟩
  | cons c commands ih =>
    obtain ⟨hstate, hvalue, hlog⟩ := h.exec (hc c List.mem_cons_self)
    obtain ⟨hstate', hvalues, hlogs⟩ := ih hstate fun d hd => hc d (List.mem_cons_of_mem c hd)
    refine ⟨hstate', ?_, ?_⟩
    · rw [run_cons, run_cons, hvalue, hvalues]
    · rw [run_cons, run_cons, hlog, hlogs]

/-! ## The families are what was declared -/

theorem get?_families_exec (b : Bus ε) (c : Command ε) {q : EventType} {children : List EventType} :
    (b.exec c).state.directory.families.get? q = some (Upcast.allTo q children) ↔
      b.directory.families.get? q = some (Upcast.allTo q children) ∨
        Deed.declares q children ∈ c.deeds (b.exec c).value := by
  rw [Command.declares_mem_deeds_iff]
  by_cases hc : ∀ p cs, c ≠ .declare p cs
  · rw [b.families_exec hc]
    exact (or_iff_left fun h => hc q children h.1).symm
  · obtain ⟨p, cs, rfl⟩ : ∃ p cs, c = .declare p cs := by simpa using hc
    change (b.directory.declare p cs).state.families.get? q = _ ↔ _ ∨
      _ ∧ Reply.declared (b.directory.declare p cs).value = _
    rw [Directory.get?_families_declare, Reply.declared.injEq, Command.declare.injEq]
    by_cases hok : (b.directory.declare p cs).value = .ok ()
    · by_cases hp : p = q
      · subst hp
        have hnew := (Directory.value_declare_eq_ok_iff.1 hok).1
        have hnone := Option.not_isSome_iff_eq_none.1 (Bool.eq_false_iff.1 hnew)
        simp [hok, hnone, Upcast.allTo_inj]
      · simp [hp]
    · simp [hok]

/-- **After every run the families are the declarations that were accepted.** -/
theorem declares_mem_deeds_iff (config : Config) (commands : List (Command ε)) {q : EventType}
    {children : List EventType} :
    Deed.declares q children ∈ (new config : Bus ε).deeds commands ↔
      ((new config : Bus ε).run commands).state.directory.families.get? q =
        some (Upcast.allTo q children) := by
  induction commands using List.reverseRecOn with
  | nil => exact iff_of_false List.not_mem_nil fun h => nomatch h
  | append_singleton commands c ih =>
    rw [state_run_concat, get?_families_exec, ← ih, deeds, collect_concat, List.mem_append]
    rfl

/-- **What was declared stays declared**, with the same children, however the run goes on. -/
theorem get?_families_run_append (config : Config) {before : List (Command ε)} {q : EventType}
    {children : List EventType} (h : Deed.declares q children ∈ (new config : Bus ε).deeds before)
    (later : List (Command ε)) :
    ((new config : Bus ε).run (before ++ later)).state.directory.families.get? q =
      some (Upcast.allTo q children) := by
  rw [← declares_mem_deeds_iff, deeds, collect_append]
  exact List.mem_append_left _ h

/-- A type was declared when it has a family. -/
theorem contains_families_iff (config : Config) (commands : List (Command ε)) (p : EventType) :
    ((new config : Bus ε).run commands).state.directory.families.contains p = true ↔
      ∃ children, Deed.declares p children ∈ (new config : Bus ε).deeds commands := by
  rw [Table.contains, (reflects_run config commands).family, Option.isSome_map,
    Option.isSome_iff_exists]
  refine exists_congr fun children => ?_
  rw [declares_mem_deeds_iff, (reflects_run config commands).family]
  cases Deed.family? _ p <;> simp [Upcast.allTo_inj]

/-- The keys whose owner is removed by none of the commands. -/
def stayers (keys : Set Key) (commands : List (Command ε)) : Set Key :=
  {k ∈ keys | ∀ o, .unregister o ∈ commands → o.id ≠ k.owner}

omit [EventValue ε] in
theorem stayers_nil (keys : Set Key) : stayers keys ([] : List (Command ε)) = keys :=
  Set.ext fun _ => and_iff_left fun _ h => absurd h List.not_mem_nil

omit [EventValue ε] in
theorem stayers_cons (keys : Set Key) (c : Command ε) (commands : List (Command ε)) :
    stayers keys (c :: commands) = stayers (stayers keys [c]) commands := by
  ext k
  simp [stayers, and_assoc, or_imp, forall_and]

omit [EventValue ε] in
theorem stayers_unregister (keys : Set Key) (o : Owner) :
    stayers keys [(.unregister o : Command ε)] = {k ∈ keys | o.id ≠ k.owner} := by
  ext k
  simp [stayers]

omit [EventValue ε] in
/-- Nobody is removed by any other command. -/
theorem stayers_of_ne (keys : Set Key) {c : Command ε} (hc : ∀ o, c ≠ .unregister o) :
    stayers keys [c] = keys :=
  Set.ext fun _ => and_iff_left fun o h => absurd (List.mem_singleton.1 h).symm (hc o)

/-- **A command is done alike to directories that differ by a declaration**, unless it declares the
same type. -/
theorem declaredOn_exec {b b' : Bus ε} {p : EventType} {cs : List EventType} {kept : Set Key}
    (h : Directory.DeclaredOn p cs kept b.directory b'.directory) {c : Command ε}
    (hc : ∀ children, c ≠ .declare p children) :
    Directory.DeclaredOn p cs (stayers kept [c]) (b.exec c).state.directory
      (b'.exec c).state.directory := by
  have hsame := stayers_of_ne kept (c := c)
  rw [directory_exec, directory_exec]
  cases c with
  | unregister o =>
    rw [stayers_unregister]
    exact h.unregister o.id
  | register o interests =>
    rw [hsame nofun]
    exact h.register o interests
  | declare q children =>
    rw [hsame nofun]
    exact h.declare (fun hq => hc children (hq ▸ rfl)) children
  | hasSubscribers | post =>
    rw [hsame nofun]
    exact h.refresh
  | once | onceOrMore | next | poll | resume =>
    rw [hsame nofun]
    exact h

/-- **Two runs of the same commands, one of them after a declaration**, enter the same
subscriptions, but for those of the type that was declared. -/
theorem declaredOn_run {b b' : Bus ε} {p : EventType} {cs : List EventType} {kept : Set Key}
    (h : Directory.DeclaredOn p cs kept b.directory b'.directory) {commands : List (Command ε)}
    (hc : ∀ children, .declare p children ∉ commands) :
    Directory.DeclaredOn p cs (stayers kept commands) (b.run commands).state.directory
      (b'.run commands).state.directory := by
  induction commands generalizing b b' kept with
  | nil =>
    rw [stayers_nil]
    exact h
  | cons c commands ih =>
    have hfirst := declaredOn_exec h fun children hcd => hc children (hcd ▸ List.mem_cons_self)
    rw [stayers_cons]
    exact ih hfirst fun children hmem => hc children (List.mem_cons_of_mem c hmem)

/-! ## What a declaration changes -/

/-- **A post has the same agenda**, whatever the families are. -/
theorem AlikeBut.agenda (h : AlikeBut p b b') (e : ε) (order : Arrangement Route) :
    b'.agenda e order = b.agenda e order := by
  obtain ⟨F, rfl, -⟩ := h
  rw [Bus.agenda, Bus.agenda]
  exact congrArg (fun routes => recipientsOf e _ (order.apply routes))
    (b.directory.routesTo_withFamilies F (typeOf e))

/-- What is live keeps the children that it has for as long as its owner stays. -/
theorem AlikeBut.find?_run (h : AlikeBut p b b') {commands : List (Command ε)} {k : Key}
    (hk : k ∈ stayers b.directory.liveKeys commands) :
    (b'.run commands).state.directory.find? k = b.directory.find? k := by
  obtain ⟨hlive, hstays⟩ := hk
  obtain ⟨s, hs⟩ := Option.isSome_iff_exists.1 hlive
  obtain ⟨F, rfl, -⟩ := h
  have hs' : (b.withFamilies F).directory.find? k = some s := hs
  rw [find?_run_of_live hs' hstays, hs]

/-- **Children are declared once, for whoever comes later.**  After any run, a declaration stands
just when none for its type has stood before and the list repeats no type, the parent counted in.
Otherwise the error is that the type is declared already, if it is, whatever the list; and else the
first bad child decides, be it the parent or one of those before it.

What is refused changes nothing.  What stands changes the family of the type and no other part of
the bus: not the indices, the cached routes, the one-shots or the running posts, so a post has the
same agenda as before it.  The family is there after every later run, also an empty one.  A run that
neither registers for the type nor declares it is answered as if nothing had been declared.  What
is live is live with what it was until its owner is removed; and after any run in which the type is
not declared again, what was entered since is what it would have been, with the children in place if
it is for the type. -/
theorem declared_once_for_later (config : Config) (before : List (Command ε)) (p : EventType)
    (cs : List EventType) :
    let b := ((new config : Bus ε).run before).state
    let past := (new config : Bus ε).deeds before
    let r := b.declare p cs
    (r.value = .ok () ↔ (∀ children, .declares p children ∉ past) ∧ p ∉ cs ∧ cs.Nodup) ∧
      (∀ e, r.value = .error e ↔
        (∃ children, .declares p children ∈ past) ∧ e = .alreadyDeclared p ∨
          (∀ children, .declares p children ∉ past) ∧ e.FirstIn p cs) ∧
      (∀ e, r.value = .error e → r.state = b) ∧
      (r.value = .ok () →
        r.state = b.withFamilies (b.directory.families.insert p (Upcast.allTo p cs))) ∧
      (∀ e order, r.state.agenda e order = b.agenda e order) ∧
      ∀ later,
        (∀ q children, .declares q children ∈ past ∨ r.value = .ok () ∧ q = p ∧ children = cs →
          (r.state.run later).state.directory.families.get? q =
            some (Upcast.allTo q children)) ∧
        ((∀ c ∈ later, ¬ c.Concerns p) →
          (r.state.run later).value = (b.run later).value ∧
            (r.state.run later).log = (b.run later).log ∧
            ∃ F, (r.state.run later).state = (b.run later).state.withFamilies F) ∧
        (∀ k ∈ stayers b.directory.liveKeys later,
          (r.state.run later).state.directory.find? k = b.directory.find? k) ∧
        (r.value = .ok () → (∀ children, .declare p children ∉ later) →
          ∀ k ∉ stayers b.directory.liveKeys later,
            (r.state.run later).state.directory.find? k =
              ((b.run later).state.directory.find? k).map (.regrown p cs)) := by
  intro b past r
  have hdeclared : b.directory.families.contains p = true ↔
      ∃ children, Deed.declares p children ∈ past := contains_families_iff config before p
  have hnew : b.directory.families.contains p = false ↔
      ∀ children, Deed.declares p children ∉ past := by
    rw [← Bool.not_eq_true, hdeclared, not_exists]
  have halike : AlikeBut p b r.state := b.alikeBut_declare p cs
  refine ⟨?_, fun e => ?_, fun e => state_declare_of_error, state_declare_of_ok, halike.agenda,
    fun later => ⟨fun q children h => ?_, fun hc => ?_, fun k hk => halike.find?_run hk, ?_⟩⟩
  · rw [← hnew, ← List.nodup_cons]
    exact Directory.value_declare_eq_ok_iff
  · rw [← hnew, ← hdeclared]
    exact Directory.value_declare_eq_error_iff
  · have hrun : r.state.run later = ((new config : Bus ε).run (before ++ [.declare p cs])).state.run
        later := congrArg (Bus.run · later) (state_run_concat _ before (.declare p cs)).symm
    rw [hrun, ← state_run_append]
    refine get?_families_run_append config ?_ later
    rw [deeds, collect_concat, List.mem_append, Command.declares_mem_deeds_iff]
    rcases h with hpast | ⟨hv, rfl, rfl⟩
    · exact .inl hpast
    · exact .inr ⟨rfl, congrArg Reply.declared hv⟩
  · obtain ⟨⟨F, hF, -⟩, hvalue, hlog⟩ := halike.run hc
    exact ⟨hvalue, hlog, F, hF⟩
  · intro hv hc k hk
    exact (declaredOn_run (.of_declare hv) hc).entered hk

/-- A handler for items is live and despawns have a family, an empty one, when children of items are
declared.  Of a list with several bad children the first decides.  The handler does not get the
children; one that is registered afterwards does, and until then a spawn is posted as if nothing had
been declared. -/
theorem declared_once_for_later_of_tracker :
    let item := Showcase.Loot.Event.itemType
    let spawned := Showcase.Loot.Event.spawnedType
    let despawned := Showcase.Loot.Event.despawnedType
    let o : Owner := ⟨⟨0⟩, "tracker"⟩
    let before : List (Command Showcase.Loot.Event) :=
      [.register o [⟨item, "on_item", ⟨0⟩⟩], .declare despawned []]
    let b := ((new {} : Bus Showcase.Loot.Event).run before).state
    let r := b.declare item [spawned, despawned]
    let posting : List (Command Showcase.Loot.Event) := [.post (.spawned 1 0 0) .listed]
    let later : List (Command Showcase.Loot.Event) := [.register o [⟨item, "on_late", ⟨1⟩⟩]]
    (b.declare despawned [despawned]).value = .error (.alreadyDeclared despawned) ∧
      (b.declare item [spawned, item, spawned]).value = .error (.selfChild item) ∧
      (b.declare item [spawned, spawned, item]).value = .error (.duplicateChild item spawned) ∧
      r.value = .ok () ∧
      (r.state.run later).state.directory.families.get? despawned = some [] ∧
      (r.state.run posting).log = (b.run posting).log ∧
      (r.state.run later).state.directory.find? ⟨o.id, item, "on_item"⟩ =
        some ⟨o, item, "on_item", ⟨0⟩, []⟩ ∧
      (r.state.run later).state.directory.find? ⟨o.id, item, "on_late"⟩ =
        some ⟨o, item, "on_late", ⟨1⟩, [⟨spawned, item⟩, ⟨despawned, item⟩]⟩ := by
  intro item spawned despawned o before b r posting later
  obtain ⟨hok, -, -, -, -, hlater⟩ :=
    declared_once_for_later {} before item [spawned, despawned]
  obtain ⟨-, herror, -⟩ := declared_once_for_later {} before despawned [despawned]
  obtain ⟨-, herror', -⟩ := declared_once_for_later {} before item [spawned, item, spawned]
  obtain ⟨-, herror'', -⟩ := declared_once_for_later {} before item [spawned, spawned, item]
  have hnew : ∀ children, Deed.declares item children ∉ (new {} : Bus _).deeds before := by
    have hnone : b.directory.families.get? item = none := by decide
    intro children
    rw [declares_mem_deeds_iff, hnone]
    exact nofun
  have hempty : Deed.declares despawned [] ∈ (new {} : Bus _).deeds before := by decide
  have hr : r.value = .ok () := hok.2 ⟨hnew, by decide, by decide⟩
  obtain ⟨hfamily, -, hkept, hentered⟩ := hlater later
  obtain ⟨-, hposted, -, -⟩ := hlater posting
  refine ⟨(herror _).2 (.inl ⟨⟨[], hempty⟩, rfl⟩), (herror' _).2 (.inr ⟨hnew, ?_⟩),
    (herror'' _).2 (.inr ⟨hnew, ?_⟩), hr, hfamily despawned [] (.inl hempty), ?_, ?_, ?_⟩
  · exact ⟨[spawned], item, [spawned], rfl, by decide, .inl ⟨rfl, rfl⟩⟩
  · exact ⟨[spawned], spawned, [item], rfl, by decide, .inr ⟨by decide, rfl⟩⟩
  · refine (hposted fun c hc => ?_).2.1
    rw [List.mem_singleton.1 hc]
    exact id
  · rw [hkept _ ⟨Directory.mem_liveKeys.2 (by decide), by simp [later]⟩]
    decide
  · have hfree : (⟨o.id, item, "on_late"⟩ : Key) ∉ stayers b.directory.liveKeys later :=
      fun h => absurd (Directory.mem_liveKeys.1 h.1) (by decide)
    rw [hentered hr (by simp [later]) _ hfree]
    decide

end Bus

end PubSub
