import Mathlib.Algebra.GroupWithZero.Nat
import PubSub.Proofs.Post.Stack
import PubSub.Showcase.Loot

/-!
# Proofs/Runs/Ledger — the tally is kept as the posts return

    commands and answers ──▸ ledger   posts under way, posts that have returned
                               │
                               ▼
                             tally    how many, how many of each type, how often reported

A ledger is kept by somebody who sees nothing of a bus but what it is told and what it answers.
Posts nest, so the answer that a post is over is about the innermost one that is under way.  A post
that was completed or aborted has returned; one that was left by a panic has not.  The tally of a
bus is at every moment what the posts in the ledger of returned ones come to, and it has reported
once for every full interval of them.
-/

namespace PubSub

/-! ## What posts come to -/

namespace Table

variable {κ : Type} [DecidableEq κ]

/-- What a table of numbers sums to when a number is written to it. -/
theorem sum_put (k : κ) (n : Nat) (l : List (κ × Nat)) :
    ((put k n l).map Prod.snd).sum + (find k l).getD 0 = (l.map Prod.snd).sum + n := by
  induction l with
  | nil => simp [put, find]
  | cons p l ih =>
    by_cases hk : p.1 = k
    · simp only [put, find, if_pos hk, List.map_cons, List.sum_cons, Option.getD_some]
      omega
    · simp only [put, find, if_neg hk, List.map_cons, List.sum_cons]
      omega

theorem sum_values_insert (t : Table κ Nat) (k : κ) (n : Nat) :
    (t.insert k n).values.sum + t.getD k 0 = t.values.sum + n := sum_put k n t.entries

end Table

namespace Tally

/-- What a tally shows after posts of the types in `l`, `n` being the interval. -/
structure Shows (t : Tally) (n : Nat) (l : List EventType) : Prop where
  interval : t.interval = n
  posts : t.counts.posts = l.length
  perType : ∀ e, t.counts.perType.get? e = if e ∈ l then some (l.count e) else none
  sum : t.counts.perType.values.sum = l.length
  reports : t.counts.reports = l.length / n

theorem shows_nil (n : Nat) : Shows ⟨n, .zero⟩ n [] where
  interval := rfl
  posts := rfl
  perType _ := rfl
  sum := rfl
  reports := (Nat.zero_div n).symm

/-- The count of a type is that of the posts. -/
theorem Shows.count_eq {t : Tally} {n : Nat} {l : List EventType} (h : t.Shows n l)
    (e : EventType) : t.counts.count e = l.count e := by
  rw [Counts.count, Table.getD, h.perType]
  split
  · rfl
  · next he => exact (List.count_eq_zero.2 he).symm

/-- **A report is due when the posts fill an interval.** -/
theorem Shows.due {t : Tally} {n : Nat} {l : List EventType} (h : t.Shows n l) (e : EventType) :
    (t.count e).2.toNat + l.length / n = (l.length + 1) / n := by
  rw [due_count, h.interval, h.posts, Nat.succ_div]
  by_cases hd : n ∣ l.length + 1
  · rw [if_pos hd, decide_eq_true hd, Bool.toNat_true, Nat.add_comm]
  · rw [if_neg hd, decide_eq_false hd, Bool.toNat_false, Nat.zero_add, Nat.add_zero]

/-- **One more post.** -/
theorem Shows.count {t : Tally} {n : Nat} {l : List EventType} (h : t.Shows n l) (e : EventType) :
    (t.count e).1.Shows n (l ++ [e]) where
  interval := (interval_count t e).trans h.interval
  posts := by rw [posts_count, h.posts, List.length_append, List.length_singleton]
  perType e' := by
    rw [perType_count, Table.get?_insert, h.count_eq, h.perType, List.count_append]
    by_cases he : e = e'
    · subst he
      simp
    · have he' : e' ≠ e := Ne.symm he
      simp [he, he']
  sum := by
    have hsum := Table.sum_values_insert t.counts.perType e (t.counts.count e + 1)
    rw [perType_count, List.length_append, List.length_singleton]
    change _ + t.counts.count e = _ at hsum
    have hposts := h.sum
    omega
  reports := by
    rw [reports_count, h.reports, List.length_append, List.length_singleton, Nat.add_comm, h.due]

end Tally

/-! ## Where no report is made -/

namespace Directory

theorem filter_isReport_refresh (d : Directory) : d.refresh.log.filter Record.isReport = [] := by
  unfold refresh
  cases d.cached <;> rfl

theorem filter_isReport_enterAll (o : Owner) (is : List Interest) (d : Directory) :
    (enterAll o is d).log.filter Record.isReport = [] := by
  induction is generalizing d with
  | nil => rfl
  | cons i is ih =>
    unfold enterAll
    split
    · exact ih d
    · exact ih _

theorem filter_isReport_register (d : Directory) (o : Owner) (is : List Interest) :
    (d.register o is).log.filter Record.isReport = [] := by
  unfold register
  split
  · rfl
  · exact filter_isReport_enterAll o is d

theorem filter_isReport_declare (d : Directory) (p : EventType) (children : List EventType) :
    (d.declare p children).log.filter Record.isReport = [] := by
  unfold declare
  cases d.listings.contains p <;> cases d.families.contains p <;>
    cases badChild? p [] children <;> rfl

end Directory

theorem Backlog.filter_isReport_refresh (b : Backlog) :
    b.refresh.log.filter Record.isReport = [] := by
  unfold refresh
  cases b.cached <;> rfl

variable {ε : Type}

/-! ## What a step of a post does to the tally -/

/-- Whether a post has returned with this.  One that was left by a panic has not. -/
def Ending.returns : Ending → Bool
  | .completed | .aborted _ => true
  | .unwound _ => false

/-- Whether this is the return of a post. -/
def Progress.returns : Progress ε → Bool
  | .finished ending => ending.returns
  | _ => false

namespace Bus

/-- A step of a post of type `t` that begins on `b`: if the post returns it is counted and the
report is made that is due, and otherwise there is neither. -/
structure Books (b : Bus ε) (t : EventType) (r : Logged (Bus ε) (Progress ε)) : Prop where
  tally : r.state.tally = if r.value.returns then b.counted t else b.tally
  reports : r.log.filter Record.isReport = if r.value.returns then b.due t else []

theorem filter_isReport_due (b : Bus ε) (t : EventType) :
    (b.due t).filter Record.isReport = b.due t := by
  unfold due
  split
  · rfl
  · split <;> rfl

section Books

variable {b b' : Bus ε} {t : EventType} {r : Logged (Bus ε) (Progress ε)}

/-- The step may begin on any bus with the same tally and the same census. -/
theorem Books.congr (h : b'.Books t r) (htally : b'.tally = b.tally)
    (hcensus : b'.census = b.census) : b.Books t r := by
  obtain ⟨ht, hr⟩ := h
  rw [counted, htally] at ht
  rw [due, htally, hcensus] at hr
  exact ⟨ht, hr⟩

theorem Books.after (h : b.Books t r) {log : List Record} (hlog : log.filter Record.isReport = []) :
    b.Books t (r.after log) :=
  ⟨h.tally, by rw [Logged.log_after, List.filter_append, hlog, List.nil_append, h.reports]; rfl⟩

theorem books_finish (b : Bus ε) (t : EventType) {ending : Ending} (h : ending.returns = true) :
    b.Books t (b.finish t ending) := by
  rw [finish_eq]
  refine ⟨(if_pos h).symm, (filter_isReport_due b t).trans (if_pos h).symm⟩

theorem books_stop (b : Bus ε) (t : EventType) (f : Frame ε) (call : Call ε) :
    b.Books t (b.stop f call) := ⟨rfl, rfl⟩

variable [EventValue ε]

theorem books_deliver (b : Bus ε) (e : ε) (l : List Route) :
    b.Books (typeOf e) (b.deliver e l) := by
  rcases b.deliver_cases e l with ⟨-, h⟩ | ⟨r, rest, p, -, -, h⟩ | ⟨r, rest, call, -, -, h⟩
  · rw [h]
    exact b.books_finish _ rfl
  · rw [h]
    exact ⟨rfl, rfl⟩
  · rw [h]
    exact b.books_stop ..

theorem books_visit (b : Bus ε) (e : ε) (ahead : List Route) (size : Nat) (l : List OneShot) :
    b.Books (typeOf e) (b.visit e ahead size l) := by
  obtain ⟨backlog, boxes, -, h⟩ := b.visit_cases e ahead size l
  rcases h with ⟨-, h⟩ | ⟨s, rest, call, -, -, h⟩
  · rw [h]
    refine Books.after ?_ (filter_isReport_records _)
    exact Books.congr (books_deliver _ e ahead) rfl rfl
  · rw [h]
    refine Books.after ?_ (filter_isReport_records _)
    exact Books.congr (books_stop _ (typeOf e) _ call) rfl rfl

omit [EventValue ε] in
/-- Reading what is cached makes no report. -/
theorem filter_isReport_openingLog (b : Bus ε) : b.openingLog.filter Record.isReport = [] := by
  rw [openingLog, List.filter_append, Directory.filter_isReport_refresh,
    Backlog.filter_isReport_refresh, List.append_nil]

omit [EventValue ε] in
theorem census_opened (b : Bus ε) : b.opened.census = b.census := by
  unfold opened Directory.refresh
  cases b.directory.cached <;> rfl

/-- **A post that begins keeps the books.** -/
theorem books_post (b : Bus ε) (e : ε) (order : Arrangement Route) :
    b.Books (typeOf e) (b.post e order) := by
  rcases b.post_cases e order with ⟨-, h⟩ | ⟨batch, -, h⟩
  · rw [h]
    refine Books.after ?_ b.filter_isReport_openingLog
    exact Books.congr (books_deliver b.opened e _) rfl b.census_opened
  · rw [h]
    refine Books.after ?_ b.filter_isReport_openingLog
    exact Books.congr (books_visit _ e _ _ batch) rfl b.census_opened

theorem books_proceed (b : Bus ε) (f : Frame ε) : b.Books (typeOf f.event) (b.proceed f) := by
  unfold proceed
  split
  · exact books_visit ..
  · exact books_deliver ..

/-- **A post that goes on keeps the books.** -/
theorem books_resume {f : Frame ε} {outer : List (Frame ε)} (hb : b.running = f :: outer)
    (o : Outcome) : b.Books (typeOf f.event) (b.resume o) := by
  obtain ⟨b₁, ⟨text, -, hback, h⟩ | ⟨-, hback, h⟩⟩ := resume_cases hb o
  · have hcensus : b₁.census = b.census := congrArg (·.2.1.census) hback.standing
    rw [h]
    refine Books.after ?_ (filter_isReport_records _)
    exact Books.congr (books_finish b₁ _ rfl) hback.tally hcensus
  · have hcensus : b₁.census = b.census := congrArg (·.2.1.census) hback.standing
    rw [h]
    refine Books.after ?_ (filter_isReport_records _)
    exact Books.congr (books_proceed b₁ f) hback.tally hcensus

end Books

end Bus

/-! ## The ledger -/

/-- What can be known of posts from the commands and their answers. -/
structure Ledger where
  /-- The types of the posts that are under way, the innermost first. -/
  underway : List EventType
  /-- The types of the posts that have returned, in the order in which they did. -/
  returned : List EventType
  deriving DecidableEq, Repr

namespace Ledger

/-- The ledger before anything is posted. -/
def empty : Ledger := ⟨[], []⟩

/-- Notes how far the innermost post has come. -/
def close (l : Ledger) (p : Progress ε) : Ledger :=
  match p, l.underway with
  | .finished ending, t :: outer =>
    ⟨outer, if ending.returns then l.returned ++ [t] else l.returned⟩
  | _, _ => l

theorem close_finished (t : EventType) (outer returned : List EventType) (ending : Ending) :
    close ⟨t :: outer, returned⟩ (.finished ending : Progress ε) =
      ⟨outer, if ending.returns then returned ++ [t] else returned⟩ := rfl

variable [EventValue ε]

/-- Notes a command: a post gets under way. -/
def begin (l : Ledger) : Command ε → Ledger
  | .post e _ => { l with underway := typeOf e :: l.underway }
  | _ => l

/-- Notes a command and its answer. -/
def note (l : Ledger) (c : Command ε) : Reply ε → Ledger
  | .progress p => (l.begin c).close p
  | _ => l

/-- Notes commands and their answers, one after the other. -/
def noteAll (l : Ledger) : List (Command ε) → List (Reply ε) → Ledger
  | c :: commands, reply :: replies => (l.note c reply).noteAll commands replies
  | _, _ => l

/-- The ledger is right about a bus whose tally has an interval of `n`. -/
structure Keeps (l : Ledger) (n : Nat) (b : Bus ε) : Prop where
  underway : b.running.map (fun f => typeOf f.event) = l.underway
  tally : ∃ tally, b.tally = some tally ∧ tally.Shows n l.returned

/-- A step writes as many reports as the ledger has more full intervals after it. -/
def Reports (n : Nat) (before after : Ledger) (log : List Record) : Prop :=
  (log.filter Record.isReport).length + before.returned.length / n = after.returned.length / n

variable {n : Nat} {b : Bus ε}

omit [EventValue ε] in
theorem length_due {tally : Tally} (h : b.tally = some tally) (t : EventType) :
    (b.due t).length = (tally.count t).2.toNat := by
  unfold Bus.due
  rw [h]
  dsimp only
  cases (tally.count t).2 <;> rfl

/-- A command that neither begins a post nor goes on with one has no part in the ledger. -/
theorem quiet_exec (b : Bus ε) (c : Command ε) :
    ((b.exec c).state.running = b.running ∧ (b.exec c).state.tally = b.tally ∧
        (b.exec c).log.filter Record.isReport = [] ∧ ∀ l : Ledger, l.note c (b.exec c).value = l) ∨
      (∃ e order, c = .post e order) ∨ ∃ o, c = .resume o := by
  cases c with
  | post e order => exact .inr (.inl ⟨e, order, rfl⟩)
  | resume o => exact .inr (.inr ⟨o, rfl⟩)
  | register o interests =>
    have hstate := b.state_register o interests
    refine .inl ⟨congrArg (·.running) hstate, congrArg (·.tally) hstate, ?_, fun l => rfl⟩
    have hlog := b.directory.filter_isReport_register o interests
    change (b.register o interests).log.filter _ = []
    unfold Bus.register
    dsimp only
    split <;> rw [List.filter_append, hlog] <;> rfl
  | poll mailbox =>
    obtain ⟨boxes, hstate⟩ := b.state_poll mailbox
    exact .inl ⟨congrArg (·.running) hstate, congrArg (·.tally) hstate, rfl, fun l => rfl⟩
  | unregister o =>
    refine .inl ⟨rfl, rfl, ?_, fun l => rfl⟩
    change (b.unregister o).log.filter _ = []
    unfold Bus.unregister
    dsimp only
    split <;> rfl
  | declare parent children =>
    exact .inl ⟨rfl, rfl, b.directory.filter_isReport_declare parent children, fun l => rfl⟩
  | hasSubscribers t =>
    exact .inl ⟨rfl, rfl, b.directory.filter_isReport_refresh, fun l => rfl⟩
  | once | onceOrMore | next => exact .inl ⟨rfl, rfl, rfl, fun l => rfl⟩

/-- **A step of the innermost post is noted.** -/
theorem keeps_close {e : ε} {outer : List (Frame ε)} {agenda : List Recipient}
    {xs : List (Receipt ε)} {r : Logged (Bus ε) (Progress ε)} {l : Ledger}
    (hrests : Bus.Rests e outer agenda xs r) (hbooks : b.Books (typeOf e) r)
    (hunder : l.underway = typeOf e :: outer.map fun f => typeOf f.event)
    (htally : ∃ tally, b.tally = some tally ∧ tally.Shows n l.returned) :
    (l.close r.value).Keeps n r.state ∧ Reports n l (l.close r.value) r.log := by
  obtain ⟨underway, returned⟩ := l
  obtain rfl : underway = _ := hunder
  obtain ⟨tally, hb, hshows⟩ := htally
  obtain ⟨hafter, hlog⟩ := hbooks
  unfold Reports
  cases hrests with
  -- the post is still under way, as the innermost one
  | waits f call hv hr he hc hh ho =>
    rw [hv] at hafter hlog ⊢
    refine ⟨⟨?_, tally, hafter.trans hb, hshows⟩, ?_⟩
    · rw [hr, List.map_cons, he]
      rfl
    · rw [hlog]
      exact Nat.zero_add _
  | ended ending hv hr he =>
    rw [hv, Progress.returns] at hafter hlog
    rw [hv, close_finished]
    cases hret : ending.returns with
    -- a post that was left by a panic is off the stack, and in nobody's count
    | false =>
      rw [hret] at hafter hlog
      refine ⟨⟨congrArg _ hr, tally, hafter.trans hb, hshows⟩, ?_⟩
      rw [hlog]
      exact Nat.zero_add _
    | true =>
      rw [hret] at hafter hlog
      have hcounted : r.state.tally = some (tally.count (typeOf e)).1 :=
        hafter.trans (by rw [Bus.counted, hb]; rfl)
      refine ⟨⟨congrArg _ hr, _, hcounted, hshows.count _⟩, ?_⟩
      rw [hlog, if_pos rfl, if_pos rfl, length_due hb, List.length_append, List.length_singleton,
        hshows.due]

/-! ## Runs -/

/-- **A command is noted.** -/
theorem Keeps.exec {l : Ledger} (h : l.Keeps n b) (c : Command ε) :
    (l.note c (b.exec c).value).Keeps n (b.exec c).state ∧
      Reports n l (l.note c (b.exec c).value) (b.exec c).log := by
  rcases quiet_exec b c with ⟨hrunning, htally, hlog, hnote⟩ | ⟨e, order, rfl⟩ | ⟨o, rfl⟩
  · rw [hnote, Reports, hlog]
    exact ⟨⟨hrunning ▸ h.underway, htally ▸ h.tally⟩, Nat.zero_add _⟩
  · refine keeps_close (b.rests_post e order rfl) (b.books_post e order) ?_ h.tally
    exact congrArg (typeOf e :: ·) h.underway.symm
  · cases hb : b.running with
    | nil =>
      have hidle : b.exec (.resume o) = ⟨b, .progress .idle, []⟩ :=
        congrArg (Logged.map Reply.progress) (Bus.resume_of_idle hb o)
      rw [hidle]
      exact ⟨h, Nat.zero_add _⟩
    | cons f outer =>
      have hunder := h.underway
      rw [hb] at hunder
      exact keeps_close (Bus.rests_resume hb o) (b.books_resume hb o) hunder.symm h.tally

/-- **The ledger is right at every moment of a run**, and so are the reports in the log. -/
theorem Keeps.run {l : Ledger} (h : l.Keeps n b) (commands : List (Command ε)) :
    (l.noteAll commands (b.run commands).value).Keeps n (b.run commands).state ∧
      Reports n l (l.noteAll commands (b.run commands).value) (b.run commands).log := by
  induction commands generalizing l b with
  | nil => exact ⟨h, Nat.zero_add _⟩
  | cons c commands ih =>
    obtain ⟨hkeeps, hreports⟩ := h.exec c
    obtain ⟨hrest, hreports'⟩ := ih hkeeps
    refine ⟨hrest, ?_⟩
    unfold Reports at hreports hreports' ⊢
    rw [Bus.run_cons, List.filter_append, List.length_append]
    change _ = (((l.note c (b.exec c).value).noteAll commands _).returned.length / n)
    omega

end Ledger

namespace Bus

variable [EventValue ε]

/-- **The tally is an account of the posts that have returned.**  Let posts be counted, and let
`returned` be the types of those that a run has seen return, completed or aborted.  Then that many
posts are counted; every type is counted as often as a post of just that type has returned, and
types of which none has are not there; the counts of the types add up; and there has been one
report for every full interval, both by the count and by the log. -/
theorem statistics_account (config : Config) (hcounting : config.statistics = true)
    (commands : List (Command ε)) :
    let run := (new config : Bus ε).run commands
    let returned := (Ledger.empty.noteAll commands run.value).returned
    ∃ counts, run.state.statistics = some counts ∧
      counts.posts = returned.length ∧
      (∀ t, counts.perType.get? t = if t ∈ returned then some (returned.count t) else none) ∧
      counts.perType.values.sum = counts.posts ∧
      counts.reports = counts.posts / max config.statsInterval 1 ∧
      (run.log.filter Record.isReport).length = counts.reports := by
  intro run returned
  have hnew : Ledger.empty.Keeps config.reportInterval (new config : Bus ε) :=
    ⟨rfl, ⟨config.reportInterval, .zero⟩, if_pos hcounting, Tally.shows_nil _⟩
  obtain ⟨⟨-, tally, htally, hshows⟩, hreports⟩ := hnew.run commands
  refine ⟨tally.counts, congrArg _ htally, hshows.posts, hshows.perType, ?_, ?_, ?_⟩
  · rw [hshows.sum, hshows.posts]
  · rw [hshows.reports, hshows.posts]
    rfl
  · have hempty : Ledger.empty.returned.length / config.reportInterval = 0 := Nat.zero_div _
    rw [hshows.reports, ← hreports, hempty]
    rfl

/-- A spawn is posted while a post of an item is under way, a despawn is aborted, and the second
item is left by a panic of the code that sees it as a spawn: three posts have returned, and one
report was made after the first two. -/
theorem statistics_account_of_nested :
    let item := Showcase.Loot.Event.itemType
    let spawned := Showcase.Loot.Event.spawnedType
    let despawned := Showcase.Loot.Event.despawnedType
    let config : Config := { statistics := true, statsInterval := 2 }
    let commands : List (Command Showcase.Loot.Event) :=
      [.once item ⟨0⟩, .post (.item 1) .listed, .post (.spawned 1 0 0) .listed,
        .resume (.returned true), .onceOrMore despawned ⟨1⟩, .post (.despawned 1) .listed,
        .resume (.faulted (.error (.fatal "lost"))), .declare spawned [item],
        .register ⟨⟨0⟩, "tracker"⟩ [⟨spawned, "on_spawn", ⟨2⟩⟩], .post (.item 2) .listed]
    let run := (new config : Bus Showcase.Loot.Event).run commands
    let returned := (Ledger.empty.noteAll commands run.value).returned
    config.statistics = true ∧ returned = [spawned, item, despawned] ∧
      ∃ counts, run.state.statistics = some counts ∧
        counts.posts = returned.length ∧
        (∀ t, counts.perType.get? t = if t ∈ returned then some (returned.count t) else none) ∧
        counts.perType.values.sum = counts.posts ∧
        counts.reports = counts.posts / max config.statsInterval 1 ∧
        (run.log.filter Record.isReport).length = counts.reports := by
  intro item spawned despawned config commands run returned
  have hreturned : returned = [spawned, item, despawned] := by decide
  exact ⟨rfl, hreturned, statistics_account config rfl commands⟩

end Bus

end PubSub
