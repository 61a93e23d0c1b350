import PubSub.Proofs.Runs.Ledger
import PubSub.Proofs.Runs.Log

/-!
# Proofs/Runs/Reports — what a report says, and when

    returned     t₁ … tₙ │ … t₂ₙ │ … t₃ₙ │ …        n = interval
    reports             r₁       r₂       r₃          rₖ: k·n posts, their types, the census then

A report is made when a post returns and the posts that have returned fill an interval.  It is about
all of them, whichever posts were nested in which, and about the directory as that post leaves it.
-/

namespace PubSub

/-! ## Rankings -/

namespace Report

theorem before_trans (a b c : EventType × Nat) (hab : before a b = true) (hbc : before b c = true) :
    before a c = true := by
  simp only [before, Bool.or_eq_true, Bool.and_eq_true, decide_eq_true_eq] at hab hbc ⊢
  rcases hab with hab | ⟨hab, hname⟩
  · rcases hbc with hbc | ⟨hbc, -⟩
    · exact .inl (hbc.trans hab)
    · exact .inl (hbc ▸ hab)
  · rcases hbc with hbc | ⟨hbc, hname'⟩
    · exact .inl (hab ▸ hbc)
    · exact .inr ⟨hab.trans hbc, String.le_trans hname hname'⟩

theorem before_total (a b : EventType × Nat) : (before a b || before b a) = true := by
  simp only [before, Bool.or_eq_true, Bool.and_eq_true, decide_eq_true_eq]
  rcases Nat.lt_trichotomy a.2 b.2 with h | h | h
  · exact .inr (.inl h)
  · rcases String.le_total a.1.shortName b.1.shortName with hname | hname
    · exact .inl (.inr ⟨h, hname⟩)
    · exact .inr (.inr ⟨h.symm, hname⟩)
  · exact .inl (.inl h)

theorem le_of_before {a b : EventType × Nat} (h : before a b = true) : b.2 ≤ a.2 := by
  simp only [before, Bool.or_eq_true, Bool.and_eq_true, decide_eq_true_eq] at h
  rcases h with h | ⟨h, -⟩
  · exact h.le
  · exact h.ge

/-- A report is right about the posts that have returned: it counts them all, in all and by type,
each type once and the larger counts first. -/
structure TellsOf (r : Report) (returned : List EventType) : Prop where
  posts : r.posts = returned.length
  types : (r.perType.map Prod.fst).Nodup
  counts : ∀ t m, (t, m) ∈ r.perType ↔ t ∈ returned ∧ m = returned.count t
  falling : r.perType.Pairwise fun x y => y.2 ≤ x.2
  sum : (r.perType.map Prod.snd).sum = r.posts

end Report

/-- **The larger counts come first.** -/
theorem Counts.ranking_falling (c : Counts) : c.ranking.Pairwise fun x y => y.2 ≤ x.2 :=
  (List.pairwise_mergeSort Report.before_trans Report.before_total _).imp Report.le_of_before

/-- **A tally reports what it shows.** -/
theorem Tally.Shows.tellsOf {t : Tally} {n : Nat} {l : List EventType} (h : t.Shows n l)
    (census : Census) : (t.report census).TellsOf l where
  posts := h.posts
  types := (t.counts.ranking_perm.map Prod.fst).nodup_iff.2 t.counts.perType.nodup
  counts e m := by
    have hentry := t.counts.ranking_perm.mem_iff (a := (e, m))
    rw [Table.mem_entries_iff, h.perType, Option.ite_none_right_eq_some, Option.some.injEq] at hentry
    exact hentry.trans (and_congr_right fun _ => eq_comm)
  falling := t.counts.ranking_falling
  sum := ((t.counts.ranking_perm.map Prod.snd).sum_eq).trans (h.sum.trans h.posts.symm)

/-- The report that a record is, if it is one. -/
def Record.report? : Record → Option Report
  | .statistics r => some r
  | _ => none

/-- Reports are what is filtered out as such. -/
theorem Record.filterMap_report?_filter (log : List Record) :
    (log.filter Record.isReport).filterMap Record.report? = log.filterMap Record.report? := by
  rw [List.filterMap_filter]
  refine List.filterMap_congr fun x _ => ?_
  cases x <;> rfl

/-- What stands in a list with one more at its end is that one, or stood there before. -/
theorem getElem?_concat_eq_some {α : Type} {l : List α} {a x : α} {k : Nat}
    (h : (l ++ [a])[k]? = some x) : l[k]? = some x ∨ k = l.length ∧ x = a := by
  rcases Nat.lt_or_ge k l.length with hlt | hge
  · exact .inl (List.getElem?_append_left hlt ▸ h)
  · rw [List.getElem?_append_right hge, List.getElem?_singleton, Option.ite_none_right_eq_some] at h
    exact .inr ⟨by omega, (Option.some.inj h.2).symm⟩

variable {ε : Type}

/-! ## What a command reports -/

namespace Bus

/-- The report that is due says what the tally comes to. -/
theorem filterMap_report?_due {b : Bus ε} {tally : Tally} {n : Nat} {l : List EventType}
    (hb : b.tally = some tally) (h : tally.Shows n l) (t : EventType) :
    (b.due t).filterMap Record.report? =
      if n ∣ l.length + 1 then [(tally.count t).1.report b.census] else [] := by
  unfold due
  rw [hb]
  dsimp only
  rw [Tally.due_count, h.interval, h.posts]
  by_cases hn : n ∣ l.length + 1
  · rw [if_pos hn, if_pos (decide_eq_true hn)]
    rfl
  · rw [if_neg hn, if_neg (by simpa using hn)]
    rfl

end Bus

namespace Ledger

variable [EventValue ε] {n : Nat} {b : Bus ε}

/-- What a step comes to, the posts that have returned being those of types `before` and then of types
`after`: no post returns and nothing is reported, or a post returns, and if it fills an interval the
tally is reported with the census that the step leaves. -/
inductive Reporting (n : Nat) (before after : List EventType) {α : Type}
    (r : Logged (Bus ε) α) : Prop
  | quiet (returned : after = before) (reports : r.log.filterMap Record.report? = [])
  | counted (t : EventType) (tally : Tally) (returned : after = before ++ [t])
      (tally_eq : r.state.tally = some tally) (shows : tally.Shows n after)
      (reports : r.log.filterMap Record.report? =
        if n ∣ after.length then [tally.report r.state.census] else [])

/-- **What a step of the innermost post reports.** -/
theorem reporting_close {e : ε} {outer : List (Frame ε)} {agenda : List Recipient}
    {xs : List (Receipt ε)} {r : Logged (Bus ε) (Progress ε)} {l : Ledger}
    (hrests : Bus.Rests e outer agenda xs r) (hbooks : b.Books (typeOf e) r)
    (hunder : l.underway = typeOf e :: outer.map fun f => typeOf f.event)
    (htally : ∃ tally, b.tally = some tally ∧ tally.Shows n l.returned)
    (hcensus : r.state.census = b.census) :
    Reporting n l.returned (l.close r.value).returned r := by
  obtain ⟨underway, returned⟩ := l
  obtain rfl : underway = _ := hunder
  obtain ⟨tally, hb, hshows⟩ := htally
  obtain ⟨hafter, hlog⟩ := hbooks
  have hreports := Record.filterMap_report?_filter r.log
  rw [hlog] at hreports
  cases hrests with
  | waits f call hv hr he hc hh ho =>
    rw [hv] at hreports ⊢
    exact .quiet rfl hreports.symm
  | ended ending hv hr he =>
    rw [hv, Progress.returns] at hafter hreports
    rw [hv, close_finished]
    cases hret : ending.returns with
    | false =>
      rw [hret] at hreports
      exact .quiet rfl hreports.symm
    | true =>
      rw [hret, if_pos rfl, Bus.filterMap_report?_due hb hshows] at hreports
      rw [hret, if_pos rfl] at hafter
      refine .counted (typeOf e) (tally.count (typeOf e)).1 rfl ?_ (hshows.count _) ?_
      · rw [hafter, Bus.counted, hb]
        rfl
      · rw [← hreports, hcensus]
        simp

omit [EventValue ε] in
theorem Reporting.map {before after : List EventType} {α β : Type} {r : Logged (Bus ε) α}
    (h : Reporting n before after r) (f : α → β) : Reporting n before after (r.map f) := by
  cases h with
  | quiet hreturned hreports => exact .quiet hreturned hreports
  | counted t tally hreturned htally hshows hreports =>
    exact .counted t tally hreturned htally hshows hreports

end Ledger

namespace Bus

variable [EventValue ε] {b : Bus ε}

/-- A census does not ask whether routes were cached. -/
theorem census_post (b : Bus ε) (e : ε) (order : Arrangement Route) :
    (b.post e order).state.census = b.census :=
  (congrArg (·.2.1.census) (b.standing_post e order)).trans b.census_opened

theorem census_resume (b : Bus ε) (o : Outcome) : (b.resume o).state.census = b.census :=
  congrArg (·.2.1.census) (b.standing_resume o)

end Bus

namespace Ledger

variable [EventValue ε] {n : Nat} {b : Bus ε}

/-- **What a command reports.** -/
theorem Keeps.reporting {l : Ledger} (h : l.Keeps n b) (c : Command ε) :
    Reporting n l.returned (l.note c (b.exec c).value).returned (b.exec c) := by
  rcases quiet_exec b c with ⟨-, -, hlog, hnote⟩ | ⟨e, order, rfl⟩ | ⟨o, rfl⟩
  · refine .quiet (congrArg returned (hnote l)) ?_
    rw [← Record.filterMap_report?_filter, hlog, List.filterMap_nil]
  · have hunder : (l.begin (.post e order)).underway =
        typeOf e :: b.running.map fun f => typeOf f.event :=
      congrArg (typeOf e :: ·) h.underway.symm
    exact (reporting_close (b.rests_post e order rfl) (b.books_post e order) hunder h.tally
      (b.census_post e order)).map Reply.progress
  · cases hb : b.running with
    | nil =>
      have hidle : b.exec (.resume o) = ⟨b, .progress .idle, []⟩ :=
        congrArg (Logged.map Reply.progress) (Bus.resume_of_idle hb o)
      rw [hidle]
      exact .quiet rfl rfl
    | cons f outer =>
      have hunder := h.underway
      rw [hb] at hunder
      exact (reporting_close (Bus.rests_resume hb o) (b.books_resume hb o) hunder.symm h.tally
        (b.census_resume o)).map Reply.progress

/-- **A command and its answer at the end are noted last.** -/
theorem noteAll_concat (l : Ledger) {commands : List (Command ε)} {replies : List (Reply ε)}
    (h : commands.length = replies.length) (c : Command ε) (reply : Reply ε) :
    l.noteAll (commands ++ [c]) (replies ++ [reply]) =
      (l.noteAll commands replies).note c reply := by
  induction commands generalizing l replies with
  | nil =>
    obtain rfl : replies = [] := List.length_eq_zero_iff.1 h.symm
    rfl
  | cons d commands ih =>
    obtain ⟨reply', replies, rfl⟩ := List.exists_cons_of_length_eq_add_one h.symm
    exact ih _ (Nat.succ.inj h)

end Ledger

namespace Bus

variable [EventValue ε]

/-! ## Runs -/

theorem length_value_run (b : Bus ε) (commands : List (Command ε)) :
    (b.run commands).value.length = commands.length := by
  induction commands generalizing b with
  | nil => rfl
  | cons c commands ih => exact congrArg (· + 1) (ih _)

/-- What is known of the posts of a run from its commands and their answers. -/
def ledger (b : Bus ε) (commands : List (Command ε)) : Ledger :=
  Ledger.empty.noteAll commands (b.run commands).value

/-- The types of the posts that have returned in a run, in the order in which they did. -/
def returned (b : Bus ε) (commands : List (Command ε)) : List EventType :=
  (b.ledger commands).returned

/-- The reports that were made in a run, oldest first. -/
def reports (b : Bus ε) (commands : List (Command ε)) : List Report :=
  (b.run commands).log.filterMap Record.report?

variable {b : Bus ε} {first commands : List (Command ε)} {c : Command ε}

theorem ledger_concat (b : Bus ε) (commands : List (Command ε)) (c : Command ε) :
    b.ledger (commands ++ [c]) =
      (b.ledger commands).note c ((b.run commands).state.exec c).value := by
  rw [ledger, value_run_append]
  exact Ledger.empty.noteAll_concat (b.length_value_run commands).symm c _

theorem reports_concat (b : Bus ε) (commands : List (Command ε)) (c : Command ε) :
    b.reports (commands ++ [c]) =
      b.reports commands ++ ((b.run commands).state.exec c).log.filterMap Record.report? := by
  rw [reports, log_run_concat, List.filterMap_append]
  rfl

/-- **What a run reports with its last command.** -/
theorem reporting_run {config : Config} (hcounting : config.statistics = true)
    (commands : List (Command ε)) (c : Command ε) :
    Ledger.Reporting (max config.statsInterval 1) ((new config : Bus ε).returned commands)
      ((new config : Bus ε).returned (commands ++ [c]))
      (((new config : Bus ε).run commands).state.exec c) := by
  have hnew : Ledger.empty.Keeps config.reportInterval (new config : Bus ε) :=
    ⟨rfl, ⟨config.reportInterval, .zero⟩, if_pos hcounting, Tally.shows_nil _⟩
  rw [returned, returned, ledger_concat]
  exact (hnew.run commands).1.reporting c

/-- The report is made by `c` after `first`, as the `k`-th from zero: with `c` a post returns, the
last of `k + 1` intervals of `n`, and the report says what has returned by then and what the
directory is like. -/
structure MadeBy (b : Bus ε) (n k : Nat) (report : Report) (first : List (Command ε))
    (c : Command ε) : Prop where
  returned : ∃ t, b.returned (first ++ [c]) = b.returned first ++ [t]
  interval : (b.returned (first ++ [c])).length = (k + 1) * n
  earlier : (b.reports first).length = k
  reports : b.reports (first ++ [c]) = b.reports first ++ [report]
  posts : report.posts = (k + 1) * n
  tellsOf : report.TellsOf (b.returned (first ++ [c]))
  perType : ∃ counts, (b.run (first ++ [c])).state.statistics = some counts ∧
    report.perType.Perm counts.perType.entries
  census : report.census = (b.run (first ++ [c])).state.census
  tells : report.census.Tells (b.deeds (first ++ [c]))

/-- **A report that is made with the last command of a run.** -/
theorem madeBy_of_counted {config : Config} {n k : Nat} {t : EventType} {tally : Tally}
    (hreturned : (new config : Bus ε).returned (first ++ [c]) =
      (new config : Bus ε).returned first ++ [t])
    (htally : ((new config : Bus ε).run (first ++ [c])).state.tally = some tally)
    (hshows : tally.Shows n ((new config : Bus ε).returned (first ++ [c])))
    (hinterval : ((new config : Bus ε).returned (first ++ [c])).length = (k + 1) * n)
    (hearlier : ((new config : Bus ε).reports first).length = k)
    (hreports : (new config : Bus ε).reports (first ++ [c]) =
      (new config : Bus ε).reports first ++
        [tally.report ((new config : Bus ε).run (first ++ [c])).state.census]) :
    (new config : Bus ε).MadeBy n k
      (tally.report ((new config : Bus ε).run (first ++ [c])).state.census) first c where
  returned := ⟨t, hreturned⟩
  interval := hinterval
  earlier := hearlier
  reports := hreports
  posts := hshows.posts.trans hinterval
  tellsOf := hshows.tellsOf _
  perType := ⟨tally.counts, by rw [statistics, htally]; rfl, tally.counts.ranking_perm⟩
  census := rfl
  tells := (Reachable.coherent ⟨config, first ++ [c], rfl⟩).tells (reflects_run config _)

/-- Every full interval of a run has its report. -/
structure OnTime (b : Bus ε) (n : Nat) (commands : List (Command ε)) : Prop where
  length : (b.reports commands).length = (b.returned commands).length / n
  made : ∀ {k report}, (b.reports commands)[k]? = some report →
    ∃ first c rest, commands = first ++ c :: rest ∧ b.MadeBy n k report first c

theorem onTime_nil (b : Bus ε) (n : Nat) : b.OnTime n [] :=
  ⟨(Nat.zero_div n).symm, fun h => nomatch h⟩

namespace OnTime

variable {n : Nat}

/-- What was made is made in a longer run. -/
theorem made_concat (h : b.OnTime n commands) (c : Command ε) {k : Nat} {report : Report}
    (hk : (b.reports commands)[k]? = some report) :
    ∃ first d rest, commands ++ [c] = first ++ d :: rest ∧ b.MadeBy n k report first d := by
  obtain ⟨first, d, rest, rfl, hd⟩ := h.made hk
  exact ⟨first, d, rest ++ [c], by rw [List.append_assoc, List.cons_append], hd⟩

/-- A command that fills no interval and reports nothing. -/
theorem concat_of_eq (h : b.OnTime n commands)
    (hreports : b.reports (commands ++ [c]) = b.reports commands)
    (hlength : (b.returned (commands ++ [c])).length / n = (b.returned commands).length / n) :
    b.OnTime n (commands ++ [c]) where
  length := by rw [hreports, hlength, h.length]
  made hk := h.made_concat c (hreports ▸ hk)

/-- A command that makes the next report. -/
theorem concat_of_madeBy (h : b.OnTime n commands) (hpos : 0 < n) {report : Report}
    (hmade : b.MadeBy n (b.reports commands).length report commands c) :
    b.OnTime n (commands ++ [c]) where
  length := by
    rw [hmade.reports, hmade.interval, Nat.mul_div_cancel _ hpos, List.length_append,
      List.length_singleton]
  made hk := by
    rw [hmade.reports] at hk
    rcases getElem?_concat_eq_some hk with hk | ⟨rfl, rfl⟩
    · exact h.made_concat c hk
    · exact ⟨commands, c, [], rfl, hmade⟩

end OnTime

/-- **A run that counts its posts reports on time.** -/
theorem onTime_run {config : Config} (hcounting : config.statistics = true)
    (commands : List (Command ε)) :
    (new config : Bus ε).OnTime (max config.statsInterval 1) commands := by
  induction commands using List.reverseRecOn with
  | nil => exact onTime_nil _ _
  | append_singleton commands c ih =>
    have hreports := (new config : Bus ε).reports_concat commands c
    cases reporting_run hcounting commands c with
    | quiet hreturned hnone =>
      rw [hnone, List.append_nil] at hreports
      exact ih.concat_of_eq hreports (by rw [hreturned])
    | counted t tally hreturned htally hshows hmade =>
      have hcount := congrArg List.length hreturned
      rw [List.length_append, List.length_singleton] at hcount
      rw [hmade, hcount] at hreports
      by_cases hn : max config.statsInterval 1 ∣ ((new config : Bus ε).returned commands).length + 1
      · rw [if_pos hn, ← state_run_concat] at hreports
        rw [← state_run_concat] at htally
        refine ih.concat_of_madeBy config.reportInterval_pos
          (madeBy_of_counted hreturned htally hshows ?_ rfl hreports)
        rw [hcount, ih.length, ← Nat.succ_div_of_dvd hn, Nat.div_mul_cancel hn]
      · rw [if_neg hn, List.append_nil] at hreports
        refine ih.concat_of_eq hreports ?_
        rw [hcount, Nat.succ_div_of_not_dvd hn]

/-- **Reports are made on time, and say what there is.**  Let posts be counted.  At every moment of a
run there has been one report for every full interval of posts that have returned, completed or
aborted.  Each was made when the post returned that filled its interval, whichever posts that one
was nested in or had nested in it.  It gives the number of posts that have returned by then; every
type of them once, with its count, the larger counts first, which is the counters of that moment in
another order; and the owners, subscriptions and types that are there when the post is over, with
all that its callbacks have changed. -/
theorem reports_account (config : Config) (hcounting : config.statistics = true)
    (commands : List (Command ε)) :
    let bus : Bus ε := new config
    let n := max config.statsInterval 1
    (bus.reports commands).length = (bus.returned commands).length / n ∧
      ∀ k report, (bus.reports commands)[k]? = some report →
        ∃ first c rest, commands = first ++ c :: rest ∧ bus.MadeBy n k report first c := by
  have hontime := onTime_run (ε := ε) hcounting commands
  exact ⟨hontime.length, fun k report hk => hontime.made hk⟩

/-- While an item is posted a second tracker comes and a spawn is posted: the spawn returns first, and
the item fills the interval.  The report has both posts and both trackers. -/
theorem reports_account_of_nested :
    let item := Showcase.Loot.Event.itemType
    let spawned := Showcase.Loot.Event.spawnedType
    let config : Config := { statistics := true, statsInterval := 2 }
    let bus : Bus Showcase.Loot.Event := new config
    let commands : List (Command Showcase.Loot.Event) :=
      [.register ⟨⟨0⟩, "tracker"⟩ [⟨item, "on_item", ⟨0⟩⟩], .post (.item 1) .listed,
        .register ⟨⟨1⟩, "other"⟩ [⟨spawned, "on_spawn", ⟨1⟩⟩, ⟨item, "on_item", ⟨2⟩⟩],
        .post (.spawned 1 0 0) .listed, .resume (.returned true), .resume (.returned true)]
    config.statistics = true ∧ bus.returned commands = [spawned, item] ∧
      ∃ report, bus.reports commands = [report] ∧ report.posts = 2 ∧
        report.TellsOf [spawned, item] ∧ report.census = ⟨2, 3, 2⟩ := by
  intro item spawned config bus commands
  have hreturned : bus.returned commands = [spawned, item] := by decide
  obtain ⟨hlength, hmade⟩ := reports_account (ε := Showcase.Loot.Event) config rfl commands
  have hone : (bus.reports commands).length = 1 := by
    rw [hlength, hreturned]
    decide
  obtain ⟨report, hreport⟩ := List.length_eq_one_iff.1 hone
  obtain ⟨first, c, rest, hsplit, hby⟩ := hmade 0 report (by rw [hreport]; rfl)
  -- no shorter run fills the interval, so that the report is made with the last command
  have hshort : ∀ k ≤ 5, (bus.returned (commands.take k)).length ≠ 2 := by decide
  have htake : commands.take (first.length + 1) = first ++ [c] := by
    rw [hsplit, List.append_cons]
    exact List.take_left' List.length_append
  have hall : first ++ [c] = commands := by
    rw [← htake]
    refine List.take_of_length_le (not_lt.1 fun hlt => hshort _ (Nat.le_of_lt_succ hlt) ?_)
    rw [htake]
    exact hby.interval
  refine ⟨rfl, hreturned, report, hreport, hby.posts, ?_, ?_⟩
  · rw [← hreturned, ← hall]
    exact hby.tellsOf
  · rw [hby.census, hall]
    decide

end Bus

end PubSub
