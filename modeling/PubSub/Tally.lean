import PubSub.EventType
import PubSub.Config
import PubSub.Table
import PubSub.Text.Braced

/-!
# Tally — counting posts

A tally counts finished posts, in all and by type, and reports after every `interval`-th one.  A
report lists the types by falling count.  Types that tie may stand in any order; here it is that of
their short names, one of those that are allowed, and nothing is said of reports that would not hold
of any other.
-/

namespace PubSub

/-- How many owners and subscriptions a bus has, and how many types of event reach one. -/
structure Census where
  owners : Nat
  subscriptions : Nat
  eventTypes : Nat
  deriving DecidableEq, Repr

/-- What a bus has seen so far, for its log. -/
structure Report where
  posts : Nat
  census : Census
  perType : List (EventType × Nat)
  deriving DecidableEq, Repr

namespace Report

/-- A type with its count, the count first. -/
def share (c : EventType × Nat) : String := toString c.2 ++ " " ++ c.1.shortName

/-- The report on one line: the totals, then after a semicolon the types with their counts. -/
def line (r : Report) : String :=
  "event bus statistics: " ++ toString r.posts ++ " posts, "
    ++ toString r.census.owners ++ " subscribed owners, "
    ++ toString r.census.subscriptions ++ " subscriptions, "
    ++ toString r.census.eventTypes ++ " event types"
    ++ if r.perType.isEmpty then "" else "; " ++ ", ".intercalate (r.perType.map share)

/-- The report as a value. -/
def inspect (r : Report) : String :=
  Text.braced "StatsReport"
    [("posts", toString r.posts), ("owners", toString r.census.owners),
      ("subscriptions", toString r.census.subscriptions),
      ("event_types", toString r.census.eventTypes),
      ("per_type", Text.bracketed (r.perType.map fun c => Text.paired c.1.name (toString c.2)))]

/-- Whether a count comes before another in a report: the larger one.  Of equals either might; it is
the one whose short name is first. -/
def before (a b : EventType × Nat) : Bool :=
  b.2 < a.2 || (a.2 = b.2 && a.1.shortName ≤ b.1.shortName)

end Report

/-- The number of posts in all and of each type, and of the reports made. -/
structure Counts where
  posts : Nat
  reports : Nat
  perType : Table EventType Nat
  deriving DecidableEq

namespace Counts

/-- Nothing counted. -/
def zero : Counts := ⟨0, 0, ∅⟩

instance : Inhabited Counts := ⟨zero⟩

/-- The posts of a type. -/
def count (c : Counts) (t : EventType) : Nat := c.perType.getD t 0

/-- One more post of a type. -/
def add (c : Counts) (t : EventType) : Counts :=
  { c with posts := c.posts + 1, perType := c.perType.insert t (c.count t + 1) }

@[simp] theorem posts_add (c : Counts) (t : EventType) : (c.add t).posts = c.posts + 1 := rfl

@[simp] theorem reports_add (c : Counts) (t : EventType) : (c.add t).reports = c.reports := rfl

/-- The counts by type, in an order that a report may have: see `Report.before`. -/
def ranking (c : Counts) : List (EventType × Nat) := c.perType.entries.mergeSort Report.before

/-- **A report lists every count once.** -/
theorem ranking_perm (c : Counts) : c.ranking.Perm c.perType.entries :=
  List.mergeSort_perm _ _

end Counts

/-- Counts that are reported after every `interval` posts. -/
structure Tally where
  interval : Nat
  counts : Counts
  deriving DecidableEq

namespace Tally

/-- The tally a new bus keeps, if it is to keep one. -/
def ofConfig? (c : Config) : Option Tally :=
  if c.statistics then some ⟨c.reportInterval, .zero⟩ else none

/-- Counts a finished post; `true` when a report is due. -/
def count (t : Tally) (e : EventType) : Tally × Bool :=
  let c := t.counts.add e
  if c.posts % t.interval = 0 then (⟨t.interval, { c with reports := c.reports + 1 }⟩, true)
  else (⟨t.interval, c⟩, false)

@[simp] theorem interval_count (t : Tally) (e : EventType) :
    (t.count e).1.interval = t.interval := by
  unfold count
  dsimp only
  split <;> rfl

@[simp] theorem posts_count (t : Tally) (e : EventType) :
    (t.count e).1.counts.posts = t.counts.posts + 1 := by
  unfold count
  dsimp only
  split <;> rfl

@[simp] theorem perType_count (t : Tally) (e : EventType) :
    (t.count e).1.counts.perType = t.counts.perType.insert e (t.counts.count e + 1) := by
  unfold count
  dsimp only
  split <;> rfl

/-- **A report is due when the interval divides the number of posts.** -/
theorem due_count (t : Tally) (e : EventType) :
    (t.count e).2 = decide (t.interval ∣ t.counts.posts + 1) := by
  unfold count
  dsimp only
  rw [Counts.posts_add]
  split
  · next h => exact (decide_eq_true (Nat.dvd_of_mod_eq_zero h)).symm
  · next h => exact (decide_eq_false fun hd => h (Nat.mod_eq_zero_of_dvd hd)).symm

theorem reports_count (t : Tally) (e : EventType) :
    (t.count e).1.counts.reports = t.counts.reports + (t.count e).2.toNat := by
  unfold count
  dsimp only
  split <;> rfl

/-- The report of a tally, with the census that was taken for it. -/
def report (t : Tally) (census : Census) : Report := ⟨t.counts.posts, census, t.counts.ranking⟩

end Tally

end PubSub
