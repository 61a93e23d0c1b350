import PubSub.Text.Braced

/-!
# Config — the settings of a bus
-/

namespace PubSub

/-- The settings of a bus, fixed when it is made. -/
structure Config where
  /-- Whether posts are counted. -/
  statistics : Bool := false
  /-- How many posts lie between two reports. -/
  statsInterval : Nat := 25000
  /-- A list of one-shots shorter than this is kept for the next ones once it is empty. -/
  recycleThreshold : Nat := 32
  deriving DecidableEq, Repr

namespace Config

instance : Inhabited Config := ⟨{}⟩

/-- The usual settings, with posts counted. -/
def counting : Config := { statistics := true }

/-- The posts between two reports: at least one. -/
def reportInterval (c : Config) : Nat := max c.statsInterval 1

theorem reportInterval_pos (c : Config) : 0 < c.reportInterval := by
  unfold reportInterval; omega

/-- The settings as a value. -/
def inspect (c : Config) : String :=
  Text.braced "BusConfig"
    [("statistics", toString c.statistics), ("stats_interval", toString c.statsInterval),
      ("recycle_threshold", toString c.recycleThreshold)]

end Config

end PubSub
