import PubSub.Text.Quoted
import PubSub.Text.Braced

/-!
# Owner — who registers handlers

An owner has a number, given in the order owners are made, and a name for people.  Its number is
its identity: handlers are kept and removed by it alone.
-/

namespace PubSub

/-- The identity of an owner. -/
structure OwnerId where
  number : Nat
  deriving DecidableEq, Repr

namespace OwnerId

/-- The number, marked as that of an owner. -/
def label (i : OwnerId) : String := "owner-" ++ toString i.number

/-- The identity as a value. -/
def inspect (i : OwnerId) : String := "OwnerId(" ++ toString i.number ++ ")"

end OwnerId

/-- One who registers handlers. -/
structure Owner where
  id : OwnerId
  name : String
  deriving DecidableEq, Repr

namespace Owner

/-- The owner as the log shows it: two owners may share a name, no two share this. -/
def label (o : Owner) : String := o.name ++ "#" ++ toString o.id.number

/-- The owner as a value. -/
def inspect (o : Owner) : String :=
  Text.braced "Owner" [("id", toString o.id.number), ("name", Text.quoted o.name)]

/-- Whether two owners are the same one. -/
def same (o p : Owner) : Bool := o.id = p.id

end Owner

end PubSub
