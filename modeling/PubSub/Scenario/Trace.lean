import PubSub.Bus
import PubSub.Scenario.Value

/-!
# Scenario/Trace — what a scenario shows

Every action is answered, and beside the answer stands what could be watched while it was taken:
the records of the log that the reader asked for, and the calls of scripts.  A call is shown with
the results of its own actions, so a trace is a tree.  The handlers of one post run in no
particular order; a trace shows their calls by number, in the places that they take together.
-/

namespace PubSub.Scenario

/-- The answer to an action. -/
inductive Answer
  | nothing
  | flag (b : Bool)
  | number (n : Nat)
  | accepted
  | notRegistered (error : RegisterError)
  | notDeclared (error : DeclareError)
  | owner (o : Owner)
  | comparison (same : Bool) (order : Ordering) (distinct : Nat)
  | interests (list : List Interest)
  | posted (completed : Nat) (ending : Ending)
  | census (c : Census)
  | statistics (counts : Option Counts) (ofType : Option Nat)
  | configuration (c : Config)
  | shown (line lines : String)
  | received (p : Poll Value)
  /-- The action uses a name that stands for nothing. -/
  | unknownName
  deriving DecidableEq

/-- How the last post ended, if the answer is that to a post. -/
def Answer.ending? : Answer → Option Ending
  | posted _ e => some e
  | _ => none

/-- Who calls a script. -/
inductive Caller
  | handler | oneShot
  deriving DecidableEq, Repr

mutual

/-- Something that could be watched. -/
inductive Item
  | record (r : Record)
  /-- The call of a script that comes after `count` others, with what it did and with what the
  bus logged about its end. -/
  | call (caller : Caller) (name : String) (number count : Nat) (seen : View)
      (actions : List Result) (log : Option Record)

/-- An answer with what could be watched meanwhile. -/
inductive Result
  | mk (answer : Answer) (trace : List Item)

end

/-- The answer of a result. -/
def Result.answer : Result → Answer | mk a _ => a

/-- What could be watched before the answer. -/
def Result.trace : Result → List Item | mk _ t => t

/-- How the last of the posts among some actions ended. -/
def lastEnding (rs : List Result) : Option Ending :=
  rs.reverse.findSome? (·.answer.ending?)

namespace Item

/-- The number and count of the call of a handler. -/
def handlerCall? : Item → Option (Nat × Nat)
  | call .handler _ number count .. => some (number, count)
  | _ => none

/-- Whether the call of a handler is shown before another. -/
def before (a b : Item) : Bool :=
  match a.handlerCall?, b.handlerCall? with
  | some (i, m), some (j, n) => i < j || (i = j && m ≤ n)
  | _, _ => true

/-- Puts the calls of handlers from `sorted` into the places of those in a trace. -/
def refill : List Item → List Item → List Item
  | [], _ => []
  | i :: rest, sorted =>
    if i.handlerCall?.isSome then
      match sorted with
      | s :: sorted => s :: refill rest sorted
      | [] => i :: refill rest []
    else i :: refill rest sorted

/-- The trace of one post, the calls of its handlers by number. -/
def arrange (items : List Item) : List Item :=
  refill items ((items.filter (·.handlerCall?.isSome)).mergeSort before)

/-- Adds a record to a trace: one about the end of a handler's call belongs to the call. -/
def note (items : List Item) (r : Record) : List Item :=
  match r, items.getLast? with
  | .handlerFaulted .., some (call caller name number count seen actions _) =>
    items.dropLast ++ [call caller name number count seen actions (some r)]
  | _, _ => items ++ [record r]

end Item

end PubSub.Scenario
