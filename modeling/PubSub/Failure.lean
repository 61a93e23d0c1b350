import PubSub.EventType
import PubSub.Text.Quoted
import PubSub.Text.Braced

/-!
# Failure — what can go wrong, and what is said about it

A declaration is refused with a `RegisterError` or a `DeclareError`.  A handler fails with a
`HandlerError`, or it panics; a fatal error ends the post that called the handler, and the post
ends in a `FatalError`.  Each error has a message for people, a label for counting, and a form
that shows it as a value.  `FatalError.toHandlerError` lets a handler pass the end of a post that
it started on to the post that called it: the message of the inner error becomes the text of the
outer one, so nothing of it is lost on the way up.
-/

namespace PubSub

/-! ## Refused declarations -/

/-- Why a list of handlers is refused. -/
inductive RegisterError
  | emptyName (event : EventType)
  | primitiveEvent (handler : String) (event : EventType)
  deriving DecidableEq, Repr

namespace RegisterError

/-- The message for people. -/
def message : RegisterError → String
  | emptyName e => "handler for " ++ e.shortName ++ " has an empty name"
  | primitiveEvent h e =>
    "handler `" ++ h ++ "` cannot subscribe to primitive type " ++ e.shortName

/-- The label for counting. -/
def label : RegisterError → String
  | emptyName _ => "register_empty_handler_name"
  | primitiveEvent _ _ => "register_primitive_event"

/-- The error as a value. -/
def inspect : RegisterError → String
  | emptyName e => Text.braced "EmptyHandlerName" [("event", e.name)]
  | primitiveEvent h e =>
    Text.braced "PrimitiveEvent" [("handler", Text.quoted h), ("event", e.name)]

end RegisterError

/-- Why a declaration of child events is refused. -/
inductive DeclareError
  | alreadyDeclared (parent : EventType)
  | selfChild (parent : EventType)
  | duplicateChild (parent child : EventType)
  deriving DecidableEq, Repr

namespace DeclareError

/-- The message for people. -/
def message : DeclareError → String
  | alreadyDeclared p => "child events of " ++ p.shortName ++ " are already declared"
  | selfChild p => p.shortName ++ " cannot be declared as its own child"
  | duplicateChild p c => c.shortName ++ " is listed twice as a child of " ++ p.shortName

/-- The label for counting. -/
def label : DeclareError → String
  | alreadyDeclared _ => "hierarchy_already_declared"
  | selfChild _ => "hierarchy_self_child"
  | duplicateChild _ _ => "hierarchy_duplicate_child"

/-- The error as a value. -/
def inspect : DeclareError → String
  | alreadyDeclared p => Text.braced "AlreadyDeclared" [("parent", p.name)]
  | selfChild p => Text.braced "SelfChild" [("parent", p.name)]
  | duplicateChild p c => Text.braced "DuplicateChild" [("parent", p.name), ("child", c.name)]

end DeclareError

/-! ## Failing handlers -/

/-- How a handler fails: alone, or together with the post that called it. -/
inductive HandlerError
  | failed (error : String)
  | fatal (error : String)
  deriving DecidableEq, Repr

namespace HandlerError

/-- The message for people. -/
def message : HandlerError → String
  | failed e => "handler failed: " ++ e
  | fatal e => "fatal handler error: " ++ e

/-- The label for counting. -/
def label : HandlerError → String
  | failed _ => "handler_failed"
  | fatal _ => "handler_fatal"

/-- The error as a value. -/
def inspect : HandlerError → String
  | failed e => Text.braced "Failed" [("error", Text.quoted e)]
  | fatal e => Text.braced "Fatal" [("error", Text.quoted e)]

/-- Whether the error ends the post. -/
def isFatal : HandlerError → Bool
  | failed _ => false
  | fatal _ => true

end HandlerError

/-- What is left of a panic: its text, if it has one that can be read. -/
inductive Panic
  | text (message : String)
  | unreadable
  deriving DecidableEq, Repr

/-- What the log says of a panic. -/
def Panic.message : Panic → String
  | text m => m
  | unreadable => "unknown panic"

/-- How a call goes wrong. -/
inductive Fault
  | error (e : HandlerError)
  | panic (p : Panic)
  deriving DecidableEq, Repr

/-- How a call ends.  What is returned says whether a one-shot is done; a handler that stays
registered returns it to no effect. -/
inductive Outcome
  | returned (done : Bool)
  | faulted (fault : Fault)
  deriving DecidableEq, Repr

/-! ## Posts that end early -/

/-- A fatal error, with the handler that raised it and the type of the event it was called for. -/
structure FatalError where
  handler : String
  event : EventType
  error : String
  deriving DecidableEq, Repr

namespace FatalError

/-- The message for people. -/
def message (e : FatalError) : String :=
  "fatal error in `" ++ e.handler ++ "` while dispatching " ++ e.event.shortName ++ ": "
    ++ e.error

/-- The label for counting. -/
def label (_ : FatalError) : String := "dispatch_fatal"

/-- The error as a value. -/
def inspect (e : FatalError) : String :=
  Text.braced "FatalError"
    [("handler", Text.quoted e.handler), ("event", e.event.name), ("error", Text.quoted e.error)]

/-- The error a handler returns to pass this one on. -/
def toHandlerError (e : FatalError) : HandlerError := .fatal e.message

/-- The fatal errors that a text becomes on its way up, each handler passing on the error of the
one before it. -/
def passedOn (text : String) : List (String × EventType) → List FatalError
  | [] => []
  | (handler, event) :: rest =>
    let e : FatalError := ⟨handler, event, text⟩
    e :: passedOn e.message rest

end FatalError

/-! ## All of them -/

/-- Any error that a bus or a handler gives. -/
inductive Failure
  | register (e : RegisterError)
  | declare (e : DeclareError)
  | handler (e : HandlerError)
  | fatal (e : FatalError)
  deriving DecidableEq, Repr

namespace Failure

/-- The message for people. -/
def message : Failure → String
  | register e => e.message
  | declare e => e.message
  | handler e => e.message
  | fatal e => e.message

/-- The label for counting. -/
def label : Failure → String
  | register e => e.label
  | declare e => e.label
  | handler e => e.label
  | fatal e => e.label

/-- The error as a value. -/
def inspect : Failure → String
  | register e => e.inspect
  | declare e => e.inspect
  | handler e => e.inspect
  | fatal e => e.inspect

end Failure

/-- How a post ends: every route tried, cut short by a fatal error, or left by a panic. -/
inductive Ending
  | completed
  | aborted (error : FatalError)
  | unwound (panic : Panic)
  deriving DecidableEq, Repr

end PubSub
