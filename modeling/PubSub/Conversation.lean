import PubSub.Post

/-!
# Conversation — a whole post, with somebody to answer its calls

`converse` takes a post from its first call to its end: it asks for the outcome of each call and
hands it to `resume`.  Whoever answers may use the bus in between, so what is carried along is any
state that holds the bus.  `Bus.postWith` is the plain case: the answers depend on a state of
their own and leave the bus alone.
-/

namespace PubSub

variable {ε : Type} {σ : Type}

/-- Answers up to `calls` calls of a post and says how it ended. -/
def converse (answer : Call ε → σ → σ × Outcome) (resume : Outcome → σ → σ × Progress ε) :
    Nat → Progress ε → σ → σ × Ending
  | _, .finished ending, s => (s, ending)
  | calls + 1, .calling call, s =>
    let answered := answer call s
    let resumed := resume answered.2 answered.1
    converse answer resume calls resumed.2 resumed.1
  | 0, .calling _, s | _, .idle, s => (s, .completed)

/-- A state beside a bus, and what the bus has logged. -/
structure Attended (ε σ : Type) where
  bus : Bus ε
  state : σ
  log : List Record

namespace Bus

variable [EventValue ε]

/-- Posts an event, its calls being answered by `answer`, which does not use the bus. -/
def postWith (b : Bus ε) (e : ε) (order : Arrangement Route) (answer : Call ε → σ → σ × Outcome)
    (s : σ) : Attended ε σ × Ending :=
  let begun := b.post e order
  converse
    (fun call a =>
      let r := answer call a.state
      ({ a with state := r.1 }, r.2))
    (fun o a =>
      let r := a.bus.resume o
      (⟨r.state, a.state, a.log ++ r.log⟩, r.value))
    begun.state.callsLeft begun.value ⟨begun.state, s, begun.log⟩

end Bus

end PubSub
