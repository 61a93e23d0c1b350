import PubSub.Proofs.Runs.Lockstep

/-!
# Proofs/Runs/Settings — what a bus is set to does not show

    history ──client──▸ command ──bus──▸ answer, view ──▸ history ──client──▸ …

A client is all the user code there is: it gives the next command, and what it gives may depend on
everything it was answered and on everything it could have asked for, save the settings, the
counters and the text a bus shows of itself.  Two new buses, however they are set, give every
client the same history.  What is kept for reuse, what is counted and how often it is reported is
seen by nobody but the reader of the reports.
-/

namespace PubSub

variable {ε : Type}

/-- A command that was given, what it was answered, and what could be asked of the bus then. -/
structure Moment (ε : Type) where
  command : Command ε
  reply : Reply ε
  view : View

/-- User code: what it does next, when this has happened. -/
abbrev Client (ε : Type) := List (Moment ε) → Command ε

namespace Bus

variable [EventValue ε]

/-- The bus after so many commands of a client; the answer is the history. -/
def attend (b : Bus ε) (client : Client ε) : Nat → Logged (Bus ε) (List (Moment ε))
  | 0 => ⟨b, [], []⟩
  | n + 1 =>
    let before := b.attend client n
    let c := client before.value
    let now := before.state.exec c
    ⟨now.state, before.value ++ [⟨c, now.value, now.state.view⟩], before.log ++ now.log⟩

/-- Reads everything but the reports. -/
def reportless : Reader := ⟨true, false⟩

theorem reads_reportless : reportless.reads = fun x => !x.isReport := by
  ext x
  cases x <;> rfl

/-- **A client is served alike by buses that are alike.** -/
theorem Alike.attend {r : Reader} {b b' : Bus ε} (h : Alike r b b') (client : Client ε) (n : Nat) :
    Logged.Agree r (Alike r) (b.attend client n) (b'.attend client n) := by
  induction n with
  | zero => exact ⟨h, rfl, rfl⟩
  | succ n ih =>
    have hnow := ih.state.exec (client (b.attend client n).value)
    unfold Bus.attend
    dsimp only
    rw [← ih.value]
    refine ⟨hnow.state, ?_, hnow.log_append ih.log⟩
    dsimp only
    rw [hnow.value, hnow.state.view]

/-- **Settings do not influence dispatch.**  Whether posts are counted, how often they are reported
and when a list of one-shots is kept for reuse makes no difference to any client: every call, every
result and every answer is the same at every moment, and so is the log but for the reports. -/
theorem settings_unobservable (config config' : Config) (client : Client ε) (n : Nat) :
    let served := (new config : Bus ε).attend client n
    let served' := (new config' : Bus ε).attend client n
    served.value = served'.value ∧
      served.log.filter (!·.isReport) = served'.log.filter (!·.isReport) := by
  intro served served'
  have hnew : Alike reportless (new config : Bus ε) (new config') :=
    alike_new fun hr => absurd hr Bool.false_ne_true
  have hserved : Logged.Agree reportless (Alike reportless) served served' := hnew.attend client n
  refine ⟨hserved.value, ?_⟩
  rw [← reads_reportless]
  exact hserved.log

end Bus

end PubSub
