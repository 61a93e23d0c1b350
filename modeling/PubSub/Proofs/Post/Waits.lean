import PubSub.Proofs.OneShots.History
import PubSub.Proofs.Post.Turns

/-!
# Proofs/Post/Waits — a running post waits for just one call

    post, resume ──▸ new?     a frame with a call that was made for it
                     outer    as it lay

A post that stops lies on the stack with the call that it made, and nobody else puts frames there.
So whenever a call ends there is a post it belongs to, and a handler has a receipt only of an event
that it was called with.
-/

namespace PubSub

variable {ε : Type} [EventValue ε]

/-- **The call for a handler is a call of its route.** -/
theorem Recipient.call?_handler {r : Route} {e : ε} {call : Call ε}
    (h : (Recipient.handler r).call? e = some call) : ∃ seen, call = .handler r seen := by
  rw [Recipient.call?] at h
  split at h
  · next seen _ => exact ⟨seen, (Option.some.inj (Option.ite_none_right_eq_some.1 h).2).symm⟩
  · cases h

/-- Only a handler is called as a handler. -/
theorem Recipient.eq_handler_of_call? {x : Recipient} {e seen : ε} {r : Route}
    (h : x.call? e = some (.handler r seen)) : x = .handler r := by
  cases x with
  | handler r' =>
    obtain ⟨seen', he⟩ := Recipient.call?_handler h
    rw [(Call.handler.inj he).1]
  | oneShot s =>
    rw [Recipient.call?] at h
    split at h
    · split at h <;> cases h
    · cases h

namespace Bus

/-- Every running post waits for a call. -/
def Waits (b : Bus ε) : Prop := ∀ f ∈ b.running, ∃ call, f.call? = some call

theorem waits_new (c : Config) : (new c : Bus ε).Waits := fun _ hf => absurd hf List.not_mem_nil

variable {b : Bus ε}

/-- **Where a step rests, the innermost post waits for the call that it made.** -/
theorem Rests.waits_state {e : ε} {outer : List (Frame ε)} {agenda : List Recipient}
    {xs : List (Receipt ε)} {r : Logged (Bus ε) (Progress ε)} (h : Rests e outer agenda xs r)
    (houter : ∀ f ∈ outer, ∃ call, f.call? = some call) : r.state.Waits := by
  intro g hg
  cases h with
  | ended ending hv hr he => exact houter g (hr ▸ hg)
  | waits f call hv hr he hc hh ho =>
    rw [hr] at hg
    rcases List.mem_cons.1 hg with rfl | hg
    · exact ⟨call, by rw [Frame.call?, he, hc]⟩
    · exact houter g hg

theorem Waits.exec (h : b.Waits) (c : Command ε) : (b.exec c).state.Waits := by
  rcases b.running_exec c with hrunning | ⟨e, order, rfl⟩ | ⟨o, rfl⟩
  · exact fun f hf => h f (hrunning ▸ hf)
  · exact (b.rests_post e order rfl).waits_state h
  · cases hb : b.running with
    | nil =>
      rw [Bus.exec_resume, Logged.state_map, resume_of_idle hb]
      exact h
    | cons f outer =>
      exact (rests_resume hb o).waits_state fun g hg => h g (hb ▸ List.mem_cons_of_mem f hg)

/-- **In every reachable state every running post waits for a call.** -/
theorem Reachable.waits (h : b.Reachable) : b.Waits :=
  h.induction (P := Waits) waits_new fun _ c hb => hb.exec c

/-- **A handler that has a receipt was called.** -/
theorem Waits.call?_of_mem_receipts (h : b.Waits) {c : Command ε} {x : Receipt ε}
    (hx : x ∈ b.receipts c) {r : Route} (hr : x.recipient = .handler r) :
    ∃ seen, x.call? = some (.handler r seen) := by
  have hpassed : ∀ {e : ε} {l : List OneShot}, x ∉ passed e l := by
    intro e l hx
    obtain ⟨s, -, rfl⟩ := List.mem_map.1 hx
    cases hr
  rcases b.receipts_cases c with hnil | ⟨e, hall⟩ | ⟨f, hf, o, hall⟩
  · rw [hnil] at hx
    exact absurd hx List.not_mem_nil
  · rw [hall] at hx
    exact absurd hx hpassed
  · rcases Frame.mem_receipts (hall ▸ hx) with rfl | hx
    · obtain ⟨call, hcall⟩ := h f hf
      have hcurrent : f.current = .handler r := hr
      rw [Frame.call?, hcurrent] at hcall
      obtain ⟨seen, rfl⟩ := Recipient.call?_handler hcall
      exact ⟨seen, by rw [Receipt.call?, hcurrent, hcall]⟩
    · exact absurd hx hpassed

/-- **A handler that a post is done with was called by it.** -/
theorem Waits.call?_of_mem_turnsFrom (commands : List (Command ε)) {b : Bus ε} (h : b.Waits)
    {depth : Nat} {x : Receipt ε} (hx : x ∈ (b.turnsFrom depth commands).flatMap (·.receipts))
    {r : Route} (hr : x.recipient = .handler r) : ∃ seen, x.call? = some (.handler r seen) := by
  induction commands generalizing b with
  | nil => exact absurd hx List.not_mem_nil
  | cons c rest ih =>
    rw [turnsFrom] at hx
    split at hx
    · exact absurd hx List.not_mem_nil
    · split at hx
      · rcases List.mem_append.1 (List.flatMap_cons ▸ hx) with hx | hx
        · exact h.call?_of_mem_receipts hx hr
        · exact ih (h.exec c) hx
      · exact ih (h.exec c) hx

theorem Waits.call?_of_mem_turns (h : b.Waits) {e : ε} {order : Arrangement Route}
    {commands : List (Command ε)} {x : Receipt ε}
    (hx : x ∈ (b.turns e order commands).flatMap (·.receipts)) {r : Route}
    (hr : x.recipient = .handler r) : ∃ seen, x.call? = some (.handler r seen) := by
  rw [turns, List.flatMap_cons] at hx
  rcases List.mem_append.1 hx with hx | hx
  · exact h.call?_of_mem_receipts (c := .post e order) hx hr
  · exact Waits.call?_of_mem_turnsFrom commands (h.exec (.post e order)) hx hr

end Bus

end PubSub
