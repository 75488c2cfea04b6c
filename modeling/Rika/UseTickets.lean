import Mathlib.Logic.Relation

/-! Tickets that are good for a number of uses, and are taken back for good. -/

inductive TicketPhase
  | unissued
  | live (remaining : Nat)
  | gone

structure Ticket where
  phase : TicketPhase
  uses : Nat

namespace Ticket

/-- What may happen to a ticket that is issued for `granted` uses. -/
inductive Step (granted : Nat) : Ticket → Ticket → Prop
  | keep (ticket) : Step granted ticket ticket
  | issue : Step granted ⟨.unissued, 0⟩ ⟨.live granted, 0⟩
  | use (remaining uses) : Step granted ⟨.live (remaining + 1), uses⟩ ⟨.live remaining, uses + 1⟩
  | useUp (uses) : Step granted ⟨.live 1, uses⟩ ⟨.gone, uses + 1⟩
  | remove (remaining uses) : Step granted ⟨.live remaining, uses⟩ ⟨.gone, uses⟩
  | void (uses) : Step granted ⟨.unissued, uses⟩ ⟨.gone, uses⟩

/-- The uses made of it, and those left, are within those granted. -/
def Bounded (granted : Nat) (ticket : Ticket) : Prop :=
  match ticket.phase with
  | .unissued => ticket.uses = 0
  | .live remaining => ticket.uses + remaining ≤ granted
  | .gone => ticket.uses ≤ granted

variable {granted : Nat} {ticket ticket' : Ticket}

theorem Bounded.uses_le (h : ticket.Bounded granted) : ticket.uses ≤ granted := by
  unfold Bounded at h
  split at h <;> omega

theorem Step.bounded (h : Step granted ticket ticket') (hticket : ticket.Bounded granted) : ticket'.Bounded granted := by
  cases h with
  | keep => exact hticket
  | issue => simp [Bounded]
  | use remaining uses =>
    simp only [Bounded] at hticket ⊢
    omega
  | useUp uses => exact hticket
  | remove remaining uses | void uses =>
    simp only [Bounded] at hticket ⊢
    omega

theorem Step.gone (h : Step granted ticket ticket') (hticket : ticket.phase = .gone) : ticket' = ticket := by
  cases h with
  | keep => rfl
  | issue | use | useUp | remove | void => cases hticket

theorem Run.bounded (h : Relation.ReflTransGen (Step granted) ticket ticket') (hticket : ticket.Bounded granted) :
    ticket'.Bounded granted := by
  induction h with
  | refl => exact hticket
  | tail _ hstep ih => exact hstep.bounded ih

theorem Run.gone (h : Relation.ReflTransGen (Step granted) ticket ticket') (hticket : ticket.phase = .gone) :
    ticket' = ticket := by
  induction h with
  | refl => rfl
  | tail _ hstep ih => exact (hstep.gone (by rw [ih]; exact hticket)).trans ih

end Ticket
