/-! Channels between a provider and the vehicle: messages wait in order, up to a limit. -/
namespace Whereabouts

structure Channel (α : Type) where
  /-- Messages that can wait; a channel without capacity never has room. -/
  capacity : Nat
  waiting : List α := []
  /-- The receiving side exists. -/
  connected : Bool := true
  deriving Repr, DecidableEq

inductive SendFault where
  | full
  | disconnected
  deriving Repr, DecidableEq

namespace Channel

variable {α : Type}

/-- Queue a message without waiting for room. -/
def send (c : Channel α) (a : α) : Except SendFault (Channel α) :=
  if !c.connected then .error .disconnected
  else if c.waiting.length < c.capacity then .ok { c with waiting := c.waiting ++ [a] }
  else .error .full

/-- Take the oldest message out, if one waits. -/
def receive? (c : Channel α) : Option (α × Channel α) :=
  match c.waiting with
  | [] => none
  | a :: rest => some (a, { c with waiting := rest })

/-- The receiving side goes away, and what waits is lost. -/
def disconnect (c : Channel α) : Channel α := { c with waiting := [], connected := false }

theorem receive?_eq_none_iff {c : Channel α} : c.receive? = none ↔ c.waiting = [] := by
  unfold receive?
  cases c.waiting <;> simp

theorem receive?_of_cons {c : Channel α} {a : α} {rest : List α} (h : c.waiting = a :: rest) :
    c.receive? = some (a, { c with waiting := rest }) := by
  simp only [receive?, h]

theorem send_eq_ok_iff (c d : Channel α) (a : α) :
    c.send a = .ok d ↔
      c.connected = true ∧ c.waiting.length < c.capacity ∧
        d = { c with waiting := c.waiting ++ [a] } := by
  unfold send
  by_cases hc : c.connected = true <;> by_cases hl : c.waiting.length < c.capacity <;>
    simp [hc, hl, eq_comm]

/-- A connected channel refuses a message only for want of room. -/
theorem send_eq_error_iff {c : Channel α} (hc : c.connected = true) (a : α) (e : SendFault) :
    c.send a = .error e ↔ c.capacity ≤ c.waiting.length ∧ e = .full := by
  unfold send
  by_cases hl : c.waiting.length < c.capacity
  · simp [hc, hl, Nat.not_le.mpr hl]
  · simp [hc, hl, Nat.le_of_not_lt hl, eq_comm]

end Channel
end Whereabouts
