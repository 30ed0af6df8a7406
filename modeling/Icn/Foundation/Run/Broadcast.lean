import Mathlib.Data.List.Basic

/-!
# Broadcast channels

A channel keeps the last `capacity` messages that were sent on it, and every
receiver reads at its own pace. The whole sequence of messages is held here, so a
receiver is the number of messages before its next one; the capacity shows only
when a receiver falls so far behind that its next message is gone.
-/

namespace Foundation

namespace Broadcast

variable {α : Type*}

structure Channel (α : Type*) where
  capacity : ℕ
  sent : List α

/-- A receiver, by the number of messages it will not see any more. -/
abbrev Receiver := ℕ

inductive Received (α : Type*) where
  | pending
  | lagged (missed : ℕ)
  | message (value : α)

namespace Channel

def new (capacity : ℕ) : Channel α := ⟨capacity, []⟩

def send (channel : Channel α) (value : α) : Channel α :=
  { channel with sent := channel.sent ++ [value] }

def subscribe (channel : Channel α) : Receiver := channel.sent.length

/-- The receiver is behind by more messages than the channel keeps. -/
def Lags (channel : Channel α) (receiver : Receiver) : Prop :=
  channel.capacity < channel.sent.length - receiver

instance (channel : Channel α) (receiver : Receiver) : Decidable (channel.Lags receiver) :=
  inferInstanceAs (Decidable (_ < _))

/-- One attempt to receive. A receiver that lags goes on with the oldest message
that is left. -/
def recv (channel : Channel α) (receiver : Receiver) : Received α × Receiver :=
  if channel.Lags receiver then
    (.lagged (channel.sent.length - receiver - channel.capacity),
      channel.sent.length - channel.capacity)
  else
    match channel.sent[receiver]? with
    | none => (.pending, receiver)
    | some value => (.message value, receiver + 1)

@[simp] theorem sent_new (capacity : ℕ) : (new capacity : Channel α).sent = [] := rfl

@[simp] theorem sent_send (channel : Channel α) (value : α) :
    (channel.send value).sent = channel.sent ++ [value] := rfl

theorem not_lags_succ {channel : Channel α} {receiver : Receiver} (h : ¬ channel.Lags receiver) :
    ¬ channel.Lags (receiver + 1) := by
  unfold Lags at *
  omega

theorem recv_le {channel : Channel α} {receiver : Receiver} (h : receiver ≤ channel.sent.length) :
    (channel.recv receiver).2 ≤ channel.sent.length := by
  unfold recv
  split_ifs
  · exact Nat.sub_le _ _
  · cases hnext : channel.sent[receiver]? with
    | none => exact h
    | some value => exact (List.getElem?_eq_some_iff.mp hnext).1

/-- A receiver that does not lag takes the messages it has not seen in order. -/
theorem recv_of_drop_cons {channel : Channel α} {receiver : Receiver} {value : α} {rest : List α}
    (hlag : ¬ channel.Lags receiver) (h : channel.sent.drop receiver = value :: rest) :
    channel.recv receiver = (.message value, receiver + 1) ∧
      channel.sent.drop (receiver + 1) = rest := by
  have hnext : channel.sent[receiver]? = some value := by
    rw [← Nat.add_zero receiver, ← List.getElem?_drop, h, List.getElem?_cons_zero]
  refine ⟨?_, ?_⟩
  · rw [recv, if_neg hlag, hnext]
  · rw [← List.drop_drop, h, List.drop_one, List.tail_cons]

theorem recv_of_drop_nil {channel : Channel α} {receiver : Receiver}
    (hlag : ¬ channel.Lags receiver) (h : channel.sent.drop receiver = []) :
    channel.recv receiver = (.pending, receiver) := by
  rw [recv, if_neg hlag, List.getElem?_eq_none (List.drop_eq_nil_iff.mp h)]

end Channel

end Broadcast

end Foundation
