import Mathlib.Data.Nat.Notation

/-! # Bounded broadcast channels

A channel numbers the messages sent on it and keeps the last `capacity` of them.
A receiver remembers the number of the message it reads next; it sees every
message sent after it subscribed. -/
namespace Broadcast

structure Channel where
  capacity : ℕ
  sent : ℕ := 0
  deriving DecidableEq

structure Receiver where
  next : ℕ
  deriving DecidableEq

inductive Received where
  | message
  | lagged (skipped : ℕ)
  | empty
  deriving DecidableEq

def Channel.send (channel : Channel) : Channel :=
  { channel with sent := channel.sent + 1 }

/-- A new receiver starts behind the last message sent. -/
def Channel.subscribe (channel : Channel) : Receiver := ⟨channel.sent⟩

def Channel.recv (channel : Channel) (receiver : Receiver) : Received × Receiver :=
  if channel.sent ≤ receiver.next then (.empty, receiver)
  else if channel.sent - receiver.next ≤ channel.capacity then
    (.message, ⟨receiver.next + 1⟩)
  else
    let oldest := channel.sent - channel.capacity
    (.lagged (oldest - receiver.next), ⟨oldest⟩)

def Channel.Pending (channel : Channel) (receiver : Receiver) : Prop := receiver.next < channel.sent

/-- The receiver has read nothing that was not sent. -/
def Channel.Subscribed (channel : Channel) (receiver : Receiver) : Prop :=
  receiver.next ≤ channel.sent

instance (channel : Channel) (receiver : Receiver) : Decidable (channel.Pending receiver) :=
  inferInstanceAs (Decidable (_ < _))

variable {ch : Channel}

theorem recv_waits_iff : (ch.recv receiver).1 = .empty ↔ ¬ ch.Pending receiver := by
  unfold Channel.recv Channel.Pending
  split
  · simp only [true_iff]
    omega
  · split <;> simp [reduceCtorEq] <;> omega

theorem subscribed_subscribe : ch.Subscribed ch.subscribe := Nat.le_refl _

theorem subscribed_send (h : ch.Subscribed receiver) : ch.send.Subscribed receiver :=
  Nat.le_succ_of_le h

theorem pending_send (h : ch.Subscribed receiver) : ch.send.Pending receiver := Nat.lt_succ_of_le h

end Broadcast
