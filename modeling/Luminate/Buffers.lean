import Mathlib.Data.List.Basic

/-! # Fixed buffers

A write outside a buffer fails; consecutive writes replace a block of it. -/
namespace Buffers

variable {α : Type}

def write (buffer : List α) (index : ℕ) (value : α) : Option (List α) :=
  if index < buffer.length then some (buffer.set index value) else none

/-- Consecutive writes, the first one at `index`. -/
def writeFrom (buffer : List α) (index : ℕ) : List α → Option (List α)
  | [] => some buffer
  | value :: rest => (write buffer index value).bind (writeFrom · (index + 1) rest)

theorem write_append : write (pre ++ old :: post) pre.length new = some (pre ++ new :: post) := by
  simp [write]

theorem writeFrom_append (hl : old.length = new.length) (pre post : List α) :
    writeFrom (pre ++ (old ++ post)) pre.length new = some (pre ++ (new ++ post)) := by
  induction new generalizing old pre with
  | nil => rw [List.eq_nil_of_length_eq_zero hl, writeFrom]
  | cons value rest ih =>
    obtain ⟨first, others, rfl⟩ := List.exists_cons_of_length_eq_add_one hl
    have hi := ih (Nat.succ.inj hl) (pre ++ [value])
    rw [writeFrom, List.cons_append, write_append, Option.bind_some]
    simpa using hi

end Buffers
