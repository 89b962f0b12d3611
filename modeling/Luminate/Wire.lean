import Mathlib.Algebra.GroupWithZero.Nat
import Mathlib.Data.List.Basic

/-! # Wire integers

Fixed-width unsigned integers as bytes, and checked reads of a byte string. -/
namespace Wire

def leBytes : ℕ → ℕ → List UInt8
  | 0, _ => []
  | width + 1, value => UInt8.ofNat value :: leBytes width (value / 256)

def leValue : List UInt8 → ℕ
  | [] => 0
  | byte :: rest => byte.toNat + 256 * leValue rest

def beBytes (width value : ℕ) : List UInt8 := (leBytes width value).reverse

def beValue (bytes : List UInt8) : ℕ := leValue bytes.reverse

/-- The bytes from `start` up to `stop`, when they are there. -/
def slice (bytes : List UInt8) (start stop : ℕ) : Option (List UInt8) :=
  if start ≤ stop ∧ stop ≤ bytes.length then some ((bytes.take stop).drop start) else none

theorem slice_of_le {bytes : List UInt8} {start stop : ℕ} (hs : start ≤ stop)
    (hl : stop ≤ bytes.length) : slice bytes start stop = some ((bytes.take stop).drop start) :=
  if_pos ⟨hs, hl⟩

theorem slice_take {bytes : List UInt8} (h : stop ≤ count) :
    slice (bytes.take count) start stop = slice bytes start stop := by
  simp only [slice, List.length_take, List.take_take, Nat.min_eq_left h]
  congr 1
  simp only [eq_iff_iff]
  omega

theorem slice_some {bytes part : List UInt8} {start stop : ℕ}
    (h : slice bytes start stop = some part) :
    ∃ pre post, bytes = pre ++ (part ++ post) ∧ pre.length = start ∧
      start + part.length = stop := by
  unfold slice at h
  split at h
  · next hb =>
    cases h
    refine ⟨(bytes.take stop).take start, bytes.drop stop, ?_, ?_, ?_⟩
    · rw [← List.append_assoc, List.take_append_drop, List.take_append_drop]
    · rw [List.length_take, List.length_take]
      omega
    · rw [List.length_drop, List.length_take]
      omega
  · cases h

@[simp] theorem length_leBytes (width value : ℕ) : (leBytes width value).length = width := by
  induction width generalizing value with
  | zero => rfl
  | succ width ih => rw [leBytes, List.length_cons, ih]

theorem leValue_leBytes {width value : ℕ} (h : value < 256 ^ width) :
    leValue (leBytes width value) = value := by
  induction width generalizing value with
  | zero => exact (Nat.lt_one_iff.1 h).symm
  | succ width ih =>
    have hd : value / 256 < 256 ^ width := by
      rw [Nat.pow_succ, Nat.mul_comm] at h
      exact Nat.div_lt_of_lt_mul h
    rw [leBytes, leValue, ih hd, UInt8.toNat_ofNat']
    exact Nat.mod_add_div value 256

theorem leBytes_leValue (bytes : List UInt8) : leBytes bytes.length (leValue bytes) = bytes := by
  induction bytes with
  | nil => rfl
  | cons byte rest ih =>
    have hb : byte.toNat < 256 := byte.toNat_lt
    have hd : (byte.toNat + 256 * leValue rest) / 256 = leValue rest := by omega
    have hm : UInt8.ofNat (byte.toNat + 256 * leValue rest) = byte := by
      apply UInt8.toNat_inj.1
      rw [UInt8.toNat_ofNat']
      omega
    rw [List.length_cons, leValue, leBytes, hd, hm, ih]

theorem leValue_lt (bytes : List UInt8) : leValue bytes < 256 ^ bytes.length := by
  induction bytes with
  | nil => exact Nat.one_pos
  | cons byte rest ih =>
    have hb : byte.toNat < 256 := byte.toNat_lt
    rw [leValue, List.length_cons, Nat.pow_succ]
    omega

theorem beValue_lt {bytes : List UInt8} (w : ℕ) (h : bytes.length ≤ w) :
    beValue bytes < 256 ^ w := by
  have hl := leValue_lt bytes.reverse
  rw [List.length_reverse] at hl
  exact Nat.lt_of_lt_of_le hl (Nat.pow_le_pow_right (by decide) h)

theorem beBytes_beValue : beBytes bytes.length (beValue bytes) = bytes := by
  have h := leBytes_leValue bytes.reverse
  rw [List.length_reverse] at h
  rw [beBytes, beValue, h, List.reverse_reverse]

end Wire
