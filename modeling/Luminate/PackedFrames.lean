import Luminate.Checks
import Luminate.DeviceModel
import Luminate.Wire

/-! # Packed frames

`decode_packed_frame` of the WebSocket endpoint, on a target with 64-bit sizes. -/
namespace PackedFrames

open Checks DeviceModel Wire List

def packedHeaderLen : ℕ := 24

/-- The bytes of `LFRM`. -/
def packedMagic : List UInt8 := [0x4c, 0x46, 0x52, 0x4d]

def okOr {α : Type} (value : Option α) (message : String) : Except String α :=
  match value with
  | some value => .ok value
  | none => .error message

def checkedMul (a b : ℕ) : Option ℕ := if a * b < 2 ^ 64 then some (a * b) else none

/-- The pixels of whole groups of three bytes. -/
def pixelsOf : List UInt8 → List Rgb
  | red :: green :: blue :: rest => ⟨red, green, blue⟩ :: pixelsOf rest
  | _ => []

def decodePackedFrame (message : List UInt8) (generation : ℕ) :
    Except String FrameEnvelope := do
  ensure (packedHeaderLen ≤ message.length) "packed frame header is truncated"
  let header ← okOr (slice message 0 packedHeaderLen) "packed frame header is truncated"
  ensure (slice header 0 4 == some packedMagic) "packed frame magic is invalid"
  ensure (header[4]? == some 0) "packed frame header version is unsupported"
  ensure (header[5]? == some 1) "packed frame pixel format is unsupported"
  let flags := beValue (← okOr (slice header 6 8) "packed frame flags are truncated")
  ensure (flags &&& 0xfffe == 0) "packed frame contains unrecognized flags"
  ensure (slice header 20 24 == some [0, 0, 0, 0]) "packed frame reserved field is non-zero"
  let sequence := beValue (← okOr (slice header 8 16) "packed frame sequence is truncated")
  let pixelCount := beValue (← okOr (slice header 16 20) "packed frame pixel count is truncated")
  let payloadLen ← okOr (checkedMul pixelCount 3)
    "packed frame pixel count overflows its payload length"
  ensure (message.length == (packedHeaderLen + payloadLen) % 2 ^ 64)
    "packed frame payload length does not match its pixel count"
  let payload ← okOr (slice message packedHeaderLen message.length)
    "packed frame payload is truncated"
  .ok ⟨generation, sequence, .full ((pixelsOf payload).map .rgb), flags &&& 1 != 0⟩

/-- The part of a frame from one offset up to another. -/
def part (message : List UInt8) (start stop : ℕ) : List UInt8 := (message.take stop).drop start

def declaredPixels (message : List UInt8) : ℕ := beValue (part message 16 20)

structure WellFormed (message : List UInt8) : Prop where
  magic : part message 0 4 = packedMagic
  version : part message 4 5 = [0]
  format : part message 5 6 = [1]
  /-- No bit but the lowest one, which asks for a commit. -/
  flags : beValue (part message 6 8) ≤ 1
  reserved : part message 20 24 = [0, 0, 0, 0]
  length : message.length = packedHeaderLen + 3 * declaredPixels message

def encode (sequence : ℕ) (commit : Bool) (pixels : List Rgb) : List UInt8 :=
  packedMagic ++ [0] ++ [1] ++ beBytes 2 commit.toNat ++ beBytes 8 sequence ++
    beBytes 4 pixels.length ++ [0, 0, 0, 0] ++
    pixels.flatMap fun pixel => [pixel.r, pixel.g, pixel.b]

theorem okOr_ok_iff : okOr x message = .ok v ↔ x = some v := by
  cases x <;> simp [okOr]

theorem length_part (hl : stop ≤ message.length) :
    (part message start stop).length = stop - start := by
  rw [part, length_drop, length_take, Nat.min_eq_left hl]

theorem take_append_part (hs : start ≤ stop) :
    message.take start ++ part message start stop = message.take stop := by
  rw [part, ← Nat.min_eq_left hs, ← take_take, Nat.min_eq_left hs, take_append_drop]

theorem part_succ (h : i < message.length) :
    part message i (i + 1) = [v] ↔ message[i]? = some v := by
  rw [part, take_add_one, drop_left' (by rw [length_take]; omega)]
  cases message[i]? <;> simp

theorem declaredPixels_lt (message : List UInt8) : declaredPixels message < 2 ^ 32 := by
  apply beValue_lt 4
  rw [part, length_drop, length_take]
  omega

theorem unknown_flags_iff (h : flags < 2 ^ 16) : flags &&& 0xfffe = 0 ↔ flags ≤ 1 := by
  have hb : ∀ i < 15, Nat.testBit 0xfffe (i + 1) = true := by decide
  constructor
  · intro hz
    have hd : flags / 2 = 0 := by
      refine Nat.eq_of_testBit_eq fun i => ?_
      rw [Nat.testBit_div_two, Nat.zero_testBit]
      by_cases hi : i < 15
      · have hn := congrArg (Nat.testBit · (i + 1)) hz
        simpa [Nat.testBit_and, hb i hi] using hn
      · have hp : 2 ^ 16 ≤ 2 ^ (i + 1) := Nat.pow_le_pow_right (by decide) (by omega)
        exact Nat.testBit_lt_two_pow (Nat.lt_of_lt_of_le h hp)
    omega
  · intro hl
    obtain rfl | rfl : flags = 0 ∨ flags = 1 := by omega
    · rfl
    · rfl

theorem pixelsOf_spec (h : bytes.length = 3 * pixels) : (pixelsOf bytes).length = pixels ∧
    (pixelsOf bytes).flatMap (fun pixel => [pixel.r, pixel.g, pixel.b]) = bytes := by
  fun_induction pixelsOf bytes generalizing pixels with
  | case1 red green blue rest ih =>
    simp only [length_cons] at h
    obtain ⟨hl, hr⟩ := ih (show rest.length = 3 * (pixels - 1) by omega)
    refine ⟨?_, ?_⟩
    · rw [length_cons, hl]
      omega
    · rw [flatMap_cons, hr]
      rfl
  | case2 short hs =>
    match short with
    | [] => exact ⟨by simp at h ⊢; omega, rfl⟩
    | [_] | [_, _] => simp at h; omega
    | red :: green :: blue :: rest => exact absurd rfl (hs red green blue rest)

theorem decodePackedFrame_ok_iff : decodePackedFrame message generation = .ok frame ↔
    WellFormed message ∧ frame = ⟨generation, beValue (part message 8 16),
      .full ((pixelsOf (message.drop packedHeaderLen)).map .rgb),
      beValue (part message 6 8) &&& 1 != 0⟩ := by
  rw [decodePackedFrame]
  simp only [↓then_ok_iff, bind_ok_iff, okOr_ok_iff, ensure_ok_iff, beq_iff_eq, decide_eq_true_eq]
  by_cases hl : packedHeaderLen ≤ message.length
  · have hs : ∀ start stop, start ≤ stop ∧ stop ≤ 24 →
        slice (message.take packedHeaderLen) start stop = some (part message start stop) :=
      fun start stop h => (slice_take h.2).trans (slice_of_le h.1 (Nat.le_trans h.2 hl))
    have hh : slice message 0 packedHeaderLen = some (message.take packedHeaderLen) :=
      slice_of_le (Nat.zero_le _) hl
    have hp : slice message packedHeaderLen message.length =
        some (message.drop packedHeaderLen) := by
      rw [slice_of_le hl (Nat.le_refl _), take_length]
    have hi : ∀ i < 24, ∀ v, (message.take packedHeaderLen)[i]? = some v ↔
        part message i (i + 1) = [v] := by
      intro i hi v
      rw [part_succ (Nat.lt_of_lt_of_le hi hl)]
      rw [getElem?_take_of_lt (show i < packedHeaderLen from hi)]
    have hd := declaredPixels_lt message
    have hm : checkedMul (beValue (part message 16 20)) 3 = some (declaredPixels message * 3) :=
      if_pos (show declaredPixels message * 3 < 2 ^ 64 by omega)
    have ha : (packedHeaderLen + declaredPixels message * 3) % 2 ^ 64 =
        packedHeaderLen + 3 * declaredPixels message := by
      rw [packedHeaderLen]
      omega
    have hf : beValue (part message 6 8) &&& 0xfffe = 0 ↔ beValue (part message 6 8) ≤ 1 :=
      unknown_flags_iff (beValue_lt 2 (by
        rw [part, length_drop, length_take]
        omega))
    simp only [hl, hh, hp, hs 0 4 (by decide), hs 6 8 (by decide), hs 8 16 (by decide),
      hs 16 20 (by decide), hs 20 24 (by decide), hi 4 (by decide), hi 5 (by decide),
      Option.some.injEq, exists_eq_left', true_and, hm, ha, hf]
    constructor
    · rintro ⟨hmagic, hversion, hformat, hflags, hreserved, hlength, hframe⟩
      exact ⟨⟨hmagic, hversion, hformat, hflags, hreserved, hlength⟩, (Except.ok.inj hframe).symm⟩
    · rintro ⟨h, rfl⟩
      exact ⟨h.magic, h.version, h.format, h.flags, h.reserved, h.length, rfl⟩
  · refine iff_of_false (fun h => hl h.1) fun h => hl ?_
    rw [h.1.length]
    exact Nat.le_add_right _ _

theorem length_payload (h : WellFormed message) :
    (message.drop packedHeaderLen).length = 3 * declaredPixels message := by
  rw [length_drop, h.length, Nat.add_sub_cancel_left]

theorem encode_parts (h : WellFormed message) :
    encode (beValue (part message 8 16)) (beValue (part message 6 8) &&& 1 != 0)
      (pixelsOf (message.drop packedHeaderLen)) = message := by
  have hl : packedHeaderLen ≤ message.length := by
    rw [h.length]
    exact Nat.le_add_right _ _
  have hc : (beValue (part message 6 8) &&& 1 != 0).toNat = beValue (part message 6 8) := by
    obtain hz | ho : beValue (part message 6 8) = 0 ∨ beValue (part message 6 8) = 1 := by
      have hf := h.flags
      omega
    · rw [hz]
      rfl
    · rw [ho]
      rfl
  have hlen : ∀ start stop, stop ≤ 24 → (part message start stop).length = stop - start :=
    fun start stop h => length_part (Nat.le_trans h hl)
  have hb : ∀ start stop, stop ≤ 24 →
      beBytes (stop - start) (beValue (part message start stop)) = part message start stop := by
    intro start stop hs
    rw [← hlen start stop hs, beBytes_beValue]
  obtain ⟨hn, hp⟩ := pixelsOf_spec (length_payload h)
  rw [encode, hc, hn, hp, declaredPixels, hb 6 8 (by decide), hb 8 16 (by decide),
    hb 16 20 (by decide), ← h.magic, ← h.reserved, ← h.version, ← h.format]
  change message.take 4 ++ _ ++ _ ++ _ ++ _ ++ _ ++ _ ++ _ = _
  rw [take_append_part (by decide), take_append_part (by decide), take_append_part (by decide),
    take_append_part (by decide), take_append_part (by decide), take_append_part (by decide)]
  exact take_append_drop 24 message

/-- Acceptance is exactly being well formed, the decoded frame is the encoding read back,
and the length that is compared does not overflow. -/
theorem packed_frames_exact : (∀ message generation,
      (∃ frame, decodePackedFrame message generation = .ok frame) ↔ WellFormed message) ∧
    (∀ message generation frame, decodePackedFrame message generation = .ok frame →
      frame.generation = generation ∧ frame.sequence < 2 ^ 64 ∧ ∃ pixels : List Rgb,
        frame.payload = .full (pixels.map .rgb) ∧ pixels.length = declaredPixels message ∧
        encode frame.sequence frame.commit pixels = message) ∧
    ∀ message, packedHeaderLen + declaredPixels message * 3 < 2 ^ 64 := by
  refine ⟨fun message generation => ?_, fun message generation frame h => ?_, fun message => ?_⟩
  · simp only [decodePackedFrame_ok_iff, exists_and_left, exists_eq, and_true]
  · obtain ⟨hw, rfl⟩ := decodePackedFrame_ok_iff.1 h
    refine ⟨rfl, beValue_lt 8 ?_, _, rfl, (pixelsOf_spec (length_payload hw)).1, encode_parts hw⟩
    rw [part, length_drop, length_take]
    omega
  · have hd := declaredPixels_lt message
    rw [packedHeaderLen]
    omega

theorem one_pixel_frame_exact :
    (FrameEnvelope.mk 3 7 (.full [.rgb ⟨1, 2, 3⟩]) true).generation = 3 ∧ 7 < 2 ^ 64 ∧
    ∃ pixels : List Rgb, FramePayload.full [.rgb ⟨1, 2, 3⟩] = .full (pixels.map .rgb) ∧
      pixels.length = declaredPixels (encode 7 true [⟨1, 2, 3⟩]) ∧
      encode 7 true pixels = encode 7 true [⟨1, 2, 3⟩] :=
  packed_frames_exact.2.1 (encode 7 true [⟨1, 2, 3⟩]) 3
    ⟨3, 7, .full [.rgb ⟨1, 2, 3⟩], true⟩ (by decide)

end PackedFrames
