import Luminate.Buffers
import Luminate.Wire
import Mathlib.Data.Vector.Defs

/-! # LIFX packets

`packet` and `parse` of the LIFX plugin's `protocol.rs`. An access outside a buffer,
on which the source would panic, is `none`. -/
namespace LifxPackets

open Buffers Wire List

def headerLen : ℕ := 36

structure Header where
  source : UInt32
  target : List.Vector UInt8 8
  sequence : UInt8
  messageType : UInt16
  deriving DecidableEq

/-- Protocol 1024 and addressable. -/
def protocolFlags (tagged : Bool) : UInt8 := (0x14 : UInt8) ||| (tagged.toUInt8 <<< 5)

def packet (source : UInt32) (target : List.Vector UInt8 8) (sequence : UInt8)
    (messageType : UInt16) (payload : List UInt8) (tagged acknowledgementRequired : Bool) :
    Option (Except String (List UInt8)) :=
  let size := headerLen + payload.length
  if size < 2 ^ 16 then do
    let bytes ← writeFrom (replicate headerLen 0) 0 (leBytes 2 size)
    let bytes ← write bytes 2 0
    let bytes ← write bytes 3 (protocolFlags tagged)
    let bytes ← writeFrom bytes 4 (leBytes 4 source.toNat)
    let bytes ← writeFrom bytes 8 target.val
    let bytes ← write bytes 22 (acknowledgementRequired.toUInt8 <<< 1)
    let bytes ← write bytes 23 sequence
    let bytes ← writeFrom bytes 32 (leBytes 2 messageType.toNat)
    some (.ok (bytes ++ payload))
  else some (.error "LIFX packet too large")

/-- Copying into an array of another length panics. -/
def copyFromSlice (length : ℕ) (bytes : List UInt8) : Option (List.Vector UInt8 length) :=
  if h : bytes.length = length then some ⟨bytes, h⟩ else none

def parse (packet : List UInt8) : Option (Except String (Header × List UInt8)) :=
  if packet.length < headerLen then some (.error "short LIFX packet header")
  else do
    let size := leValue (← slice packet 0 2)
    if size < headerLen ∨ packet.length < size then
      some (.error "invalid LIFX packet size")
    else
      let flags ← packet[3]?
      let protocol := leValue (← slice packet 2 4) &&& 0x0fff
      if protocol ≠ 1024 ∨ flags &&& 0x10 = 0 then some (.error "unsupported LIFX header")
      else
        let target ← (slice packet 8 16).bind (copyFromSlice 8)
        let source ← slice packet 4 8
        let sequence ← packet[23]?
        let messageType ← slice packet 32 34
        let payload ← slice packet headerLen size
        some (.ok (⟨UInt32.ofNat (leValue source), target, sequence,
          UInt16.ofNat (leValue messageType)⟩, payload))

/-- The fields of a header in the order of the wire. -/
def headerBytes (size : ℕ) (header : Header) (tagged acknowledgementRequired : Bool) :
    List UInt8 :=
  [leBytes 2 size, [0, protocolFlags tagged], leBytes 4 header.source.toNat,
    header.target.val, replicate 6 0,
    [acknowledgementRequired.toUInt8 <<< 1, header.sequence], replicate 8 0,
    leBytes 2 header.messageType.toNat, replicate 2 0].flatten

theorem packet_ok {sequence : UInt8} (hfits : headerLen + payload.length < 2 ^ 16) :
    packet source target sequence messageType payload tagged acknowledgementRequired =
      some (.ok (headerBytes (headerLen + payload.length)
        ⟨source, target, sequence, messageType⟩ tagged acknowledgementRequired ++ payload)) := by
  match target with
  | ⟨[t0, t1, t2, t3, t4, t5, t6, t7], _⟩ =>
    simp only [packet]
    rw [if_pos hfits]
    simp [headerBytes, writeFrom, write, leBytes, headerLen, replicate]

theorem length_headerBytes (header : Header) :
    (headerBytes size header tagged acknowledgementRequired).length = headerLen := by
  simp [headerBytes, headerLen, header.target.2]

theorem parse_headerBytes (header : Header) (hfits : headerLen + payload.length < 2 ^ 16) :
    parse (headerBytes (headerLen + payload.length) header tagged acknowledgementRequired ++
      payload) = some (.ok (header, payload)) := by
  have hsize := leValue_leBytes (show headerLen + payload.length < 256 ^ 2 from hfits)
  have hsource := leValue_leBytes (show header.source.toNat < 256 ^ 4 from header.source.toNat_lt)
  have htype := leValue_leBytes
    (show header.messageType.toNat < 256 ^ 2 from header.messageType.toNat_lt)
  have hflags : ¬ (leValue [0, protocolFlags tagged] &&& 0x0fff ≠ 1024 ∨
      protocolFlags tagged &&& 0x10 = 0) := by
    cases tagged <;> decide
  generalize hb : headerBytes (headerLen + payload.length) header tagged acknowledgementRequired ++
      payload = bytes
  have hl : bytes.length = headerLen + payload.length := by
    rw [← hb, length_append, length_headerBytes]
  have hp : slice bytes headerLen (headerLen + payload.length) = some payload := by
    rw [slice_of_le (Nat.le_add_right _ _) (Nat.le_of_eq hl.symm),
      take_of_length_le (Nat.le_of_eq hl), ← hb, drop_left' (length_headerBytes ..)]
  have hr : slice bytes 0 2 = some (leBytes 2 (headerLen + payload.length)) ∧
      slice bytes 2 4 = some [0, protocolFlags tagged] ∧ bytes[3]? = some (protocolFlags tagged) ∧
      slice bytes 4 8 = some (leBytes 4 header.source.toNat) ∧
      slice bytes 8 16 = some header.target.val ∧ bytes[23]? = some header.sequence ∧
      slice bytes 32 34 = some (leBytes 2 header.messageType.toNat) := by
    simp only [slice, hl]
    simp [← hb, headerLen, headerBytes, take_append, drop_append, getElem?_append,
      take_of_length_le, drop_of_length_le, header.target.2]
    omega
  obtain ⟨h0, h2, h3, h4, h8, h23, h32⟩ := hr
  have hs : ¬ (headerLen + payload.length < headerLen ∨
      headerLen + payload.length < headerLen + payload.length) := by omega
  have hc : copyFromSlice 8 header.target.val = some header.target := dif_pos header.target.2
  simp only [parse, hl, if_neg (Nat.not_lt.2 (Nat.le_add_right headerLen payload.length)), h0, h2,
    h3, h4, h8, h23, h32, Option.bind_eq_bind, Option.bind_some, hsize, if_neg hs, if_neg hflags,
    hc, hp, hsource, htype, UInt32.ofNat_toNat, UInt16.ofNat_toNat]

/-- Every packet that fits is read back as it was built, and no byte string makes the
reader leave it: the payload it returns is the part the declared size gives it. -/
theorem packets_round_trip :
    (∀ (source : UInt32) (target : List.Vector UInt8 8) (sequence : UInt8) (messageType : UInt16)
      (payload : List UInt8) (tagged acknowledgementRequired : Bool),
      headerLen + payload.length < 2 ^ 16 →
      ∃ bytes, packet source target sequence messageType payload tagged acknowledgementRequired =
          some (.ok bytes) ∧
        parse bytes = some (.ok (⟨source, target, sequence, messageType⟩, payload))) ∧
    ∀ bytes, (∃ error, parse bytes = some (.error error)) ∨
      ∃ header payload pre post, parse bytes = some (.ok (header, payload)) ∧
        bytes = pre ++ (payload ++ post) ∧ pre.length = headerLen ∧
        headerLen + payload.length = leValue (bytes.take 2) := by
  refine ⟨fun _ _ _ _ _ _ _ hfits => ⟨_, packet_ok hfits, parse_headerBytes _ hfits⟩,
    fun bytes => ?_⟩
  by_cases hl : bytes.length < headerLen
  · exact .inl ⟨_, if_pos hl⟩
  have hle : 36 ≤ bytes.length := Nat.le_of_not_lt hl
  have hs : ∀ start stop, start ≤ stop ∧ stop ≤ 36 →
      slice bytes start stop = some ((bytes.take stop).drop start) :=
    fun start stop h => slice_of_le h.1 (Nat.le_trans h.2 hle)
  obtain ⟨target, hc⟩ : ∃ target, copyFromSlice 8 ((bytes.take 16).drop 8) = some target := by
    refine ⟨_, dif_pos ?_⟩
    rw [length_drop, length_take]
    omega
  simp only [parse, if_neg hl, hs 0 2 (by decide), hs 2 4 (by decide), hs 4 8 (by decide),
    hs 8 16 (by decide), hs 32 34 (by decide), Option.bind_eq_bind, Option.bind_some, drop_zero,
    getElem?_eq_getElem (show 3 < bytes.length by omega),
    getElem?_eq_getElem (show 23 < bytes.length by omega), hc]
  split
  · exact .inl ⟨_, rfl⟩
  · next hsize =>
    obtain ⟨hlo, hhi⟩ := not_or.1 hsize
    split
    · exact .inl ⟨_, rfl⟩
    · have hp := slice_of_le (Nat.le_of_not_lt hlo) (Nat.le_of_not_lt hhi)
      obtain ⟨pre, post, hb, hpre, hpart⟩ := slice_some hp
      rw [hp]
      exact .inr ⟨_, _, pre, post, rfl, hb, hpre, hpart⟩

theorem power_packet_round_trips :
    ∃ bytes, packet 2 ⟨[1, 2, 3, 4, 5, 6, 0, 0], rfl⟩ 7 21 [0xff, 0xff] true false =
        some (.ok bytes) ∧
      parse bytes = some (.ok (⟨2, ⟨[1, 2, 3, 4, 5, 6, 0, 0], rfl⟩, 7, 21⟩, [0xff, 0xff])) :=
  packets_round_trip.1 2 ⟨[1, 2, 3, 4, 5, 6, 0, 0], rfl⟩ 7 21 [0xff, 0xff] true false (by decide)

end LifxPackets
