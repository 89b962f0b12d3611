import Luminate.Checks
import Luminate.DeviceModel
import Luminate.Transition
import Mathlib.Data.Nat.Basic
import Mathlib.Order.Basic

/-! # The power button's firmware slots

`aw_elc.rs` writes the colours of the power button into non-volatile slots. It skips a
write of the colours it remembers and refuses to rewrite a slot for five seconds. What it
remembers is set after a write has succeeded. -/
namespace PowerButtonFirmware

open Checks DeviceModel Transition Function List

def powerWriteMinInterval : ℕ := 5 * 1000000000

inductive PowerButtonZone where
  | ac
  | battery
  deriving DecidableEq

inductive PowerButtonSlot where
  | acSleep | acActive | charging | batterySleep | batteryActive | batteryCritical
  deriving DecidableEq

structure PowerButtonShadow where
  rgbAc : Option Rgb := none
  rgbBattery : Option Rgb := none
  lastWriteAc : Option ℕ := none
  lastWriteBattery : Option ℕ := none
  lastWriteCharging : Option ℕ := none

structure PowerButtonColours where
  ac : Rgb
  battery : Rgb

structure ActionRecord where
  mode : ℕ
  durationMs : ℕ
  tempo : ℕ
  rgb : Rgb
  deriving DecidableEq

def staticRecord (rgb : Rgb) : ActionRecord := ⟨0x00, 2000, 0x00fa, rgb⟩

/-- `morph_record` with the duration and the tempo of the power slots. -/
def keyframe (rgb : Rgb) : ActionRecord := ⟨0x02, 0x03e8, 0x0064, rgb⟩

def pulseRecord (rgb : Rgb) : ActionRecord := ⟨0x01, 2000, 0x0064, rgb⟩

def powerSlotRecords (colours : PowerButtonColours) : PowerButtonSlot → List ActionRecord
  | .acSleep => [keyframe colours.ac, keyframe ⟨0, 0, 0⟩]
  | .acActive => [staticRecord colours.ac]
  | .charging => [keyframe colours.ac, keyframe colours.battery]
  | .batterySleep => [keyframe colours.battery, keyframe ⟨0, 0, 0⟩]
  | .batteryActive => [staticRecord colours.battery]
  | .batteryCritical => [pulseRecord colours.battery]

structure PowerButtonWrite where
  colours : PowerButtonColours
  ac : Bool
  battery : Bool

inductive PowerButtonWritePlan where
  | skipAlreadyCurrent
  | write (write : PowerButtonWrite)

def checkPowerButtonRateLimit (write : Bool) (lastWrite : Option ℕ) (now : ℕ) :
    Except String Unit :=
  ensure (!(write && lastWrite.any (now - · < powerWriteMinInterval)))
    ("AW-ELC power-button firmware slots were updated less than 5s ago; " ++
      "refusing another non-volatile rewrite")

def knownColour (which : String) : Option Rgb → Except String Rgb
  | some rgb => .ok rgb
  | none => .error ("cannot update AW-ELC charging slot 0x5d because the " ++ which ++
      " power-button colour is unknown; submit AC and battery power-button updates together")

def planPowerButtonUpdatesWithShadow (shadow : PowerButtonShadow) (ac battery : Option Rgb)
    (now : ℕ) : Except String PowerButtonWritePlan :=
  let writeAc := ac.any (shadow.rgbAc ≠ some ·)
  let writeBattery := battery.any (shadow.rgbBattery ≠ some ·)
  if !writeAc && !writeBattery then .ok .skipAlreadyCurrent else do
    checkPowerButtonRateLimit writeAc shadow.lastWriteAc now
    checkPowerButtonRateLimit writeBattery shadow.lastWriteBattery now
    checkPowerButtonRateLimit (writeAc || writeBattery) shadow.lastWriteCharging now
    let ac ← knownColour "AC" (ac.or shadow.rgbAc)
    let battery ← knownColour "battery" (battery.or shadow.rgbBattery)
    .ok (.write ⟨⟨ac, battery⟩, writeAc, writeBattery⟩)

def rememberPowerButtonWriteIn (shadow : PowerButtonShadow) (write : PowerButtonWrite)
    (now : ℕ) : PowerButtonShadow where
  rgbAc := if write.ac then some write.colours.ac else shadow.rgbAc
  rgbBattery := if write.battery then some write.colours.battery else shadow.rgbBattery
  lastWriteAc := if write.ac then some now else shadow.lastWriteAc
  lastWriteBattery := if write.battery then some now else shadow.lastWriteBattery
  lastWriteCharging := some now

@[simp] def PowerButtonZone.slots : PowerButtonZone → List PowerButtonSlot
  | .ac => [.acSleep, .acActive]
  | .battery => [.batterySleep, .batteryActive, .batteryCritical]

def PowerButtonWrite.slots (write : PowerButtonWrite) : List PowerButtonSlot :=
  (if write.ac then PowerButtonZone.ac.slots else []) ++
    (if write.ac || write.battery then [.charging] else []) ++
    (if write.battery then PowerButtonZone.battery.slots else [])

/-- When the reports of an update are sent, how each is answered, and what a slot holds
after a write of it has failed. -/
structure HidChannel where
  sentAt : ℕ → ℕ
  answer : ℕ → Except String Unit
  torn : List ActionRecord

abbrev Firmware := PowerButtonSlot → List ActionRecord

abbrev Starts := List (PowerButtonSlot × ℕ)

/-- A slot is written by five reports; the first that fails ends the write. -/
def sendPowerButtonSlots (hid : HidChannel) (colours : PowerButtonColours) :
    List PowerButtonSlot → ℕ → Firmware → Except String Unit × Starts × Firmware
  | [], _, firmware => (.ok (), [], firmware)
  | slot :: rest, n, firmware =>
    match checkAll hid.answer (range' n 5) with
    | .error e => (.error e, [(slot, hid.sentAt n)], update firmware slot hid.torn)
    | .ok () =>
      let (result, starts, firmware) := sendPowerButtonSlots hid colours rest (n + 5)
        (update firmware slot (powerSlotRecords colours slot))
      (result, (slot, hid.sentAt n) :: starts, firmware)

inductive Request where
  | static (zone : PowerButtonZone) (rgb : Rgb)
  | slots (ac battery : Option Rgb)

def Request.colour : Request → PowerButtonZone → Option Rgb
  | .static zone rgb, z => if z = zone then some rgb else none
  | .slots ac _, .ac => ac
  | .slots _ battery, .battery => battery

def Request.plan (request : Request) (shadow : PowerButtonShadow) (now : ℕ) :
    Except String PowerButtonWritePlan :=
  planPowerButtonUpdatesWithShadow shadow (request.colour .ac) (request.colour .battery) now

structure Update where
  request : Request
  now : ℕ
  hid : HidChannel
  finished : ℕ

structure State where
  shadow : PowerButtonShadow := {}
  clock : ℕ := 0
  starts : Starts := []
  firmware : Firmware := fun _ => []

def next (s : State) (u : Update) : State :=
  match u.request.plan s.shadow u.now with
  | .ok (.write write) =>
    let (result, starts, firmware) :=
      sendPowerButtonSlots u.hid write.colours write.slots 0 s.firmware
    { clock := u.finished
      starts := s.starts ++ starts
      firmware := firmware
      shadow := if result.isOk then rememberPowerButtonWriteIn s.shadow write u.finished
        else s.shadow }
  | _ => { s with clock := u.finished }

structure Update.Timely (u : Update) (clock : ℕ) : Prop where
  begins : clock ≤ u.now
  sends : ∀ n, u.now ≤ u.hid.sentAt n ∧ u.hid.sentAt n ≤ u.finished

def Step (s : State) (u : Update) (t : State) : Prop := u.Timely s.clock ∧ t = next s u

def Guard (_ : State) (u : Update) : Prop := ∀ n, u.hid.answer n = .ok ()

def Spaced (starts : Starts) : Prop :=
  starts.Pairwise fun a b => a.1 = b.1 → a.2 + powerWriteMinInterval ≤ b.2

def PowerButtonShadow.lastWrite (shadow : PowerButtonShadow) : PowerButtonSlot → Option ℕ
  | .acSleep | .acActive => shadow.lastWriteAc
  | .charging => shadow.lastWriteCharging
  | .batterySleep | .batteryActive | .batteryCritical => shadow.lastWriteBattery

def Holds (firmware : Firmware) (zone : PowerButtonZone) (rgb : Rgb) : Prop :=
  ∀ slot ∈ zone.slots, firmware slot = powerSlotRecords ⟨rgb, rgb⟩ slot

def PowerButtonShadow.rgb (shadow : PowerButtonShadow) : PowerButtonZone → Option Rgb
  | .ac => shadow.rgbAc
  | .battery => shadow.rgbBattery

def PowerButtonWrite.rgb (write : PowerButtonWrite) : PowerButtonZone → Option Rgb
  | .ac => if write.ac then some write.colours.ac else none
  | .battery => if write.battery then some write.colours.battery else none

section

variable {shadow : PowerButtonShadow} {w : PowerButtonWrite}

theorem elapsed (h : checkPowerButtonRateLimit write o now = .ok ()) (hw : write = true)
    (ho : o = some last) : last + powerWriteMinInterval ≤ now := by
  subst hw ho
  have hn : ¬ now - last < powerWriteMinInterval := by simpa [checkPowerButtonRateLimit] using h
  unfold powerWriteMinInterval at hn ⊢
  omega

theorem lastWrite_ac (hs : slot ∈ PowerButtonZone.ac.slots) :
    shadow.lastWrite slot = shadow.lastWriteAc := by
  rcases mem_pair.1 hs with rfl | rfl <;> rfl

theorem lastWrite_battery (hs : slot ∈ PowerButtonZone.battery.slots) :
    shadow.lastWrite slot = shadow.lastWriteBattery := by
  rcases mem_cons.1 hs with rfl | hs
  · rfl
  · rcases mem_pair.1 hs with rfl | rfl <;> rfl

theorem plan_elapsed {r : Request} (h : r.plan shadow now = .ok (.write w)) (hs : slot ∈ w.slots)
    (hl : shadow.lastWrite slot = some last) : last + powerWriteMinInterval ≤ now := by
  unfold Request.plan planPowerButtonUpdatesWithShadow at h
  dsimp only at h
  split at h
  · cases h
  · obtain ⟨ha, h⟩ := then_ok_iff.1 h
    obtain ⟨hb, h⟩ := then_ok_iff.1 h
    obtain ⟨hc, h⟩ := then_ok_iff.1 h
    obtain ⟨_, -, h⟩ := bind_ok_iff.1 h
    obtain ⟨_, -, h⟩ := bind_ok_iff.1 h
    obtain rfl := PowerButtonWritePlan.write.inj (Except.ok.inj h)
    rw [PowerButtonWrite.slots, mem_append, mem_append] at hs
    rcases hs with (hs | hs) | hs <;> split at hs
    · next hw => exact elapsed ha hw ((lastWrite_ac hs).symm.trans hl)
    · cases hs
    · next hw =>
      obtain rfl := mem_singleton.1 hs
      exact elapsed hc hw hl
    · cases hs
    · next hw => exact elapsed hb hw ((lastWrite_battery hs).symm.trans hl)
    · cases hs

theorem plan_skip {r : Request} (h : r.plan shadow now = .ok .skipAlreadyCurrent)
    (hc : r.colour zone = some rgb) : shadow.rgb zone = some rgb := by
  unfold Request.plan planPowerButtonUpdatesWithShadow at h
  dsimp only at h
  split at h
  · next hw =>
    rw [Bool.and_eq_true, Bool.not_eq_true'] at hw
    cases zone with
    | ac => simpa [hc, PowerButtonShadow.rgb] using hw.1
    | battery => simpa [hc, PowerButtonShadow.rgb] using hw.2
  · obtain ⟨-, h⟩ := then_ok_iff.1 h
    obtain ⟨-, h⟩ := then_ok_iff.1 h
    obtain ⟨-, h⟩ := then_ok_iff.1 h
    obtain ⟨_, -, h⟩ := bind_ok_iff.1 h
    obtain ⟨_, -, h⟩ := bind_ok_iff.1 h
    cases h

theorem slots_nodup : w.slots.Nodup := by
  obtain ⟨_, ac, battery⟩ := w
  cases ac <;> cases battery <;> simp [PowerButtonWrite.slots]

theorem remember_of_mem (hs : slot ∈ w.slots) :
    (rememberPowerButtonWriteIn shadow w now).lastWrite slot = some now := by
  obtain ⟨_, ac, battery⟩ := w
  cases ac <;> cases battery <;> cases slot <;> first | rfl | simp [PowerButtonWrite.slots] at hs

theorem remember_cases : (rememberPowerButtonWriteIn shadow w now).lastWrite slot = some now ∨
      (rememberPowerButtonWriteIn shadow w now).lastWrite slot = shadow.lastWrite slot := by
  obtain ⟨_, ac, battery⟩ := w
  cases ac <;> cases battery <;> cases slot <;> simp [rememberPowerButtonWriteIn,
    PowerButtonShadow.lastWrite]

theorem remember_rgb :
    (rememberPowerButtonWriteIn shadow w now).rgb zone = (w.rgb zone).or (shadow.rgb zone) := by
  obtain ⟨_, ac, battery⟩ := w
  cases zone <;> cases ac <;> cases battery <;> rfl

theorem records_of_mem (hz : slot ∈ zone.slots) :
    (w.rgb zone = none ∧ slot ∉ w.slots) ∨ ∃ rgb, w.rgb zone = some rgb ∧ slot ∈ w.slots ∧
      powerSlotRecords w.colours slot = powerSlotRecords ⟨rgb, rgb⟩ slot := by
  obtain ⟨colours, ac, battery⟩ := w
  cases zone with
  | ac =>
    rcases mem_pair.1 hz with rfl | rfl <;> cases ac <;> cases battery <;>
      simp [PowerButtonWrite.slots, PowerButtonWrite.rgb, powerSlotRecords]
  | battery =>
    rcases mem_cons.1 hz with rfl | hz
    · cases ac <;> cases battery <;>
        simp [PowerButtonWrite.slots, PowerButtonWrite.rgb, powerSlotRecords]
    · rcases mem_pair.1 hz with rfl | rfl <;> cases ac <;> cases battery <;>
        simp [PowerButtonWrite.slots, PowerButtonWrite.rgb, powerSlotRecords]

theorem send_ok (h : ∀ n, hid.answer n = .ok ()) (colours : PowerButtonColours)
    (slots : List PowerButtonSlot) (n : ℕ) (fw : Firmware) :
    ∃ starts fw', sendPowerButtonSlots hid colours slots n fw = (.ok (), starts, fw') ∧
      starts.map (·.1) = slots ∧ (∀ e ∈ starts, ∃ k, e.2 = hid.sentAt k) ∧
      ∀ slot, fw' slot = if slot ∈ slots then powerSlotRecords colours slot else fw slot := by
  induction slots generalizing n fw with
  | nil => exact ⟨[], fw, rfl, rfl, by simp, by simp⟩
  | cons slot rest ih =>
    obtain ⟨starts, fw', hs, hm, ht, hf⟩ :=
      ih (n + 5) (update fw slot (powerSlotRecords colours slot))
    have hc : checkAll hid.answer (range' n 5) = .ok () := checkAll_ok_iff.2 fun k _ => h k
    refine ⟨(slot, hid.sentAt n) :: starts, fw', ?_, by rw [map_cons, hm], ?_, fun x => ?_⟩
    · simp [sendPowerButtonSlots, hc, hs]
    · exact forall_mem_cons.2 ⟨⟨n, rfl⟩, ht⟩
    · rw [hf]
      by_cases hx : x = slot
      · subst hx
        simp
      · simp [hx]

end

structure Invariant (s : State) : Prop where
  spaced : Spaced s.starts
  past : ∀ e ∈ s.starts, e.2 ≤ s.clock
  remembered : ∀ e ∈ s.starts, ∃ last, s.shadow.lastWrite e.1 = some last ∧ e.2 ≤ last
  shown : ∀ zone rgb, s.shadow.rgb zone = some rgb → Holds s.firmware zone rgb

theorem next_invariant (h : Invariant s) (ht : u.Timely s.clock) (hg : Guard s u) :
    Invariant (next s u) := by
  have hle : s.clock ≤ u.finished := ht.begins.trans ((ht.sends 0).1.trans (ht.sends 0).2)
  have hpa : ∀ e ∈ s.starts, e.2 ≤ u.finished := fun e he => (h.past e he).trans hle
  unfold next
  split
  · next w hp =>
    obtain ⟨starts, fw, hs, hm, hk, hf⟩ := send_ok hg w.colours w.slots 0 s.firmware
    have hn : ∀ e ∈ starts, e.1 ∈ w.slots ∧ u.now ≤ e.2 ∧ e.2 ≤ u.finished := by
      intro e he
      obtain ⟨k, hk⟩ := hk e he
      exact ⟨hm ▸ mem_map_of_mem he, hk ▸ ht.sends k⟩
    simp only [hs]
    refine ⟨?_, ?_, ?_, fun zone rgb hr slot hz => ?_⟩
    · refine pairwise_append.2 ⟨h.spaced, ?_, fun a ha b hb hab => ?_⟩
      · have hd : starts.Pairwise fun a b => a.1 ≠ b.1 := pairwise_map.1 (hm ▸ slots_nodup)
        exact hd.imp fun hne heq => absurd heq hne
      · obtain ⟨last, hl, hal⟩ := h.remembered a ha
        have hla := plan_elapsed hp (hab ▸ (hn b hb).1) hl
        exact (Nat.add_le_add_right hal _).trans (hla.trans (hn b hb).2.1)
    · intro e he
      exact (mem_append.1 he).elim (hpa e) fun he => (hn e he).2.2
    · intro e he
      rcases mem_append.1 he with he | he
      · rcases remember_cases with hl | hl
        · exact ⟨_, hl, hpa e he⟩
        · obtain ⟨last, hr, hle⟩ := h.remembered e he
          exact ⟨last, hl.trans hr, hle⟩
      · exact ⟨_, remember_of_mem (hn e he).1, (hn e he).2.2⟩
    · change (rememberPowerButtonWriteIn s.shadow w u.finished).rgb zone = some rgb at hr
      rw [remember_rgb] at hr
      change fw slot = _
      rcases records_of_mem (w := w) hz with ⟨hw, hm⟩ | ⟨rgb', hw, hm, hc⟩
      · rw [hw] at hr
        rw [hf, if_neg hm]
        exact h.shown zone rgb hr slot hz
      · rw [hw, Option.some_or] at hr
        cases hr
        rw [hf, if_pos hm, hc]
  · exact ⟨h.spaced, hpa, h.remembered, h.shown⟩

def Initial (s : State) : Prop := ∃ clock firmware, s = { clock := clock, firmware := firmware }

theorem reachable_invariant (h : Reachable Initial Step Guard s) : Invariant s := by
  refine h.holds Invariant ?_ ?_
  · rintro s ⟨clock, firmware, rfl⟩
    refine ⟨Pairwise.nil, by simp, by simp, fun zone rgb hr => ?_⟩
    cases zone <;> cases hr
  · rintro s u t hs hg ⟨ht, rfl⟩
    exact next_invariant hs ht hg

/-- Where no report fails, no slot is rewritten within five seconds. -/
theorem writes_spaced (s : State) (h : Reachable Initial Step Guard s) : Spaced s.starts :=
  (reachable_invariant h).spaced

/-- Where no report fails, a request that is skipped finds its colours shown. -/
theorem skipped_colours_shown (s : State) (h : Reachable Initial Step Guard s) (r : Request)
    (now : ℕ) (hskip : r.plan s.shadow now = .ok .skipAlreadyCurrent) (zone : PowerButtonZone)
    (rgb : Rgb) (hcolour : r.colour zone = some rgb) : Holds s.firmware zone rgb :=
  (reachable_invariant h).shown zone rgb (plan_skip hskip hcolour)

namespace Sample

/-- Both colours, sent at one time; report `failing` is refused. -/
def update (now : ℕ) (ac battery : Rgb) (failing : Option ℕ) : Update where
  request := .slots (some ac) (some battery)
  now := now
  hid := ⟨fun _ => now, fun n => if failing = some n then .error "refused" else .ok (), []⟩
  finished := now

def red : Rgb := ⟨255, 0, 0⟩

def blue : Rgb := ⟨0, 0, 255⟩

theorem timely (h : clock ≤ now) : (update now ac battery failing).Timely clock :=
  ⟨h, fun _ => ⟨le_rfl, le_rfl⟩⟩

end Sample

open Sample in
theorem rewritten_after_five_seconds :
    let first := next {} (update 0 red blue none)
    let second := next first (update powerWriteMinInterval blue red none)
    second.starts.length = 12 ∧ Spaced second.starts := by
  intro first second
  refine ⟨by decide, writes_spaced second ?_⟩
  exact .step (l := update powerWriteMinInterval blue red none)
    (.step (l := update 0 red blue none) (.initial ⟨0, _, rfl⟩) (fun _ => rfl) ⟨timely le_rfl, rfl⟩)
    (fun _ => rfl) ⟨timely (by decide), rfl⟩

open Sample in
theorem repeated_request_is_skipped :
    let first := next {} (update 0 red blue none)
    (Request.static .ac red).plan first.shadow 1 = .ok .skipAlreadyCurrent ∧
      Holds first.firmware .ac red := by
  intro first
  have hr : Reachable Initial Step Guard first := .step (l := update 0 red blue none)
    (.initial ⟨0, _, rfl⟩) (fun _ => rfl) ⟨timely le_rfl, rfl⟩
  exact ⟨rfl, skipped_colours_shown first hr (.static .ac red) 1 rfl .ac red rfl⟩

namespace Counterexample

open Sample

/-- The second report fails; the retry starts the same slot again at once. -/
theorem failed_write_is_repeated :
    let failed := next {} (update 0 red blue (some 1))
    let retried := next failed (update 1 red blue none)
    Reachable Initial Step (fun _ _ => True) retried ∧ ¬ Spaced retried.starts := by
  intro failed retried
  refine ⟨?_, ?_⟩
  · exact .step (l := update 1 red blue none)
      (.step (l := update 0 red blue (some 1)) (.initial ⟨0, _, rfl⟩) trivial ⟨timely le_rfl, rfl⟩)
      trivial ⟨timely (by decide), rfl⟩
  · intro h
    have hs : retried.starts.take 2 = [(.acSleep, 0), (.acSleep, 1)] := by decide
    have := h.sublist (take_sublist 2 _)
    simp [hs, powerWriteMinInterval] at this

/-- The write of other colours fails after the AC slots; the old colours are skipped. -/
theorem overwritten_colour_is_skipped :
    let first := next {} (update 0 red blue none)
    let torn := next first (update powerWriteMinInterval blue red (some 10))
    Reachable Initial Step (fun _ _ => True) torn ∧
      (Request.static .ac red).plan torn.shadow (powerWriteMinInterval + 1) =
        .ok .skipAlreadyCurrent ∧ ¬ Holds torn.firmware .ac red := by
  intro first torn
  refine ⟨?_, rfl, fun h => ?_⟩
  · exact .step (l := update powerWriteMinInterval blue red (some 10))
      (.step (l := update 0 red blue none) (.initial ⟨0, _, rfl⟩) trivial ⟨timely le_rfl, rfl⟩)
      trivial ⟨timely (by decide), rfl⟩
  · exact absurd (h .acActive (by decide)) (by decide)

end Counterexample

end PowerButtonFirmware
