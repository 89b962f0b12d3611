import Luminate.Batching
import Luminate.Buffers
import Luminate.DeviceModel

/-! # Per-key keyboard reports

The assignment and colour tables of `protocol/keyboard_custom.rs` in the Alienware
plugin: each is spread over several reports of 64 bytes. -/
namespace KeyboardReports

open Batching Buffers DeviceModel List

abbrev Report := List UInt8

def keyboardMatrixPositions : ℕ := 140

def assignmentEntriesPerReport : ℕ := 60

def rgbRecordsPerReport : ℕ := 15

def header (subcommand : UInt8) : Report := 0xcc :: 0x8c :: subcommand :: replicate 61 0

def assignmentPositions (keyIndices : List UInt8) : Except String (List UInt8) :=
  keyIndices.mapM fun keyIndex =>
    if keyIndex = 0 then
      .error "keyboard key index 0 has no corresponding assignment-table position"
    else .ok (keyIndex - 1)

def assignmentTableReport (assigned : List UInt8) (entry : UInt8 × ℕ) : Option Report :=
  let base := entry.2 * assignmentEntriesPerReport
  let count := min assignmentEntriesPerReport (keyboardMatrixPositions - base)
  (range count).foldlM
    (fun report offset =>
      if base + offset < 256 ∧ UInt8.ofNat (base + offset) ∈ assigned then
        write report (4 + offset) 1
      else some report)
    (header entry.1)

def assignmentTableReports (assigned : List UInt8) : Option (List Report) :=
  [0x05, 0x06, 0x07].zipIdx.mapM (assignmentTableReport assigned)

def recordBytes (record : UInt8 × Rgb) : List UInt8 :=
  [record.1, record.2.r, record.2.g, record.2.b]

def rgbTableReport (records : List (UInt8 × Rgb)) : Option Report :=
  records.zipIdx.foldlM
    (fun report entry => writeFrom report (4 + entry.2 * 4) (recordBytes entry.1)) (header 0x02)

def rgbTableReports (entries : List (UInt8 × Rgb)) : Option (List Report) :=
  (chunks rgbRecordsPerReport entries).mapM rgbTableReport

/-- The records of a colour table; a record without a key is not used. -/
def decodeRecords : List UInt8 → List (UInt8 × Rgb)
  | key :: r :: g :: b :: rest =>
    if key = 0 then decodeRecords rest else (key, ⟨r, g, b⟩) :: decodeRecords rest
  | _ => []

def decodeReport (report : Report) : List (UInt8 × Rgb) := decodeRecords (report.drop 4)

def assignedAt (reports : List Report) (position : ℕ) : Bool :=
  reports[position / assignmentEntriesPerReport]?.bind
    (·[4 + position % assignmentEntriesPerReport]?) = some 1

theorem foldlM_records (records : List (UInt8 × Rgb)) (hp : p.length = 4 + k * 4) (post : Report) :
    (records.zipIdx k).foldlM
      (fun report entry => writeFrom report (4 + entry.2 * 4) (recordBytes entry.1))
      (p ++ (replicate (records.length * 4) 0 ++ post)) =
      some (p ++ (records.flatMap recordBytes ++ post)) := by
  induction records generalizing p k with
  | nil => simp
  | cons record rest ih =>
    have hl : (replicate 4 (0 : UInt8)).length = (recordBytes record).length := rfl
    have hw := writeFrom_append hl p (replicate (rest.length * 4) 0 ++ post)
    have hi := ih (p := p ++ recordBytes record) (k := k + 1) (by simp [hp, recordBytes]; omega)
    rw [zipIdx_cons, foldlM_cons, ← hp, length_cons, Nat.succ_mul, Nat.add_comm, replicate_add,
      append_assoc, hw]
    simpa using hi

theorem rgbTableReport_eq (hl : records.length ≤ 15) :
    rgbTableReport records = some (0xcc :: 0x8c :: 0x02 :: 0 :: (records.flatMap recordBytes ++
      replicate ((15 - records.length) * 4) 0)) := by
  have hf := foldlM_records records (p := [0xcc, 0x8c, 0x02, 0]) (k := 0) rfl
    (replicate ((15 - records.length) * 4) 0)
  rw [← replicate_add, show records.length * 4 + (15 - records.length) * 4 = 60 by omega] at hf
  exact hf

theorem decodeRecords_replicate : decodeRecords (replicate (n * 4) 0) = [] := by
  induction n with
  | zero => rfl
  | succ n ih => simpa [Nat.succ_mul, replicate_succ, decodeRecords] using ih

theorem decodeRecords_flatMap (hk : ∀ record ∈ records, record.1 ≠ 0) (post : Report) :
    decodeRecords (records.flatMap recordBytes ++ post) = records ++ decodeRecords post := by
  induction records with
  | nil => rfl
  | cons record rest ih =>
    obtain ⟨hr, hk⟩ := forall_mem_cons.1 hk
    simp [recordBytes, decodeRecords, hr, ih hk]

theorem decode_rgbTableReport (hl : records.length ≤ 15) (hk : ∀ record ∈ records, record.1 ≠ 0) :
    ∃ report, rgbTableReport records = some report ∧ report.length = 64 ∧
      decodeReport report = records := by
  refine ⟨_, rgbTableReport_eq hl, ?_, ?_⟩
  · have hf : (records.flatMap recordBytes).length = records.length * 4 := by
      simp [recordBytes, length_flatMap]
    simp [hf]
    omega
  · have hd := decodeRecords_flatMap hk (replicate ((15 - records.length) * 4) 0)
    rwa [decodeRecords_replicate, append_nil] at hd

theorem foldlM_marks (p : ℕ → Prop) [DecidablePred p] (report : Report) (count : ℕ)
    (hl : 4 + count ≤ report.length) : ∃ marked, (range count).foldlM (fun report offset =>
        if p offset then write report (4 + offset) 1 else some report) report = some marked ∧
      marked.length = report.length ∧
      ∀ i, marked[4 + i]? = if i < count ∧ p i then some 1 else report[4 + i]? := by
  induction count with
  | zero => exact ⟨report, rfl, rfl, by simp⟩
  | succ count ih =>
    obtain ⟨marked, hf, hm, hi⟩ := ih (by omega)
    rw [range_succ, foldlM_append, hf]
    by_cases hp : p count
    · refine ⟨marked.set (4 + count) 1, ?_, by simpa using hm, fun i => ?_⟩
      · simp [hp, write, show 4 + count < marked.length by omega]
      · rw [getElem?_set, hi]
        grind
    · refine ⟨marked, by simp [hp], hm, fun i => ?_⟩
      rw [hi]
      grind

theorem mapM_rgbTableReport {groups : List (List (UInt8 × Rgb))}
    (hl : ∀ group ∈ groups, group.length ≤ 15)
    (hk : ∀ group ∈ groups, ∀ record ∈ group, record.1 ≠ 0) :
    ∃ reports, groups.mapM rgbTableReport = some reports ∧ reports.map decodeReport = groups ∧
      ∀ report ∈ reports, report.length = 64 := by
  induction groups with
  | nil => exact ⟨[], rfl, rfl, by simp⟩
  | cons group rest ih =>
    obtain ⟨hg, hl⟩ := forall_mem_cons.1 hl
    obtain ⟨hz, hk⟩ := forall_mem_cons.1 hk
    obtain ⟨report, hr, hs, hd⟩ := decode_rgbTableReport hg hz
    obtain ⟨reports, hm, hds, hss⟩ := ih hl hk
    refine ⟨report :: reports, ?_, by rw [map_cons, hd, hds], forall_mem_cons.2 ⟨hs, hss⟩⟩
    rw [mapM_cons, hr, hm]
    rfl

theorem assignmentTableReport_ok (assigned : List UInt8) (entry : UInt8 × ℕ) :
    ∃ report, assignmentTableReport assigned entry = some report ∧ report.length = 64 ∧
      ∀ offset < 60, report[4 + offset]? = some 1 ↔ entry.2 * 60 + offset < 140 ∧
        UInt8.ofNat (entry.2 * 60 + offset) ∈ assigned := by
  have hl : (header entry.1).length = 64 := rfl
  obtain ⟨report, hr, hs, hi⟩ := foldlM_marks
    (fun offset => entry.2 * 60 + offset < 256 ∧ UInt8.ofNat (entry.2 * 60 + offset) ∈ assigned)
    (header entry.1) (min 60 (140 - entry.2 * 60)) (by omega)
  refine ⟨report, hr, hs.trans hl, fun offset ho => ?_⟩
  have hz : (header entry.1)[4 + offset]? = some 0 := by
    rw [header, show 4 + offset = offset + 1 + 1 + 1 + 1 by omega]
    simp only [getElem?_cons_succ, getElem?_replicate]
    exact if_pos (by omega)
  rw [hi, hz]
  grind

theorem assignmentTableReports_ok :
    ∃ reports, assignmentTableReports assigned = some reports ∧ reports.length = 3 ∧
      (∀ report ∈ reports, report.length = 64) ∧ ∀ position, assignedAt reports position = true ↔
        position < 140 ∧ UInt8.ofNat position ∈ assigned := by
  choose report hr hs hi using assignmentTableReport_ok assigned
  refine ⟨[0x05, 0x06, 0x07].zipIdx.map report, ?_, rfl, ?_, fun position => ?_⟩
  · simp [assignmentTableReports, hr]
  · exact forall_mem_map.2 fun entry _ => hs entry
  · have hm := Nat.mod_lt position (show 0 < 60 by decide)
    simp only [assignedAt, assignmentEntriesPerReport, getElem?_map, getElem?_zipIdx]
    by_cases hp : position / 60 < 3
    · obtain ⟨c, hc⟩ : ∃ c : UInt8, [0x05, 0x06, 0x07][position / 60]? = some c :=
        ⟨_, getElem?_eq_getElem hp⟩
      have hi := hi (c, position / 60) _ hm
      rw [Nat.div_add_mod'] at hi
      simpa [hc] using hi
    · rw [getElem?_eq_none (by simpa using hp)]
      simp
      omega

theorem assignmentPositions_ok {keys : List UInt8} (hk : ∀ key ∈ keys, key ≠ 0) :
    assignmentPositions keys = .ok (keys.map (· - 1)) := by
  induction keys with
  | nil => rfl
  | cons key rest ih =>
    obtain ⟨hz, hk⟩ := forall_mem_cons.1 hk
    have hi := ih hk
    rw [assignmentPositions] at hi ⊢
    rw [mapM_cons, if_neg hz, hi]
    rfl

theorem sub_one_eq_iff (hk : 1 ≤ key.toNat) (hp : position < 256) :
    key - 1 = UInt8.ofNat position ↔ key.toNat = position + 1 := by
  have hs : (key - 1).toNat = key.toNat - 1 :=
    UInt8.toNat_sub_of_le key 1 (UInt8.le_iff_toNat_le.mpr hk)
  rw [← UInt8.toNat_inj, hs, UInt8.toNat_ofNat_of_lt' hp]
  omega

/-- Both tables say what the map says, and no write leaves its report. -/
theorem reports_encode_keys (entries : List (UInt8 × Rgb))
    (hk : ∀ e ∈ entries, 1 ≤ e.1.toNat ∧ e.1.toNat ≤ keyboardMatrixPositions) :
    (∃ reports, rgbTableReports entries = some reports ∧ reports.flatMap decodeReport = entries ∧
      ∀ report ∈ reports, report.length = 64 ∧ (decodeReport report).length ≤ 15) ∧
    ∃ positions reports, assignmentPositions (entries.map Prod.fst) = .ok positions ∧
      assignmentTableReports positions = some reports ∧ reports.length = 3 ∧
      (∀ report ∈ reports, report.length = 64) ∧
      ∀ position, assignedAt reports position = true ↔ ∃ e ∈ entries, e.1.toNat = position + 1 := by
  have hn : ∀ e ∈ entries, e.1 ≠ 0 := by
    intro e he hz
    have := (hk e he).1
    simp [hz] at this
  constructor
  · have hf := flatten_chunks (show 0 < 15 by decide) entries
    have hl : ∀ group ∈ chunks 15 entries, group.length ≤ 15 := fun _ h => length_le_of_mem_chunks h
    obtain ⟨reports, hm, hd, hs⟩ := mapM_rgbTableReport hl fun group hg record hr =>
      hn record (hf ▸ mem_flatten_of_mem hg hr)
    refine ⟨reports, hm, by rw [flatMap_def, hd, hf], fun report hr => ⟨hs report hr, ?_⟩⟩
    exact hl _ (hd ▸ mem_map_of_mem hr)
  · obtain ⟨reports, hr, hl, hs, ha⟩ := assignmentTableReports_ok
    refine ⟨_, reports, assignmentPositions_ok (by simpa using hn), hr, hl, hs, fun position => ?_⟩
    rw [ha]
    simp only [mem_map, exists_exists_and_eq_and]
    constructor
    · rintro ⟨hp, e, he, heq⟩
      exact ⟨e, he, (sub_one_eq_iff (hk e he).1 (by omega)).mp heq⟩
    · rintro ⟨e, he, heq⟩
      obtain ⟨h1, h2⟩ := hk e he
      have hp : position < 140 := by
        rw [heq] at h2
        exact h2
      exact ⟨hp, e, he, (sub_one_eq_iff h1 (by omega)).mpr heq⟩

/-- Two keys, one of them in the last report of the assignment table. -/
theorem reports_encode_two_keys : ∃ positions reports,
    assignmentPositions [1, 140] = .ok positions ∧
      assignmentTableReports positions = some reports ∧ reports.length = 3 ∧
      assignedAt reports 139 = true := by
  obtain ⟨-, positions, reports, hp, hr, hl, -, ha⟩ :=
    reports_encode_keys [(1, ⟨255, 0, 0⟩), (140, ⟨0, 0, 255⟩)] (by decide)
  exact ⟨positions, reports, hp, hr, hl, (ha 139).mpr ⟨(140, ⟨0, 0, 255⟩), by simp, rfl⟩⟩

end KeyboardReports
