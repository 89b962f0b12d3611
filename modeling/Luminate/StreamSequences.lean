import Luminate.FrameStreams
import Luminate.SaturatingCounter

/-! # Sequence numbers of a frame stream

The uploads `record_frame_upload` accepts on one stream, over any run of uploads to
any targets. The next expected sequence number saturates at the largest `u64`. -/
namespace StreamSequences

open DeviceModel TargetTopology DaemonModel FrameStreams

def maxSequence : ℕ := 2 ^ 64 - 1

structure Upload where
  now : ℕ
  target : TargetId
  envelope : FrameEnvelope
  bounded : envelope.sequence ≤ maxSequence

variable (minInterval : ℕ → ℕ)

def record (state : DaemonState) (upload : Upload) : Except DaemonError Bool × DaemonState :=
  recordFrameUpload minInterval upload.now state upload.target upload.envelope

/-- The sequence numbers accepted on `target` by a run of uploads, oldest first. -/
def accepted (target : TargetId) : DaemonState → List Upload → List ℕ
  | _, [] => []
  | state, upload :: rest =>
    let later := accepted target (record minInterval state upload).2 rest
    if upload.target = target ∧ (record minInterval state upload).1.isOk then
      upload.envelope.sequence :: later
    else later

/-- The stream on a target, unless the topology has changed since it began. -/
def live (state : DaemonState) (target : TargetId) : Option FrameStream :=
  (state.frameStreams.lookup target).filter (·.topologyGeneration = state.topologyGeneration)

/-- The upload is for the live stream of `target`. -/
def addressed (state : DaemonState) (target : TargetId) (upload : Upload) : Bool :=
  upload.target = target &&
    (live state target).any (·.generation = upload.envelope.generation)

/-- The uploads for the stream of `target` with the largest sequence number. -/
def finalUploads (state : DaemonState) (target : TargetId) (uploads : List Upload) :
    List Upload :=
  uploads.filter fun upload =>
    addressed state target upload && upload.envelope.sequence = maxSequence

variable {minInterval} {target : TargetId}

theorem live_eq_some_iff :
    live st target = some stream ↔ st.frameStreams.lookup target = some stream ∧
      stream.topologyGeneration = st.topologyGeneration := by
  simp [live, Option.filter_eq_some_iff]

theorem addressed_iff : addressed st target upload = true ↔ upload.target = target ∧
    ∃ stream, live st target = some stream ∧ stream.generation = upload.envelope.generation := by
  rw [addressed, Bool.and_eq_true, decide_eq_true_iff]
  refine and_congr_right fun _ => ?_
  cases live st target <;> simp

variable (minInterval) in
/-- An upload for another target, another generation or an outdated stream is not
accepted on `target`, and leaves its live stream alone. -/
theorem record_unaddressed (h : addressed st target upload = false) :
    ¬ (upload.target = target ∧ (record minInterval st upload).1.isOk = true) ∧
      live (record minInterval st upload).2 target = live st target := by
  have hto := (recordFrameUpload_feeds minInterval upload.now st upload.target
    upload.envelope).topology
  by_cases ht : upload.target = target
  · subst ht
    have hot : ∀ stream, live st upload.target = some stream →
        stream.generation ≠ upload.envelope.generation := by
      intro stream hs hg
      have := addressed_iff.2 ⟨rfl, stream, hs, hg⟩
      simp [h] at this
    unfold record recordFrameUpload
    split
    · exact ⟨by simp [Except.isOk, Except.toBool], rfl⟩
    · next stream hs =>
      split
      · next ho =>
        -- the stream is dropped, and it was not live before
        refine ⟨by simp [Except.isOk, Except.toBool], ?_⟩
        have hb : live st upload.target = none := by simp [live, hs, ho]
        rw [hb, live, lookup_dropStream, if_pos rfl, Option.filter_none]
      · next hc =>
        have hli := live_eq_some_iff.2 ⟨hs, not_not.1 hc⟩
        rw [if_pos (hot stream hli).symm]
        exact ⟨by simp [Except.isOk, Except.toBool], rfl⟩
  · refine ⟨fun ha => ht ha.1, ?_⟩
    have hl : (record minInterval st upload).2.frameStreams.lookup target =
        st.frameStreams.lookup target :=
      lookup_recordFrameUpload_of_ne minInterval (Ne.symm ht)
    rw [live, hl, record, hto, live]

variable (minInterval) in
theorem record_addressed (hli : live st upload.target = some stream)
    (hg : stream.generation = upload.envelope.generation) :
    (upload.envelope.sequence < stream.nextSequence ∧
      (record minInterval st upload).1.isOk = false ∧ (record minInterval st upload).2 = st) ∨
    (stream.nextSequence ≤ upload.envelope.sequence ∧ (record minInterval st upload).1.isOk = true ∧
      ∃ fed, live (record minInterval st upload).2 upload.target = some fed ∧
        fed.generation = stream.generation ∧
        fed.nextSequence = min (upload.envelope.sequence + 1) maxSequence) := by
  obtain ⟨hl, ht⟩ := live_eq_some_iff.1 hli
  have hst : record minInterval st upload = recordFrameUpload minInterval upload.now st
    upload.target upload.envelope := rfl
  unfold recordFrameUpload at hst
  simp only [hl, ht, hg, ne_eq, not_true, if_false] at hst
  by_cases hs : upload.envelope.sequence < stream.nextSequence
  · rw [if_pos hs] at hst
    rw [hst]
    exact .inl ⟨hs, rfl, rfl⟩
  · rw [if_neg hs] at hst
    rw [hst]
    refine .inr ⟨Nat.le_of_not_lt hs, rfl, ?_⟩
    refine ⟨_, live_eq_some_iff.2 ⟨AList.lookup_insert _, ?_⟩, ?_, ?_⟩
    · rfl
    · exact hg.symm
    · rfl

def expected (state : DaemonState) (target : TargetId) : ℕ :=
  ((live state target).map (·.nextSequence)).getD 0

theorem accepted_cons_unaddressed (h : addressed st target upload = false) :
    accepted minInterval target st (upload :: rest) =
      accepted minInterval target (record minInterval st upload).2 rest :=
  if_neg (record_unaddressed minInterval h).1

theorem accepted_taken (st : DaemonState) : SaturatingCounter.Taken maxSequence (expected st target)
      (accepted minInterval target st uploads) := by
  induction uploads generalizing st with
  | nil => exact .nil
  | cons upload rest ih =>
    cases ha : addressed st target upload with
    | false =>
      have hli := (record_unaddressed minInterval ha).2
      rw [accepted_cons_unaddressed ha, expected, ← hli]
      exact ih _
    | true =>
      obtain ⟨rfl, stream, hli, hg⟩ := addressed_iff.1 ha
      have he : expected st upload.target = stream.nextSequence := by simp [expected, hli]
      rw [accepted, he]
      obtain ⟨-, hr, hsa⟩ | ⟨hn, hok, fed, hf, -, hs⟩ := record_addressed minInterval hli hg
      · simp only [hr, hsa, and_false, Bool.false_eq_true, if_false]
        exact he ▸ ih st
      · simp only [hok, and_self, if_true]
        have hl := ih (record minInterval st upload).2
        rw [expected, hf] at hl
        refine .cons hn upload.bounded ?_
        simpa [hs] using hl

theorem addressed_congr {next : DaemonState}
    (h : (live next target).map (·.generation) = (live st target).map (·.generation)) :
    addressed next target = addressed st target := by
  funext upload
  have ha : ∀ s, (live s target).any (·.generation = upload.envelope.generation) =
      ((live s target).map (·.generation)).any (· = upload.envelope.generation) := by
    intro s
    cases live s target <;> rfl
  rw [addressed, addressed, ha, ha, h]

theorem finalUploads_congr {next : DaemonState} (h : addressed next target = addressed st target) :
    finalUploads next target uploads = finalUploads st target uploads := by
  rw [finalUploads, finalUploads, h]

theorem count_accepted (st : DaemonState) (hb : expected st target ≤ maxSequence) :
    (accepted minInterval target st uploads).count maxSequence =
      (finalUploads st target uploads).length := by
  induction uploads generalizing st with
  | nil => rfl
  | cons upload rest ih =>
    cases ha : addressed st target upload with
    | false =>
      have hli := (record_unaddressed minInterval ha).2
      have hsa : addressed (record minInterval st upload).2 target =
          addressed st target := addressed_congr (by rw [hli])
      rw [accepted_cons_unaddressed ha, ih _ (by rwa [expected, hli]), finalUploads_congr hsa]
      simp [finalUploads, ha]
    | true =>
      obtain ⟨rfl, stream, hli, hg⟩ := addressed_iff.1 ha
      have hn : stream.nextSequence ≤ maxSequence := by simpa [expected, hli] using hb
      rw [accepted]
      obtain ⟨hst, hr, hsa⟩ | ⟨-, hok, fed, hf, hge, hs⟩ := record_addressed minInterval hli hg
      · have hbe : upload.envelope.sequence ≠ maxSequence := by omega
        simp only [hr, hsa, and_false, Bool.false_eq_true, if_false]
        rw [ih st hb]
        simp [finalUploads, hbe]
      · have hsa : addressed (record minInterval st upload).2 upload.target =
            addressed st upload.target :=
          addressed_congr (by rw [hf, hli, Option.map_some, Option.map_some, hge])
        have hl := ih (record minInterval st upload).2 (by
          simp [expected, hf, hs])
        simp only [hok, and_self, if_true]
        rw [List.count_cons, hl, finalUploads_congr hsa]
        by_cases hm : upload.envelope.sequence = maxSequence
        · simp [finalUploads, ha, hm]
        · simp [finalUploads, hm]

/-- The accepted sequence numbers increase exactly if at most one upload for the
stream carries the largest `u64`. -/
theorem accepted_uploads_increase (minInterval : ℕ → ℕ) (target : TargetId)
    (state : DaemonState) (stream : FrameStream) (uploads : List Upload)
    (hstream : state.frameStreams.lookup target = some stream)
    (hbounded : stream.nextSequence ≤ maxSequence) :
    (accepted minInterval target state uploads).Pairwise (· < ·) ↔
      (finalUploads state target uploads).length ≤ 1 := by
  have he : expected state target ≤ maxSequence := by
    rw [expected]
    cases hli : live state target with
    | none => exact Nat.zero_le _
    | some found =>
      obtain ⟨hl, -⟩ := live_eq_some_iff.1 hli
      cases hstream.symm.trans hl
      exact hbounded
  rw [(accepted_taken state).pairwise_iff, count_accepted state he]

namespace Sample

open FrameStreams.Sample

def idle : DaemonState := { topology := fromDevices [strip] }

def streaming : DaemonState :=
  { idle with frameStreams := idle.frameStreams.insert stripTarget (startedStream idle 1) }

def frame (sequence : ℕ) (h : sequence ≤ maxSequence) : Upload :=
  ⟨0, stripTarget, ⟨1, sequence, .full [], true⟩, h⟩

/-- Frames 0, 1 and 2, with frame 1 arriving once more at the end. -/
def frames : List Upload :=
  [frame 0 (by decide), frame 1 (by decide), frame 2 (by decide), frame 1 (by decide)]

end Sample

open Sample in
/-- The frame sent a second time is refused. -/
theorem repeated_frame_refused : accepted (fun _ => 0) stripTarget streaming frames = [0, 1, 2] ∧
      (accepted (fun _ => 0) stripTarget streaming frames).Pairwise (· < ·) := by
  refine ⟨by decide +kernel, ?_⟩
  exact (accepted_uploads_increase (fun _ => 0) stripTarget streaming (startedStream idle 1) frames
    rfl (by decide)).2 (by decide +kernel)

open Sample in
/-- Once the largest sequence number has been accepted, it is accepted again. -/
theorem Counterexample.final_frame_repeated :
    beginFrameStream idle stripTarget = .ok (1, streaming) ∧
      accepted (fun _ => 0) stripTarget streaming
        [frame maxSequence (le_refl _), frame maxSequence (le_refl _)] =
        [maxSequence, maxSequence] ∧
      ¬ (accepted (fun _ => 0) stripTarget streaming
        [frame maxSequence (le_refl _), frame maxSequence (le_refl _)]).Pairwise (· < ·) := by
  have ha : accepted (fun _ => 0) stripTarget streaming
      [frame maxSequence (le_refl _), frame maxSequence (le_refl _)] =
      [maxSequence, maxSequence] := by decide +kernel
  refine ⟨rfl, ha, ?_⟩
  rw [ha]
  decide

end StreamSequences
