/-
An inspection of a capture that has been cut short.

The front of a capture is some whole records and a part of the one behind them.  Where the cut lies
in that record settles what is found: a part that is shorter than a record header passes for the end
of the capture, any longer one does not.

* `Pcap.exists_cut` — the front of a file of frames of one length;
* `inspectRecords_of_torn` — a record whose frame has been cut;
* `inspectRecords_of_cut` — what is found of less than a record;
* `ofFile_of_cut`, `verdict_of_cut` — the front of what a run has written.
-/
import SwapCapture.Proofs.Inspection.Language
import SwapCapture.Proofs.Plan.Meaning

namespace SwapCapture

namespace Pcap

/-- The front of a file of frames of one length: `k` whole records, and `r` bytes of what is behind
them. -/
theorem exists_cut {base : UInt32} {frames : List Bytes} {n k r : Nat} {front : Bytes}
    (uniform : ∀ frame ∈ frames, frame.length = n) (cut : front <+: image base frames)
    (length_eq : front.length = 24 + (16 + n) * k + r) :
    k ≤ frames.length ∧ ∃ torn, front = image base (frames.take k) ++ torn ∧ torn.length = r ∧
      torn <+: (piecesFrom base k (frames.drop k)).flatten := by
  have front_le := cut.length_le
  rw [length_image_of_uniform base uniform, length_eq] at front_le
  have k_le : k ≤ frames.length := by
    have fewer : (16 + n) * k ≤ (16 + n) * frames.length := by omega
    exact Nat.le_of_mul_le_mul_left fewer (by omega)
  have taken_length : (frames.take k).length = k := List.length_take_of_le k_le
  have whole_length : (image base (frames.take k)).length = 24 + (16 + n) * k := by
    rw [length_image_of_uniform base fun frame mem => uniform frame (List.mem_of_mem_take mem),
      taken_length]
  -- the file is its first `k` records and the others
  have split : image base frames
      = image base (frames.take k) ++ (piecesFrom base k (frames.drop k)).flatten := by
    have parts := image_append base (frames.take k) (frames.drop k)
    rwa [List.take_append_drop, taken_length] at parts
  -- both are fronts of the file, so the shorter one is a front of the other
  have whole : image base (frames.take k) <+: front := by
    refine List.prefix_of_prefix_length_le ⟨_, split.symm⟩ cut ?_
    omega
  obtain ⟨torn, rfl⟩ := whole
  rw [split, List.prefix_append_right_inj] at cut
  rw [List.length_append, whole_length] at length_eq
  exact ⟨k_le, torn, rfl, by omega, cut⟩

end Pcap

namespace Inspection

open Bytes Pcap

/-- The header of a record promises more bytes than there are, so the defect is `truncated`. -/
theorem inspectRecords_of_torn {base : UInt32} {n : Nat} {frame part : Bytes}
    (room : n < Timestamp.room base) (short : frame.length < 2 ^ 32)
    (torn : part.length < frame.length) :
    inspectRecords n (spanOf base n) (headerAt base n frame ++ part)
      = ⟨[], .error (.record n .truncated)⟩ := by
  have stops : inspectRecord (lastTime base n) (headerAt base n frame) part
      = .error .truncated := by
    rw [inspectRecord_clocked part room short, splitExact?_eq_none_iff.mpr torn,
      Option.elim_none]
  rw [← map_snd_spanOf] at stops
  exact inspectRecords_defect (length_headerAt base n frame) stops

/-- What is left behind the records that have been passed, if it is less than a record. -/
theorem inspectRecords_of_cut {base : UInt32} {k : Nat} {behind : List Bytes} {torn : Bytes}
    (room : k + behind.length ≤ Timestamp.room base)
    (uniform : ∀ frame ∈ behind, frame.length = 90)
    (cut : torn <+: (piecesFrom base k behind).flatten) (short : torn.length < 106) :
    inspectRecords k (spanOf base k) torn
      = ⟨[], if torn.length < 16 then .ok ⟨k, spanOf base k⟩
          else .error (.record k .truncated)⟩ := by
  by_cases ends : torn.length < 16
  · rw [inspectRecords_of_short _ _ ends, if_pos ends]
  rw [if_neg ends]
  -- there is one more record, whose header is whole and whose frame is not
  cases behind with
  | nil =>
    have empty : torn = [] := List.prefix_nil.mp cut
    rw [empty] at ends
    exact absurd (by decide) ends
  | cons frame others =>
    rw [List.length_cons] at room
    have frame_length := uniform frame List.mem_cons_self
    rw [piecesFrom, List.flatten_cons] at cut
    have header : headerAt base k frame <+: torn := by
      refine List.prefix_of_prefix_length_le (List.prefix_append _ _) cut ?_
      rw [length_headerAt]
      omega
    obtain ⟨part, rfl⟩ := header
    rw [List.length_append, length_headerAt] at short
    exact inspectRecords_of_torn (by omega) (by omega) (by omega)

/-- The front of what a run has written, cut `r` bytes behind `k` whole records. -/
theorem ofFile_of_cut {δ : Type} [Device δ] {plan : Plan} {device after : δ} {summary : Summary}
    {front : Bytes} {k r : Nat} (path : String) (empty : Device.contents device = [])
    (h : plan.run device = (.ok summary, after)) (cut : front <+: Device.contents after)
    (length_eq : front.length = 24 + 106 * k + r) (short : r < 106) :
    k ≤ plan.count.toNat ∧ Inspection.ofFile path (some front)
      = ⟨rowsFrom plan.base 0 (plan.frames.take k),
          if r < 16 then .ok ⟨k, spanOf plan.base k⟩ else .error (.record k .truncated)⟩ := by
  obtain ⟨room, -, held⟩ := Plan.eq_summaryOf_of_run h
  rw [held, empty, List.nil_append] at cut
  rw [← Plan.length_frames] at room ⊢
  obtain ⟨k_le, torn, rfl, rfl, behind⟩ :=
    exists_cut (Plan.length_of_mem_frames plan) cut length_eq
  refine ⟨k_le, ?_⟩
  have taken_length : (plan.frames.take k).length = k := List.length_take_of_le k_le
  -- the records before the cut are passed, and what is left of the next one decides
  have passed := of_image_append torn (by rw [taken_length]; exact Nat.le_trans k_le room)
    (fun frame mem => Plan.short_of_mem_frames plan frame (List.mem_of_mem_take mem))
    (fun frame mem => inspectFrame_of_mem_frames plan frame (List.mem_of_mem_take mem))
  have stopped := inspectRecords_of_cut (by rw [List.length_drop]; omega)
    (fun frame mem => Plan.length_of_mem_frames plan frame (List.mem_of_mem_drop mem)) behind short
  simp only [taken_length, stopped, List.append_nil] at passed
  exact passed

/-- **Where a cut is noticed.** Of what a run has written let any `front` be left.  An inspection of
it fails just if the cut lies in the file header, or in a record but not in the header of that
record.  Of a cut in a record header nothing is noticed, and `front` passes for the capture of the
records before it. -/
theorem verdict_of_cut {δ : Type} [Device δ] {plan : Plan} {device after : δ} {summary : Summary}
    {front : Bytes} (path : String) (empty : Device.contents device = [])
    (h : plan.run device = (.ok summary, after)) (cut : front <+: Device.contents after) :
    let findings := Inspection.ofFile path (some front)
    ((∃ defect, findings.verdict = .error defect) ↔
      front.length < 24 ∨ 16 ≤ (front.length - 24) % 106) ∧
    (front.length < 24 → findings = ⟨[], .error .noHeader⟩) ∧
    ∀ k r, front.length = 24 + 106 * k + r → r < 106 →
      (findings.lines true).length = k ∧
      findings.verdict
        = if r < 16 then .ok ⟨k, spanOf plan.base k⟩ else .error (.record k .truncated) := by
  intro findings
  have headless (few : front.length < 24) : findings = ⟨[], .error .noHeader⟩ := by
    show Inspection.of front = _
    rw [Inspection.of, splitExact?_eq_none_iff.mpr (show _ < fileHeaderSize from few)]
  have found {k r : Nat} (length_eq : front.length = 24 + 106 * k + r) (short : r < 106) :=
    ofFile_of_cut path empty h cut length_eq short
  refine ⟨?_, headless, ?_⟩
  · by_cases few : front.length < 24
    · rw [headless few]
      exact iff_of_true ⟨_, rfl⟩ (.inl few)
    -- the quotient is the number of whole records, the remainder what is left behind them
    have division := Nat.div_add_mod (front.length - 24) 106
    have remainder := Nat.mod_lt (front.length - 24) (show 0 < 106 by decide)
    obtain ⟨-, found⟩ := found (k := (front.length - 24) / 106) (by omega) remainder
    rw [show findings = _ from found]
    by_cases ends : (front.length - 24) % 106 < 16
    · rw [if_pos ends]
      refine iff_of_false ?_ (by omega)
      rintro ⟨defect, same⟩
      cases same
    · rw [if_neg ends]
      exact iff_of_true ⟨_, rfl⟩ (.inr (by omega))
  · intro k r length_eq short
    obtain ⟨k_le, found⟩ := found length_eq short
    rw [show findings = _ from found]
    refine ⟨?_, rfl⟩
    rw [lines, if_pos rfl, List.length_map, length_rowsFrom, List.length_take,
      Plan.length_frames, Nat.min_eq_left k_le]

/-- The plan that asks for nothing special, cut seventy bytes behind its first record. -/
theorem verdict_of_cut_frame :
    ∃ summary after, Plan.default.run Bounded.memory = (.ok summary, after) ∧
      let findings := Inspection.ofFile "capture.pcap" (some ((Device.contents after).take 200))
      findings.verdict = .error (.record 1 .truncated) ∧ (findings.lines true).length = 1 := by
  have room : Plan.default.count.toNat ≤ Timestamp.room Plan.default.base := by decide
  obtain ⟨after, written⟩ := Plan.run_of_accepting Bounded.accepting_memory room
  obtain ⟨-, -, held⟩ := Plan.eq_summaryOf_of_run written
  have long : 200 ≤ (Device.contents after).length := by
    rw [held, List.length_append, Plan.length_image_frames]
    exact Nat.le_trans (by decide) (Nat.le_add_left _ _)
  obtain ⟨-, -, found⟩ :=
    verdict_of_cut "capture.pcap" rfl written (List.take_prefix 200 (Device.contents after))
  obtain ⟨shown, verdict⟩ := found 1 70 (List.length_take_of_le long) (by decide)
  exact ⟨_, after, written, verdict, shown⟩

/-- Two records, of which the second is cut in its header: the first one passes for all there is. -/
theorem passes_of_cut_header :
    ∃ summary after, Plan.run { Plan.default with count := 2 } Bounded.memory
        = (.ok summary, after) ∧
      let front := (Device.contents after).take 145
      front.length = 145 ∧ front.length < (Device.contents after).length ∧
      (∀ k, front.length ≠ 24 + 106 * k) ∧
      ∃ verdict, (Inspection.ofFile "capture.pcap" (some front)).verdict = .ok verdict ∧
        verdict.text =
          "Read 1 frames, all consistent. Timestamps 1700000000.000000 .. 1700000000.000000." := by
  let plan : Plan := { Plan.default with count := 2 }
  have room : plan.count.toNat ≤ Timestamp.room plan.base := by decide
  obtain ⟨after, written⟩ := Plan.run_of_accepting Bounded.accepting_memory room
  obtain ⟨-, -, held⟩ := Plan.eq_summaryOf_of_run written
  have length_eq : (Device.contents after).length = 236 := by
    rw [held, List.length_append, Plan.length_image_frames]
    rfl
  have front_length : ((Device.contents after).take 145).length = 24 + 106 * 1 + 15 :=
    List.length_take_of_le (by omega)
  -- fifteen bytes of the second header are left
  obtain ⟨-, found⟩ := ofFile_of_cut "capture.pcap" rfl written
    (List.take_prefix 145 (Device.contents after)) front_length (by decide)
  refine ⟨_, after, written, front_length, by omega, by omega, ?_⟩
  rw [found]
  exact ⟨_, rfl, by decide +kernel⟩

end Inspection

end SwapCapture
