/-
What the capture of a run means.

Whoever reads the capture of a run knows only its bytes: a reader of capture files, a receiver of
frames and a decoder of records, none of which shares a definition with the writing side.  Read by
these three, the records are the announcements of the run one by one, in order and complete:

* `parse?_frameOf` — a receiver finds the record of the announcement in its frame;
* `read?_of_run` — a reader finds these frames in the file;
* `meaning_of_run` — the record at `i` is the announcement at `i`, and what the run reports agrees
  with the file.
-/
import SwapCapture.Proofs.Device.Room
import SwapCapture.Proofs.Pcap.Reader
import SwapCapture.Proofs.Plan.Classes
import SwapCapture.Proofs.Swap.Decoder

namespace SwapCapture.Plan

open Pcap

variable {δ : Type} [Device δ] {plan : Plan} {device after : δ} {summary : Summary}

/-- What a receiver makes of the frame of an announcement. -/
theorem parse?_frameOf (plan : Plan) (a : Announcement) :
    Frame.parse? (plan.frameOf a)
      = some (Frame.packetOf plan.ends a.identification (Record.encode a.intent)) := by
  rw [frameOf, Frame.bytesOf, Frame.parse?_layout _ _ _ _ (length_encode_le a.intent)]

/-- `read?` finds the frames of the announcements in the file, and nothing else. -/
theorem read?_of_run (empty : Device.contents device = [])
    (h : plan.run device = (.ok summary, after)) :
    read? (Device.contents after) = some ⟨fileHeader, storedFrom plan.base 0 plan.frames⟩ := by
  obtain ⟨-, -, held⟩ := eq_summaryOf_of_run h
  rw [held, empty, List.nil_append]
  exact read?_image plan.base (short_of_mem_frames plan)

/-- The length of a capture of 90-byte frames. -/
theorem length_image_frames (plan : Plan) :
    (image plan.base plan.frames).length = 24 + 106 * plan.count.toNat := by
  rw [length_image_of_uniform plan.base (length_of_mem_frames plan), length_frames]

/-- The frame at `i` carries the announcement at `i`. -/
theorem announced_at {i : Nat} (h : i < plan.count.toNat) :
    ∃ a, plan.announcements[i]? = some a ∧ plan.frames[i]? = some (plan.frameOf a) ∧
      Matches plan.profile plan.identification i a := by
  have i_lt : i < plan.announcements.length := by rwa [length_announcements]
  have at_i := List.getElem?_eq_getElem i_lt
  refine ⟨_, at_i, ?_, announcements_at at_i⟩
  rw [frames, List.getElem?_map, at_i]
  rfl

/-- What a run reports of the size of its file. -/
theorem toNat_bytes_of_run (empty : Device.contents device = [])
    (h : plan.run device = (.ok summary, after)) :
    (Device.contents after).length = 24 + 106 * plan.count.toNat ∧
      summary.capture.bytes.toNat = (Device.contents after).length := by
  obtain ⟨room, rfl, held⟩ := eq_summaryOf_of_run h
  have length_eq := length_image_frames plan
  -- a run that went well has no more frames than the clock has room for
  have fits : 24 + 106 * plan.count.toNat < 2 ^ 64 := by
    rw [Timestamp.room] at room
    omega
  rw [held, empty, List.nil_append]
  refine ⟨length_eq, UInt64.toNat_ofNat_of_lt' ?_⟩
  rwa [length_eq]

/-- **What a run means.** Whatever the plan and the device, the file of a run that went well holds
one record for each of the `announcements` and in their order: the packet around it carries the
addresses of the plan and the identification of the announcement, and `Record.decode?` finds the
swap in its payload.  What the run reports agrees with this file. -/
theorem meaning_of_run (empty : Device.contents device = [])
    (h : plan.run device = (.ok summary, after)) :
    ∃ records, read? (Device.contents after) = some ⟨fileHeader, records⟩ ∧
      records.length = plan.count.toNat ∧
      (∀ i < plan.count.toNat, ∃ record a payload,
        records[i]? = some record ∧ plan.announcements[i]? = some a ∧
        Frame.parse? record.frame = some (Frame.packetOf plan.ends a.identification payload) ∧
        Record.decode? payload = some ⟨a.intent, [0, 0, 0]⟩ ∧
        a.intent.nonce.toNat = i ∧
        (plan.identification = .random →
          1 ≤ a.identification.toNat ∧ a.identification.toNat ≤ 65535) ∧
        (plan.identification = .sequential → a.identification.toNat = i % 65535 + 1)) ∧
      summary.capture.frames = plan.count ∧
      summary.capture.bytes.toNat = 24 + 106 * plan.count.toNat ∧
      (Device.contents after).length = 24 + 106 * plan.count.toNat ∧
      (summary.classes.small.toNat = (plan.profile.classes plan.count.toNat).count .small ∧
        summary.classes.tight.toNat = (plan.profile.classes plan.count.toNat).count .tight ∧
        summary.classes.large.toNat = (plan.profile.classes plan.count.toNat).count .large) ∧
      ((plan.profile = .small → summary.classes = ⟨plan.count, 0, 0⟩) ∧
        (plan.profile = .tight → summary.classes = ⟨0, plan.count, 0⟩) ∧
        (plan.profile = .large → summary.classes = ⟨0, 0, plan.count⟩)) ∧
      (plan.profile = .mixed → summary.classes.small.toNat = (plan.count.toNat + 3) / 4 ∧
        summary.classes.tight.toNat = (plan.count.toNat + 2) / 4 ∧
        summary.classes.large.toNat
          = plan.count.toNat - (plan.count.toNat + 3) / 4 - (plan.count.toNat + 2) / 4) := by
  obtain ⟨length_eq, bytes_eq⟩ := toNat_bytes_of_run empty h
  have read := read?_of_run empty h
  obtain ⟨-, rfl, -⟩ := eq_summaryOf_of_run h
  refine ⟨storedFrom plan.base 0 plan.frames, read, ?_, ?_, ?_, ?_, length_eq, toNat_tally plan,
    tally_of_fixed plan, tally_of_mixed⟩
  · rw [length_storedFrom, length_frames]
  · -- the record at `i`
    intro i within
    obtain ⟨a, announced, framed, matched⟩ := announced_at within
    refine ⟨storedAt plan.base i (plan.frameOf a), a, Record.encode a.intent, ?_, announced,
      parse?_frameOf plan a, Record.decode?_encode a.intent, ?_, matched.random, ?_⟩
    · rw [getElem?_storedFrom, framed, Nat.zero_add]
      rfl
    · have i_lt : i < 2 ^ 64 := Nat.lt_trans within plan.count.toNat_lt
      rw [matched.nonce_eq, UInt64.toNat_ofNat_of_lt' i_lt]
    · intro sequential
      rw [matched.sequential sequential]
      exact UInt16.toNat_ofNat_of_lt' (by show _ < 2 ^ 16; omega)
  · show UInt64.ofNat plan.frames.length = plan.count
    rw [length_frames, UInt64.ofNat_toNat]
  · rw [bytes_eq, length_eq]

/-- The plan that asks for nothing special, run in memory. -/
theorem meaning_of_run_default :
    ∃ summary after records, Plan.default.run Bounded.memory = (.ok summary, after) ∧
      read? (Device.contents after) = some ⟨fileHeader, records⟩ ∧ records.length = 100 ∧
      summary.capture.bytes.toNat = 10624 := by
  have room : Plan.default.count.toNat ≤ Timestamp.room Plan.default.base := by decide
  obtain ⟨after, written⟩ := run_of_accepting Bounded.accepting_memory room
  obtain ⟨records, read, length_eq, -, -, bytes_eq, -⟩ := meaning_of_run rfl written
  exact ⟨_, after, records, written, read, length_eq, bytes_eq⟩

end SwapCapture.Plan
