/-
Longer runs extend shorter ones.

A run draws, stamps and writes its swaps one after the other, and nothing of this depends on how
many of them there are to be.  So the run of a smaller count is where a run of a larger one has come
to on its way:

* `announce_take` — the draws, from any state of the source;
* `frames_withCount_take`, `tally_withCount_le` — the frames and the counts of classes;
* `image_withCount_take` — the file;
* `prefix_of_runs` — two runs that go well, on whatever devices.
-/
import SwapCapture.Proofs.Plan.Meaning

namespace SwapCapture

theorem Profile.classes_take (profile : Profile) {n m : Nat} (le : n ≤ m) :
    (profile.classes m).take n = profile.classes n := by
  rw [classes, classes, ← List.map_take, List.take_range, Nat.min_eq_left le]

namespace Plan

open Pcap

def withCount (plan : Plan) (n : UInt64) : Plan := { plan with count := n }

theorem announce_take (policy : IdPolicy) (index : Nat) (source : IntentSource) {n m : Nat}
    (le : n ≤ m) : (announce policy index source m).take n = announce policy index source n := by
  -- both runs of draws take the same first step, and go on from the same source
  induction n generalizing index source m with
  | zero => rfl
  | succ n ih =>
    obtain ⟨m, rfl⟩ : ∃ k, m = k + 1 := ⟨m - 1, by omega⟩
    rw [announce_succ, announce_succ, List.take_succ_cons, ih _ _ (Nat.le_of_succ_le_succ le)]

section Counts

variable (plan : Plan) {n m : UInt64}

theorem frames_withCount_take (le : n ≤ m) :
    (plan.withCount m).frames.take n.toNat = (plan.withCount n).frames := by
  have announced : (plan.withCount m).announcements.take n.toNat
      = (plan.withCount n).announcements :=
    announce_take _ _ _ (UInt64.le_iff_toNat_le.mp le)
  rw [frames, frames, ← List.map_take, announced]
  -- a frame is made without regard to the count
  rfl

theorem tally_withCount_le (le : n ≤ m) :
    (plan.withCount n).tally.small ≤ (plan.withCount m).tally.small ∧
      (plan.withCount n).tally.tight ≤ (plan.withCount m).tally.tight ∧
      (plan.withCount n).tally.large ≤ (plan.withCount m).tally.large := by
  obtain ⟨small, tight, large⟩ := toNat_tally (plan.withCount n)
  obtain ⟨small', tight', large'⟩ := toNat_tally (plan.withCount m)
  -- the classes of fewer indexes are the first of those of more
  have count_le (kind : SwapClass) :
      (plan.profile.classes n.toNat).count kind ≤ (plan.profile.classes m.toNat).count kind := by
    rw [← plan.profile.classes_take (UInt64.le_iff_toNat_le.mp le)]
    exact (List.take_sublist _ _).count_le kind
  refine ⟨?_, ?_, ?_⟩
  · rw [UInt64.le_iff_toNat_le, small, small']
    exact count_le .small
  · rw [UInt64.le_iff_toNat_le, tight, tight']
    exact count_le .tight
  · rw [UInt64.le_iff_toNat_le, large, large']
    exact count_le .large

theorem image_withCount_take (le : n ≤ m) :
    (image plan.base (plan.withCount m).frames).take (24 + 106 * n.toNat)
      = image plan.base (plan.withCount n).frames := by
  have front_length := length_image_frames (plan.withCount n)
  rw [← List.take_append_drop n.toNat (plan.withCount m).frames, frames_withCount_take plan le,
    image_append]
  exact List.take_left' front_length

/-- The last time of a run is that of the record at this place in any longer run. -/
theorem lastTime_eq_storedFrom (le : n ≤ m) (some_swap : 0 < n) :
    ∃ record, (storedFrom plan.base 0 (plan.withCount m).frames)[n.toNat - 1]? = some record ∧
      lastTime plan.base n.toNat = some record.time := by
  have n_le : n.toNat ≤ m.toNat := UInt64.le_iff_toNat_le.mp le
  obtain ⟨k, k_eq⟩ : ∃ k, n.toNat = k + 1 := by
    have positive : 0 < n.toNat := UInt64.lt_iff_toNat_lt.mp some_swap
    exact ⟨n.toNat - 1, by omega⟩
  have within : k < (plan.withCount m).count.toNat := by
    show k < m.toNat
    omega
  obtain ⟨a, -, framed, -⟩ := announced_at within
  refine ⟨storedAt plan.base k ((plan.withCount m).frameOf a), ?_, ?_⟩
  · rw [k_eq, Nat.add_sub_cancel, getElem?_storedFrom, framed, Nat.zero_add]
    rfl
  · rw [k_eq]
    rfl

end Counts

/-- **Longer runs extend shorter ones.** A plan is carried out `withCount` `n` and `withCount` `m`,
on any two devices, and both runs go well.  Then the file of the smaller count is the front of the
file of the larger one, no class is counted more often in it, and its last time is the time that the
record at this place has in the longer file. -/
theorem prefix_of_runs {δ δ' : Type} [Device δ] [Device δ'] {plan : Plan} {n m : UInt64}
    {device after : δ} {device' after' : δ'} {summary summary' : Summary} (le : n ≤ m)
    (h : (plan.withCount n).run device = (.ok summary, after))
    (h' : (plan.withCount m).run device' = (.ok summary', after')) :
    ∃ short long, Device.contents after = Device.contents device ++ short ∧
      Device.contents after' = Device.contents device' ++ long ∧
      short = long.take (24 + 106 * n.toNat) ∧ short.length = 24 + 106 * n.toNat ∧
      (summary.classes.small ≤ summary'.classes.small ∧
        summary.classes.tight ≤ summary'.classes.tight ∧
        summary.classes.large ≤ summary'.classes.large) ∧
      ∃ records, read? long = some ⟨fileHeader, records⟩ ∧ records.length = m.toNat ∧
        (0 < n → ∃ record, records[n.toNat - 1]? = some record ∧
          summary.capture.lastTime = some record.time) := by
  obtain ⟨-, rfl, held⟩ := eq_summaryOf_of_run h
  obtain ⟨-, rfl, held'⟩ := eq_summaryOf_of_run h'
  -- both files are images of frames, those of the smaller count in front
  refine ⟨_, _, held, held', (image_withCount_take plan le).symm,
    length_image_frames (plan.withCount n), tally_withCount_le plan le, _,
    read?_image _ (short_of_mem_frames (plan.withCount m)), ?_, ?_⟩
  · rw [length_storedFrom, length_frames]
    rfl
  · intro some_swap
    obtain ⟨record, found, time_eq⟩ := lastTime_eq_storedFrom plan le some_swap
    refine ⟨record, found, ?_⟩
    show lastTime plan.base (plan.withCount n).frames.length = _
    rw [length_frames]
    exact time_eq

/-- A thousand swaps and one more in memory, and two thousand on a device that takes seven bytes at
a time: the shorter run ends with the first swap of the second second. -/
theorem prefix_of_runs_chunked :
    ∃ summary summary' after after', (Plan.default.withCount 1001).run Bounded.memory
        = (.ok summary, after) ∧
      (Plan.default.withCount 2000).run (Bounded.withLimits none (some 7) false)
        = (.ok summary', after') ∧
      Device.contents after = (Device.contents after').take 106130 ∧
      summary.classes.tight ≤ summary'.classes.tight ∧
      ∃ records record, read? (Device.contents after') = some ⟨fileHeader, records⟩ ∧
        records[1000]? = some record ∧ summary.capture.lastTime = some record.time := by
  have accepting : Device.Accepting (Bounded.withLimits none (some 7) false) :=
    Bounded.accepting_of_unlimited rfl (by decide) rfl
  have room : (Plan.default.withCount 1001).count.toNat
      ≤ Timestamp.room (Plan.default.withCount 1001).base := by decide
  have room' : (Plan.default.withCount 2000).count.toNat
      ≤ Timestamp.room (Plan.default.withCount 2000).base := by decide
  obtain ⟨after, ran⟩ := run_of_accepting Bounded.accepting_memory room
  obtain ⟨after', ran'⟩ := run_of_accepting accepting room'
  obtain ⟨short, long, held, held', front, -, ⟨-, tight, -⟩, records, read, -, last⟩ :=
    prefix_of_runs (by decide) ran ran'
  -- both devices were empty
  have held : Device.contents after = short := held
  have held' : Device.contents after' = long := held'
  obtain ⟨record, found, time_eq⟩ := last (by decide)
  refine ⟨_, _, after, after', ran, ran', ?_, tight, records, record, ?_, found, time_eq⟩
  · rw [held, held', front]
    rfl
  · rw [held', read]

end Plan

end SwapCapture
