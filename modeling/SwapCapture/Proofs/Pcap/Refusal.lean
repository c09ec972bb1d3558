/-
Frames that are refused.

A writer settles whether it can make a record of a frame before it writes the first byte of one, and
it asks for nothing but the length of the frame.  So a refused frame might as well not have been
offered:

* `Writer.append_eq_tooLarge_iff` — when a frame is refused for its length;
* `Writer.append_of_isRefusal` — a refusal leaves the writer as it was;
* `Writer.offer_filter_fits` — leaving out what can only be refused changes nothing else;
* `Writer.refusals_of_offer` — all of this for any writer and any frames.
-/
import SwapCapture.Proofs.Pcap.Calls

namespace SwapCapture.Pcap

open Device

/-- The length of `frame` can be put in a record header. -/
def fits (frame : Bytes) : Bool := frame.length < 2 ^ 32

theorem not_fits_iff {frame : Bytes} : ¬fits frame = true ↔ 2 ^ 32 ≤ frame.length := by
  rw [fits, decide_eq_true_iff, Nat.not_lt]

namespace Writer

variable {δ : Type} [Device δ]

/-! ### One call -/

/-- A frame is `frameTooLarge` by its length alone, and only while the clock goes on. -/
theorem append_eq_tooLarge_iff (w : Writer δ) (frame : Bytes) (index : UInt64) (n : Nat) :
    (w.append frame).1 = .error (.frameTooLarge index n) ↔
      Timestamp.at? w.base w.frames ≠ none ∧ 2 ^ 32 ≤ frame.length ∧
        index = w.frames ∧ n = frame.length := by
  rcases answered : w.append frame with ⟨result, next⟩
  have short {time : Timestamp} (admits : w.Admits frame time) : ¬2 ^ 32 ≤ frame.length :=
    Nat.not_le.mpr admits.2
  cases called_of_append answered with
  | overflow ended => simp [ended]
  | tooLarge clock long =>
    simp only [Except.error.injEq, Fault.frameTooLarge.injEq]
    constructor
    · rintro ⟨rfl, rfl⟩
      exact ⟨by simp [clock], long, rfl, rfl⟩
    · rintro ⟨-, -, rfl, rfl⟩
      exact ⟨rfl, rfl⟩
  -- what is handed to the device is short enough
  | headerTorn admits => exact iff_of_false nofun fun refused => short admits refused.2.1
  | frameTorn admits => exact iff_of_false nofun fun refused => short admits refused.2.1
  | stored admits => exact iff_of_false nofun fun refused => short admits refused.2.1

theorem append_of_isRefusal {w : Writer δ} {frame : Bytes} {fault : Fault}
    (h : (w.append frame).1 = .error fault) (refusal : fault.isRefusal = true) :
    (w.append frame).2 = w := by
  rcases answered : w.append frame with ⟨result, next⟩
  rw [answered] at h
  cases h
  cases called_of_append answered with
  | overflow => rfl
  | tooLarge => rfl
  | headerTorn => cases refusal
  | frameTorn => cases refusal

/-- A frame that does not fit is refused, for its length or because the clock has ended. -/
theorem append_of_not_fits {w : Writer δ} {frame : Bytes} (long : ¬fits frame = true) :
    (w.append frame).2 = w := by
  rw [not_fits_iff] at long
  rcases answered : w.append frame with ⟨result, next⟩
  cases called_of_append answered with
  | overflow => rfl
  | tooLarge => rfl
  | headerTorn admits => exact absurd admits.2 (Nat.not_lt.mpr long)
  | frameTorn admits => exact absurd admits.2 (Nat.not_lt.mpr long)
  | stored admits => exact absurd admits.2 (Nat.not_lt.mpr long)

/-! ### Many calls -/

theorem length_offer (w : Writer δ) (frames : List Bytes) :
    (w.offer frames).1.length = frames.length := by
  induction frames generalizing w with
  | nil => rfl
  | cons frame rest ih => rw [offer_cons, List.length_cons, ih, List.length_cons]

/-- Frames that do not fit may be left out: the other calls return what they did, and the writer is
the same in the end. -/
theorem offer_filter_fits (w : Writer δ) (frames : List Bytes) :
    w.offer (frames.filter fits)
      = (((frames.zip (w.offer frames).1).filter fun call => fits call.1).map Prod.snd,
          (w.offer frames).2) := by
  induction frames generalizing w with
  | nil => rfl
  | cons frame rest ih =>
    rw [offer_cons, List.zip_cons_cons]
    by_cases kept : fits frame = true
    · rw [List.filter_cons_of_pos kept, offer_cons, ih]
      simp only [List.filter_cons, kept, if_true, List.map_cons]
    · rw [List.filter_cons_of_neg kept, ih, append_of_not_fits kept]
      simp only [List.filter_cons, kept, Bool.false_eq_true, if_false]

/-- **A refused frame leaves no trace.** In any state `append` refuses a frame because its clock has
ended or else because the length of the frame does not fit, and a refusal leaves the writer and its
device as they were.  So the frames that do not fit may be left out of those that are offered: every
other call returns the same, and what is left to be closed in the end is the same writer on the same
device. -/
theorem refusals_of_offer (w : Writer δ) (frames : List Bytes) :
    (∀ frame index, (w.append frame).1 = .error (.timestampOverflow index) ↔
      Timestamp.at? w.base w.frames = none ∧ index = w.frames) ∧
    (∀ frame index n, (w.append frame).1 = .error (.frameTooLarge index n) ↔
      Timestamp.at? w.base w.frames ≠ none ∧ 2 ^ 32 ≤ frame.length ∧
        index = w.frames ∧ n = frame.length) ∧
    (∀ frame fault, (w.append frame).1 = .error fault → fault.isRefusal = true →
      (w.append frame).2 = w) ∧
    (w.offer frames).1.length = frames.length ∧
    (w.offer (frames.filter fits)).1
      = ((frames.zip (w.offer frames).1).filter fun call => fits call.1).map Prod.snd ∧
    (w.offer (frames.filter fits)).2 = (w.offer frames).2 := by
  refine ⟨w.append_eq_overflow_iff, w.append_eq_tooLarge_iff, ?_, w.length_offer frames, ?_, ?_⟩
  · intro frame fault failed refusal
    exact append_of_isRefusal failed refusal
  · rw [offer_filter_fits]
  · rw [offer_filter_fits]

end Writer

end SwapCapture.Pcap
