/-
Calls to a writer that goes on after a fault.

A capture ends at the first frame that fails, but a writer does not have to: whoever holds one may
offer it the next frame whatever has become of the last.  `Writer.offer` does this with a list of
frames, and the states that it comes to are all the states that a writer can be in.

* `Writer.Called` — everything that one call may do, with what it returns;
* `Writer.called_of_append` — a call does one of these;
* `Writer.offer_of_appendAll` — where no call fails, this is how a capture is written;
* `Writer.eq_of_create` — where they start.
-/
import SwapCapture.Proofs.Pcap.Writing

namespace SwapCapture.Pcap

open Device

/-- The times that some calls have returned.  A call that failed has returned none. -/
def times (results : List (Except Fault Timestamp)) : List Timestamp :=
  results.filterMap Except.toOption

@[simp] theorem times_cons_ok (time : Timestamp) (results : List (Except Fault Timestamp)) :
    times (.ok time :: results) = time :: times results := rfl

@[simp] theorem times_cons_error (fault : Fault) (results : List (Except Fault Timestamp)) :
    times (.error fault :: results) = times results := rfl

/-- The frame itself is at fault or comes too late, and no device has been asked for anything. -/
def Fault.isRefusal : Fault → Bool
  | .device _ => false
  | .timestampOverflow _ | .frameTooLarge _ _ => true

namespace Writer

variable {δ : Type} [Device δ]

/-! ### One call -/

/-- `w` has `time` for the next frame, and the length of this one fits in a header. -/
def Admits {δ : Type} (w : Writer δ) (frame : Bytes) (time : Timestamp) : Prop :=
  Timestamp.at? w.base w.frames = some time ∧ frame.length < 2 ^ 32

/-- What a call of `append` may do: it returns a result and leaves a writer behind. -/
inductive Called (w : Writer δ) (frame : Bytes) : Except Fault Timestamp → Writer δ → Prop where
  -- the clock is asked first, then the length, and only then the device
  | overflow : Timestamp.at? w.base w.frames = none →
      Called w frame (.error (.timestampOverflow w.frames)) w
  | tooLarge {time : Timestamp} : Timestamp.at? w.base w.frames = some time →
      2 ^ 32 ≤ frame.length →
      Called w frame (.error (.frameTooLarge w.frames frame.length)) w
  | headerTorn {time : Timestamp} {fault : DeviceFault} {after : δ} : w.Admits frame time →
      Device.writeAll w.device (recordHeader time (.ofNat frame.length)) = (.error fault, after) →
      Called w frame (.error (.device fault)) { w with device := after }
  | frameTorn {time : Timestamp} {fault : DeviceFault} {middle after : δ} : w.Admits frame time →
      Device.writeAll w.device (recordHeader time (.ofNat frame.length)) = (.ok (), middle) →
      Device.writeAll middle frame = (.error fault, after) →
      Called w frame (.error (.device fault)) { w with
        device := after
        bytes := w.bytes + 16
        crc := w.crc.update (recordHeader time (.ofNat frame.length)) }
  | stored {time : Timestamp} {middle after : δ} : w.Admits frame time →
      Device.writeAll w.device (recordHeader time (.ofNat frame.length)) = (.ok (), middle) →
      Device.writeAll middle frame = (.ok (), after) →
      Called w frame (.ok time) { w with
        device := after
        frames := w.frames + 1
        bytes := w.bytes + 16 + .ofNat frame.length
        crc := (w.crc.update (recordHeader time (.ofNat frame.length))).update frame
        lastTime := some time }

theorem accept_of_admits {δ : Type} {w : Writer δ} {frame : Bytes} {time : Timestamp}
    (h : w.Admits frame time) : w.accept frame.length = .ok (time, .ofNat frame.length) := by
  rw [accept, h.1]
  exact if_pos h.2

theorem called_of_append {w next : Writer δ} {frame : Bytes} {result : Except Fault Timestamp}
    (h : w.append frame = (result, next)) : Called w frame result next := by
  rcases clock : Timestamp.at? w.base w.frames with _ | time
  · have refused : w.append frame = (.error (.timestampOverflow w.frames), w) := by
      rw [append, accept, clock]
    cases refused.symm.trans h
    exact .overflow clock
  by_cases short : frame.length < 2 ^ 32
  · have admits : w.Admits frame time := ⟨clock, short⟩
    rw [append, accept_of_admits admits] at h
    simp only [putRecord] at h
    -- the two pieces, of which either may be torn
    rcases first : Device.writeAll w.device (recordHeader time (.ofNat frame.length))
      with ⟨fault | _, middle⟩
    · rw [writePiece_error first] at h
      cases h
      exact .headerTorn admits first
    rw [writePiece_ok first] at h
    simp only at h
    rcases second : Device.writeAll middle frame with ⟨fault | _, after⟩
    · rw [writePiece_error second] at h
      cases h
      exact .frameTorn admits first second
    · rw [writePiece_ok second] at h
      cases h
      exact .stored admits first second
  · have refused : w.append frame = (.error (.frameTooLarge w.frames frame.length), w) := by
      have too_large : w.accept frame.length = .error (.frameTooLarge w.frames frame.length) := by
        rw [accept, clock]
        exact if_neg short
      rw [append, too_large]
    cases refused.symm.trans h
    exact .tooLarge clock (Nat.not_lt.mp short)

/-- A call finds the clock ended whatever its frame is. -/
theorem append_eq_overflow_iff (w : Writer δ) (frame : Bytes) (index : UInt64) :
    (w.append frame).1 = .error (.timestampOverflow index) ↔
      Timestamp.at? w.base w.frames = none ∧ index = w.frames := by
  rcases answered : w.append frame with ⟨result, next⟩
  -- only the first of the things that a call may do has an ended clock
  cases called_of_append answered with
  | overflow ended => simp [ended, eq_comm]
  | tooLarge clock => simp [clock]
  | headerTorn admits => simp [admits.1]
  | frameTorn admits => simp [admits.1]
  | stored admits => simp [admits.1]

/-! ### Many calls -/

/-- Offers frames one after the other, also behind one that has failed. -/
def offer (w : Writer δ) : List Bytes → List (Except Fault Timestamp) × Writer δ
  | [] => ([], w)
  | frame :: rest =>
    let others := (w.append frame).2.offer rest
    ((w.append frame).1 :: others.1, others.2)

theorem offer_cons (w : Writer δ) (frame : Bytes) (rest : List Bytes) :
    w.offer (frame :: rest)
      = ((w.append frame).1 :: ((w.append frame).2.offer rest).1,
          ((w.append frame).2.offer rest).2) := rfl

/-- As long as no call fails, `offer` is `appendAll`. -/
theorem offer_of_appendAll {w last : Writer δ} {frames : List Bytes}
    (h : w.appendAll frames = (.ok (), last)) :
    (w.offer frames).2 = last ∧ (times (w.offer frames).1).length = frames.length := by
  induction frames generalizing w with
  | nil =>
    cases h
    exact ⟨rfl, rfl⟩
  | cons frame rest ih =>
    rw [appendAll] at h
    rw [offer_cons]
    -- a call that failed would have ended the capture
    rcases first : w.append frame with ⟨fault | time, next⟩
    · rw [first] at h
      cases h
    · rw [first] at h
      obtain ⟨last_eq, count⟩ := ih h
      exact ⟨last_eq, by rw [times_cons_ok, List.length_cons, count, List.length_cons]⟩

/-! ### Opening -/

/-- A writer that `create` has opened has written `fileHeader` and nothing else. -/
theorem eq_of_create {device opened : δ} {base : UInt32} {w : Writer δ}
    (h : create device base = (.ok w, opened)) :
    Device.writeAll device fileHeader = (.ok (), w.device) ∧ w.device = opened ∧
      w = ⟨w.device, base, 0, 24, Crc32.start.update fileHeader, none⟩ := by
  rw [create] at h
  rcases written : Device.writeAll device fileHeader with ⟨fault | _, after⟩
  · rw [writePiece_error (w := blank device base) written] at h
    cases h
  · rw [writePiece_ok (w := blank device base) written] at h
    cases h
    exact ⟨rfl, rfl, rfl⟩

end Writer

end SwapCapture.Pcap
