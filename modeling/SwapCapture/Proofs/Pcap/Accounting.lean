/-
What a writer has counted, and what its device holds.

A record is two pieces, and either may be torn.  A writer that goes on all the same leaves the torn
front where it is, so its device may hold more than it has counted.  The log of all attempts tells
both apart:

* `Attempted` — the pieces that one call hands over, by what it returns;
* `Recorded` — those of many calls, one call behind the other;
* `Writer.Counts` — a writer that has counted certain bytes;
* `Writer.attempted_of_append` — one call, and `Writer.recorded_of_offer` — many of them;
* `Writer.accounts_of_offer` — the counters and the device in every state of an opened writer.
-/
import SwapCapture.Proofs.Device.Attempts
import SwapCapture.Proofs.Pcap.Stamping

namespace SwapCapture.Pcap

open Device

/-- The attempts of one call, made when `n` frames have been stored.  A frame is handed over only
behind its own header, and only if all of that has been written. -/
inductive Attempted (base : UInt32) (n : Nat) (frame : Bytes) :
    Except Fault Timestamp → List Attempt → Prop where
  | refused {fault : Fault} : fault.isRefusal = true → Attempted base n frame (.error fault) []
  | headerTorn {fault : DeviceFault} {k : Nat} : k < recordHeaderSize →
      Attempted base n frame (.error (.device fault)) [⟨headerAt base n frame, k⟩]
  | frameTorn {fault : DeviceFault} {k : Nat} : k < frame.length →
      Attempted base n frame (.error (.device fault))
        [.whole (headerAt base n frame), ⟨frame, k⟩]
  | stored : Attempted base n frame (.ok (.nth base n))
      [.whole (headerAt base n frame), .whole frame]

/-- The attempts of many calls, of which the first is made when `n` frames have been stored. -/
inductive Recorded (base : UInt32) :
    Nat → List Bytes → List (Except Fault Timestamp) → List Attempt → Prop where
  | done (n : Nat) : Recorded base n [] [] []
  | failed {n : Nat} {frame : Bytes} {frames : List Bytes} {fault : Fault}
      {results : List (Except Fault Timestamp)} {log others : List Attempt} :
      Attempted base n frame (.error fault) log → Recorded base n frames results others →
      Recorded base n (frame :: frames) (.error fault :: results) (log ++ others)
  | stored {n : Nat} {frame : Bytes} {frames : List Bytes} {time : Timestamp}
      {results : List (Except Fault Timestamp)} {log others : List Attempt} :
      Attempted base n frame (.ok time) log → Recorded base (n + 1) frames results others →
      Recorded base n (frame :: frames) (.ok time :: results) (log ++ others)

namespace Writer

variable {δ : Type}

/-- What `w` has counted is the length and the checksum of `bytes`. -/
structure Counts (w : Writer δ) (bytes : Bytes) : Prop where
  bytes_eq : w.bytes = .ofNat bytes.length
  crc_eq : w.crc = Crc32.start.update bytes

/-- One more `piece` is counted. -/
theorem Counts.grown {w w' : Writer δ} {bytes piece : Bytes} (h : w.Counts bytes)
    (bytes_eq : w'.bytes = w.bytes + .ofNat piece.length) (crc_eq : w'.crc = w.crc.update piece) :
    w'.Counts (bytes ++ piece) where
  bytes_eq := by rw [bytes_eq, h.bytes_eq, List.length_append, UInt64.ofNat_add]
  crc_eq := by rw [crc_eq, h.crc_eq, Crc32.update_append]

variable [Device δ] {w : Writer δ} {base : UInt32} {n : Nat} {bytes : Bytes}

/-- One call leaves its attempts in the device and counts those that are whole. -/
theorem attempted_of_append (stamped : w.Stamped base n) (counts : w.Counts bytes)
    (frame : Bytes) :
    ∃ log, Attempted base n frame (w.append frame).1 log ∧
      Handed w.device log (w.append frame).2.device ∧
      (w.append frame).2.Counts (bytes ++ wholePieces log) := by
  rcases answered : w.append frame with ⟨result, next⟩
  -- a call is refused, torn in either of its pieces, or stored
  cases called_of_append answered with
  | overflow =>
    refine ⟨[], .refused rfl, .none _, ?_⟩
    rwa [wholePieces_nil, List.append_nil]
  | tooLarge =>
    refine ⟨[], .refused rfl, .none _, ?_⟩
    rwa [wholePieces_nil, List.append_nil]
  | headerTorn admits torn =>
    obtain ⟨-, rfl⟩ := stamped.of_admits admits
    have torn : Device.writeAll w.device (headerAt base n frame) = _ := torn
    obtain ⟨k, short, handed⟩ := exists_handed_torn torn (.none _)
    refine ⟨_, .headerTorn short, handed, ?_⟩
    rw [wholePieces_cons_torn short, wholePieces_nil, List.append_nil]
    exact ⟨counts.bytes_eq, counts.crc_eq⟩
  | frameTorn admits written torn =>
    obtain ⟨-, rfl⟩ := stamped.of_admits admits
    obtain ⟨k, short, handed⟩ := exists_handed_torn torn (.none _)
    refine ⟨[.whole (headerAt base n frame), ⟨frame, k⟩], .frameTorn short,
      .written written handed, ?_⟩
    rw [wholePieces_cons_whole, wholePieces_cons_torn short, wholePieces_nil, List.append_nil]
    exact counts.grown rfl rfl
  | @stored time middle after admits first second =>
    obtain ⟨-, rfl⟩ := stamped.of_admits admits
    refine ⟨[.whole (headerAt base n frame), .whole frame], .stored,
      .written first (.written second (.none _)), ?_⟩
    rw [wholePieces_cons_whole, wholePieces_cons_whole, wholePieces_nil, List.append_nil,
      ← List.append_assoc]
    -- the frame is counted on top of its header
    have header : ({ w with
        bytes := w.bytes + 16
        crc := w.crc.update (headerAt base n frame) } : Writer δ).Counts
          (bytes ++ headerAt base n frame) := counts.grown rfl rfl
    exact header.grown rfl rfl

/-- Many calls leave the attempts of each of them behind those of the others. -/
theorem recorded_of_offer (stamped : w.Stamped base n) (counts : w.Counts bytes)
    (frames : List Bytes) :
    ∃ log, Recorded base n frames (w.offer frames).1 log ∧
      Handed w.device log (w.offer frames).2.device ∧
      (w.offer frames).2.Counts (bytes ++ wholePieces log) := by
  induction frames generalizing w n bytes with
  | nil =>
    refine ⟨[], .done n, .none _, ?_⟩
    rwa [wholePieces_nil, List.append_nil]
  | cons frame rest ih =>
    obtain ⟨log, attempted, handed, counts⟩ := attempted_of_append stamped counts frame
    rw [offer_cons]
    -- a stored frame moves the clock on for the calls behind it, a fault does not
    rcases stamped.append frame with ⟨returned, stamped⟩ | ⟨fault, returned, stamped⟩
    all_goals
      obtain ⟨others, recorded, handed', counts'⟩ := ih stamped counts
      rw [returned] at attempted ⊢
      rw [List.append_assoc, ← wholePieces_append] at counts'
    · exact ⟨log ++ others, .stored attempted recorded, handed.append handed', counts'⟩
    · exact ⟨log ++ others, .failed attempted recorded, handed.append handed', counts'⟩

/-- What `close` reports are the counters of the writer, and its device holds no more than before.
-/
theorem eq_of_close {w : Writer δ} {totals : Totals} {after : δ}
    (h : w.close = (.ok totals, after)) :
    totals = ⟨w.frames, w.bytes, w.crc.value, w.lastTime⟩ ∧
      contents after = contents w.device := by
  rw [close] at h
  rcases flushed : flush w.device with ⟨fault | _, stored⟩
  · rw [flushed] at h
    cases h
  · rw [flushed] at h
    cases h
    refine ⟨rfl, ?_⟩
    rw [← contents_flush w.device, flushed]

/-- The last of the `times` that some calls have returned is the time of the last stored frame. -/
theorem Stamped.lastTime_eq_getLast? (h : w.Stamped base 0) (frames : List Bytes) :
    (w.offer frames).2.frames.toNat = (times (w.offer frames).1).length ∧
      (w.offer frames).2.lastTime = (times (w.offer frames).1).getLast? := by
  obtain ⟨m, times_eq, stamped⟩ := h.offer frames
  rw [Nat.zero_add] at stamped
  rw [stamped.toNat_frames, stamped.lastTime_eq, times_eq]
  refine ⟨by simp, ?_⟩
  cases m with
  | zero => rfl
  | succ k =>
    rw [List.range'_concat, List.map_append, List.map_singleton, List.getLast?_concat,
      Nat.one_mul, Nat.zero_add]
    rfl

/-- **A writer counts the whole pieces, and its device holds what was kept of all of them.** `offer`
hands an opened writer any frames, and whatever becomes of the calls, the device holds for every
`Attempt` in order what it has kept of the piece.  The writer has counted the length and the
checksum of `wholePieces`, and the frames of the calls that went well.  A device that is
`AllOrNothing` therefore holds just what has been counted, and any other one does if nothing was
left in it of a piece that was torn. -/
theorem accounts_of_offer {device opened : δ} {base : UInt32} {w : Writer δ}
    (empty : contents device = []) (h : create device base = (.ok w, opened))
    (frames : List Bytes) (small : (contents (w.offer frames).2.device).length < 2 ^ 64) :
    let results := (w.offer frames).1
    let last := (w.offer frames).2
    ∃ log, Recorded base 0 frames results log ∧
      Handed device (.whole fileHeader :: log) last.device ∧
      contents last.device = keptBytes (.whole fileHeader :: log) ∧
      last.bytes.toNat = (fileHeader ++ wholePieces log).length ∧
      last.crc.value = Crc32.of (fileHeader ++ wholePieces log) ∧
      last.frames.toNat = (times results).length ∧
      last.lastTime = (times results).getLast? ∧
      (AllOrNothing device → last.bytes.toNat = (contents last.device).length ∧
        last.crc.value = Crc32.of (contents last.device)) ∧
      last.bytes.toNat ≤ (contents last.device).length ∧
      (last.bytes.toNat = (contents last.device).length ↔
        ∀ attempt ∈ log, attempt.isWhole = true ∨ attempt.front = []) ∧
      ∀ totals after, last.close = (.ok totals, after) →
        totals = ⟨last.frames, last.bytes, last.crc.value, last.lastTime⟩ ∧
          contents after = contents last.device := by
  intro results last
  obtain ⟨written, -, w_eq⟩ := eq_of_create h
  have stamped := stamped_of_create h
  have counts : w.Counts fileHeader := by
    rw [w_eq]
    exact ⟨rfl, rfl⟩
  obtain ⟨log, recorded, handed, counts⟩ := recorded_of_offer stamped counts frames
  have all_handed : Handed device (.whole fileHeader :: log) last.device := .written written handed
  -- the file header was the first attempt, and the calls made the others
  have held : contents last.device = keptBytes (.whole fileHeader :: log) := by
    rw [all_handed.contents_eq, empty, List.nil_append]
  obtain ⟨whole_le, whole_eq_iff⟩ := length_wholePieces (.whole fileHeader :: log)
  rw [← held, wholePieces_cons_whole] at whole_le
  rw [← held, wholePieces_cons_whole, List.forall_mem_cons] at whole_eq_iff
  have bytes_eq : last.bytes.toNat = (fileHeader ++ wholePieces log).length := by
    rw [show last.bytes = _ from counts.bytes_eq]
    exact UInt64.toNat_ofNat_of_lt' (Nat.lt_of_le_of_lt whole_le small)
  have crc_eq : last.crc.value = Crc32.of (fileHeader ++ wholePieces log) := by
    rw [show last.crc = _ from counts.crc_eq, Crc32.of]
  obtain ⟨frames_eq, lastTime_eq⟩ := stamped.lastTime_eq_getLast? frames
  refine ⟨log, recorded, all_handed, held, bytes_eq, crc_eq, frames_eq, lastTime_eq, ?_, ?_, ?_, ?_⟩
  -- all-or-nothing devices keep nothing of a torn piece
  · intro all
    have whole : contents last.device = fileHeader ++ wholePieces log := by
      rw [all_handed.contents_eq_of_allOrNothing all, empty, List.nil_append,
        wholePieces_cons_whole]
    rw [whole]
    exact ⟨bytes_eq, crc_eq⟩
  · rwa [bytes_eq]
  · rw [bytes_eq, whole_eq_iff]
    exact and_iff_right (.inl (Attempt.isWhole_whole fileHeader))
  · intro totals after closed
    exact eq_of_close closed

/-- What a run on a fixed device shows of a writer is shown of the writer that `create` opens. -/
theorem exists_created {α : Type} {device : δ} {base : UInt32} {look : Writer δ → α} {seen : α}
    (run : ((create device base).1.map look).toOption = some seen) :
    ∃ w opened, create device base = (.ok w, opened) ∧ look w = seen := by
  rcases created : create device base with ⟨fault | w, opened⟩
  · rw [created] at run
    cases run
  · rw [created] at run
    cases run
    exact ⟨w, opened, rfl, rfl⟩

/-- A device that takes thirty bytes at a time is full in the middle of the second of three frames,
and there is still room for the third.  The thirty bytes that are left of the second frame are not
counted.  A device that takes no part of an offer keeps none of them, and everything it holds is
counted. -/
theorem accounts_of_offer_torn :
    let frames := [[1, 2, 3], List.replicate 60 0, [4]]
    (∃ w opened, create (Bounded.withLimits (some 110) (some 30) false) 1700000000
        = (.ok w, opened) ∧
      let last := (w.offer frames).2
      (contents last.device).length = 106 ∧ last.bytes.toNat = 76 ∧ last.frames.toNat = 2 ∧
      ∃ log, Recorded 1700000000 0 frames (w.offer frames).1 log ∧
        ∃ attempt ∈ log, attempt.isWhole = false ∧ attempt.front ≠ []) ∧
    ∃ w opened, create (Bounded.withLimits (some 110) none false) 1700000000
        = (.ok w, opened) ∧
      let last := (w.offer frames).2
      (contents last.device).length = 76 ∧ last.bytes.toNat = 76 ∧ last.frames.toNat = 2 ∧
      last.crc.value = Crc32.of (contents last.device) := by
  intro frames
  refine ⟨?torn, ?whole⟩
  case torn =>
    have run : ((create (Bounded.withLimits (some 110) (some 30) false) 1700000000).1.map fun w =>
        let last := (w.offer frames).2
        ((contents last.device).length, last.bytes.toNat, last.frames.toNat)).toOption
          = some (106, 76, 2) := by
      decide +kernel
    obtain ⟨w, opened, created, shown⟩ := exists_created run
    simp only [Prod.mk.injEq] at shown
    obtain ⟨held, counted, stored⟩ := shown
    have small := Nat.lt_of_le_of_lt (Nat.le_of_eq held) (show 106 < 2 ^ 64 by decide)
    obtain ⟨log, recorded, -, -, -, -, -, -, -, -, equal_iff, -⟩ :=
      accounts_of_offer rfl created frames small
    refine ⟨w, opened, created, held, counted, stored, log, recorded, ?_⟩
    -- fewer bytes are counted than held, so that not all that was kept is of whole pieces
    by_contra none_torn
    have equal := equal_iff.mpr fun attempt mem => by
      cases whole : attempt.isWhole with
      | true => exact .inl rfl
      | false => exact .inr (by_contra fun kept => none_torn ⟨attempt, mem, whole, kept⟩)
    rw [held, counted] at equal
    exact absurd equal (by decide)
  case whole =>
    have run : ((create (Bounded.withLimits (some 110) none false) 1700000000).1.map fun w =>
        let last := (w.offer frames).2
        ((contents last.device).length, last.bytes.toNat, last.frames.toNat)).toOption
          = some (76, 76, 2) := by
      decide +kernel
    obtain ⟨w, opened, created, shown⟩ := exists_created run
    simp only [Prod.mk.injEq] at shown
    obtain ⟨held, counted, stored⟩ := shown
    have small := Nat.lt_of_le_of_lt (Nat.le_of_eq held) (show 76 < 2 ^ 64 by decide)
    obtain ⟨-, -, -, -, -, -, -, -, equal, -⟩ := accounts_of_offer rfl created frames small
    obtain ⟨-, crc⟩ := equal (Bounded.allOrNothing_of_whole rfl)
    exact ⟨w, opened, created, held, counted, stored, crc⟩

end Writer

end SwapCapture.Pcap
