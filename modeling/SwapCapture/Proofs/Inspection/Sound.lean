/-
An inspection of a capture that a run has written.

The two sides share nothing but the constants of the format.  A run fills in headers field by
field; an inspection reads each field at an offset of its own and compares lengths that it has
counted itself:

* `inspectFrame_layout` — a frame around a swap record passes every check;
* `inspectRecords_piecesFrom` — records that follow the clock are all passed, in order;
* `verdict_of_run` — so a capture that a run has written is found sound, and the closing line says
  what the run has reported.
-/
import SwapCapture.Inspection.Check
import SwapCapture.Proofs.Device.Room
import SwapCapture.Proofs.Pcap.Reader
import SwapCapture.Proofs.Plan.Traffic

namespace SwapCapture.Inspection

open Bytes Pcap

/-! ### One record -/

theorem splitExact?_append {front : Bytes} {n : Nat} (h : front.length = n) (rest : Bytes) :
    splitExact? n (front ++ rest) = some (front, rest) := by
  subst h
  rw [splitExact?, List.splitAt_eq, List.take_left, List.drop_left]
  exact if_pos rfl

theorem inspectFileHeader_fileHeader : inspectFileHeader fileHeader = .ok () := rfl

/-- A frame around a swap record passes every check of `inspectFrame`, whatever its checksums. -/
theorem inspectFrame_layout (ends : Endpoints) (identification ipv4Sum udpSum : UInt16)
    {payload : Bytes} (h : payload.length = Record.size) :
    inspectFrame (Frame.layout ends identification ipv4Sum udpSum payload) = .ok () := by
  have length_eq : (Frame.layout ends identification ipv4Sum udpSum payload).length = 90 := by
    rw [Frame.length_layout, h]
    rfl
  have ether_type : be16At (Frame.layout ends identification ipv4Sum udpSum payload) 12
      = Frame.etherTypeIpv4 := be16At_of_take rfl
  have protocol : byteAt (Frame.layout ends identification ipv4Sum udpSum payload) 23
      = Checksum.udpProtocol := rfl
  have ipv4_length : be16At (Frame.layout ends identification ipv4Sum udpSum payload) 16
      = 20 + .ofNat (Frame.udpSize + payload.length) := be16At_of_take rfl
  have udp_length : be16At (Frame.layout ends identification ipv4Sum udpSum payload) 38
      = .ofNat (Frame.udpSize + payload.length) := be16At_of_take rfl
  -- with the size of a record both lengths are plain numbers
  rw [h] at ipv4_length udp_length
  rw [inspectFrame, length_eq, ether_type, protocol, ipv4_length, udp_length]
  rfl

/-- A record that keeps to the clock does not go back behind `lastTime`. -/
theorem goesBack?_lastTime {base : UInt32} {n : Nat} (h : n < Timestamp.room base) :
    goesBack? (lastTime base n) (.nth base n) = none := by
  cases n with
  | zero => rfl
  | succ n =>
    rw [lastTime, goesBack?, Timestamp.before_nth_eq_false (Nat.le_succ n) h]
    rfl

/-- The right record header for a frame, behind `n` others: what counts is what comes behind it. -/
theorem inspectRecord_clocked {base : UInt32} {n : Nat} {frame : Bytes} (bytes : Bytes)
    (room : n < Timestamp.room base) (short : frame.length < 2 ^ 32) :
    inspectRecord (lastTime base n) (headerAt base n frame) bytes
      = (splitExact? frame.length bytes).elim (.error .truncated) fun parts =>
          (inspectFrame parts.1).map fun _ => parts := by
  obtain ⟨seconds, micros, included, full⟩ := fields_headerAt base n frame
  have length_eq : (UInt32.ofNat frame.length).toNat = frame.length :=
    UInt32.toNat_ofNat_of_lt' short
  -- the lengths agree and the time does not go back, so only the bytes behind are left to check
  have ordered : goesBack? (lastTime base n)
      ⟨(Timestamp.nth base n).seconds, (Timestamp.nth base n).micros⟩ = none :=
    goesBack?_lastTime room
  rw [inspectRecord]
  simp only [seconds, micros, included, full, ne_eq, not_true_eq_false, if_false, ordered,
    length_eq]
  rcases splitExact? frame.length bytes with _ | ⟨found, rest⟩
  · rfl
  rcases checked : inspectFrame found with defect | _
  · simp [checked, Except.map]
  · simp [checked, Except.map]

/-- The record of a sound frame behind `n` others. -/
theorem inspectRecord_headerAt {base : UInt32} {n : Nat} {frame : Bytes} (rest : Bytes)
    (room : n < Timestamp.room base) (short : frame.length < 2 ^ 32)
    (sound : inspectFrame frame = .ok ()) :
    inspectRecord (lastTime base n) (headerAt base n frame) (frame ++ rest)
      = .ok (frame, rest) := by
  rw [inspectRecord_clocked _ room short, splitExact?_append rfl, Option.elim_some, sound]
  rfl

/-! ### Many records -/

/-- The first and the last time of `n` records, if there are any. -/
def spanOf (base : UInt32) (n : Nat) : Option (Timestamp × Timestamp) :=
  (lastTime base n).map fun last => (.nth base 0, last)

theorem map_snd_spanOf (base : UInt32) (n : Nat) :
    (spanOf base n).map Prod.snd = lastTime base n := by
  cases n with
  | zero => rfl
  | succ n => rfl

theorem spanOf_succ (base : UInt32) (n : Nat) :
    spanOf base (n + 1)
      = some (((spanOf base n).map Prod.fst).getD (.nth base n), .nth base n) := by
  cases n with
  | zero => rfl
  | succ n => rfl

/-- What is shown of some frames, the first of which has the given index. -/
def rowsFrom (base : UInt32) : Nat → List Bytes → List Row
  | _, [] => []
  | index, frame :: rest =>
    rowOf index (.nth base index) (.ofNat frame.length) frame :: rowsFrom base (index + 1) rest

@[simp] theorem length_rowsFrom (base : UInt32) (index : Nat) (frames : List Bytes) :
    (rowsFrom base index frames).length = frames.length := by
  induction frames generalizing index with
  | nil => rfl
  | cons frame rest ih => rw [rowsFrom, List.length_cons, List.length_cons, ih]

theorem inspectRecords_nil (index : Nat) (span : Option (Timestamp × Timestamp)) :
    inspectRecords index span [] = ⟨[], .ok ⟨index, span⟩⟩ := by
  rw [inspectRecords]
  rfl

/-- One sound record in front of others. -/
theorem inspectRecords_record {index : Nat} {span : Option (Timestamp × Timestamp)}
    {header frame : Bytes} (rest : Bytes) (length_eq : header.length = 16)
    (sound : inspectRecord (span.map Prod.snd) header (frame ++ rest) = .ok (frame, rest)) :
    inspectRecords index span (header ++ (frame ++ rest))
      = let time : Timestamp := ⟨le32At header 0, le32At header 4⟩
        let others := inspectRecords (index + 1)
          (some ((span.map Prod.fst).getD time, time)) rest
        ⟨rowOf index time (le32At header 8) frame :: others.rows, others.verdict⟩ := by
  have cut : splitExact? recordHeaderSize (header ++ (frame ++ rest))
      = some (header, frame ++ rest) := splitExact?_append length_eq _
  -- the walk keeps proofs of its two splits, so each match is taken apart instead of rewritten
  rw [inspectRecords]
  split
  · next short => rw [cut] at short; cases short
  next header' rest' parts =>
  rw [cut] at parts
  cases parts
  split
  · next defect bad => rw [sound] at bad; cases bad
  next frame' after good =>
  rw [sound] at good
  cases good
  rfl

/-- A record with a `defect` is where the walk ends. -/
theorem inspectRecords_defect {index : Nat} {span : Option (Timestamp × Timestamp)}
    {header rest : Bytes} {defect : RecordDefect} (length_eq : header.length = 16)
    (bad : inspectRecord (span.map Prod.snd) header rest = .error defect) :
    inspectRecords index span (header ++ rest) = ⟨[], .error (.record index defect)⟩ := by
  have cut : splitExact? recordHeaderSize (header ++ rest) = some (header, rest) :=
    splitExact?_append length_eq rest
  rw [inspectRecords]
  split
  · next short => rw [cut] at short; cases short
  next header' rest' parts =>
  rw [cut] at parts
  cases parts
  split
  · next found =>
    rw [bad] at found
    cases found
    rfl
  next frame after good => rw [bad] at good; cases good

/-- Records of sound frames are all passed, and `rest` is looked at from there.  The induction goes
along the frames: in front of each of them the inspection holds the `spanOf` those that it has
passed. -/
theorem inspectRecords_piecesFrom {base : UInt32} {index : Nat} {frames : List Bytes}
    (rest : Bytes) (room : index + frames.length ≤ Timestamp.room base)
    (short : ∀ frame ∈ frames, frame.length < 2 ^ 32)
    (sound : ∀ frame ∈ frames, inspectFrame frame = .ok ()) :
    inspectRecords index (spanOf base index) ((piecesFrom base index frames).flatten ++ rest)
      = let others := inspectRecords (index + frames.length)
          (spanOf base (index + frames.length)) rest
        ⟨rowsFrom base index frames ++ others.rows, others.verdict⟩ := by
  induction frames generalizing index with
  | nil => rfl
  | cons frame frames ih =>
    rw [List.length_cons] at room
    obtain ⟨seconds, micros, included, -⟩ := fields_headerAt base index frame
    have first := inspectRecord_headerAt ((piecesFrom base (index + 1) frames).flatten ++ rest)
      (show index < Timestamp.room base by omega) (short frame List.mem_cons_self)
      (sound frame List.mem_cons_self)
    -- the time in front of this record is the last one of the span
    rw [← map_snd_spanOf] at first
    have others := @ih (index + 1) (by omega)
      (fun f mem => short f (List.mem_cons_of_mem _ mem))
      (fun f mem => sound f (List.mem_cons_of_mem _ mem))
    rw [piecesFrom, List.flatten_cons, List.flatten_cons, List.append_assoc, List.append_assoc,
      inspectRecords_record _ (length_headerAt base index frame) first]
    simp only [seconds, micros, included]
    rw [← spanOf_succ, others, List.length_cons, Nat.add_right_comm, ← Nat.add_assoc]
    rfl

/-! ### A whole capture -/

/-- An inspection passes the `image` of sound frames and goes on behind it. -/
theorem of_image_append {base : UInt32} {frames : List Bytes} (rest : Bytes)
    (room : frames.length ≤ Timestamp.room base) (short : ∀ frame ∈ frames, frame.length < 2 ^ 32)
    (sound : ∀ frame ∈ frames, inspectFrame frame = .ok ()) :
    Inspection.of (image base frames ++ rest)
      = let others := inspectRecords frames.length (spanOf base frames.length) rest
        ⟨rowsFrom base 0 frames ++ others.rows, others.verdict⟩ := by
  have header_length : fileHeader.length = fileHeaderSize := rfl
  have records := @inspectRecords_piecesFrom base 0 frames rest (by omega) short sound
  rw [Nat.zero_add] at records
  rw [Inspection.of, image, filePieces, List.flatten_cons, List.append_assoc,
    splitExact?_append header_length]
  simp only [inspectFileHeader_fileHeader]
  exact records

theorem of_image {base : UInt32} {frames : List Bytes}
    (room : frames.length ≤ Timestamp.room base) (short : ∀ frame ∈ frames, frame.length < 2 ^ 32)
    (sound : ∀ frame ∈ frames, inspectFrame frame = .ok ()) :
    Inspection.of (image base frames)
      = ⟨rowsFrom base 0 frames, .ok ⟨frames.length, spanOf base frames.length⟩⟩ := by
  have whole := of_image_append [] room short sound
  rw [List.append_nil, inspectRecords_nil] at whole
  simpa using whole

theorem inspectFrame_of_mem_frames (plan : Plan) :
    ∀ frame ∈ plan.frames, inspectFrame frame = .ok () := by
  intro frame mem
  obtain ⟨a, -, rfl⟩ := List.mem_map.mp mem
  exact inspectFrame_layout _ _ _ _ (Record.length_encode a.intent)

/-- The closing line about `count` frames, the seconds and the microseconds of the first and the last
of them spelled out. -/
def closingLine (count : Nat) (first last : Timestamp) : String :=
  s!"Read {count} frames, all consistent. Timestamps "
    ++ s!"{first.seconds.toNat}.{Text.decimal 6 first.micros.toNat} .. "
    ++ s!"{last.seconds.toNat}.{Text.decimal 6 last.micros.toNat}."

example : closingLine 3 ⟨1700000000, 0⟩ ⟨1700000000, 2000⟩
    = "Read 3 frames, all consistent. Timestamps 1700000000.000000 .. 1700000000.002000." := by
  decide

theorem text_eq_closingLine (count : Nat) (first last : Timestamp) :
    Verdict.text ⟨count, some (first, last)⟩ = closingLine count first last := by
  simp only [Verdict.text, closingLine, Timestamp.text, toString, String.append_assoc]

/-- The closing line of a capture with frames has a comma, the other one has none. -/
theorem text_eq_headerOnly_iff (v : Verdict) :
    v.text = "Read 0 frames (header only)." ↔ v.span = none := by
  rcases v with ⟨records, _ | ⟨first, last⟩⟩
  · exact ⟨fun _ => rfl, fun _ => rfl⟩
  · constructor
    · intro same
      have comma : ',' ∈ (Verdict.text ⟨records, some (first, last)⟩).toList := by
        have middle : ',' ∈ (toString " frames, all consistent. Timestamps ").toList := by decide
        simp [Verdict.text, middle]
      rw [same] at comma
      exact absurd comma (by decide)
    · intro absurd_span
      cases absurd_span

/-- An inspection of what a run has left finds all of it. -/
theorem ofFile_of_run {δ : Type} [Device δ] {plan : Plan} {device after : δ} {summary : Summary}
    (path : String) (empty : Device.contents device = [])
    (h : plan.run device = (.ok summary, after)) :
    Inspection.ofFile path (some (Device.contents after))
        = ⟨rowsFrom plan.base 0 plan.frames,
            .ok ⟨plan.count.toNat, spanOf plan.base plan.count.toNat⟩⟩ ∧
      summary.capture.lastTime = lastTime plan.base plan.count.toNat := by
  obtain ⟨room, rfl, held⟩ := Plan.eq_summaryOf_of_run h
  rw [empty, List.nil_append] at held
  rw [← Plan.length_frames] at room ⊢
  refine ⟨?_, rfl⟩
  show Inspection.of (Device.contents after) = _
  rw [held]
  exact of_image room (Plan.short_of_mem_frames plan) (inspectFrame_of_mem_frames plan)

/-- **What a run has written is found sound.**  Whatever the `plan` and the `device`, an inspection of
what a run that went well has left ends in a `Verdict` with the count of the plan, the start of its
clock and the last time that the run has reported, and the `closingLine` shows these. -/
theorem verdict_of_run {δ : Type} [Device δ] {plan : Plan} {device after : δ} {summary : Summary}
    (path : String) (empty : Device.contents device = [])
    (h : plan.run device = (.ok summary, after)) :
    let findings := Inspection.ofFile path (some (Device.contents after))
    let first : Timestamp := ⟨plan.base, 0⟩
    ∃ verdict, findings.verdict = .ok verdict ∧
      verdict.records = plan.count.toNat ∧
      verdict.span = summary.capture.lastTime.map (fun last => (first, last)) ∧
      (∀ last, summary.capture.lastTime = some last →
        verdict.text = closingLine plan.count.toNat first last) ∧
      (verdict.text = "Read 0 frames (header only)." ↔ plan.count = 0) ∧
      ∀ dump, (findings.lines dump).length = if dump then plan.count.toNat else 0 := by
  intro findings first
  obtain ⟨findings_eq, last_time⟩ := ofFile_of_run path empty h
  have span_eq : spanOf plan.base plan.count.toNat
      = (lastTime plan.base plan.count.toNat).map (fun last => (first, last)) := by
    rw [spanOf, Timestamp.nth_zero]
  rw [show findings = _ from findings_eq, last_time]
  refine ⟨_, rfl, rfl, span_eq, ?_, ?_, ?_⟩
  · intro last reported
    rw [reported] at span_eq
    rw [span_eq]
    exact text_eq_closingLine _ _ _
  -- the words for a file without frames go with a run that has none
  · rw [text_eq_headerOnly_iff, span_eq, Option.map_eq_none_iff, ← UInt64.toNat_inj]
    show lastTime plan.base plan.count.toNat = none ↔ plan.count.toNat = 0
    cases plan.count.toNat with
    | zero => exact ⟨fun _ => rfl, fun _ => rfl⟩
    | succ n => simp [lastTime]
  · intro dump
    rw [lines]
    cases dump with
    | true =>
      show ((rowsFrom plan.base 0 plan.frames).map Row.text).length = plan.count.toNat
      rw [List.length_map, length_rowsFrom, Plan.length_frames]
    | false => rfl

/-- The plan that asks for nothing special, run in memory. -/
theorem verdict_of_run_default :
    ∃ summary after verdict, Plan.default.run Bounded.memory = (.ok summary, after) ∧
      (Inspection.ofFile "capture.pcap" (some (Device.contents after))).verdict = .ok verdict ∧
      verdict.records = 100 ∧ verdict.text
        = "Read 100 frames, all consistent. Timestamps 1700000000.000000 .. 1700000000.099000." := by
  have room : Plan.default.count.toNat ≤ Timestamp.room Plan.default.base := by decide
  obtain ⟨after, written⟩ := Plan.run_of_accepting Bounded.accepting_memory room
  obtain ⟨verdict, found, count, -, line, -⟩ := verdict_of_run "capture.pcap" rfl written
  have clock : lastTime Plan.default.base Plan.default.count.toNat
      = some ⟨1700000000, 99000⟩ := by decide
  have reported := (ofFile_of_run "capture.pcap" rfl written).2.trans clock
  have last_line := line ⟨1700000000, 99000⟩ reported
  refine ⟨_, after, verdict, written, found, count, last_line.trans ?_⟩
  decide

end SwapCapture.Inspection
