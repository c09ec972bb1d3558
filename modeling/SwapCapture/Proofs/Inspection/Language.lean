/-
The captures that an inspection accepts.

A `SwapRecord` is a record header and 90 bytes behind it that carry a swap.  Any bytes start with
some swap records in the order of their times, and an inspection finds the most of them that there
are.  It accepts the capture if fewer bytes are left than a record header has, and otherwise
rejects it for the record behind them:

* `inspectFileHeader_eq_ok_iff`, `inspectFrame_eq_ok_iff` — the checks, as conditions on bytes;
* `inspectRecords_ordered` — ordered records are gone through whatever is behind them;
* `exists_leading` — the findings of every inspection, by the records that it has passed;
* `ofFile_characterized` — the captures that are accepted, and what is found of every other one.
-/
import Mathlib.Data.List.Chain
import Mathlib.Order.Bounds.Defs
import SwapCapture.Proofs.Inspection.Sound

namespace SwapCapture

/-- The time `a` does not lie after `b`: by seconds, then by microseconds. -/
def Timestamp.NotAfter (a b : Timestamp) : Prop :=
  a.seconds < b.seconds ∨ a.seconds = b.seconds ∧ a.micros ≤ b.micros

namespace Inspection

open Bytes Pcap

/-! ### The checks -/

theorem ite_error_eq_ok_iff {ε α : Type} {c : Prop} [Decidable c] {e : ε} {rest : Except ε α}
    {a : α} : (if c then .error e else rest) = .ok a ↔ ¬c ∧ rest = .ok a := by
  by_cases h : c
  · rw [if_pos h]
    exact iff_of_false (fun same => nomatch same) fun both => both.1 h
  · rw [if_neg h]
    exact (and_iff_right h).symm

/-- Six words of known values leave no other header than `fileHeader`. -/
theorem inspectFileHeader_eq_ok_iff {header : Bytes} (length_eq : header.length = 24) :
    inspectFileHeader header = .ok () ↔ header = fileHeader := by
  constructor
  · intro passed
    simp only [inspectFileHeader, ite_error_eq_ok_iff, not_or, ne_eq, not_not, and_true] at passed
    obtain ⟨magic_eq, ⟨major_eq, minor_eq⟩, ⟨zone_eq, accuracy_eq⟩, snap_eq, link_eq⟩ := passed
    -- the fields lie side by side, and the last one ends the header
    have magic_front : header.drop 0 = le32 magic ++ header.drop 4 :=
      drop_of_le32At (by omega) magic_eq
    have major_front : header.drop 4 = le16 versionMajor ++ header.drop 6 :=
      drop_of_le16At (by omega) major_eq
    have minor_front : header.drop 6 = le16 versionMinor ++ header.drop 8 :=
      drop_of_le16At (by omega) minor_eq
    have zone_front : header.drop 8 = le32 0 ++ header.drop 12 :=
      drop_of_le32At (by omega) zone_eq
    have accuracy_front : header.drop 12 = le32 0 ++ header.drop 16 :=
      drop_of_le32At (by omega) accuracy_eq
    have snap_front : header.drop 16 = le32 snapLength ++ header.drop 20 :=
      drop_of_le32At (by omega) snap_eq
    have link_front : header.drop 20 = le32 linkEthernet ++ header.drop 24 :=
      drop_of_le32At (by omega) link_eq
    have behind : header.drop 24 = [] := List.drop_eq_nil_of_le (by omega)
    rw [← List.drop_zero (l := header), magic_front, major_front, minor_front, zone_front,
      accuracy_front, snap_front, link_front, behind]
    rfl
  · rintro rfl
    exact inspectFileHeader_fileHeader

/-- A frame of 90 bytes whose headers say that it carries a swap record. -/
structure IsSwapFrame (frame : Bytes) : Prop where
  length_eq : frame.length = 90
  etherType_eq : be16At frame 12 = 0x0800
  protocol_eq : byteAt frame 23 = 17
  ipv4Length_eq : be16At frame 16 = 76
  udpLength_eq : be16At frame 38 = 56

theorem inspectFrame_eq_ok_iff {frame : Bytes} :
    inspectFrame frame = .ok () ↔ IsSwapFrame frame := by
  have ipv4 : (be16At frame 16).toNat = 76 ↔ be16At frame 16 = 76 := UInt16.toNat_inj (b := 76)
  have udp : (be16At frame 38).toNat = 56 ↔ be16At frame 38 = 56 := UInt16.toNat_inj (b := 56)
  simp only [inspectFrame, ite_error_eq_ok_iff, ne_eq, not_not, and_true]
  constructor
  · rintro ⟨long, ether_type, protocol, ipv4_length, udp_length, payload⟩
    -- the last check fixes the length of the payload that the two before it compare with
    rw [payload] at ipv4_length udp_length
    refine ⟨?_, ether_type, protocol, ipv4.mp ipv4_length, udp.mp udp_length⟩
    have long : ¬frame.length < 42 := long
    have payload : frame.length - 42 = 48 := payload
    omega
  · rintro ⟨length_eq, ether_type, protocol, ipv4_length, udp_length⟩
    rw [length_eq]
    exact ⟨by decide, ether_type, protocol, ipv4.mpr ipv4_length, udp.mpr udp_length, rfl⟩

theorem before_eq_false_iff {a b : Timestamp} : b.before a = false ↔ a.NotAfter b := by
  simp only [Timestamp.before, Timestamp.NotAfter, Bool.or_eq_false_iff, Bool.and_eq_false_iff,
    decide_eq_false_iff_not, beq_eq_false_iff_ne, ne_eq, UInt32.lt_iff_toNat_lt,
    UInt32.le_iff_toNat_le, ← UInt32.toNat_inj]
  omega

theorem goesBack?_eq_none_iff {previous : Option Timestamp} {time : Timestamp} :
    goesBack? previous time = none ↔ ∀ p ∈ previous, p.NotAfter time := by
  cases previous with
  | none => exact iff_of_true rfl fun p mem => absurd mem (Option.not_mem_none p)
  | some p =>
    have all : (∀ q ∈ some p, q.NotAfter time) ↔ time.before p = false := by
      simp [before_eq_false_iff]
    rw [all, goesBack?]
    cases time.before p with
    | true => exact iff_of_false (Option.some_ne_none p) (by decide)
    | false => exact iff_of_true rfl rfl

theorem splitExact?_eq_none_iff {n : Nat} {bytes : Bytes} :
    splitExact? n bytes = none ↔ bytes.length < n := by
  have parts : splitExact? n bytes
      = if (bytes.take n).length = n then some (bytes.take n, bytes.drop n) else none := by
    rw [splitExact?, List.splitAt_eq]
  rw [parts]
  constructor
  · intro h
    by_contra enough
    rw [Nat.not_lt] at enough
    rw [if_pos (List.length_take_of_le enough)] at h
    cases h
  · intro short
    have front_short : (bytes.take n).length ≠ n := by
      rw [List.length_take]
      omega
    exact if_neg front_short

/-! ### Records -/

/-- The header of a record with both lengths 90, and a frame that carries a swap record. -/
structure SwapRecord where
  header : Bytes
  frame : Bytes
  header_length : header.length = 16
  included_eq : le32At header 8 = 90
  full_eq : le32At header 12 = 90
  sound : IsSwapFrame frame

namespace SwapRecord

def bytes (r : SwapRecord) : Bytes := r.header ++ r.frame

def time (r : SwapRecord) : Timestamp := ⟨le32At r.header 0, le32At r.header 4⟩

theorem length_bytes (r : SwapRecord) : r.bytes.length = 106 := by
  rw [bytes, List.length_append, r.header_length, r.sound.length_eq]

end SwapRecord

/-- The times of `records` never go back, the time in front of them included. -/
def Ordered (previous : Option Timestamp) (records : List SwapRecord) : Prop :=
  (previous.toList ++ records.map SwapRecord.time).IsChain Timestamp.NotAfter

theorem ordered_nil (previous : Option Timestamp) : Ordered previous [] := by
  cases previous with
  | none => exact .nil
  | some p => exact .singleton p

theorem ordered_cons_iff {previous : Option Timestamp} {r : SwapRecord}
    {records : List SwapRecord} :
    Ordered previous (r :: records)
      ↔ (∀ p ∈ previous, p.NotAfter r.time) ∧ Ordered (some r.time) records := by
  cases previous with
  | none => simp [Ordered]
  | some p => simp [Ordered]

theorem inspectRecord_bytes {previous : Option Timestamp} {r : SwapRecord} (rest : Bytes)
    (follows : ∀ p ∈ previous, p.NotAfter r.time) :
    inspectRecord previous r.header (r.frame ++ rest) = .ok (r.frame, rest) := by
  have ordered : goesBack? previous ⟨le32At r.header 0, le32At r.header 4⟩ = none :=
    goesBack?_eq_none_iff.mpr follows
  have cut : splitExact? (le32At r.header 8).toNat (r.frame ++ rest) = some (r.frame, rest) := by
    rw [r.included_eq]
    exact splitExact?_append r.sound.length_eq rest
  have equal : ¬le32At r.header 8 ≠ le32At r.header 12 := by
    rw [r.included_eq, r.full_eq]
    decide
  rw [inspectRecord]
  simp only [if_neg equal, ordered, cut, inspectFrame_eq_ok_iff.mpr r.sound]

/-- What `inspectRecord` lets pass is a `SwapRecord`. -/
theorem exists_record_of_inspectRecord {previous : Option Timestamp}
    {header rest frame after : Bytes} (length_eq : header.length = 16)
    (h : inspectRecord previous header rest = .ok (frame, after)) :
    ∃ r : SwapRecord, r.header = header ∧ r.frame = frame ∧ rest = frame ++ after ∧
      ∀ p ∈ previous, p.NotAfter r.time := by
  -- every check of the record was passed, in the order in which they are made
  rw [inspectRecord] at h
  simp only [ite_error_eq_ok_iff, ne_eq, not_not] at h
  obtain ⟨equal, h⟩ := h
  split at h
  · cases h
  next ordered =>
  split at h
  · cases h
  next cut =>
  split at h
  · cases h
  next passed =>
  cases h
  obtain ⟨frame_length, split⟩ := splitExact?_eq_some cut
  have sound := inspectFrame_eq_ok_iff.mp passed
  -- only a frame of 90 bytes is sound, so the header has no other length
  have included_eq : le32At header 8 = 90 := by
    apply UInt32.toNat_inj.mp
    rw [← frame_length, sound.length_eq]
    rfl
  exact ⟨⟨header, frame, length_eq, included_eq, equal ▸ included_eq, sound⟩, rfl, rfl, split,
    goesBack?_eq_none_iff.mp ordered⟩

/-! ### Many records -/

def joined (records : List SwapRecord) : Bytes := (records.map SwapRecord.bytes).flatten

/-- What is shown of `records`, the first of which has the given index. -/
def rowsOf : Nat → List SwapRecord → List Row
  | _, [] => []
  | index, r :: rest => rowOf index r.time 90 r.frame :: rowsOf (index + 1) rest

/-- The first and the last time once some records have been passed. -/
def widen (span : Option (Timestamp × Timestamp)) : List SwapRecord → Option (Timestamp × Timestamp)
  | [] => span
  | r :: rest => widen (some ((span.map Prod.fst).getD r.time, r.time)) rest

@[simp] theorem length_rowsOf (index : Nat) (records : List SwapRecord) :
    (rowsOf index records).length = records.length := by
  induction records generalizing index with
  | nil => rfl
  | cons r rest ih => rw [rowsOf, List.length_cons, List.length_cons, ih]

theorem widen_some (first last : Timestamp) (records : List SwapRecord) :
    widen (some (first, last)) records
      = some (first, (records.getLast?.map SwapRecord.time).getD last) := by
  induction records generalizing last with
  | nil => rfl
  | cons r rest ih =>
    rw [widen, Option.map_some, Option.getD_some, ih]
    cases rest with
    | nil => rfl
    | cons s rest => simp [List.getLast?_cons]

/-- Records in order are all gone through, and `rest` is looked at from there. -/
theorem inspectRecords_ordered {index : Nat} {span : Option (Timestamp × Timestamp)}
    {records : List SwapRecord} (rest : Bytes)
    (ordered : Ordered (span.map Prod.snd) records) :
    inspectRecords index span (joined records ++ rest)
      = let others := inspectRecords (index + records.length) (widen span records) rest
        ⟨rowsOf index records ++ others.rows, others.verdict⟩ := by
  induction records generalizing index span with
  | nil => rfl
  | cons r records ih =>
    obtain ⟨follows, ordered⟩ := ordered_cons_iff.mp ordered
    have first := inspectRecord_bytes (joined records ++ rest) follows
    have others := @ih (index + 1) (some ((span.map Prod.fst).getD r.time, r.time)) ordered
    -- the first record stands in front of the others, and none of its bytes is in their way
    have shape : joined (r :: records) ++ rest
        = r.header ++ (r.frame ++ (joined records ++ rest)) := by
      simp [joined, SwapRecord.bytes]
    rw [shape, inspectRecords_record _ r.header_length first]
    simp only [r.included_eq]
    rw [show (⟨le32At r.header 0, le32At r.header 4⟩ : Timestamp) = r.time from rfl, others,
      List.length_cons, Nat.add_right_comm, ← Nat.add_assoc]
    rfl

/-- **The findings of every inspection.** The induction goes along `inspectRecords` itself: it ends
with too few bytes for a header, at a record with a defect, or behind one more `SwapRecord`. -/
theorem exists_leading (index : Nat) (span : Option (Timestamp × Timestamp)) (bytes : Bytes) :
    ∃ records rest, bytes = joined records ++ rest ∧ Ordered (span.map Prod.snd) records ∧
      (rest.length < 16 ∨ ∃ defect, inspectRecords index span bytes
        = ⟨rowsOf index records, .error (.record (index + records.length) defect)⟩) := by
  fun_induction inspectRecords index span bytes with
  -- too little is left for a header
  | case1 index span bytes short =>
    exact ⟨[], bytes, rfl, ordered_nil _, .inl (splitExact?_eq_none_iff.mp short)⟩
  -- the record in front has a defect
  | case2 index span bytes header rest parts defect bad =>
    exact ⟨[], bytes, rfl, ordered_nil _, .inr ⟨defect, rfl⟩⟩
  -- one more swap record, in front of those that come from the rest
  | case3 index span bytes header rest parts frame after good time first others ih =>
    obtain ⟨header_length, split⟩ := splitExact?_eq_some parts
    obtain ⟨r, rfl, rfl, rest_eq, follows⟩ := exists_record_of_inspectRecord header_length good
    obtain ⟨records, tail, split', ordered, ends⟩ := ih
    refine ⟨r :: records, tail, ?_, ordered_cons_iff.mpr ⟨follows, ordered⟩, ?_⟩
    · rw [split, rest_eq, split']
      simp [joined, SwapRecord.bytes]
    · rcases ends with short | ⟨defect, stopped⟩
      · exact .inl short
      · refine .inr ⟨defect, ?_⟩
        have others_eq : others = _ := stopped
        rw [others_eq, r.included_eq, List.length_cons, Nat.add_comm records.length 1,
          ← Nat.add_assoc]
        rfl

theorem inspectRecords_of_short (index : Nat) (span : Option (Timestamp × Timestamp))
    {bytes : Bytes} (short : bytes.length < 16) :
    inspectRecords index span bytes = ⟨[], .ok ⟨index, span⟩⟩ := by
  rw [inspectRecords]
  split
  · rfl
  next header rest parts =>
  obtain ⟨header_length, split⟩ := splitExact?_eq_some parts
  rw [split, List.length_append, header_length, recordHeaderSize] at short
  omega

/-! ### Captures -/

/-- The first and the last time of `records`, if there are any. -/
def bounds (records : List SwapRecord) : Option (Timestamp × Timestamp) :=
  records.head?.bind fun first => records.getLast?.map fun last => (first.time, last.time)

/-- `capture` begins with `fileHeader` and `records` in order, and `rest` is behind them. -/
def Begins (capture : Bytes) (records : List SwapRecord) (rest : Bytes) : Prop :=
  capture = fileHeader ++ (joined records ++ rest) ∧ Ordered none records

/-- A capture of swap records in order, with fewer bytes behind them than a record header has. -/
def Consistent (capture : Bytes) : Prop :=
  ∃ records rest, Begins capture records rest ∧ rest.length < 16

theorem widen_none (records : List SwapRecord) : widen none records = bounds records := by
  cases records with
  | nil => rfl
  | cons r records =>
    rw [widen, Option.map_none, Option.getD_none, widen_some]
    cases records with
    | nil => rfl
    | cons s records => simp [bounds, List.getLast?_cons]

theorem of_fileHeader (bytes : Bytes) :
    Inspection.of (fileHeader ++ bytes) = inspectRecords 0 none bytes := by
  rw [Inspection.of, splitExact?_append length_fileHeader]
  simp only [inspectFileHeader_fileHeader]

/-- Without `fileHeader` in front nothing is found. -/
theorem of_otherHeader {capture : Bytes} (h : ¬fileHeader <+: capture) :
    ∃ defect, Inspection.of capture = ⟨[], .error defect⟩ := by
  rw [Inspection.of]
  split
  · exact ⟨_, rfl⟩
  next header rest parts =>
  obtain ⟨header_length, split⟩ := splitExact?_eq_some parts
  split
  · exact ⟨_, rfl⟩
  next passed =>
  have right := (inspectFileHeader_eq_ok_iff header_length).mp passed
  refine absurd ⟨rest, ?_⟩ h
  rw [split, right]

theorem of_begins {capture : Bytes} {records : List SwapRecord} {rest : Bytes}
    (h : Begins capture records rest) :
    Inspection.of capture
      = let others := inspectRecords records.length (bounds records) rest
        ⟨rowsOf 0 records ++ others.rows, others.verdict⟩ := by
  obtain ⟨rfl, ordered⟩ := h
  have walked := @inspectRecords_ordered 0 none records rest ordered
  rw [Nat.zero_add, widen_none] at walked
  rw [of_fileHeader, walked]

theorem of_begins_short {capture : Bytes} {records : List SwapRecord} {rest : Bytes}
    (h : Begins capture records rest) (short : rest.length < 16) :
    Inspection.of capture = ⟨rowsOf 0 records, .ok ⟨records.length, bounds records⟩⟩ := by
  have walked := of_begins h
  rw [inspectRecords_of_short _ _ short] at walked
  simpa using walked

/-- What is not `Consistent` is rejected for the record behind those that have been passed. -/
theorem of_inconsistent {capture : Bytes} (right : fileHeader <+: capture)
    (inconsistent : ¬Consistent capture) :
    ∃ records rest defect, Begins capture records rest ∧
      Inspection.of capture = ⟨rowsOf 0 records, .error (.record records.length defect)⟩ := by
  obtain ⟨bytes, rfl⟩ := right
  obtain ⟨records, rest, split, ordered, ends⟩ := exists_leading 0 none bytes
  have begins : Begins (fileHeader ++ bytes) records rest := ⟨by rw [split], ordered⟩
  rcases ends with short | ⟨defect, stopped⟩
  · exact absurd ⟨records, rest, begins, short⟩ inconsistent
  · rw [Nat.zero_add] at stopped
    exact ⟨records, rest, defect, begins, by rw [of_fileHeader, stopped]⟩

theorem exists_verdict_iff (capture : Bytes) :
    (∃ verdict, (Inspection.of capture).verdict = .ok verdict) ↔ Consistent capture := by
  constructor
  · rintro ⟨verdict, passed⟩
    by_contra inconsistent
    by_cases right : fileHeader <+: capture
    · obtain ⟨records, rest, defect, -, found⟩ := of_inconsistent right inconsistent
      rw [found] at passed
      cases passed
    · obtain ⟨defect, found⟩ := of_otherHeader right
      rw [found] at passed
      cases passed
  · rintro ⟨records, rest, begins, short⟩
    exact ⟨_, by rw [of_begins_short begins short]⟩

/-- No beginning of `capture` has more records than an inspection shows of it. -/
theorem isGreatest_of_rows {capture : Bytes} {records : List SwapRecord} {rest : Bytes}
    (begins : Begins capture records rest)
    (rows_eq : (Inspection.of capture).rows = rowsOf 0 records) :
    IsGreatest {n | ∃ records rest, Begins capture records rest ∧ records.length = n}
      records.length := by
  refine ⟨⟨records, rest, begins, rfl⟩, ?_⟩
  rintro n ⟨records', rest', begins', rfl⟩
  -- every record of a beginning is shown, whatever comes behind it
  have shown : (Inspection.of capture).rows.length = records.length := by
    rw [rows_eq, length_rowsOf]
  rw [← shown, of_begins begins', List.length_append, length_rowsOf]
  exact Nat.le_add_right _ _

/-! ### Messages -/

/-- A message begins with the `index` of a frame, and no digit follows. -/
def Names (index : Nat) (message : String) : Prop :=
  ∃ rest : String, message = s!"frame {index}" ++ rest ∧
    (rest.toList.head? = some ':' ∨ rest.toList.head? = some ' ')

theorem Names.append {index : Nat} {message : String} (h : Names index message) (text : String) :
    Names index (message ++ text) := by
  obtain ⟨rest, rfl, mark⟩ := h
  refine ⟨rest ++ text, String.append_assoc .., ?_⟩
  rw [String.toList_append, List.head?_append]
  rcases mark with mark | mark
  · exact .inl (by rw [mark]; rfl)
  · exact .inr (by rw [mark]; rfl)

theorem names_mark {index : Nat} {text : String}
    (h : text.toList.head? = some ':' ∨ text.toList.head? = some ' ') :
    Names index (s!"frame {index}" ++ text) :=
  ⟨text, rfl, h⟩

theorem names_message (index : Nat) (defect : RecordDefect) :
    Names index (defect.message index) := by
  cases defect with
  | lengths included full => exact (((names_mark (.inl (by decide))).append _).append _).append _
  | goesBack time previous => exact (((names_mark (.inl (by decide))).append _).append _).append _
  | truncated => exact names_mark (.inr (by decide))
  | noHeaders length => exact ((names_mark (.inl (by decide))).append _).append _
  | etherType found => exact (names_mark (.inl (by decide))).append _
  | protocol found => exact (names_mark (.inl (by decide))).append _
  | ipv4Length found length =>
    exact ((((names_mark (.inl (by decide))).append _).append _).append _).append _
  | udpLength found length =>
    exact ((((names_mark (.inl (by decide))).append _).append _).append _).append _
  | payload length => exact (((names_mark (.inl (by decide))).append _).append _).append _

/-! ### The language -/

/-- **The captures that an inspection accepts.**  They are the `Consistent` ones, and the
`closingLine` then shows the number of their records, the first time and the last.  Any other
`capture` with a right `fileHeader` is rejected for the record behind the most swap records that it
`Begins` with, and just these have been shown by then.  Without a right file header nothing is
shown. -/
theorem ofFile_characterized (path : String) (capture : Bytes) :
    let findings := Inspection.ofFile path (some capture)
    ((∃ verdict, findings.verdict = .ok verdict) ↔ Consistent capture) ∧
    (∀ records rest, Begins capture records rest → rest.length < 16 →
      ∃ verdict, findings.verdict = .ok verdict ∧
        verdict.records = records.length ∧ verdict.span = bounds records ∧
        (records = [] → verdict.text = "Read 0 frames (header only).") ∧
        (∀ first last, bounds records = some (first, last) →
          verdict.text = closingLine records.length first last) ∧
        (findings.lines true).length = records.length) ∧
    (fileHeader <+: capture → ¬Consistent capture →
      ∃ k defect, IsGreatest {n | ∃ records rest, Begins capture records rest ∧
          records.length = n} k ∧
        findings.verdict = .error (.record k defect) ∧
        Names k (Defect.record k defect).message ∧
        (findings.lines true).length = k ∧ findings.lines false = []) ∧
    (¬fileHeader <+: capture →
      ∃ defect, findings.verdict = .error defect ∧ ∀ dump, findings.lines dump = []) := by
  intro findings
  have findings_eq : findings = Inspection.of capture := rfl
  rw [findings_eq]
  refine ⟨exists_verdict_iff capture, ?_, ?_, ?_⟩
  -- a consistent capture, and what is shown of it
  · intro records rest begins short
    rw [of_begins_short begins short]
    refine ⟨_, rfl, rfl, rfl, ?_, ?_, ?_⟩
    · rintro rfl
      rfl
    · intro first last span_eq
      rw [span_eq]
      exact text_eq_closingLine _ _ _
    · rw [lines, if_pos rfl, List.length_map, length_rowsOf]
  -- a capture with a defect: nothing is passed over, so the most records come before it
  · intro right inconsistent
    obtain ⟨records, rest, defect, begins, found⟩ := of_inconsistent right inconsistent
    have greatest := isGreatest_of_rows begins (by rw [found])
    refine ⟨records.length, defect, greatest, ?_, names_message _ _, ?_, ?_⟩
    · rw [found]
    · rw [found, lines, if_pos rfl, List.length_map, length_rowsOf]
    · rfl
  · intro other
    obtain ⟨defect, found⟩ := of_otherHeader other
    rw [found]
    refine ⟨defect, rfl, ?_⟩
    intro dump
    cases dump with
    | true => rfl
    | false => rfl

theorem length_joined (records : List SwapRecord) :
    (joined records).length = 106 * records.length := by
  induction records with
  | nil => rfl
  | cons r records ih =>
    have split : joined (r :: records) = r.bytes ++ joined records := rfl
    rw [split, List.length_append, r.length_bytes, ih, List.length_cons]
    omega

/-- One swap record and sixteen zeros behind it, which are no record. -/
theorem ofFile_characterized_zeros :
    ∃ r : SwapRecord,
      let findings := Inspection.ofFile "capture.pcap"
        (some (fileHeader ++ (r.bytes ++ List.replicate 16 0)))
      ∃ defect, findings.verdict = .error (.record 1 defect) ∧
        (findings.lines true).length = 1 := by
  let frame := Frame.layout .default 1 0 0 (List.replicate 48 0)
  have sound : IsSwapFrame frame :=
    inspectFrame_eq_ok_iff.mp (inspectFrame_layout .default 1 0 0 rfl)
  let r : SwapRecord := ⟨recordHeader ⟨7, 0⟩ 90, frame, rfl, rfl, rfl, sound⟩
  refine ⟨r, ?_⟩
  intro findings
  have length_eq : (r.bytes ++ List.replicate 16 0).length = 122 := by
    rw [List.length_append, r.length_bytes, List.length_replicate]
  have begins : Begins (fileHeader ++ (r.bytes ++ List.replicate 16 0)) [r]
      (List.replicate 16 0) := ⟨by simp [joined], .singleton _⟩
  -- of 122 bytes no number of records leaves fewer than 16
  have lengths : ∀ records rest,
      Begins (fileHeader ++ (r.bytes ++ List.replicate 16 0)) records rest →
      106 * records.length + rest.length = 122 := by
    rintro records rest ⟨split, -⟩
    rw [← length_joined, ← List.length_append, ← List.append_cancel_left split, length_eq]
  have inconsistent : ¬Consistent (fileHeader ++ (r.bytes ++ List.replicate 16 0)) := by
    rintro ⟨records, rest, begins, short⟩
    have := lengths records rest begins
    omega
  obtain ⟨-, -, rejected, -⟩ := ofFile_characterized "capture.pcap"
    (fileHeader ++ (r.bytes ++ List.replicate 16 0))
  obtain ⟨k, defect, greatest, found, -, shown, -⟩ := rejected ⟨_, rfl⟩ inconsistent
  obtain ⟨records, rest, begins', rfl⟩ := greatest.1
  have at_least : 1 ≤ records.length := greatest.2 ⟨[r], _, begins, rfl⟩
  have at_most := lengths records rest begins'
  have one : records.length = 1 := by omega
  rw [one] at found shown
  exact ⟨defect, found, shown⟩

end Inspection

end SwapCapture
