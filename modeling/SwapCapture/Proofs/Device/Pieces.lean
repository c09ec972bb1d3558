/-
Pieces handed to a device one after the other.

Whoever writes a file hands a device whole pieces and gives up at the first one that fails.  What
the device holds afterwards is a list of whole pieces and perhaps the front of one more:

* `contents_writeEach_ok` — all pieces are at the end of the content;
* `contents_writeEach_error` — the pieces before the faulty one are, and a part of its front;
* `writeEach_of_accepting` — a device that takes something of every offer takes all pieces.
-/
import SwapCapture.Device.Basic

namespace SwapCapture.Device

variable {δ : Type} [Device δ]

/-! ### Several pieces -/

/-- Writes `pieces` up to the first one that fails. -/
def writeEach (device : δ) : List Bytes → Answer δ Unit
  | [] => (.ok (), device)
  | piece :: rest =>
    match writeAll device piece with
    | (.error fault, device) => (.error fault, device)
    | (.ok (), device) => writeEach device rest

theorem writeEach_cons_eq_ok_iff {device after : δ} {piece : Bytes} {rest : List Bytes} :
    writeEach device (piece :: rest) = (.ok (), after) ↔
      ∃ middle, writeAll device piece = (.ok (), middle) ∧
        writeEach middle rest = (.ok (), after) := by
  rw [writeEach]
  rcases writeAll device piece with ⟨_ | _, next⟩ <;> simp

theorem writeEach_cons_eq_error_iff {device after : δ} {piece : Bytes} {rest : List Bytes}
    {fault : DeviceFault} :
    writeEach device (piece :: rest) = (.error fault, after) ↔
      writeAll device piece = (.error fault, after) ∨
      ∃ middle, writeAll device piece = (.ok (), middle) ∧
        writeEach middle rest = (.error fault, after) := by
  rw [writeEach]
  rcases writeAll device piece with ⟨_ | _, next⟩ <;> simp

theorem writeEach_append_ok {device middle : δ} {front : List Bytes} (rest : List Bytes)
    (h : writeEach device front = (.ok (), middle)) :
    writeEach device (front ++ rest) = writeEach middle rest := by
  induction front generalizing device with
  | nil =>
    cases h
    rfl
  | cons piece front ih =>
    obtain ⟨next, written, others⟩ := writeEach_cons_eq_ok_iff.mp h
    rw [List.cons_append, writeEach, written]
    exact ih others

theorem writeEach_append_error {device after : δ} {front : List Bytes} {fault : DeviceFault}
    (rest : List Bytes) (h : writeEach device front = (.error fault, after)) :
    writeEach device (front ++ rest) = (.error fault, after) := by
  induction front generalizing device with
  | nil => cases h
  | cons piece front ih =>
    rw [List.cons_append, writeEach_cons_eq_error_iff]
    rcases writeEach_cons_eq_error_iff.mp h with torn | ⟨next, written, others⟩
    · exact .inl torn
    · exact .inr ⟨next, written, ih others⟩

/-- Pieces that were written are at the end of `contents`, whole and in order. -/
theorem contents_writeEach_ok {device after : δ} {pieces : List Bytes}
    (h : writeEach device pieces = (.ok (), after)) :
    contents after = contents device ++ pieces.flatten := by
  induction pieces generalizing device with
  | nil =>
    cases h
    simp
  | cons piece rest ih =>
    obtain ⟨middle, written, others⟩ := writeEach_cons_eq_ok_iff.mp h
    rw [ih others, contents_writeAll_ok written, List.append_assoc, List.flatten_cons]

/-- Before a fault some pieces were written whole, and of the one behind them only a part of the
front. -/
theorem contents_writeEach_error {device after : δ} {pieces : List Bytes} {fault : DeviceFault}
    (h : writeEach device pieces = (.error fault, after)) :
    ∃ whole piece rest n, pieces = whole ++ piece :: rest ∧ n < piece.length ∧
      contents after = contents device ++ whole.flatten ++ piece.take n := by
  induction pieces generalizing device with
  | nil => cases h
  | cons piece rest ih =>
    rcases writeEach_cons_eq_error_iff.mp h with torn | ⟨middle, written, others⟩
    · obtain ⟨n, hn, held⟩ := contents_writeAll_error torn
      exact ⟨[], piece, rest, n, rfl, hn, by simpa using held⟩
    · obtain ⟨whole, torn, rest', n, split, hn, held⟩ := ih others
      refine ⟨piece :: whole, torn, rest', n, by rw [split]; rfl, hn, ?_⟩
      rw [held, contents_writeAll_ok written]
      simp only [List.flatten_cons, List.append_assoc]

/-- Whatever becomes of `pieces`, the device holds a front of them. -/
theorem contents_writeEach_prefix {device : δ} {pieces : List Bytes}
    (empty : contents device = []) :
    contents (writeEach device pieces).2 <+: pieces.flatten := by
  rcases h : writeEach device pieces with ⟨_ | _, after⟩
  · obtain ⟨whole, piece, rest, n, split, -, held⟩ := contents_writeEach_error h
    refine ⟨piece.drop n ++ rest.flatten, ?_⟩
    rw [held, empty, split]
    simp only [List.nil_append, List.append_assoc, List.flatten_append, List.flatten_cons]
    rw [← List.append_assoc (piece.take n), List.take_append_drop]
  · exact ⟨[], by rw [contents_writeEach_ok h, empty, List.nil_append, List.append_nil]⟩

/-! ### Devices that take everything -/

/-- The states of `device` that writes lead to. -/
inductive Reaches (device : δ) : δ → Prop where
  | refl : Reaches device device
  | write {later : δ} (bytes : Bytes) :
      Reaches device later → Reaches device (Device.write later bytes).2

theorem Reaches.trans {device middle later : δ} (first : Reaches device middle)
    (second : Reaches middle later) : Reaches device later := by
  induction second with
  | refl => exact first
  | write bytes _ ih => exact ih.write bytes

/-- Whatever has been written to it, `device` takes at least a byte of every offer, and it can
always be flushed. -/
structure Accepting (device : δ) : Prop where
  takes : ∀ {later : δ}, Reaches device later →
    ∀ bytes : Bytes, bytes ≠ [] → 0 < taken (Device.write later bytes).1
  flushes : ∀ {later : δ}, Reaches device later → (Device.flush later).1 = .ok ()

theorem Accepting.after {device later : δ} (h : Accepting device) (reached : Reaches device later) :
    Accepting later :=
  ⟨fun further => h.takes (reached.trans further), fun further => h.flushes (reached.trans further)⟩

/-- A device that is `Accepting` takes a piece whole. -/
theorem writeAll_of_accepting {device : δ} (h : Accepting device) (bytes : Bytes) :
    ∃ after, writeAll device bytes = (.ok (), after) ∧ Accepting after := by
  -- the induction is on the calls of the loop; neither way to fail is open to such a device
  fun_induction writeAll device bytes with
  | case1 device => exact ⟨device, rfl, h⟩
  | case2 device bytes nonempty fault next eq =>
    have some_taken := h.takes .refl bytes nonempty
    rw [eq] at some_taken
    exact absurd some_taken (Nat.lt_irrefl 0)
  | case3 device bytes nonempty next eq =>
    have some_taken := h.takes .refl bytes nonempty
    rw [eq] at some_taken
    exact absurd some_taken (Nat.lt_irrefl 0)
  | case4 device bytes nonempty n next eq ih =>
    apply ih
    have reached : Reaches device (Device.write device bytes).2 := .write bytes .refl
    rw [eq] at reached
    exact h.after reached

theorem writeEach_of_accepting {device : δ} (h : Accepting device) (pieces : List Bytes) :
    ∃ after, writeEach device pieces = (.ok (), after) ∧ Accepting after := by
  induction pieces generalizing device with
  | nil => exact ⟨device, rfl, h⟩
  | cons piece rest ih =>
    obtain ⟨middle, written, still⟩ := writeAll_of_accepting h piece
    obtain ⟨after, others, accepting⟩ := ih still
    exact ⟨after, writeEach_cons_eq_ok_iff.mpr ⟨middle, written, others⟩, accepting⟩

end SwapCapture.Device
