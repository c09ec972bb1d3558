/-
Devices that take bytes.

A low-level write offers a device some bytes, and the device takes as many of them from the front
as it likes or fails.  `Device.writeAll` repeats this until a whole piece has been taken.

* `Device` — the three things one can do with a device, and what a write does to its content;
* `Device.writeAll` — a piece written whole, or the fault that stopped it;
* `Device.contents_writeAll_ok` — a piece that was written is at the end of the content;
* `Device.contents_writeAll_error` — a piece that was not has left only a part of its front.
-/
import SwapCapture.Bytes.Words

namespace SwapCapture

inductive DeviceFault where
  /-- The device took nothing of a piece that was not empty, so that `Device.writeAll` gave up. -/
  | writeZero
  /-- A name on the way to the file, or the empty path, stands for nothing. -/
  | notFound
  /-- The path stands for a directory. -/
  | isADirectory
  /-- A directory was to be made where a file is. -/
  | alreadyExists
  /-- A name on the way to the file stands for a file. -/
  | notADirectory
  /-- A name, or the whole path, is longer than names and paths can be. -/
  | nameTooLong
  /-- The path has a NUL in it, which would end it. -/
  | nulInPath
  /-- The device refused, for a reason of its own. -/
  | other (reason : String)
deriving DecidableEq, Repr

def DeviceFault.message : DeviceFault → String
  | .writeZero => "failed to write whole buffer"
  | .notFound => "No such file or directory (os error 2)"
  | .isADirectory => "Is a directory (os error 21)"
  | .alreadyExists => "File exists (os error 17)"
  | .notADirectory => "Not a directory (os error 20)"
  | .nameTooLong => "File name too long (os error 36)"
  | .nulInPath => "file name contained an unexpected NUL byte"
  | .other reason => reason

/-- The answer of a device, and the device after it. -/
abbrev Answer (δ α : Type) := Except DeviceFault α × δ

/-- The number of bytes that a write has taken; a fault takes none. -/
def Device.taken : Except DeviceFault Nat → Nat
  | .ok n => n
  | .error _ => 0

class Device (δ : Type) where
  /-- Everything taken so far. -/
  contents : δ → Bytes
  /-- Offers some bytes; the answer is how many of them were taken, from the front. -/
  write : δ → Bytes → Answer δ Nat
  flush : δ → Answer δ Unit
  contents_write : ∀ (device : δ) (bytes : Bytes),
    contents (write device bytes).2 =
      contents device ++ bytes.take (Device.taken (write device bytes).1)
  taken_le : ∀ (device : δ) (bytes : Bytes),
    Device.taken (write device bytes).1 ≤ bytes.length
  contents_flush : ∀ device : δ, contents (flush device).2 = contents device

namespace Device

variable {δ : Type} [Device δ]

/-- Writes until all of `bytes` have been taken.  No bytes make no write, and a device that takes
none of some bytes will never take them all. -/
def writeAll (device : δ) (bytes : Bytes) : Answer δ Unit :=
  if _ : bytes = [] then (.ok (), device)
  else
    match write device bytes with
    | (.error fault, device) => (.error fault, device)
    | (.ok 0, device) => (.error .writeZero, device)
    | (.ok (n + 1), device) => writeAll device (bytes.drop (n + 1))
termination_by bytes.length
decreasing_by
  -- a write that goes on has taken a byte at least
  have := List.length_pos_iff.mpr ‹¬bytes = []›
  simp only [List.length_drop]
  omega

/-- A piece that was written is at the end of `contents`, whole. -/
theorem contents_writeAll_ok {device after : δ} {bytes : Bytes}
    (h : writeAll device bytes = (.ok (), after)) :
    contents after = contents device ++ bytes := by
  fun_induction writeAll device bytes with
  | case1 device =>
    cases h
    simp
  | case2 | case3 => simp at h
  | case4 device bytes nonempty n next eq ih =>
    have law := contents_write device bytes
    rw [eq] at law
    rw [ih h, law, List.append_assoc]
    simp [taken, List.take_append_drop]

/-- A piece that was not written whole has left a part of its front in `contents`, and never all of
it. -/
theorem contents_writeAll_error {device after : δ} {bytes : Bytes} {fault : DeviceFault}
    (h : writeAll device bytes = (.error fault, after)) :
    ∃ n < bytes.length, contents after = contents device ++ bytes.take n := by
  fun_induction writeAll device bytes with
  | case1 => simp at h
  -- a fault and an empty write take nothing, so nothing is left of the piece
  | case2 device bytes nonempty fault' next eq =>
    cases h
    have law := contents_write device bytes
    rw [eq] at law
    exact ⟨0, List.length_pos_iff.mpr nonempty, by simpa [taken] using law⟩
  | case3 device bytes nonempty next eq =>
    cases h
    have law := contents_write device bytes
    rw [eq] at law
    exact ⟨0, List.length_pos_iff.mpr nonempty, by simpa [taken] using law⟩
  -- what this write took comes before the front that the later ones leave
  | case4 device bytes nonempty n next eq ih =>
    have law := contents_write device bytes
    rw [eq] at law
    obtain ⟨m, hm, hafter⟩ := ih h
    simp only [List.length_drop] at hm
    refine ⟨n + 1 + m, by omega, ?_⟩
    rw [hafter, law, List.append_assoc, List.take_add]
    rfl

end Device

end SwapCapture
