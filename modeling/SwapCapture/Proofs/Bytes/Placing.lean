/-
Fields that are written into zeros.

A header can be put together from its fields, one behind another, or its fields can be written over
a buffer of zeros, each at its own offset.  The second way leaves a gap where no field is written.
Both come to the same bytes:

* `overwriteAll?` — a buffer after some fields, each written at its offset;
* `gapped`, `placed` — the same fields put together, and their offsets;
* `overwriteAll?_placed` — writing fields where they are placed is putting them together.
-/
import SwapCapture.Bytes.Words

namespace SwapCapture.Bytes

/-- `buffer` after some fields have been written over it in order, unless one lies outside. -/
def overwriteAll? (buffer : Bytes) (fields : List (Nat × Bytes)) : Option Bytes :=
  fields.foldlM (fun buffer field => overwrite? buffer field.1 field.2) buffer

/-- Fields put together, with as many zeros in front of each as its `gap` says. -/
def gapped : List (Nat × Bytes) → Bytes
  | [] => []
  | (gap, field) :: rest => List.replicate gap 0 ++ (field ++ gapped rest)

/-- The same fields with their offsets, where the first gap begins at `offset`. -/
def placed (offset : Nat) : List (Nat × Bytes) → List (Nat × Bytes)
  | [] => []
  | (gap, field) :: rest => (offset + gap, field) :: placed (offset + gap + field.length) rest

/-- A `field` takes the place of as many zeros as it has bytes. -/
theorem overwrite?_zeros (front field back : Bytes) :
    overwrite? (front ++ (List.replicate field.length 0 ++ back)) front.length field
      = some (front ++ field ++ back) := by
  have zeros_length : (List.replicate field.length (0 : UInt8)).length = field.length :=
    List.length_replicate
  have fits : front.length + field.length
      ≤ (front ++ (List.replicate field.length 0 ++ back)).length := by
    rw [List.length_append, List.length_append, zeros_length]
    omega
  rw [overwrite?, if_pos fits, List.take_left, ← List.drop_drop, List.drop_left,
    List.drop_left' zeros_length]

/-- Writing fields into zeros where they are `placed` is putting them together.  The induction is on
the fields: everything in front of the next one has been written or stays zero. -/
theorem overwriteAll?_placed (front : Bytes) (fields : List (Nat × Bytes)) (tail : Nat) :
    overwriteAll? (front ++ List.replicate ((gapped fields).length + tail) 0)
        (placed front.length fields)
      = some (front ++ (gapped fields ++ List.replicate tail 0)) := by
  induction fields generalizing front with
  | nil =>
    rw [gapped, List.length_nil, Nat.zero_add, List.nil_append]
    rfl
  | cons entry fields ih =>
    obtain ⟨gap, field⟩ := entry
    let before := front ++ List.replicate gap 0
    have before_length : before.length = front.length + gap := by
      rw [List.length_append, List.length_replicate]
    -- the zeros are those of the gap, those of the field and those behind it
    have zeros : front ++ List.replicate ((gapped ((gap, field) :: fields)).length + tail) 0
        = before ++ (List.replicate field.length 0
          ++ List.replicate ((gapped fields).length + tail) 0) := by
      rw [List.append_assoc, List.replicate_append_replicate, List.replicate_append_replicate,
        gapped, List.length_append, List.length_append, List.length_replicate, Nat.add_assoc,
        Nat.add_assoc]
    have written := overwrite?_zeros before field
      (List.replicate ((gapped fields).length + tail) 0)
    have others := ih (before ++ field)
    rw [List.length_append, before_length] at others
    rw [before_length] at written
    rw [zeros, overwriteAll?, placed, List.foldlM_cons, written]
    refine others.trans ?_
    rw [gapped, List.append_assoc, List.append_assoc, List.append_assoc, List.append_assoc]

end SwapCapture.Bytes
