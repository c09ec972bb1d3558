/-
Texts and their fields.

Cutting a text into fields and joining fields with dividers undo each other, as long as no field has
a divider in it:

* `intercalate_fields` — the fields of a text, joined again;
* `fields_intercalate` — the fields of a text that was joined.
-/
import Mathlib.Algebra.Ring.Nat
import SwapCapture.Text.Fields

namespace SwapCapture.Text

variable (divider : Char)

theorem fields_cons_divider (rest : List Char) :
    fields divider (divider :: rest) = [] :: fields divider rest := if_pos rfl

/-- A character other than `divider` goes into the first field. -/
theorem exists_fields_cons {c : Char} (rest : List Char) (other : c ≠ divider) :
    ∃ field more, fields divider rest = field :: more ∧
      fields divider (c :: rest) = (c :: field) :: more := by
  obtain ⟨field, more, split⟩ := List.exists_cons_of_ne_nil (fields_ne_nil divider rest)
  refine ⟨field, more, split, ?_⟩
  rw [fields, if_neg other, split]

/-- A text is its `fields` with a `divider` between them. -/
theorem intercalate_fields (text : List Char) :
    [divider].intercalate (fields divider text) = text := by
  induction text with
  | nil => rfl
  | cons c rest ih =>
    by_cases same : c = divider
    · obtain ⟨field, more, split⟩ := List.exists_cons_of_ne_nil (fields_ne_nil divider rest)
      rw [split] at ih
      rw [same, fields_cons_divider, split, List.intercalate_cons_cons, ih]
      rfl
    · obtain ⟨field, more, split, split'⟩ := exists_fields_cons divider rest same
      rw [split] at ih
      rw [split', ← ih]
      -- a single field has no divider behind it
      cases more with
      | nil => rfl
      | cons next more => rfl

theorem fields_of_not_mem {text : List Char} (h : divider ∉ text) :
    fields divider text = [text] := by
  induction text with
  | nil => rfl
  | cons c rest ih =>
    rw [List.mem_cons, not_or] at h
    rw [fields, if_neg (Ne.symm h.1), ih h.2]

theorem fields_append_divider {front : List Char} (h : divider ∉ front) (rest : List Char) :
    fields divider (front ++ divider :: rest) = front :: fields divider rest := by
  induction front with
  | nil => exact fields_cons_divider divider rest
  | cons c front ih =>
    rw [List.mem_cons, not_or] at h
    rw [List.cons_append, fields, if_neg (Ne.symm h.1), ih h.2]

/-- Fields that were joined are found again, unless there were none. -/
theorem fields_intercalate {groups : List (List Char)} (some_group : groups ≠ [])
    (h : ∀ group ∈ groups, divider ∉ group) :
    fields divider ([divider].intercalate groups) = groups := by
  induction groups with
  | nil => exact absurd rfl some_group
  | cons group more ih =>
    have first := h group List.mem_cons_self
    cases more with
    | nil =>
      rw [List.intercalate_singleton]
      exact fields_of_not_mem divider first
    | cons next more =>
      -- the first divider ends the first group, which has none in it
      have others := ih (List.cons_ne_nil _ _) fun g mem => h g (List.mem_cons_of_mem _ mem)
      rw [List.intercalate_cons_cons, List.append_assoc, List.singleton_append,
        fields_append_divider divider first, others]

end SwapCapture.Text
