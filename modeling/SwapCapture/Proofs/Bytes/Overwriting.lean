/-
Words that are written into a buffer one after another.

A word is written where it fits and refused where it does not, and the next one is tried either way.
The buffer keeps its length, and each of its bytes is settled by the last word that was written over
it.  What a word puts into its bytes is said here by division alone, its digits in base 256:

* `Overwrite` — a word of either width and the place where it is to be written;
* `Overwrite.put`, `putAll` — one word, and a list of them;
* `getElem?_put`, `getElem?_putAll` — each byte behind one word, and behind all of them;
* `last_overwrite_wins` — the whole of it, with what follows for words that lie apart.
-/
import Mathlib.Data.List.Induction
import SwapCapture.Proofs.Bytes.Reading

namespace SwapCapture.Bytes

/-- A `field` that `overwrite?` takes lies where it was to be written, and all else stays. -/
theorem getElem?_overwrite? {buffer field result : Bytes} {offset : Nat}
    (h : overwrite? buffer offset field = some result) (j : Nat) :
    result[j]? = if offset ≤ j ∧ j < offset + field.length then field[j - offset]?
      else buffer[j]? := by
  rw [overwrite?] at h
  split at h
  · next fits =>
    cases h
    have front_length : (buffer.take offset).length = offset := by
      rw [List.length_take]
      omega
    rw [List.append_assoc]
    -- in front of the field, within it, and behind it
    by_cases before : j < offset
    · rw [List.getElem?_append_left (by omega), List.getElem?_take_of_lt before, if_neg (by omega)]
    rw [List.getElem?_append_right (by omega), front_length]
    by_cases within : j < offset + field.length
    · rw [List.getElem?_append_left (by omega), if_pos (by omega)]
    · rw [List.getElem?_append_right (by omega), List.getElem?_drop, if_neg (by omega)]
      congr 1
      omega
  · cases h

inductive Overwrite where
  | word16 (offset : Nat) (v : UInt16)
  | word32 (offset : Nat) (v : UInt32)
deriving DecidableEq, Repr

namespace Overwrite

def offset : Overwrite → Nat
  | word16 offset _ => offset
  | word32 offset _ => offset

def width : Overwrite → Nat
  | word16 .. => 2
  | word32 .. => 4

def value : Overwrite → Nat
  | word16 _ v => v.toNat
  | word32 _ v => v.toNat

/-- `buffer` after a word has been written, unless the word is refused. -/
def put? (buffer : Bytes) : Overwrite → Option Bytes
  | word16 offset v => overwrite16? buffer offset v
  | word32 offset v => overwrite32? buffer offset v

/-- `buffer` after a word has been written or refused. -/
def put (buffer : Bytes) (w : Overwrite) : Bytes := (w.put? buffer).getD buffer

def putAll (buffer : Bytes) (ws : List Overwrite) : Bytes := ws.foldl put buffer

def Fits (w : Overwrite) (length : Nat) : Prop := w.offset + w.width ≤ length

/-- The byte at `j` is one of those of the word. -/
def Covers (w : Overwrite) (j : Nat) : Prop := w.offset ≤ j ∧ j < w.offset + w.width

/-- No byte belongs to both words. -/
def Apart (a b : Overwrite) : Prop := ∀ j, ¬(a.Covers j ∧ b.Covers j)

instance (w : Overwrite) (length : Nat) : Decidable (w.Fits length) :=
  inferInstanceAs (Decidable (_ ≤ _))

instance (w : Overwrite) (j : Nat) : Decidable (w.Covers j) :=
  inferInstanceAs (Decidable (_ ∧ _))

/-- What a word has for the byte at `j`: a digit of its value in base 256, the highest one first. -/
def byteFor (w : Overwrite) (j : Nat) : UInt8 :=
  .ofNat (w.value / 256 ^ (w.offset + w.width - 1 - j) % 256)

/-- The last of some words that fits into a buffer and covers the byte at `j`. -/
def lastOver? (ws : List Overwrite) (length j : Nat) : Option Overwrite :=
  (ws.filter fun w => w.Fits length ∧ w.Covers j).getLast?

/-- The word that is read where `w` was to be written is the word of `w`. -/
def ReadsBack (buffer : Bytes) : Overwrite → Prop
  | word16 offset v => be16At buffer offset = v
  | word32 offset v => be32At buffer offset = v

/-! ### One word -/

/-- The bytes of a word, in network order. -/
def field : Overwrite → Bytes
  | word16 _ v => be16 v
  | word32 _ v => be32 v

theorem put?_eq (buffer : Bytes) (w : Overwrite) :
    w.put? buffer = overwrite? buffer w.offset w.field := by
  cases w with
  | word16 => rfl
  | word32 => rfl

@[simp] theorem length_field (w : Overwrite) : w.field.length = w.width := by
  cases w with
  | word16 => rfl
  | word32 => rfl

/-- The bytes of a word are the digits of its `value`. -/
theorem getElem?_field (w : Overwrite) {j : Nat} (covered : w.Covers j) :
    w.field[j - w.offset]? = some (w.byteFor j) := by
  obtain ⟨i, rfl⟩ : ∃ i, j = w.offset + i := ⟨j - w.offset, by have := covered.1; omega⟩
  have within : i < w.width := by
    have := covered.2
    omega
  have place : w.offset + w.width - 1 - (w.offset + i) = w.width - 1 - i := by omega
  rw [Nat.add_sub_cancel_left, byteFor, place]
  -- a word has two or four bytes, each of which is a digit of its value
  cases w with
  | word16 offset v =>
    have cases_of_lt : i = 0 ∨ i = 1 := by
      have : i < 2 := within
      omega
    rcases cases_of_lt with rfl | rfl
    · simp [field, be16, width, value, ← UInt8.toNat_inj, Nat.shiftRight_eq_div_pow]
    · simp [field, be16, width, value, ← UInt8.toNat_inj]
  | word32 offset v =>
    have cases_of_lt : i = 0 ∨ i = 1 ∨ i = 2 ∨ i = 3 := by
      have : i < 4 := within
      omega
    rcases cases_of_lt with rfl | rfl | rfl | rfl
    · simp [field, be32, width, value, ← UInt8.toNat_inj, Nat.shiftRight_eq_div_pow]
    · simp [field, be32, width, value, ← UInt8.toNat_inj, Nat.shiftRight_eq_div_pow]
    · simp [field, be32, width, value, ← UInt8.toNat_inj, Nat.shiftRight_eq_div_pow]
    · simp [field, be32, width, value, ← UInt8.toNat_inj]

theorem put?_eq_none_iff {buffer : Bytes} {w : Overwrite} :
    w.put? buffer = none ↔ ¬w.Fits buffer.length := by
  rw [put?_eq, overwrite?, length_field, Fits]
  split
  · next fits => simp [fits]
  · next refused => simp [refused]

theorem put_of_not_fits {buffer : Bytes} {w : Overwrite} (h : ¬w.Fits buffer.length) :
    put buffer w = buffer := by
  rw [put, put?_eq_none_iff.mpr h, Option.getD_none]

@[simp] theorem length_put (buffer : Bytes) (w : Overwrite) :
    (put buffer w).length = buffer.length := by
  rw [put, put?_eq]
  cases h : overwrite? buffer w.offset w.field with
  | none => rfl
  | some result => exact length_of_overwrite? h

/-- One word settles the bytes that it `Covers`, if it `Fits`. -/
theorem getElem?_put (buffer : Bytes) (w : Overwrite) (j : Nat) :
    (put buffer w)[j]?
      = if w.Fits buffer.length ∧ w.Covers j then some (w.byteFor j) else buffer[j]? := by
  by_cases fits : w.Fits buffer.length
  · obtain ⟨result, written⟩ : ∃ result, w.put? buffer = some result := by
      rw [← Option.ne_none_iff_exists']
      intro refused
      exact put?_eq_none_iff.mp refused fits
    rw [put, written, Option.getD_some]
    rw [put?_eq] at written
    have settled := getElem?_overwrite? written j
    rw [length_field] at settled
    -- a word that fits has been written, and its bytes are the digits
    by_cases covered : w.Covers j
    · rw [if_pos ⟨fits, covered⟩, ← getElem?_field w covered]
      exact settled.trans (if_pos covered)
    · rw [if_neg fun both => covered both.2]
      exact settled.trans (if_neg covered)
  · rw [put_of_not_fits fits, if_neg fun both => fits both.1]

/-! ### Some words -/

@[simp] theorem length_putAll (buffer : Bytes) (ws : List Overwrite) :
    (putAll buffer ws).length = buffer.length := by
  induction ws generalizing buffer with
  | nil => rfl
  | cons w ws ih =>
    rw [← length_put buffer w]
    exact ih (put buffer w)

theorem putAll_append (buffer : Bytes) (front back : List Overwrite) :
    putAll buffer (front ++ back) = putAll (putAll buffer front) back :=
  List.foldl_append

theorem putAll_cons (buffer : Bytes) (w : Overwrite) (ws : List Overwrite) :
    putAll buffer (w :: ws) = putAll (put buffer w) ws := rfl

theorem putAll_concat (buffer : Bytes) (ws : List Overwrite) (w : Overwrite) :
    putAll buffer (ws ++ [w]) = put (putAll buffer ws) w := putAll_append buffer ws [w]

/-- Each byte is that of the word that `lastOver?` finds. -/
theorem getElem?_putAll (buffer : Bytes) (ws : List Overwrite) (j : Nat) :
    (putAll buffer ws)[j]? = match lastOver? ws buffer.length j with
      | some w => some (w.byteFor j)
      | none => buffer[j]? := by
  -- from the back, since the last word decides
  induction ws using List.reverseRecOn with
  | nil => rfl
  | append_singleton ws w ih =>
    rw [putAll_concat, getElem?_put, length_putAll, lastOver?, List.filter_append]
    by_cases hit : w.Fits buffer.length ∧ w.Covers j
    · simp [hit]
    · rw [if_neg hit, ih, lastOver?]
      simp [hit]

/-- Words that lie `Apart` may change places, whether they are written or refused. -/
theorem put_comm {a b : Overwrite} (apart : a.Apart b) (buffer : Bytes) :
    put (put buffer a) b = put (put buffer b) a := by
  apply List.ext_getElem?
  intro j
  simp only [getElem?_put, length_put]
  by_cases hit : a.Fits buffer.length ∧ a.Covers j
  · have not_hit : ¬(b.Fits buffer.length ∧ b.Covers j) := by
      intro hit'
      exact apart j ⟨hit.2, hit'.2⟩
    rw [if_pos hit, if_neg not_hit, if_pos hit]
  · rw [if_neg hit, if_neg hit]

/-- The word `w` is the last one over a byte that no later word touches. -/
theorem lastOver?_of_apart {w : Overwrite} {length j : Nat} (front : List Overwrite)
    {back : List Overwrite} (fits : w.Fits length) (covered : w.Covers j)
    (apart : ∀ later ∈ back, later.Fits length → later.Apart w) :
    lastOver? (front ++ w :: back) length j = some w := by
  have none_later : back.filter (fun later => later.Fits length ∧ later.Covers j) = [] := by
    rw [List.filter_eq_nil_iff]
    intro later mem hit
    obtain ⟨fits', covered'⟩ := of_decide_eq_true hit
    exact apart later mem fits' j ⟨covered', covered⟩
  rw [lastOver?, List.filter_append, List.filter_cons, none_later]
  simp [fits, covered]

/-- Bytes that `byteFor` gives read as the word that they are of. -/
theorem readsBack_of_bytes {buffer : Bytes} {w : Overwrite}
    (h : ∀ j, w.Covers j → buffer[j]? = some (w.byteFor j)) : w.ReadsBack buffer := by
  have bytes : (buffer.drop w.offset).take w.width = w.field := by
    apply List.ext_getElem?
    intro i
    by_cases within : i < w.width
    · have covered : w.Covers (w.offset + i) := ⟨by omega, by omega⟩
      have byte := getElem?_field w covered
      rw [Nat.add_sub_cancel_left] at byte
      rw [List.getElem?_take_of_lt within, List.getElem?_drop, h _ covered, byte]
    · rw [List.getElem?_eq_none (by simp; omega), List.getElem?_eq_none (by simp; omega)]
  cases w with
  | word16 offset v => exact be16At_of_take bytes
  | word32 offset v => exact be32At_of_take bytes

/-- **The last word written wins.** Whatever words `putAll` writes into a buffer, those that do not
lie within it are refused and leave it as it is, and it keeps its length.  Each byte is that of the
word that `lastOver?` finds for it, and as it was before if there is none.  So words that lie
`Apart` may change places, and a word `ReadsBack` unless a later one is written over it. -/
theorem last_overwrite_wins (buffer : Bytes) (ws : List Overwrite) :
    (∀ w : Overwrite, w.put? buffer = none ↔ buffer.length < w.offset + w.width) ∧
    (∀ front w back, ws = front ++ w :: back → ¬w.Fits buffer.length →
      putAll buffer ws = putAll buffer (front ++ back)) ∧
    (putAll buffer ws).length = buffer.length ∧
    (∀ j, (putAll buffer ws)[j]? = match lastOver? ws buffer.length j with
      | some w => some (w.byteFor j)
      | none => buffer[j]?) ∧
    (∀ front a b back, ws = front ++ a :: b :: back → a.Apart b →
      putAll buffer (front ++ b :: a :: back) = putAll buffer ws) ∧
    (∀ front w back, ws = front ++ w :: back → w.Fits buffer.length →
      (∀ later ∈ back, later.Fits buffer.length → later.Apart w) →
        w.ReadsBack (putAll buffer ws)) := by
  refine ⟨?_, ?_, length_putAll buffer ws, getElem?_putAll buffer ws, ?_, ?_⟩
  · intro w
    rw [put?_eq_none_iff, Fits, Nat.not_le]
  -- the buffer has kept its length, so the word is refused wherever it comes
  · rintro front w back rfl refused
    have refused' : ¬w.Fits (putAll buffer front).length := by rwa [length_putAll]
    rw [putAll_append, putAll_cons, put_of_not_fits refused', putAll_append]
  · rintro front a b back rfl apart
    rw [putAll_append, putAll_append]
    simp only [putAll_cons]
    rw [put_comm apart]
  · rintro front w back rfl fits apart
    apply readsBack_of_bytes
    intro j covered
    rw [getElem?_putAll, lastOver?_of_apart front fits covered apart]

/-- A word over the middle of another one, and behind them a word that is refused because its second
byte lies behind the end. -/
theorem last_overwrite_wins_straddling :
    (word16 1 0x1234).Fits 6 ∧ ¬(word16 5 0x5678).Fits 6 ∧
      be16At (putAll [0, 0, 0, 0, 0, 0]
        [word32 0 0xAABBCCDD, word16 1 0x1234, word16 5 0x5678]) 1 = 0x1234 ∧
      putAll [0, 0, 0, 0, 0, 0] [word32 0 0xAABBCCDD, word16 1 0x1234, word16 5 0x5678]
        = putAll [0, 0, 0, 0, 0, 0] [word32 0 0xAABBCCDD, word16 1 0x1234] ∧
      (putAll [0, 0, 0, 0, 0, 0]
        [word32 0 0xAABBCCDD, word16 1 0x1234, word16 5 0x5678])[3]? = some 0xDD := by
  have fits : (word16 1 0x1234).Fits 6 := by decide
  have refused : ¬(word16 5 0x5678).Fits 6 := by decide
  obtain ⟨-, refusal, -, bytes, -, read⟩ := last_overwrite_wins [0, 0, 0, 0, 0, 0]
    [word32 0 0xAABBCCDD, word16 1 0x1234, word16 5 0x5678]
  refine ⟨fits, refused, ?_, refusal [_, _] _ [] rfl refused, bytes 3⟩
  refine read [word32 0 0xAABBCCDD] (word16 1 0x1234) [word16 5 0x5678] rfl fits ?_
  intro later mem fits'
  rw [List.mem_singleton] at mem
  exact absurd (mem ▸ fits') refused

end Overwrite

end SwapCapture.Bytes
