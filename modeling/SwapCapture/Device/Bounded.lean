/-
A device in memory, with room for a limited number of bytes.

* `Bounded.memory` — a device without limits, which takes every piece whole;
* `Bounded.withLimits` — a device that may be full, take few bytes at a time or refuse to flush.
-/
import SwapCapture.Bytes.Log
import SwapCapture.Device.Basic

namespace SwapCapture

/-- A device in memory, with room for `limit` bytes of which it takes `chunk` at a time; `none`
stands for no bound. -/
structure Bounded where
  limit : Option Nat
  chunk : Option Nat
  /-- Whether `flush` fails. -/
  failsFlush : Bool
  log : ByteLog

namespace Bounded

def withLimits (limit chunk : Option Nat) (failsFlush : Bool) : Bounded :=
  ⟨limit, chunk, failsFlush, .empty⟩

def memory : Bounded := withLimits none none false

def contents (device : Bounded) : Bytes := device.log.toList

/-- The part of some bytes that one write considers: as many as `chunk` allows. -/
def portion (device : Bounded) (bytes : Bytes) : Bytes :=
  match device.chunk with
  | none => bytes
  | some n => bytes.take n

/-- Whether there is room for `n` more bytes. -/
def hasRoom (device : Bounded) (n : Nat) : Bool :=
  match device.limit with
  | none => true
  | some limit => device.log.size + n ≤ limit

/-- Takes one `portion`, or nothing where there is no room for it. -/
def write (device : Bounded) (bytes : Bytes) : Answer Bounded Nat :=
  let portion := device.portion bytes
  if device.hasRoom portion.length then
    (.ok portion.length, { device with log := device.log.append portion })
  else (.error (.other "disk full"), device)

def flush (device : Bounded) : Answer Bounded Unit :=
  if device.failsFlush then (.error (.other "flush failed"), device) else (.ok (), device)

theorem portion_eq_take (device : Bounded) (bytes : Bytes) :
    device.portion bytes = bytes.take (device.portion bytes).length := by
  unfold portion
  split
  · simp
  · simp [List.take_eq_take_iff]

theorem length_portion_le (device : Bounded) (bytes : Bytes) :
    (device.portion bytes).length ≤ bytes.length := by
  unfold portion
  split
  · exact Nat.le_refl _
  · rw [List.length_take]
    exact Nat.min_le_right _ _

instance : Device Bounded where
  contents := contents
  write := write
  flush := flush
  -- without room for a portion nothing is taken, and the content stays
  contents_write device bytes := by
    unfold write
    simp only
    split
    · simp only [contents, ByteLog.toList_append, Device.taken]
      rw [← portion_eq_take]
    · simp [Device.taken]
  taken_le device bytes := by
    unfold write
    simp only
    split
    · exact length_portion_le device bytes
    · exact Nat.zero_le _
  contents_flush device := by
    unfold flush
    split <;> rfl

end Bounded

end SwapCapture
