/-
Bytes that arrive piece by piece.

A `ByteLog` is what a device keeps of the pieces handed to it.  Appending takes the same time
however much the log holds, and `ByteLog.toList` gives the whole content in order of arrival:

* `ByteLog.toList_append` — a new piece goes to the end;
* `ByteLog.size_eq` — the running size is the number of bytes held.
-/
import SwapCapture.Bytes.Words

namespace SwapCapture

/-- The bytes held so far: the `pieces`, newest first, and the `size` of all of them together. -/
structure ByteLog where
  pieces : List Bytes
  size : Nat
  size_eq_length : size = pieces.flatten.length

namespace ByteLog

def empty : ByteLog := ⟨[], 0, rfl⟩

def append (log : ByteLog) (piece : Bytes) : ByteLog where
  pieces := piece :: log.pieces
  size := log.size + piece.length
  size_eq_length := by
    rw [List.flatten_cons, List.length_append, log.size_eq_length, Nat.add_comm]

def toList (log : ByteLog) : Bytes := log.pieces.reverse.flatten

@[simp] theorem toList_empty : empty.toList = [] := rfl

@[simp] theorem toList_append (log : ByteLog) (piece : Bytes) :
    (log.append piece).toList = log.toList ++ piece := by
  simp [toList, append]

theorem size_eq (log : ByteLog) : log.size = log.toList.length := by
  simp [toList, log.size_eq_length, List.length_flatten, List.map_reverse]

end ByteLog

end SwapCapture
