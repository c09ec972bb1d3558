/-
Reading the wire record of a swap intent.

The decoder knows nothing of how a record is written: it reads each field at its offset, refuses
any other length than 48 bytes and any direction but 0 and 1, and hands out the reserved bytes as
they are.

* `Record.decode?` — the decoder;
* `Record.overwriteAll?_encode` — a record as a buffer of zeros with its fields at their offsets;
* `Record.fields_encode` — what stands at each offset of a record;
* `Record.decode?_encode` — it finds the intent that was encoded, and zeros behind it.
-/
import SwapCapture.Swap.Record
import SwapCapture.Proofs.Bytes.Placing
import SwapCapture.Proofs.Bytes.Reading

namespace SwapCapture

open Bytes

theorem PoolAddress.ofBytes_toList (pool : PoolAddress) : ofBytes pool.toList = .ok pool := by
  rw [ofBytes, dif_pos (by simp)]
  rfl

namespace Record

/-- What a record says. -/
structure Decoded where
  intent : Intent
  reserved : Bytes
deriving DecidableEq, Repr

/-- What `bytes` say if they are a record. -/
def decode? (bytes : Bytes) : Option Decoded :=
  if bytes.length = 48 then
    match PoolAddress.ofBytes ((bytes.drop 8).take 20), Direction.ofByte (byteAt bytes 44) with
    | .ok pool, .ok direction =>
      some ⟨⟨le64At bytes 0, pool, le64At bytes 28, le64At bytes 36, direction⟩, bytes.drop 45⟩
    | _, _ => none
  else none

theorem length_pool (pool : PoolAddress) : pool.toList.length = poolSize := pool.length_toList

/-- **A record is a buffer of zeros after its fields have been written**, each at its offset.  The
bytes from `reservedOffset` on stay zero. -/
theorem overwriteAll?_encode (intent : Intent) :
    overwriteAll? (List.replicate size 0)
        [(nonceOffset, le64 intent.nonce), (poolOffset, intent.pool.toList),
          (amountInOffset, le64 intent.amountIn), (minAmountOutOffset, le64 intent.minAmountOut),
          (directionOffset, [intent.direction.toByte])]
      = some (encode intent) := by
  let fields : List (Nat × Bytes) :=
    [(0, le64 intent.nonce), (0, intent.pool.toList), (0, le64 intent.amountIn),
      (0, le64 intent.minAmountOut), (0, [intent.direction.toByte])]
  -- without gaps each field begins where the one before ends
  have offsets : placed 0 fields = [(nonceOffset, le64 intent.nonce),
      (poolOffset, intent.pool.toList), (amountInOffset, le64 intent.amountIn),
      (minAmountOutOffset, le64 intent.minAmountOut),
      (directionOffset, [intent.direction.toByte])] := by
    simp only [fields, placed, length_le64, length_pool]
    rfl
  have together : gapped fields ++ List.replicate (size - reservedOffset) 0 = encode intent := by
    simp only [fields, gapped, encode, List.replicate_zero, List.nil_append, List.append_nil,
      List.append_assoc]
    rfl
  have length_eq := congrArg List.length together
  rw [List.length_append, List.length_replicate, length_encode] at length_eq
  have written := overwriteAll?_placed [] fields (size - reservedOffset)
  rw [length_eq, together, List.nil_append, List.nil_append] at written
  rw [← offsets]
  exact written

/-- What lies behind each offset of a record. -/
theorem drop_encode (intent : Intent) :
    (encode intent).drop 8 = intent.pool.toList ++ (le64 intent.amountIn
      ++ (le64 intent.minAmountOut ++ ([intent.direction.toByte] ++ [0, 0, 0]))) ∧
    (encode intent).drop 28 = le64 intent.amountIn
      ++ (le64 intent.minAmountOut ++ ([intent.direction.toByte] ++ [0, 0, 0])) ∧
    (encode intent).drop 36
      = le64 intent.minAmountOut ++ ([intent.direction.toByte] ++ [0, 0, 0]) ∧
    (encode intent).drop 44 = [intent.direction.toByte] ++ [0, 0, 0] ∧
    (encode intent).drop 45 = [0, 0, 0] := by
  -- the pool is a vector, so its bytes cannot be counted off one by one
  have pool_length : intent.pool.toList.length = 20 := by simp
  rw [encode]
  refine ⟨?_, ?_, ?_, ?_, ?_⟩
  · simp only [List.append_assoc]
    exact List.drop_left' (length_le64 _)
  · rw [List.append_assoc, List.append_assoc, List.append_assoc]
    exact List.drop_left' (by rw [List.length_append, length_le64, pool_length])
  · rw [List.append_assoc, List.append_assoc]
    exact List.drop_left' (by
      rw [List.length_append, List.length_append, length_le64, length_le64, pool_length])
  · rw [List.append_assoc]
    exact List.drop_left' (by
      rw [List.length_append, List.length_append, List.length_append, length_le64, length_le64,
        length_le64, pool_length])
  · exact List.drop_left' (by simp)

/-- What stands at each offset of a record. -/
theorem fields_encode (intent : Intent) :
    le64At (encode intent) 0 = intent.nonce ∧
    ((encode intent).drop 8).take 20 = intent.pool.toList ∧
    le64At (encode intent) 28 = intent.amountIn ∧
    le64At (encode intent) 36 = intent.minAmountOut ∧
    byteAt (encode intent) 44 = intent.direction.toByte ∧
    (encode intent).drop 45 = [0, 0, 0] := by
  obtain ⟨at8, at28, at36, at44, at45⟩ := drop_encode intent
  refine ⟨le64At_of_take rfl, ?_, ?_, ?_, ?_, at45⟩
  · rw [at8]
    exact List.take_left' (by simp)
  · exact le64At_of_take (by rw [at28]; rfl)
  · exact le64At_of_take (by rw [at36]; rfl)
  · rw [← Nat.add_zero 44, ← byteAt_drop, at44]
    rfl

/-- `decode?` finds what was encoded. -/
theorem decode?_encode (intent : Intent) : decode? (encode intent) = some ⟨intent, [0, 0, 0]⟩ := by
  obtain ⟨nonce, pool, amount_in, amount_out, direction, reserved⟩ := fields_encode intent
  have length_eq : (encode intent).length = 48 := length_encode intent
  rw [decode?, if_pos length_eq, pool, direction, nonce, amount_in, amount_out, reserved,
    PoolAddress.ofBytes_toList, Direction.ofByte_toByte]

end Record

end SwapCapture
