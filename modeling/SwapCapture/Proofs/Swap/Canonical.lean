/-
The records that there are.

A record is encoded from raw inputs, which are either refused or taken modulo `2 ^ 64`.  What a
reader finds at the published offsets are the inputs themselves, up to that; and the other way round
every string of 48 bytes that could be a record is the record of what a reader finds in it:

* `Intent.ofRaw_eq_ok_iff`, `Intent.ofRaw_eq_error_iff` — which inputs make an intent, and which;
* `IsRecord` — some bytes that could be a record;
* `Inputs.ofRecord` — what stands at the offsets of some bytes, whoever wrote them;
* `Inputs.ofRecord_of_record`, `record_ofRecord` — reading undoes writing, and writing undoes reading;
* `record_exact` — the records are exactly these strings, and what two inputs with one record share.
-/
import SwapCapture.Proofs.Swap.Decoder

namespace SwapCapture

open Bytes

/-! ### Which inputs make an intent -/

theorem Direction.ofByte_eq_ok_iff {value : UInt8} {direction : Direction} :
    ofByte value = .ok direction ↔ direction.toByte = value := by
  constructor
  · intro h
    unfold ofByte at h
    split at h
    · next zero =>
      cases h
      exact zero.symm
    split at h
    · next one =>
      cases h
      exact one.symm
    · cases h
  · rintro rfl
    exact ofByte_toByte direction

theorem Direction.ofByte_eq_error_iff {value : UInt8} {fault : IntentFault} :
    ofByte value = .error fault ↔ 1 < value ∧ fault = .direction value := by
  have above : 1 < value ↔ value ≠ 0 ∧ value ≠ 1 := by
    rw [UInt8.lt_iff_toNat_lt, ne_eq, ne_eq, ← UInt8.toNat_inj, ← UInt8.toNat_inj]
    simp only [UInt8.reduceToNat]
    omega
  rw [ofByte, above]
  split
  · next zero => simp [zero]
  split
  · next one => simp [one]
  · next nonzero other => simp [nonzero, other, eq_comm]

theorem PoolAddress.ofBytes_eq_ok_iff {bytes : Bytes} {pool : PoolAddress} :
    ofBytes bytes = .ok pool ↔ pool.toList = bytes := by
  constructor
  · intro h
    unfold ofBytes at h
    split at h
    · cases h
      rfl
    · cases h
  · rintro rfl
    exact ofBytes_toList pool

theorem PoolAddress.ofBytes_eq_error_iff {bytes : Bytes} {fault : IntentFault} :
    ofBytes bytes = .error fault ↔
      bytes.length ≠ 20 ∧ fault = .poolAddressLength bytes.length := by
  rw [ofBytes]
  split
  · next length_eq => simp [length_eq]
  · next other => simp [other, eq_comm]

namespace Intent

variable {nonce amountIn minAmountOut : Nat} {pool : Bytes} {direction : UInt8}

/-- An intent is made of its raw inputs, with its numbers cut to 64 bits. -/
theorem ofRaw_eq_ok_iff {intent : Intent} :
    ofRaw nonce pool amountIn minAmountOut direction = .ok intent ↔
      intent.nonce = .ofNat nonce ∧ intent.pool.toList = pool ∧
        intent.amountIn = .ofNat amountIn ∧ intent.minAmountOut = .ofNat minAmountOut ∧
        intent.direction.toByte = direction := by
  constructor
  · intro h
    rw [ofRaw] at h
    -- the pool is looked at before the direction
    rcases pooled : PoolAddress.ofBytes pool with fault | address
    · rw [pooled] at h
      cases h
    rcases directed : Direction.ofByte direction with fault | side
    · rw [pooled, directed] at h
      cases h
    rw [pooled, directed] at h
    cases h
    exact ⟨rfl, PoolAddress.ofBytes_eq_ok_iff.mp pooled, rfl, rfl,
      Direction.ofByte_eq_ok_iff.mp directed⟩
  · rintro ⟨nonce_eq, rfl, amount_in, amount_out, rfl⟩
    rw [ofRaw, PoolAddress.ofBytes_toList, Direction.ofByte_toByte, ← nonce_eq, ← amount_in,
      ← amount_out]
    rfl

/-- The pool is looked at first, and the direction only if there is nothing wrong with the pool. -/
theorem ofRaw_eq_error_iff {fault : IntentFault} :
    ofRaw nonce pool amountIn minAmountOut direction = .error fault ↔
      pool.length ≠ 20 ∧ fault = .poolAddressLength pool.length ∨
        pool.length = 20 ∧ 1 < direction ∧ fault = .direction direction := by
  by_cases length_eq : pool.length = 20
  · obtain ⟨address, rfl⟩ : ∃ address : PoolAddress, address.toList = pool :=
      ⟨⟨pool.toArray, by simpa using length_eq⟩, rfl⟩
    have directed : ofRaw nonce address.toList amountIn minAmountOut direction = .error fault ↔
        Direction.ofByte direction = .error fault := by
      rw [ofRaw, PoolAddress.ofBytes_toList]
      rcases Direction.ofByte direction with other | side
      · simp [bind, Except.bind]
      · exact iff_of_false nofun nofun
    rw [directed, Direction.ofByte_eq_error_iff]
    simp [length_eq]
  · have pooled : PoolAddress.ofBytes pool = .error (.poolAddressLength pool.length) :=
      PoolAddress.ofBytes_eq_error_iff.mpr ⟨length_eq, rfl⟩
    rw [ofRaw, pooled]
    simp [length_eq, eq_comm, bind, Except.bind]

end Intent

namespace Record

/-! ### Raw inputs and their records -/

/-- What `Record.encodeRaw` is given. -/
structure Inputs where
  nonce : Nat
  pool : Bytes
  amountIn : Nat
  minAmountOut : Nat
  direction : UInt8
deriving DecidableEq, Repr

/-- `bytes` could be a record. -/
structure IsRecord (bytes : Bytes) : Prop where
  length_eq : bytes.length = 48
  direction_le : byteAt bytes 44 ≤ 1
  reserved_eq : bytes.drop 45 = [0, 0, 0]

namespace Inputs

def record (inputs : Inputs) : Except IntentFault Bytes :=
  encodeRaw inputs.nonce inputs.pool inputs.amountIn inputs.minAmountOut inputs.direction

/-- The inputs as far as they matter: numbers modulo `2 ^ 64`. -/
def wrapped (inputs : Inputs) : Inputs where
  nonce := inputs.nonce % 2 ^ 64
  pool := inputs.pool
  amountIn := inputs.amountIn % 2 ^ 64
  minAmountOut := inputs.minAmountOut % 2 ^ 64
  direction := inputs.direction

/-- What stands at the published offsets of `bytes`. -/
def ofRecord (bytes : Bytes) : Inputs where
  nonce := (le64At bytes 0).toNat
  pool := (bytes.drop 8).take 20
  amountIn := (le64At bytes 28).toNat
  minAmountOut := (le64At bytes 36).toNat
  direction := byteAt bytes 44

variable {inputs : Inputs} {bytes : Bytes}

theorem record_eq_error_iff {fault : IntentFault} :
    inputs.record = .error fault ↔
      inputs.pool.length ≠ 20 ∧ fault = .poolAddressLength inputs.pool.length ∨
        inputs.pool.length = 20 ∧ 1 < inputs.direction ∧ fault = .direction inputs.direction := by
  rw [← Intent.ofRaw_eq_error_iff, record, encodeRaw]
  rcases Intent.ofRaw inputs.nonce inputs.pool inputs.amountIn inputs.minAmountOut
    inputs.direction with other | intent
  · simp [Functor.map, Except.map]
  · exact iff_of_false nofun nofun

/-- The record of `inputs` is that of the intent they make. -/
theorem record_eq_ok_iff :
    inputs.record = .ok bytes ↔
      ∃ intent, Intent.ofRaw inputs.nonce inputs.pool inputs.amountIn inputs.minAmountOut
          inputs.direction = .ok intent ∧ encode intent = bytes := by
  rw [record, encodeRaw]
  rcases Intent.ofRaw inputs.nonce inputs.pool inputs.amountIn inputs.minAmountOut
    inputs.direction with other | intent
  · exact iff_of_false nofun (by rintro ⟨intent, made, -⟩; cases made)
  · show Except.ok (encode intent) = .ok bytes ↔ _
    simp

/-- What is written is a record, and `ofRecord` finds the inputs in it. -/
theorem ofRecord_of_record (h : inputs.record = .ok bytes) :
    IsRecord bytes ∧ ofRecord bytes = inputs.wrapped := by
  obtain ⟨intent, made, rfl⟩ := record_eq_ok_iff.mp h
  obtain ⟨nonce_eq, pool_eq, amount_in, amount_out, direction_eq⟩ := Intent.ofRaw_eq_ok_iff.mp made
  obtain ⟨at0, at8, at28, at36, at44, at45⟩ := fields_encode intent
  constructor
  · refine ⟨length_encode intent, ?_, at45⟩
    rw [at44]
    cases intent.direction <;> decide
  · rw [ofRecord, at0, at8, at28, at36, at44, nonce_eq, pool_eq, amount_in, amount_out,
      direction_eq, UInt64.toNat_ofNat', UInt64.toNat_ofNat', UInt64.toNat_ofNat']
    rfl

theorem exists_record (pool_length : inputs.pool.length = 20) (direction_le : inputs.direction ≤ 1) :
    ∃ bytes, inputs.record = .ok bytes := by
  rcases written : inputs.record with fault | bytes
  · rcases record_eq_error_iff.mp written with ⟨other, -⟩ | ⟨-, above, -⟩
    · exact absurd pool_length other
    · exact absurd direction_le (UInt8.not_le.mpr above)
  · exact ⟨bytes, rfl⟩

end Inputs

variable {bytes : Bytes}

/-- The bytes of a record are its fields one after the other. -/
theorem IsRecord.eq_fields (h : IsRecord bytes) :
    bytes = le64 (le64At bytes 0) ++ ((bytes.drop 8).take 20 ++ (le64 (le64At bytes 28)
      ++ (le64 (le64At bytes 36) ++ (byteAt bytes 44 :: [0, 0, 0])))) := by
  have length_eq := h.length_eq
  -- from each offset on, the field there and what lies behind it
  have at0 : bytes.drop 0 = le64 (le64At bytes 0) ++ bytes.drop 8 :=
    drop_of_le64At (by omega) rfl
  have at8 : (bytes.drop 8).take 20 ++ (bytes.drop 8).drop 20 = bytes.drop 8 :=
    List.take_append_drop 20 (bytes.drop 8)
  have at28 : bytes.drop 28 = le64 (le64At bytes 28) ++ bytes.drop 36 :=
    drop_of_le64At (by omega) rfl
  have at36 : bytes.drop 36 = le64 (le64At bytes 36) ++ bytes.drop 44 :=
    drop_of_le64At (by omega) rfl
  have at44 : bytes.drop 44 = byteAt bytes 44 :: bytes.drop 45 := by
    have within : 44 < bytes.length := by omega
    rw [byteAt, List.getD_eq_getElem?_getD, List.getElem?_eq_getElem within, Option.getD_some]
    exact List.drop_eq_getElem_cons within
  rw [List.drop_drop] at at8
  rw [← h.reserved_eq, ← at44, ← at36, ← at28, at8, ← at0, List.drop_zero]

/-- What could be a record is the record of what stands in it. -/
theorem record_ofRecord (h : IsRecord bytes) : (Inputs.ofRecord bytes).record = .ok bytes := by
  have pool_length : ((bytes.drop 8).take 20).length = 20 := by
    rw [List.length_take, List.length_drop, h.length_eq]
    rfl
  -- the byte of the direction is one that stands for a direction
  obtain ⟨side, side_eq⟩ : ∃ side : Direction, side.toByte = byteAt bytes 44 := by
    rcases directed : Direction.ofByte (byteAt bytes 44) with fault | side
    · obtain ⟨above, -⟩ := Direction.ofByte_eq_error_iff.mp directed
      exact absurd h.direction_le (UInt8.not_le.mpr above)
    · exact ⟨side, Direction.ofByte_eq_ok_iff.mp directed⟩
  let address : PoolAddress := ⟨((bytes.drop 8).take 20).toArray, by simpa using pool_length⟩
  let intent : Intent := ⟨le64At bytes 0, address, le64At bytes 28, le64At bytes 36, side⟩
  refine Inputs.record_eq_ok_iff.mpr ⟨intent, Intent.ofRaw_eq_ok_iff.mpr ?_, ?_⟩
  · exact ⟨UInt64.ofNat_toNat.symm, rfl, UInt64.ofNat_toNat.symm, UInt64.ofNat_toNat.symm, side_eq⟩
  · rw [encode, side_eq]
    simp only [List.append_assoc]
    exact h.eq_fields.symm

/-- Two records are the same just if `ofRecord` finds the same in them. -/
theorem eq_iff_wrapped_eq {inputs others : Inputs} {bytes' : Bytes}
    (written : inputs.record = .ok bytes) (written' : others.record = .ok bytes') :
    bytes = bytes' ↔ inputs.wrapped = others.wrapped := by
  obtain ⟨isRecord, found⟩ := Inputs.ofRecord_of_record written
  obtain ⟨isRecord', found'⟩ := Inputs.ofRecord_of_record written'
  rw [← found, ← found']
  constructor
  · rintro rfl
    rfl
  · intro same
    have again := record_ofRecord isRecord
    rw [same, record_ofRecord isRecord'] at again
    exact (Except.ok.inj again).symm

/-- **The records are exactly the strings that could be records.**  Inputs are refused for the length
of their pool or else for their direction, and any other inputs have a record of 48 bytes, in which a
reader finds them modulo `2 ^ 64` and three zeros behind them.  Every string of this form is the
record of what a reader finds in it, and no other string is a record.  So two inputs have the same
record just if they differ by multiples of `2 ^ 64` in their numbers and in nothing else. -/
theorem record_exact :
    (∀ (inputs : Inputs) fault, inputs.record = .error fault ↔
      inputs.pool.length ≠ 20 ∧ fault = .poolAddressLength inputs.pool.length ∨
        inputs.pool.length = 20 ∧ 1 < inputs.direction ∧ fault = .direction inputs.direction) ∧
    (∀ inputs : Inputs, inputs.pool.length = 20 → inputs.direction ≤ 1 →
      ∃ bytes, inputs.record = .ok bytes ∧ bytes.length = 48 ∧
        Inputs.ofRecord bytes = inputs.wrapped ∧ bytes.drop 45 = [0, 0, 0]) ∧
    (∀ bytes, IsRecord bytes → (Inputs.ofRecord bytes).record = .ok bytes) ∧
    (∀ bytes, (∃ inputs : Inputs, inputs.record = .ok bytes) ↔ IsRecord bytes) ∧
    (∀ (inputs others : Inputs) bytes bytes', inputs.record = .ok bytes →
      others.record = .ok bytes' →
      (bytes = bytes' ↔ inputs.pool = others.pool ∧ inputs.direction = others.direction ∧
        inputs.nonce % 2 ^ 64 = others.nonce % 2 ^ 64 ∧
        inputs.amountIn % 2 ^ 64 = others.amountIn % 2 ^ 64 ∧
        inputs.minAmountOut % 2 ^ 64 = others.minAmountOut % 2 ^ 64)) := by
  refine ⟨fun inputs fault => Inputs.record_eq_error_iff, ?_, fun bytes => record_ofRecord, ?_, ?_⟩
  · intro inputs pool_length direction_le
    obtain ⟨bytes, written⟩ := Inputs.exists_record pool_length direction_le
    obtain ⟨isRecord, found⟩ := Inputs.ofRecord_of_record written
    exact ⟨bytes, written, isRecord.length_eq, found, isRecord.reserved_eq⟩
  · intro bytes
    constructor
    · rintro ⟨inputs, written⟩
      exact (Inputs.ofRecord_of_record written).1
    · intro isRecord
      exact ⟨_, record_ofRecord isRecord⟩
  · intro inputs others bytes bytes' written written'
    -- the same bytes are the same inputs, as far as they matter
    rw [eq_iff_wrapped_eq written written', Inputs.wrapped, Inputs.wrapped, Inputs.mk.injEq]
    constructor
    · rintro ⟨nonce_eq, pool_eq, amount_in, amount_out, direction_eq⟩
      exact ⟨pool_eq, direction_eq, nonce_eq, amount_in, amount_out⟩
    · rintro ⟨pool_eq, direction_eq, nonce_eq, amount_in, amount_out⟩
      exact ⟨nonce_eq, pool_eq, amount_in, amount_out, direction_eq⟩

/-- Inputs whose numbers have more than 64 bits. -/
def Inputs.wide : Inputs where
  nonce := 0x10000000000000005
  pool := List.replicate 20 0xAB
  amountIn := 0xFFFFFFFFFFFFFFFFFFFFFFFFFFFFFFFF
  minAmountOut := 0x10000000000000000
  direction := 1

/-- The inputs of 64 bits that have the same record as `wide`. -/
def Inputs.narrow : Inputs where
  nonce := 5
  pool := List.replicate 20 0xAB
  amountIn := 0xFFFFFFFFFFFFFFFF
  minAmountOut := 0
  direction := 1

/-- Numbers of more than 64 bits, and the smaller ones that have the same record. -/
theorem record_exact_wide :
    ∃ bytes, Inputs.wide.record = .ok bytes ∧ Inputs.narrow.record = .ok bytes ∧
      bytes.length = 48 ∧ Inputs.ofRecord bytes = Inputs.narrow := by
  have pool_length : Inputs.wide.pool.length = 20 := List.length_replicate
  have wrapped_eq : Inputs.wide.wrapped = Inputs.narrow := by
    rw [Inputs.wrapped, Inputs.wide, Inputs.narrow, Inputs.mk.injEq]
    simp only [Nat.reducePow, Nat.reduceMod, and_self]
  obtain ⟨-, written, again, image, -⟩ := record_exact
  obtain ⟨bytes, wide, length_eq, found, -⟩ := written Inputs.wide pool_length (by decide)
  rw [wrapped_eq] at found
  have narrow := again bytes ((image bytes).mp ⟨Inputs.wide, wide⟩)
  rw [found] at narrow
  exact ⟨bytes, wide, narrow, length_eq, found⟩

end Record

end SwapCapture
