/-
Telling the class of a swap from its record.

A record does not name its class, but both of its amounts do: only small swaps put in less than a
million, and the amounts of the other two classes are so large that their shares differ.  Whoever
reads a record can compute these shares exactly, because the products in double precision from which
the records are made are exact up to forty bits:

* `SwapClass.ofAmounts?`, `SwapClass.ofRecord?` — the class that two amounts tell, and a record;
* `Intent.InClass.ofAmounts?_eq` — they tell the class that the intent was drawn for;
* `Plan.map_ofRecord?_of_run` — and so do the records in the capture of a run, one after the other;
* `Plan.classes_told_by_amounts` — the shares are exact, and what follows for records.
-/
import SwapCapture.Proofs.Plan.Meaning
import SwapCapture.Proofs.Swap.Rounding

namespace SwapCapture

open Bytes

/-- The class that both amounts of a swap tell, if there is one. -/
def SwapClass.ofAmounts? (amountIn least : Nat) : Option SwapClass :=
  if amountIn < 1000000 then some .small
  else if least = 999 * amountIn / 1000 then some .tight
  else if least = 9 * amountIn / 10 then some .large
  else none

/-- The class that `record` tells.  Only its amounts are read. -/
def SwapClass.ofRecord? (record : Bytes) : Option SwapClass :=
  ofAmounts? (le64At record 28).toNat (le64At record 36).toNat

namespace Intent.InClass

variable {intent : Intent} {kind : SwapClass}

/-- Every amount that is drawn has less than forty bits. -/
theorem amountIn_le (h : intent.InClass kind) : intent.amountIn.toNat ≤ 2 ^ 40 := by
  cases kind with
  | small =>
    obtain ⟨-, high, -⟩ := h
    omega
  | tight =>
    obtain ⟨-, high, -⟩ := h
    omega
  | large =>
    obtain ⟨-, high, -⟩ := h
    omega

theorem least_eq_of_tight (h : intent.InClass .tight) :
    intent.minAmountOut.toNat = 999 * intent.amountIn.toNat / 1000 := by
  have amount_le := h.amountIn_le
  obtain ⟨-, -, least, -⟩ := h
  rw [least]
  exact Slippage.toNat_allButAThousandth amount_le

theorem least_eq_of_large (h : intent.InClass .large) :
    intent.minAmountOut.toNat = 9 * intent.amountIn.toNat / 10 := by
  have amount_le := h.amountIn_le
  obtain ⟨-, -, least, -⟩ := h
  rw [least]
  exact Slippage.toNat_nineTenths amount_le

/-- A swap that is not small accepts less than it puts in. -/
theorem least_lt (h : intent.InClass kind) (other : kind ≠ .small) :
    intent.minAmountOut < intent.amountIn := by
  rw [UInt64.lt_iff_toNat_lt]
  cases kind with
  | small => exact absurd rfl other
  | tight =>
    have least := h.least_eq_of_tight
    obtain ⟨low, -⟩ := h
    omega
  | large =>
    have least := h.least_eq_of_large
    obtain ⟨low, -⟩ := h
    omega

theorem ofAmounts?_eq (h : intent.InClass kind) :
    SwapClass.ofAmounts? intent.amountIn.toNat intent.minAmountOut.toNat = some kind := by
  rw [SwapClass.ofAmounts?]
  cases kind with
  | small =>
    obtain ⟨-, high, -⟩ := h
    rw [if_pos (by omega)]
  | tight =>
    have least := h.least_eq_of_tight
    obtain ⟨low, -⟩ := h
    rw [if_neg (by omega), if_pos least]
  | large =>
    have least := h.least_eq_of_large
    obtain ⟨low, -⟩ := h
    -- nine tenths of ten millions are far from all but a thousandth
    rw [if_neg (by omega), if_neg (by omega), if_pos least]

/-- `SwapClass.ofRecord?` finds the amounts at their offsets. -/
theorem ofRecord?_eq (h : intent.InClass kind) :
    SwapClass.ofRecord? (Record.encode intent) = some kind := by
  obtain ⟨-, -, amount_in, amount_out, -⟩ := Record.fields_encode intent
  rw [SwapClass.ofRecord?, amount_in, amount_out]
  exact h.ofAmounts?_eq

end Intent.InClass

theorem IntentSource.inClass_of_intent {source later : IntentSource} {index : UInt64}
    {kind : SwapClass} {intent : Intent} (h : source.intent index = ((kind, intent), later)) :
    intent.InClass kind := by
  cases h
  exact (swapOf_always _ index source.stream).2

namespace Plan

/-- What a run announces lies in the class that it is announced for. -/
theorem inClass_announce (policy : IdPolicy) (index : Nat) (source : IntentSource) (n : Nat) :
    ∀ a ∈ announce policy index source n, a.intent.InClass a.kind := by
  induction n generalizing index source with
  | zero =>
    intro a mem
    exact absurd mem List.not_mem_nil
  | succ n ih =>
    intro a mem
    rw [announce_succ, List.mem_cons] at mem
    rcases mem with rfl | mem
    · exact IntentSource.inClass_of_intent rfl
    · exact ih _ _ a mem

theorem drop_frameOf (plan : Plan) (a : Announcement) :
    (plan.frameOf a).drop 42 = Record.encode a.intent := rfl

/-- The records in the capture of a run tell the classes of the indexes in order. -/
theorem map_ofRecord?_of_run {δ : Type} [Device δ] {plan : Plan} {device after : δ}
    {summary : Summary} (empty : Device.contents device = [])
    (h : plan.run device = (.ok summary, after)) :
    ∃ records, Pcap.read? (Device.contents after) = some ⟨Pcap.fileHeader, records⟩ ∧
      records.map (fun record => SwapClass.ofRecord? (record.frame.drop 42))
        = (plan.profile.classes plan.count.toNat).map some := by
  refine ⟨Pcap.storedFrom plan.base 0 plan.frames, read?_of_run empty h, ?_⟩
  -- from the records to the frames, from these to the announcements, and from these to the classes
  calc (Pcap.storedFrom plan.base 0 plan.frames).map
        (fun record => SwapClass.ofRecord? (record.frame.drop 42))
      = plan.frames.map (fun frame => SwapClass.ofRecord? (frame.drop 42)) := by
        conv_rhs => rw [← Pcap.map_frame_storedFrom plan.base 0 plan.frames, List.map_map]
        rfl
    _ = plan.announcements.map (fun a => some a.kind) := by
        rw [frames, List.map_map]
        apply List.map_congr_left
        intro a mem
        show SwapClass.ofRecord? ((plan.frameOf a).drop 42) = some a.kind
        rw [drop_frameOf]
        exact (inClass_announce _ _ _ _ a mem).ofRecord?_eq
    _ = (plan.profile.classes plan.count.toNat).map some := by
        rw [← map_kind_announcements, List.map_map]
        rfl

/-- **The amounts of a swap tell its class.** For amounts of up to forty bits the products that
`Slippage.minAmountOut` takes in double precision are the exact shares, cut to an integer.  Whatever
an `IntentSource` gives, of whatever profile and with whatever stream, its amount in is no larger
than that, a swap that is not small accepts less than it puts in, and `SwapClass.ofRecord?` finds
the class that it was drawn for.  So the records of a capture tell the classes of the indexes of its
run. -/
theorem classes_told_by_amounts :
    (∀ amount : UInt64, amount.toNat ≤ 2 ^ 40 →
      (Slippage.minAmountOut amount .nineTenths).toNat = 9 * amount.toNat / 10 ∧
      (Slippage.minAmountOut amount .allButAThousandth).toNat = 999 * amount.toNat / 1000) ∧
    (∀ (source later : IntentSource) (index : UInt64) (kind : SwapClass) (intent : Intent),
      source.intent index = ((kind, intent), later) →
      intent.amountIn.toNat ≤ 2 ^ 40 ∧
      (kind ≠ .small → intent.minAmountOut < intent.amountIn) ∧
      SwapClass.ofRecord? (Record.encode intent) = some kind) ∧
    ∀ {δ : Type} [Device δ] (plan : Plan) (device after : δ) (summary : Summary),
      Device.contents device = [] → plan.run device = (.ok summary, after) →
      ∃ records, Pcap.read? (Device.contents after) = some ⟨Pcap.fileHeader, records⟩ ∧
        records.map (fun record => SwapClass.ofRecord? (record.frame.drop 42))
          = (plan.profile.classes plan.count.toNat).map some := by
  refine ⟨?_, ?_, ?_⟩
  · intro amount amount_le
    exact ⟨Slippage.toNat_nineTenths amount_le, Slippage.toNat_allButAThousandth amount_le⟩
  · intro source later index kind intent given
    have inClass := IntentSource.inClass_of_intent given
    exact ⟨inClass.amountIn_le, inClass.least_lt, inClass.ofRecord?_eq⟩
  · intro δ _ plan device after summary empty h
    exact map_ofRecord?_of_run empty h

/-- The largest amount of forty bits, a multiple of a thousand whose product lies below the exact
share, and eight swaps of `Plan.default`. -/
theorem classes_told_by_amounts_mixed :
    (Slippage.minAmountOut 1099511627776 .nineTenths).toNat = 989560464998 ∧
    (Slippage.minAmountOut 1000000000000 .allButAThousandth).toNat = 999000000000 ∧
    ∃ summary after records, Plan.run { Plan.default with count := 8 } Bounded.memory
        = (.ok summary, after) ∧
      Pcap.read? (Device.contents after) = some ⟨Pcap.fileHeader, records⟩ ∧
      records.map (fun record => SwapClass.ofRecord? (record.frame.drop 42))
        = [some .small, some .tight, some .large, some .large,
          some .small, some .tight, some .large, some .large] := by
  obtain ⟨exact_share, -, told⟩ := classes_told_by_amounts
  obtain ⟨tenths, -⟩ := exact_share 1099511627776 (by decide)
  obtain ⟨-, thousandths⟩ := exact_share 1000000000000 (by decide)
  let plan : Plan := { Plan.default with count := 8 }
  have room : plan.count.toNat ≤ Timestamp.room plan.base := by decide
  obtain ⟨after, written⟩ := run_of_accepting Bounded.accepting_memory room
  obtain ⟨records, read, classes⟩ := told plan Bounded.memory after _ rfl written
  exact ⟨tenths, thousandths, _, after, records, written, read, classes⟩

end Plan

end SwapCapture
