/-
Uniform draws stay in their interval.

A word of `w` bits times the range, cut to its high bits, lies below the range whatever the zone of
accepted products is and however many words were passed over.  So the bounds need nothing about
the stream:

* `Draw.Always` — what holds of every result of a draw, put together along its parts;
* `Uniform.scaled_lt` — a scaled word lies below the range;
* `Uniform.wide_mem`, `Uniform.narrow_mem` — a draw lies between its bounds;
* `IdPolicy.next_random_mem`, `IdPolicy.next_sequential` — identifications, drawn and counted.
-/
import Mathlib.Algebra.Ring.Nat
import SwapCapture.Net.Identification

namespace SwapCapture

namespace Draw

/-- `P` holds of the result of a draw, whatever the stream. -/
def Always {α : Type} (value : Draw α) (P : α → Prop) : Prop := ∀ s, P (value.run s).1

theorem Always.of_pure {α : Type} {P : α → Prop} {a : α} (h : P a) : Always (pure a) P :=
  fun _ => h

/-- What is known of the first result may be used of the rest. -/
theorem Always.bind {α β : Type} {P : α → Prop} {Q : β → Prop} {value : Draw α}
    {rest : α → Draw β} (first : Always value P) (later : ∀ a, P a → Always (rest a) Q) :
    Always (value >>= rest) Q := by
  intro s
  rw [StateT.run_bind]
  exact later (value.run s).1 (first s) (value.run s).2

end Draw

namespace Uniform

theorem scaled_lt {next : Draw Nat} {size range : Nat} (zone : Nat)
    (word_lt : ∀ s, (next.run s).1 < size) (range_pos : 0 < range) (tries : Nat)
    (s : RandomStream) : ((scaled next size range zone tries).run s).1 < range := by
  induction tries generalizing s with
  | zero => exact range_pos
  | succ tries ih =>
    rcases drawn : next.run s with ⟨v, later⟩
    have v_lt : v < size := by
      have := word_lt s
      rwa [drawn] at this
    have step : (scaled next size range zone (tries + 1)).run s
        = if v * range % size ≤ zone then (v * range / size, later)
          else (scaled next size range zone tries).run later := by
      rw [scaled, StateT.run_bind, drawn]
      show (if v * range % size ≤ zone then pure (v * range / size)
        else scaled next size range zone tries).run later = _
      split
      · rfl
      · rfl
    rw [step]
    split
    · -- a kept word: its product lies below `size * range`
      exact Nat.div_lt_of_lt_mul (Nat.mul_lt_mul_of_pos_right v_lt range_pos)
    · exact ih later

/-- A word that is `scaled`, behind the lower bound, lies between the bounds. -/
theorem always_offset {next : Draw Nat} {size low high : Nat} (zone : Nat)
    (word_lt : ∀ s, (next.run s).1 < size) (h : low ≤ high) (tries : Nat) :
    Draw.Always (do pure (low + (← scaled next size (high - low + 1) zone tries)))
      (fun n => low ≤ n ∧ n ≤ high) := by
  refine Draw.Always.bind (P := fun offset => offset < high - low + 1) ?_ ?_
  · exact scaled_lt zone word_lt (Nat.succ_pos _) tries
  · intro offset offset_lt
    exact Draw.Always.of_pure (by omega)

theorem narrow_mem {low high : Nat} (h : low ≤ high) :
    Draw.Always (narrow low high) fun n => low ≤ n ∧ n ≤ high :=
  always_offset _ (fun _ => UInt32.toNat_lt _) h period

theorem wide_mem {low high : Nat} (h : low ≤ high) :
    Draw.Always (wide low high) fun n => low ≤ n ∧ n ≤ high :=
  always_offset _ (fun _ => UInt64.toNat_lt _) h period

end Uniform

namespace IdPolicy

/-- A random identification is not zero. -/
theorem next_random_mem (index : UInt64) (s : RandomStream) :
    1 ≤ ((next .random index).run s).1.toNat ∧ ((next .random index).run s).1.toNat ≤ 65535 := by
  obtain ⟨low, high⟩ := Uniform.narrow_mem (show 1 ≤ 65535 by decide) s
  have shape : ((next .random index).run s).1 = .ofNat ((Uniform.narrow 1 65535).run s).1 := by
    rw [next, StateT.run_map]
    rfl
  rw [shape, UInt16.toNat_ofNat_of_lt' (show _ < 2 ^ 16 by omega)]
  exact ⟨low, high⟩

/-- A sequential identification is counted from `index`, and nothing is drawn for it. -/
theorem next_sequential (index : UInt64) (s : RandomStream) :
    (next .sequential index).run s = (.ofNat (index.toNat % 65535 + 1), s) := by
  have value : (index % 65535).toUInt16 + 1 = UInt16.ofNat (index.toNat % 65535 + 1) := by
    apply UInt16.toNat_inj.mp
    simp only [UInt16.toNat_add, UInt64.toNat_toUInt16, UInt64.toNat_mod, UInt64.reduceToNat,
      UInt16.reduceToNat, UInt16.toNat_ofNat']
    omega
  show ((index % 65535).toUInt16 + 1, s) = _
  rw [value]

end IdPolicy

end SwapCapture
