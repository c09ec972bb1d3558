/-
The index of a swap matters through its class and its nonce only.

Two runs of draws begin with copies of one source, but at different indexes.  As long as the
classes of the indexes agree, both runs read the same words for the same purposes, so they give the
same swaps under other nonces and leave the same source.  Where identifications are asked for, a
random one reads the stream no matter the index, and a counted one does not read it at all:

* `IntentSource.drawAt`, `IntentSource.drawFrom` — the draws for one index, and for indexes in a
  row;
* `Drawn.Shifted` — two swaps that are the same but for their numbers;
* `IntentSource.swapOf_eq_map` — the nonce is put into a swap that is drawn without it;
* `IntentSource.drawAt_shifted`, `IntentSource.drawFrom_shifted` — one index, and indexes in a row;
* `Profile.classAt_congr` — when the classes agree all the way;
* `IntentSource.renumbered_of_draws` — all of this about every source.
-/
import Mathlib.Data.List.Forall2
import SwapCapture.Proofs.Swap.Membership

namespace SwapCapture

/-- What is drawn for one index: a swap, and behind it an identification if one is asked for. -/
structure Drawn where
  kind : SwapClass
  intent : Intent
  identification : Option UInt16
deriving DecidableEq, Repr

/-- Two swaps whose nonces are `shift` apart and that are the same in all else.  Only an
identification that is counted may differ. -/
structure Drawn.Shifted (policy : Option IdPolicy) (shift : Int) (x y : Drawn) : Prop where
  kind_eq : y.kind = x.kind
  nonce_eq : (y.intent.nonce.toNat : Int) = x.intent.nonce.toNat + shift
  intent_eq : y.intent = { x.intent with nonce := y.intent.nonce }
  identification_eq : policy ≠ some .sequential → y.identification = x.identification

/-- Indexes that have the same rest by four have the same class, and under a profile other than
`mixed` all indexes do. -/
theorem Profile.classAt_congr {profile : Profile} {a b : Nat}
    (h : profile = .mixed → a % 4 = b % 4) :
    profile.classAt (.ofNat a) = profile.classAt (.ofNat b) := by
  cases profile with
  | small => rfl
  | large => rfl
  | tight => rfl
  | mixed =>
    -- four divides the number of words, so a rest by four survives the wrapping
    have rest_eq : UInt64.ofNat a % 4 = UInt64.ofNat b % 4 := by
      rw [← UInt64.toNat_inj, UInt64.toNat_mod, UInt64.toNat_mod, UInt64.toNat_ofNat',
        UInt64.toNat_ofNat']
      have := h rfl
      simp only [UInt64.reduceToNat]
      omega
    rw [classAt, classAt, rest_eq]

namespace IntentSource

/-! ### Draws for indexes in a row -/

/-- The draws for one index: its swap, then an identification if there is a `policy`. -/
def drawAt (policy : Option IdPolicy) (index : UInt64) (source : IntentSource) :
    Drawn × IntentSource :=
  let ((kind, intent), source) := source.intent index
  match policy with
  | none => (⟨kind, intent, none⟩, source)
  | some policy =>
    let (identification, source) := source.draw (policy.next index)
    (⟨kind, intent, some identification⟩, source)

/-- The draws for the given number of indexes from `index` on, and the source behind them. -/
def drawFrom (policy : Option IdPolicy) (index : Nat) (source : IntentSource) :
    Nat → List Drawn × IntentSource
  | 0 => ([], source)
  | n + 1 =>
    let (first, later) := drawAt policy (.ofNat index) source
    let (rest, last) := drawFrom policy (index + 1) later n
    (first :: rest, last)

theorem drawFrom_succ (policy : Option IdPolicy) (index : Nat) (source : IntentSource) (n : Nat) :
    drawFrom policy index source (n + 1)
      = ((drawAt policy (.ofNat index) source).1
          :: (drawFrom policy (index + 1) (drawAt policy (.ofNat index) source).2 n).1,
        (drawFrom policy (index + 1) (drawAt policy (.ofNat index) source).2 n).2) := rfl

/-! ### One index -/

/-- The nonce is put into a swap that is drawn without it. -/
theorem swapOf_eq_map (kind : SwapClass) (nonce : UInt64) :
    swapOf kind nonce = (fun intent => { intent with nonce }) <$> swapOf kind 0 := by
  cases kind with
  | small => simp only [swapOf, small, map_bind, map_pure]
  | tight => simp only [swapOf, tight, map_bind, map_pure]
  | large => simp only [swapOf, large, map_bind, map_pure]

theorem intent_renumbered {source : IntentSource} {i j : UInt64}
    (same : source.profile.classAt i = source.profile.classAt j) :
    source.intent j
      = (((source.intent i).1.1, { (source.intent i).1.2 with nonce := j }), (source.intent i).2) := by
  have swap_i := swapOf_eq_map (source.profile.classAt i) i
  have swap_j := swapOf_eq_map (source.profile.classAt i) j
  simp only [intent, ← same, swap_i, swap_j]
  rfl

theorem nonce_intent (source : IntentSource) (index : UInt64) :
    (source.intent index).1.2.nonce = index :=
  (swapOf_always (source.profile.classAt index) index source.stream).1

/-- A counted identification leaves the source as it is. -/
theorem draw_sequential (source : IntentSource) (index : UInt64) :
    (source.draw (IdPolicy.sequential.next index)).2 = source := rfl

theorem intent_drawAt (policy : Option IdPolicy) (index : UInt64) (source : IntentSource) :
    (drawAt policy index source).1.intent = (source.intent index).1.2 := by
  cases policy with
  | none => rfl
  | some policy => rfl

theorem nonce_drawAt (policy : Option IdPolicy) (index : UInt64) (source : IntentSource) :
    (drawAt policy index source).1.intent.nonce = index := by
  rw [intent_drawAt, nonce_intent]

theorem kind_drawAt (policy : Option IdPolicy) (index : UInt64) (source : IntentSource) :
    (drawAt policy index source).1.kind = source.profile.classAt index := by
  cases policy with
  | none => rfl
  | some policy => rfl

theorem profile_drawAt (policy : Option IdPolicy) (index : UInt64) (source : IntentSource) :
    (drawAt policy index source).2.profile = source.profile := by
  cases policy with
  | none => rfl
  | some policy => rfl

/-- Two indexes of one class.  Neither the swap nor the identification reads the stream otherwise
for the one than for the other. -/
theorem drawAt_shifted (policy : Option IdPolicy) {source : IntentSource} {i j : UInt64}
    (same : source.profile.classAt i = source.profile.classAt j) :
    (drawAt policy i source).1.Shifted policy (j.toNat - i.toNat) (drawAt policy j source).1 ∧
      (drawAt policy j source).2 = (drawAt policy i source).2 := by
  have swap := intent_renumbered same
  have behind : (policy ≠ some .sequential →
      (drawAt policy j source).1.identification = (drawAt policy i source).1.identification) ∧
      (drawAt policy j source).2 = (drawAt policy i source).2 := by
    simp only [drawAt, swap]
    -- only a counted identification looks at the index
    cases policy with
    | none => exact ⟨fun _ => rfl, rfl⟩
    | some policy =>
      cases policy with
      | random => exact ⟨fun _ => rfl, rfl⟩
      | sequential => exact ⟨fun drawn => absurd rfl drawn, rfl⟩
  refine ⟨⟨?_, ?_, ?_, behind.1⟩, behind.2⟩
  · rw [kind_drawAt, kind_drawAt, same]
  · rw [nonce_drawAt, nonce_drawAt]
    omega
  · rw [nonce_drawAt, intent_drawAt, intent_drawAt, swap]

/-! ### Indexes in a row -/

/-- The draws for indexes in a row have their classes and their numbers, one after the other. -/
theorem map_drawFrom (policy : Option IdPolicy) (index : Nat) (source : IntentSource) (n : Nat) :
    (drawFrom policy index source n).1.map (fun x => (x.kind, x.intent.nonce))
      = (List.range n).map fun k =>
          (source.profile.classAt (.ofNat (index + k)), .ofNat (index + k)) := by
  induction n generalizing index source with
  | zero => rfl
  | succ n ih =>
    rw [drawFrom_succ, List.map_cons, ih, kind_drawAt, nonce_drawAt, profile_drawAt,
      List.range_succ_eq_map, List.map_cons, List.map_map]
    congr 1
    apply List.map_congr_left
    intro k _
    rw [Function.comp_apply, Nat.succ_eq_add_one, Nat.add_right_comm, ← Nat.add_assoc]

/-- Indexes in a row, by induction on `n`: the first draws leave the same source, and its profile is
still the one that the classes are of. -/
theorem drawFrom_shifted (policy : Option IdPolicy) {source : IntentSource} {a b n : Nat}
    (a_le : a + n ≤ 2 ^ 64) (b_le : b + n ≤ 2 ^ 64)
    (same : ∀ k < n,
      source.profile.classAt (.ofNat (a + k)) = source.profile.classAt (.ofNat (b + k))) :
    List.Forall₂ (Drawn.Shifted policy (b - a)) (drawFrom policy a source n).1
        (drawFrom policy b source n).1 ∧
      (drawFrom policy b source n).2 = (drawFrom policy a source n).2 := by
  induction n generalizing a b source with
  | zero => exact ⟨.nil, rfl⟩
  | succ n ih =>
    obtain ⟨first, source_eq⟩ := drawAt_shifted policy (same 0 (Nat.succ_pos n))
    rw [Nat.add_zero, Nat.add_zero, UInt64.toNat_ofNat_of_lt' (show a < 2 ^ 64 by omega),
      UInt64.toNat_ofNat_of_lt' (show b < 2 ^ 64 by omega)] at first
    rw [Nat.add_zero, Nat.add_zero] at source_eq
    -- the source behind the first draws has the profile that it had
    have later : ∀ k < n, (drawAt policy (.ofNat a) source).2.profile.classAt (.ofNat (a + 1 + k))
        = (drawAt policy (.ofNat a) source).2.profile.classAt (.ofNat (b + 1 + k)) := by
      intro k k_lt
      rw [profile_drawAt, Nat.add_right_comm, Nat.add_right_comm b]
      exact same (k + 1) (Nat.succ_lt_succ k_lt)
    obtain ⟨rest, last_eq⟩ := @ih _ (a + 1) (b + 1) (by omega) (by omega) later
    have shift_eq : ((b + 1 : Nat) : Int) - (a + 1 : Nat) = b - a := by omega
    rw [shift_eq] at rest
    rw [drawFrom_succ, drawFrom_succ, source_eq]
    exact ⟨.cons first rest, last_eq⟩

/-- **The index matters only through its class and the nonce.** Copies of any `IntentSource` are
asked for the swaps at `n` indexes in a row, by `drawFrom` from `a` on and from `b` on, and the
classes of `classAt` agree all the way.  Then the swaps are the same but for their nonces, which are
`b - a` apart (`Drawn.Shifted`), and both copies are left alike.  So it is with identifications
behind the swaps, of which a counted one leaves the source as it is.  The classes agree if `a` and
`b` have the same rest by four, and always for a profile that is not `mixed`. -/
theorem renumbered_of_draws :
    (∀ (source : IntentSource) (policy : Option IdPolicy) (a b n : Nat),
      a + n ≤ 2 ^ 64 → b + n ≤ 2 ^ 64 →
      (∀ k < n,
        source.profile.classAt (.ofNat (a + k)) = source.profile.classAt (.ofNat (b + k))) →
      (drawFrom policy a source n).1.map (fun x => (x.kind, x.intent.nonce))
          = (List.range n).map (fun k =>
            (source.profile.classAt (.ofNat (a + k)), .ofNat (a + k))) ∧
        List.Forall₂ (Drawn.Shifted policy (b - a)) (drawFrom policy a source n).1
          (drawFrom policy b source n).1 ∧
        (drawFrom policy b source n).2 = (drawFrom policy a source n).2) ∧
    (∀ (source : IntentSource) (index : UInt64),
      (source.draw (IdPolicy.sequential.next index)).2 = source) ∧
    ∀ (profile : Profile) (a b : Nat), (profile = .mixed → a % 4 = b % 4) →
      ∀ k, profile.classAt (.ofNat (a + k)) = profile.classAt (.ofNat (b + k)) := by
  refine ⟨?_, draw_sequential, ?_⟩
  · intro source policy a b n a_le b_le same
    exact ⟨map_drawFrom policy a source n, drawFrom_shifted policy a_le b_le same⟩
  · intro profile a b rest_eq k
    apply Profile.classAt_congr
    intro mixed
    have := rest_eq mixed
    omega

/-- Six swaps of a `mixed` profile with random identifications, up to the very last index. -/
theorem renumbered_of_draws_lastIndexes :
    ∃ drawn last later, drawFrom (some .random) 2 (ofSeed .mixed 42) 6 = (drawn, later) ∧
      drawFrom (some .random) 18446744073709551610 (ofSeed .mixed 42) 6 = (last, later) ∧
      drawn.map Drawn.kind = [.large, .large, .small, .tight, .large, .large] ∧
      List.Forall₂ (Drawn.Shifted (some .random) 18446744073709551608) drawn last := by
  obtain ⟨draws, -, classes⟩ := renumbered_of_draws
  have same := classes .mixed 2 18446744073709551610 fun _ => by decide
  obtain ⟨labels, shifted, later_eq⟩ := draws (ofSeed .mixed 42) (some .random) 2
    18446744073709551610 6 (by omega) (by omega) fun k _ => same k
  rcases front : drawFrom (some .random) 2 (ofSeed .mixed 42) 6 with ⟨drawn, later⟩
  rcases back : drawFrom (some .random) 18446744073709551610 (ofSeed .mixed 42) 6 with ⟨last, later'⟩
  rw [front] at labels
  rw [front, back] at shifted later_eq
  refine ⟨drawn, last, later, rfl, Prod.ext rfl later_eq, ?_, shifted⟩
  have kinds := congrArg (List.map Prod.fst) labels
  rw [List.map_map, List.map_map] at kinds
  exact kinds

end IntentSource

end SwapCapture
