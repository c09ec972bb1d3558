/-
How many swaps of each class a run makes.

The class of a swap follows from its index alone, so a tally is a count over the indexes:

* `Tally.foldl_add` — a tally counts the classes that it was given;
* `Plan.map_kind_announcements` — the classes of a run are those of the indexes in order;
* `Plan.toNat_tally` — so the tally of a run counts the classes of its indexes;
* `Plan.tally_of_fixed`, `Plan.tally_of_mixed` — and these counts for each profile.
-/
import SwapCapture.Proofs.Plan.Traffic

namespace SwapCapture

/-- `Tally.add` counts the classes that it is given. -/
theorem Tally.foldl_add (kinds : List SwapClass) (t : Tally) :
    kinds.foldl Tally.add t = ⟨t.small + .ofNat (kinds.count .small),
      t.tight + .ofNat (kinds.count .tight), t.large + .ofNat (kinds.count .large)⟩ := by
  induction kinds generalizing t with
  | nil => simp
  | cons kind rest ih =>
    rw [List.foldl_cons, ih]
    -- one more in front counts for its own class and leaves the other two
    cases kind with
    | small => simp [Tally.add, UInt64.ofNat_add, UInt64.add_assoc, UInt64.add_comm 1]
    | tight => simp [Tally.add, UInt64.ofNat_add, UInt64.add_assoc, UInt64.add_comm 1]
    | large => simp [Tally.add, UInt64.ofNat_add, UInt64.add_assoc, UInt64.add_comm 1]

/-- Every swap is of one class. -/
theorem SwapClass.count_add_count (kinds : List SwapClass) :
    kinds.count .small + kinds.count .tight + kinds.count .large = kinds.length := by
  induction kinds with
  | nil => rfl
  | cons kind rest ih =>
    cases kind with
    | small => simp; omega
    | tight => simp; omega
    | large => simp; omega

namespace Profile

/-- The classes of the first `n` indexes. -/
def classes (profile : Profile) (n : Nat) : List SwapClass :=
  (List.range n).map fun i => profile.classAt (.ofNat i)

@[simp] theorem length_classes (profile : Profile) (n : Nat) :
    (profile.classes n).length = n := by
  rw [classes, List.length_map, List.length_range]

theorem classes_succ (profile : Profile) (n : Nat) :
    profile.classes (n + 1) = profile.classes n ++ [profile.classAt (.ofNat n)] := by
  rw [classes, List.range_succ, List.map_append]
  rfl

/-- A profile other than `mixed` has one class. -/
theorem classes_of_fixed {profile : Profile} {kind : SwapClass}
    (fixed : ∀ i, profile.classAt i = kind) (n : Nat) :
    profile.classes n = List.replicate n kind := by
  rw [classes, List.map_congr_left fun i _ => fixed _, List.map_const', List.length_range]

theorem classAt_mixed {i : Nat} (h : i < 2 ^ 64) :
    mixed.classAt (.ofNat i)
      = if i % 4 = 0 then .small else if i % 4 = 1 then .tight else .large := by
  -- the index does not wrap, so its rest by four is that of the number
  have rest (r : Nat) (hr : r < 4) : UInt64.ofNat i % 4 = .ofNat r ↔ i % 4 = r := by
    rw [← UInt64.toNat_inj, UInt64.toNat_mod, UInt64.toNat_ofNat_of_lt' h,
      UInt64.toNat_ofNat_of_lt' (by show r < 2 ^ 64; omega)]
    rfl
  rw [classAt]
  simp only [show (0 : UInt64) = .ofNat 0 from rfl, show (1 : UInt64) = .ofNat 1 from rfl,
    rest 0 (by decide), rest 1 (by decide)]

/-- A `mixed` profile goes round every four indexes: small, tight, and large for the rest. -/
theorem count_classAt_mixed {n : Nat} (h : n ≤ 2 ^ 64) :
    (mixed.classes n).count .small = (n + 3) / 4 ∧
      (mixed.classes n).count .tight = (n + 2) / 4 := by
  induction n with
  | zero => exact ⟨rfl, rfl⟩
  | succ n ih =>
    obtain ⟨small, tight⟩ := ih (by omega)
    rw [classes_succ, classAt_mixed (by omega), List.count_append, List.count_append, small, tight]
    -- the class at `n` goes by the rest by four, and each quotient moves where its class comes
    by_cases at_small : n % 4 = 0
    · rw [if_pos at_small]
      constructor
      · show (n + 3) / 4 + 1 = (n + 1 + 3) / 4
        omega
      · show (n + 2) / 4 + 0 = (n + 1 + 2) / 4
        omega
    rw [if_neg at_small]
    by_cases at_tight : n % 4 = 1
    · rw [if_pos at_tight]
      constructor
      · show (n + 3) / 4 + 0 = (n + 1 + 3) / 4
        omega
      · show (n + 2) / 4 + 1 = (n + 1 + 2) / 4
        omega
    · rw [if_neg at_tight]
      constructor
      · show (n + 3) / 4 + 0 = (n + 1 + 3) / 4
        omega
      · show (n + 2) / 4 + 0 = (n + 1 + 2) / 4
        omega

end Profile

namespace Plan

/-- The classes of a run are those of its indexes in order. -/
theorem map_kind_announcements (plan : Plan) :
    plan.announcements.map Announcement.kind = plan.profile.classes plan.count.toNat := by
  apply List.ext_getElem?
  intro i
  rw [Profile.classes, List.getElem?_map, List.getElem?_map]
  -- both lists end with the count of the plan
  by_cases within : i < plan.count.toNat
  · have i_lt : i < plan.announcements.length := by rwa [length_announcements]
    have matched := announcements_at (List.getElem?_eq_getElem i_lt)
    rw [List.getElem?_eq_getElem i_lt, List.getElem?_range within, Option.map_some,
      Option.map_some, matched.kind_eq]
  · have i_ge : plan.announcements.length ≤ i := by
      rw [length_announcements]
      omega
    rw [List.getElem?_eq_none i_ge, List.getElem?_eq_none (by rw [List.length_range]; omega)]
    rfl

theorem tally_eq (plan : Plan) :
    plan.tally = ⟨.ofNat ((plan.profile.classes plan.count.toNat).count .small),
      .ofNat ((plan.profile.classes plan.count.toNat).count .tight),
      .ofNat ((plan.profile.classes plan.count.toNat).count .large)⟩ := by
  rw [tally, map_kind_announcements, Tally.foldl_add]
  simp [Tally.zero]

/-- Nothing wraps in the `tally` of a plan. -/
theorem toNat_tally (plan : Plan) :
    plan.tally.small.toNat = (plan.profile.classes plan.count.toNat).count .small ∧
      plan.tally.tight.toNat = (plan.profile.classes plan.count.toNat).count .tight ∧
      plan.tally.large.toNat = (plan.profile.classes plan.count.toNat).count .large := by
  have fits (kind : SwapClass) :
      (plan.profile.classes plan.count.toNat).count kind < 2 ^ 64 := by
    have count_le := List.count_le_length (a := kind) (l := plan.profile.classes plan.count.toNat)
    rw [Profile.length_classes] at count_le
    exact Nat.lt_of_le_of_lt count_le plan.count.toNat_lt
  rw [tally_eq]
  exact ⟨UInt64.toNat_ofNat_of_lt' (fits .small), UInt64.toNat_ofNat_of_lt' (fits .tight),
    UInt64.toNat_ofNat_of_lt' (fits .large)⟩

/-- A profile other than `mixed` makes every swap one of its own class. -/
theorem tally_of_fixed (plan : Plan) :
    (plan.profile = .small → plan.tally = ⟨plan.count, 0, 0⟩) ∧
      (plan.profile = .tight → plan.tally = ⟨0, plan.count, 0⟩) ∧
      (plan.profile = .large → plan.tally = ⟨0, 0, plan.count⟩) := by
  refine ⟨?_, ?_, ?_⟩
  · intro profile_eq
    have fixed : ∀ i, plan.profile.classAt i = .small := fun i => by rw [profile_eq]; rfl
    simp [tally_eq, Profile.classes_of_fixed fixed, List.count_replicate]
  · intro profile_eq
    have fixed : ∀ i, plan.profile.classAt i = .tight := fun i => by rw [profile_eq]; rfl
    simp [tally_eq, Profile.classes_of_fixed fixed, List.count_replicate]
  · intro profile_eq
    have fixed : ∀ i, plan.profile.classAt i = .large := fun i => by rw [profile_eq]; rfl
    simp [tally_eq, Profile.classes_of_fixed fixed, List.count_replicate]

/-- A `mixed` profile makes a quarter of its swaps small and a quarter tight, and the rest large. -/
theorem tally_of_mixed {plan : Plan} (mixed : plan.profile = .mixed) :
    plan.tally.small.toNat = (plan.count.toNat + 3) / 4 ∧
      plan.tally.tight.toNat = (plan.count.toNat + 2) / 4 ∧
      plan.tally.large.toNat
        = plan.count.toNat - (plan.count.toNat + 3) / 4 - (plan.count.toNat + 2) / 4 := by
  obtain ⟨small, tight, large⟩ := toNat_tally plan
  rw [mixed] at small tight large
  have all := SwapClass.count_add_count (Profile.mixed.classes plan.count.toNat)
  obtain ⟨small_count, tight_count⟩ :=
    Profile.count_classAt_mixed (Nat.le_of_lt plan.count.toNat_lt)
  -- what is neither small nor tight is large
  rw [Profile.length_classes] at all
  rw [small_count] at small all
  rw [tight_count] at tight all
  refine ⟨small, tight, ?_⟩
  rw [large]
  omega

end Plan

end SwapCapture
