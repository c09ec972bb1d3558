/-
Texts that are hardware addresses.

What an address may look like is said here without a reader: six groups with single colons between
them, and each group is one of two spellings of its octet.  Which texts the reader accepts follows
from how a text falls into its fields:

* `SpellsOctet`, `Spells` — the spellings of an octet and of an address;
* `ofText_eq_ok_iff` — the reader accepts just the spellings of an address;
* `IsCanonical`, `isCanonical_iff` — the form that addresses are shown in;
* `ofText_text` — an address that is shown is read back;
* `ofText_exact` — all of this, and what is said of every other text.
-/
import Mathlib.Data.List.Forall2
import Mathlib.Data.Set.List
import SwapCapture.Net.Address
import SwapCapture.Proofs.Text.Numerals
import SwapCapture.Proofs.Text.Splitting

namespace SwapCapture.MacAddress

open Text

/-! ### Octets -/

/-- The two ways to write an octet in two characters: its digits in base sixteen, or a plus sign and
its only digit. -/
inductive SpellsOctet : List Char → UInt8 → Prop where
  | digits {x y : Char} {high low : Nat} {octet : UInt8} (first : IsHexDigit x high)
      (second : IsHexDigit y low) (value : octet.toNat = 16 * high + low) :
      SpellsOctet [x, y] octet
  | signed {y : Char} {octet : UInt8} (digit : IsHexDigit y octet.toNat) :
      SpellsOctet ['+', y] octet

theorem lt_of_isHexDigit {c : Char} {v : Nat} (h : IsHexDigit c v) : v < 16 :=
  (digit?_eq_some_iff.mp (digit?_sixteen_iff.mpr h)).2

/-- Neither `+` nor `:` is a digit. -/
theorem ne_of_isHexDigit {c : Char} {v : Nat} (h : IsHexDigit c v) : c ≠ '+' ∧ c ≠ ':' := by
  have plus_none : digit? 16 '+' = none := rfl
  have colon_none : digit? 16 ':' = none := rfl
  rw [← digit?_sixteen_iff] at h
  constructor
  · rintro rfl
    rw [plus_none] at h
    cases h
  · rintro rfl
    rw [colon_none] at h
    cases h

theorem octet?_eq_some_iff {group : List Char} {octet : UInt8} :
    octet? group = some octet ↔ SpellsOctet group octet := by
  constructor
  · intro read
    match group, read with
    | [x, y], read =>
      simp only [octet?] at read
      split at read
      · cases read
      next low second =>
      have second := digit?_sixteen_iff.mp second
      -- no digit is above fifteen, so two of them still fit in an octet
      have low_lt := lt_of_isHexDigit second
      split at read
      · next sign =>
        cases read
        rw [sign]
        refine .signed ?_
        rwa [UInt8.toNat_ofNat_of_lt' (by show low < 2 ^ 8; omega)]
      · rw [Option.map_eq_some_iff] at read
        obtain ⟨high, first, rfl⟩ := read
        have first := digit?_sixteen_iff.mp first
        have high_lt := lt_of_isHexDigit first
        exact .digits first second
          (UInt8.toNat_ofNat_of_lt' (by show 16 * high + low < 2 ^ 8; omega))
  · intro spells
    cases spells with
    | digits first second value =>
      rw [octet?, digit?_sixteen_iff.mpr second]
      simp only [(ne_of_isHexDigit first).1, if_false, digit?_sixteen_iff.mpr first, Option.map_some]
      rw [← value, UInt8.ofNat_toNat]
    | signed digit =>
      rw [octet?, digit?_sixteen_iff.mpr digit]
      simp only [if_true]
      rw [UInt8.ofNat_toNat]

/-- No spelling of an octet has `:` in it. -/
theorem SpellsOctet.not_mem {group : List Char} {octet : UInt8} (h : SpellsOctet group octet) :
    ':' ∉ group := by
  cases h with
  | digits first second =>
    simp [(ne_of_isHexDigit first).2.symm, (ne_of_isHexDigit second).2.symm]
  | signed digit => simp [(ne_of_isHexDigit digit).2.symm]

/-! ### Addresses -/

/-- `text` is the octets of `m` in order, with single colons between them. -/
def Spells (text : String) (m : MacAddress) : Prop :=
  ∃ groups, text.toList = [':'].intercalate groups ∧ List.Forall₂ SpellsOctet groups m.octets

theorem ofFields?_eq_some_iff {groups : List (List Char)} {m : MacAddress} :
    ofFields? groups = some m ↔ List.Forall₂ SpellsOctet groups m.octets := by
  constructor
  · intro read
    match groups, read with
    | [a, b, c, d, e, f], read =>
      simp only [ofFields?, Option.bind_eq_bind, Option.bind_eq_some_iff, octet?_eq_some_iff] at read
      obtain ⟨oa, ha, ob, hb, oc, hc, od, hd, oe, he, of, hf, made⟩ := read
      cases made
      exact .cons ha (.cons hb (.cons hc (.cons hd (.cons he (.cons hf .nil)))))
  · intro spells
    simp only [octets, List.forall₂_cons_right_iff, List.forall₂_nil_right_iff] at spells
    obtain ⟨a, -, ha, ⟨b, -, hb, ⟨c, -, hc, ⟨d, -, hd, ⟨e, -, he, ⟨f, -, hf, rfl, rfl⟩, rfl⟩, rfl⟩,
      rfl⟩, rfl⟩, rfl⟩ := spells
    rw [← octet?_eq_some_iff] at ha hb hc hd he hf
    simp only [ofFields?, ha, hb, hc, hd, he, hf]
    rfl

/-- The groups of a spelling are the `fields` of its text. -/
theorem spells_iff {text : String} {m : MacAddress} :
    Spells text m ↔ List.Forall₂ SpellsOctet (fields ':' text.toList) m.octets := by
  constructor
  · rintro ⟨groups, joined, spells⟩
    have some_group : groups ≠ [] := by
      rintro rfl
      cases spells
    have no_colon : ∀ group ∈ groups, ':' ∉ group :=
      ((List.forall₂_and_left groups m.octets).mp
        (spells.imp fun _ _ spelled => ⟨spelled.not_mem, spelled⟩)).1
    rwa [joined, fields_intercalate ':' some_group no_colon]
  · intro spells
    exact ⟨_, (intercalate_fields ':' text.toList).symm, spells⟩

theorem ofText_eq_ok_iff {text : String} {m : MacAddress} :
    ofText text = .ok m ↔ Spells text m := by
  rw [spells_iff, ← ofFields?_eq_some_iff, ofText]
  cases ofFields? (fields ':' text.toList) with
  | none => simp
  | some read => simp

theorem ofText_eq_error_iff {text : String} {e : InvalidMacAddress} :
    ofText text = .error e ↔ (¬∃ m, Spells text m) ∧ e = ⟨text⟩ := by
  simp only [← ofText_eq_ok_iff]
  rw [ofText]
  cases ofFields? (fields ':' text.toList) with
  | none => simp [eq_comm]
  | some read => simp

/-! ### The form that is shown -/

/-- `text` has the form that addresses are shown in: six groups of two digits, all in small letters,
with single colons between them. -/
def IsCanonical (text : String) : Prop :=
  ∃ groups, text.toList = [':'].intercalate groups ∧ groups.length = 6 ∧
    ∀ group ∈ groups, ∃ x y, group = [x, y] ∧
      x ∈ "0123456789abcdef".toList ∧ y ∈ "0123456789abcdef".toList

/-- The two characters that `octet` is shown in. -/
def shownOctet (octet : UInt8) : List Char :=
  [Nat.digitChar (octet.toNat / 16), Nat.digitChar (octet.toNat % 16)]

theorem toList_text (m : MacAddress) :
    m.text.toList = [':'].intercalate (m.octets.map shownOctet) := by
  have shown_eq : String.toList ∘ (fun octet : UInt8 => hex 2 octet.toNat) = shownOctet :=
    funext fun octet => toList_hex_two octet.toNat_lt
  rw [text, String.toList_intercalate, List.map_map, shown_eq]
  rfl

theorem length_text (m : MacAddress) : m.text.length = 17 := by
  rw [← String.length_toList, toList_text]
  rfl

theorem spellsOctet_shownOctet (octet : UInt8) : SpellsOctet (shownOctet octet) octet := by
  have octet_lt : octet.toNat < 256 := octet.toNat_lt
  exact .digits (isHexDigit_digitChar (by omega)) (isHexDigit_digitChar (by omega)) (by omega)

theorem spells_text (m : MacAddress) : Spells m.text m := by
  refine ⟨m.octets.map shownOctet, toList_text m, ?_⟩
  rw [List.forall₂_map_left_iff, List.forall₂_same]
  exact fun octet _ => spellsOctet_shownOctet octet

theorem ofText_text (m : MacAddress) : ofText m.text = .ok m :=
  ofText_eq_ok_iff.mpr (spells_text m)

/-- Two digits in small letters are what some octet is shown in. -/
theorem exists_shownOctet {x y : Char} (hx : x ∈ "0123456789abcdef".toList)
    (hy : y ∈ "0123456789abcdef".toList) : ∃ octet, shownOctet octet = [x, y] := by
  obtain ⟨high, high_lt, rfl⟩ := exists_digitChar hx
  obtain ⟨low, low_lt, rfl⟩ := exists_digitChar hy
  have value : (UInt8.ofNat (16 * high + low)).toNat = 16 * high + low :=
    UInt8.toNat_ofNat_of_lt' (by show _ < 2 ^ 8; omega)
  have high_eq : (16 * high + low) / 16 = high := by omega
  have low_eq : (16 * high + low) % 16 = low := by omega
  exact ⟨.ofNat (16 * high + low), by rw [shownOctet, value, high_eq, low_eq]⟩

/-- The texts of canonical form are those that addresses are shown in. -/
theorem isCanonical_iff {text : String} : IsCanonical text ↔ ∃ m : MacAddress, m.text = text := by
  constructor
  · rintro ⟨groups, joined, length_eq, small⟩
    -- every group of this form shows an octet, so all of them show a list of octets
    have shown : groups ∈ Set.range (List.map shownOctet) := by
      rw [Set.range_list_map]
      intro group mem
      obtain ⟨x, y, rfl, hx, hy⟩ := small group mem
      exact exists_shownOctet hx hy
    obtain ⟨octets, rfl⟩ := shown
    rw [List.length_map] at length_eq
    match octets, length_eq with
    | [a, b, c, d, e, f], _ =>
      refine ⟨⟨a, b, c, d, e, f⟩, String.toList_injective ?_⟩
      rw [toList_text, joined]
      rfl
  · rintro ⟨m, rfl⟩
    refine ⟨m.octets.map shownOctet, toList_text m, rfl, ?_⟩
    intro group mem
    obtain ⟨octet, -, rfl⟩ := List.mem_map.mp mem
    have octet_lt : octet.toNat < 256 := octet.toNat_lt
    exact ⟨_, _, rfl, List.mem_of_getElem? (getElem?_smallDigits (by omega)),
      List.mem_of_getElem? (getElem?_smallDigits (by omega))⟩

/-! ### All texts -/

/-- **Hardware addresses are read exactly.** `ofText` reads a text as an address just if it `Spells`
it, and every other text is refused and handed back as it is.  An address that is shown is read
back, and a text that was accepted is shown in its canonical form, which is read as the same
address. -/
theorem ofText_exact :
    (∀ text m, ofText text = .ok m ↔ Spells text m) ∧
    (∀ text e, ofText text = .error e ↔ (¬∃ m, Spells text m) ∧ e = ⟨text⟩) ∧
    (∀ m, ofText m.text = .ok m) ∧
    (∀ text, IsCanonical text ↔ ∃ m : MacAddress, m.text = text) ∧
    ∀ text m, ofText text = .ok m →
      m.text.length = 17 ∧ IsCanonical m.text ∧ ofText m.text = ofText text := by
  refine ⟨fun _ _ => ofText_eq_ok_iff, fun _ _ => ofText_eq_error_iff, ofText_text,
    fun _ => isCanonical_iff, ?_⟩
  intro text m read
  exact ⟨length_text m, isCanonical_iff.mpr ⟨m, rfl⟩, by rw [read, ofText_text]⟩

/-- A text with signs and with letters of both cases. -/
theorem ofText_exact_signed :
    ∃ m : MacAddress, ofText "+a:0B:Ff:00:+1:9c" = .ok m ∧ m.text = "0a:0b:ff:00:01:9c" ∧
      ofText m.text = ofText "+a:0B:Ff:00:+1:9c" := by
  have read : ofText "+a:0B:Ff:00:+1:9c" = .ok ⟨0x0a, 0x0b, 0xff, 0x00, 0x01, 0x9c⟩ := by decide
  obtain ⟨-, -, -, -, shown⟩ := ofText_exact
  exact ⟨_, read, by decide, (shown _ _ read).2.2⟩

end SwapCapture.MacAddress
