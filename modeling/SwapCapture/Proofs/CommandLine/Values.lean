/-
The values of options, shown as text and read back.

Each option has a way to show its value: numbers in base ten, addresses in their usual form, a path
as it is, and a name in letters of either case.  Whatever is shown is read as the same value:

* `Ipv4Address.ofText?_text`, `readSecond_toString`, `Profile.ofName_of_inAnyCase` — one kind of
  value after the other;
* `Flag.setting` — the part of a request that an option sets, and `setting_apply`, what the setting
  of one option does to the part of another;
* `Setting.Shown`, `read_shown` — a value of any option is read back;
* `read_defaultText` — the text that stands for an option left out.
-/
import SwapCapture.CommandLine.Basic
import SwapCapture.Proofs.Net.MacText
import SwapCapture.Proofs.Text.Integers

namespace SwapCapture

open Text

/-! ### Addresses -/

namespace Ipv4Address

theorem octet?_toDigits (octet : UInt8) : octet? (Nat.toDigits 10 octet.toNat) = some octet := by
  have value := decimalValue?_toDigits octet.toNat
  have octet_lt : octet.toNat < 256 := octet.toNat_lt
  unfold octet?
  split
  · next no_digit => simp at no_digit
  · next leading_zero =>
    by_cases pos : 0 < octet.toNat
    · exact absurd rfl (toDigits_head_ne_zero pos leading_zero)
    · simp_all
  · rw [value]
    simp [octet_lt]

theorem toList_text (ip : Ipv4Address) :
    ip.text.toList
      = ['.'].intercalate (ip.octets.map fun octet => Nat.toDigits 10 octet.toNat) := by
  have shown_eq : String.toList ∘ (fun octet : UInt8 => decimal 1 octet.toNat)
      = fun octet => Nat.toDigits 10 octet.toNat :=
    funext fun octet => toList_decimal_one octet.toNat
  rw [text, String.toList_intercalate, List.map_map, shown_eq]
  rfl

theorem fields_text (ip : Ipv4Address) :
    fields '.' ip.text.toList = ip.octets.map fun octet => Nat.toDigits 10 octet.toNat := by
  rw [toList_text]
  refine fields_intercalate '.' (by simp [octets]) ?_
  intro group mem point
  obtain ⟨octet, -, rfl⟩ := List.mem_map.mp mem
  have digit := Nat.isDigit_of_mem_toDigits (by omega) (by omega) point
  simp at digit

/-- `ofText?` reads an address back that `text` shows. -/
theorem ofText?_text (ip : Ipv4Address) : ofText? ip.text = some ip := by
  rw [ofText?, fields_text]
  simp [octets, octet?_toDigits]

theorem head?_text (ip : Ipv4Address) : ip.text.toList.head? ≠ some '-' := by
  obtain ⟨c, rest, digits, digit⟩ := exists_toDigits_cons ip.a.toNat
  have first : ip.text.toList.head? = some c := by
    rw [toList_text, octets, List.map_cons, digits]
    rfl
  rw [first]
  rintro ⟨⟩
  simp at digit

end Ipv4Address

theorem MacAddress.head?_text (m : MacAddress) : m.text.toList.head? ≠ some '-' := by
  have octet_lt : m.a.toNat < 256 := m.a.toNat_lt
  have digit : Nat.digitChar (m.a.toNat / 16) ∈ "0123456789abcdef".toList :=
    List.mem_of_getElem? (getElem?_smallDigits (by omega))
  have first : m.text.toList.head? = some (Nat.digitChar (m.a.toNat / 16)) := by
    rw [toList_text]
    rfl
  rw [first]
  rintro dash
  rw [Option.some.inj dash] at digit
  simp at digit

/-! ### Names -/

/-- `name`, in which any letter may stand as a capital. -/
def InAnyCase (name text : String) : Prop :=
  List.Forall₂ (fun small c => c = small ∨ c = small.toUpper) name.toList text.toList

theorem inAnyCase_self (name : String) : InAnyCase name name :=
  List.forall₂_same.mpr fun _ _ => .inl rfl

theorem toLower_of_inAnyCase {name text : String}
    (small : ∀ c ∈ name.toList, c.toLower = c ∧ c.toUpper.toLower = c)
    (h : InAnyCase name text) : text.toLower = name := by
  have both := (List.forall₂_and_left name.toList text.toList).mpr ⟨small, h⟩
  have folded : List.Forall₂ (fun a c => a = c.toLower) name.toList text.toList := by
    refine both.imp ?_
    rintro a c ⟨⟨same, capital⟩, rfl | rfl⟩
    · exact same.symm
    · exact capital.symm
  rw [← List.forall₂_map_right_iff, List.forall₂_eq_eq_eq] at folded
  apply String.toList_injective
  show (text.map Char.toLower).toList = name.toList
  rw [String.toList_map, folded]

theorem head?_of_inAnyCase {name text : String}
    (letters : ∀ c ∈ name.toList, c ≠ '-' ∧ c.toUpper ≠ '-') (h : InAnyCase name text) :
    text.toList.head? ≠ some '-' := by
  have both := (List.forall₂_and_left name.toList text.toList).mpr ⟨letters, h⟩
  generalize name.toList = small at both
  generalize text.toList = shown at both ⊢
  cases both with
  | nil => simp
  | cons first _ =>
    obtain ⟨⟨letter, capital⟩, rfl | rfl⟩ := first
    · simpa using letter
    · simpa using capital

def ChecksumPolicy.name : ChecksumPolicy → String
  | .zero => "zero"
  | .compute => "compute"

def IdPolicy.name : IdPolicy → String
  | .random => "random"
  | .sequential => "sequential"

theorem Profile.ofName_of_inAnyCase {profile : Profile} {text : String}
    (h : InAnyCase profile.name text) : ofName text = .ok profile := by
  have key : text.toLower = profile.name :=
    toLower_of_inAnyCase (by cases profile <;> simp [name]) h
  rw [ofName, key]
  cases profile <;> rfl

theorem ChecksumPolicy.ofName_of_inAnyCase {policy : ChecksumPolicy} {text : String}
    (h : InAnyCase policy.name text) : ofName text = .ok policy := by
  have key : text.toLower = policy.name := toLower_of_inAnyCase (by cases policy <;> simp [name]) h
  rw [ofName, key]
  cases policy <;> rfl

theorem IdPolicy.ofName_of_inAnyCase {policy : IdPolicy} {text : String}
    (h : InAnyCase policy.name text) : ofName text = .ok policy := by
  have key : text.toLower = policy.name := toLower_of_inAnyCase (by cases policy <;> simp [name]) h
  rw [ofName, key]
  cases policy <;> rfl

namespace CommandLine

/-! ### Numbers -/

theorem readWord64_toString (n : UInt64) : readWord64 (toString n.toNat) = .ok n := by
  have within : n.toNat ≤ UInt64.size - 1 := Nat.le_sub_one_of_lt n.toNat_lt
  rw [readWord64, toList_toString, readUnsigned_toDigits within]
  simp

theorem head?_toString (n : Nat) : (toString n).toList.head? ≠ some '-' := by
  obtain ⟨c, rest, digits, digit⟩ := exists_toDigits_cons n
  rw [toList_toString, digits]
  rintro ⟨⟩
  simp at digit

theorem numberUpTo_toString {limit n : Nat} (within : n ≤ limit) (fits : limit < 2 ^ 63) :
    numberUpTo limit (toString n) = .ok n := by
  have small : n ≤ UInt64.size / 2 - 1 := by
    show n ≤ 2 ^ 63 - 1
    omega
  rw [numberUpTo, toList_toString, readSigned_toDigits small]
  simp [within]

theorem readSecond_toString (n : UInt32) : readSecond (toString n.toNat) = .ok n := by
  have within : n.toNat ≤ 4294967295 := Nat.le_sub_one_of_lt n.toNat_lt
  rw [readSecond, numberUpTo_toString within (by omega)]
  show Except.ok (UInt32.ofNat n.toNat) = _
  rw [UInt32.ofNat_toNat]

theorem readWord16_toString (n : UInt16) : readWord16 (toString n.toNat) = .ok n := by
  have within : n.toNat ≤ 65535 := Nat.le_sub_one_of_lt n.toNat_lt
  rw [readWord16, numberUpTo_toString within (by omega)]
  show Except.ok (UInt16.ofNat n.toNat) = _
  rw [UInt16.ofNat_toNat]

/-! ### Settings -/

def Setting.flag : Setting → Flag
  | .count _ => .count
  | .mode _ => .mode
  | .out _ => .out
  | .seed _ => .seed
  | .baseTs _ => .baseTs
  | .sourceIp _ => .sourceIp
  | .destinationIp _ => .destinationIp
  | .sourcePort _ => .sourcePort
  | .destinationPort _ => .destinationPort
  | .sourceMac _ => .sourceMac
  | .destinationMac _ => .destinationMac
  | .checksums _ => .checksums
  | .ipId _ => .ipId

/-- What `request` has for an option. -/
def Flag.setting (flag : Flag) (request : Request) : Setting :=
  match flag with
  | .count => .count request.plan.count
  | .mode => .mode request.plan.profile
  | .out => .out request.path
  | .seed => .seed request.plan.seed
  | .baseTs => .baseTs request.plan.base
  | .sourceIp => .sourceIp request.plan.ends.sourceIp
  | .destinationIp => .destinationIp request.plan.ends.destinationIp
  | .sourcePort => .sourcePort request.plan.ends.sourcePort
  | .destinationPort => .destinationPort request.plan.ends.destinationPort
  | .sourceMac => .sourceMac request.plan.ends.sourceMac
  | .destinationMac => .destinationMac request.plan.ends.destinationMac
  | .checksums => .checksums request.plan.checksums
  | .ipId => .ipId request.plan.identification

@[simp] theorem flag_setting (flag : Flag) (request : Request) :
    (flag.setting request).flag = flag := by
  cases flag <;> rfl

theorem path_of_setting {flag : Flag} {request : Request} {path : String}
    (h : flag.setting request = .out path) : request.path = path := by
  cases flag with
  | out => exact Setting.out.inj h
  | _ => cases h

/-- `s.apply` changes what the request has for its own option, and nothing else. -/
theorem setting_apply (s : Setting) (request : Request) (flag : Flag) :
    flag.setting (s.apply request) = if flag = s.flag then s else flag.setting request := by
  cases s <;> cases flag <;> rfl

/-- Nothing is in a request but what it has for the options. -/
theorem Request.ext_setting {r r' : Request} (h : ∀ flag : Flag, flag.setting r = flag.setting r') :
    r = r' := by
  have count_eq := h .count
  have mode_eq := h .mode
  have out_eq := h .out
  have seed_eq := h .seed
  have base_eq := h .baseTs
  have source_ip_eq := h .sourceIp
  have destination_ip_eq := h .destinationIp
  have source_port_eq := h .sourcePort
  have destination_port_eq := h .destinationPort
  have source_mac_eq := h .sourceMac
  have destination_mac_eq := h .destinationMac
  have checksums_eq := h .checksums
  have id_eq := h .ipId
  obtain ⟨⟨_, _, _, _, ⟨⟩, _, _⟩, _⟩ := r
  obtain ⟨⟨_, _, _, _, ⟨⟩, _, _⟩, _⟩ := r'
  simp_all [Flag.setting]

theorem settingOf_eq_ok {α : Type} {flag : Flag} {text : String} {make : α → Setting}
    {outcome : Except ValueFault α} {s : Setting} (h : settingOf flag text make outcome = .ok s) :
    ∃ value, s = make value := by
  cases outcome with
  | error fault => cases h
  | ok value =>
    cases h
    exact ⟨value, rfl⟩

/-- The option that a text is read for is the one that is set. -/
theorem flag_of_read {flag : Flag} {text : String} {s : Setting} (h : flag.read text = .ok s) :
    s.flag = flag := by
  cases flag with
  | out =>
    rw [Flag.read] at h
    split at h
    · cases h
    · cases h
      rfl
  | _ =>
    obtain ⟨value, rfl⟩ := settingOf_eq_ok h
    rfl

/-- The texts that show the value of a setting.  Those of a `Profile`, a `ChecksumPolicy` and an
`IdPolicy` may have letters of either case. -/
def Setting.Shown (s : Setting) (text : String) : Prop :=
  match s with
  | .count n | .seed n => text = toString n.toNat
  | .mode profile => InAnyCase profile.name text
  | .out path => text = path
  | .baseTs second => text = toString second.toNat
  | .sourceIp ip | .destinationIp ip => text = ip.text
  | .sourcePort n | .destinationPort n => text = toString n.toNat
  | .sourceMac mac | .destinationMac mac => text = mac.text
  | .checksums policy => InAnyCase policy.name text
  | .ipId policy => InAnyCase policy.name text

/-- A value that is `Shown` is read back, and an empty path is no value. -/
theorem read_shown {s : Setting} {text : String} (shown : s.Shown text) (some_path : s ≠ .out "") :
    s.flag.read text = .ok s := by
  -- each option reads the texts of its own kind of value
  cases s with
  | count n | seed n =>
    obtain rfl : text = toString n.toNat := shown
    simp only [Setting.flag, Flag.read, readWord64_toString, settingOf]
  | mode profile =>
    have named : InAnyCase profile.name text := shown
    simp only [Setting.flag, Flag.read, readProfile, Profile.ofName_of_inAnyCase named,
      Except.mapError, settingOf]
  | out path =>
    obtain rfl : text = path := shown
    have some_text : text ≠ "" := fun empty => some_path (congrArg Setting.out empty)
    simp [Setting.flag, Flag.read, some_text]
  | baseTs second =>
    obtain rfl : text = toString second.toNat := shown
    simp only [Setting.flag, Flag.read, readSecond_toString, settingOf]
  | sourceIp ip | destinationIp ip =>
    obtain rfl : text = ip.text := shown
    simp only [Setting.flag, Flag.read, readIpv4, Ipv4Address.ofText?_text, settingOf]
  | sourcePort n | destinationPort n =>
    obtain rfl : text = toString n.toNat := shown
    simp only [Setting.flag, Flag.read, readWord16_toString, settingOf]
  | sourceMac mac | destinationMac mac =>
    obtain rfl : text = mac.text := shown
    simp only [Setting.flag, Flag.read, readMac, MacAddress.ofText_text, Except.mapError, settingOf]
  | checksums policy =>
    have named : InAnyCase policy.name text := shown
    simp only [Setting.flag, Flag.read, readChecksums, ChecksumPolicy.ofName_of_inAnyCase named,
      Except.mapError, settingOf]
  | ipId policy =>
    have named : InAnyCase policy.name text := shown
    simp only [Setting.flag, Flag.read, readIdPolicy, IdPolicy.ofName_of_inAnyCase named,
      Except.mapError, settingOf]

/-- No value but a path is shown with `-` in front. -/
theorem head?_shown {s : Setting} {text : String} (shown : s.Shown text)
    (no_dash : ∀ path, s = .out path → path.toList.head? ≠ some '-') :
    text.toList.head? ≠ some '-' := by
  -- numbers and addresses start with a digit, names with a letter; only a path may have a dash
  cases s with
  | count n | seed n =>
    obtain rfl : text = toString n.toNat := shown
    exact head?_toString n.toNat
  | mode profile => exact head?_of_inAnyCase (by cases profile <;> simp [Profile.name]) shown
  | out path =>
    obtain rfl : text = path := shown
    exact no_dash text rfl
  | baseTs second =>
    obtain rfl : text = toString second.toNat := shown
    exact head?_toString second.toNat
  | sourceIp ip | destinationIp ip =>
    obtain rfl : text = ip.text := shown
    exact ip.head?_text
  | sourcePort n | destinationPort n =>
    obtain rfl : text = toString n.toNat := shown
    exact head?_toString n.toNat
  | sourceMac mac | destinationMac mac =>
    obtain rfl : text = mac.text := shown
    exact mac.head?_text
  | checksums policy =>
    exact head?_of_inAnyCase (by cases policy <;> simp [ChecksumPolicy.name]) shown
  | ipId policy => exact head?_of_inAnyCase (by cases policy <;> simp [IdPolicy.name]) shown

/-- `Flag.defaultText` shows what `Request.default` has. -/
theorem shown_defaultText (flag : Flag) : (flag.setting .default).Shown flag.defaultText := by
  cases flag with
  | mode | checksums | ipId => exact inAnyCase_self _
  | count | seed | baseTs | sourcePort | destinationPort => rfl
  | out => rfl
  | sourceIp | destinationIp | sourceMac | destinationMac => rfl

theorem read_defaultText (flag : Flag) :
    flag.read flag.defaultText = .ok (flag.setting .default) := by
  have some_path : flag.setting .default ≠ .out "" := by
    intro no_path
    have empty : Request.default.path = "" := path_of_setting no_path
    simp [Request.default] at empty
  have read := read_shown (shown_defaultText flag) some_path
  rwa [flag_setting] at read

end CommandLine

end SwapCapture
