/-
Where the value of an option comes from.

An option on the command line has its value from there, and what the environment has for it is not
even looked at.  An option that is left out has its value from the environment, and one that is in
neither has its default.  So a request is a matter of which options are given and of their values: it
depends neither on their order nor on their form, nor on what the environment has for those that are
given.

* `Readable`, `readFrom` — what a source of texts has for an option;
* `fill_spec`, `exists_fill` — a source fills in what is missing, and nothing else;
* `exists_parse` — the three sources one after the other;
* `parse_determined` — every request can be asked for, in any order and any form.
-/
import SwapCapture.Proofs.CommandLine.Reading

namespace SwapCapture.CommandLine

variable {source : Flag → Option String}

/-- What `source` has for an option, if anything, is a value of it. -/
def Readable (source : Flag → Option String) (flag : Flag) : Prop :=
  ∀ text, source flag = some text → ∃ s, flag.read text = .ok s

/-- The setting that `source` has for an option. -/
def readFrom (source : Flag → Option String) (flag : Flag) : Option Setting :=
  (source flag).bind fun text => (flag.read text).toOption

theorem readFrom_of_read {flag : Flag} {text : String} {s : Setting}
    (found : source flag = some text) (read : flag.read text = .ok s) :
    readFrom source flag = some s := by
  rw [readFrom, found, Option.bind_some, read]
  rfl

theorem readFrom_of_none {flag : Flag} (absent : source flag = none) :
    readFrom source flag = none := by
  rw [readFrom, absent]
  rfl

theorem mem_all (flag : Flag) : flag ∈ Flag.all := by
  cases flag <;> decide

/-! ### Filling in -/

namespace Progress

variable {p : Progress}

/-- An option without a value takes the one that `source` has; an option with a value keeps it. -/
theorem fill_spec {flag : Flag}
    (valid : p.value? flag = none → Readable source flag) :
    ∃ p', p.fill source flag = .ok p' ∧ ∀ other, p'.value? other =
      if other = flag then (p.value? other).or (readFrom source other) else p.value? other := by
  rw [fill]
  by_cases given : flag ∈ p.given
  · -- the source is not asked, so its text may be anything
    rw [if_pos given]
    refine ⟨p, rfl, ?_⟩
    intro other
    split
    · next same =>
      subst same
      rw [value?, if_pos given, Option.some_or]
    · rfl
  · have missing : p.value? flag = none := value?_eq_none_iff.mpr given
    rw [if_neg given]
    cases found : source flag with
    | none =>
      refine ⟨p, rfl, ?_⟩
      intro other
      split
      · next same =>
        subst same
        rw [readFrom_of_none found, Option.or_none]
      · rfl
    | some text =>
      obtain ⟨s, read⟩ := valid missing text found
      refine ⟨p.set s, assign_of_read read, ?_⟩
      intro other
      rw [value?_set, flag_of_read read]
      split
      · next same =>
        subst same
        rw [missing, readFrom_of_read found read, Option.none_or]
      · rfl

theorem exists_fill (flags : List Flag)
    (valid : ∀ flag, p.value? flag = none → Readable source flag) :
    ∃ p', flags.foldlM (fill source) p = .ok p' ∧ ∀ flag, p'.value? flag =
      if flag ∈ flags then (p.value? flag).or (readFrom source flag) else p.value? flag := by
  induction flags generalizing p with
  | nil => exact ⟨p, rfl, by simp⟩
  | cons first more ih =>
    obtain ⟨p₁, filled, values₁⟩ := fill_spec (valid first)
    -- filling the first option leaves no option without a value that had one
    have valid₁ : ∀ flag, p₁.value? flag = none → Readable source flag := by
      intro flag missing
      apply valid
      rw [values₁] at missing
      split at missing
      · exact (Option.or_eq_none_iff.mp missing).1
      · exact missing
    obtain ⟨p', all_filled, values⟩ := ih valid₁
    refine ⟨p', ?_, ?_⟩
    · rw [List.foldlM_cons, filled]
      exact all_filled
    · intro flag
      rw [values, values₁]
      by_cases same : flag = first
      · simp [same, Option.or_assoc]
      · simp [same]

end Progress

/-! ### All sources -/

variable {environment : String → Option String} {given : Request} {flags : List Flag}
  {arguments : List String}

open Progress in
/-- The command line comes first, then the environment, then `Flag.defaultText`. -/
theorem exists_parse (some_path : given.path ≠ "") (no_dash : given.path.toList.head? ≠ some '-')
    (distinct : flags.Nodup) (writes : Writes given flags arguments)
    (valid : ∀ flag ∉ flags, Readable (Flag.inEnvironment? environment) flag) :
    ∃ request, parse environment arguments = .ok request ∧ ∀ flag, flag.setting request =
      if flag ∈ flags then flag.setting given
      else (readFrom (Flag.inEnvironment? environment) flag).getD (flag.setting .default) := by
  have nothing_given : ∀ flag ∈ flags, flag ∉ start.given := by
    intro flag _
    exact List.not_mem_nil
  obtain ⟨p, q, read, settles, values⟩ :=
    exists_read some_path no_dash writes distinct nothing_given (settles_self rfl rfl)
  have readable : ∀ flag, q.value? flag = none →
      Readable (Flag.inEnvironment? environment) flag := by
    intro flag missing
    refine valid flag fun mem => ?_
    rw [values, if_pos mem] at missing
    cases missing
  obtain ⟨p₁, filled₁, values₁⟩ := exists_fill Flag.all readable
  -- every option has a default, so none is left without a value
  have readable₁ : ∀ flag, p₁.value? flag = none →
      Readable (fun flag => some flag.defaultText) flag := by
    rintro flag - text ⟨⟩
    exact ⟨_, read_defaultText flag⟩
  obtain ⟨p₂, filled₂, values₂⟩ := exists_fill Flag.all readable₁
  refine ⟨p₂.request, ?_, ?_⟩
  · simp only [parse, read, settles.settled, filled₁, filled₂, bind, Except.bind, pure, Except.pure]
  · intro flag
    apply setting_of_value?
    have default : readFrom (fun flag => some flag.defaultText) flag
        = some (flag.setting .default) := readFrom_of_read rfl (read_defaultText flag)
    rw [values₂, if_pos (mem_all flag), values₁, if_pos (mem_all flag), values, default]
    split
    · rw [Option.some_or, Option.some_or]
    · cases readFrom (Flag.inEnvironment? environment) flag with
      | none => rfl
      | some s => rfl

/-- **The command line determines the request.** If it `Writes` some options once each, then the
request of `parse` has their values for these, what the environment says for others that it knows,
and `Flag.defaultText` for the rest.  The order of the options, the `Form` of each and what the
environment has for them make no difference, even where it has no value of theirs. -/
theorem parse_determined (some_path : given.path ≠ "")
    (no_dash : given.path.toList.head? ≠ some '-') (distinct : flags.Nodup)
    (writes : Writes given flags arguments)
    (valid : ∀ flag ∉ flags, Readable (Flag.inEnvironment? environment) flag) :
    (∃ request, parse environment arguments = .ok request ∧ ∀ flag : Flag,
      (flag ∈ flags → flag.setting request = flag.setting given) ∧
      (flag ∉ flags → ∀ text, flag.inEnvironment? environment = some text →
        flag.read text = .ok (flag.setting request)) ∧
      (flag ∉ flags → flag.inEnvironment? environment = none →
        flag.setting request = flag.setting .default)) ∧
    ∀ environment' flags' arguments', flags'.Perm flags → Writes given flags' arguments' →
      (∀ flag ∉ flags, flag.inEnvironment? environment' = flag.inEnvironment? environment) →
      parse environment' arguments' = parse environment arguments := by
  obtain ⟨request, parsed, settings⟩ := exists_parse some_path no_dash distinct writes valid
  constructor
  · refine ⟨request, parsed, ?_⟩
    intro flag
    have setting := settings flag
    refine ⟨?_, ?_, ?_⟩
    · intro mem
      rwa [if_pos mem] at setting
    · intro absent text found
      obtain ⟨s, read⟩ := valid flag absent text found
      rw [if_neg absent, readFrom_of_read found read, Option.getD_some] at setting
      rw [read, setting]
    · intro absent missing
      rwa [if_neg absent, readFrom_of_none missing, Option.getD_none] at setting
  · intro environment' flags' arguments' same_flags writes' same
    have valid' : ∀ flag ∉ flags', Readable (Flag.inEnvironment? environment') flag := by
      intro flag absent
      rw [same_flags.mem_iff] at absent
      rw [Readable, same flag absent]
      exact valid flag absent
    obtain ⟨request', parsed', settings'⟩ :=
      exists_parse some_path no_dash (same_flags.nodup_iff.mpr distinct) writes' valid'
    -- both requests have the same for every option, and there is nothing else in them
    have same_request : request' = request := by
      apply Request.ext_setting
      intro flag
      rw [settings, settings']
      by_cases mem : flag ∈ flags
      · rw [if_pos mem, if_pos (same_flags.mem_iff.mpr mem)]
      · rw [if_neg mem, if_neg (mem ∘ same_flags.mem_iff.mp), readFrom, readFrom, same flag mem]
    rw [parsed, parsed', same_request]

/-- An environment whose variables are no values of the options that they stand in for. -/
def unruly (name : String) : Option String :=
  if name = "SWAP_COUNT" then some "many" else if name = "SWAP_MODE" then some "huge"
  else if name = "SWAP_OUT" then some "" else if name = "SWAP_SEED" then some "-1" else none

/-- An environment whose variables are. -/
def tidy (name : String) : Option String :=
  if name = "SWAP_COUNT" then some "+7" else if name = "SWAP_MODE" then some "TIGHT"
  else if name = "SWAP_OUT" then some "env.pcap" else if name = "SWAP_SEED" then some "9" else none

/-- A request that has something special for every option. -/
def specialRequest : Request where
  plan :=
    { count := 5, profile := .tight, seed := 3, base := 4294967295
      ends :=
        { sourceMac := ⟨10, 11, 12, 13, 14, 15⟩, destinationMac := ⟨255, 254, 253, 252, 251, 250⟩
          sourceIp := ⟨10, 1, 0, 1⟩, destinationIp := ⟨10, 0, 0, 1⟩
          sourcePort := 1, destinationPort := 65535 }
      checksums := .compute, identification := .sequential }
  path := "a=b.pcap"

/-- All options in both forms, in front of variables that are no values of theirs; and one option,
with the variables for four others and the defaults for the rest. -/
theorem parse_determined_unruly :
    parse unruly ["--mode", "TiGhT", "--dst-ip=10.0.0.1", "--out", "a=b.pcap",
        "--src-ip", "10.1.0.1", "--src-port=1", "--dst-port", "65535",
        "--src-mac", "0a:0b:0c:0d:0e:0f", "--dst-mac=ff:fe:fd:fc:fb:fa", "--count", "5",
        "--seed=3", "--base-ts", "4294967295", "--checksums=COMPUTE", "--ip-id", "Sequential"]
      = .ok specialRequest ∧
    parse tidy ["--dst-ip=10.0.0.1"]
      = .ok { Request.default with
          plan.count := 7, plan.profile := .tight, plan.seed := 9, path := "env.pcap",
          plan.ends.destinationIp := ⟨10, 0, 0, 1⟩ } := by
  have shown_mode : (Flag.mode.setting specialRequest).Shown "TiGhT" := by
    show InAnyCase "tight" "TiGhT"
    simp [InAnyCase]
  have shown_destination_ip : (Flag.destinationIp.setting specialRequest).Shown "10.0.0.1" := by
    show "10.0.0.1" = Ipv4Address.text ⟨10, 0, 0, 1⟩
    decide
  have shown_source_ip : (Flag.sourceIp.setting specialRequest).Shown "10.1.0.1" := by
    show "10.1.0.1" = Ipv4Address.text ⟨10, 1, 0, 1⟩
    decide
  have shown_source_port : (Flag.sourcePort.setting specialRequest).Shown "1" := by
    show "1" = toString 1
    decide
  have shown_destination_port : (Flag.destinationPort.setting specialRequest).Shown "65535" := by
    show "65535" = toString 65535
    decide
  have shown_source_mac : (Flag.sourceMac.setting specialRequest).Shown "0a:0b:0c:0d:0e:0f" := by
    show "0a:0b:0c:0d:0e:0f" = MacAddress.text ⟨10, 11, 12, 13, 14, 15⟩
    decide
  have shown_destination_mac :
      (Flag.destinationMac.setting specialRequest).Shown "ff:fe:fd:fc:fb:fa" := by
    show "ff:fe:fd:fc:fb:fa" = MacAddress.text ⟨255, 254, 253, 252, 251, 250⟩
    decide
  have shown_count : (Flag.count.setting specialRequest).Shown "5" := by
    show "5" = toString 5
    decide
  have shown_seed : (Flag.seed.setting specialRequest).Shown "3" := by
    show "3" = toString 3
    decide
  have shown_base : (Flag.baseTs.setting specialRequest).Shown "4294967295" := by
    show "4294967295" = toString 4294967295
    decide
  have shown_checksums : (Flag.checksums.setting specialRequest).Shown "COMPUTE" := by
    show InAnyCase "compute" "COMPUTE"
    simp [InAnyCase]
  have shown_id : (Flag.ipId.setting specialRequest).Shown "Sequential" := by
    show InAnyCase "sequential" "Sequential"
    simp [InAnyCase]
  have shown_out : (Flag.out.setting specialRequest).Shown "a=b.pcap" := rfl
  let flags : List Flag :=
    [.mode, .destinationIp, .out, .sourceIp, .sourcePort, .destinationPort, .sourceMac,
      .destinationMac, .count, .seed, .baseTs, .checksums, .ipId]
  have writes_all : Writes specialRequest flags
      (["--mode", "TiGhT"] ++ (["--dst-ip=10.0.0.1"] ++ (["--out", "a=b.pcap"] ++
        (["--src-ip", "10.1.0.1"] ++ (["--src-port=1"] ++ (["--dst-port", "65535"] ++
        (["--src-mac", "0a:0b:0c:0d:0e:0f"] ++ (["--dst-mac=ff:fe:fd:fc:fb:fa"] ++
        (["--count", "5"] ++ (["--seed=3"] ++ (["--base-ts", "4294967295"] ++
        (["--checksums=COMPUTE"] ++ (["--ip-id", "Sequential"] ++ []))))))))))))) := by
    refine .cons shown_mode ?_ (.cons shown_destination_ip ?_ (.cons shown_out ?_
      (.cons shown_source_ip ?_ (.cons shown_source_port ?_ (.cons shown_destination_port ?_
      (.cons shown_source_mac ?_ (.cons shown_destination_mac ?_ (.cons shown_count ?_
      (.cons shown_seed ?_ (.cons shown_base ?_ (.cons shown_checksums ?_
      (.cons shown_id ?_ .nil))))))))))))
    all_goals simp [Flag.forms, Flag.name]
  have writes_one : Writes specialRequest [.destinationIp] (["--dst-ip=10.0.0.1"] ++ []) :=
    .cons shown_destination_ip (by simp [Flag.forms, Flag.name]) .nil
  have all_given (flag : Flag) : flag ∈ flags := by
    cases flag <;> decide
  have some_path : specialRequest.path ≠ "" := by simp [specialRequest]
  have no_dash : specialRequest.path.toList.head? ≠ some '-' := by simp [specialRequest]
  constructor
  · have valid : ∀ flag ∉ flags, Readable (Flag.inEnvironment? unruly) flag := by
      intro flag absent
      exact absurd (all_given flag) absent
    obtain ⟨⟨request, parsed, settings⟩, -⟩ :=
      parse_determined some_path no_dash (by decide) writes_all valid
    obtain rfl : request = specialRequest := by
      apply Request.ext_setting
      intro flag
      exact (settings flag).1 (all_given flag)
    exact parsed
  · have count_read : Flag.count.read "+7" = .ok (.count 7) := by decide
    have mode_read : Flag.mode.read "TIGHT" = .ok (.mode .tight) := by
      have shown : (Setting.mode .tight).Shown "TIGHT" := by
        show InAnyCase "tight" "TIGHT"
        simp [InAnyCase]
      exact read_shown shown (by simp)
    have out_read : Flag.out.read "env.pcap" = .ok (.out "env.pcap") := by decide
    have seed_read : Flag.seed.read "9" = .ok (.seed 9) := by decide
    have valid : ∀ flag ∉ [Flag.destinationIp], Readable (Flag.inEnvironment? tidy) flag := by
      intro flag absent text found
      cases flag with
      | count =>
        cases found
        exact ⟨_, count_read⟩
      | mode =>
        cases found
        exact ⟨_, mode_read⟩
      | out =>
        cases found
        exact ⟨_, out_read⟩
      | seed =>
        cases found
        exact ⟨_, seed_read⟩
      | destinationIp => simp at absent
      | _ => cases found
    obtain ⟨⟨request, parsed, settings⟩, -⟩ :=
      parse_determined some_path no_dash (by simp) writes_one valid
    rw [show ["--dst-ip=10.0.0.1"] = ["--dst-ip=10.0.0.1"] ++ [] from rfl, parsed, Except.ok.injEq]
    apply Request.ext_setting
    intro flag
    obtain ⟨given, from_environment, default⟩ := settings flag
    cases flag with
    | destinationIp => exact given (by simp)
    -- the value that is read from the environment is the one that was found for the request
    | count => exact Except.ok.inj ((from_environment (by simp) "+7" rfl).symm.trans count_read)
    | mode => exact Except.ok.inj ((from_environment (by simp) "TIGHT" rfl).symm.trans mode_read)
    | out => exact Except.ok.inj ((from_environment (by simp) "env.pcap" rfl).symm.trans out_read)
    | seed => exact Except.ok.inj ((from_environment (by simp) "9" rfl).symm.trans seed_read)
    | _ => exact default (by simp) rfl

end SwapCapture.CommandLine
