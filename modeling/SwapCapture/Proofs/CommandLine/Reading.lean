/-
Arguments that give each of some options once, and what is read from them.

The value of an option may stand behind an equals sign or in the next argument.  In the second case
the reader has not looked at it when it comes to the option after it, so what is known between two
options is said of the state that it is about to have (`Settles`):

* `Writes` — the arguments that give some options the values of a request, in this order;
* `take_joined`, `take_apart` — one option, in either form;
* `Progress.value?` — what an option has been given;
* `exists_read` — all arguments: each option of the list has its value, and no other has changed.
-/
import Mathlib.Data.List.TakeWhile
import SwapCapture.CommandLine.Parse
import SwapCapture.Proofs.CommandLine.Values

namespace SwapCapture.CommandLine

/-! ### Arguments -/

/-- The ways to write an option and its value: in one argument and in two. -/
def Flag.forms (flag : Flag) (text : String) : List (List String) :=
  [["--" ++ flag.name ++ "=" ++ text], ["--" ++ flag.name, text]]

/-- The arguments give the options of a list their values in `given`, one after the other. -/
inductive Writes (given : Request) : List Flag → List String → Prop where
  | nil : Writes given [] []
  | cons {flag : Flag} {flags : List Flag} {text : String} {words arguments : List String}
      (shown : (flag.setting given).Shown text) (form : words ∈ flag.forms text)
      (rest : Writes given flags arguments) : Writes given (flag :: flags) (words ++ arguments)

theorem ne_of_not_mem {name : List Char} (h : '=' ∉ name) : ∀ c ∈ name, (c != '=') = true := by
  intro c mem
  rw [bne_iff_ne]
  rintro rfl
  exact h mem

/-- A name has no `=` in it, so all of it stands in front of the first one. -/
theorem splitValue_append {name : List Char} (h : '=' ∉ name) (value : List Char) :
    Progress.splitValue (name ++ '=' :: value)
      = (String.ofList name, some (String.ofList value)) := by
  simp only [Progress.splitValue]
  rw [List.takeWhile_append_of_pos (ne_of_not_mem h),
    List.dropWhile_append_of_pos (ne_of_not_mem h)]
  simp

theorem splitValue_of_not_mem {name : List Char} (h : '=' ∉ name) :
    Progress.splitValue name = (String.ofList name, none) := by
  have front := List.takeWhile_eq_self_iff.mpr (ne_of_not_mem h)
  have behind := List.dropWhile_eq_nil_iff.mpr (ne_of_not_mem h)
  simp only [Progress.splitValue, front, behind]

theorem Flag.ofName?_name (flag : Flag) : ofName? flag.name = some flag := by
  cases flag <;> rfl

theorem Flag.toList_name (flag : Flag) :
    (∃ c rest, flag.name.toList = c :: rest) ∧ '=' ∉ flag.name.toList := by
  cases flag <;> exact ⟨⟨_, _, rfl⟩, by decide⟩

namespace Progress

variable {p q : Progress}

/-- An argument that starts with `--` and goes on. -/
theorem take_long {argument : String} {c : Char} {rest : List Char} (running : p.ended = false)
    (dashes : argument.toList = '-' :: '-' :: c :: rest) :
    p.take argument = p.takeLong (splitValue (c :: rest)).1 (splitValue (c :: rest)).2 := by
  simp [take, running, dashes]

/-- An argument that does not start with `-`. -/
theorem take_plain {argument : String} (running : p.ended = false)
    (no_dash : argument.toList.head? ≠ some '-') : p.take argument = p.takePlain argument := by
  unfold take
  rw [running]
  simp only [Bool.false_eq_true, if_false]
  split
  · simp_all
  · simp_all
  · simp_all
  · rfl

/-! ### One option -/

def set (q : Progress) (s : Setting) : Progress :=
  { q with request := s.apply q.request, given := s.flag :: q.given }

def awaiting (q : Progress) (flag : Flag) (text : Option String) : Progress :=
  { q with opened := some (flag, text) }

/-- `q` is what `p` is about to become: the option read last has its value, and the next argument
may be an option. -/
structure Settles (p q : Progress) : Prop where
  settled : p.settle = .ok q
  running : p.ended = false
  closed : q.opened = none
  still_running : q.ended = false

theorem settles_self (closed : q.opened = none) (running : q.ended = false) : Settles q q where
  settled := by rw [settle, closed]
  running := running
  closed := closed
  still_running := running

section step

variable {flag : Flag} {text : String} {s : Setting}

theorem assign_of_read (read : flag.read text = .ok s) : q.assign flag text = .ok (q.set s) := by
  rw [assign, read, set, flag_of_read read]

theorem give_of_read (fresh : flag ∉ q.given) (read : flag.read text = .ok s) :
    q.give flag text = .ok (q.set s) := by
  rw [give, if_neg fresh, assign_of_read read]

theorem takeLong_some (h : p.settle = .ok q) (text : String) :
    p.takeLong flag.name (some text) = q.give flag text := by
  simp only [takeLong, flag.ofName?_name, h]
  rfl

theorem takeLong_none (h : p.settle = .ok q) :
    p.takeLong flag.name none = .ok (q.awaiting flag none) := by
  simp only [takeLong, flag.ofName?_name, h]
  rfl

theorem take_joined (h : Settles p q) (fresh : flag ∉ q.given) (read : flag.read text = .ok s) :
    ∃ p', p.take ("--" ++ flag.name ++ "=" ++ text) = .ok p' ∧ Settles p' (q.set s) := by
  obtain ⟨⟨c, rest, name⟩, no_equals⟩ := flag.toList_name
  have dashes : ("--" ++ flag.name ++ "=" ++ text).toList
      = '-' :: '-' :: c :: (rest ++ '=' :: text.toList) := by
    simp [name]
  have parts : splitValue (c :: (rest ++ '=' :: text.toList)) = (flag.name, some text) := by
    rw [← List.cons_append, ← name, splitValue_append no_equals, String.ofList_toList,
      String.ofList_toList]
  refine ⟨q.set s, ?_, settles_self h.closed h.still_running⟩
  rw [take_long h.running dashes, parts, takeLong_some h.settled, give_of_read fresh read]

theorem take_apart (h : Settles p q) (fresh : flag ∉ q.given) (read : flag.read text = .ok s)
    (no_dash : text.toList.head? ≠ some '-') :
    ∃ p', ["--" ++ flag.name, text].foldlM take p = .ok p' ∧ Settles p' (q.set s) := by
  obtain ⟨⟨c, rest, name⟩, no_equals⟩ := flag.toList_name
  have dashes : ("--" ++ flag.name).toList = '-' :: '-' :: c :: rest := by
    simp [name]
  have parts : splitValue (c :: rest) = (flag.name, none) := by
    rw [← name, splitValue_of_not_mem no_equals, String.ofList_toList]
  have opened : p.take ("--" ++ flag.name) = .ok (q.awaiting flag none) := by
    rw [take_long h.running dashes, parts, takeLong_none h.settled]
  have valued : (q.awaiting flag none).take text = .ok (q.awaiting flag (some text)) := by
    have running : (q.awaiting flag none).ended = false := h.still_running
    rw [take_plain running no_dash]
    rfl
  -- the value is looked at now, in the state that had no option open
  have settled : (q.awaiting flag (some text)).settle = .ok (q.set s) := by
    have closed_again : { q.awaiting flag (some text) with opened := none } = q := by
      rw [awaiting, ← h.closed]
    show Progress.give { q.awaiting flag (some text) with opened := none } flag text = _
    rw [closed_again, give_of_read fresh read]
  refine ⟨q.awaiting flag (some text), ?_, ⟨settled, h.still_running, h.closed, h.still_running⟩⟩
  simp only [List.foldlM_cons, List.foldlM_nil, opened, bind, Except.bind, valued]
  rfl

theorem take_form {words : List String} (form : words ∈ flag.forms text) (h : Settles p q)
    (fresh : flag ∉ q.given) (read : flag.read text = .ok s)
    (no_dash : text.toList.head? ≠ some '-') :
    ∃ p', words.foldlM take p = .ok p' ∧ Settles p' (q.set s) := by
  simp only [Flag.forms, List.mem_cons, List.not_mem_nil, or_false] at form
  rcases form with rfl | rfl
  · simpa using take_joined h fresh read
  · exact take_apart h fresh read no_dash

end step

/-! ### All options -/

/-- What `flag` has been given, if it has been given anything. -/
def value? (p : Progress) (flag : Flag) : Option Setting :=
  if flag ∈ p.given then some (flag.setting p.request) else none

theorem value?_set (q : Progress) (s : Setting) (flag : Flag) :
    (q.set s).value? flag = if flag = s.flag then some s else q.value? flag := by
  simp only [value?, set, List.mem_cons, setting_apply]
  by_cases same : flag = s.flag
  · simp [same]
  · simp [same]

theorem value?_eq_none_iff {flag : Flag} : p.value? flag = none ↔ flag ∉ p.given := by
  simp [value?]

theorem setting_of_value? {flag : Flag} {s : Setting} (h : p.value? flag = some s) :
    flag.setting p.request = s := by
  simp only [value?] at h
  split at h
  · exact Option.some.inj h
  · cases h

/-- The options have their values one after the other.  Each is read in the state that those before
it leave behind, in which it has none yet. -/
theorem exists_read {given : Request} {flags : List Flag} {arguments : List String}
    (some_path : given.path ≠ "") (no_dash : given.path.toList.head? ≠ some '-')
    (writes : Writes given flags arguments) (distinct : flags.Nodup)
    (fresh : ∀ flag ∈ flags, flag ∉ q.given) (h : Settles p q) :
    ∃ p' q', arguments.foldlM take p = .ok p' ∧ Settles p' q' ∧
      ∀ flag, q'.value? flag =
        if flag ∈ flags then some (flag.setting given) else q.value? flag := by
  induction writes generalizing p q with
  | nil => exact ⟨p, q, rfl, h, by simp⟩
  | @cons flag flags text words arguments shown form rest ih =>
    rw [List.nodup_cons] at distinct
    have read : flag.read text = .ok (flag.setting given) := by
      have read := read_shown shown fun no_path => some_path (path_of_setting no_path)
      rwa [flag_setting] at read
    have text_no_dash : text.toList.head? ≠ some '-' := by
      refine head?_shown shown ?_
      intro path out
      rwa [← path_of_setting out]
    obtain ⟨p₁, taken, settles⟩ :=
      take_form form h (fresh flag List.mem_cons_self) read text_no_dash
    -- no option is given twice, so those to come are still without a value
    have fresh' : ∀ other ∈ flags, other ∉ (q.set (flag.setting given)).given := by
      intro other mem
      have differs : other ≠ flag := by
        rintro rfl
        exact distinct.1 mem
      simp [set, differs, fresh other (List.mem_cons_of_mem _ mem)]
    obtain ⟨p', q', all_taken, settles', values⟩ := ih distinct.2 fresh' settles
    refine ⟨p', q', ?_, settles', ?_⟩
    · rw [List.foldlM_append, taken]
      exact all_taken
    · intro other
      rw [values, value?_set, flag_setting]
      by_cases same : other = flag
      · simp [same, distinct.1]
      · simp [same]

end Progress

end SwapCapture.CommandLine
