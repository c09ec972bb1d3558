/-
Reading a command line from left to right.

An option takes its value behind an equals sign or from the next argument.  In the second case the
option stays open, and its value is looked at only when the next option or switch that is known
comes, or at the end; an argument that is not known is reported before that.  Two dashes alone end
the options, and since nothing else is expected, whatever follows them is refused.

* `Progress` — the state between two arguments;
* `Progress.take` — one more argument;
* `parse` — a whole command line and the environment, which is asked for absent options only; what is
  found in neither has its default.
-/
import SwapCapture.CommandLine.Basic

namespace SwapCapture.CommandLine

/-- A command line in the course of being read: the `request` so far and what is left to be settled.
-/
structure Progress where
  request : Request
  /-- The options that have their values already. -/
  given : List Flag
  /-- The option read last, as long as `settle` has not looked at its value, and the value if there
  has been one. -/
  opened : Option (Flag × Option String)
  /-- Whether `--` has ended the options. -/
  ended : Bool

namespace Progress

def start : Progress := ⟨.default, [], none, false⟩

def assign (p : Progress) (flag : Flag) (text : String) : Except UsageError Progress :=
  match flag.read text with
  | .error e => .error e
  | .ok setting => .ok { p with request := setting.apply p.request, given := flag :: p.given }

/-- The same as `assign` for an option on the command line, where it may happen once. -/
def give (p : Progress) (flag : Flag) (text : String) : Except UsageError Progress :=
  if flag ∈ p.given then .error (.repeated flag) else p.assign flag text

/-- The `opened` option, if there is one, is given its value. -/
def settle (p : Progress) : Except UsageError Progress :=
  match p.opened with
  | none => .ok p
  | some (flag, none) => .error (.missingValue flag)
  | some (flag, some text) => { p with opened := none }.give flag text

/-- The option that takes the next argument as its value. -/
def awaiting? (p : Progress) : Option Flag :=
  match p.opened with
  | some (flag, none) => some flag
  | _ => none

/-- A switch on the command line.  Everything before it is settled first, so that an error there
wins. -/
def ask {α : Type} (p : Progress) (switch : Switch) : Except UsageError α :=
  match p.settle with
  | .error e => .error e
  | .ok _ => .error (.asked switch)

/-- An argument of `--`, a name and perhaps `=` and a value. -/
def takeLong (p : Progress) (name : String) (value : Option String) :
    Except UsageError Progress :=
  match Flag.ofName? name, value with
  | some flag, some text => do
    let p ← p.settle
    p.give flag text
  | some flag, none => do
    let p ← p.settle
    pure { p with opened := some (flag, none) }
  | none, _ =>
    match Switch.ofName? name, value with
    | some switch, none => p.ask switch
    -- what is refused outright is refused before the open option is looked at
    | some switch, some text => .error (.unwantedValue switch text)
    | none, _ => .error (.unexpected s!"--{name}")

/-- An argument of `-` and some letters.  No letter but those of the switches is known, and the
first letter decides. -/
def takeShort (p : Progress) (letter : Char) : Except UsageError Progress :=
  match Switch.ofLetter? letter with
  | some switch => p.ask switch
  | none => .error (.unexpected s!"-{letter}")

/-- An argument without a dash in front, or a dash alone: the value that `awaiting?` stands for, or
nothing that is known. -/
def takePlain (p : Progress) (argument : String) : Except UsageError Progress :=
  match p.awaiting? with
  | some flag => .ok { p with opened := some (flag, some argument) }
  | none => .error (.unexpected argument)

/-- A name and the value behind the first `=`. -/
def splitValue (text : List Char) : String × Option String :=
  let name := String.ofList (text.takeWhile fun c => c != '=')
  match text.dropWhile fun c => c != '=' with
  | [] => (name, none)
  | _ :: value => (name, some (String.ofList value))

def take (p : Progress) (argument : String) : Except UsageError Progress :=
  if p.ended then .error (.unexpected argument)
  else
    match argument.toList with
    | ['-', '-'] => .ok { p with ended := true }
    | '-' :: '-' :: text => let (name, value) := splitValue text; p.takeLong name value
    | '-' :: letter :: _ => p.takeShort letter
    | _ => p.takePlain argument

/-- An option that is not among `given` takes the text that `source` has for it, if there is one. -/
def fill (source : Flag → Option String) (p : Progress) (flag : Flag) :
    Except UsageError Progress :=
  if flag ∈ p.given then .ok p
  else
    match source flag with
    | none => .ok p
    | some text => p.assign flag text

end Progress

/-- The request of some arguments, without the name of the program: what they say first, what the
environment has for the rest, and `Flag.defaultText` for what is left. -/
def parse (environment : String → Option String) (arguments : List String) :
    Except UsageError Request := do
  let p ← arguments.foldlM Progress.take Progress.start
  let p ← p.settle
  let p ← Flag.all.foldlM (Progress.fill (Flag.inEnvironment? environment)) p
  let p ← Flag.all.foldlM (Progress.fill fun flag => some flag.defaultText) p
  pure p.request

end SwapCapture.CommandLine
