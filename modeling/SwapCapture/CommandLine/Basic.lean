/-
The options of the command line, their values and what they set.

* `Flag` — the options that take a value;
* `Request` — a plan and the path of its capture;
* `Flag.read` — a text as the value of an option;
* `Setting.apply` — the request after an option has been given a value;
* `UsageError` — why a command line is refused;
* `UsageError.text` — the words for that, and `UsageError.headline`, their first line.
-/
import SwapCapture.Plan.Basic
import SwapCapture.Text.Integer
import SwapCapture.Text.Lines
import SwapCapture.Text.Terminal

namespace SwapCapture.CommandLine

inductive Flag where
  | count
  | mode
  | out
  | seed
  | baseTs
  | sourceIp
  | destinationIp
  | sourcePort
  | destinationPort
  | sourceMac
  | destinationMac
  | checksums
  | ipId
deriving DecidableEq, Repr

namespace Flag

/-- All options, in the order in which `Progress.fill` asks the environment for them. -/
def all : List Flag :=
  [.count, .mode, .out, .seed, .baseTs, .sourceIp, .destinationIp, .sourcePort, .destinationPort,
    .sourceMac, .destinationMac, .checksums, .ipId]

/-- The name of an option, which `--` is written in front of. -/
def name : Flag → String
  | .count => "count"
  | .mode => "mode"
  | .out => "out"
  | .seed => "seed"
  | .baseTs => "base-ts"
  | .sourceIp => "src-ip"
  | .destinationIp => "dst-ip"
  | .sourcePort => "src-port"
  | .destinationPort => "dst-port"
  | .sourceMac => "src-mac"
  | .destinationMac => "dst-mac"
  | .checksums => "checksums"
  | .ipId => "ip-id"

def ofName? (text : String) : Option Flag := all.find? fun flag => flag.name == text

/-- An option and its value, as they are shown: `--base-ts <BASE_TS>`. -/
def usage (flag : Flag) : String :=
  let value := flag.name.map fun c => if c = '-' then '_' else c.toUpper
  s!"--{flag.name} <{value}>"

/-- The variable of the environment that stands in for an option, where there is one: the options of
the wires and of the clock have none. -/
def environmentName? : Flag → Option String
  | .count => some "SWAP_COUNT"
  | .mode => some "SWAP_MODE"
  | .out => some "SWAP_OUT"
  | .seed => some "SWAP_SEED"
  | _ => none

def inEnvironment? (environment : String → Option String) (flag : Flag) : Option String :=
  flag.environmentName?.bind environment

/-- The text that `Flag.read` takes for an option if there is none for it elsewhere. -/
def defaultText : Flag → String
  | .count => "100"
  | .mode => "mixed"
  | .out => "traffic/mock_tx.pcap"
  | .seed => "42"
  | .baseTs => toString Timestamp.defaultBase.toNat
  | .sourceIp => "192.168.69.1"
  | .destinationIp => "192.168.69.2"
  | .sourcePort => "54321"
  | .destinationPort => "8080"
  | .sourceMac => "00:11:22:33:44:55"
  | .destinationMac => "02:00:00:00:00:01"
  | .checksums => "zero"
  | .ipId => "random"

end Flag

inductive Switch where
  | help
  | version
deriving DecidableEq, Repr

namespace Switch

/-- The name of a switch, which `--` is written in front of. -/
def name : Switch → String
  | .help => "help"
  | .version => "version"

def ofName? (text : String) : Option Switch :=
  if text = "help" then some .help
  else if text = "version" then some .version
  else none

/-- The switch of a letter, which `-` is written in front of. -/
def ofLetter? (c : Char) : Option Switch :=
  if c = 'h' then some .help
  else if c = 'V' then some .version
  else none

end Switch

/-- What is wrong with the text that `Flag.read` was given. -/
inductive ValueFault where
  | integer (fault : Text.IntegerFault)
  | range (value : Int) (limit : Nat)
  | ipv4
  | mac (fault : InvalidMacAddress)
  | profile (fault : UnknownProfile)
  | checksums (fault : ChecksumPolicy.Unknown)
  | identification (fault : IdPolicy.Unknown)
deriving DecidableEq, Repr

def ValueFault.message : ValueFault → String
  | .integer fault => fault.message
  | .range value limit => s!"{value} is not in 0..={limit}"
  | .ipv4 => "invalid IPv4 address syntax"
  | .mac fault => fault.message
  | .profile fault => fault.message
  | .checksums fault => fault.message
  | .identification fault => fault.message

inductive UsageError where
  | invalidValue (flag : Flag) (text : String) (fault : ValueFault)
  | missingValue (flag : Flag)
  | repeated (flag : Flag)
  | unexpected (argument : String)
  | unwantedValue (switch : Switch) (text : String)
  /-- The user asked for something else than a run: `--help` or `--version`. -/
  | asked (switch : Switch)
deriving DecidableEq, Repr

namespace UsageError

open Terminal (emphasize)

/-- What went wrong, with `emphasize` on what the command line said and on what it concerns.  The
words for a `ValueFault` are not emphasized, even where they repeat a value.  A switch that was
asked for is no error. -/
def cause : UsageError → String
  | .invalidValue flag text fault =>
    "invalid value '" ++ emphasize text ++ "' for '" ++ emphasize flag.usage ++ "': "
      ++ fault.message
  | .missingValue flag =>
    "a value is required for '" ++ emphasize flag.usage ++ "' but none was supplied"
  | .repeated flag => "the argument '" ++ emphasize flag.usage ++ "' cannot be used multiple times"
  | .unexpected argument => "unexpected argument '" ++ emphasize argument ++ "' found"
  | .unwantedValue switch text =>
    "unexpected value '" ++ emphasize text ++ "' for '" ++ emphasize s!"--{switch.name}"
      ++ "' found; no more were expected"
  | .asked _ => ""

def styled (e : UsageError) : String :=
  emphasize "error:" ++ " " ++ e.cause ++ "\n\nFor more information, try '" ++ emphasize "--help"
    ++ "'.\n"

/-- All words for an error, as a terminal shows them.  The user's own words are in `styled` as they
were given, so control sequences in those have their effect on what follows. -/
def text (e : UsageError) : String := Terminal.plain e.styled

def headline (e : UsageError) : String := (Text.lines e.text).headD ""

/-- The status that a program with this command line ends with; a `switch` that was asked for is no
failure. -/
def exitCode : UsageError → Nat
  | .asked _ => 0
  | _ => 2

end UsageError

structure Request where
  plan : Plan
  path : String
deriving DecidableEq, Repr

/-- The request of `Flag.defaultText` for every option. -/
def Request.default : Request := ⟨.default, "traffic/mock_tx.pcap"⟩

/-- A number of 64 bits without a sign. -/
def readWord64 (text : String) : Except ValueFault UInt64 :=
  match Text.readUnsigned (UInt64.size - 1) text.toList with
  | .ok n => .ok (.ofNat n)
  | .error fault => .error (.integer fault)

/-- A number from zero to `limit`, which is read as a number of 64 bits with a sign. -/
def numberUpTo (limit : Nat) (text : String) : Except ValueFault Nat :=
  match Text.readSigned (UInt64.size / 2 - 1) text.toList with
  | .ok n => if 0 ≤ n ∧ n ≤ limit then .ok n.toNat else .error (.range n limit)
  | .error fault => .error (.integer fault)

def readSecond (text : String) : Except ValueFault UInt32 :=
  UInt32.ofNat <$> numberUpTo 4294967295 text

def readWord16 (text : String) : Except ValueFault UInt16 :=
  UInt16.ofNat <$> numberUpTo 65535 text

def readIpv4 (text : String) : Except ValueFault Ipv4Address :=
  match Ipv4Address.ofText? text with
  | some ip => .ok ip
  | none => .error .ipv4

def readMac (text : String) : Except ValueFault MacAddress :=
  (MacAddress.ofText text).mapError .mac

def readProfile (text : String) : Except ValueFault Profile :=
  (Profile.ofName text).mapError .profile

def readChecksums (text : String) : Except ValueFault ChecksumPolicy :=
  (ChecksumPolicy.ofName text).mapError .checksums

def readIdPolicy (text : String) : Except ValueFault IdPolicy :=
  (IdPolicy.ofName text).mapError .identification

inductive Setting where
  | count (n : UInt64)
  | mode (profile : Profile)
  | out (path : String)
  | seed (n : UInt64)
  | baseTs (second : UInt32)
  | sourceIp (ip : Ipv4Address)
  | destinationIp (ip : Ipv4Address)
  | sourcePort (n : UInt16)
  | destinationPort (n : UInt16)
  | sourceMac (mac : MacAddress)
  | destinationMac (mac : MacAddress)
  | checksums (policy : ChecksumPolicy)
  | ipId (policy : IdPolicy)
deriving DecidableEq, Repr

def Setting.apply (request : Request) : Setting → Request
  | .count n => { request with plan.count := n }
  | .mode profile => { request with plan.profile := profile }
  | .out path => { request with path }
  | .seed n => { request with plan.seed := n }
  | .baseTs second => { request with plan.base := second }
  | .sourceIp ip => { request with plan.ends.sourceIp := ip }
  | .destinationIp ip => { request with plan.ends.destinationIp := ip }
  | .sourcePort n => { request with plan.ends.sourcePort := n }
  | .destinationPort n => { request with plan.ends.destinationPort := n }
  | .sourceMac mac => { request with plan.ends.sourceMac := mac }
  | .destinationMac mac => { request with plan.ends.destinationMac := mac }
  | .checksums policy => { request with plan.checksums := policy }
  | .ipId policy => { request with plan.identification := policy }

/-- The setting of a value that has been read, or the fault of `text` as a value of `flag`. -/
def settingOf {α : Type} (flag : Flag) (text : String) (make : α → Setting) :
    Except ValueFault α → Except UsageError Setting
  | .ok value => .ok (make value)
  | .error fault => .error (.invalidValue flag text fault)

/-- The setting that `flag` and `text` make.  An empty path counts as no value. -/
def Flag.read (flag : Flag) (text : String) : Except UsageError Setting :=
  match flag with
  | .count => settingOf flag text .count (readWord64 text)
  | .mode => settingOf flag text .mode (readProfile text)
  | .out => if text.isEmpty then .error (.missingValue flag) else .ok (.out text)
  | .seed => settingOf flag text .seed (readWord64 text)
  | .baseTs => settingOf flag text .baseTs (readSecond text)
  | .sourceIp => settingOf flag text .sourceIp (readIpv4 text)
  | .destinationIp => settingOf flag text .destinationIp (readIpv4 text)
  | .sourcePort => settingOf flag text .sourcePort (readWord16 text)
  | .destinationPort => settingOf flag text .destinationPort (readWord16 text)
  | .sourceMac => settingOf flag text .sourceMac (readMac text)
  | .destinationMac => settingOf flag text .destinationMac (readMac text)
  | .checksums => settingOf flag text .checksums (readChecksums text)
  | .ipId => settingOf flag text .ipId (readIdPolicy text)

end SwapCapture.CommandLine
