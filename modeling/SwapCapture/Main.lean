/-
The program: it writes a capture of synthetic swap intents, or inspects one.

    [--count N] [--mode PROFILE] [--out PATH] [--seed N] ...    writes a capture
    inspect -i PATH [--dump]                                    inspects one

Everything that is decided here is decided by `CommandLine.parse`, `Plan.run` and `Inspection.of`;
this file reads the environment and the files and prints the lines.
-/
import SwapCapture.CommandLine.Parse
import SwapCapture.Device.Bounded
import SwapCapture.Inspection.Check
import SwapCapture.Plan.Report
import SwapCapture.Plan.Run

namespace SwapCapture

def readEnvironment : IO (String → Option String) := do
  let mut found : List (String × String) := []
  for name in CommandLine.Flag.all.filterMap CommandLine.Flag.environmentName? do
    if let some value ← IO.getEnv name then found := (name, value) :: found
  let values := found
  return fun name => values.lookup name

/-- The directory that `path` lies in, or nothing for a plain name. -/
def directoryOf (path : String) : String :=
  String.ofList ((path.toList.reverse.dropWhile fun c => c != '/').reverse)

/-- Stores `capture`, with the directories it lies in. -/
def store (path : String) (capture : Bytes) : IO Unit := do
  let directory := directoryOf path
  unless directory.isEmpty do IO.FS.createDirAll directory
  IO.FS.writeBinFile path ⟨capture.toArray⟩

def helpLines : List String :=
  ["Generate swap-intent .pcap traffic for replay", "", "Options:"]
  ++ CommandLine.Flag.all.map (fun flag => s!"      {flag.usage}")
  ++ ["  -h, --help", "  -V, --version"]

/-- Answers a command line that leads to no run: help and version on the standard output, errors on
the other one. -/
def refuse (e : CommandLine.UsageError) : IO UInt32 := do
  match e with
  | .asked .help => helpLines.forM fun line => IO.println line
  | .asked .version => IO.println "0.1.0"
  | e => IO.eprint e.text
  return .ofNat e.exitCode

def generate (arguments : List String) : IO UInt32 := do
  match CommandLine.parse (← readEnvironment) arguments with
  | .error e => refuse e
  | .ok request =>
    let (outcome, device) := request.plan.run Bounded.memory
    store request.path device.contents
    match outcome with
    | .ok summary =>
      IO.print (summary.text request.path)
      return 0
    | .error fault =>
      IO.eprintln s!"Error: generating {request.path}: {fault.message}"
      return 1

def inspect (path : String) (dump : Bool) : IO UInt32 := do
  let capture ← (some <$> IO.FS.readBinFile path) <|> pure none
  let findings := Inspection.ofFile path (capture.map fun bytes => bytes.toList)
  (findings.lines dump).forM fun line => IO.println line
  match findings.verdict with
  | .ok verdict =>
    IO.eprintln verdict.text
    return 0
  | .error defect =>
    IO.eprintln s!"Error: {defect.message}"
    return 1

end SwapCapture

def main (arguments : List String) : IO UInt32 :=
  match arguments with
  | ["inspect", "-i", path] => SwapCapture.inspect path false
  | ["inspect", "-i", path, "--dump"] => SwapCapture.inspect path true
  | arguments => SwapCapture.generate arguments
