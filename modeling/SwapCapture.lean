/-
Synthetic captures of swap intents: how they are drawn, framed, written and inspected.
-/
import SwapCapture.Main
import SwapCapture.Proofs.Bytes.Overwriting
import SwapCapture.Proofs.Bytes.Placing
import SwapCapture.Proofs.Bytes.Reading
import SwapCapture.Proofs.Bytes.Remainder
import SwapCapture.Proofs.Calendar.Civil
import SwapCapture.Proofs.Calendar.Clock
import SwapCapture.Proofs.CommandLine.Precedence
import SwapCapture.Proofs.CommandLine.Reading
import SwapCapture.Proofs.CommandLine.Values
import SwapCapture.Proofs.Device.Attempts
import SwapCapture.Proofs.Device.Pieces
import SwapCapture.Proofs.Device.Room
import SwapCapture.Proofs.Files.Growth
import SwapCapture.Proofs.Files.Replacing
import SwapCapture.Proofs.Inspection.Dump
import SwapCapture.Proofs.Inspection.Language
import SwapCapture.Proofs.Inspection.Sound
import SwapCapture.Proofs.Inspection.Truncation
import SwapCapture.Proofs.Net.Folding
import SwapCapture.Proofs.Net.Layout
import SwapCapture.Proofs.Net.MacText
import SwapCapture.Proofs.Net.OnesComplement
import SwapCapture.Proofs.Net.Reference
import SwapCapture.Proofs.Net.RoundTrip
import SwapCapture.Proofs.Net.Verification
import SwapCapture.Proofs.Pcap.Accounting
import SwapCapture.Proofs.Pcap.Calls
import SwapCapture.Proofs.Pcap.Clock
import SwapCapture.Proofs.Pcap.Image
import SwapCapture.Proofs.Pcap.Microseconds
import SwapCapture.Proofs.Pcap.Reader
import SwapCapture.Proofs.Pcap.Refusal
import SwapCapture.Proofs.Pcap.SnapLength
import SwapCapture.Proofs.Pcap.Stamping
import SwapCapture.Proofs.Pcap.Verdict
import SwapCapture.Proofs.Pcap.Writing
import SwapCapture.Proofs.Plan.Classes
import SwapCapture.Proofs.Plan.Extension
import SwapCapture.Proofs.Plan.Framing
import SwapCapture.Proofs.Plan.Limits
import SwapCapture.Proofs.Plan.Meaning
import SwapCapture.Proofs.Plan.Recognition
import SwapCapture.Proofs.Plan.ToFile
import SwapCapture.Proofs.Plan.Traffic
import SwapCapture.Proofs.Random.Bounds
import SwapCapture.Proofs.Swap.Canonical
import SwapCapture.Proofs.Swap.Decoder
import SwapCapture.Proofs.Swap.Membership
import SwapCapture.Proofs.Swap.Renumbering
import SwapCapture.Proofs.Swap.Rounding
import SwapCapture.Proofs.Text.Decimals
import SwapCapture.Proofs.Text.Integers
import SwapCapture.Proofs.Text.Numerals
import SwapCapture.Proofs.Text.Splitting
