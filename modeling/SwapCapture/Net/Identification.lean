/-
The identification field of IPv4 headers.

`IdPolicy.next` is never zero: a random identification is uniform in `1..65535`, and a sequential
one goes round the same numbers by the index of the frame, without reading from the stream.
-/
import SwapCapture.Random.Uniform

namespace SwapCapture

inductive IdPolicy where
  | random
  | sequential
deriving DecidableEq, Repr

namespace IdPolicy

/-- A text that names no policy; the ASCII letters of `key` are small. -/
structure Unknown where
  key : String
deriving DecidableEq, Repr

def Unknown.message (e : Unknown) : String :=
  s!"unknown ip-id policy '{e.key}' (expected random or sequential)"

/-- The policy that `text` names, with ASCII letters in either case. -/
def ofName (text : String) : Except Unknown IdPolicy :=
  let key := text.toLower
  if key = "random" then .ok .random
  else if key = "sequential" then .ok .sequential
  else .error ⟨key⟩

/-- The identification of the frame at `index`. -/
def next (policy : IdPolicy) (index : UInt64) : Draw UInt16 :=
  match policy with
  | .random => UInt16.ofNat <$> Uniform.narrow 1 65535
  | .sequential => pure ((index % 65535).toUInt16 + 1)

end IdPolicy

end SwapCapture
