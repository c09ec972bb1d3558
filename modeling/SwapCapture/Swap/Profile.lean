/-
Profiles of traffic and the classes of swaps that they are made of.

A class says how a swap is meant to fare with whoever reads it, and a profile says which class the
swap at each index has.  The class is never random (`Profile.classAt`).
-/
namespace SwapCapture

inductive SwapClass where
  /-- Below the amount that a reader accepts. -/
  | small
  /-- With so little slippage that a trade in front of it makes it fail. -/
  | tight
  /-- A profitable target with generous slippage. -/
  | large
deriving DecidableEq, Repr

inductive Profile where
  | small
  | large
  | tight
  /-- Small, tight, large, large, and again from the start; `classAt` has the order. -/
  | mixed
deriving DecidableEq, Repr

structure UnknownProfile where
  text : String
deriving DecidableEq, Repr

def UnknownProfile.message (e : UnknownProfile) : String :=
  s!"unknown profile '{e.text}' (expected small, large, tight or mixed)"

def SwapClass.name : SwapClass → String
  | .small => "small"
  | .tight => "tight"
  | .large => "large"

namespace Profile

/-- The class of the swap at `index`. -/
def classAt (profile : Profile) (index : UInt64) : SwapClass :=
  match profile with
  | .small => .small
  | .large => .large
  | .tight => .tight
  | .mixed =>
    if index % 4 = 0 then .small
    else if index % 4 = 1 then .tight
    else .large

def name : Profile → String
  | .small => "small"
  | .large => "large"
  | .tight => "tight"
  | .mixed => "mixed"

/-- The profile that `text` names, with ASCII letters in either case. -/
def ofName (text : String) : Except UnknownProfile Profile :=
  let key := text.toLower
  if key = "small" then .ok .small
  else if key = "large" then .ok .large
  else if key = "tight" then .ok .tight
  else if key = "mixed" then .ok .mixed
  else .error ⟨text⟩

end Profile

end SwapCapture
