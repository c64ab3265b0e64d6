import Stylebook.Decimal.Layout
import Stylebook.Fingerprint

/-!
The options of an analysis.
-/

namespace Stylebook

inductive OptionsError where
  | cohesion (value : Float)
  | frequency
  | depth
  deriving Repr, Inhabited

def OptionsError.text : OptionsError → String
  | cohesion value =>
      "minimum_cohesion must be within [0, 1], got " ++ Decimal.messageLayout.write value
  | frequency => "minimum_frequency must be at least 1"
  | depth => "max_depth must be at least 1"

structure Options where
  minimumCohesion : Float := 0.5
  minimumFrequency : Nat := 2
  maximumDepth : Nat := 3
  deriving Repr, Inhabited

namespace Options

structure Partial where
  minimumCohesion : Option Float := none
  minimumFrequency : Option Nat := none
  maximumDepth : Option Nat := none
  deriving Repr, Inhabited

def set (options : Options) (given : Partial) : Except OptionsError Options :=
  let result : Options :=
    ⟨given.minimumCohesion.getD options.minimumCohesion,
      given.minimumFrequency.getD options.minimumFrequency,
      given.maximumDepth.getD options.maximumDepth⟩
  if !(0.0 ≤ result.minimumCohesion && result.minimumCohesion ≤ 1.0) then
    .error (.cohesion result.minimumCohesion)
  else if result.minimumFrequency = 0 then .error .frequency
  else if result.maximumDepth = 0 then .error .depth
  else .ok result

def ofPartial (given : Partial) : Except OptionsError Options := set {} given

def content (options : Options) : List UInt8 :=
  Encoding.ofText "options" ++ Encoding.ofFloat options.minimumCohesion ++
    Encoding.ofNat options.minimumFrequency ++ Encoding.ofNat options.maximumDepth

def fingerprint (options : Options) : Fingerprint := .ofContent options.content

end Options

end Stylebook
