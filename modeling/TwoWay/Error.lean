/-!
The three causes for which a run fails.
-/

namespace TwoWay

inductive Error where
  /-- The input has no part that the grammar reads. -/
  | noMatch
  /-- Some part of the value has no written form. -/
  | cannotBuild
  /-- What a checked grammar wrote does not read back as the same driver and value. -/
  | inconsistentDriver
  deriving DecidableEq, Hashable

namespace Error

def message : Error → String
  | noMatch => "input does not match the grammar"
  | cannotBuild => "value cannot be printed by the grammar"
  | inconsistentDriver =>
    "bind driver recovered while printing does not reproduce the printed value"

end Error
end TwoWay
