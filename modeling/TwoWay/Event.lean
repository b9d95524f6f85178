import TwoWay.Error

/-!
What a run reports about itself: the end of each parse and print, and each output that a checked
grammar throws away.
-/

namespace TwoWay

inductive Event where
  | parsed (matched : Bool)
  | printed
  | printFailed (error : Error)
  | notReproduced
  deriving DecidableEq

namespace Event

inductive Level where
  | trace
  | debug
  deriving DecidableEq

/-- The part of a run that reports an event. -/
inductive Source where
  | runner
  | grammar
  deriving DecidableEq

def level : Event → Level
  | notReproduced => .debug
  | parsed _ | printed | printFailed _ => .trace

def source : Event → Source
  | notReproduced => .grammar
  | parsed _ | printed | printFailed _ => .runner

def message : Event → String
  | parsed _ => "parse"
  | printed => "print"
  | printFailed _ => "print failed"
  | notReproduced => "bind output does not parse back to the printed driver and value"

def details : Event → List (String × String)
  | parsed matched => [("matched", if matched then "true" else "false")]
  | printFailed error => [("error", error.message)]
  | printed | notReproduced => []

end Event
end TwoWay
