import TwoWay.Grammar.Rules
import TwoWay.Grammar.Text

/-!
A dot inside any number of nested parentheses, as a recursive format for the depth of the nesting.
-/

namespace TwoWay
namespace Nesting

open Grammar

/-- A level is one deeper than the level inside it, or the dot. -/
def depth : Iso (Nat ⊕ Unit) Nat :=
  .functions
    (fun
      | .inl inner => inner + 1
      | .inr () => 0)
    (fun
      | 0 => .inr ()
      | inner + 1 => .inl inner)

inductive Rule : Type → Type
  | level : Rule Nat

def level : Grammar Char Rule Nat :=
  adapt (.ofIso depth) (choose (between (literal '(') (literal ')') (call .level)) (literal '.'))

def rules : Rules Char Rule where
  definition
    | .level => level

end Nesting
end TwoWay
