import TwoWay.Grammar.Basic

/-!
Grammars made from the basic ones by adapting their values.
-/

namespace TwoWay
namespace Grammar

variable {ε : Type} {ρ : Type → Type} {α : Type}

/-- Any one element, through the prism that takes it off. -/
def uncons : Grammar ε ρ ε := fromPrism fun _ => .uncons

def symbol [BEq ε] (expected : ε) : Grammar ε ρ ε := satisfy fun x => x == expected

/-- Reads through a grammar, forgets the value and writes a fixed one. -/
def matching (inner : Grammar ε ρ α) (value : α) : Grammar ε ρ Unit :=
  adapt (.ofIso (.forgetting value)) inner

/-- One element that is equal to a given one. It carries no value, and the given one is written. -/
def literal [BEq ε] (expected : ε) : Grammar ε ρ Unit :=
  matching (symbol expected) expected

/-- Two parts, of which the first carries the value. -/
def seqLeft (left : Grammar ε ρ α) (right : Grammar ε ρ Unit) : Grammar ε ρ α :=
  adapt (.ofIso .unitRight) (both left right)

/-- Two parts, of which the second carries the value. -/
def seqRight (left : Grammar ε ρ Unit) (right : Grammar ε ρ α) : Grammar ε ρ α :=
  adapt (.ofIso .unitLeft) (both left right)

def between (left right : Grammar ε ρ Unit) (middle : Grammar ε ρ α) : Grammar ε ρ α :=
  seqRight left (seqLeft middle right)

def opt (inner : Grammar ε ρ α) : Grammar ε ρ (Option α) :=
  adapt (.ofIso .option) (choose inner (success ()))

/-- A part that stands for a default when it is absent. No value that is equal to the default is
written. -/
def withDefault [BEq α] (default : α) (inner : Grammar ε ρ α) : Grammar ε ρ α :=
  adapt (.ofIso (.content fun x => x != default)) (choose inner (success default))

def many1 (item : Grammar ε ρ α) : Grammar ε ρ (NonEmptyList α) :=
  adapt (.ofIso .nonEmpty) (both item (many item))

end Grammar
end TwoWay
