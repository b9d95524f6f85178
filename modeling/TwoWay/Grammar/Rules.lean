import TwoWay.Grammar.Basic

/-!
Recursive formats. A table gives each rule a grammar that may call rules again; the meaning of the
table at a depth runs a rule's grammar with the meaning one level below, and at depth zero the
supply of calls is exhausted. A run that ends at some depth ends in the same way at every greater
one, so a depth is only a bound on how far a run is followed.
-/

namespace TwoWay
namespace Grammar

structure Rules (ε : Type) (ρ : Type → Type) : Type 1 where
  definition : {α : Type} → ρ α → Grammar ε ρ α

namespace Rules

variable {σ ε : Type} [Sequence σ ε] {ρ : Type → Type}

/-- What the rules mean when at most `depth` calls are open at a time. -/
def meaning (rules : Rules ε ρ) : (depth : Nat) → Meaning ρ σ
  | 0 => { read := fun _ _ => .exhausted, write := fun _ _ _ => ⟨.exhausted, []⟩ }
  | depth + 1 =>
    { read := fun rule => (rules.definition rule).read (rules.meaning depth)
      write := fun rule => (rules.definition rule).write (rules.meaning depth) }

end Rules

/-- No rules at all, for formats that are not recursive. -/
inductive NoRule : Type → Type

def NoRule.meaning {σ : Type} : Meaning NoRule σ where
  read rule := nomatch rule
  write rule := nomatch rule

end Grammar
end TwoWay
