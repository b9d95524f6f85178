import TwoWay.Grammar.Basic

/-!
Whole runs of a grammar. A parse starts at the front of an input and drops what is left of it; a
print starts from the empty sequence. Each run that ends reports how it ended.
-/

namespace TwoWay
namespace Grammar

variable {σ ε : Type} [Sequence σ ε] {ρ : Type → Type} {α : Type}

/-- Reads a value from the front of an input; what follows it does not matter. -/
def parse (meaning : Meaning ρ σ) (grammar : Grammar ε ρ α) (input : σ) : Traced Unit α :=
  match grammar.read meaning input with
  | .done (x, _) => ⟨.done x, [.parsed true]⟩
  | .refused _ => ⟨.refused (), [.parsed false]⟩
  | .exhausted => ⟨.exhausted, []⟩

/-- As `parse`, with a failed match as an error. -/
def tryParse (meaning : Meaning ρ σ) (grammar : Grammar ε ρ α) (input : σ) : Traced Error α :=
  let run := grammar.parse meaning input
  match run.outcome with
  | .done x => ⟨.done x, run.events⟩
  | .refused _ => ⟨.refused .noMatch, run.events⟩
  | .exhausted => ⟨.exhausted, run.events⟩

def print (meaning : Meaning ρ σ) (grammar : Grammar ε ρ α) (value : α) : Traced Error σ :=
  let run := grammar.write meaning value Sequence.empty
  match run.outcome with
  | .done output => ⟨.done output, run.events ++ [.printed]⟩
  | .refused error => ⟨.refused error, run.events ++ [.printFailed error]⟩
  | .exhausted => ⟨.exhausted, run.events⟩

variable {meaning : Meaning ρ σ} {grammar : Grammar ε ρ α}

theorem parse_eq_done_iff {input : σ} {x : α} :
    (grammar.parse meaning input).outcome = .done x ↔
      ∃ rest, grammar.read meaning input = .done (x, rest) := by
  unfold parse
  cases grammar.read meaning input with
  | done p => simp [Prod.ext_iff]
  | refused _ | exhausted => simp

theorem parse_eq_refused_iff {input : σ} :
    (grammar.parse meaning input).outcome = .refused () ↔
      grammar.read meaning input = .refused () := by
  unfold parse
  cases grammar.read meaning input <;> simp

theorem print_eq_done_iff {x : α} {output : σ} :
    (grammar.print meaning x).outcome = .done output ↔
      (grammar.write meaning x Sequence.empty).outcome = .done output := by
  unfold print
  cases h : (grammar.write meaning x Sequence.empty).outcome <;> simp [h]

theorem print_eq_refused_iff {x : α} {error : Error} :
    (grammar.print meaning x).outcome = .refused error ↔
      (grammar.write meaning x Sequence.empty).outcome = .refused error := by
  unfold print
  cases h : (grammar.write meaning x Sequence.empty).outcome <;> simp [h]

end Grammar
end TwoWay
