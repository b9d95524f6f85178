import TwoWay.Grammar.Basic

/-!
Formats seen through prisms. A prism that is lifted onto pairs of a value and a leftover acts on the
value alone, and lifting keeps composition and the identity. So a format seen through one prism and
then another is the format seen through their composition, for readings and for writings, and
seeing it through the identity changes nothing.
-/

namespace TwoWay

variable {α β γ : Type}

namespace Prism

variable {κ : Type}

theorem preview_onFirst_compose (outer : Prism α β) (inner : Prism β γ) (found : α × κ) :
    (outer.compose inner).onFirst.preview found =
      (outer.onFirst.preview found).bind inner.onFirst.preview := by
  obtain ⟨x, carried⟩ := found
  rw [preview_onFirst, preview_onFirst, preview_compose]
  cases outer.preview x with
  | none => rfl
  | some y => exact (preview_onFirst inner y carried).symm

theorem preview_onFirst_identity (found : α × κ) :
    (ofIso .identity : Prism α α).onFirst.preview found = some found := by
  rw [preview_onFirst]
  rfl

end Prism

namespace Grammar

variable {σ ε : Type} [Sequence σ ε] {ρ : Type → Type} (m : Meaning ρ σ) (g : Grammar ε ρ α)

/-- What the inner format reads is previewed, and what it leaves behind is left behind. -/
theorem read_adapt_eq_bind (p : Prism α β) (s : σ) :
    (adapt p g).read m s =
      (g.read m s).bind fun (x, rest) =>
        (Outcome.ofOption (p.preview x)).map fun y => (y, rest) := by
  rw [read_adapt]
  congr 1
  funext found
  rw [Prism.preview_onFirst, Outcome.ofOption_map]

theorem read_adapt_adapt (p : Prism α β) (q : Prism β γ) :
    (adapt q (adapt p g)).read m = (adapt (p.compose q) g).read m := by
  funext s
  rw [read_adapt, read_adapt, read_adapt, Outcome.bind_assoc]
  congr 1
  funext found
  rw [Prism.preview_onFirst_compose, Outcome.ofOption_bind]

theorem write_adapt_adapt (p : Prism α β) (q : Prism β γ) :
    (adapt q (adapt p g)).write m = (adapt (p.compose q) g).write m := by
  funext z rest
  rw [write_adapt, write_adapt, write_adapt, Prism.review_compose]

theorem read_adapt_identity : (adapt (.ofIso .identity) g).read m = g.read m := by
  funext s
  rw [read_adapt]
  simp only [Prism.preview_onFirst_identity]
  exact Outcome.bind_done _

theorem write_adapt_identity : (adapt (.ofIso .identity) g).write m = g.write m := by
  funext x rest
  rw [write_adapt]
  rfl

/-- A prism acts on the values of a format and never on what is left behind or written in front of.
Two prisms, one after the other, act as their composition, and the identity does not act at all. -/
theorem adapt_is_functorial (p : Prism α β) (q : Prism β γ) :
    (∀ s, (adapt p g).read m s =
      (g.read m s).bind fun (x, rest) =>
        (Outcome.ofOption (p.preview x)).map fun y => (y, rest)) ∧
    (∀ y rest, (adapt p g).write m y rest = g.write m (p.review y) rest) ∧
    (adapt q (adapt p g)).read m = (adapt (p.compose q) g).read m ∧
    (adapt q (adapt p g)).write m = (adapt (p.compose q) g).write m ∧
    (adapt (.ofIso .identity) g).read m = g.read m ∧
    (adapt (.ofIso .identity) g).write m = g.write m :=
  ⟨read_adapt_eq_bind m g p, fun _ _ => write_adapt, read_adapt_adapt m g p q,
    write_adapt_adapt m g p q, read_adapt_identity m g, write_adapt_identity m g⟩

end Grammar
end TwoWay
