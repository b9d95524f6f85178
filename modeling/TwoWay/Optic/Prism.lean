import TwoWay.Optic.Iso
import TwoWay.Sequence.Basic

/-!
Prisms: two-way functions of which one direction may fail. Previewing looks for a value inside a
larger one, reviewing builds the larger value again. Composed prisms preview from the outside in
and review from the inside out.
-/

namespace TwoWay

/-- A two-way function whose forward direction is partial. -/
inductive Prism : Type → Type → Type 1
  | functions {α β : Type} (preview : α → Option β) (review : β → α) : Prism α β
  | ofIso {α β : Type} (iso : Iso α β) : Prism α β
  | compose {α β γ : Type} (outer : Prism α β) (inner : Prism β γ) : Prism α γ
  /-- Acts on the second part of a pair and carries the first part along. -/
  | aside {α β γ : Type} (prism : Prism α β) : Prism (γ × α) (γ × β)
  /-- A nonempty sequence is its first element and the sequence behind it. -/
  | uncons {σ ε : Type} [Sequence σ ε] : Prism σ (ε × σ)

namespace Prism

variable {α β γ : Type}

def preview : {α β : Type} → Prism α β → α → Option β
  | _, _, .functions preview _, whole => preview whole
  | _, _, .ofIso iso, whole => some (iso.get whole)
  | _, _, .compose outer inner, whole => (outer.preview whole).bind inner.preview
  | _, _, .aside prism, (kept, whole) => (prism.preview whole).map (kept, ·)
  | _, _, @uncons _ _ _, whole => Sequence.uncons whole

def review : {α β : Type} → Prism α β → β → α
  | _, _, .functions _ review, part => review part
  | _, _, .ofIso iso, part => iso.reverseGet part
  | _, _, .compose outer inner, part => outer.review (inner.review part)
  | _, _, .aside prism, (kept, part) => (kept, prism.review part)
  | _, _, @uncons _ _ _, (x, rest) => Sequence.cons x rest

def modifyOption (prism : Prism α β) (whole : α) (edit : β → β) : Option α :=
  (prism.preview whole).map fun part => prism.review (edit part)

/-- Acts on the first part of a pair: the pair is swapped, the prism acts beside the passenger,
and the pair is swapped back. -/
def onFirst (prism : Prism α β) : Prism (α × γ) (β × γ) :=
  ((ofIso .swapped).compose prism.aside).compose (ofIso .swapped)

@[simp] theorem preview_functions (f : α → Option β) (g : β → α) (x : α) :
    (functions f g).preview x = f x := rfl

@[simp] theorem review_functions (f : α → Option β) (g : β → α) (y : β) :
    (functions f g).review y = g y := rfl

@[simp] theorem preview_ofIso (iso : Iso α β) (x : α) :
    (ofIso iso).preview x = some (iso.get x) := rfl

@[simp] theorem review_ofIso (iso : Iso α β) (y : β) :
    (ofIso iso).review y = iso.reverseGet y := rfl

@[simp] theorem preview_compose (outer : Prism α β) (inner : Prism β γ) (x : α) :
    (outer.compose inner).preview x = (outer.preview x).bind inner.preview := rfl

@[simp] theorem review_compose (outer : Prism α β) (inner : Prism β γ) (z : γ) :
    (outer.compose inner).review z = outer.review (inner.review z) := rfl

@[simp] theorem preview_aside (prism : Prism α β) (c : γ) (x : α) :
    (aside prism).preview (c, x) = (prism.preview x).map (c, ·) := rfl

@[simp] theorem review_aside (prism : Prism α β) (c : γ) (y : β) :
    (aside prism).review (c, y) = (c, prism.review y) := rfl

@[simp] theorem preview_uncons {σ ε : Type} [Sequence σ ε] (s : σ) :
    (uncons (σ := σ)).preview s = Sequence.uncons s := rfl

@[simp] theorem review_uncons {σ ε : Type} [Sequence σ ε] (x : ε) (s : σ) :
    (uncons (σ := σ)).review (x, s) = Sequence.cons x s := rfl

theorem preview_onFirst (prism : Prism α β) (x : α) (c : γ) :
    prism.onFirst.preview (x, c) = (prism.preview x).map (·, c) := by
  cases h : prism.preview x <;> simp [onFirst, h]

theorem review_onFirst (prism : Prism α β) (y : β) (c : γ) :
    prism.onFirst.review (y, c) = (prism.review y, c) := rfl

end Prism
end TwoWay
