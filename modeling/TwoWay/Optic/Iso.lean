/-!
Isos: pairs of functions that go between two types in both directions, built from functions by
reversing and composing. A lawful iso loses nothing in either direction; composing and reversing
lawful isos gives lawful isos.
-/

namespace TwoWay

inductive Iso : Type → Type → Type 1
  | functions {α β : Type} (get : α → β) (reverseGet : β → α) : Iso α β
  | swapped {α β : Type} : Iso (α × β) (β × α)
  | reverse {α β : Type} (iso : Iso α β) : Iso β α
  | compose {α β γ : Type} (outer : Iso α β) (inner : Iso β γ) : Iso α γ

namespace Iso

variable {α β : Type}

/-- Both directions at once: reversing exchanges them, composing runs them in opposite orders. -/
def directions : {α β : Type} → Iso α β → (α → β) × (β → α)
  | _, _, .functions get reverseGet => (get, reverseGet)
  | _, _, .swapped => (Prod.swap, Prod.swap)
  | _, _, .reverse iso => iso.directions.swap
  | _, _, .compose outer inner =>
    (inner.directions.1 ∘ outer.directions.1, outer.directions.2 ∘ inner.directions.2)

def get (iso : Iso α β) : α → β := iso.directions.1

def reverseGet (iso : Iso α β) : β → α := iso.directions.2

def modify (iso : Iso α β) (value : α) (edit : β → β) : α :=
  iso.reverseGet (edit (iso.get value))

def identity : Iso α α := .functions id id

@[simp] theorem get_functions (f : α → β) (g : β → α) : (functions f g).get = f := rfl
@[simp] theorem reverseGet_functions (f : α → β) (g : β → α) : (functions f g).reverseGet = g := rfl
@[simp] theorem get_swapped (p : α × β) : swapped.get p = (p.2, p.1) := rfl
@[simp] theorem reverseGet_swapped (p : α × β) : swapped.reverseGet p = (p.2, p.1) := rfl
@[simp] theorem get_reverse (iso : Iso α β) : iso.reverse.get = iso.reverseGet := rfl
@[simp] theorem reverseGet_reverse (iso : Iso α β) : iso.reverse.reverseGet = iso.get := rfl

@[simp] theorem get_compose {γ : Type} (outer : Iso α β) (inner : Iso β γ) (x : α) :
    (outer.compose inner).get x = inner.get (outer.get x) := rfl

@[simp] theorem reverseGet_compose {γ : Type} (outer : Iso α β) (inner : Iso β γ) (z : γ) :
    (outer.compose inner).reverseGet z = outer.reverseGet (inner.reverseGet z) := rfl

end Iso
end TwoWay
