/-!
Sequences that grammars read from and write in front of. A grammar needs an empty sequence, the
first element with what follows it, and a sequence with one more element in front; the list of
elements is the view in which every law is stated. A lawful sequence is determined by that view,
so taking off an element and putting it back gives the very same sequence.
-/

namespace TwoWay

/-- A finite container that is read and extended at its front. -/
class Sequence (σ : Type) (ε : outParam Type) where
  /-- The elements, front to back. -/
  toList : σ → List ε
  ofList : List ε → σ
  size : σ → Nat
  empty : σ
  /-- The first element and the sequence behind it. -/
  uncons : σ → Option (ε × σ)
  cons : ε → σ → σ

/-- The operations of a sequence are those of the list of its elements, and nothing but the
elements tells two sequences apart. -/
class LawfulSequence (σ : Type) (ε : outParam Type) [Sequence σ ε] : Prop where
  toList_injective : ∀ {s t : σ}, Sequence.toList s = Sequence.toList t → s = t
  toList_ofList : ∀ xs : List ε, Sequence.toList (Sequence.ofList xs : σ) = xs
  size_eq_length : ∀ s : σ, Sequence.size s = (Sequence.toList s).length
  toList_empty : Sequence.toList (Sequence.empty : σ) = []
  toList_uncons : ∀ s : σ,
    match Sequence.uncons s with
    | none => Sequence.toList s = []
    | some (x, t) => Sequence.toList s = x :: Sequence.toList t
  toList_cons : ∀ (x : ε) (s : σ), Sequence.toList (Sequence.cons x s) = x :: Sequence.toList s

namespace Sequence

variable {σ ε : Type} [Sequence σ ε] [LawfulSequence σ ε]

attribute [simp] LawfulSequence.toList_ofList LawfulSequence.toList_empty
  LawfulSequence.toList_cons

theorem toList_inj {s t : σ} : toList s = toList t ↔ s = t :=
  ⟨LawfulSequence.toList_injective, fun h => h ▸ rfl⟩

theorem uncons_eq_none_iff {s : σ} : uncons s = none ↔ toList s = [] := by
  have h := LawfulSequence.toList_uncons s
  cases hs : uncons s with
  | none => simpa [hs] using h
  | some p => simp [hs] at h ⊢; simp [h]

theorem uncons_eq_some_iff {s t : σ} {x : ε} :
    uncons s = some (x, t) ↔ toList s = x :: toList t := by
  have h := LawfulSequence.toList_uncons s
  cases hs : uncons s with
  | none => simp [hs] at h ⊢; simp [h]
  | some p =>
      obtain ⟨y, u⟩ := p
      simp only [hs] at h
      refine ⟨?_, ?_⟩
      · intro e
        cases e
        exact h
      · intro e
        rw [h] at e
        injection e with hx ht
        rw [hx, LawfulSequence.toList_injective ht]

@[simp] theorem uncons_empty : uncons (empty : σ) = none := by
  simp [uncons_eq_none_iff]

@[simp] theorem uncons_cons (x : ε) (s : σ) : uncons (cons x s) = some (x, s) := by
  simp [uncons_eq_some_iff]

theorem eq_cons_of_uncons {s t : σ} {x : ε} (h : uncons s = some (x, t)) : s = cons x t :=
  LawfulSequence.toList_injective (by rw [uncons_eq_some_iff.1 h, LawfulSequence.toList_cons])

theorem eq_empty_of_uncons {s : σ} (h : uncons s = none) : s = empty :=
  LawfulSequence.toList_injective
    (by rw [uncons_eq_none_iff.1 h, LawfulSequence.toList_empty])

@[simp] theorem size_empty : size (empty : σ) = 0 := by
  simp [LawfulSequence.size_eq_length]

@[simp] theorem size_cons (x : ε) (s : σ) : size (cons x s) = size s + 1 := by
  simp [LawfulSequence.size_eq_length]

theorem size_of_uncons {s t : σ} {x : ε} (h : uncons s = some (x, t)) : size s = size t + 1 := by
  rw [eq_cons_of_uncons h, size_cons]

end Sequence

instance {α : Type} : Sequence (List α) α where
  toList := id
  ofList := id
  size := List.length
  empty := []
  uncons
    | [] => none
    | x :: xs => some (x, xs)
  cons := List.cons

instance {α : Type} : LawfulSequence (List α) α where
  toList_injective := id
  toList_ofList _ := rfl
  size_eq_length _ := rfl
  toList_empty := rfl
  toList_uncons
    | [] => rfl
    | _ :: _ => rfl
  toList_cons _ _ := rfl

instance {α : Type} : Sequence (Array α) α where
  toList := Array.toList
  ofList := List.toArray
  size := Array.size
  empty := #[]
  uncons xs := xs[0]?.map fun x => (x, xs.extract 1 xs.size)
  cons x xs := #[x] ++ xs

instance {α : Type} : LawfulSequence (Array α) α where
  toList_injective := Array.toList_inj.1
  toList_ofList _ := rfl
  size_eq_length _ := rfl
  toList_empty := rfl
  toList_uncons
    | ⟨[]⟩ => by simp [Sequence.uncons, Sequence.toList]
    | ⟨x :: xs⟩ => by simp [Sequence.uncons, Sequence.toList]
  toList_cons x xs := by simp [Sequence.cons, Sequence.toList]

instance : Sequence String Char where
  toList := String.toList
  ofList := String.ofList
  size := String.length
  empty := ""
  uncons s := s.front?.map fun c => (c, (s.drop 1).copy)
  cons c s := String.singleton c ++ s

instance : LawfulSequence String Char where
  toList_injective := String.toList_inj.1
  toList_ofList _ := String.toList_ofList
  size_eq_length _ := String.length_toList.symm
  toList_empty := String.toList_empty
  toList_uncons s := by
    simp only [Sequence.uncons, Sequence.toList, String.front?_eq]
    cases h : s.toList with
    | nil => simp
    | cons c cs => simp [String.toList_copy_drop, h]
  toList_cons c s := by simp [Sequence.cons, Sequence.toList]

end TwoWay
