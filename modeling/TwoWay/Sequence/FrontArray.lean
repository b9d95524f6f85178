import TwoWay.Sequence.Basic

/-!
A sequence kept in an array with its last element first, so that taking off or adding an element
at the front is a pop or a push at the array's end.
-/

namespace TwoWay

/-- A sequence stored back to front. -/
structure FrontArray (α : Type) where
  reversed : Array α

namespace FrontArray

variable {α : Type}

instance : Sequence (FrontArray α) α where
  toList s := s.reversed.toList.reverse
  ofList xs := ⟨xs.reverse.toArray⟩
  size s := s.reversed.size
  empty := ⟨#[]⟩
  uncons s := s.reversed.back?.map fun x => (x, ⟨s.reversed.pop⟩)
  cons x s := ⟨s.reversed.push x⟩

instance : LawfulSequence (FrontArray α) α where
  toList_injective {s t} h := by
    cases s; cases t
    simpa [Sequence.toList, Array.toList_inj] using h
  toList_ofList xs := by simp [Sequence.toList, Sequence.ofList]
  size_eq_length s := by simp [Sequence.toList, Sequence.size]
  toList_empty := rfl
  toList_uncons s := by
    obtain ⟨xs⟩ := s
    obtain ⟨ys, rfl⟩ : ∃ ys : List α, xs = ys.reverse.toArray :=
      ⟨xs.toList.reverse, by simp⟩
    cases ys with
    | nil => simp [Sequence.uncons, Sequence.toList]
    | cons y ys => simp [Sequence.uncons, Sequence.toList]
  toList_cons x s := by simp [Sequence.cons, Sequence.toList]

end FrontArray
end TwoWay
