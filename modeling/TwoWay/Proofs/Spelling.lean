import TwoWay.Proofs.Text

/-!
Grammars that spell their values. Such a grammar writes the values of a kind as elements of their
own, the same ones in front of every rest, and cannot build any other value. Grammars made of
spelling parts spell again: the kind and the spelling of the whole are put together from those of
the parts.
-/

namespace TwoWay
namespace Grammar

open Sequence

variable {σ ε : Type} [Sequence σ ε] {ρ : Type → Type} {α β δ : Type}

/-- The values of a kind are written as their spellings, and all others are refused. -/
structure Spells (m : Meaning ρ σ) (g : Grammar ε ρ α) (kind : α → Prop) (spelling : α → List ε) :
    Prop where
  writes : ∀ {x}, kind x → ∀ rest, (g.write m x rest).outcome = .done (prepend (spelling x) rest)
  refuses : ∀ {x}, ¬ kind x → ∀ rest, (g.write m x rest).outcome = .refused .cannotBuild

namespace Spells

variable {m : Meaning ρ σ} {g : Grammar ε ρ α} {kind kind' : α → Prop}
variable {spelling spelling' : α → List ε} {x : α} {rest out : σ} {error : Error}

theorem done_iff (h : Spells m g kind spelling) :
    (g.write m x rest).outcome = .done out ↔ kind x ∧ out = prepend (spelling x) rest := by
  by_cases hx : kind x
  · rw [h.writes hx, Outcome.done.injEq, and_iff_right hx, eq_comm]
  · rw [h.refuses hx]
    exact iff_of_false (by simp) fun written => hx written.1

theorem refused_iff (h : Spells m g kind spelling) :
    (g.write m x rest).outcome = .refused error ↔ ¬ kind x ∧ error = .cannotBuild := by
  by_cases hx : kind x
  · rw [h.writes hx]
    exact iff_of_false (by simp) fun refused => refused.1 hx
  · rw [h.refuses hx, Outcome.refused.injEq, and_iff_right hx, eq_comm]

theorem congr (h : Spells m g kind spelling) (kinds : ∀ x, kind x ↔ kind' x)
    (spellings : ∀ x, kind' x → spelling x = spelling' x) : Spells m g kind' spelling' where
  writes {x} hx rest := by rw [h.writes ((kinds x).2 hx), spellings x hx]
  refuses {x} hx rest := h.refuses (mt (kinds x).1 hx) rest

protected theorem element : Spells m element (fun _ => True) (fun x => [x]) where
  writes _ _ := rfl
  refuses never _ := absurd trivial never

protected theorem satisfy (accepts : ε → Bool) :
    Spells m (satisfy accepts) (fun x => accepts x = true) (fun x => [x]) where
  writes hx rest := write_satisfy_eq_done_iff.2 ⟨hx, rfl⟩
  refuses hx rest := by rw [write_satisfy, if_neg hx, Traced.outcome_refused]

protected theorem both {first : Grammar ε ρ α} {second : Grammar ε ρ β} {kindOf : β → Prop}
    {spellingOf : β → List ε} (hf : Spells m first kind spelling)
    (hs : Spells m second kindOf spellingOf) :
    Spells m (both first second) (fun p => kind p.1 ∧ kindOf p.2)
      (fun p => spelling p.1 ++ spellingOf p.2) where
  writes {p} hp rest := by
    rw [write_both, Traced.outcome_andThen, hs.writes hp.2, Outcome.done_bind, hf.writes hp.1,
      prepend_append]
  refuses {p} fails rest := by
    rw [write_both, Traced.outcome_andThen]
    by_cases hy : kindOf p.2
    · rw [hs.writes hy, Outcome.done_bind]
      exact hf.refuses (fun hx => fails ⟨hx, hy⟩) _
    · rw [hs.refuses hy, Outcome.refused_bind]

theorem writes_many (h : Spells m g kind spelling) {xs : List α} (all : ∀ x ∈ xs, kind x)
    (rest : σ) :
    ((many g).write m xs rest).outcome = .done (prepend (xs.flatMap spelling) rest) := by
  induction xs with
  | nil => rfl
  | cons x xs ih =>
      obtain ⟨hx, hxs⟩ := List.forall_mem_cons.1 all
      rw [write_many_cons, Traced.outcome_andThen, ih hxs, Outcome.done_bind, h.writes hx,
        List.flatMap_cons, prepend_append]

/-- A list is refused at the last of its items that is not of the kind. -/
theorem refuses_many (h : Spells m g kind spelling) {xs : List α} (fails : ¬ ∀ x ∈ xs, kind x)
    (rest : σ) : ((many g).write m xs rest).outcome = .refused .cannotBuild := by
  induction xs with
  | nil => exact absurd (List.forall_mem_nil _) fails
  | cons x xs ih =>
      rw [write_many_cons, Traced.outcome_andThen]
      by_cases hxs : ∀ y ∈ xs, kind y
      · have hx : ¬ kind x := fun hx => fails (List.forall_mem_cons.2 ⟨hx, hxs⟩)
        rw [h.writes_many hxs, Outcome.done_bind, h.refuses hx]
      · rw [ih hxs, Outcome.refused_bind]

protected theorem many (h : Spells m g kind spelling) :
    Spells m (many g) (fun xs => ∀ x ∈ xs, kind x) (fun xs => xs.flatMap spelling) :=
  ⟨h.writes_many, h.refuses_many⟩

protected theorem replicate (h : Spells m g kind spelling) (count : Nat) :
    Spells m (replicate count g) (fun xs => xs.length = count ∧ ∀ x ∈ xs, kind x)
      (fun xs => xs.flatMap spelling) where
  writes {xs} hxs rest := by rw [write_replicate, if_pos hxs.1, h.many.writes hxs.2]
  refuses {xs} fails rest := by
    rw [write_replicate]
    split
    · next hlen => exact h.many.refuses (fun all => fails ⟨hlen, all⟩) rest
    · rfl

protected theorem adapt (h : Spells m g kind spelling) (prism : Prism α β) :
    Spells m (adapt prism g) (fun y => kind (prism.review y))
      (fun y => spelling (prism.review y)) where
  writes hy rest := by rw [write_adapt, h.writes hy]
  refuses hy rest := by rw [write_adapt, h.refuses hy]

/-- An end behind a grammar is not written. -/
protected theorem seqLeft_eof (h : Spells m g kind spelling) :
    Spells m (seqLeft g eof) kind spelling where
  writes hx rest := by rw [write_seqLeft_eof, h.writes hx]
  refuses hx rest := by rw [write_seqLeft_eof, h.refuses hx]

protected theorem bind {driver : Grammar ε ρ δ} {continuation : δ → Grammar ε ρ α}
    {driverOf : α → δ} {kindOfDriver : δ → Prop} {spellingOfDriver : δ → List ε}
    {kindAfter : δ → α → Prop} {spellingAfter : δ → α → List ε}
    (hd : Spells m driver kindOfDriver spellingOfDriver)
    (hc : ∀ d, Spells m (continuation d) (kindAfter d) (spellingAfter d)) :
    Spells m (bind driver continuation driverOf)
      (fun x => kindAfter (driverOf x) x ∧ kindOfDriver (driverOf x))
      (fun x => spellingOfDriver (driverOf x) ++ spellingAfter (driverOf x) x) where
  writes {x} hx rest := by
    rw [write_bind, Traced.outcome_andThen, (hc _).writes hx.1, Outcome.done_bind,
      hd.writes hx.2, prepend_append]
  refuses {x} fails rest := by
    rw [write_bind, Traced.outcome_andThen]
    by_cases hx : kindAfter (driverOf x) x
    · rw [(hc _).writes hx, Outcome.done_bind]
      exact hd.refuses (fun hdriver => fails ⟨hx, hdriver⟩) _
    · rw [(hc _).refuses hx, Outcome.refused_bind]

protected theorem integer {σ : Type} [Sequence σ Char] {m : Meaning ρ σ} :
    Spells m (integer : Grammar Char ρ Int64) (fun _ => True) Decimal.write where
  writes _ rest := by rw [write_integer, Traced.outcome_done]
  refuses never _ := absurd trivial never

end Spells
end Grammar
end TwoWay
