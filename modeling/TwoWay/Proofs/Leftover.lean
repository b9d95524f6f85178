import TwoWay.Proofs.Runs
import TwoWay.Proofs.Text

/-!
What a run leaves alone. A format works at the front of a sequence if its prisms do: reading then
takes some elements off and leaves the others as they are, and writing puts some elements on, the
same ones in front of every rest.
-/

namespace TwoWay

namespace Sequence

variable {σ ε : Type} [Sequence σ ε] [LawfulSequence σ ε]

theorem suffix_iff_exists_prepend {s t : σ} : toList t <:+ toList s ↔ ∃ xs, s = prepend xs t := by
  simp only [eq_prepend_iff, List.IsSuffix, eq_comm]

end Sequence

namespace Grammar

open Sequence

variable {σ ε : Type} [Sequence σ ε] {ρ : Type → Type} {α β : Type}

/-- The prisms between a sequence and a value in front of a rest, for every kind of sequence. -/
abbrev FrontPrism (ε α : Type) := (σ : Type) → [Sequence σ ε] → Prism σ (α × σ)

/-- Whatever prism takes a part off a sequence in this grammar has a property. -/
def Prisms (holds : {α : Type} → FrontPrism ε α → Prop) : {α : Type} → Grammar ε ρ α → Prop
  | _, fromPrism prism => holds prism
  | _, element | _, success _ | _, failure | _, eof | _, satisfy _ | _, call _ => True
  | _, both first second | _, choose first second => first.Prisms holds ∧ second.Prisms holds
  | _, many item | _, replicate _ item => item.Prisms holds
  | _, adapt _ inner => inner.Prisms holds
  | _, bind driver continuation _ | _, bindChecked driver continuation _ =>
    driver.Prisms holds ∧ ∀ d, (continuation d).Prisms holds

/-- What is left behind is the end of the sequence. -/
def TakesOff (σ : Type) [Sequence σ ε] (prism : FrontPrism ε α) : Prop :=
  ∀ (s rest : σ) x, (prism σ).preview s = some (x, rest) → toList rest <:+ toList s

/-- The elements put on depend on the value only. -/
def PutsOn (σ : Type) [Sequence σ ε] (prism : FrontPrism ε α) : Prop :=
  ∀ x, ∃ xs, ∀ rest : σ, (prism σ).review (x, rest) = prepend xs rest

theorem takesOff_uncons [LawfulSequence σ ε] : TakesOff σ (fun _ => .uncons : FrontPrism ε ε) := by
  intro s rest x h
  rw [Prism.preview_uncons] at h
  rw [uncons_eq_some_iff.1 h]
  exact List.suffix_cons _ _

theorem putsOn_uncons : PutsOn σ (fun _ => .uncons : FrontPrism ε ε) :=
  fun x => ⟨[x], fun _ => rfl⟩

theorem Chain.suffix {item : σ → Reading α σ} {s rest : σ} {xs : List α}
    (chain : Chain item s xs rest)
    (h : ∀ s x rest, item s = .done (x, rest) → toList rest <:+ toList s) :
    toList rest <:+ toList s := by
  induction chain with
  | nil => exact List.suffix_refl _
  | cons head _ ih => exact ih.trans (h _ _ _ head)

theorem read_suffix [LawfulSequence σ ε] {m : Meaning ρ σ}
    (calls : ∀ {β : Type} (rule : ρ β) (s : σ) x rest,
      m.read rule s = .done (x, rest) → toList rest <:+ toList s)
    {g : Grammar ε ρ α} (hg : g.Prisms (TakesOff σ)) {s rest : σ} {x : α}
    (h : g.read m s = .done (x, rest)) : toList rest <:+ toList s := by
  induction g generalizing s rest with
  | element =>
      rw [uncons_eq_some_iff.1 (read_element_eq_done_iff.1 h)]
      exact List.suffix_cons _ _
  | fromPrism prism =>
      rw [read_fromPrism, Outcome.ofOption_eq_done_iff] at h
      exact hg _ _ _ h
  | success value => cases h; exact List.suffix_refl _
  | failure => cases h
  | eof =>
      obtain ⟨-, rfl⟩ := read_eof_eq_done_iff.1 h
      rw [LawfulSequence.toList_empty]
      exact List.nil_suffix
  | satisfy accepts =>
      rw [uncons_eq_some_iff.1 (read_satisfy_eq_done_iff.1 h).1]
      exact List.suffix_cons _ _
  | both first second ihf ihs =>
      obtain ⟨x, y⟩ := x
      obtain ⟨mid, hx, hy⟩ := read_both_eq_done_iff.1 h
      exact (ihs hg.2 hy).trans (ihf hg.1 hx)
  | choose first second ihf ihs =>
      cases x with
      | inl x => exact ihf hg.1 (read_choose_inl_eq_done_iff.1 h)
      | inr y => exact ihs hg.2 (read_choose_inr_eq_done_iff.1 h).2
  | many item ih =>
      exact (read_many_eq_done_iff.1 h).2.1.suffix fun _ _ _ => ih hg
  | replicate count item ih =>
      exact (read_replicate_eq_done_iff.1 h).2.suffix fun _ _ _ => ih hg
  | adapt prism inner ih =>
      obtain ⟨y, hy, -⟩ := read_adapt_eq_done_iff.1 h
      exact ih hg hy
  | bind driver continuation driverOf ihd ihc =>
      obtain ⟨d, mid, hd, hx⟩ := read_bind_eq_done_iff.1 h
      exact (ihc d (hg.2 d) hx).trans (ihd hg.1 hd)
  | bindChecked driver continuation driverOf ihd ihc =>
      rw [read_bindChecked] at h
      obtain ⟨d, mid, hd, hx⟩ := read_bind_eq_done_iff.1 h
      exact (ihc d (hg.2 d) hx).trans (ihd hg.1 hd)
  | call rule => exact calls rule s x rest h

/-- Some elements are put in front of every rest that is written to. -/
def Prepends (write : σ → Writing σ) : Prop :=
  ∃ xs, ∀ rest out, (write rest).outcome = .done out → out = prepend xs rest

theorem Prepends.done (xs : List ε) : Prepends fun rest : σ => .done (prepend xs rest) := by
  refine ⟨xs, fun rest out written => ?_⟩
  cases written
  rfl

theorem Prepends.andThen {write write' : σ → Writing σ} (h : Prepends write)
    (h' : Prepends write') : Prepends fun rest => (write rest).andThen write' := by
  obtain ⟨xs, hxs⟩ := h
  obtain ⟨ys, hys⟩ := h'
  refine ⟨ys ++ xs, fun rest out written => ?_⟩
  obtain ⟨mid, hmid, hout⟩ := Traced.outcome_andThen_eq_done_iff.1 written
  rw [hys mid out hout, hxs rest mid hmid, prepend_append]

theorem Prepends.many {m : Meaning ρ σ} {item : Grammar ε ρ α}
    (h : ∀ x, Prepends (item.write m x)) (xs : List α) : Prepends ((many item).write m xs) := by
  induction xs with
  | nil => exact .done []
  | cons x xs ih => exact ih.andThen (h x)

theorem write_prepends {m : Meaning ρ σ}
    (calls : ∀ {β : Type} (rule : ρ β) x, Prepends (m.write rule x)) {g : Grammar ε ρ α}
    (hg : g.Prisms (PutsOn σ)) (x : α) : Prepends (g.write m x) := by
  induction g with
  | element => exact .done [x]
  | fromPrism prism =>
      obtain ⟨xs, hxs⟩ := hg x
      refine ⟨xs, fun rest out written => ?_⟩
      cases written
      exact hxs rest
  | success _ | eof => exact .done []
  | failure => exact ⟨[], fun _ _ written => by cases written⟩
  | satisfy accepts =>
      exact ⟨[x], fun rest out written => (write_satisfy_eq_done_iff.1 written).2⟩
  | both first second ihf ihs => exact (ihs hg.2 x.2).andThen (ihf hg.1 x.1)
  | choose first second ihf ihs =>
      cases x with
      | inl x => exact ihf hg.1 x
      | inr y => exact ihs hg.2 y
  | many item ih => exact .many (ih hg) x
  | replicate count item ih =>
      obtain ⟨xs, hxs⟩ := Prepends.many (ih hg) x
      exact ⟨xs, fun rest out written => hxs rest out (write_replicate_eq_done_iff.1 written).2⟩
  | adapt prism inner ih => exact ih hg (prism.review x)
  | bind driver continuation driverOf ihd ihc =>
      exact (ihc _ (hg.2 _) x).andThen (ihd hg.1 (driverOf x))
  | bindChecked driver continuation driverOf ihd ihc =>
      -- The check keeps or drops the output of the unchecked bind and does not change it.
      obtain ⟨xs, hxs⟩ := (ihc _ (hg.2 _) x).andThen (ihd hg.1 (driverOf x))
      exact ⟨xs, fun rest out written => hxs rest out (write_bindChecked_eq_done_iff.1 written).1⟩
  | call rule => exact calls rule x

namespace Rules

variable {rules : Rules ε ρ}

theorem meaning_read_suffix [LawfulSequence σ ε]
    (table : ∀ {β : Type} (rule : ρ β), (rules.definition rule).Prisms (TakesOff σ)) (depth : Nat)
    {rule : ρ α} {s rest : σ} {x : α}
    (h : (rules.meaning depth).read rule s = .done (x, rest)) : toList rest <:+ toList s := by
  induction depth generalizing α s rest with
  | zero => cases h
  | succ depth ih => exact read_suffix (fun _ _ _ _ => ih) (table rule) h

theorem meaning_write_prepends
    (table : ∀ {β : Type} (rule : ρ β), (rules.definition rule).Prisms (PutsOn σ)) (depth : Nat)
    (rule : ρ α) (x : α) : Prepends ((rules.meaning depth : Meaning ρ σ).write rule x) := by
  induction depth generalizing α with
  | zero => exact ⟨[], fun _ _ written => by cases written⟩
  | succ depth ih => exact write_prepends ih (table rule) x

theorem Reads.suffix [LawfulSequence σ ε]
    (table : ∀ {β : Type} (rule : ρ β), (rules.definition rule).Prisms (TakesOff σ))
    {g : Grammar ε ρ α} (hg : g.Prisms (TakesOff σ)) {s rest : σ} {x : α}
    (h : rules.Reads g s x rest) : toList rest <:+ toList s := by
  obtain ⟨depth, hd⟩ := h
  exact read_suffix (fun _ _ _ _ => meaning_read_suffix table depth) hg hd

theorem Writes.suffix [LawfulSequence σ ε]
    (table : ∀ {β : Type} (rule : ρ β), (rules.definition rule).Prisms (PutsOn σ))
    {g : Grammar ε ρ α} (hg : g.Prisms (PutsOn σ)) {x : α} {rest out : σ}
    (h : rules.Writes g x rest out) : toList rest <:+ toList out := by
  obtain ⟨depth, hd⟩ := h
  obtain ⟨xs, hxs⟩ := write_prepends (meaning_write_prepends table depth) hg x
  exact suffix_iff_exists_prepend.2 ⟨xs, hxs rest out hd⟩

end Rules
end Grammar
end TwoWay
