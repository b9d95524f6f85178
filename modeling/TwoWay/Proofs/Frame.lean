import TwoWay.Format.Nesting
import TwoWay.Proofs.Leftover

/-!
What a run does to a sequence and what it leaves out of account. Reading takes a front off and
leaves the rest as it was, whatever attempts were given up on the way. Writing puts a front on that
is the same for every rest. A check may still refuse it in front of one rest and pass it in front of
another; without checks the whole run, its error included, is the same for every rest.
-/

namespace TwoWay
namespace Grammar

open Sequence

variable {σ ε : Type} [Sequence σ ε] {ρ : Type → Type} {α : Type}

/-- No output is read back before it is given. -/
def Unchecked : {α : Type} → Grammar ε ρ α → Prop
  | _, element | _, fromPrism _ | _, success _ | _, failure | _, eof | _, satisfy _ | _, call _ =>
    True
  | _, both first second | _, choose first second => first.Unchecked ∧ second.Unchecked
  | _, many item | _, replicate _ item => item.Unchecked
  | _, adapt _ inner => inner.Unchecked
  | _, bind driver continuation _ => driver.Unchecked ∧ ∀ d, (continuation d).Unchecked
  | _, bindChecked .. => False

/-- A run ends in one way for every rest, and the elements it puts on are the same ones. -/
def EndsAlike (write : σ → Writing σ) : Prop :=
  ∃ ending : Outcome Error (List ε), ∀ rest,
    write rest = ⟨ending.map fun xs => prepend xs rest, []⟩

theorem EndsAlike.done (xs : List ε) : EndsAlike fun rest : σ => .done (prepend xs rest) :=
  ⟨.done xs, fun _ => rfl⟩

theorem EndsAlike.refused (error : Error) : EndsAlike fun _ : σ => .refused error :=
  ⟨.refused error, fun _ => rfl⟩

theorem EndsAlike.andThen {write write' : σ → Writing σ} (h : EndsAlike write)
    (h' : EndsAlike write') : EndsAlike fun rest => (write rest).andThen write' := by
  obtain ⟨first, hfirst⟩ := h
  obtain ⟨second, hsecond⟩ := h'
  refine ⟨first.bind fun xs => second.map fun ys => ys ++ xs, fun rest => ?_⟩
  cases first with
  | done xs =>
      simp only [hfirst, Outcome.map, Outcome.done_bind, Traced.andThen, hsecond]
      cases second with
      | done ys => simp only [Outcome.done_bind, prepend_append, List.append_nil]
      | refused _ | exhausted => rfl
  | refused _ | exhausted =>
      simp only [hfirst]
      rfl

theorem EndsAlike.many {m : Meaning ρ σ} {item : Grammar ε ρ α}
    (h : ∀ x, EndsAlike (item.write m x)) (xs : List α) : EndsAlike ((many item).write m xs) := by
  induction xs with
  | nil => exact .done []
  | cons x xs ih => exact ih.andThen (h x)

theorem Unchecked.endsAlike {m : Meaning ρ σ}
    (calls : ∀ {β : Type} (rule : ρ β) x, EndsAlike (m.write rule x)) {g : Grammar ε ρ α}
    (hg : g.Unchecked) (front : g.Prisms (PutsOn σ)) (x : α) : EndsAlike (g.write m x) := by
  induction g with
  | element => exact .done [x]
  | fromPrism prism =>
      obtain ⟨xs, hxs⟩ := front x
      refine ⟨.done xs, fun rest => ?_⟩
      rw [Outcome.map, Outcome.done_bind, ← hxs rest]
      rfl
  | success _ | eof => exact .done []
  | failure => exact .refused _
  | satisfy accepts =>
      cases hx : accepts x with
      | true =>
          refine ⟨.done [x], fun rest => ?_⟩
          rw [write_satisfy, if_pos hx]
          rfl
      | false =>
          refine ⟨.refused .cannotBuild, fun rest => ?_⟩
          rw [write_satisfy, if_neg (by simp [hx])]
          rfl
  | both first second ihf ihs => exact (ihs hg.2 front.2 x.2).andThen (ihf hg.1 front.1 x.1)
  | choose first second ihf ihs =>
      cases x with
      | inl x => exact ihf hg.1 front.1 x
      | inr y => exact ihs hg.2 front.2 y
  | many item ih => exact .many (ih hg front) x
  | replicate count item ih =>
      by_cases hlen : x.length = count
      · subst hlen
        obtain ⟨ending, same⟩ := EndsAlike.many (ih hg front) x
        exact ⟨ending, fun rest => by rw [write_replicate_length, same]⟩
      · refine ⟨.refused .cannotBuild, fun rest => ?_⟩
        rw [write_replicate, if_neg hlen]
        rfl
  | adapt prism inner ih => exact ih hg front (prism.review x)
  | bind driver continuation driverOf ihd ihc =>
      exact (ihc _ (hg.2 _) (front.2 _) x).andThen (ihd hg.1 front.1 (driverOf x))
  | bindChecked driver continuation driverOf _ _ => exact hg.elim
  | call rule => exact calls rule x

theorem Rules.meaning_endsAlike {rules : Rules ε ρ}
    (unchecked : ∀ {β : Type} (rule : ρ β), (rules.definition rule).Unchecked)
    (table : ∀ {β : Type} (rule : ρ β), (rules.definition rule).Prisms (PutsOn σ)) (depth : Nat)
    (rule : ρ α) (x : α) : EndsAlike ((rules.meaning depth : Meaning ρ σ).write rule x) := by
  induction depth generalizing α with
  | zero => exact ⟨.exhausted, fun _ => rfl⟩
  | succ depth ih => exact (unchecked rule).endsAlike ih (table rule) x

/-- Two writings of one value put the same elements in front of their rests. A format without checks
also ends in the same way for all rests: with those elements, or with the same error. -/
theorem writing_puts_front_on (rules : Rules ε ρ)
    (table : ∀ {β : Type} (rule : ρ β), (rules.definition rule).Prisms (PutsOn σ))
    {g : Grammar ε ρ α} (front : g.Prisms (PutsOn σ)) (x : α) :
    (∀ {rest rest' out out' : σ}, rules.Writes g x rest out → rules.Writes g x rest' out' →
      ∃ xs, out = prepend xs rest ∧ out' = prepend xs rest') ∧
    (g.Unchecked → (∀ {β : Type} (rule : ρ β), (rules.definition rule).Unchecked) →
      ∀ depth, ∃ ending : Outcome Error (List ε), ∀ rest : σ,
        (g.write (rules.meaning depth) x rest).outcome = ending.map fun xs => prepend xs rest) := by
  constructor
  · intro rest rest' out out' written written'
    obtain ⟨depth, hw, hw'⟩ := written.together written'
    obtain ⟨xs, hxs⟩ := write_prepends (Rules.meaning_write_prepends table depth) front x
    exact ⟨xs, hxs rest out hw, hxs rest' out' hw'⟩
  · intro unchecked rulesUnchecked depth
    obtain ⟨ending, same⟩ :=
      unchecked.endsAlike (Rules.meaning_endsAlike rulesUnchecked table depth) front x
    exact ⟨ending, fun rest => by rw [same]⟩

theorem writing_puts_front_on_nesting :
    let g : Grammar Char Nesting.Rule (Char × Nat) := both uncons (call .level)
    (∀ {β : Type} (rule : Nesting.Rule β),
      (Nesting.rules.definition rule).Prisms (PutsOn (List Char))) ∧
    g.Prisms (PutsOn (List Char)) ∧
    Nesting.rules.Writes g ('?', 1) ['!'] ['?', '(', '.', ')', '!'] ∧
    Nesting.rules.Writes g ('?', 1) [] ['?', '(', '.', ')'] ∧
    (∃ xs, ['?', '(', '.', ')', '!'] = prepend xs ['!'] ∧ ['?', '(', '.', ')'] = prepend xs []) ∧
    g.Unchecked ∧
    (∀ {β : Type} (rule : Nesting.Rule β), (Nesting.rules.definition rule).Unchecked) ∧
    ∀ depth, ∃ ending : Outcome Error (List Char), ∀ rest : List Char,
      (g.write (Nesting.rules.meaning depth) ('?', 1) rest).outcome =
        ending.map fun xs => prepend xs rest := by
  intro g
  have table : ∀ {β : Type} (rule : Nesting.Rule β),
      (Nesting.rules.definition rule).Prisms (PutsOn (List Char)) := by
    intro β rule
    cases rule
    exact ⟨⟨trivial, trivial, trivial⟩, trivial⟩
  have unchecked : ∀ {β : Type} (rule : Nesting.Rule β),
      (Nesting.rules.definition rule).Unchecked := by
    intro β rule
    cases rule
    exact ⟨⟨trivial, trivial, trivial⟩, trivial⟩
  have front : g.Prisms (PutsOn (List Char)) := ⟨putsOn_uncons, trivial⟩
  have written : Nesting.rules.Writes g ('?', 1) ['!'] ['?', '(', '.', ')', '!'] :=
    ⟨2, by decide⟩
  have written' : Nesting.rules.Writes g ('?', 1) [] ['?', '(', '.', ')'] := ⟨2, by decide⟩
  obtain ⟨same, alike⟩ := writing_puts_front_on Nesting.rules table front ('?', 1)
  exact ⟨table, front, written, written', same written written', ⟨trivial, trivial⟩, unchecked,
    alike ⟨trivial, trivial⟩ unchecked⟩

/-- Whatever is read, the rest is the sequence without some elements at its front. -/
theorem reading_takes_front_off (rules : Rules ε ρ) [LawfulSequence σ ε]
    (table : ∀ {β : Type} (rule : ρ β), (rules.definition rule).Prisms (TakesOff σ))
    {g : Grammar ε ρ α} (front : g.Prisms (TakesOff σ)) {s rest : σ} {x : α}
    (h : rules.Reads g s x rest) : ∃ xs, s = prepend xs rest :=
  suffix_iff_exists_prepend.1 (h.suffix table front)

/-- A repetition that gives up at a letter, and an alternative that gives up behind it. -/
theorem reading_takes_front_off_nesting :
    let g : Grammar Char Nesting.Rule (Nat × List Char × (Char ⊕ Char)) :=
      both (call .level) (both (many digit) (choose (seqLeft uncons eof) uncons))
    (∀ {β : Type} (rule : Nesting.Rule β),
      (Nesting.rules.definition rule).Prisms (TakesOff (List Char))) ∧
    g.Prisms (TakesOff (List Char)) ∧
    Nesting.rules.Reads g ['(', '.', ')', '1', '2', 'x', 'y'] (1, ['1', '2'], .inr 'x') ['y'] ∧
    ∃ xs, ['(', '.', ')', '1', '2', 'x', 'y'] = prepend xs ['y'] := by
  intro g
  have table : ∀ {β : Type} (rule : Nesting.Rule β),
      (Nesting.rules.definition rule).Prisms (TakesOff (List Char)) := by
    intro β rule
    cases rule
    exact ⟨⟨trivial, trivial, trivial⟩, trivial⟩
  have front : g.Prisms (TakesOff (List Char)) :=
    ⟨trivial, trivial, ⟨takesOff_uncons, trivial⟩, takesOff_uncons⟩
  have read : Nesting.rules.Reads g ['(', '.', ')', '1', '2', 'x', 'y']
      (1, ['1', '2'], .inr 'x') ['y'] := ⟨2, by decide⟩
  exact ⟨table, front, read, reading_takes_front_off Nesting.rules table front read⟩

end Grammar
end TwoWay
