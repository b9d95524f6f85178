import TwoWay.Format.Nesting
import TwoWay.Proofs.Leftover
import TwoWay.Sequence.FrontArray
import TwoWay.SharedList.Basic

/-!
One format over two kinds of sequences. A run sees a sequence only through the list of its elements:
on two sequences with the same elements, whatever they are stored in, readings end in the same way,
with the same value and the same elements left behind, and writings end in the same way, with the
same elements in the output or the same error. The two runs are followed side by side, form by form
and item by item; sequences with the same elements come apart in the same way and have the same
size, so a repetition stops at the same item.
-/

namespace TwoWay

namespace Outcome

variable {κ α β γ δ : Type} {r : α → β → Prop} {q : γ → δ → Prop}

/-- Two computations end in the same way, and their answers are related. -/
inductive Rel (r : α → β → Prop) : Outcome κ α → Outcome κ β → Prop
  | done {x : α} {y : β} (related : r x y) : Rel r (.done x) (.done y)
  | refused (reason : κ) : Rel r (.refused reason) (.refused reason)
  | exhausted : Rel r .exhausted .exhausted

theorem Rel.refl (o : Outcome κ α) : Rel Eq o o := by
  cases o with
  | done x => exact .done rfl
  | refused reason => exact .refused reason
  | exhausted => exact .exhausted

theorem Rel.bind {o : Outcome κ α} {o' : Outcome κ β} {next : α → Outcome κ γ}
    {next' : β → Outcome κ δ} (h : Rel r o o') (hn : ∀ x y, r x y → Rel q (next x) (next' y)) :
    Rel q (o.bind next) (o'.bind next') := by
  cases h with
  | done related => exact hn _ _ related
  | refused reason => exact .refused reason
  | exhausted => exact .exhausted

theorem Rel.map {o : Outcome κ α} {o' : Outcome κ β} {f : α → γ} {f' : β → δ} (h : Rel r o o')
    (hf : ∀ x y, r x y → q (f x) (f' y)) : Rel q (o.map f) (o'.map f') :=
  h.bind fun x y related => .done (hf x y related)

theorem Rel.orElse {o : Outcome κ α} {o' : Outcome κ β} {other : Unit → Outcome κ α}
    {other' : Unit → Outcome κ β} (h : Rel r o o') (ho : Rel r (other ()) (other' ())) :
    Rel r (o.orElse other) (o'.orElse other') := by
  cases h with
  | done related => exact .done related
  | refused reason => exact ho
  | exhausted => exact .exhausted

theorem Rel.eq {o o' : Outcome κ α} (h : Rel Eq o o') : o = o' := by
  cases h with
  | done related => rw [related]
  | refused _ | exhausted => rfl

theorem Rel.map_eq {o : Outcome κ α} {o' : Outcome κ β} {f : α → γ} {f' : β → γ} (h : Rel r o o')
    (hf : ∀ x y, r x y → f x = f' y) : o.map f = o'.map f' :=
  (h.map hf).eq

end Outcome

namespace Traced

variable {κ α β γ δ : Type} {r : α → β → Prop} {q : γ → δ → Prop}

/-- Two traced computations end in the same way and report the same events. -/
structure Rel (r : α → β → Prop) (run : Traced κ α) (run' : Traced κ β) : Prop where
  outcome : run.outcome.Rel r run'.outcome
  events : run.events = run'.events

theorem Rel.done {x : α} {y : β} (related : r x y) :
    Rel r (.done x : Traced κ α) (.done y) :=
  ⟨.done related, rfl⟩

theorem Rel.refused (reason : κ) : Rel r (.refused reason : Traced κ α) (.refused reason) :=
  ⟨.refused reason, rfl⟩

theorem Rel.andThen {run : Traced κ α} {run' : Traced κ β} {next : α → Traced κ γ}
    {next' : β → Traced κ δ} (h : Rel r run run')
    (hn : ∀ x y, r x y → Rel q (next x) (next' y)) :
    Rel q (run.andThen next) (run'.andThen next') := by
  obtain ⟨o, events⟩ := run
  obtain ⟨o', events'⟩ := run'
  obtain ⟨outcome, same⟩ := h
  simp only at outcome same
  subst same
  cases outcome with
  | done related =>
      have after := hn _ _ related
      refine ⟨after.outcome, ?_⟩
      simp only [Traced.andThen, after.events]
  | refused reason => exact ⟨.refused reason, rfl⟩
  | exhausted => exact ⟨.exhausted, rfl⟩

end Traced

namespace Sequence

variable {σ τ ε : Type} [Sequence σ ε] [Sequence τ ε] {s : σ} {t : τ} {α : Type}

/-- Two sequences, perhaps of different kinds, hold the same elements in the same order. -/
def SameElements (s : σ) (t : τ) : Prop := toList s = toList t

/-- The same value in front of the same elements. -/
def SameRest (p : α × σ) (q : α × τ) : Prop := p.1 = q.1 ∧ SameElements p.2 q.2

variable [LawfulSequence σ ε] [LawfulSequence τ ε]

theorem SameElements.size_eq (h : SameElements s t) : size s = size t := by
  rw [LawfulSequence.size_eq_length, LawfulSequence.size_eq_length, h]

theorem SameElements.empty : SameElements (Sequence.empty : σ) (Sequence.empty : τ) := by
  rw [SameElements, LawfulSequence.toList_empty, LawfulSequence.toList_empty]

theorem SameElements.cons (h : SameElements s t) (x : ε) :
    SameElements (Sequence.cons x s) (Sequence.cons x t) := by
  rw [SameElements, LawfulSequence.toList_cons, LawfulSequence.toList_cons, h]

/-- Both sequences are empty, or both give the same first element. -/
theorem SameElements.uncons (h : SameElements s t) :
    (Sequence.uncons s = none ∧ Sequence.uncons t = none) ∨
      ∃ x s' t', Sequence.uncons s = some (x, s') ∧ Sequence.uncons t = some (x, t') ∧
        SameElements s' t' := by
  cases hs : Sequence.uncons s with
  | none =>
      left
      refine ⟨rfl, ?_⟩
      rw [uncons_eq_none_iff] at hs ⊢
      rw [← h, hs]
  | some p =>
      obtain ⟨x, s'⟩ := p
      cases ht : Sequence.uncons t with
      | none =>
          rw [uncons_eq_some_iff, h, uncons_eq_none_iff.1 ht] at hs
          cases hs
      | some p =>
          obtain ⟨y, t'⟩ := p
          rw [uncons_eq_some_iff, h, uncons_eq_some_iff.1 ht] at hs
          injection hs with hx hrest
          right
          exact ⟨x, s', t', rfl, by rw [hx], hrest.symm⟩

end Sequence

open Sequence

/-- Every rule reads from and writes in front of both kinds of sequence alike. -/
structure Meaning.Agree {σ τ ε : Type} [Sequence σ ε] [Sequence τ ε] {ρ : Type → Type}
    (m : Meaning ρ σ) (m' : Meaning ρ τ) : Prop where
  read : ∀ {α : Type} (rule : ρ α) {s : σ} {t : τ}, SameElements s t →
    (m.read rule s).Rel SameRest (m'.read rule t)
  write : ∀ {α : Type} (rule : ρ α) (x : α) {rest : σ} {rest' : τ}, SameElements rest rest' →
    (m.write rule x rest).Rel SameElements (m'.write rule x rest')

namespace Grammar

variable {σ τ ε : Type} [Sequence σ ε] [Sequence τ ε] {ρ : Type → Type} {α δ : Type}

/-- What goes on from related readings goes on from one value and from the same elements. -/
theorem bind_rel {κ β γ : Type} {q : β → γ → Prop} {o : Outcome κ (α × σ)} {o' : Outcome κ (α × τ)}
    {next : α × σ → Outcome κ β} {next' : α × τ → Outcome κ γ} (h : o.Rel SameRest o')
    (hn : ∀ x {rest rest'}, SameElements rest rest' → (next (x, rest)).Rel q (next' (x, rest'))) :
    (o.bind next).Rel q (o'.bind next') := by
  refine h.bind fun p p' related => ?_
  obtain ⟨x, rest⟩ := p
  obtain ⟨y, rest'⟩ := p'
  obtain ⟨rfl, hrest⟩ := related
  exact hn x hrest

/-- A prism takes the same part off both kinds of sequence and puts the same elements on both. -/
structure AgreesOn (σ τ : Type) [Sequence σ ε] [Sequence τ ε] (prism : FrontPrism ε α) : Prop where
  preview : ∀ {s : σ} {t : τ}, SameElements s t →
    (Outcome.ofOption ((prism σ).preview s)).Rel SameRest (.ofOption ((prism τ).preview t))
  review : ∀ {rest : σ} {rest' : τ}, SameElements rest rest' → ∀ x,
    SameElements ((prism σ).review (x, rest)) ((prism τ).review (x, rest'))

variable {item : σ → Reading α σ} {item' : τ → Reading α τ}

theorem readMany_rel
    (h : ∀ {s t}, SameElements s t → (item s).Rel SameRest (item' t)) (bound : Nat)
    (found : List α) {s : σ} {t : τ} (hs : SameElements s t) :
    (readMany item bound found s).Rel SameRest (readMany item' bound found t) := by
  induction bound generalizing found s t with
  | zero =>
      rw [readMany, readMany]
      have step := h hs
      generalize item s = o at step
      generalize item' t = o' at step
      cases step with
      | done _ | exhausted => exact .exhausted
      | refused _ => exact .done ⟨rfl, hs⟩
  | succ bound ih =>
      rw [readMany, readMany]
      have step := h hs
      generalize item s = o at step
      generalize item' t = o' at step
      cases step with
      | @done p p' related =>
          obtain ⟨x, rest⟩ := p
          obtain ⟨y, rest'⟩ := p'
          obtain ⟨rfl, hrest⟩ := related
          exact ih (x :: found) hrest
      | refused _ => exact .done ⟨rfl, hs⟩
      | exhausted => exact .exhausted

theorem readCount_rel
    (h : ∀ {s t}, SameElements s t → (item s).Rel SameRest (item' t)) (count : Nat)
    (found : List α) {s : σ} {t : τ} (hs : SameElements s t) :
    (readCount item count found s).Rel SameRest (readCount item' count found t) := by
  induction count generalizing found s t with
  | zero => exact .done ⟨rfl, hs⟩
  | succ count ih =>
      rw [readCount_succ, readCount_succ]
      exact bind_rel (h hs) fun x _ _ hrest => ih (x :: found) hrest

theorem writeEach_rel {item : α → σ → Writing σ} {item' : α → τ → Writing τ}
    (h : ∀ x {s t}, SameElements s t → (item x s).Rel SameElements (item' x t)) (xs : List α)
    {rest : σ} {rest' : τ} (hrest : SameElements rest rest') :
    (writeEach item xs rest).Rel SameElements (writeEach item' xs rest') := by
  induction xs with
  | nil => exact .done hrest
  | cons x xs ih => exact ih.andThen fun _ _ => h x

theorem readsBackAs_rel [BEq δ] [BEq α] {readDriver : σ → Reading δ σ}
    {readDriver' : τ → Reading δ τ} {readValue : δ → σ → Reading α σ}
    {readValue' : δ → τ → Reading α τ}
    (hd : ∀ {s t}, SameElements s t → (readDriver s).Rel SameRest (readDriver' t))
    (hv : ∀ d {s t}, SameElements s t → (readValue d s).Rel SameRest (readValue' d t))
    (d : δ) (x : α) {output : σ} {output' : τ} (h : SameElements output output') :
    readsBackAs readDriver readValue d x output =
      readsBackAs readDriver' readValue' d x output' := by
  refine (bind_rel (hd h) fun found _ _ hmid => ?_).eq
  refine (Outcome.Rel.refl _).bind fun _ _ _ => ?_
  exact bind_rel (hv found hmid) fun _ _ _ _ => .refl _

variable [LawfulSequence σ ε] [LawfulSequence τ ε]

theorem agreesOn_uncons : AgreesOn σ τ (fun _ => .uncons : FrontPrism ε ε) where
  preview h := by
    rw [Prism.preview_uncons, Prism.preview_uncons]
    obtain ⟨hs, ht⟩ | ⟨x, s', t', hs, ht, hrest⟩ := h.uncons
    · rw [hs, ht]
      exact .refused ()
    · rw [hs, ht]
      exact .done ⟨rfl, hrest⟩
  review h x := h.cons x

variable {m : Meaning ρ σ} {m' : Meaning ρ τ}

theorem read_rel (hm : m.Agree m') {g : Grammar ε ρ α} (hg : g.Prisms (AgreesOn σ τ)) {s : σ}
    {t : τ} (h : SameElements s t) : (g.read m s).Rel SameRest (g.read m' t) := by
  induction g generalizing s t with
  | element => exact agreesOn_uncons.preview h
  | fromPrism prism => exact hg.preview h
  | success value => exact .done ⟨rfl, h⟩
  | failure => exact .refused ()
  | eof =>
      rw [read_eof, read_eof]
      obtain ⟨hs, ht⟩ | ⟨x, s', t', hs, ht, -⟩ := h.uncons
      · rw [hs, ht]
        exact .done ⟨rfl, .empty⟩
      · rw [hs, ht]
        exact .refused ()
  | satisfy accepts =>
      rw [read_satisfy, read_satisfy]
      obtain ⟨hs, ht⟩ | ⟨x, s', t', hs, ht, hrest⟩ := h.uncons
      · rw [hs, ht]
        exact .refused ()
      · rw [hs, ht]
        cases hx : accepts x with
        | true => simpa [hx] using Outcome.Rel.done (κ := Unit) ⟨rfl, hrest⟩
        | false => simpa [hx] using Outcome.Rel.refused (r := SameRest) ()
  | both first second ihf ihs =>
      refine bind_rel (ihf hg.1 h) fun x _ _ hmid => ?_
      exact (ihs hg.2 hmid).map fun q q' after => ⟨congrArg (Prod.mk x) after.1, after.2⟩
  | choose first second ihf ihs =>
      refine ((ihf hg.1 h).map fun p p' related => ?_).orElse
        ((ihs hg.2 h).map fun p p' related => ?_)
      · exact ⟨congrArg Sum.inl related.1, related.2⟩
      · exact ⟨congrArg Sum.inr related.1, related.2⟩
  | many item ih =>
      rw [read_many, read_many, h.size_eq]
      exact readMany_rel (ih hg) _ [] h
  | replicate count item ih => exact readCount_rel (ih hg) count [] h
  | adapt prism inner ih =>
      refine bind_rel (ih hg h) fun x _ _ hrest => ?_
      rw [Prism.preview_onFirst, Prism.preview_onFirst]
      cases prism.preview x with
      | none => exact .refused ()
      | some z => exact .done ⟨rfl, hrest⟩
  | bind driver continuation driverOf ihd ihc
  | bindChecked driver continuation driverOf ihd ihc =>
      exact bind_rel (ihd hg.1 h) fun d _ _ hmid => ihc d (hg.2 d) hmid
  | call rule => exact hm.read rule h

theorem write_rel (hm : m.Agree m') {g : Grammar ε ρ α} (hg : g.Prisms (AgreesOn σ τ)) (x : α)
    {rest : σ} {rest' : τ} (h : SameElements rest rest') :
    (g.write m x rest).Rel SameElements (g.write m' x rest') := by
  induction g generalizing rest rest' with
  | element => exact .done (h.cons x)
  | fromPrism prism => exact .done (hg.review h x)
  | success _ | eof => exact .done h
  | failure => exact .refused _
  | satisfy accepts =>
      rw [write_satisfy, write_satisfy]
      cases accepts x
      · exact .refused _
      · exact .done (h.cons x)
  | both first second ihf ihs => exact (ihs hg.2 x.2 h).andThen fun _ _ => ihf hg.1 x.1
  | choose first second ihf ihs =>
      cases x with
      | inl x => exact ihf hg.1 x h
      | inr y => exact ihs hg.2 y h
  | many item ih => exact writeEach_rel (ih hg) x h
  | replicate count item ih =>
      rw [write_replicate, write_replicate]
      split
      · exact writeEach_rel (ih hg) x h
      · exact .refused _
  | adapt prism inner ih => exact ih hg (prism.review x) h
  | bind driver continuation driverOf ihd ihc =>
      exact (ihc _ (hg.2 _) x h).andThen fun _ _ => ihd hg.1 (driverOf x)
  | bindChecked driver continuation driverOf ihd ihc =>
      -- The check reads the outputs, which hold the same elements, so it ends alike on both.
      rw [write_bindChecked, write_bindChecked]
      refine ((ihc _ (hg.2 _) x h).andThen fun _ _ => ihd hg.1 (driverOf x)).andThen
        fun output output' same => ?_
      have check := readsBackAs_rel (read_rel hm hg.1) (fun d => read_rel hm (hg.2 d)) (driverOf x)
        x same
      rw [check]
      cases readsBackAs (driver.read m') (fun d => (continuation d).read m') (driverOf x) x
          output' with
      | done _ => exact .done same
      | refused _ => exact ⟨.refused _, rfl⟩
      | exhausted => exact ⟨.exhausted, rfl⟩
  | call rule => exact hm.write rule x h

theorem Rules.meaning_agree {rules : Rules ε ρ}
    (table : ∀ {β : Type} (rule : ρ β), (rules.definition rule).Prisms (AgreesOn σ τ))
    (depth : Nat) :
    (rules.meaning depth : Meaning ρ σ).Agree (rules.meaning depth : Meaning ρ τ) := by
  induction depth with
  | zero => exact ⟨fun _ _ _ _ => .exhausted, fun _ _ _ _ _ => ⟨.exhausted, rfl⟩⟩
  | succ depth ih =>
      refine ⟨fun rule _ _ => ?_, fun rule x _ _ => ?_⟩
      · exact read_rel ih (table rule)
      · exact write_rel ih (table rule) x

/-- On two sequences that hold the same elements, in containers of any two kinds, a format reads the
same value and leaves the same elements behind, or fails on both; and it writes outputs with the
same elements, or fails with the same error. -/
theorem answers_agree_on_containers (rules : Rules ε ρ)
    (table : ∀ {β : Type} (rule : ρ β), (rules.definition rule).Prisms (AgreesOn σ τ))
    {g : Grammar ε ρ α} (prisms : g.Prisms (AgreesOn σ τ)) (depth : Nat) :
    (∀ (s : σ) (t : τ), toList s = toList t →
      (g.read (rules.meaning depth) s).map (fun (x, rest) => (x, toList rest)) =
        (g.read (rules.meaning depth) t).map fun (x, rest) => (x, toList rest)) ∧
    ∀ (x : α) (rest : σ) (rest' : τ), toList rest = toList rest' →
      (g.write (rules.meaning depth) x rest).outcome.map toList =
        (g.write (rules.meaning depth) x rest').outcome.map toList ∧
      (g.write (rules.meaning depth) x rest).events =
        (g.write (rules.meaning depth) x rest').events := by
  have agree : (rules.meaning depth : Meaning ρ σ).Agree (rules.meaning depth : Meaning ρ τ) :=
    Rules.meaning_agree table depth
  refine ⟨fun s t same => ?_, fun x rest rest' same => ?_⟩
  · refine (read_rel agree prisms same).map_eq fun p p' related => ?_
    exact Prod.ext related.1 related.2
  · have run := write_rel agree prisms x same
    exact ⟨run.outcome.map_eq fun _ _ => id, run.events⟩

/-- Text of wide characters as a string and as a shared list: a nesting and pairs of equal
characters, each written pair read back. -/
theorem answers_agree_on_wide_text :
    let g : Grammar Char Nesting.Rule (Nat × List Char) :=
      both (call .level) (many (bindChecked uncons symbol id))
    let shared (cs : List Char) : {list : SharedList Char // list.Sound} := Sequence.ofList cs
    (∀ {β : Type} (rule : Nesting.Rule β), (Nesting.rules.definition rule).Prisms
      (AgreesOn String {list : SharedList Char // list.Sound})) ∧
    g.Prisms (AgreesOn String {list : SharedList Char // list.Sound}) ∧
    toList "(.)ññé" = toList (shared ['(', '.', ')', 'ñ', 'ñ', 'é']) ∧
    toList "é" = toList (shared ['é']) ∧
    g.read (Nesting.rules.meaning 2) "(.)ññé" = .done ((1, ['ñ']), "é") ∧
    (g.read (Nesting.rules.meaning 2) "(.)ññé").map (fun (x, rest) => (x, toList rest)) =
      (g.read (Nesting.rules.meaning 2) (shared ['(', '.', ')', 'ñ', 'ñ', 'é'])).map
        (fun (x, rest) => (x, toList rest)) ∧
    (g.write (Nesting.rules.meaning 2) (1, ['ñ']) "é").outcome.map toList =
      (g.write (Nesting.rules.meaning 2) (1, ['ñ']) (shared ['é'])).outcome.map toList := by
  intro g shared
  have table : ∀ {β : Type} (rule : Nesting.Rule β), (Nesting.rules.definition rule).Prisms
      (AgreesOn String {list : SharedList Char // list.Sound}) := by
    intro β rule
    cases rule
    exact ⟨⟨trivial, trivial, trivial⟩, trivial⟩
  have prisms : g.Prisms (AgreesOn String {list : SharedList Char // list.Sound}) :=
    ⟨trivial, agreesOn_uncons, fun _ => trivial⟩
  have input : toList "(.)ññé" = toList (shared ['(', '.', ')', 'ñ', 'ñ', 'é']) := by
    rw [LawfulSequence.toList_ofList]
    rfl
  have rest : toList "é" = toList (shared ['é']) := by
    rw [LawfulSequence.toList_ofList]
    rfl
  obtain ⟨reads, writes⟩ := answers_agree_on_containers Nesting.rules table prisms 2
  exact ⟨table, prisms, input, rest, by decide +kernel, reads _ _ input, (writes _ _ _ rest).1⟩

end Grammar
end TwoWay
