import TwoWay.Format.Nesting
import TwoWay.Proofs.Runs
import TwoWay.Proofs.Text

/-!
Which writings read back. A writing is safe if every part of it is safe at the sequence it is
written in front of: a repetition must not go on into that sequence, an alternative must not be
taken by the one tried before it, an end must be at the end, and a prism must find what it built.
Reading then retraces a safe writing from left to right and leaves the same rest behind.
-/

namespace TwoWay
namespace Grammar

variable {σ ε : Type} [Sequence σ ε] {ρ : Type → Type}

/-- The conditions under which writing a value in front of a rest can be undone, followed along
the writing from the last part to the first. -/
inductive Rules.Safe (rules : Rules ε ρ) : {α : Type} → Grammar ε ρ α → α → σ → Prop
  | element {x : ε} {rest : σ} : Safe rules element x rest
  | uncons {x : ε} {rest : σ} : Safe rules uncons x rest
  | satisfy {accepts : ε → Bool} {x : ε} {rest : σ} : Safe rules (satisfy accepts) x rest
  | failure {α : Type} {x : α} {rest : σ} : Safe rules failure x rest
  | success {α : Type} {x : α} {rest : σ} : Safe rules (success x) x rest
  | eof : Safe rules eof () Sequence.empty
  | both {α β : Type} {first : Grammar ε ρ α} {second : Grammar ε ρ β} {x : α} {y : β} {rest : σ}
      (hy : Safe rules second y rest)
      (hx : ∀ mid, rules.Writes second y rest mid → Safe rules first x mid) :
      Safe rules (both first second) (x, y) rest
  | choose_inl {α β : Type} {first : Grammar ε ρ α} {second : Grammar ε ρ β} {x : α} {rest : σ}
      (hx : Safe rules first x rest) : Safe rules (choose first second) (.inl x) rest
  | choose_inr {α β : Type} {first : Grammar ε ρ α} {second : Grammar ε ρ β} {y : β} {rest : σ}
      (hy : Safe rules second y rest)
      (skipped : ∀ out, rules.Writes second y rest out → rules.Refuses first out) :
      Safe rules (choose first second) (.inr y) rest
  | many_nil {α : Type} {item : Grammar ε ρ α} {rest : σ} (stop : rules.Refuses item rest) :
      Safe rules (many item) [] rest
  | many_cons {α : Type} {item : Grammar ε ρ α} {x : α} {xs : List α} {rest : σ}
      (hxs : Safe rules (many item) xs rest)
      (hx : ∀ mid, rules.Writes (many item) xs rest mid → Safe rules item x mid) :
      Safe rules (many item) (x :: xs) rest
  | replicate_nil {α : Type} {item : Grammar ε ρ α} {rest : σ} :
      Safe rules (replicate 0 item) [] rest
  | replicate_cons {α : Type} {count : Nat} {item : Grammar ε ρ α} {x : α} {xs : List α} {rest : σ}
      (hxs : Safe rules (replicate count item) xs rest)
      (hx : ∀ mid, rules.Writes (replicate count item) xs rest mid → Safe rules item x mid) :
      Safe rules (replicate (count + 1) item) (x :: xs) rest
  | adapt {α β : Type} {prism : Prism α β} {inner : Grammar ε ρ α} {y : β} {rest : σ}
      (found : prism.preview (prism.review y) = some y)
      (hx : Safe rules inner (prism.review y) rest) : Safe rules (adapt prism inner) y rest
  | bind {δ α : Type} {driver : Grammar ε ρ δ} {continuation : δ → Grammar ε ρ α} {driverOf : α → δ}
      {x : α} {rest : σ} (hx : Safe rules (continuation (driverOf x)) x rest)
      (hd : ∀ mid, rules.Writes (continuation (driverOf x)) x rest mid →
        Safe rules driver (driverOf x) mid) :
      Safe rules (bind driver continuation driverOf) x rest
  | bindChecked {δ α : Type} [BEq δ] [BEq α] {driver : Grammar ε ρ δ}
      {continuation : δ → Grammar ε ρ α} {driverOf : α → δ} {x : α} {rest : σ}
      (hb : Safe rules (bind driver continuation driverOf) x rest) :
      Safe rules (bindChecked driver continuation driverOf) x rest
  | call {α : Type} {rule : ρ α} {x : α} {rest : σ}
      (hx : Safe rules (rules.definition rule) x rest) : Safe rules (call rule) x rest

namespace Rules

variable {rules : Rules ε ρ} {α β : Type} {rest out : σ} [LawfulSequence σ ε]

/-- A safe writing only puts elements in front. -/
theorem Safe.suffix {g : Grammar ε ρ α} {x : α} (safe : rules.Safe g x rest)
    (written : rules.Writes g x rest out) : Sequence.toList rest <:+ Sequence.toList out := by
  induction safe generalizing out with
  | element =>
      rw [written.element, LawfulSequence.toList_cons]
      exact List.suffix_cons _ _
  | uncons =>
      rw [written.uncons, LawfulSequence.toList_cons]
      exact List.suffix_cons _ _
  | satisfy =>
      rw [written.satisfy.2, LawfulSequence.toList_cons]
      exact List.suffix_cons _ _
  | failure => exact absurd written not_writes_failure
  | success =>
      obtain rfl := written.success
      exact List.suffix_refl _
  | eof =>
      obtain rfl := written.eof
      exact List.suffix_refl _
  | many_nil _ =>
      obtain rfl := written.many_nil
      exact List.suffix_refl _
  | replicate_nil =>
      obtain rfl := written.replicate_nil
      exact List.suffix_refl _
  | both _ _ ihy ihx =>
      obtain ⟨mid, hy, hx⟩ := written.both
      exact (ihy hy).trans (ihx mid hy hx)
  | choose_inl _ ih => exact ih written
  | choose_inr _ _ ih => exact ih written
  | many_cons _ _ ihxs ihx =>
      obtain ⟨mid, hxs, hx⟩ := written.many_cons
      exact (ihxs hxs).trans (ihx mid hxs hx)
  | replicate_cons _ _ ihxs ihx =>
      obtain ⟨mid, hxs, hx⟩ := written.replicate_cons
      exact (ihxs hxs).trans (ihx mid hxs hx)
  | adapt _ _ ih => exact ih written
  | bind _ _ ihx ihd =>
      obtain ⟨mid, hx, hd⟩ := written.bind
      exact (ihx hx).trans (ihd mid hx hd)
  | bindChecked _ ih => exact ih written.bindChecked
  | call _ ih => exact ih written.call

/-- Reading retraces a safe writing. -/
theorem Safe.reads {g : Grammar ε ρ α} {x : α} (safe : rules.Safe g x rest)
    (written : rules.Writes g x rest out) : rules.Reads g out x rest := by
  induction safe generalizing out with
  | element =>
      rw [written.element]
      exact .element (Sequence.uncons_cons _ _)
  | uncons =>
      rw [written.uncons]
      exact .uncons (Sequence.uncons_cons _ _)
  | satisfy =>
      obtain ⟨hx, rfl⟩ := written.satisfy
      exact .satisfy (Sequence.uncons_cons _ _) hx
  | failure => exact absurd written not_writes_failure
  | success => rw [written.success]; exact .success _ _
  | eof => rw [written.eof]; exact .eof
  | both _ _ ihy ihx =>
      obtain ⟨mid, hy, hx⟩ := written.both
      exact (ihx mid hy hx).both (ihy hy)
  | choose_inl _ ih => exact (ih written).choose_inl
  | choose_inr _ skipped ih => exact .choose_inr (skipped _ written) (ih written)
  | many_nil stop => rw [written.many_nil]; exact .many_nil stop
  | @many_cons _ item x xs rest hxs hx ihxs ihx =>
      obtain ⟨mid, wxs, wx⟩ := written.many_cons
      have first := ihx mid wxs wx
      have others := ihxs wxs
      have behind := (hx mid wxs).suffix wx
      -- An item that wrote nothing would be read over and over and never reach the rest.
      have longer : Sequence.size mid < Sequence.size out := by
        rw [LawfulSequence.size_eq_length, LawfulSequence.size_eq_length]
        refine Nat.lt_of_le_of_ne behind.length_le fun same => ?_
        have idle := LawfulSequence.toList_injective (behind.eq_of_length same)
        subst idle
        exact others.many_not_idle first
      exact first.many_cons longer others
  | replicate_nil => rw [written.replicate_nil]; exact .replicate_zero _ _
  | replicate_cons _ _ ihxs ihx =>
      obtain ⟨mid, hxs, hx⟩ := written.replicate_cons
      exact (ihx mid hxs hx).replicate_succ (ihxs hxs)
  | adapt found _ ih => exact (ih written).adapt found
  | bind _ _ ihx ihd =>
      obtain ⟨mid, hx, hd⟩ := written.bind
      exact (ihd mid hx hd).bind (ihx hx)
  | bindChecked _ ih => exact (ih written.bindChecked).bindChecked
  | call _ ih => exact (ih written.call).call

/-! The conditions of the derived forms. -/

omit [LawfulSequence σ ε]

theorem Safe.seqRight {left : Grammar ε ρ Unit} {right : Grammar ε ρ α} {x : α}
    (hx : rules.Safe right x rest)
    (hl : ∀ mid, rules.Writes right x rest mid → rules.Safe left () mid) :
    rules.Safe (seqRight left right) x rest :=
  .adapt rfl (.both hx hl)

theorem Safe.seqLeft {left : Grammar ε ρ α} {right : Grammar ε ρ Unit} {x : α}
    (hr : rules.Safe right () rest)
    (hx : ∀ mid, rules.Writes right () rest mid → rules.Safe left x mid) :
    rules.Safe (seqLeft left right) x rest :=
  .adapt rfl (.both hr hx)

theorem Safe.matching {inner : Grammar ε ρ α} {value : α} (hx : rules.Safe inner value rest) :
    rules.Safe (matching inner value) () rest :=
  .adapt rfl hx

theorem Safe.literal [BEq ε] {expected : ε} :
    rules.Safe (literal expected) () rest :=
  .matching .satisfy

theorem Safe.opt_some {inner : Grammar ε ρ α} {x : α} (hx : rules.Safe inner x rest) :
    rules.Safe (opt inner) (some x) rest :=
  .adapt rfl (.choose_inl hx)

theorem Safe.opt_none {inner : Grammar ε ρ α} (skipped : rules.Refuses inner rest) :
    rules.Safe (opt inner) none rest := by
  refine .adapt rfl (.choose_inr .success fun out written => ?_)
  rwa [written.success]

theorem Safe.withDefault_of_ne [BEq α] {default x : α} {inner : Grammar ε ρ α}
    (hne : x != default) (hx : rules.Safe inner x rest) :
    rules.Safe (withDefault default inner) x rest := by
  have tag : (Prism.ofIso (.content fun y => y != default)).review x = .inl x := if_pos hne
  refine .adapt ?_ ?_
  · rw [tag]
    rfl
  · rw [tag]
    exact .choose_inl hx

/-- The default is left out if it is equal to itself, and then the part must not be read in its
place. -/
theorem Safe.withDefault_default [BEq α] {default : α} {inner : Grammar ε ρ α}
    (same : default == default) (skipped : rules.Refuses inner rest) :
    rules.Safe (withDefault default inner) default rest := by
  have tag : (Prism.ofIso (.content fun y => y != default)).review default = .inr default :=
    if_neg (by simp [bne, same])
  refine .adapt ?_ ?_
  · rw [tag]
    rfl
  · rw [tag]
    refine .choose_inr .success fun out written => ?_
    rwa [written.success]

theorem Safe.many1 {item : Grammar ε ρ α} {x : α} {xs : List α}
    (hxs : rules.Safe (many item) xs rest)
    (hx : ∀ mid, rules.Writes (many item) xs rest mid → rules.Safe item x mid) :
    rules.Safe (many1 item) ⟨x, xs⟩ rest :=
  .adapt rfl (.both hxs hx)

variable [LawfulSequence σ ε]

theorem Safe.many_satisfy {accepts : ε → Bool}
    (stop : ∀ x ∈ (Sequence.toList rest).head?, accepts x = false) (xs : List ε) :
    rules.Safe (many (Grammar.satisfy accepts)) xs rest := by
  induction xs with
  | nil => exact .many_nil ⟨0, read_satisfy_eq_refused_iff.2 stop⟩
  | cons x xs ih => exact .many_cons ih fun _ _ => .satisfy

/-- An integer only needs that no further digit follows it. -/
theorem Safe.integer {σ : Type} [Sequence σ Char] [LawfulSequence σ Char] {rules : Rules Char ρ}
    (n : Int64) {rest : σ} (stop : NoDigitAhead rest) : rules.Safe integer n rest := by
  have digits : ∀ c ∈ Nat.toDigits 10 n.toInt.natAbs, c.isDigit = true := Decimal.isDigit_toDigits
  refine .adapt (preview_review_numeral n) ?_
  rw [review_numeral]
  refine .both (.many_satisfy stop _) fun mid written => ?_
  obtain ⟨depth, hw⟩ := written
  rw [digit, write_many_satisfy digits] at hw
  cases hw
  by_cases negative : n.toInt < 0
  · rw [if_pos negative]
    exact .opt_some .satisfy
  · rw [if_neg negative]
    exact .opt_none ⟨0, read_minus_eq_refused Nat.toDigits_ne_nil digits⟩

end Rules

/-- A safe writing is undone by reading, for recursive formats too; and writing an integer is safe
as soon as no digit follows it. -/
theorem safe_writing_reads_back (rules : Rules ε ρ) [LawfulSequence σ ε] :
    (∀ {α : Type} (g : Grammar ε ρ α) (x : α) (rest out : σ), rules.Writes g x rest out →
      rules.Safe g x rest → rules.Reads g out x rest) ∧
    ∀ {τ : Type} [Sequence τ Char] [LawfulSequence τ Char] (rules : Rules Char ρ) (n : Int64)
      (rest : τ), NoDigitAhead rest → rules.Safe integer n rest :=
  ⟨fun _ _ _ _ written safe => safe.reads written, fun _ n _ stop => .integer n stop⟩

/-- Nested parentheses are safe at every depth and in front of everything. -/
theorem nesting_safe (n : Nat) (rest : List Char) : Nesting.rules.Safe Nesting.level n rest := by
  induction n generalizing rest with
  | zero =>
      refine .adapt rfl (.choose_inr .literal fun out written => ?_)
      obtain ⟨depth, hw⟩ := written
      cases hw
      exact ⟨0, rfl⟩
  | succ n ih =>
      refine .adapt rfl (.choose_inl (.seqRight (.seqLeft .literal fun _ _ => ?_) ?_))
      · exact .call (ih _)
      · exact fun _ _ => .literal

theorem nesting_reads_back :
    Nesting.rules.Writes Nesting.level 2 ['!'] ['(', '(', '.', ')', ')', '!'] ∧
    Nesting.rules.Safe Nesting.level 2 ['!'] ∧
    Nesting.rules.Reads Nesting.level ['(', '(', '.', ')', ')', '!'] 2 ['!'] := by
  have written : Nesting.rules.Writes Nesting.level 2 ['!'] ['(', '(', '.', ')', ')', '!'] :=
    ⟨2, by decide⟩
  have safe := nesting_safe 2 ['!']
  exact ⟨written, safe, (safe_writing_reads_back Nesting.rules).1 _ _ _ _ written safe⟩

end Grammar
end TwoWay
