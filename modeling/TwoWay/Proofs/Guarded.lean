import TwoWay.Format.Nesting
import TwoWay.Proofs.Leftover
import TwoWay.Proofs.Progress

/-!
Recursive formats whose readings come to an end. A part is consuming if whatever it reads leaves a
shorter sequence behind. A call of a rule is exposed if it may be made before anything is consumed;
behind a consuming part it is guarded. If every repetition is one of a consuming part and exposed
calls do not go on for ever, then every reading ends: the sequence gets shorter with every guarded
call, and on sequences of one size the exposed calls run out.
-/

namespace TwoWay
namespace Grammar

open Sequence

variable {σ ε : Type} [Sequence σ ε] {ρ : Type → Type} {α β δ : Type}

namespace Rules

/-- Nothing is read without leaving a shorter sequence behind, at whatever depth of calls. -/
structure Consumes (rules : Rules ε ρ) (σ : Type) [Sequence σ ε] (g : Grammar ε ρ α) : Prop where
  shorter : ∀ {s rest : σ} {x : α}, rules.Reads g s x rest → size rest < size s

/-- The grammar may call the rule before anything is consumed. -/
def Exposes (rules : Rules ε ρ) (σ : Type) [Sequence σ ε] :
    {α : Type} → Grammar ε ρ α → Sigma ρ → Prop
  | _, element, _ | _, fromPrism _, _ | _, success _, _ | _, failure, _ | _, eof, _
  | _, satisfy _, _ => False
  | _, both first second, rule =>
    rules.Exposes σ first rule ∨ ¬ rules.Consumes σ first ∧ rules.Exposes σ second rule
  | _, choose first second, rule => rules.Exposes σ first rule ∨ rules.Exposes σ second rule
  | _, many item, rule | _, replicate _ item, rule => rules.Exposes σ item rule
  | _, adapt _ inner, rule => rules.Exposes σ inner rule
  | _, bind driver continuation _, rule | _, bindChecked driver continuation _, rule =>
    rules.Exposes σ driver rule ∨
      ¬ rules.Consumes σ driver ∧ ∃ d, rules.Exposes σ (continuation d) rule
  | _, call called, rule => rule = ⟨_, called⟩

/-- What a grammar repeats is consuming. -/
def RepeatsConsume (rules : Rules ε ρ) (σ : Type) [Sequence σ ε] :
    {α : Type} → Grammar ε ρ α → Prop
  | _, element | _, fromPrism _ | _, success _ | _, failure | _, eof | _, satisfy _ | _, call _ =>
    True
  | _, both first second | _, choose first second =>
    rules.RepeatsConsume σ first ∧ rules.RepeatsConsume σ second
  | _, many item => rules.RepeatsConsume σ item ∧ rules.Consumes σ item
  | _, replicate _ item => rules.RepeatsConsume σ item
  | _, adapt _ inner => rules.RepeatsConsume σ inner
  | _, bind driver continuation _ | _, bindChecked driver continuation _ =>
    rules.RepeatsConsume σ driver ∧ ∀ d, rules.RepeatsConsume σ (continuation d)

/-- Every repetition is one of a consuming part, and a rule that leads back to itself does so
behind a consuming part: from no rule does a row of exposed calls go on for ever. -/
structure WellGuarded (rules : Rules ε ρ) (σ : Type) [Sequence σ ε] : Prop where
  repeats : ∀ {α : Type} (rule : ρ α), rules.RepeatsConsume σ (rules.definition rule)
  takesOff : ∀ {α : Type} (rule : ρ α), (rules.definition rule).Prisms (TakesOff σ)
  guarded : WellFounded fun called caller : Sigma ρ =>
    rules.Exposes σ (rules.definition caller.2) called

variable {rules : Rules ε ρ} {s mid rest : σ}

theorem Consumes.consuming {g : Grammar ε ρ α} (h : rules.Consumes σ g) (depth : Nat) :
    Consuming (σ := σ) (g.read (rules.meaning depth)) := by
  intro s x rest hx
  exact h.shorter ⟨depth, hx⟩

theorem Consumes.adapt {prism : Prism α β} {inner : Grammar ε ρ α}
    (h : rules.Consumes σ inner) : rules.Consumes σ (adapt prism inner) where
  shorter hx := by
    obtain ⟨depth, hd⟩ := hx
    obtain ⟨y, hy, -⟩ := read_adapt_eq_done_iff.1 hd
    exact h.shorter ⟨depth, hy⟩

theorem Consumes.choose {first : Grammar ε ρ α} {second : Grammar ε ρ β}
    (h : rules.Consumes σ first) (h' : rules.Consumes σ second) :
    rules.Consumes σ (choose first second) where
  shorter {s rest x} hx := by
    obtain ⟨depth, hd⟩ := hx
    cases x with
    | inl x => exact h.shorter ⟨depth, read_choose_inl_eq_done_iff.1 hd⟩
    | inr y => exact h'.shorter ⟨depth, (read_choose_inr_eq_done_iff.1 hd).2⟩

theorem Consumes.call {rule : ρ α} (h : rules.Consumes σ (rules.definition rule)) :
    rules.Consumes σ (call rule) where
  shorter hx := by
    obtain ⟨_ | depth, hd⟩ := hx
    · cases hd
    · exact h.shorter ⟨depth, hd⟩

/-- The reading of a sequence comes to an end at some depth of calls. -/
def Ends (rules : Rules ε ρ) (g : Grammar ε ρ α) (s : σ) : Prop :=
  ∃ depth, g.read (rules.meaning depth) s ≠ .exhausted

/-- A run ends at some depth and at every greater one. -/
def Settles {κ : Type} (run : Nat → Outcome κ α) : Prop :=
  ∃ depth, ∀ greater, depth ≤ greater → run greater ≠ .exhausted

theorem Settles.ends {g : Grammar ε ρ α}
    (h : Settles fun depth => g.read (rules.meaning depth) s) : rules.Ends g s := by
  obtain ⟨depth, hd⟩ := h
  exact ⟨depth, hd depth (Nat.le_refl depth)⟩

theorem Ends.settles {g : Grammar ε ρ α} (h : rules.Ends g s) :
    Settles fun depth => g.read (rules.meaning depth) s := by
  obtain ⟨depth, hd⟩ := h
  refine ⟨depth, fun greater hle => ?_⟩
  have same := read_of_le hle rfl hd
  simpa only [same] using hd

theorem Ends.reads_or_refuses {g : Grammar ε ρ α} (h : rules.Ends g s) :
    (∃ x rest, rules.Reads g s x rest) ∨ rules.Refuses g s := by
  obtain ⟨depth, hd⟩ := h
  cases hs : g.read (rules.meaning depth) s with
  | done p => exact .inl ⟨p.1, p.2, depth, hs⟩
  | refused _ => exact .inr ⟨depth, hs⟩
  | exhausted => exact absurd hs hd

theorem Reads.ends {g : Grammar ε ρ α} {x : α} (h : rules.Reads g s x rest) : rules.Ends g s := by
  obtain ⟨depth, hd⟩ := h
  exact ⟨depth, by rw [hd]; simp⟩

/-- What goes on from a reading settles if it does from the value that is read, if there is one. -/
theorem Ends.bind_settles {g : Grammar ε ρ α} {next : Nat → α × σ → Reading β σ}
    (h : rules.Ends g s)
    (hn : ∀ x rest, rules.Reads g s x rest → Settles fun depth => next depth (x, rest)) :
    Settles fun depth => (g.read (rules.meaning depth) s).bind (next depth) := by
  obtain ⟨depth, hd⟩ := h
  cases hs : g.read (rules.meaning depth) s with
  | done p =>
      obtain ⟨x, rest⟩ := p
      obtain ⟨depth', hd'⟩ := hn x rest ⟨depth, hs⟩
      refine ⟨max depth depth', fun greater hle => ?_⟩
      have same := read_of_le (Nat.le_trans (Nat.le_max_left depth depth') hle) hs (by simp)
      have behind := hd' greater (Nat.le_trans (Nat.le_max_right depth depth') hle)
      simpa only [same, Outcome.done_bind] using behind
  | refused reason =>
      refine ⟨depth, fun greater hle => ?_⟩
      have same := read_of_le hle hs (by simp)
      simp [same]
  | exhausted => exact absurd hs hd

theorem Ends.both {first : Grammar ε ρ α} {second : Grammar ε ρ β} (h : rules.Ends first s)
    (h' : ∀ x mid, rules.Reads first s x mid → rules.Ends second mid) :
    rules.Ends (both first second) s := by
  refine Settles.ends (h.bind_settles fun x mid hx => ?_)
  obtain ⟨depth, hd⟩ := (h' x mid hx).settles
  exact ⟨depth, fun greater hle ends => hd greater hle (Outcome.map_eq_exhausted_iff.1 ends)⟩

theorem Ends.choose {first : Grammar ε ρ α} {second : Grammar ε ρ β} (h : rules.Ends first s)
    (h' : rules.Ends second s) : rules.Ends (choose first second) s := by
  obtain ⟨depth, hd⟩ := h.settles
  obtain ⟨depth', hd'⟩ := h'.settles
  refine ⟨max depth depth', ?_⟩
  rw [read_choose, ne_eq, Outcome.orElse_eq_exhausted_iff]
  rintro (hx | ⟨-, hy⟩)
  · exact hd _ (Nat.le_max_left depth depth') (Outcome.map_eq_exhausted_iff.1 hx)
  · exact hd' _ (Nat.le_max_right depth depth') (Outcome.map_eq_exhausted_iff.1 hy)

theorem Ends.adapt {prism : Prism α β} {inner : Grammar ε ρ α} (h : rules.Ends inner s) :
    rules.Ends (adapt prism inner) s :=
  Settles.ends (h.bind_settles fun _ _ _ => ⟨0, fun _ _ => Outcome.ofOption_ne_exhausted _⟩)

theorem Ends.bind {driver : Grammar ε ρ δ} {continuation : δ → Grammar ε ρ α} {driverOf : α → δ}
    (h : rules.Ends driver s)
    (h' : ∀ d mid, rules.Reads driver s d mid → rules.Ends (continuation d) mid) :
    rules.Ends (bind driver continuation driverOf) s :=
  Settles.ends (h.bind_settles fun d mid hd => (h' d mid hd).settles)

theorem Ends.call {rule : ρ α} (h : rules.Ends (rules.definition rule) s) :
    rules.Ends (call rule) s := by
  obtain ⟨depth, hd⟩ := h
  exact ⟨depth + 1, hd⟩

/-- Every sequence up to a size is read to the end. -/
def EndsUpTo (rules : Rules ε ρ) (σ : Type) [Sequence σ ε] (bound : Nat) (g : Grammar ε ρ α) :
    Prop :=
  ∀ s : σ, size s ≤ bound → rules.Ends g s

variable {bound : Nat}

theorem EndsUpTo.replicate {item : Grammar ε ρ α} (ends : rules.EndsUpTo σ bound item)
    (kept : ∀ {s rest : σ} {x}, rules.Reads item s x rest → size rest ≤ size s) (count : Nat) :
    rules.EndsUpTo σ bound (replicate count item) := by
  have settles : ∀ (found : List α) (s : σ), size s ≤ bound →
      Settles fun depth => readCount (item.read (rules.meaning depth)) count found s := by
    induction count with
    | zero => exact fun found s _ => ⟨0, fun _ _ => by simp [readCount]⟩
    | succ count ih =>
        intro found s hs
        simp only [readCount_succ]
        refine (ends s hs).bind_settles fun x rest hx => ?_
        exact ih (x :: found) rest (Nat.le_trans (kept hx) hs)
  exact fun s hs => Settles.ends (settles [] s hs)

/-- Reading a grammar over and over does not get to a sequence whose reading does not end. -/
structure EndsAlong (rules : Rules ε ρ) (g : Grammar ε ρ α) (s : σ) : Prop where
  ends : ∀ {count : Nat} {xs : List α} {rest : σ},
    rules.Reads (replicate count g) s xs rest → rules.Ends g rest

theorem EndsAlong.behind {g : Grammar ε ρ α} {x : α} (h : rules.EndsAlong g s)
    (hx : rules.Reads g s x mid) : rules.EndsAlong g mid where
  ends hxs := h.ends (hx.replicate_succ hxs)

/-- A repetition of a consuming part always reads a list. -/
theorem EndsAlong.reads_many {item : Grammar ε ρ α} (ends : rules.EndsAlong item s)
    (consumes : rules.Consumes σ item) : ∃ xs rest, rules.Reads (many item) s xs rest := by
  induction hn : size s using Nat.strongRecOn generalizing s with
  | _ n ih =>
      obtain ⟨x, mid, hx⟩ | refuses := (ends.ends (.replicate_zero item s)).reads_or_refuses
      · have shorter := consumes.shorter hx
        obtain ⟨xs, rest, hxs⟩ := ih (size mid) (by omega) (ends.behind hx) rfl
        exact ⟨x :: xs, rest, .many_cons hx shorter hxs⟩
      · exact ⟨[], s, .many_nil refuses⟩

theorem EndsUpTo.endsAlong {item : Grammar ε ρ α} (ends : rules.EndsUpTo σ bound item)
    (consumes : rules.Consumes σ item) (hs : size s ≤ bound) : rules.EndsAlong item s where
  ends {count xs rest} hxs := by
    obtain ⟨depth, hd⟩ := hxs
    obtain ⟨-, chain⟩ := read_replicate_eq_done_iff.1 hd
    have room := chain.length_add_size_le (consumes.consuming depth)
    exact ends rest (by omega)

/-- The calls that a grammar makes on sequences up to a size end: all of them on shorter sequences,
the exposed ones on those of that size too. -/
structure CallsEnd (rules : Rules ε ρ) (σ : Type) [Sequence σ ε] (bound : Nat)
    (g : Grammar ε ρ α) : Prop where
  shorter : ∀ less < bound, ∀ rule : Sigma ρ, rules.EndsUpTo σ less (call rule.2)
  exposed : ∀ rule : Sigma ρ, rules.Exposes σ g rule → rules.EndsUpTo σ bound (call rule.2)

/-- Behind a consuming part all calls are on shorter sequences; behind another part those that are
exposed there are exposed in the whole. -/
theorem ends_behind {first : Grammar ε ρ α} {second : Grammar ε ρ β} {x : α}
    (ih : ∀ {bound}, rules.CallsEnd σ bound second → rules.EndsUpTo σ bound second)
    (shorter : ∀ less < bound, ∀ rule : Sigma ρ, rules.EndsUpTo σ less (call rule.2))
    (exposed : ¬ rules.Consumes σ first → ∀ rule : Sigma ρ, rules.Exposes σ second rule →
      rules.EndsUpTo σ bound (call rule.2))
    (hx : rules.Reads first s x mid) (kept : size mid ≤ size s) (hs : size s ≤ bound) :
    rules.Ends second mid := by
  by_cases consumes : rules.Consumes σ first
  · have less := consumes.shorter hx
    have calls : rules.CallsEnd σ (size mid) second :=
      ⟨fun n hn => shorter n (by omega), fun rule _ => shorter (size mid) (by omega) rule⟩
    exact ih calls mid (Nat.le_refl _)
  · exact ih ⟨shorter, exposed consumes⟩ mid (Nat.le_trans kept hs)

variable [LawfulSequence σ ε]

theorem Reads.size_le
    (table : ∀ {β : Type} (rule : ρ β), (rules.definition rule).Prisms (TakesOff σ))
    {g : Grammar ε ρ α} (front : g.Prisms (TakesOff σ)) {x : α} (h : rules.Reads g s x rest) :
    size rest ≤ size s := by
  rw [LawfulSequence.size_eq_length, LawfulSequence.size_eq_length]
  exact (h.suffix table front).length_le

theorem CallsEnd.endsUpTo
    (table : ∀ {β : Type} (rule : ρ β), (rules.definition rule).Prisms (TakesOff σ))
    {g : Grammar ε ρ α} (repeats : rules.RepeatsConsume σ g) (front : g.Prisms (TakesOff σ))
    (calls : rules.CallsEnd σ bound g) : rules.EndsUpTo σ bound g := by
  induction g generalizing bound with
  | element | fromPrism _ => exact fun s _ => ⟨0, Outcome.ofOption_ne_exhausted _⟩
  | success x => exact fun s _ => (Reads.success x s).ends
  | failure => exact fun s _ => ⟨0, fun ends => by cases ends⟩
  | eof =>
      intro s _
      refine ⟨0, ?_⟩
      rw [read_eof]
      split <;> simp
  | satisfy accepts =>
      intro s _
      refine ⟨0, ?_⟩
      rw [read_satisfy]
      split
      · simp
      · split <;> simp
  | both first second ihf ihs =>
      intro s hs
      have ends := ihf repeats.1 front.1 ⟨calls.shorter, fun rule h => calls.exposed rule (.inl h)⟩
      refine (ends s hs).both fun x mid hx => ?_
      exact ends_behind (ihs repeats.2 front.2) calls.shorter
        (fun idle rule h => calls.exposed rule (.inr ⟨idle, h⟩)) hx (hx.size_le table front.1) hs
  | choose first second ihf ihs =>
      intro s hs
      have ends := ihf repeats.1 front.1 ⟨calls.shorter, fun rule h => calls.exposed rule (.inl h)⟩
      have ends' := ihs repeats.2 front.2 ⟨calls.shorter, fun rule h => calls.exposed rule (.inr h)⟩
      exact (ends s hs).choose (ends' s hs)
  | many item ih =>
      intro s hs
      have ends := ih repeats.1 front ⟨calls.shorter, calls.exposed⟩
      obtain ⟨xs, rest, hxs⟩ := (ends.endsAlong repeats.2 hs).reads_many repeats.2
      exact hxs.ends
  | replicate count item ih =>
      have ends := ih repeats front ⟨calls.shorter, calls.exposed⟩
      exact ends.replicate (fun hx => Reads.size_le table (g := item) front hx) count
  | adapt prism inner ih =>
      exact fun s hs => (ih repeats front ⟨calls.shorter, calls.exposed⟩ s hs).adapt
  | bind driver continuation driverOf ihd ihc
  | bindChecked driver continuation driverOf ihd ihc =>
      intro s hs
      -- Both binds read in the same way.
      change rules.Ends (Grammar.bind driver continuation driverOf) s
      have ends := ihd repeats.1 front.1 ⟨calls.shorter, fun rule h => calls.exposed rule (.inl h)⟩
      refine (ends s hs).bind fun d mid hd => ?_
      exact ends_behind (ihc d (repeats.2 d) (front.2 d)) calls.shorter
        (fun idle rule h => calls.exposed rule (.inr ⟨idle, d, h⟩)) hd (hd.size_le table front.1) hs
  | call rule => exact calls.exposed ⟨_, rule⟩ rfl

/-- Calls end on sequences of every size: first those on shorter ones, then, on sequences of the
same size, those that the rule's own definition exposes. -/
theorem WellGuarded.calls_end (guarded : rules.WellGuarded σ) (bound : Nat) (rule : Sigma ρ) :
    rules.EndsUpTo σ bound (call rule.2) := by
  induction bound using Nat.strongRecOn generalizing rule with
  | _ bound shorter =>
      induction rule using guarded.guarded.induction with
      | _ rule exposed =>
          have calls : rules.CallsEnd σ bound (rules.definition rule.2) := ⟨shorter, exposed⟩
          intro s hs
          exact (calls.endsUpTo guarded.takesOff (guarded.repeats rule.2)
            (guarded.takesOff rule.2) s hs).call

theorem Consumes.satisfy (accepts : ε → Bool) :
    rules.Consumes σ (satisfy accepts : Grammar ε ρ ε) where
  shorter h := by
    obtain ⟨depth, hd⟩ := h
    exact consuming_satisfy accepts hd

theorem Consumes.literal [BEq ε] (expected : ε) :
    rules.Consumes σ (literal expected : Grammar ε ρ Unit) :=
  .adapt (.satisfy _)

theorem Consumes.both_left
    (table : ∀ {β : Type} (rule : ρ β), (rules.definition rule).Prisms (TakesOff σ))
    {first : Grammar ε ρ α} {second : Grammar ε ρ β} (h : rules.Consumes σ first)
    (front : second.Prisms (TakesOff σ)) : rules.Consumes σ (both first second) where
  shorter {s rest p} hp := by
    obtain ⟨x, y⟩ := p
    obtain ⟨depth, hd⟩ := hp
    obtain ⟨mid, hx, hy⟩ := read_both_eq_done_iff.1 hd
    have kept : size rest ≤ size mid := Reads.size_le table front ⟨depth, hy⟩
    exact Nat.lt_of_le_of_lt kept (h.shorter ⟨depth, hx⟩)

theorem Consumes.seqLeft
    (table : ∀ {β : Type} (rule : ρ β), (rules.definition rule).Prisms (TakesOff σ))
    {left : Grammar ε ρ α} {right : Grammar ε ρ Unit} (h : rules.Consumes σ left)
    (front : right.Prisms (TakesOff σ)) : rules.Consumes σ (seqLeft left right) :=
  .adapt (.both_left table h front)

end Rules

/-- Every reading of a well-guarded format ends, with a value or with a refusal. -/
theorem guarded_reading_ends (rules : Rules ε ρ) [LawfulSequence σ ε]
    (guarded : rules.WellGuarded σ) {g : Grammar ε ρ α} (repeats : rules.RepeatsConsume σ g)
    (front : g.Prisms (TakesOff σ)) (s : σ) :
    (∃ x rest, rules.Reads g s x rest) ∨ rules.Refuses g s := by
  have calls : rules.CallsEnd σ (size s) g :=
    ⟨fun less _ => guarded.calls_end less, fun rule _ => guarded.calls_end (size s) rule⟩
  have ends := calls.endsUpTo guarded.takesOff repeats front
  exact (ends s (Nat.le_refl _)).reads_or_refuses

/-- A repetition of nestings, in front of a parenthesis that is never closed. -/
theorem guarded_reading_ends_nesting :
    let g : Grammar Char Nesting.Rule (List Nat) := seqLeft (many (call .level)) eof
    Nesting.rules.WellGuarded (List Char) ∧ Nesting.rules.RepeatsConsume (List Char) g ∧
    g.Prisms (TakesOff (List Char)) ∧
    ((∃ x rest, Nesting.rules.Reads g ['(', '.', ')', '.', '(', '.'] x rest) ∨
      Nesting.rules.Refuses g ['(', '.', ')', '.', '(', '.']) := by
  intro g
  have takesOff : ∀ {β : Type} (rule : Nesting.Rule β),
      (Nesting.rules.definition rule).Prisms (TakesOff (List Char)) := by
    intro β rule
    cases rule
    exact ⟨⟨trivial, trivial, trivial⟩, trivial⟩
  have literals (c : Char) : Nesting.rules.Consumes (List Char) (literal c) := .literal c
  have level : Nesting.rules.Consumes (List Char) (call Nesting.Rule.level) :=
    .call (.adapt (.choose (.adapt (.both_left takesOff (literals '(') ⟨trivial, trivial⟩))
      (literals '.')))
  -- The only call stands behind the opening parenthesis, so no call is exposed.
  have unexposed : ∀ {β : Type} (rule : Nesting.Rule β) (called : Sigma Nesting.Rule),
      ¬ Nesting.rules.Exposes (List Char) (Nesting.rules.definition rule) called := by
    intro β rule called
    cases rule
    rintro ((no | ⟨idle, -⟩) | no)
    · exact no
    · exact idle (literals '(')
    · exact no
  have guarded : Nesting.rules.WellGuarded (List Char) := by
    refine ⟨?_, takesOff, ⟨fun rule => ⟨rule, fun called exposed => ?_⟩⟩⟩
    · intro β rule
      cases rule
      exact ⟨⟨trivial, trivial, trivial⟩, trivial⟩
    · exact (unexposed rule.2 called exposed).elim
  have repeats : Nesting.rules.RepeatsConsume (List Char) g := ⟨⟨trivial, level⟩, trivial⟩
  have front : g.Prisms (TakesOff (List Char)) := ⟨trivial, trivial⟩
  exact ⟨guarded, repeats, front, guarded_reading_ends Nesting.rules guarded repeats front _⟩

end Grammar
end TwoWay
