import TwoWay.Format.Records
import TwoWay.Proofs.Runs

/-!
Formats that keep everything they read. If a format is built without defaults, without integers and
without forgetting what it matched, and if every driver can be recovered from the value behind it,
then writing what was read gives back the very sequence it was read from, whatever was left behind.
Two comparisons enter: a literal must not be equal to another element, which it would read and not
write, and what a checked bind compares must be equal to itself.
-/

namespace TwoWay
namespace Grammar

variable {σ ε : Type} [Sequence σ ε] {ρ : Type → Type} {α β : Type}

/-- Writing what was read gives back the very sequence it was read from, without an event. -/
structure Restores (m : Meaning ρ σ) (g : Grammar ε ρ α) : Prop where
  write : ∀ {s x rest}, g.read m s = .done (x, rest) → g.write m x rest = .done s

namespace Restores

variable {δ : Type} {m : Meaning ρ σ}

theorem both {first : Grammar ε ρ α} {second : Grammar ε ρ β} (hf : Restores m first)
    (hs : Restores m second) : Restores m (both first second) where
  write {s p rest} h := by
    obtain ⟨x, y⟩ := p
    obtain ⟨mid, hx, hy⟩ := read_both_eq_done_iff.1 h
    rw [write_both, hs.write hy, Traced.done_andThen, hf.write hx]

theorem choose {first : Grammar ε ρ α} {second : Grammar ε ρ β} (hf : Restores m first)
    (hs : Restores m second) : Restores m (choose first second) where
  write {s p rest} h := by
    cases p with
    | inl x => exact hf.write (read_choose_inl_eq_done_iff.1 h)
    | inr y => exact hs.write (read_choose_inr_eq_done_iff.1 h).2

/-- Items that are written as they were read make up what the whole chain was read from. -/
theorem write_chain {item : Grammar ε ρ α} (hi : Restores m item) {s rest : σ} {xs : List α}
    (chain : Chain (item.read m) s xs rest) : (many item).write m xs rest = .done s := by
  induction chain with
  | nil => rfl
  | cons head _ ih => rw [write_many_cons, ih, Traced.done_andThen, hi.write head]

theorem many {item : Grammar ε ρ α} (hi : Restores m item) : Restores m (many item) where
  write h := hi.write_chain (read_many_eq_done_iff.1 h).2.1

theorem replicate {item : Grammar ε ρ α} (hi : Restores m item) (count : Nat) :
    Restores m (replicate count item) where
  write h := by
    obtain ⟨rfl, chain⟩ := read_replicate_eq_done_iff.1 h
    rw [write_replicate_length, hi.write_chain chain]

theorem adapt {prism : Prism α β} {inner : Grammar ε ρ α}
    (lawful : ∀ x y, prism.preview x = some y → prism.review y = x) (hi : Restores m inner) :
    Restores m (adapt prism inner) where
  write h := by
    obtain ⟨x, hx, hy⟩ := read_adapt_eq_done_iff.1 h
    rw [write_adapt, lawful x _ hy, hi.write hx]

variable {driver : Grammar ε ρ δ} {continuation : δ → Grammar ε ρ α} {driverOf : α → δ}

theorem bind (hd : Restores m driver) (hc : ∀ d, Restores m (continuation d))
    (recovers : ∀ {d s mid x rest}, driver.read m s = .done (d, mid) →
      (continuation d).read m mid = .done (x, rest) → driverOf x = d) :
    Restores m (bind driver continuation driverOf) where
  write h := by
    obtain ⟨d, mid, hdriver, hx⟩ := read_bind_eq_done_iff.1 h
    rw [write_bind, recovers hdriver hx, (hc d).write hx, Traced.done_andThen, hd.write hdriver]

theorem bindChecked [BEq δ] [BEq α] (hd : Restores m driver) (hc : ∀ d, Restores m (continuation d))
    (recovers : ∀ {d s mid x rest}, driver.read m s = .done (d, mid) →
      (continuation d).read m mid = .done (x, rest) → driverOf x = d)
    (reflects : ∀ {d s mid x rest}, driver.read m s = .done (d, mid) →
      (continuation d).read m mid = .done (x, rest) → d == d ∧ x == x) :
    Restores m (bindChecked driver continuation driverOf) where
  write h := by
    rw [read_bindChecked] at h
    obtain ⟨d, mid, hdriver, hx⟩ := read_bind_eq_done_iff.1 h
    obtain ⟨same, same'⟩ := reflects hdriver hx
    obtain rfl := recovers hdriver hx
    -- What is written is what was read, so reading it back is the reading at hand.
    rw [write_bindChecked, (hd.bind hc recovers).write h, Traced.done_andThen,
      readsBackAs_eq_done_iff.2 ⟨_, mid, _, _, hdriver, same, hx, same'⟩]

variable [LawfulSequence σ ε]

theorem element : Restores m (element : Grammar ε ρ ε) where
  write h := by
    rw [Sequence.eq_cons_of_uncons (read_element_eq_done_iff.1 h)]
    rfl

theorem uncons : Restores m (uncons : Grammar ε ρ ε) where
  write h := by
    rw [Sequence.eq_cons_of_uncons (read_uncons_eq_done_iff.1 h)]
    rfl

theorem eof : Restores m (eof : Grammar ε ρ Unit) where
  write h := by
    obtain ⟨hs, rfl⟩ := read_eof_eq_done_iff.1 h
    rw [Sequence.eq_empty_of_uncons hs]
    rfl

theorem satisfy (accepts : ε → Bool) : Restores m (satisfy accepts : Grammar ε ρ ε) where
  write h := by
    obtain ⟨hs, hx⟩ := read_satisfy_eq_done_iff.1 h
    rw [Sequence.eq_cons_of_uncons hs]
    exact if_pos hx

/-- The element that is forgotten is the one that is written. -/
theorem literal [BEq ε] {expected : ε} (only : ∀ x : ε, x == expected → x = expected) :
    Restores m (literal expected : Grammar ε ρ Unit) where
  write h := by
    obtain ⟨y, hy, -⟩ := read_adapt_eq_done_iff.1 h
    obtain ⟨hs, hx⟩ := read_satisfy_eq_done_iff.1 hy
    obtain rfl := only y hx
    rw [Sequence.eq_cons_of_uncons hs]
    exact if_pos hx

end Restores

/-- The formats in which no part of the input is forgotten. The value behind a driver tells which
driver selected it. Only one element is equal to a literal, and where a driver and a value are
compared they are equal to themselves. -/
inductive Rules.Lossless (σ : Type) [Sequence σ ε] (rules : Rules ε ρ) :
    {α : Type} → Grammar ε ρ α → Prop
  | element : Lossless σ rules element
  | uncons : Lossless σ rules uncons
  | success {α : Type} (x : α) : Lossless σ rules (success x)
  | failure {α : Type} : Lossless σ rules (failure : Grammar ε ρ α)
  | eof : Lossless σ rules eof
  | satisfy (accepts : ε → Bool) : Lossless σ rules (satisfy accepts)
  | literal [BEq ε] {expected : ε} (only : ∀ x : ε, x == expected → x = expected) :
      Lossless σ rules (literal expected)
  | both {α β : Type} {first : Grammar ε ρ α} {second : Grammar ε ρ β}
      (hf : Lossless σ rules first) (hs : Lossless σ rules second) :
      Lossless σ rules (both first second)
  | choose {α β : Type} {first : Grammar ε ρ α} {second : Grammar ε ρ β}
      (hf : Lossless σ rules first) (hs : Lossless σ rules second) :
      Lossless σ rules (choose first second)
  | many {α : Type} {item : Grammar ε ρ α} (hi : Lossless σ rules item) :
      Lossless σ rules (many item)
  | replicate {α : Type} (count : Nat) {item : Grammar ε ρ α} (hi : Lossless σ rules item) :
      Lossless σ rules (replicate count item)
  | adapt {α β : Type} {prism : Prism α β} {inner : Grammar ε ρ α}
      (lawful : ∀ x y, prism.preview x = some y → prism.review y = x)
      (hi : Lossless σ rules inner) : Lossless σ rules (adapt prism inner)
  | bind {δ α : Type} {driver : Grammar ε ρ δ} {continuation : δ → Grammar ε ρ α} {driverOf : α → δ}
      (hd : Lossless σ rules driver) (hc : ∀ d, Lossless σ rules (continuation d))
      (recovers : ∀ d (s : σ) x rest, rules.Reads (continuation d) s x rest → driverOf x = d) :
      Lossless σ rules (bind driver continuation driverOf)
  | bindChecked {δ α : Type} [BEq δ] [BEq α] {driver : Grammar ε ρ δ}
      {continuation : δ → Grammar ε ρ α} {driverOf : α → δ}
      (hd : Lossless σ rules driver) (hc : ∀ d, Lossless σ rules (continuation d))
      (recovers : ∀ d (s : σ) x rest, rules.Reads (continuation d) s x rest → driverOf x = d)
      (reflects : ∀ d (s : σ) x rest, rules.Reads (continuation d) s x rest → d == d ∧ x == x) :
      Lossless σ rules (bindChecked driver continuation driverOf)
  | call {α : Type} (rule : ρ α) : Lossless σ rules (call rule)

namespace Rules

variable {rules : Rules ε ρ} [LawfulSequence σ ε]

theorem Lossless.restores {depth : Nat}
    (calls : ∀ {β : Type} (rule : ρ β) (s : σ) x rest,
      (rules.meaning depth).read rule s = .done (x, rest) →
        (rules.meaning depth).write rule x rest = .done s)
    {g : Grammar ε ρ α} (hg : rules.Lossless σ g) :
    Restores (rules.meaning depth : Meaning ρ σ) g := by
  induction hg with
  | element => exact .element
  | uncons => exact .uncons
  | success _ =>
      refine ⟨fun h => ?_⟩
      cases h
      rfl
  | failure => exact ⟨fun h => by cases h⟩
  | eof => exact .eof
  | satisfy accepts => exact .satisfy accepts
  | literal only => exact .literal only
  | both _ _ ihf ihs => exact ihf.both ihs
  | choose _ _ ihf ihs => exact ihf.choose ihs
  | many _ ih => exact ih.many
  | replicate count _ ih => exact ih.replicate count
  | adapt lawful _ ih => exact .adapt lawful ih
  | bind _ _ recovers ihd ihc =>
      exact ihd.bind ihc fun {d _ mid x rest} _ hx => recovers d mid x rest ⟨depth, hx⟩
  | bindChecked _ _ recovers reflects ihd ihc =>
      exact ihd.bindChecked ihc (fun {d _ mid x rest} _ hx => recovers d mid x rest ⟨depth, hx⟩)
        fun {d _ mid x rest} _ hx => reflects d mid x rest ⟨depth, hx⟩
  | call rule => exact ⟨calls rule _ _ _⟩

theorem Lossless.write_of_read {depth : Nat}
    (calls : ∀ {β : Type} (rule : ρ β) (s : σ) x rest,
      (rules.meaning depth).read rule s = .done (x, rest) →
        (rules.meaning depth).write rule x rest = .done s)
    {g : Grammar ε ρ α} (hg : rules.Lossless σ g) {s rest : σ} {x : α}
    (h : g.read (rules.meaning depth) s = .done (x, rest)) :
    g.write (rules.meaning depth) x rest = .done s :=
  (hg.restores calls).write h

/-- In a table of such formats, whatever a rule reads at some depth it also writes at that depth. -/
theorem Lossless.meaning_write_of_read
    (table : ∀ {β : Type} (rule : ρ β), rules.Lossless σ (rules.definition rule)) (depth : Nat) :
    ∀ {β : Type} (rule : ρ β) (s : σ) x rest,
      (rules.meaning depth).read rule s = .done (x, rest) →
        (rules.meaning depth).write rule x rest = .done s := by
  induction depth with
  | zero =>
      intro β rule s x rest h
      cases h
  | succ depth ih =>
      intro β rule s x rest h
      exact (table rule).write_of_read ih h

omit [LawfulSequence σ ε]

/-! The derived forms change values through isos that forget nothing. -/

theorem Lossless.adapt_iso {iso : Iso α β} {inner : Grammar ε ρ α}
    (lawful : ∀ x, iso.reverseGet (iso.get x) = x) (hi : rules.Lossless σ inner) :
    rules.Lossless σ (Grammar.adapt (.ofIso iso) inner) := by
  refine .adapt (fun x y h => ?_) hi
  rw [← Option.some.inj h]
  exact lawful x

theorem Lossless.seqLeft {left : Grammar ε ρ α} {right : Grammar ε ρ Unit}
    (hl : rules.Lossless σ left) (hr : rules.Lossless σ right) :
    rules.Lossless σ (seqLeft left right) :=
  .adapt_iso (fun _ => rfl) (.both hl hr)

theorem Lossless.seqRight {left : Grammar ε ρ Unit} {right : Grammar ε ρ α}
    (hl : rules.Lossless σ left) (hr : rules.Lossless σ right) :
    rules.Lossless σ (seqRight left right) :=
  .adapt_iso (fun _ => rfl) (.both hl hr)

theorem Lossless.opt {inner : Grammar ε ρ α} (hi : rules.Lossless σ inner) :
    rules.Lossless σ (opt inner) := by
  refine .adapt_iso (fun x => ?_) (.choose hi (.success ()))
  cases x <;> rfl

theorem Lossless.many1 {item : Grammar ε ρ α} (hi : rules.Lossless σ item) :
    rules.Lossless σ (many1 item) :=
  .adapt_iso (fun _ => rfl) (.both hi (.many hi))

theorem lengthByte_recovers {σ : Type} [Sequence σ UInt8] {rules : Rules UInt8 ρ} (d : UInt8)
    (s : σ) (xs : List UInt8) (rest : σ) (h : rules.Reads (replicate d.toNat element) s xs rest) :
    Records.lengthByte xs = d := by
  obtain ⟨depth, hd⟩ := h
  have length := (read_replicate_eq_done_iff.1 hd).1
  have bound := d.toNat_lt
  have least : min xs.length 255 = d.toNat := by omega
  rw [Records.lengthByte, least, UInt8.ofNat_toNat]

theorem Lossless.payload {σ : Type} [Sequence σ UInt8] {rules : Rules UInt8 ρ} :
    rules.Lossless σ Records.payload :=
  .bind .element (fun d => .replicate d.toNat .element) lengthByte_recovers

theorem Lossless.records {σ : Type} [Sequence σ UInt8] {rules : Rules UInt8 ρ} :
    rules.Lossless σ Records.records :=
  .seqLeft (.many (.both .element .payload)) .eof

end Rules

/-- Writing what a lossless format has read gives back exactly the sequence it was read from, in a
run of the same depth and without an event. -/
theorem lossless_write_restores (rules : Rules ε ρ) [LawfulSequence σ ε]
    (table : ∀ {β : Type} (rule : ρ β), rules.Lossless σ (rules.definition rule))
    {g : Grammar ε ρ α} (hg : rules.Lossless σ g) (depth : Nat) {s rest : σ} {x : α}
    (h : g.read (rules.meaning depth) s = .done (x, rest)) :
    g.write (rules.meaning depth) x rest = .done s :=
  hg.write_of_read (Rules.Lossless.meaning_write_of_read table depth) h

/-- Records, and a payload behind a mark whose length is checked. -/
theorem lossless_records_restore :
    let rules : Rules UInt8 NoRule := ⟨fun rule => nomatch rule⟩
    let marked : Grammar UInt8 NoRule (List UInt8) :=
      seqRight (literal 7)
        (bindChecked element (fun length => replicate length.toNat element) Records.lengthByte)
    (∀ {β : Type} (rule : NoRule β), rules.Lossless (List UInt8) (rules.definition rule)) ∧
    rules.Lossless (List UInt8) Records.records ∧
    Records.records.read (rules.meaning 1) [7, 2, 5, 0, 9, 0] = .done ([(7, [5, 0]), (9, [])], []) ∧
    Records.records.write (rules.meaning 1) [(7, [5, 0]), (9, [])] [] =
      .done [7, 2, 5, 0, 9, 0] ∧
    rules.Lossless (List UInt8) marked ∧
    marked.read (rules.meaning 1) [7, 2, 5, 0, 9, 0] = .done ([5, 0], [9, 0]) ∧
    marked.write (rules.meaning 1) [5, 0] [9, 0] = .done [7, 2, 5, 0, 9, 0] := by
  intro rules marked
  have table : ∀ {β : Type} (rule : NoRule β),
      rules.Lossless (List UInt8) (rules.definition rule) := fun rule => nomatch rule
  have read : Records.records.read (rules.meaning 1) [7, 2, 5, 0, 9, 0] =
      .done ([(7, [5, 0]), (9, [])], []) := by decide
  have checked : rules.Lossless (List UInt8) marked := by
    refine .seqRight (.literal fun _ same => eq_of_beq same) ?_
    exact .bindChecked .element (fun d => .replicate d.toNat .element) Rules.lengthByte_recovers
      fun _ _ _ _ _ => ⟨BEq.rfl, BEq.rfl⟩
  have read' : marked.read (rules.meaning 1) [7, 2, 5, 0, 9, 0] = .done ([5, 0], [9, 0]) := by
    decide
  exact ⟨table, .records, read, lossless_write_restores rules table .records 1 read, checked, read',
    lossless_write_restores rules table checked 1 read'⟩

/-- Not a number is not equal to itself: a checked bind that recovers its driver reads it and then
refuses to write it. The two zeros are equal: a literal reads the one and writes the other. -/
theorem lossless_needs_identity :
    let m : Meaning NoRule (List Float) := NoRule.meaning
    let nan : Float := 0.0 / 0.0
    let zero : Grammar Float NoRule Unit := literal 0.0
    let checked : Grammar Float NoRule Float := bindChecked zero (fun _ => element) fun _ => ()
    (∀ (d : Unit) (s : List Float) x rest,
      (element : Grammar Float NoRule Float).read m s = .done (x, rest) → () = d) ∧
    checked.read m [0.0, nan] = .done (nan, []) ∧
    (checked.write m nan []).outcome = .refused .inconsistentDriver ∧
    zero.read m [-0.0] = .done ((), []) ∧
    (zero.write m () []).outcome = .done [0.0] ∧ [(0.0 : Float)] ≠ [-0.0] := by
  intro m nan zero checked
  exact ⟨fun _ _ _ _ _ => rfl, by decide, by decide, by decide, by decide, by decide⟩

end Grammar
end TwoWay
