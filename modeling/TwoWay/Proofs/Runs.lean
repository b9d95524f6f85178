import TwoWay.Proofs.Depth

/-!
Runs of a recursive format without a depth. A reading, a refusal and a writing hold at some depth
and then at every greater one, so runs of the parts, each ended at a depth of its own, make up a
run of the whole.
-/

namespace TwoWay
namespace Grammar
namespace Rules

variable {σ ε : Type} [Sequence σ ε] {ρ : Type → Type} {α β δ : Type}

/-- The grammar reads a value and leaves the rest behind. -/
def Reads (rules : Rules ε ρ) (g : Grammar ε ρ α) (s : σ) (x : α) (rest : σ) : Prop :=
  ∃ depth, g.read (rules.meaning depth) s = .done (x, rest)

/-- The grammar ends without reading anything. -/
def Refuses (rules : Rules ε ρ) (g : Grammar ε ρ α) (s : σ) : Prop :=
  ∃ depth, g.read (rules.meaning depth) s = .refused ()

/-- The grammar writes a value in front of the rest. -/
def Writes (rules : Rules ε ρ) (g : Grammar ε ρ α) (x : α) (rest out : σ) : Prop :=
  ∃ depth, (g.write (rules.meaning depth) x rest).outcome = .done out

variable {rules : Rules ε ρ} {s mid rest out : σ}

theorem read_of_le {depth greater : Nat} (hle : depth ≤ greater) {g : Grammar ε ρ α}
    {outcome : Reading α σ} (h : g.read (rules.meaning depth) s = outcome)
    (ended : outcome ≠ .exhausted) : g.read (rules.meaning greater) s = outcome := by
  have below := read_below (rules.meaning_below hle) g s
  rw [h] at below
  exact below.eq ended

/-- Two runs that end do so at a common depth. -/
theorem ends_together {g : Grammar ε ρ α} {g' : Grammar ε ρ β} {s' : σ} {outcome : Reading α σ}
    {outcome' : Reading β σ} (h : ∃ depth, g.read (rules.meaning depth) s = outcome)
    (h' : ∃ depth, g'.read (rules.meaning depth) s' = outcome') (ended : outcome ≠ .exhausted)
    (ended' : outcome' ≠ .exhausted) :
    ∃ depth, g.read (rules.meaning depth) s = outcome ∧
      g'.read (rules.meaning depth) s' = outcome' := by
  obtain ⟨n, hn⟩ := h
  obtain ⟨n', hn'⟩ := h'
  exact ⟨max n n', read_of_le (Nat.le_max_left n n') hn ended,
    read_of_le (Nat.le_max_right n n') hn' ended'⟩

theorem Reads.together {g : Grammar ε ρ α} {g' : Grammar ε ρ β} {s' rest' : σ} {x : α} {y : β}
    (h : rules.Reads g s x rest) (h' : rules.Reads g' s' y rest') :
    ∃ depth, g.read (rules.meaning depth) s = .done (x, rest) ∧
      g'.read (rules.meaning depth) s' = .done (y, rest') :=
  ends_together h h' (by simp) (by simp)

theorem write_of_le {depth greater : Nat} (hle : depth ≤ greater) {g : Grammar ε ρ α} {x : α}
    (h : (g.write (rules.meaning depth) x rest).outcome = .done out) :
    (g.write (rules.meaning greater) x rest).outcome = .done out := by
  have below := (write_below (rules.meaning_below hle) g x rest).outcome
  rw [h] at below
  exact below.eq (by simp)

theorem Writes.together {g : Grammar ε ρ α} {g' : Grammar ε ρ β} {x : α} {y : β} {rest' out' : σ}
    (h : rules.Writes g x rest out) (h' : rules.Writes g' y rest' out') :
    ∃ depth, (g.write (rules.meaning depth) x rest).outcome = .done out ∧
      (g'.write (rules.meaning depth) y rest').outcome = .done out' := by
  obtain ⟨n, hn⟩ := h
  obtain ⟨n', hn'⟩ := h'
  exact ⟨max n n', write_of_le (Nat.le_max_left n n') hn, write_of_le (Nat.le_max_right n n') hn'⟩

theorem Reads.unique {g : Grammar ε ρ α} {x y : α} {rest' : σ} (h : rules.Reads g s x rest)
    (h' : rules.Reads g s y rest') : x = y ∧ rest = rest' := by
  obtain ⟨n, hn, hn'⟩ := h.together h'
  rw [hn] at hn'
  cases hn'
  exact ⟨rfl, rfl⟩

theorem Reads.not_refuses {g : Grammar ε ρ α} {x : α} (h : rules.Reads g s x rest) :
    ¬ rules.Refuses g s := by
  intro refuses
  obtain ⟨n, hn, stop⟩ := ends_together h refuses (by simp) (by simp)
  cases hn.symm.trans stop

/-! Readings of the parts as a reading of the whole. -/

theorem Reads.element {x : ε} (h : Sequence.uncons s = some (x, rest)) :
    rules.Reads element s x rest :=
  ⟨0, read_element_eq_done_iff.2 h⟩

theorem Reads.uncons {x : ε} (h : Sequence.uncons s = some (x, rest)) :
    rules.Reads uncons s x rest :=
  ⟨0, read_uncons_eq_done_iff.2 h⟩

theorem Reads.satisfy {accepts : ε → Bool} {x : ε} (h : Sequence.uncons s = some (x, rest))
    (hx : accepts x = true) : rules.Reads (satisfy accepts) s x rest :=
  ⟨0, read_satisfy_eq_done_iff.2 ⟨h, hx⟩⟩

theorem Reads.success (x : α) (s : σ) : rules.Reads (success x) s x s :=
  ⟨0, rfl⟩

theorem Reads.eof [LawfulSequence σ ε] :
    rules.Reads eof (Sequence.empty : σ) () Sequence.empty :=
  ⟨0, read_eof_eq_done_iff.2 ⟨Sequence.uncons_empty, rfl⟩⟩

theorem Reads.both {first : Grammar ε ρ α} {second : Grammar ε ρ β} {x : α} {y : β}
    (h : rules.Reads first s x mid) (h' : rules.Reads second mid y rest) :
    rules.Reads (both first second) s (x, y) rest := by
  obtain ⟨n, hn, hn'⟩ := h.together h'
  exact ⟨n, read_both_eq_done_iff.2 ⟨mid, hn, hn'⟩⟩

theorem Reads.choose_inl {first : Grammar ε ρ α} {second : Grammar ε ρ β} {x : α}
    (h : rules.Reads first s x rest) : rules.Reads (choose first second) s (.inl x) rest := by
  obtain ⟨n, hn⟩ := h
  exact ⟨n, read_choose_inl_eq_done_iff.2 hn⟩

theorem Reads.choose_inr {first : Grammar ε ρ α} {second : Grammar ε ρ β} {y : β}
    (h : rules.Refuses first s) (h' : rules.Reads second s y rest) :
    rules.Reads (choose first second) s (.inr y) rest := by
  obtain ⟨n, hn, hn'⟩ := ends_together h h' (by simp) (by simp)
  exact ⟨n, read_choose_inr_eq_done_iff.2 ⟨hn, hn'⟩⟩

theorem Reads.adapt {prism : Prism α β} {inner : Grammar ε ρ α} {x : α} {y : β}
    (h : rules.Reads inner s x rest) (hy : prism.preview x = some y) :
    rules.Reads (adapt prism inner) s y rest := by
  obtain ⟨n, hn⟩ := h
  exact ⟨n, read_adapt_eq_done_iff.2 ⟨x, hn, hy⟩⟩

theorem Reads.bind {driver : Grammar ε ρ δ} {continuation : δ → Grammar ε ρ α} {driverOf : α → δ}
    {d : δ} {x : α} (h : rules.Reads driver s d mid)
    (h' : rules.Reads (continuation d) mid x rest) :
    rules.Reads (Grammar.bind driver continuation driverOf) s x rest := by
  obtain ⟨n, hn, hn'⟩ := h.together h'
  exact ⟨n, read_bind_eq_done_iff.2 ⟨d, mid, hn, hn'⟩⟩

theorem Reads.bindChecked [BEq δ] [BEq α] {driver : Grammar ε ρ δ}
    {continuation : δ → Grammar ε ρ α} {driverOf : α → δ} {x : α}
    (h : rules.Reads (Grammar.bind driver continuation driverOf) s x rest) :
    rules.Reads (bindChecked driver continuation driverOf) s x rest := by
  obtain ⟨n, hn⟩ := h
  exact ⟨n, by rw [read_bindChecked, hn]⟩

theorem Reads.call {rule : ρ α} {x : α} (h : rules.Reads (rules.definition rule) s x rest) :
    rules.Reads (call rule) s x rest := by
  obtain ⟨n, hn⟩ := h
  exact ⟨n + 1, hn⟩

theorem Reads.replicate_zero (item : Grammar ε ρ α) (s : σ) :
    rules.Reads (replicate 0 item) s [] s :=
  ⟨0, read_replicate_eq_done_iff.2 ⟨rfl, .nil s⟩⟩

theorem Reads.replicate_succ {count : Nat} {item : Grammar ε ρ α} {x : α} {xs : List α}
    (h : rules.Reads item s x mid) (h' : rules.Reads (replicate count item) mid xs rest) :
    rules.Reads (replicate (count + 1) item) s (x :: xs) rest := by
  obtain ⟨n, hn, hn'⟩ := h.together h'
  obtain ⟨hlen, chain⟩ := read_replicate_eq_done_iff.1 hn'
  exact ⟨n, read_replicate_eq_done_iff.2 ⟨by rw [List.length_cons, hlen], .cons hn chain⟩⟩

theorem Reads.many_nil {item : Grammar ε ρ α} (h : rules.Refuses item s) :
    rules.Reads (many item) s [] s := by
  obtain ⟨n, hn⟩ := h
  exact ⟨n, read_many_nil hn⟩

theorem Reads.many_cons {item : Grammar ε ρ α} {x : α} {xs : List α}
    (h : rules.Reads item s x mid) (shorter : Sequence.size mid < Sequence.size s)
    (h' : rules.Reads (many item) mid xs rest) :
    rules.Reads (many item) s (x :: xs) rest := by
  obtain ⟨n, hn, hn'⟩ := h.together h'
  exact ⟨n, read_many_cons hn shorter hn'⟩

/-- A repetition does not end on an item that leaves everything behind. -/
theorem Reads.many_not_idle {item : Grammar ε ρ α} {x : α} {xs : List α}
    (h : rules.Reads (many item) s xs rest) : ¬ rules.Reads item s x s := by
  intro idle
  obtain ⟨n, hn, stuck⟩ := h.together idle
  obtain ⟨-, chain, stop⟩ := read_many_eq_done_iff.1 hn
  rw [chain.eq_of_idle stuck, stuck] at stop
  cases stop

/-! Writings of the whole as writings of the parts. -/

theorem Writes.element {x : ε} (h : rules.Writes element x rest out) :
    out = Sequence.cons x rest := by
  obtain ⟨n, hn⟩ := h
  cases hn
  rfl

theorem Writes.uncons {x : ε} (h : rules.Writes uncons x rest out) :
    out = Sequence.cons x rest := by
  obtain ⟨n, hn⟩ := h
  cases hn
  rfl

theorem Writes.satisfy {accepts : ε → Bool} {x : ε}
    (h : rules.Writes (satisfy accepts) x rest out) :
    accepts x = true ∧ out = Sequence.cons x rest := by
  obtain ⟨n, hn⟩ := h
  exact write_satisfy_eq_done_iff.1 hn

theorem not_writes_failure {x : α} : ¬ rules.Writes failure x rest out := by
  intro h
  obtain ⟨n, hn⟩ := h
  cases hn

theorem Writes.success {c x : α} (h : rules.Writes (success c) x rest out) : out = rest := by
  obtain ⟨n, hn⟩ := h
  cases hn
  rfl

theorem Writes.eof {u : Unit} (h : rules.Writes eof u rest out) : out = rest := by
  obtain ⟨n, hn⟩ := h
  cases hn
  rfl

theorem Writes.both {first : Grammar ε ρ α} {second : Grammar ε ρ β} {x : α} {y : β}
    (h : rules.Writes (both first second) (x, y) rest out) :
    ∃ mid, rules.Writes second y rest mid ∧ rules.Writes first x mid out := by
  obtain ⟨n, hn⟩ := h
  obtain ⟨mid, hy, hx⟩ := write_both_eq_done_iff.1 hn
  exact ⟨mid, ⟨n, hy⟩, ⟨n, hx⟩⟩

theorem Writes.many_nil {item : Grammar ε ρ α} (h : rules.Writes (many item) [] rest out) :
    out = rest := by
  obtain ⟨n, hn⟩ := h
  cases hn
  rfl

theorem Writes.many_cons {item : Grammar ε ρ α} {x : α} {xs : List α}
    (h : rules.Writes (many item) (x :: xs) rest out) :
    ∃ mid, rules.Writes (many item) xs rest mid ∧ rules.Writes item x mid out := by
  obtain ⟨n, hn⟩ := h
  obtain ⟨mid, hxs, hx⟩ := write_many_cons_eq_done_iff.1 hn
  exact ⟨mid, ⟨n, hxs⟩, ⟨n, hx⟩⟩

theorem Writes.replicate_nil {item : Grammar ε ρ α}
    (h : rules.Writes (replicate 0 item) [] rest out) : out = rest := by
  obtain ⟨n, hn⟩ := h
  cases hn
  rfl

theorem Writes.replicate_cons {count : Nat} {item : Grammar ε ρ α} {x : α} {xs : List α}
    (h : rules.Writes (replicate (count + 1) item) (x :: xs) rest out) :
    ∃ mid, rules.Writes (replicate count item) xs rest mid ∧ rules.Writes item x mid out := by
  obtain ⟨n, hn⟩ := h
  obtain ⟨hlen, hw⟩ := write_replicate_eq_done_iff.1 hn
  obtain ⟨mid, hxs, hx⟩ := write_many_cons_eq_done_iff.1 hw
  exact ⟨mid, ⟨n, write_replicate_eq_done_iff.2 ⟨Nat.succ.inj hlen, hxs⟩⟩, ⟨n, hx⟩⟩

theorem Writes.bind {driver : Grammar ε ρ δ} {continuation : δ → Grammar ε ρ α} {driverOf : α → δ}
    {x : α} (h : rules.Writes (Grammar.bind driver continuation driverOf) x rest out) :
    ∃ mid, rules.Writes (continuation (driverOf x)) x rest mid ∧
      rules.Writes driver (driverOf x) mid out := by
  obtain ⟨n, hn⟩ := h
  obtain ⟨mid, hx, hd⟩ := write_bind_eq_done_iff.1 hn
  exact ⟨mid, ⟨n, hx⟩, ⟨n, hd⟩⟩

theorem Writes.bindChecked [BEq δ] [BEq α] {driver : Grammar ε ρ δ}
    {continuation : δ → Grammar ε ρ α} {driverOf : α → δ} {x : α}
    (h : rules.Writes (bindChecked driver continuation driverOf) x rest out) :
    rules.Writes (Grammar.bind driver continuation driverOf) x rest out := by
  obtain ⟨n, hn⟩ := h
  exact ⟨n, (write_bindChecked_eq_done_iff.1 hn).1⟩

theorem Writes.call {rule : ρ α} {x : α} (h : rules.Writes (call rule) x rest out) :
    rules.Writes (rules.definition rule) x rest out := by
  obtain ⟨_ | n, hn⟩ := h
  · cases hn
  · exact ⟨n, hn⟩

end Rules
end Grammar
end TwoWay
