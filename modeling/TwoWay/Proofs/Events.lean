import TwoWay.Format.CountPrefixed
import TwoWay.Grammar.Run
import TwoWay.Proofs.Frame
import TwoWay.Proofs.SelfDelimiting

/-!
What a run reports about itself. A writing reports nothing unless a check refuses its output, and
then it reports that check and nothing else: a refusal ends everything that was still to be written,
no form goes on from one, and reading back reports nothing. The events of a whole run therefore say
how it ended, and no more.
-/

namespace TwoWay

/-- An event as it is seen from outside: its level, its source, its message and its fields. -/
def Event.report (event : Event) : Level × Source × String × List (String × String) :=
  (event.level, event.source, event.message, event.details)

namespace Grammar

variable {σ ε : Type} [Sequence σ ε] {ρ : Type → Type} {α : Type} {m : Meaning ρ σ}

/-- The events of a writing that ends in a given way: a check that failed, if one did. -/
def failedChecks : Outcome Error σ → List Event
  | .refused .inconsistentDriver => [.notReproduced]
  | .refused .cannotBuild | .refused .noMatch | .done _ | .exhausted => []

/-- A writing reports the check that refused it, if one did, and is not refused for want of a
match. -/
structure ReportsItsEnd (run : Writing σ) : Prop where
  ne_noMatch : run.outcome ≠ .refused .noMatch
  events_eq : run.events = failedChecks run.outcome

namespace ReportsItsEnd

theorem done (out : σ) : ReportsItsEnd (.done out) := ⟨by simp, rfl⟩

theorem cannotBuild : ReportsItsEnd (.refused .cannotBuild : Writing σ) := ⟨by simp, rfl⟩

theorem exhausted : ReportsItsEnd (⟨.exhausted, []⟩ : Writing σ) := ⟨by simp, rfl⟩

theorem notReproduced :
    ReportsItsEnd (⟨.refused .inconsistentDriver, [.notReproduced]⟩ : Writing σ) :=
  ⟨by simp, rfl⟩

theorem andThen {run : Writing σ} {next : σ → Writing σ} (h : ReportsItsEnd run)
    (hn : ∀ out, ReportsItsEnd (next out)) : ReportsItsEnd (run.andThen next) := by
  obtain ⟨outcome, events⟩ := run
  obtain ⟨matched, reported⟩ := h
  simp only at matched reported
  subst reported
  cases outcome with
  | done out => exact ⟨(hn out).ne_noMatch, (hn out).events_eq⟩
  | refused error => exact ⟨matched, rfl⟩
  | exhausted => exact .exhausted

theorem many {item : Grammar ε ρ α} (h : ∀ x rest, ReportsItsEnd (item.write m x rest))
    (xs : List α) (rest : σ) : ReportsItsEnd ((many item).write m xs rest) := by
  induction xs with
  | nil => exact .done rest
  | cons x xs ih => exact ih.andThen (h x)

end ReportsItsEnd

theorem write_reportsItsEnd
    (calls : ∀ {β : Type} (rule : ρ β) x rest, ReportsItsEnd (m.write rule x rest))
    (g : Grammar ε ρ α) (x : α) (rest : σ) : ReportsItsEnd (g.write m x rest) := by
  induction g generalizing rest with
  | element | fromPrism _ | success _ | eof => exact .done _
  | failure => exact .cannotBuild
  | satisfy accepts =>
      rw [write_satisfy]
      split
      · exact .done _
      · exact .cannotBuild
  | both first second ihf ihs => exact (ihs x.2 rest).andThen (ihf x.1)
  | choose first second ihf ihs =>
      cases x with
      | inl x => exact ihf x rest
      | inr y => exact ihs y rest
  | many item ih => exact .many ih x rest
  | replicate count item ih =>
      rw [write_replicate]
      split
      · exact .many ih x rest
      · exact .cannotBuild
  | adapt prism inner ih => exact ih (prism.review x) rest
  | bind driver continuation driverOf ihd ihc => exact (ihc _ x rest).andThen (ihd (driverOf x))
  | bindChecked driver continuation driverOf ihd ihc =>
      rw [write_bindChecked]
      refine ((ihc _ x rest).andThen (ihd (driverOf x))).andThen fun out => ?_
      split
      · exact .done out
      · exact .notReproduced
      · exact .exhausted
  | call rule => exact calls rule x rest

/-- A format without a checked part is refused for one reason only. -/
theorem Unchecked.onlyCannotBuild
    (calls : ∀ {β : Type} (rule : ρ β), OnlyCannotBuild m (call rule : Grammar ε ρ β))
    {g : Grammar ε ρ α} (hg : g.Unchecked) : OnlyCannotBuild m g := by
  induction g with
  | element | fromPrism _ | success _ | eof => exact ⟨fun refused => by cases refused⟩
  | failure => exact .failure
  | satisfy accepts => exact .satisfy accepts
  | both first second ihf ihs => exact (ihf hg.1).both (ihs hg.2)
  | choose first second ihf ihs =>
      refine ⟨fun {x rest error} refused => ?_⟩
      cases x with
      | inl x => exact (ihf hg.1).error_eq refused
      | inr y => exact (ihs hg.2).error_eq refused
  | many item ih => exact (ih hg).many
  | replicate count item ih => exact (ih hg).replicate count
  | adapt prism inner ih => exact (ih hg).adapt prism
  | bind driver continuation driverOf ihd ihc =>
      exact (ihd hg.1).bind (fun d => ihc d (hg.2 d)) driverOf
  | bindChecked driver continuation driverOf _ _ => exact hg.elim
  | call rule => exact calls rule

namespace Rules

variable (rules : Rules ε ρ)

theorem meaning_reportsItsEnd (depth : Nat) (rule : ρ α) (x : α) (rest : σ) :
    ReportsItsEnd ((rules.meaning depth).write rule x rest) := by
  induction depth generalizing α rest with
  | zero => exact .exhausted
  | succ depth ih => exact write_reportsItsEnd (fun rule => ih rule) (rules.definition rule) x rest

variable {rules}

theorem meaning_onlyCannotBuild_of_unchecked
    (unchecked : ∀ {β : Type} (rule : ρ β), (rules.definition rule).Unchecked) (depth : Nat)
    (rule : ρ α) : OnlyCannotBuild (rules.meaning depth : Meaning ρ σ) (call rule) := by
  induction depth generalizing α with
  | zero => exact ⟨fun refused => by cases refused⟩
  | succ depth ih =>
      have plain := (unchecked rule).onlyCannotBuild ih
      exact ⟨fun refused => plain.error_eq refused⟩

end Rules

/-- The events of a print that ends in a given way. -/
def printEvents : Outcome Error σ → List Event
  | .done _ => [.printed]
  | .refused error => failedChecks (.refused error : Outcome Error σ) ++ [.printFailed error]
  | .exhausted => []

theorem count_notReproduced_printEvents_le (outcome : Outcome Error σ) :
    (printEvents outcome).count .notReproduced ≤ 1 := by
  cases outcome with
  | done _ | exhausted => simp [printEvents]
  | refused error => cases error <;> simp [printEvents, failedChecks]

theorem notReproduced_mem_printEvents_iff {outcome : Outcome Error σ} :
    .notReproduced ∈ printEvents outcome ↔ outcome = .refused .inconsistentDriver := by
  cases outcome with
  | done _ | exhausted => simp [printEvents]
  | refused error => cases error <;> simp [printEvents, failedChecks]

theorem ReportsItsEnd.events_print {g : Grammar ε ρ α} {x : α}
    (h : ReportsItsEnd (g.write m x (Sequence.empty : σ))) :
    (g.print m x : Traced Error σ).events = printEvents (g.print m x : Traced Error σ).outcome := by
  have reported := h.events_eq
  rw [print]
  cases ending : (g.write m x (Sequence.empty : σ)).outcome with
  | done _ | refused _ | exhausted =>
      rw [ending] at reported
      simp only [reported]
      rfl

theorem parse_events {g : Grammar ε ρ α} {s : σ} (ended : (g.parse m s).outcome ≠ .exhausted) :
    ∃ matched, (g.parse m s).events = [.parsed matched] ∧
      (matched = true ↔ ∃ x, (g.parse m s).outcome = .done x) := by
  rw [parse] at ended ⊢
  cases hs : g.read m s with
  | done p => exact ⟨true, rfl, by simp⟩
  | refused _ => exact ⟨false, rfl, by simp⟩
  | exhausted =>
      rw [hs] at ended
      exact absurd rfl ended

theorem tryParse_events (g : Grammar ε ρ α) (s : σ) :
    (g.tryParse m s).events = (g.parse m s).events := by
  rw [tryParse]
  cases (g.parse m s).outcome <;> rfl

theorem tryParse_eq_noMatch_iff {g : Grammar ε ρ α} {s : σ} :
    (g.tryParse m s).outcome = .refused .noMatch ↔ (g.parse m s).outcome = .refused () := by
  rw [tryParse]
  cases (g.parse m s).outcome <;> simp

/-- A print is never refused for want of a match. Its events are one report of an output, one report
of a part that cannot be built, or the report of a failed check and behind it that of the refusal;
the second kind of refusal takes a checked part. A parse has one event, which says whether something
was read, and it is an error just when nothing was. -/
theorem events_tell_ending (rules : Rules ε ρ) (g : Grammar ε ρ α) (depth : Nat) :
    (∀ x, let run : Traced Error σ := g.print (rules.meaning depth) x
      run.outcome ≠ .refused .noMatch ∧
      (∀ out, run.outcome = .done out →
        run.events.map Event.report = [(.trace, .runner, "print", [])]) ∧
      (run.outcome = .refused .cannotBuild → run.events.map Event.report =
        [(.trace, .runner, "print failed", [("error", Error.message .cannotBuild)])]) ∧
      (run.outcome = .refused .inconsistentDriver → run.events.map Event.report =
        [(.debug, .grammar, Event.message .notReproduced, []),
          (.trace, .runner, "print failed", [("error", Error.message .inconsistentDriver)])]) ∧
      run.events.count .notReproduced ≤ 1 ∧
      (.notReproduced ∈ run.events ↔ run.outcome = .refused .inconsistentDriver) ∧
      (g.Unchecked → (∀ {β : Type} (rule : ρ β), (rules.definition rule).Unchecked) →
        run.outcome ≠ .refused .inconsistentDriver)) ∧
    ∀ s : σ, let run := g.parse (rules.meaning depth) s
      (run.outcome ≠ .exhausted → ∃ matched, run.events.map Event.report =
          [(.trace, .runner, "parse", [("matched", if matched then "true" else "false")])] ∧
        (matched = true ↔ ∃ x, run.outcome = .done x)) ∧
      ((g.tryParse (rules.meaning depth) s).outcome = .refused .noMatch ↔
        run.outcome = .refused ()) ∧
      (g.tryParse (rules.meaning depth) s).events = run.events := by
  refine ⟨fun x => ?_, fun s => ?_⟩
  · intro run
    have reports := write_reportsItsEnd (rules.meaning_reportsItsEnd depth) g x
      (Sequence.empty : σ)
    have events : run.events = printEvents run.outcome := reports.events_print
    rw [events]
    refine ⟨fun refused => ?_, fun out ending => ?_, fun ending => ?_, fun ending => ?_,
      count_notReproduced_printEvents_le _, notReproduced_mem_printEvents_iff,
      fun hg unchecked refused => ?_⟩
    · exact reports.ne_noMatch (print_eq_refused_iff.1 refused)
    · rw [ending]
      rfl
    · rw [ending]
      rfl
    · rw [ending]
      rfl
    · have plain := hg.onlyCannotBuild
        (Rules.meaning_onlyCannotBuild_of_unchecked (σ := σ) unchecked depth)
      cases plain.error_eq (print_eq_refused_iff.1 refused)
  · refine ⟨fun ended => ?_, tryParse_eq_noMatch_iff, tryParse_events g s⟩
    obtain ⟨matched, events, iff⟩ := parse_events ended
    exact ⟨matched, by rw [events]; rfl, iff⟩

/-- An empty word in front of a letter fails its check, and text that ends too early does not
match. -/
theorem events_tell_ending_of_empty_word :
    let rules : Rules Char NoRule := ⟨fun rule => nomatch rule⟩
    let print : Traced Error (List Char) :=
      CountPrefixed.checkedWords.print (rules.meaning 0) ["", "a"]
    let parse := CountPrefixed.checkedWords.parse (rules.meaning 0) ['2', 'a']
    print.outcome = .refused .inconsistentDriver ∧
    print.events.map Event.report =
      [(.debug, .grammar, "bind output does not parse back to the printed driver and value", []),
        (.trace, .runner, "print failed", [("error",
          "bind driver recovered while printing does not reproduce the printed value")])] ∧
    parse.outcome ≠ .exhausted ∧
    ∃ matched, parse.events.map Event.report =
        [(.trace, .runner, "parse", [("matched", if matched then "true" else "false")])] ∧
      (matched = true ↔ ∃ x, parse.outcome = .done x) := by
  intro rules print parse
  obtain ⟨prints, parses⟩ := events_tell_ending (σ := List Char) rules CountPrefixed.checkedWords 0
  have refused : print.outcome = .refused .inconsistentDriver := by decide
  have ended : parse.outcome ≠ .exhausted := by decide
  exact ⟨refused, (prints ["", "a"]).2.2.2.1 refused, ended, (parses ['2', 'a']).1 ended⟩

end Grammar
end TwoWay
