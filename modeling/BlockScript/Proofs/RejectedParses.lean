import BlockScript.Proofs.ParseFaults
import BlockScript.Proofs.Printing

/-!
What is reported of tokens that cannot be parsed. A parser that cannot go on reports a problem at a
place of the file, or it prints what it knows. Only where the first token of a setup is wrong it has
no answer.
-/
namespace BlockScript

namespace Grammar.Machine

variable {α : Type} {m : Machine α} {scan : Scan} {c c' : Configuration α} {r : Rejection}
  {e : ScanError} {stop : Stop α} {k n fuel : Nat}

theorem step_rejected (h : m.step scan c = .stop (.rejected r) n) :
    r.symbols = c.stack.reverse.map (·.symbol) ∧ r.found = c.rest.head? := by
  unfold step act at h
  grind [reduce_stop, rejection]

theorem step_unreadable (h : m.step scan c = .stop (.unreadable e) n) : scan.error = some e := by
  unfold step act at h
  grind [reduce_stop]

theorem reduce_next (h : m.reduce c k = .next c') : c'.stack ≠ [] := by
  unfold reduce at h
  grind

theorem step_next (h : m.step scan c = .next c') : c'.stack ≠ [] := by
  unfold step act at h
  grind [reduce_next]

/-- A run is rejected with nothing read only where it begins. -/
theorem run_ends (h : m.run scan fuel c = (stop, n)) :
    (∀ e, stop = .unreadable e → scan.error = some e) ∧
      ∀ r, stop = .rejected r → r.symbols = [] → c.stack = [] ∧ r.found = c.rest.head? := by
  induction fuel generalizing c with
  | zero =>
    obtain ⟨rfl, rfl⟩ := Prod.mk.inj h
    simp
  | succ fuel ih =>
    rw [run] at h
    split at h
    · rename_i next hnext
      refine ⟨(ih h).1, fun r hr hsymbols => ?_⟩
      exact absurd ((ih h).2 r hr hsymbols).1 (step_next hnext)
    · rename_i stop line hstop
      obtain ⟨rfl, rfl⟩ := Prod.mk.inj h
      constructor
      · rintro e rfl
        exact step_unreadable hstop
      · rintro r rfl hsymbols
        obtain ⟨hread, hfound⟩ := step_rejected hstop
        exact ⟨by simpa [hsymbols] using hread.symm, hfound⟩

end Grammar.Machine

namespace Session

open Grammar

variable {d : Dialect} {file source : String}

/-- A problem at a place of a file as a user sees it. -/
def reported (console : Console) (file source : String) (position : Option Int) (p : Problem) :
    Failure :=
  let d : Diagnostic := ⟨p, file, source, position⟩
  .diagnosed d (console.shown d.report)

/-- Counting lines leaves the console and the file alone. -/
theorem diagnose_register (s : Session) (d : Dialect) (n : Nat) (position : Option Int)
    (p : Problem) : { (s.register file source).setLine d n with position }.diagnose p =
      reported s.console file source position p := by
  cases d <;> simp [diagnose, content, setLine, register, reported, Assoc.get?_put_self]

theorem printed_printAll (s : Session) (lines : List String) :
    (s.printAll lines).console.printed = lines.reverse ++ s.console.printed := by
  have h : ∀ (console : Console), (lines.foldl Console.print console).printed =
      lines.reverse ++ console.printed := by
    induction lines with
    | nil => simp
    | cons line lines ih => simp [ih, Console.print]
  exact h s.console

/-- Nothing can be said only about a setup that has not begun. -/
theorem problem_eq_error_iff {r : Rejection} {f : Fault} :
    r.problem d = .error f ↔ d = .setup ∧ r.symbols = [] ∧ f = .outOfRange := by
  cases d with
  | script => simp [Rejection.problem]
  | setup =>
    by_cases h : r.symbols = [] <;>
      simp [Rejection.problem, Rejection.setupProblem?, h, @eq_comm _ Fault.outOfRange]

/-- How a rejected parse ends, with the lines that have been printed, the last one first. -/
inductive Rejected (console : Console) (d : Dialect) (file source : String) (r : Rejection) :
    Failure → List String → Prop
  | unbegun (hsetup : d = .setup) (hbegin : r.symbols = []) :
      Rejected console d file source r (.fault .outOfRange) console.printed
  | problem {p : Problem} (hproblem : r.problem d = .ok (some p)) :
      Rejected console d file source r (reported console file source (r.position d) p)
        console.printed
  | unexplained (hproblem : r.problem d = .ok none) : Rejected console d file source r
      .unexplained ((unexplainedLines d r).reverse ++ console.printed)

theorem rejected_register (s : Session) (d : Dialect) (n : Nat) (r : Rejection) :
    let after := ((s.register file source).setLine d n).reject d r
    Rejected s.console d file source r after.1 after.2.console.printed := by
  have hconsole : ((s.register file source).setLine d n).console = s.console := by cases d <;> rfl
  unfold reject
  cases h : r.problem d with
  | error f =>
    obtain ⟨hsetup, hbegin, rfl⟩ := problem_eq_error_iff.mp h
    exact hconsole ▸ .unbegun hsetup hbegin
  | ok found =>
    cases found with
    | none =>
      simp only [printed_printAll]
      exact hconsole ▸ .unexplained h
    | some p =>
      rw [← hconsole]
      simp only [diagnose_register]
      exact hconsole.symm ▸ .problem h

/-- What is reported of a text that cannot be read. -/
def unread (console : Console) (file source : String) : ScanError → Failure
  | .fault f => .fault f
  | .problem p place => reported console file source (some (place : Int)) p

theorem unreadable_register (s : Session) (file source : String) (d : Dialect) (n : Nat)
    (e : ScanError) :
    (((s.register file source).setLine d n).unreadable e).1 = unread s.console file source e ∧
      (((s.register file source).setLine d n).unreadable e).2.console = s.console := by
  have hconsole : ((s.register file source).setLine d n).console = s.console := by cases d <;> rfl
  cases e with
  | fault f => exact ⟨rfl, hconsole⟩
  | problem p place => exact ⟨diagnose_register s d n _ p, hconsole⟩

/-- How the parse of tokens ends, with the lines that have been printed. -/
inductive ParseEnds (console : Console) (d : Dialect) (file source : String) (scan : Scan) :
    Stop Fragment → Except Failure Fragment → List String → Prop
  | accepted {v : Fragment} (hread : scan.error = none)
      (hderived : Derives (ofDialect d) .ofToken [.cat (ofDialect d).start] scan.tokens [v]) :
      ParseEnds console d file source scan (.accepted v) (.ok v) console.printed
  | unreadable {e : ScanError} (herror : scan.error = some e) :
      ParseEnds console d file source scan (.unreadable e) (.error (unread console file source e))
        console.printed
  | fault {f : Fault} (haction : ActionFault d scan.tokens f) :
      ParseEnds console d file source scan (.fault f) (.error (.fault f)) console.printed
  | rejected {r : Rejection} {failure : Failure} {printed : List String}
      (hfirst : r.symbols = [] → r.found = scan.tokens.head?)
      (hrejected : Rejected console d file source r failure printed) :
      ParseEnds console d file source scan (.rejected r) (.error failure) printed

/-- Tokens that can be read are parsed to a value that the grammar derives from them, or they are
rejected with a report, unless one of the actions fails before that. Only the first token of a setup
is rejected without a report. -/
theorem parse_ends (s : Session) (d : Dialect) (file source : String) :
    let scan := scan d (s.line d) source
    let outcome := (s.register file source).parseFragment d
    ParseEnds s.console d file source scan ((machine d).parse (s.line d) scan).1 outcome.1
      outcome.2.console.printed := by
  have hmachine : machine d = .ofGrammar (ofDialect d) .ofToken := by cases d <;> rfl
  have hline : (s.register file source).line d = s.line d := by cases d <;> rfl
  simp only [parseFragment, content_register, hline]
  cases hrun : (machine d).parse (s.line d) (scan d (s.line d) source) with
  | mk stop line =>
    obtain ⟨hunreadable, hrejected⟩ := Machine.run_ends hrun
    have hconsole : ((s.register file source).setLine d line).console = s.console := by
      cases d <;> rfl
    cases stop with
    | accepted v =>
      rw [hmachine] at hrun
      obtain ⟨hread, -, hderived⟩ := Machine.parse_accepted hrun
      simp only [conclude, hconsole]
      exact .accepted hread hderived
    | rejected r =>
      exact .rejected (fun hsymbols => (hrejected r rfl hsymbols).2) (rejected_register s d line r)
    | unreadable e =>
      obtain ⟨hreport, hprinted⟩ := unreadable_register s file source d line e
      simp only [conclude, hreport, hprinted]
      exact .unreadable (hunreadable e rfl)
    | fault f =>
      rw [hmachine] at hrun
      simp only [conclude, hconsole]
      exact .fault (parse_actionFault hrun)

end Session

end BlockScript
