import BlockScript.Proofs.NumberBlocks
import BlockScript.Proofs.Statements

/-!
Building calculations with whole numbers. In a script the names are variables, in a setup they
are replaced by their values, and all of a calculation, a part of it or none may be computed
at once. The reporter that is built gives the value of the expression in any case.
-/
namespace BlockScript.NumberCode

open Build

variable {byZero : Int → Int} {d : Dialect} {store : Store} {mem : Memory} {s s' : BuildState}
  {v : Value}

/-- States in which some names are built to reporters of the numbers that a memory has for
them, whatever position was last looked at. -/
structure Grounded (byZero : Int → Int) (d : Dialect) (store : Store) (mem : Memory)
    (names : List String) (I : BuildState → Prop) : Prop where
  moved : ∀ {s s'}, I s → Moved s s' → I s'
  name : ∀ {s s' v pos name}, name ∈ names → I s → expression d (.name pos name) s = .ok v s' →
    Moved s s' ∧ IsNumeric v ∧
      ∃ n, Cell.find name mem = some n ∧ number byZero store v = some n

namespace Grounded

/-- The reporter that is built for a calculation gives its value. -/
theorem arith (hg : Grounded byZero d store mem names I) (e : Arith)
    (hnames : ∀ name ∈ e.names, name ∈ names) (h : I s) (hrun : expression d e.expr s = .ok v s') :
    Moved s s' ∧ IsNumeric v ∧
      ∃ n, e.eval byZero mem = some n ∧ number byZero store v = some n := by
  induction e generalizing s s' v with
  | lit n =>
    rw [Arith.expr, Expr.int, expression] at hrun
    obtain ⟨rfl, rfl⟩ := pure_ok.mp hrun
    exact ⟨.refl s, .inl ⟨n, rfl⟩, n, rfl, rfl⟩
  | var pos name => exact hg.name (hnames name List.mem_cons_self) h hrun
  | binary pos op a b iha ihb =>
    rw [Arith.expr, expression] at hrun
    obtain ⟨_, t, hmove, vs, t', hoperands, hrun⟩ := bind_bind_ok.mp hrun
    have hmoved := moved_moveTo hmove
    obtain ⟨va, vb, u, ha, hb, rfl⟩ := expressions_two hoperands
    obtain ⟨hma, hnumeric, m, hm, hm'⟩ := iha
      (fun name hname => hnames name (List.mem_append_left _ hname)) (hg.moved h hmoved) ha
    obtain ⟨hmb, hnumeric', n, hn, hn'⟩ := ihb
      (fun name hname => hnames name (List.mem_append_right _ hname))
      (hg.moved h (hmoved.trans hma)) hb
    obtain ⟨_, -, hrun⟩ := (reads.requireNumbers _).bind_ok hrun
    obtain ⟨happly, rfl⟩ := ofExcept_ok.mp hrun
    refine ⟨(hmoved.trans hma).trans hmb, isNumeric_apply op hnumeric hnumeric' happly,
      op.apply byZero m n, ?_, number_apply op hnumeric hnumeric' happly hm' hn'⟩
    simp [Arith.eval, hm, hn]
  | neg pos a ih =>
    rw [Arith.expr, expression] at hrun
    obtain ⟨_, t, hmove, vs, t', hoperands, hrun⟩ := bind_bind_ok.mp hrun
    have hmoved := moved_moveTo hmove
    obtain ⟨va, ha, rfl⟩ := expressions_one hoperands
    obtain ⟨hma, hnumeric, m, hm, hm'⟩ := ih hnames (hg.moved h hmoved) ha
    obtain ⟨_, -, hrun⟩ := (reads.requireNumbers _).bind_ok hrun
    obtain ⟨happly, rfl⟩ := ofExcept_ok.mp hrun
    obtain ⟨hnumeric', hneg⟩ := neg_number byZero hnumeric happly
    refine ⟨hmoved.trans hma, hnumeric', -m, ?_, hneg store m hm'⟩
    simp [Arith.eval, hm]

/-- The condition that is built for a comparison holds when it does. -/
theorem compare (hg : Grounded byZero d store mem names I)
    (hnames : ∀ name ∈ a.names ++ b.names, name ∈ names) (h : I s)
    (hrun : expression d (Cond.compare pos op a b).expr s = .ok v s') :
    Moved s s' ∧ ∃ holds, (Cond.compare pos op a b).holds byZero mem = some holds ∧
      truth byZero store v = some holds := by
  rw [Cond.expr, expression] at hrun
  obtain ⟨_, t, hmove, vs, t', hoperands, hrun⟩ := bind_bind_ok.mp hrun
  have hmoved := moved_moveTo hmove
  obtain ⟨va, vb, u, ha, hb, rfl⟩ := expressions_two hoperands
  obtain ⟨hma, hnumeric, m, hm, hm'⟩ := hg.arith a
    (fun name hname => hnames name (List.mem_append_left _ hname)) (hg.moved h hmoved) ha
  obtain ⟨hmb, hnumeric', n, hn, hn'⟩ := hg.arith b
    (fun name hname => hnames name (List.mem_append_right _ hname))
    (hg.moved h (hmoved.trans hma)) hb
  obtain ⟨_, -, hrun⟩ := (reads.require _ _ _).bind_ok hrun
  obtain ⟨happly, rfl⟩ := ofExcept_ok.mp hrun
  refine ⟨(hmoved.trans hma).trans hmb, compares op m n, ?_,
    truth_compare op hnumeric hnumeric' happly hm' hn'⟩
  simp [Cond.holds, hm, hn]

end Grounded

/-- A name stands for a number: in a script for a variable with the number in it, in a setup
for the number itself. -/
def StandsFor (d : Dialect) (s : BuildState) (store : Store) (name : String) (n : Int) : Prop :=
  match d with
  | .script => ∃ data, find? (.ofName name) s = .ok (some data) s ∧
      data.type = .typed .ofNumber ∧ store data.name = n
  | .setup => Assoc.get? name s.constants = some (.int n)

/-- A memory has the numbers that some names stand for. -/
def Holds (d : Dialect) (s : BuildState) (store : Store) (mem : Memory) (names : List String) :
    Prop :=
  ∀ name ∈ names, ∃ n, Cell.find name mem = some n ∧ StandsFor d s store name n

theorem Holds.grounded (h : Holds d s store mem names) :
    Grounded byZero d store mem names (Moved s) where
  moved := Moved.trans
  name := by
    intro t t' v pos name hname hmoved hrun
    obtain ⟨n, hcell, hstands⟩ := h name hname
    obtain ⟨_, t₁, hmove, hrun⟩ := bind_ok.mp hrun
    have hmoved₁ := moved_moveTo hmove
    cases d with
    | script =>
      obtain ⟨data, hdata, htype, rfl⟩ := hstands
      obtain ⟨own, t₂, hnamed, hrun⟩ := bind_ok.mp hrun
      obtain ⟨hown, rfl⟩ := variableNamed_ok hnamed
      obtain ⟨rfl, rfl⟩ := pure_ok.mp hrun
      have hsame := ((hmoved.trans hmoved₁).find? hdata).1
      obtain rfl := Option.some.inj (EStateM.Result.ok.inj (hsame.symm.trans hown)).1
      rw [htype]
      exact ⟨hmoved₁, .inr rfl, _, hcell, rfl⟩
    | setup =>
      obtain ⟨p, rfl⟩ := hmoved.trans hmoved₁
      change constantValue name _ = _ at hrun
      rw [constantValue, get_bind_ok, hstands] at hrun
      obtain ⟨rfl, rfl⟩ := pure_ok.mp hrun
      exact ⟨hmoved₁, .inl ⟨n, rfl⟩, n, hcell, rfl⟩

/-- A calculation that is built, in a script or in a setup, is built to its value, and a
comparison of two calculations to its truth. -/
theorem calculation_exact (byZero : Int → Int) (d : Dialect) (s s' : BuildState) (v : Value)
    (store : Store) (mem : Memory) :
    (∀ e : Arith, Holds d s store mem e.names → expression d e.expr s = .ok v s' →
      ∃ n, e.eval byZero mem = some n ∧ number byZero store v = some n) ∧
    ∀ pos op a b, Holds d s store mem (a.names ++ b.names) →
      expression d (Cond.compare pos op a b).expr s = .ok v s' →
      ∃ holds, (Cond.compare pos op a b).holds byZero mem = some holds ∧
        truth byZero store v = some holds := by
  constructor
  · intro e hmem hrun
    exact (hmem.grounded.arith e (fun _ => id) (.refl s) hrun).2.2
  · intro pos op a b hmem hrun
    exact (hmem.grounded.compare (fun _ => id) (.refl s) hrun).2

def totalData : Data := ⟨"g_total", false, .typed .ofNumber, false⟩

/-- A builder for the stage of a project with one global. -/
def totalBuilder : BuildState :=
  { BuildState.fresh (Session.fresh (some .error) false) "project" with
    draft := { Draft.fresh "project" with globals := [("g_total", totalData)] } }

/-- The sides of `3 - 5 <= -total % 4` are a literal and a block, and change places. -/
theorem calculation_exact_total :
    ∃ v s', expression .script (Cond.compare .nowhere .le
        (.binary .nowhere .sub (.lit 3) (.lit 5))
        (.binary .nowhere .mod (.neg .nowhere (.var .nowhere "total")) (.lit 4))).expr
          totalBuilder = .ok v s' ∧ ∀ store, truth id store v = some true := by
  obtain ⟨v, s', hrun⟩ : ∃ v s', expression .script (Cond.compare .nowhere .le
        (.binary .nowhere .sub (.lit 3) (.lit 5))
        (.binary .nowhere .mod (.neg .nowhere (.var .nowhere "total")) (.lit 4))).expr
          totalBuilder = .ok v s' := ⟨_, _, rfl⟩
  refine ⟨v, s', hrun, fun store => ?_⟩
  obtain ⟨holds, hsource, hbuilt⟩ := (calculation_exact id .script totalBuilder s' v store
    [⟨none, "total", store "g_total"⟩]).2 _ _ _ _ (fun name hname => by
      obtain rfl := List.mem_singleton.mp hname
      exact ⟨_, rfl, totalData, rfl, rfl, rfl⟩) hrun
  rw [hbuilt, ← hsource]
  simp [Cond.holds, Arith.eval, Operation.apply, Cell.find, compares, remainder]
  exact Int.le_trans (by decide) (Int.fmod_nonneg_of_pos _ (by decide))

end BlockScript.NumberCode
