import BlockScript.Proofs.Consistency
import BlockScript.Proofs.NumberReporters
import BlockScript.Proofs.TypeChecks

/-!
Operators joined with an assignment. `x op= e` and `x = x op e` write the same block, but only
the second asks for the types of both operands; the first looks at the type of the result.
-/
namespace BlockScript

namespace UpdateOp

/-- The type that an operator asks of its operands. -/
def operandType : UpdateOp → TypeSet
  | concat => .ofString
  | arith _ => .ofNumber

def expr (op : UpdateOp) (pos : Position) (a b : Expr) : Expr :=
  match op with
  | concat => .concat pos [a, b]
  | arith op => .arith pos op [a, b]

/-- Checks the operands of an operation and gives its result. -/
def compute : UpdateOp → List Value → Build Value
  | concat => Build.concatenated
  | arith op => Build.calculated op

end UpdateOp

namespace Build

variable {s s' t : BuildState} {d : Data} {name : String} {e : Expr} {op : UpdateOp}
  {a v w : Value} {pos p q r : Position}

/-- An operation on a block asks for the types of both operands. -/
theorem compute_ok (ha : a.isBlock = true) :
    op.compute [a, v] s = .ok w s' ↔
      a.Fits op.operandType ∧ v.Fits op.operandType ∧ op.apply a v = .ok w ∧ s = s' := by
  have hsteps : ∃ template, op.compute [a, v] =
      require [[op.operandType, op.operandType]] [a, v] template >>= fun _ =>
        ofExcept (op.apply a v) := by
    cases op with
    | concat =>
      refine ⟨"Cannot concatenate a \x7b\x7d to a \x7b\x7d", ?_⟩
      cases a <;> first | rfl | cases ha
    | arith op => exact ⟨_, rfl⟩
  obtain ⟨template, hsteps⟩ := hsteps
  rw [hsteps, bind_ok]
  constructor
  · rintro ⟨_, t, hrequire, h⟩
    obtain ⟨hfits, rfl⟩ := ofOutcome_ok.mp hrequire
    obtain ⟨ha, hv⟩ := Outcome.require_pair.mp hfits
    obtain ⟨happly, rfl⟩ := ofExcept_ok.mp h
    exact ⟨ha, hv, happly, rfl⟩
  · rintro ⟨ha, hv, happly, rfl⟩
    exact ⟨(), s, ofOutcome_ok.mpr ⟨Outcome.require_pair.mpr ⟨ha, hv⟩, rfl⟩,
      ofExcept_ok.mpr ⟨happly, rfl⟩⟩

theorem moveTo_ok_iff (h : Moved s t) : moveTo p s = .ok () s' ↔ moveTo p t = .ok () s' := by
  obtain ⟨q, rfl⟩ := h
  rw [moveTo_ok, moveTo_ok]

theorem exists_moveTo (h : p ≠ .missing) (s : BuildState) : ∃ t, moveTo p s = .ok () t :=
  ⟨_, moveTo_ok.mpr ⟨h, rfl⟩⟩

theorem name_ok (hfind : find? (.ofName name) s = .ok (some d) s) :
    expression .script (.name r name) s = .ok a t ↔ moveTo r s = .ok () t ∧
      a = if d.type == .typed .ofBoolean then .op .equals [.data d, .int 1] else .data d := by
  constructor
  · intro h
    obtain ⟨_, t₁, hmove, own, t₂, hnamed, h⟩ := bind_bind_ok.mp h
    obtain ⟨hown, rfl⟩ := variableNamed_ok hnamed
    obtain ⟨rfl, rfl⟩ := pure_ok.mp h
    have hsame := ((moved_moveTo hmove).find? hfind).1
    obtain rfl := Option.some.inj (EStateM.Result.ok.inj (hsame.symm.trans hown)).1
    exact ⟨hmove, rfl⟩
  · rintro ⟨hmove, rfl⟩
    have hnamed : variableNamed name t = .ok d t :=
      bind_of_ok ((moved_moveTo hmove).find? hfind).1
    exact bind_bind_ok.mpr ⟨(), t, hmove, d, t, hnamed, rfl⟩

/-- An operation on a variable. A truth value is compared with one before it is used, but fits
no operator either way. -/
theorem operation_ok (hfind : find? (.ofName name) s = .ok (some d) s) :
    expression .script (op.expr q (.name r name) e) s = .ok w s' ↔
      q ≠ .missing ∧ ∃ t v, moveTo r s = .ok () t ∧ expression .script e t = .ok v s' ∧
        (Value.data d).Fits op.operandType ∧ v.Fits op.operandType ∧
        op.apply (.data d) v = .ok w := by
  have hsteps : expression .script (op.expr q (.name r name) e) =
      moveTo q >>= fun _ => expressions .script [.name r name, e] >>= op.compute := by
    cases op <;> rfl
  have htruth : d.type = .typed .ofBoolean → ∀ a : Value,
      a.type? = .ok (some (.typed .ofBoolean)) → ¬ a.Fits op.operandType := by
    rintro hd a ha ⟨type, htype, hmeets⟩
    cases ha.symm.trans htype
    cases op <;> cases hmeets
  rw [hsteps, bind_ok]
  constructor
  · rintro ⟨_, t, hmove, h⟩
    have hmoved := moved_moveTo hmove
    obtain ⟨vs, t', hoperands, h⟩ := bind_ok.mp h
    obtain ⟨a, v, u, ha, hv, rfl⟩ := expressions_two hoperands
    obtain ⟨hmove', rfl⟩ := (name_ok (hmoved.find? hfind).1).mp ha
    refine ⟨(moveTo_ok.mp hmove).1, u, v, (moveTo_ok_iff hmoved).mpr hmove', ?_⟩
    split at h
    · rename_i hd
      obtain ⟨ha, -⟩ := (compute_ok rfl).mp h
      exact absurd ha (htruth (by simpa using hd) _ rfl)
    · obtain ⟨ha, hfits, happly, rfl⟩ := (compute_ok rfl).mp h
      exact ⟨hv, ha, hfits, happly⟩
  · rintro ⟨hq, t, v, hmove, hv, hd, hfits, happly⟩
    obtain ⟨t₁, hmove₁⟩ := exists_moveTo hq s
    have hmoved := moved_moveTo hmove₁
    have hne : (d.type == .typed .ofBoolean) = false :=
      beq_false_of_ne fun heq => htruth heq (.data d) (by rw [Value.type?, heq]) hd
    have ha : expression .script (.name r name) t₁ = .ok (.data d) t :=
      (name_ok (hmoved.find? hfind).1).mpr ⟨(moveTo_ok_iff hmoved).mp hmove, by rw [hne]; rfl⟩
    refine ⟨(), t₁, hmove₁, bind_ok.mpr ⟨[.data d, v], s', ?_, ?_⟩⟩
    · exact bind_bind_ok.mpr ⟨_, t, ha, [v], s', bind_ok.mpr ⟨v, s', hv, rfl⟩, rfl⟩
    · exact (compute_ok rfl).mpr ⟨hd, hfits, happly, rfl⟩

/-- Stores the result of an operator in a variable. -/
def store (op : UpdateOp) (d : Data) (v : Value) : Build Unit := do
  let w ← ofExcept (op.apply (.data d) v)
  checkAssignment (some d.type) w
  emit (.op .setVariable [.data d, w])

theorem respects_store (op : UpdateOp) (d : Data) (v : Value) : Respects Moved (store op d v) := by
  refine .bind (.ofExcept _) fun w => .bind ?_ fun _ => Moved.reading.emit _
  refine .bind (.ofExcept _) fun type => .bind (.ofExcept _) fun problem => ?_
  split
  · exact .reject _
  · exact .pure _

theorem update_ok (hfind : find? (.ofName name) s = .ok (some d) s)
    (hmutable : d.constant = false) :
    statement (.update pos op (.name p name) e) s = .ok () s' ↔
      ∃ t v t', moveTo pos s = .ok () t ∧ expression .script e t = .ok v t' ∧
        store op d v t' = .ok () s' := by
  have hstore : ∀ {t v t'}, moveTo pos s = .ok () t → expression .script e t = .ok v t' →
      updateVariable op name v t' = store op d v t' := by
    intro t v t' hmove hv
    have hfound := (keeps_expression _ _ _ _ _ hv).find? ((moved_moveTo hmove).find? hfind).1
    have hnamed : variableNamed name t' = .ok d t' := bind_of_ok hfound
    rw [updateVariable, bind_of_ok hnamed]
    simp only [requireMutable, hmutable]
    rfl
  rw [statement]
  constructor
  · intro h
    obtain ⟨_, t, hmove, v, t', hv, h⟩ := bind_bind_ok.mp h
    exact ⟨t, v, t', hmove, hv, (hstore hmove hv).symm.trans h⟩
  · rintro ⟨t, v, t', hmove, hv, h⟩
    exact bind_bind_ok.mpr ⟨(), t, hmove, v, t', hv, (hstore hmove hv).trans h⟩

theorem assign_ok_iff (hpos : pos ≠ .missing) (hp : p ≠ .missing) (hq : q ≠ .missing)
    (hfind : find? (.ofName name) s = .ok (some d) s) (hmutable : d.constant = false) :
    statement (.assign pos (.name p name) (op.expr q (.name r name) e)) s = .ok () s' ↔
      ∃ t v t', moveTo r s = .ok () t ∧ expression .script e t = .ok v t' ∧
        (Value.data d).Fits op.operandType ∧ v.Fits op.operandType ∧
        store op d v t' = .ok () s' := by
  obtain ⟨t₁, hmove⟩ := exists_moveTo hpos s
  obtain ⟨t₂, hmove'⟩ := exists_moveTo hp t₁
  have hmoved := (moved_moveTo hmove).trans (moved_moveTo hmove')
  have hfind₂ := (hmoved.find? hfind).1
  have hposition : ofExcept (Expr.name p name).position t₁ = .ok p t₁ :=
    ofExcept_ok.mpr ⟨if_neg hp, rfl⟩
  rw [statement, bind_of_ok hmove, assignTo, bind_of_ok hposition, bind_of_ok hmove']
  have hassign : ∀ {v w t'}, (Value.data d).Fits op.operandType → op.apply (.data d) v = .ok w →
      (do requireMutable d; assign d w) t' = store op d v t' := by
    intro v w t' hd happly
    have hlist : (d.type == .typed .ofList) = false := by
      refine beq_false_of_ne fun heq => ?_
      obtain ⟨type, htype, hmeets⟩ := hd
      rw [Value.type?, heq] at htype
      cases htype
      cases op <;> cases hmeets
    simp only [requireMutable, hmutable, assign, hlist, store, happly]
    rfl
  constructor
  · intro h
    obtain ⟨w, t', hw, h⟩ := bind_ok.mp h
    obtain ⟨-, t, v, hmove'', hv, hd, hfits, happly⟩ := (operation_ok hfind₂).mp hw
    obtain ⟨_, hname, h⟩ := ofExcept_bind_ok.mp h
    cases hname
    rw [bind_of_ok ((keeps_expression _ _ _ _ _ hw).find? hfind₂)] at h
    exact ⟨t, v, t', (moveTo_ok_iff hmoved).mpr hmove'', hv, hd, hfits,
      (hassign hd happly).symm.trans h⟩
  · rintro ⟨t, v, t', hmove'', hv, hd, hfits, h⟩
    obtain ⟨w, u, happly, -⟩ := bind_ok.mp h
    obtain ⟨happly, -⟩ := ofExcept_ok.mp happly
    have hw := (operation_ok hfind₂).mpr
      ⟨hq, t, v, (moveTo_ok_iff hmoved).mp hmove'', hv, hd, hfits, happly⟩
    refine bind_ok.mpr ⟨w, t', hw, ofExcept_bind_ok.mpr ⟨name, rfl, ?_⟩⟩
    rw [bind_of_ok ((keeps_expression _ _ _ _ _ hw).find? hfind₂)]
    exact (hassign hd happly).trans h

/-- An assignment of an operation is accepted when the operator joined with the assignment is and
both operands have the type that the operator asks for. Then both write the same blocks and
leave the same state, but for the position last looked at. -/
theorem assign_operation_iff_update (hpos : pos ≠ .missing) (hp : p ≠ .missing)
    (hq : q ≠ .missing) (hr : r ≠ .missing)
    (hfind : find? (.ofName name) s = .ok (some d) s) (hmutable : d.constant = false)
    (op : UpdateOp) (e : Expr) :
    ((∃ s₁, statement (.assign pos (.name p name) (op.expr q (.name r name) e)) s = .ok () s₁) ↔
      (∃ s₂, statement (.update pos op (.name p name) e) s = .ok () s₂) ∧
        (Value.data d).Fits op.operandType ∧
        ∃ v t, expression .script e s = .ok v t ∧ v.Fits op.operandType) ∧
    ∀ s₁ s₂, statement (.assign pos (.name p name) (op.expr q (.name r name) e)) s = .ok () s₁ →
      statement (.update pos op (.name p name) e) s = .ok () s₂ → Moved s₁ s₂ := by
  have hsame : ∀ {m t t' v s'}, m ≠ .missing → Moved s t → expression .script e t = .ok v t' →
      store op d v t' = .ok () s' → ∃ u u' s'', moveTo m s = .ok () u ∧
        expression .script e u = .ok v u' ∧ store op d v u' = .ok () s'' ∧ Moved s' s'' := by
    intro m t t' v s' hm hmoved hv hstore
    obtain ⟨u, hmove⟩ := exists_moveTo hm s
    obtain ⟨u', hv', hmoved'⟩ :=
      Moved.reading.expression e _ _ _ _ (hmoved.symm.trans (moved_moveTo hmove)) hv
    obtain ⟨s'', hstore', hmoved''⟩ := respects_store op d v _ _ _ _ hmoved' hstore
    exact ⟨u, u', s'', hmove, hv', hstore', hmoved''⟩
  have hforward : ∀ {s₁},
      statement (.assign pos (.name p name) (op.expr q (.name r name) e)) s = .ok () s₁ →
      (∃ s₂, statement (.update pos op (.name p name) e) s = .ok () s₂ ∧ Moved s₁ s₂) ∧
        (Value.data d).Fits op.operandType ∧
        ∃ v t, expression .script e s = .ok v t ∧ v.Fits op.operandType := by
    intro s₁ h
    obtain ⟨t, v, t', hmove, hv, hd, hfits, hstore⟩ :=
      (assign_ok_iff hpos hp hq hfind hmutable).mp h
    have hmoved := moved_moveTo hmove
    obtain ⟨u, u', s₂, hmove', hv', hstore', hmoved'⟩ := hsame hpos hmoved hv hstore
    obtain ⟨t'', hhere, -⟩ := Moved.reading.expression e _ _ _ _ hmoved.symm hv
    exact ⟨⟨s₂, (update_ok hfind hmutable).mpr ⟨u, v, u', hmove', hv', hstore'⟩, hmoved'⟩, hd,
      v, t'', hhere, hfits⟩
  refine ⟨⟨?_, ?_⟩, ?_⟩
  · rintro ⟨s₁, h⟩
    obtain ⟨⟨s₂, h₂, -⟩, hfits⟩ := hforward h
    exact ⟨⟨s₂, h₂⟩, hfits⟩
  · rintro ⟨⟨s₂, h⟩, hd, v, t, hhere, hfits⟩
    obtain ⟨u, own, u', hmove, hv, hstore⟩ := (update_ok hfind hmutable).mp h
    obtain ⟨u'', hv', -⟩ := Moved.reading.expression e _ _ _ _ (moved_moveTo hmove).symm hv
    obtain ⟨rfl, -⟩ := EStateM.Result.ok.inj (hhere.symm.trans hv')
    obtain ⟨t₁, t₂, s₁, hmove', hv'', hstore', -⟩ := hsame hr (moved_moveTo hmove) hv hstore
    exact ⟨s₁, (assign_ok_iff hpos hp hq hfind hmutable).mpr
      ⟨t₁, v, t₂, hmove', hv'', hd, hfits, hstore'⟩⟩
  · intro s₁ s₂ h h₂
    obtain ⟨⟨s₂', h₂', hmoved⟩, -⟩ := hforward h
    obtain ⟨-, rfl⟩ := EStateM.Result.ok.inj (h₂.symm.trans h₂')
    exact hmoved

/-- A builder that knows one global number, in the middle of a script. -/
def totalWriter : BuildState := { NumberCode.totalBuilder with frame.unfinished := [[]] }

/-- A text is added to a number in place, but not as an operation of its own. -/
theorem assign_operation_iff_update_text :
    (∃ s₂, statement (.update .nowhere (.arith .add) (.name .nowhere "total") (.str "a"))
      totalWriter = .ok () s₂) ∧
    ¬ ∃ s₁, statement (.assign .nowhere (.name .nowhere "total")
      (.arith .nowhere .add [.name .nowhere "total", .str "a"])) totalWriter = .ok () s₁ := by
  refine ⟨⟨_, rfl⟩, fun h => ?_⟩
  have hplaced : Position.nowhere ≠ .missing := by decide
  obtain ⟨-, -, v, t, hv, type, htype, hmeets⟩ := (assign_operation_iff_update hplaced hplaced
    hplaced hplaced (d := NumberCode.totalData) rfl rfl (.arith .add) (.str "a")).1.mp h
  cases hv
  cases htype
  cases hmeets

end Build

end BlockScript
