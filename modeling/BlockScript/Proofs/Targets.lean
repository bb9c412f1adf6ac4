import BlockScript.Proofs.Consistency

/-!
A new builder is consistent. Of what is then built for a target, its shared variables and the
results of its functions come first.
-/
namespace BlockScript.Build

open Text

/-- A new builder is consistent if the table of its target holds results of functions only
and every variable is filed under its name. -/
theorem consistent_fresh (hframe : s.frame = Frame.fresh s.frame.place)
    (hlocals : s.draft.locals? s.frame.place = some locals)
    (hkeys : ∀ entry ∈ locals, unscoped.any (beginsWith · entry.1) = true ∧ entry.2.name = entry.1)
    (hglobals : ∀ entry ∈ s.draft.globals, entry.2.name = entry.1) : Consistent s := by
  refine ⟨⟨locals, hlocals, ?_, fun entry hentry => (hkeys entry hentry).2⟩, hglobals, ?_, ?_⟩
  · exact fun entry hentry => .inl (hkeys entry hentry).1
  · rw [hframe]
    rfl
  · rw [hframe]
    intro scope hscope
    obtain rfl := List.mem_singleton.mp hscope
    exact Nat.le_refl _

theorem Within.forM {α : Type} {R : BuildState → BuildState → Prop} [IsPreorder BuildState R]
    {f : α → Build Unit} (h : ∀ a, Within R (f a)) (items : List α) :
    Within R (items.forM f : Build Unit) := by
  induction items with
  | nil => exact .pure _
  | cons a rest ih => exact .bind (h a) fun _ => ih

theorem readOnly_checkParts : ReadOnly (checkParts body) := by
  fun_induction checkParts body with
  | case1 => exact .pure _
  | case2 | case3 => exact .fault _
  | case4 _ _ _ _ ih => exact ih

/-- Adds a variable of a whole target whose value is known. -/
def storeShared (target : Expr) (type : Option TypeSet) (v : Value) : Build Unit := do
  let name ← ofExcept target.plainName
  match type with
  | none => fault .missingField
  | some t => let _ ← addVariable name t v false

section

variable [IsPreorder BuildState R]

section

variable (hmove : ∀ p, Within R (moveTo p))
  (hadd : ∀ name type v, Within R (addVariable name type v false))

include hmove hadd

/-- A value that is no literal is rejected at its position; any other is stored. -/
theorem Within.storeLiteral (target value : Expr) (type : Option TypeSet) (v : Value)
    (computed : Bool) : Within R (do
      if computed then
        Build.moveTo (← Build.ofExcept value.position)
        Build.reject .computedLocal
      storeShared target type v) := by
  have hstore : Within R (storeShared target type v) := by
    refine .bind (.ofExcept _) fun name => ?_
    cases type with
    | none => exact .fault _
    | some t => exact .bind (hadd _ _ _) fun _ => .pure _
  cases computed with
  | false => exact hstore
  | true =>
    refine .bind (.ofExcept _) fun p => .bind (hmove p) fun _ => ?_
    exact .bind (.reject _) fun _ => hstore

variable (hexpression : ∀ e, Within R (expression .script e))

include hexpression

/-- A variable of a whole target is added once its value is known. -/
theorem Within.addShared (target : Expr) (type : Option TypeSet) (value : Expr) :
    Within R (addShared target type value) := by
  cases value with
  | truth b => exact .bind (.pure _) fun v => .storeLiteral hmove hadd _ _ _ v _
  | _ => exact .bind (hexpression _) fun v => .storeLiteral hmove hadd _ _ _ v _

theorem Within.shareVariable (stmt : Stmt) : Within R (shareVariable stmt) := by
  have hshared := Within.addShared hmove hadd hexpression
  cases stmt with
  | shared pos target type value => exact hshared _ _ _
  | declare pos target type value constant =>
    exact hshared target (some type) (value.getD (.value .null))
  | assign pos target value => exact hshared target none value
  | _ => exact .fault _

end

end

end BlockScript.Build
