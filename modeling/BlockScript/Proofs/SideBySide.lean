import BlockScript.Proofs.Footprint

/-!
The same step from two states. A step respects a relation between states if its success in
the first of two related states means success in the second, with the same result and related
states after it. Expressions are translated by a few primitive steps, so a relation that these
respect is respected by the translation of every expression.
-/
namespace BlockScript.Build

variable {α β : Type} {R : BuildState → BuildState → Prop} {s s' t : BuildState}

/-- What a step does in the first of two related states, it does in the second. -/
def Respects (R : BuildState → BuildState → Prop) (x : Build α) : Prop :=
  ∀ s t a s', R s t → x s = .ok a s' → ∃ t', x t = .ok a t' ∧ R s' t'

namespace Respects

theorem reject (p : Problem) : Respects R (reject p : Build α) :=
  fun _ _ _ _ _ hrun => (reject_ok.mp hrun).elim

theorem pure (a : α) : Respects R (pure a : Build α) := by
  intro s t b s' h hrun
  obtain ⟨rfl, rfl⟩ := pure_ok.mp hrun
  exact ⟨t, rfl, h⟩

theorem bind (hx : Respects R x) (hf : ∀ a, Respects R (f a)) : Respects R (x >>= f) := by
  intro s t b s' h hrun
  obtain ⟨a, s₁, hfirst, hrun⟩ := bind_ok.mp hrun
  obtain ⟨t₁, hfirst', h₁⟩ := hx s t a s₁ h hfirst
  obtain ⟨t₂, hsecond, h₂⟩ := hf a s₁ t₁ b s' h₁ hrun
  exact ⟨t₂, bind_ok.mpr ⟨a, t₁, hfirst', hsecond⟩, h₂⟩

/-- A step that goes on in the same way in both states. -/
theorem get_bind (hsame : ∀ s t, R s t → f s = f t)
    (hf : ∀ s, Respects R (f s)) : Respects R (get >>= f) := by
  intro s t a s' h hrun
  rw [get_bind_ok] at hrun
  obtain ⟨t', hsecond, h'⟩ := hf s s t a s' h hrun
  rw [hsame s t h] at hsecond
  exact ⟨t', hsecond, h'⟩

theorem reject_bind : Respects R ((Build.reject p : Build α) >>= k) := by
  intro s t b s' h hrun
  obtain ⟨_, _, hreject, -⟩ := bind_ok.mp hrun
  cases hreject

theorem ofExcept (x : Except Fault α) : Respects R (ofExcept x) := by
  intro s t a s' h hrun
  obtain ⟨rfl, rfl⟩ := ofExcept_ok.mp hrun
  exact ⟨t, rfl, h⟩

theorem composing : Composing fun _ x => Respects R x where
  pure := .pure
  seq := .bind
  never hnever := fun s _ a s' _ hrun => (hnever s a s' hrun).elim

end Respects

/-- What a name stands for depends on the globals, on the table of the target and on the open
scopes. -/
theorem find?_congr (hglobals : ∀ name, Assoc.get? (globalName name) s.draft.globals =
      Assoc.get? (globalName name) t.draft.globals)
    (hlocals : s.draft.locals? s.frame.place = t.draft.locals? t.frame.place)
    (hsprite : s.frame.place.isSprite = t.frame.place.isSprite)
    (hcurrent : s.frame.currentScope = t.frame.currentScope)
    (hscopes : s.frame.scopes = t.frame.scopes) (hrun : find? key s = .ok found s') :
    find? key t = .ok found t ∧ s = s' := by
  have hsame : (key.text.bind fun name => Assoc.get? (globalName name) s.draft.globals) =
      key.text.bind fun name => Assoc.get? (globalName name) t.draft.globals := by
    cases key.text with
    | none => rfl
    | some name => exact hglobals name
  obtain ⟨hfound, rfl⟩ := find?_ok.mp hrun
  unfold keyed at hfound
  rw [hsame, hlocals, hsprite, hcurrent, hscopes] at hfound
  exact ⟨find?_ok.mpr ⟨hfound, rfl⟩, rfl⟩

/-- The steps by which expressions are translated respect a relation, and related states give
the same answers to what these steps ask. -/
structure Reading (R : BuildState → BuildState → Prop) : Prop where
  moveTo : ∀ p, Respects R (moveTo p)
  find? : ∀ key, Respects R (find? key)
  emitAll : ∀ blocks, Respects R (emitAll blocks)
  cloneFlag : Respects R cloneFlag
  alike : ∀ {s t}, R s t → Alike s t

namespace Reading

theorem emit (h : Reading R) (block : Value) : Respects R (emit block) := h.emitAll [block]

theorem looking (h : Reading R) : Looking fun _ x => Respects R x where
  toComposing := Respects.composing
  ask hsame hf := .get_bind (fun s t hst => hsame s t (h.alike hst)) hf
  find? := h.find?

/-- Translating an expression respects what its steps respect. -/
theorem expression (h : Reading R) (e : Expr) : Respects R (expression .script e) :=
  Stepping.expression
    { h.looking with
      moveTo := h.moveTo
      attributeValue := fun _ => h.looking.attributeValue h.cloneFlag
      callValue := fun _ => h.looking.callValue fun _ _ => h.emit _
      constantValue := fun hd => by cases hd } e

end Reading

/-- Only the position last looked at differs. -/
def Moved (s t : BuildState) : Prop := ∃ p, { s with session.position := p } = t

theorem moved_moveTo (h : moveTo p s = .ok u t) : Moved s t :=
  ⟨_, (moveTo_ok.mp h).2⟩

namespace Moved

theorem refl (s : BuildState) : Moved s s := ⟨_, rfl⟩

theorem symm (h : Moved s t) : Moved t s := by
  obtain ⟨p, rfl⟩ := h
  exact ⟨_, rfl⟩

theorem trans (h : Moved s t) (h' : Moved t s') : Moved s s' := by
  obtain ⟨p, rfl⟩ := h
  obtain ⟨q, rfl⟩ := h'
  exact ⟨q, rfl⟩

theorem find? (h : Moved s t) (hfind : find? key s = .ok found s') :
    Build.find? key t = .ok found t ∧ s = s' := by
  obtain ⟨p, rfl⟩ := h
  exact find?_congr (fun _ => rfl) rfl rfl rfl rfl hfind

theorem reading : Reading Moved where
  moveTo p := by
    rintro s _ u s' ⟨q, rfl⟩ hrun
    obtain ⟨hpos, rfl⟩ := moveTo_ok.mp hrun
    exact ⟨_, moveTo_ok.mpr ⟨hpos, rfl⟩, _, rfl⟩
  find? key := by
    intro s t found s' h hrun
    obtain ⟨hfind, rfl⟩ := h.find? hrun
    exact ⟨t, hfind, h⟩
  emitAll blocks := by
    rintro s _ u s' ⟨q, rfl⟩ hrun
    obtain ⟨hopen, rfl⟩ := emitAll_ok.mp hrun
    exact ⟨_, emitAll_ok.mpr ⟨hopen, rfl⟩, q, rfl⟩
  cloneFlag := by
    have hsprite : Respects Moved Build.inSprite := .get_bind (by rintro s _ ⟨q, rfl⟩; rfl)
      fun _ => .pure _
    refine .bind hsprite fun sprite => ?_
    split
    · exact .reject_bind
    · refine .get_bind (by rintro s _ ⟨q, rfl⟩; rfl) fun t => ?_
      split
      · exact .pure _
      · refine .bind ?_ fun _ => .pure _
        rintro s _ d s' ⟨q, rfl⟩ hrun
        cases hrun
        exact ⟨_, rfl, q, rfl⟩
  alike := by
    rintro s _ ⟨q, rfl⟩
    exact ⟨rfl, rfl, fun _ => rfl⟩

end Moved

end BlockScript.Build
