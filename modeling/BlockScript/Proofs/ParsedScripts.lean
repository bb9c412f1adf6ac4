import BlockScript.Proofs.ScriptTrees

/-!
The scripts that parsing can give. What is accepted is a script by the grammar, and so all of it is
of the right form.
-/
namespace BlockScript

namespace Grammar

open ParseTree

/-- A text that is a script by the grammar: it can be scanned to its end, and the script has a
derivation from its tokens. -/
def Spells (source : String) (p : Script) : Prop :=
  ∃ line, (scan .script line source).error = none ∧
    Derives scripts Fragment.ofToken [.cat .program] (scan .script line source).tokens [.script p]

/-- A step of a derivation by the rule of the script grammar with a given number. -/
theorem Derives.step (i : Nat) {parts : List Fragment} {inner tokens : List Token}
    (hrule : scripts.rules[i]? = some r)
    (body : Derives scripts Fragment.ofToken r.body inner parts) (built : r.action parts = .ok v)
    (rest : Derives scripts Fragment.ofToken symbols tokens values) :
    Derives scripts Fragment.ofToken (.cat r.head :: symbols) (inner ++ tokens) (v :: values) :=
  .rule (List.mem_of_getElem? hrule) body built rest

section

variable {α : Type} {g : Grammar α} {ofToken : Token → α} {symbols : List Symbol}
  {tokens : List Token} {values : List α}

/-- What holds of the values of some tokens and is kept by the rules holds of all values that are
derived from them. A rule is applied to what is derived from tokens that stand in the same order. -/
theorem Derives.forall₂_values (htoken : ∀ t ∈ all, P (.tok t.kind) (ofToken t))
    (hrules : ∀ r ∈ g.rules, ∀ inner parts v, inner.Sublist all → Derives g ofToken r.body inner parts →
      List.Forall₂ P r.body parts → r.action parts = .ok v → P (.cat r.head) v)
    (h : Derives g ofToken symbols tokens values) (hall : tokens.Sublist all) :
    List.Forall₂ P symbols values := by
  induction h with
  | nil => exact .nil
  | token t _ ih =>
    have hrest := (List.sublist_cons_self _ _).trans hall
    exact .cons (htoken t (hall.subset List.mem_cons_self)) (ih hrest)
  | rule mem body built _ ihparts ih =>
    have hinner := (List.sublist_append_left _ _).trans hall
    have hrest := (List.sublist_append_right _ _).trans hall
    exact .cons (hrules _ mem _ _ _ hinner body (ihparts hinner) built) (ih hrest)

theorem forall_of_forall₂ {P : α → Prop} (h : List.Forall₂ (fun _ v => P v) symbols values) :
    ∀ v ∈ values, P v := by
  induction h with
  | nil => simp
  | cons hv _ ih => exact List.forall_mem_cons.mpr ⟨hv, ih⟩

theorem Derives.forall_values {P : α → Prop} (htoken : ∀ t, P (ofToken t))
    (hrules : ∀ r ∈ g.rules, ∀ parts v, (∀ p ∈ parts, P p) → r.action parts = .ok v → P v)
    (h : Derives g ofToken symbols tokens values) : ∀ v ∈ values, P v :=
  forall_of_forall₂ <| h.forall₂_values (P := fun _ v => P v) (fun t _ => htoken t)
    (fun r hr _ parts v _ _ hparts => hrules r hr parts v (forall_of_forall₂ hparts))
    (List.Sublist.refl _)

end

theorem ValueOf.formed (h : ValueOf ts (.expr e) x) : e.Formed := by
  cases x with
  | tok t =>
    obtain ⟨_, _, h⟩ := h.token
    cases h
  | cat c =>
    cases c
    all_goals simp only [ValueOf, reduceCtorEq, Fragment.expr.injEq, exists_false, false_and,
      exists_eq_left'] at h
    case place | index =>
      obtain ⟨-, _, _, rfl, -, hformed, -⟩ := h
      exact hformed
    case functionCall =>
      obtain ⟨-, p, g, es, rfl, -⟩ := h
      simp [formed_made]
    case list =>
      obtain ⟨es, rfl⟩ := h
      exact ⟨by rintro _ _ _ ⟨⟩, by rintro _ ⟨⟩⟩
    all_goals exact h.1

theorem ValueOf.isTop (h : ValueOf ts (.script p) x) :
    ∀ stmt ∈ p.statements, stmt.isTop = true := by
  cases x with
  | tok t =>
    obtain ⟨_, _, h⟩ := h.token
    cases h
  | cat c =>
    cases c
    all_goals simp [ValueOf] at h
    exact h

section

variable (h : Spells source p)

include h

theorem Spells.exists_tree :
    ∃ T : ParseTree, Keeps T (.script p) ∧
      ∀ U ∈ T.subtrees, ∀ f, U.value scripts .ofToken = .ok f → Keeps U f := by
  obtain ⟨line, hscan, hderived⟩ := h
  obtain ⟨T, -, -, hvalue, hkeeps⟩ := hderived.exists_tree (scan_spelled hscan).1
  exact ⟨T, (hkeeps T (by cases T <;> simp) _ hvalue).2, fun U hU f hf => (hkeeps U hU f hf).2⟩

/-- Only variables, functions and hats stand at the top level of a script. -/
theorem Spells.isTop : ∀ stmt ∈ p.statements, stmt.isTop = true := by
  obtain ⟨T, hT, -⟩ := h.exists_tree
  obtain ⟨x, hshape⟩ := hT.shaped
  exact hshape.isTop

theorem Spells.formed : ∀ e ∈ p.nodes, e.Formed := by
  intro e he
  cases hword : e.isWord with
  | true =>
    cases e <;> first | cases hword | skip
    next v => cases v <;> first | cases hword | exact ⟨nofun, by rintro v ⟨⟩; rfl⟩
  | false =>
    obtain ⟨T, hT, hall⟩ := h.exists_tree
    obtain ⟨U, hU, hvalue⟩ := hT.has (.expr e) ⟨he, hword⟩
    obtain ⟨x, hshape⟩ := (hall U (by simpa using hU) _ hvalue).shaped
    exact hshape.formed

/-- The object of an attribute in a script is one of the two words or a tree. -/
theorem Spells.attached : ∀ e ∈ p.nodes, e.Attached := fun e he => (h.formed e he).1

/-- The literals in a script are numbers and texts. -/
theorem Spells.written : ∀ e ∈ p.nodes, e.Written := fun e he => (h.formed e he).2

end

end Grammar

namespace Session

open Grammar

variable {s s' : Session} {source : String}

/-- What is accepted comes out of the parser. -/
theorem parseFragment_ok (hcontent : s.content = .ok source) (h : s.parseFragment d = (.ok v, s')) :
    ∃ line,
      (machine d).parse (s.line d) (scan d (s.line d) source) = (.accepted v, line) ∧
        s' = s.setLine d line := by
  unfold parseFragment at h
  rw [hcontent] at h
  cases hrun : (machine d).parse (s.line d) (scan d (s.line d) source) with
  | mk stop line =>
    simp only [hrun] at h
    cases stop with
    | accepted v =>
      cases h
      exact ⟨line, rfl, rfl⟩
    | rejected r | unreadable e | fault f => cases h

/-- What parsing accepts is a script by the grammar. -/
theorem parseScript_spells (hcontent : s.content = .ok source) (h : s.parseScript = (.ok p, s')) :
    Spells source p := by
  unfold parseScript at h
  split at h
  · rename_i hparse
    cases h
    obtain ⟨_, hrun, -⟩ := parseFragment_ok hcontent hparse
    obtain ⟨hscan, -, hderives⟩ := Machine.parse_accepted hrun
    exact ⟨s.line .script, hscan, hderives⟩
  all_goals cases h

end Session

end BlockScript
