import BlockScript.Proofs.Formulas
import BlockScript.Proofs.Updates

/-!
Items of lists. An index is checked and shifted by one in three places: where an item is read,
where it is assigned and where it is changed in place. Reading asks for a number, assigning also
refuses literals that no list has an item for, and changing in place asks for nothing.
-/
namespace BlockScript

/-- An operator always has a result for a block. -/
theorem UpdateOp.exists_apply {op : UpdateOp} {a : Value} (hop : op ≠ .arith .neg)
    (ha : a.isBlock = true) (v : Value) : ∃ w, op.apply a v = .ok w := by
  cases op with
  | concat => exact ⟨_, rfl⟩
  | arith op =>
    cases op with
    | add | sub | mul | div => exact ⟨_, if_pos (by rw [ha, Bool.true_or])⟩
    | mod =>
      refine ⟨.op .modulo [a, v], ?_⟩
      cases a <;> first | rfl | cases ha
    | pow =>
      have hnumber : a.number? = none := by cases a <;> first | rfl | cases ha
      have hdepth : a.depth = .ok a.blockCount := by cases a <;> first | rfl | cases ha
      change ∃ w, a.pow v = .ok w
      unfold Value.pow
      rw [hnumber]
      cases v.number? with
      | none => exact ⟨_, rfl⟩
      | some n =>
        dsimp only
        cases Value.simplePower? a n with
        | some w => exact ⟨w, rfl⟩
        | none =>
          obtain ⟨found, hfound⟩ : ∃ found, Value.product? a v = .ok found := by
            cases v with
            | int n => exact ⟨_, Value.product?_int hdepth n⟩
            | _ => exact ⟨_, rfl⟩
          cases found <;> exact ⟨_, by rw [hfound]; rfl⟩
    | neg => exact absurd rfl hop

/-- What is no literal, or a literal that some list has an item for. -/
def Value.mayIndex : Value → Bool
  | .int n => decide (0 ≤ n)
  | .float _ => false
  | _ => true

namespace Build

variable {s s' t : BuildState} {d : Data} {name : String} {index value : Expr} {op : UpdateOp}
  {i v place : Value} {pos p q : Position}

theorem requireLiteralIndex_ok :
    requireLiteralIndex i s = .ok u s' ↔ i.mayIndex = true ∧ s = s' := by
  cases i with
  | int n =>
    rw [requireLiteralIndex, Value.mayIndex]
    by_cases hn : n < 0
    · simp [hn, reject_ok, Int.not_le.mpr hn]
    · simp [hn, pure_ok, Int.not_lt.mp hn]
  | float x => simp [requireLiteralIndex, Value.mayIndex, reject_ok]
  | _ => simp [requireLiteralIndex, Value.mayIndex, pure_ok]

/-- A list that may be changed, in a builder that is writing a script, with an index and a value
that can be translated there. -/
structure Indexing (s : BuildState) (name : String) (index value : Expr) (d : Data)
    (i v : Value) : Prop where
  found : find? (.ofName name) s = .ok (some d) s
  list : d.type = .typed .ofList
  mutable : d.constant = false
  writing : s.frame.unfinished ≠ []
  index : ∃ t, expression .script index s = .ok i t
  value : ∃ t, expression .script value s = .ok v t

theorem Unmoved.translated (h : Unmoved s t) (he : ∃ s', expression .script e s = .ok v s') :
    ∃ t', expression .script e t = .ok v t' ∧ Unmoved s t' := by
  obtain ⟨s', he⟩ := he
  obtain ⟨t', he', hafter⟩ := Unmoved.reading.expression e _ _ _ _ h he
  exact ⟨t', he', (keeps_expression _ _ _ _ _ he).unmoved.trans hafter⟩

namespace Indexing

variable (h : Indexing s name index value d i v)

include h

theorem found_at (hst : Unmoved s t) : find? (.ofName name) t = .ok (some d) t := by
  obtain ⟨t', hfind, -⟩ := Unmoved.reading.find? _ _ _ _ _ hst h.found
  obtain rfl := readOnly_find? _ _ _ _ hfind
  exact hfind

theorem target (hp : p ≠ .missing) (hst : Unmoved s t) :
    ∃ t', expression .script (.name p name) t = .ok (.data d) t' ∧ Unmoved s t' := by
  obtain ⟨t', hmove, hst'⟩ := hst.exists_moveTo hp
  exact ⟨t', (name_ok (h.found_at hst)).mpr ⟨hmove, by rw [h.list]; rfl⟩, hst'⟩

theorem requires_list (more : List (List TypeSet)) (template : String) (t : BuildState) :
    require ([.ofList] :: more) [.data d] template t = .ok () t := by
  refine ofOutcome_ok.mpr ⟨Outcome.require_ok.mpr ⟨[some d.type], rfl, ?_⟩, rfl⟩
  rw [h.list]
  rfl

theorem mutable_at (t : BuildState) : requireMutable d t = .ok () t := by
  simp only [requireMutable, h.mutable]
  rfl

/-- Where an item is read, the index must be a number. -/
theorem read_eq (hp : p ≠ .missing) (hq : q ≠ .missing) :
    ∃ t, expression .script (.index q (.name p name) index) s = (do
      require [[.ofNumber]] [i] "Index must be a number, not a \x7b\x7d"
      let place ← ofExcept (i.add (.int 1))
      return Value.block .itemOfList [place, .data d] (some .general) none) t := by
  obtain ⟨t₁, hmove, h₁⟩ := (Unmoved.refl s).exists_moveTo hq
  obtain ⟨t₂, htarget, h₂⟩ := h.target hp h₁
  obtain ⟨t₃, hindex, -⟩ := h₂.translated h.index
  refine ⟨t₃, ?_⟩
  have htype : ofExcept (Value.data d).type? = pure (some (.typed .ofList)) := by
    rw [Value.type?, h.list]
    rfl
  rw [expression, bind_of_ok hmove, bind_of_ok htarget, bind_of_ok hindex, indexed,
    bind_of_ok (h.requires_list _ _ t₃), htype]
  rfl

/-- Where an item is assigned, the index must be a number, and a literal must be one that some
list has an item for. -/
theorem assign_eq (hpos : pos ≠ .missing) (hp : p ≠ .missing) (hq : q ≠ .missing) :
    ∃ t, Unmoved s t ∧ statement (.assign pos (.index q (.name p name) index) value) s = (do
      require [[.ofNumber]] [i] "Index must be a number, not a \x7b\x7d"
      requireLiteralIndex i
      requireScript
      emit (.op .replaceInList [← ofExcept (i.add (.int 1)), .data d, v])) t := by
  obtain ⟨t₁, hmove, h₁⟩ := (Unmoved.refl s).exists_moveTo hpos
  obtain ⟨t₂, hmove', h₂⟩ := h₁.exists_moveTo hq
  obtain ⟨t₃, hvalue, h₃⟩ := h₂.translated h.value
  obtain ⟨t₄, htarget, h₄⟩ := h.target hp h₃
  obtain ⟨t₅, hindex, h₅⟩ := h₄.translated h.index
  obtain ⟨t₆, hvalue', h₆⟩ := h₅.translated h.value
  refine ⟨t₆, h₆, ?_⟩
  have hposition : ofExcept (Expr.index q (.name p name) index).position t₁ = .ok q t₁ :=
    ofExcept_ok.mpr ⟨if_neg hq, rfl⟩
  rw [statement, bind_of_ok hmove, assignTo, bind_of_ok hposition, bind_of_ok hmove',
    bind_of_ok hvalue]
  change assignItem (.name p name) index value t₃ = _
  rw [assignItem, bind_of_ok htarget]
  dsimp only
  rw [bind_of_ok (h.mutable_at t₄), bind_of_ok hindex, bind_of_ok hvalue',
    bind_of_ok (h.requires_list _ _ t₆)]

/-- Where an item is changed in place, the index is not looked at. -/
theorem update_eq (hpos : pos ≠ .missing) (op : UpdateOp) :
    ∃ t, Unmoved s t ∧ statement (.update pos op (.index q (.name p name) index) value) s = (do
      let place ← ofExcept (i.add (.int 1))
      let w ← ofExcept (op.apply (.op .itemOfList [place, .data d]) v)
      emit (.op .replaceInList [place, .data d, w])) t := by
  obtain ⟨t₁, hmove, h₁⟩ := (Unmoved.refl s).exists_moveTo hpos
  obtain ⟨t₂, hvalue, h₂⟩ := h₁.translated h.value
  obtain ⟨t₃, hindex, h₃⟩ := h₂.translated h.index
  refine ⟨t₃, h₃, ?_⟩
  have hnamed : variableNamed name t₂ = .ok d t₂ := bind_of_ok (h.found_at h₂)
  have hplain : ofExcept (Expr.name p name).plainName t₂ = .ok name t₂ := rfl
  rw [statement, bind_of_ok hmove, update, bind_of_ok hvalue]
  change updateItem op (.name p name) index v t₂ = _
  rw [updateItem, bind_of_ok hplain, bind_of_ok hnamed, bind_of_ok (h.mutable_at t₂),
    bind_of_ok hindex]
  cases i.add (.int 1) with
  | error f => rfl
  | ok place =>
    have hplace : ofExcept (.ok place) t₃ = .ok place t₃ := rfl
    rw [bind_of_ok hplace, bind_of_ok hplace, bind_of_ok (h.requires_list _ _ t₃)]

end Indexing

/-- A statement that replaces an item of a list as the last thing it does. -/
def Replaces (x : Build Unit) (s : BuildState) (d : Data) (place : Value) : Prop :=
  ∃ t item, x s = .ok () t ∧
    (t.frame.unfinished.headD []).getLast? = some (.op .replaceInList [place, .data d, item])

/-- A step that does not succeed. -/
def Stops {α : Type} (x : Build α) (s : BuildState) : Prop := ∀ a t, x s ≠ .ok a t

theorem Unmoved.replaces (hst : Unmoved s t) (hs : s.frame.unfinished ≠ []) :
    ∃ t', emit (.op .replaceInList [place, .data d, item]) t = .ok () t' ∧
      (t'.frame.unfinished.headD []).getLast? =
        some (.op .replaceInList [place, .data d, item]) := by
  have hwriting := hst.writing
  cases hscripts : t.frame.unfinished with
  | nil =>
    rw [hscripts] at hwriting
    exact absurd (List.isEmpty_iff.mp hwriting.symm) hs
  | cons script rest =>
    refine ⟨_, emit_ok.mpr ⟨by rw [hscripts]; exact List.cons_ne_nil _ _, rfl⟩, ?_⟩
    rw [hscripts]
    exact List.getLast?_concat

namespace Indexing

variable (h : Indexing s name index value d i v)

include h

theorem reads_iff (hp : p ≠ .missing) (hq : q ≠ .missing) (r : Value) :
    (∃ t, expression .script (.index q (.name p name) index) s = .ok r t) ↔
      i.Fits .ofNumber ∧ ∃ place, i.add (.int 1) = .ok place ∧
        r = .block .itemOfList [place, .data d] (some .general) none := by
  obtain ⟨t, heq⟩ := h.read_eq hp hq
  rw [heq]
  constructor
  · rintro ⟨t', hrun⟩
    obtain ⟨_, t₁, hrequire, place, t₂, hadd, hrun⟩ := bind_bind_ok.mp hrun
    exact ⟨Outcome.require_one.mp (ofOutcome_ok.mp hrequire).1, place, (ofExcept_ok.mp hadd).1,
      (pure_ok.mp hrun).1.symm⟩
  · rintro ⟨hfits, place, hadd, rfl⟩
    exact ⟨t, bind_ok.mpr ⟨(), t, ofOutcome_ok.mpr ⟨Outcome.require_one.mpr hfits, rfl⟩,
      bind_ok.mpr ⟨place, t, ofExcept_ok.mpr ⟨hadd, rfl⟩, rfl⟩⟩⟩

section

variable (hpos : pos ≠ .missing)

include hpos

theorem assigned (hp : p ≠ .missing) (hq : q ≠ .missing)
    (hrun : statement (.assign pos (.index q (.name p name) index) value) s = .ok () s') :
    i.Fits .ofNumber ∧ i.mayIndex = true ∧ ∃ place, i.add (.int 1) = .ok place := by
  obtain ⟨t, -, heq⟩ := h.assign_eq hpos hp hq
  rw [heq] at hrun
  obtain ⟨_, t₁, hrequire, _, t₂, hliteral, hrun⟩ := bind_bind_ok.mp hrun
  obtain ⟨_, t₃, -, place, t₄, hadd, -⟩ := bind_bind_ok.mp hrun
  exact ⟨Outcome.require_one.mp (ofOutcome_ok.mp hrequire).1,
    (requireLiteralIndex_ok.mp hliteral).1, place, (ofExcept_ok.mp hadd).1⟩

theorem replaces_assign (hp : p ≠ .missing) (hq : q ≠ .missing)
    (hfits : i.Fits .ofNumber) (hmay : i.mayIndex = true) (hadd : i.add (.int 1) = .ok place) :
    Replaces (statement (.assign pos (.index q (.name p name) index) value)) s d place := by
  obtain ⟨t, hst, heq⟩ := h.assign_eq hpos hp hq
  obtain ⟨t', hemit, hlast⟩ := hst.replaces h.writing
  refine ⟨t', v, heq.trans ?_, hlast⟩
  refine bind_ok.mpr ⟨(), t, ofOutcome_ok.mpr ⟨Outcome.require_one.mpr hfits, rfl⟩, ?_⟩
  refine bind_ok.mpr ⟨(), t, requireLiteralIndex_ok.mpr ⟨hmay, rfl⟩, ?_⟩
  refine bind_ok.mpr ⟨(), t, requireScript_ok.mpr ⟨(emit_ok.mp hemit).1, rfl⟩, ?_⟩
  exact bind_ok.mpr ⟨place, t, ofExcept_ok.mpr ⟨hadd, rfl⟩, hemit⟩

theorem replaces_update (hop : op ≠ .arith .neg) (hadd : i.add (.int 1) = .ok place) :
    Replaces (statement (.update pos op (.index q (.name p name) index) value)) s d place := by
  obtain ⟨t, hst, heq⟩ := h.update_eq hpos op
  obtain ⟨w, hw⟩ := UpdateOp.exists_apply hop (a := .op .itemOfList [place, .data d]) rfl v
  obtain ⟨t', hemit, hlast⟩ := hst.replaces h.writing
  refine ⟨t', w, heq.trans ?_, hlast⟩
  refine bind_ok.mpr ⟨place, t, ofExcept_ok.mpr ⟨hadd, rfl⟩, ?_⟩
  exact bind_ok.mpr ⟨w, t, ofExcept_ok.mpr ⟨hw, rfl⟩, hemit⟩

theorem update_fault (op : UpdateOp) (hadd : i.add (.int 1) = .error f) :
    ∃ t, statement (.update pos op (.index q (.name p name) index) value) s =
      .error (.fault f) t := by
  obtain ⟨t, -, heq⟩ := h.update_eq hpos op
  rw [hadd] at heq
  exact ⟨t, heq⟩

end

end Indexing

/-- Reading an item of a list, assigning it and changing it in place all address the place one
after the index, or all three stop. -/
def PathsAgree (s : BuildState) (d : Data) (i : Value) (item : Expr)
    (assign update : Stmt) : Prop :=
  (∃ place, i.add (.int 1) = .ok place ∧
    (∃ t, expression .script item s =
      .ok (.block .itemOfList [place, .data d] (some .general) none) t) ∧
    Replaces (statement assign) s d place ∧ Replaces (statement update) s d place) ∨
  Stops (expression .script item) s ∧ Stops (statement assign) s ∧ Stops (statement update) s

/-- The three agree when the index is a number and no negative or fractional literal, or when one
cannot be added to it. In the last case changing in place stops without a message. -/
theorem index_paths_agree_iff (h : Indexing s name index value d i v) (hpos : pos ≠ .missing)
    (hp : p ≠ .missing) (hq : q ≠ .missing) (op : UpdateOp) (hop : op ≠ .arith .neg) :
    (PathsAgree s d i (.index q (.name p name) index)
        (.assign pos (.index q (.name p name) index) value)
        (.update pos op (.index q (.name p name) index) value) ↔
      i.Fits .ofNumber ∧ i.mayIndex = true ∨ ∃ f, i.add (.int 1) = .error f) ∧
    ∀ f, i.add (.int 1) = .error f →
      ∃ t, statement (.update pos op (.index q (.name p name) index) value) s =
        .error (.fault f) t := by
  refine ⟨⟨?_, ?_⟩, fun f => h.update_fault hpos op⟩
  · rintro (⟨place, -, -, ⟨t, item, hassign, -⟩, -⟩ | ⟨-, -, hupdate⟩)
    · obtain ⟨hfits, hmay, -⟩ := h.assigned hpos hp hq hassign
      exact .inl ⟨hfits, hmay⟩
    · cases hadd : i.add (.int 1) with
      | error f => exact .inr ⟨f, rfl⟩
      | ok place =>
        obtain ⟨t, item, hrun, -⟩ := h.replaces_update hpos hop hadd (p := p) (q := q)
        exact absurd hrun (hupdate () t)
  · intro hindex
    cases hadd : i.add (.int 1) with
    | error f =>
      refine .inr ⟨fun r t hread => ?_, fun u t hassign => ?_, fun u t hupdate => ?_⟩
      · obtain ⟨-, place, hplace, -⟩ := (h.reads_iff hp hq r).mp ⟨t, hread⟩
        cases hadd.symm.trans hplace
      · obtain ⟨-, -, place, hplace⟩ := h.assigned hpos hp hq hassign
        cases hadd.symm.trans hplace
      · obtain ⟨t', hfault⟩ := h.update_fault hpos op hadd
        cases hfault.symm.trans hupdate
    | ok place =>
      obtain ⟨hfits, hmay⟩ := hindex.resolve_right fun ⟨f, hf⟩ => by cases hadd.symm.trans hf
      exact .inl ⟨place, hadd, (h.reads_iff hp hq _).mpr ⟨hfits, place, hadd, rfl⟩,
        h.replaces_assign hpos hp hq hfits hmay hadd, h.replaces_update hpos hop hadd⟩

def itemsData : Data := ⟨"g_items", true, .typed .ofList, false⟩

/-- A builder that knows one global list, in the middle of a script. -/
def itemsWriter : BuildState :=
  let s := BuildState.fresh (.fresh (some .error) false) "project"
  { s with draft.globals := [("g_items", itemsData)], frame.unfinished := [[]] }

/-- The item before the first one is read, but not assigned. -/
theorem index_paths_agree_iff_negative :
    ¬ PathsAgree itemsWriter itemsData (.int (-1))
      (.index .nowhere (.name .nowhere "items") (.int (-1)))
      (.assign .nowhere (.index .nowhere (.name .nowhere "items") (.int (-1))) (.int 5))
      (.update .nowhere (.arith .add) (.index .nowhere (.name .nowhere "items") (.int (-1)))
        (.int 5)) := by
  have hplaced : Position.nowhere ≠ .missing := by decide
  have h : Indexing itemsWriter "items" (.int (-1)) (.int 5) itemsData (.int (-1)) (.int 5) :=
    ⟨rfl, rfl, rfl, List.cons_ne_nil _ _, ⟨_, rfl⟩, ⟨_, rfl⟩⟩
  rw [(index_paths_agree_iff h hplaced hplaced hplaced (.arith .add) (by decide)).1]
  rintro (⟨-, hmay⟩ | ⟨f, hf⟩)
  · cases hmay
  · cases hf

end Build

end BlockScript
