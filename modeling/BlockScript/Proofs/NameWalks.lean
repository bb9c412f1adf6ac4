import BlockScript.Proofs.Entries

/-!
Looking up an expression in a table of names is a walk from its root: one step into a table for
each word of the expression. An expression with an item of a list in it has no words to walk by.
-/
namespace BlockScript

/-- The forms of attributes and items that scripts can write. -/
inductive Expr.IsAttribute : Expr → Prop
  | word (s : String) : IsAttribute (.str s)
  | name (pos : Position) (n : String) : IsAttribute (.name pos n)
  | attr {object : Expr} (pos : Position) (n : String) (h : IsAttribute object) :
    IsAttribute (.attr pos object n)
  | index {list : Expr} (pos : Position) (i : Expr) (h : IsAttribute list) :
    IsAttribute (.index pos list i)

/-- Whether an item is taken somewhere on the way to an attribute. -/
def Expr.hasIndex : Expr → Bool
  | .index _ _ _ => true
  | .attr _ object _ => object.hasIndex
  | _ => false

theorem Expr.IsAttribute.isSome_path? {e : Expr} (h : IsAttribute e) :
    e.path?.isSome = !e.hasIndex := by
  induction h with
  | word s | name pos n | index pos i h ih => rfl
  | attr pos n h ih => simpa [path?, hasIndex] using ih

namespace NameTable

variable {α : Type} {word : String} {words : List String}

/-- The words lead from a table to what stands at their end, through tables only. -/
inductive Reaches : NameTable α → List String → NameTable α → Prop
  | here (t : NameTable α) : Reaches t [] t
  | into {names : List (String × NameTable α)} {word : String} {words : List String}
    {t u : NameTable α} (h : names.lookup word = some t) (rest : Reaches t words u) :
    Reaches (.table names) (word :: words) u

variable {root t u : NameTable α}

theorem reaches_nil : Reaches root [] t ↔ root = t := by
  constructor
  · rintro ⟨⟩
    rfl
  · rintro rfl
    exact .here root

theorem reaches_cons : Reaches root (word :: words) u ↔
    ∃ t, root.find? word = some t ∧ Reaches t words u := by
  constructor
  · rintro (_ | ⟨h, rest⟩)
    exact ⟨_, h, rest⟩
  · rintro ⟨t, h, rest⟩
    cases root with
    | entry a => cases h
    | table names => exact .into h rest

/-- The last step of a walk. -/
theorem reaches_concat : Reaches root (words ++ [word]) u ↔
    ∃ t, Reaches root words t ∧ t.find? word = some u := by
  induction words generalizing root with
  | nil => simp [reaches_cons, reaches_nil]
  | cons first words ih =>
    simp only [List.cons_append, reaches_cons, ih]
    grind

theorem resolve_eq_some_iff (root : NameTable α) (e : Expr) :
    root.resolve e = some t ↔ ∃ path, e.path? = some path ∧ Reaches root path t := by
  fun_induction resolve root e generalizing t with
  | case1 s | case2 pos n => simp [Expr.path?, reaches_cons, reaches_nil]
  | case3 pos object n ih =>
    simp only [Option.bind_eq_some_iff, ih, Expr.path?, Option.map_eq_some_iff]
    constructor
    · rintro ⟨u, ⟨path, hpath, hu⟩, ht⟩
      exact ⟨_, ⟨path, hpath, rfl⟩, reaches_concat.mpr ⟨u, hu, ht⟩⟩
    · rintro ⟨_, ⟨path, hpath, rfl⟩, ht⟩
      obtain ⟨u, hu, ht⟩ := reaches_concat.mp ht
      exact ⟨u, ⟨path, hpath, hu⟩, ht⟩
  | case4 e hstr hname hattr => simp [Expr.path?]

/-- An attribute stands for what its words lead to. It stands for nothing exactly if an item is
taken in it or its words lead nowhere. -/
theorem resolve_iff_reaches (root : NameTable α) {e : Expr} (h : e.IsAttribute) :
    (∀ t, root.resolve e = some t ↔
      e.hasIndex = false ∧ ∃ path, e.path? = some path ∧ Reaches root path t) ∧
    (root.resolve e = none ↔
      e.hasIndex = true ∨ ∃ path, e.path? = some path ∧ ∀ t, ¬Reaches root path t) := by
  have hsome := h.isSome_path?
  cases hpath : e.path? with
  | none =>
    have hindex : e.hasIndex = true := by simpa [hpath] using hsome
    have hnone : root.resolve e = none := by
      simp [Option.eq_none_iff_forall_ne_some, resolve_eq_some_iff, hpath]
    simp [hnone, hindex]
  | some path =>
    have hindex : e.hasIndex = false := by simpa [hpath] using hsome
    simp [Option.eq_none_iff_forall_ne_some, resolve_eq_some_iff, hpath, hindex]

theorem resolve_iff_reaches_costume :
    Reaches Builtins.reporters ["this", "costume", "name"]
      (Builtins.inSprites (.constant (Builtins.typedBlock .costume "name" .ofString))) ∧
    Builtins.reporters.resolve (.attr .nowhere
      (.index .nowhere (.attr .nowhere (.str "this") "costume") (.int 0)) "name") = none := by
  have hcostume : (Expr.attr .nowhere (.str "this") "costume").IsAttribute :=
    .attr _ _ (.word "this")
  obtain ⟨-, path, hpath, h⟩ :=
    ((resolve_iff_reaches Builtins.reporters (hcostume.attr .nowhere "name")).1 _).mp rfl
  cases hpath
  have hitem := (hcostume.index .nowhere (.int 0)).attr .nowhere "name"
  exact ⟨h, (resolve_iff_reaches _ hitem).2.mpr (.inl rfl)⟩

end NameTable

end BlockScript
