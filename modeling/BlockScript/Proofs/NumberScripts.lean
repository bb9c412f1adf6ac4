import BlockScript.Proofs.NumberExpressions

/-!
Building number code. The scopes of the builder are the blocks of the code, and the name of
a variable resolves to the variable of the innermost block that declares it. The blocks that
are built therefore do what the code does.
-/
namespace BlockScript.NumberCode

open Build

/-- What building some code does: the blocks it begins, those it adds to the script, the variables
it adds to the table and the cells for those of the block it stands in. -/
structure Extends (names : List String) (outer : List (String × Data)) (s s' : BuildState)
    (locals : Assoc String Data) (layout : Layout) (begun : Nat) (blocks : List Value)
    (added : Assoc String Data) (cells : Layout) : Prop where
  frame : s'.frame =
    { s.frame with
      lastScope := s.frame.lastScope + begun
      unfinished := addBlocks blocks s.frame.unfinished }
  globals : s'.draft.globals = s.draft.globals
  describes : Describes names outer s' (locals ++ added) (cells ++ layout)
  numbered : ∀ entry ∈ added, ∃ scope name, entry.1 = fullName s.frame.place.isSprite scope name ∧
    (scope = s.frame.currentScope ∨ s.frame.lastScope < scope)

/-- Whenever the code can be built, it is built to blocks that do what it does. -/
def Translates (byZero : Int → Int) (names : List String) (outer : List (String × Data))
    (code : Code) : Prop :=
  ∀ s s' locals layout, Describes names outer s locals layout →
    statements code.stmts s = .ok () s' →
    ∃ blocks added cells, Extends names outer s s' locals layout code.blocks blocks added cells ∧
      ∀ table, (∀ entry ∈ locals ++ added, entry ∈ table) →
        Simulates byZero (AllPlaced s.frame.place.isSprite outer table) s.frame.currentScope
          s.frame.lastScope layout code blocks (cells ++ layout)

section

variable {locals added₁ added : Assoc String Data}

theorem Describes.here (h : Describes names outer s locals layout) :
    Extends names outer s s locals layout 0 [] [] [] :=
  ⟨by simp, rfl, by rwa [List.append_nil], by simp⟩

theorem Extends.trans (h : Extends names outer s s₁ locals layout begun first added₁ cells₁)
    (h' : Extends names outer s₁ s' (locals ++ added₁) (cells₁ ++ layout) begun' second added cells) :
    Extends names outer s s' locals layout (begun + begun') (first ++ second) (added₁ ++ added)
      (cells ++ cells₁) := by
  constructor
  · simp [h'.frame, h.frame, Nat.add_assoc]
  · exact h'.globals.trans h.globals
  · have hdescribes := h'.describes
    rwa [List.append_assoc, ← List.append_assoc cells] at hdescribes
  · refine List.forall_mem_append.mpr ⟨h.numbered, fun entry hentry => ?_⟩
    have hlater := h'.numbered entry hentry
    rw [h.frame] at hlater
    obtain ⟨scope, name, hkey, hscope⟩ := hlater
    refine ⟨scope, name, hkey, hscope.imp_right fun hlt => ?_⟩
    exact Nat.lt_of_le_of_lt (Nat.le_add_right _ begun) hlt

theorem Extends.of_quiet (h : Extends names outer t s' locals layout begun blocks added cells)
    (hquiet : Quiet s t) : Extends names outer s s' locals layout begun blocks added cells :=
  ⟨hquiet.frame ▸ h.frame, h.globals.trans (congrArg Draft.globals hquiet.draft), h.describes,
    hquiet.frame ▸ h.numbered⟩

theorem Extends.emit (h : Extends names outer s t locals layout begun [] added cells)
    (hquiet : Quiet t t') (hrun : emit b t' = .ok () s') :
    Extends names outer s s' locals layout begun [b] added cells := by
  obtain ⟨-, rfl⟩ := emit_ok.mp hrun
  refine ⟨?_, ?_, (h.describes.quiet hquiet).congr rfl, h.numbered⟩
  · simp [hquiet.frame, h.frame]
  · exact (congrArg Draft.globals hquiet.draft).trans h.globals

theorem statements_cons (h : statements (stmt :: stmts) s = .ok () s') :
    ∃ t, statement stmt s = .ok () t ∧ statements stmts t = .ok () s' := by
  rw [statements] at h
  obtain ⟨_, t, hstmt, hrest⟩ := bind_ok.mp h
  exact ⟨t, hstmt, hrest⟩

/-- A statement that gives one block, and then the code after it. -/
theorem Translates.cons (hrest : Translates byZero names outer rest) (begun : Nat)
    (hstmts : code.stmts = stmt :: rest.stmts) (hblocks : code.blocks = begun + rest.blocks)
    (hstmt : ∀ s s' locals layout, Describes names outer s locals layout →
      statement stmt s = .ok () s' → ∃ b added cells,
        Extends names outer s s' locals layout begun [b] added cells ∧
        ∀ table, (∀ entry ∈ locals ++ added, entry ∈ table) → ∀ blocks layout',
          Simulates byZero (AllPlaced s.frame.place.isSprite outer table) s.frame.currentScope
            (s.frame.lastScope + begun) (cells ++ layout) rest blocks layout' →
          Simulates byZero (AllPlaced s.frame.place.isSprite outer table) s.frame.currentScope
            s.frame.lastScope layout code (b :: blocks) layout') :
    Translates byZero names outer code := by
  intro s s' locals layout h hrun
  rw [hstmts] at hrun
  obtain ⟨s₁, hfirst, hlater⟩ := statements_cons hrun
  obtain ⟨b, added₁, cells₁, hextends, hsimulates⟩ := hstmt s s₁ locals layout h hfirst
  obtain ⟨blocks, added, cells, hextends', hsimulates'⟩ := hrest _ _ _ _ hextends.describes hlater
  refine ⟨_, _, _, hblocks ▸ hextends.trans hextends', fun table htable => ?_⟩
  have hafter := hsimulates' table (by rwa [List.append_assoc])
  rw [hextends.frame] at hafter
  rw [List.append_assoc]
  refine hsimulates table (fun entry hentry => htable entry ?_) _ _ hafter
  rw [← List.append_assoc]
  exact List.mem_append_left _ hentry

section

variable (h : Describes names outer s locals layout)

include h

/-- Entering a scope changes the meaning of no name. -/
theorem Describes.enter
    (hrun : enterScope s = .ok () s') : Describes names outer s' locals layout := by
  have hfind := fun name hname => find?_enterScope h.consistent hrun (h.resolves name hname)
  have hconsistent := h.consistent.enter hrun
  obtain rfl := enterScope_ok.mp hrun
  exact ⟨hconsistent, h.table, h.known, hfind, h.numbers, h.distinct, h.placed⟩

/-- When a scope is left, the variables that were declared in it are no longer found. -/
theorem Describes.leave (hinner : Describes names outer s₁ (locals ++ added) (cells ++ layout))
    (hnumbered : ∀ entry ∈ added, ∃ scope name,
      entry.1 = fullName s.frame.place.isSprite scope name ∧ s.frame.lastScope < scope)
    (hframe : s'.frame = { s.frame with lastScope := s₁.frame.lastScope })
    (hplace : s₁.frame.place = s.frame.place) (hconsistent : Consistent s')
    (hdraft : s'.draft = s₁.draft) (hglobals : s₁.draft.globals = s.draft.globals) :
    Describes names outer s' (locals ++ added) layout := by
  have htable : s'.draft.locals? s'.frame.place = some (locals ++ added) := by
    rw [hdraft, hframe, ← hplace]
    exact hinner.table
  refine ⟨hconsistent, htable, hinner.known, ?_, ?_, ?_, ?_⟩
  · intro name hname
    rw [find?_ofName htable, hframe, hdraft, hglobals, ← h.lookup hname]
    refine ⟨lookup_closed (fun entry hentry => ?_) name, rfl⟩
    obtain ⟨scope, own, hkey, hlt⟩ := hnumbered entry hentry
    refine ⟨scope, own, by omega, ?_, hkey⟩
    intro hopen
    have hbound : ∀ scope ∈ s.frame.currentScope :: s.frame.scopes, scope ≤ s.frame.lastScope :=
      List.forall_mem_cons.mpr ⟨h.consistent.current_le, h.consistent.bounded⟩
    exact Nat.not_lt_of_le (hbound scope hopen) hlt
  · exact h.numbers
  · exact h.distinct
  · rw [hframe]
    exact h.placed.mono fun entry hentry => List.mem_append_left _ hentry

end

variable {name : String}

/-- The code of a block, built to a script of its own. -/
theorem body_translated {inner : List Value} (hbody : Translates byZero names outer body)
    (h : Describes names outer s₀ locals layout) (hquiet : Quiet s₀ s)
    (hrun : inScript true (statements body.stmts) s = .ok inner s') :
    ∃ added cells,
      Extends names outer s₀ s' locals layout (1 + body.blocks) [] added [] ∧
      AllPlaced s₀.frame.place.isSprite outer (locals ++ added) (cells ++ layout) ∧
      ∀ table, (∀ entry ∈ locals ++ added, entry ∈ table) →
        Simulates byZero (AllPlaced s₀.frame.place.isSprite outer table) (s₀.frame.lastScope + 1)
          (s₀.frame.lastScope + 1) layout body inner (cells ++ layout) := by
  have h := h.quiet hquiet
  rw [← hquiet.frame]
  obtain ⟨t, t₁, t₂, rest, henter, hstep, hexit, hscript, rfl⟩ := inScript_ok.mp hrun
  have hopened : Describes names outer { t with frame.unfinished := [] :: t.frame.unfinished } locals
      layout := (h.enter henter).congr rfl
  obtain ⟨blocks, added, cells, htrans, hsimulates⟩ := hbody _ _ _ _ hopened hstep
  have hopen := congrArg BuildState.frame (enterScope_ok.mp henter).symm
  dsimp only at hopen
  have hframe := htrans.frame
  obtain ⟨scope, around, scopes, hscopes, hclose⟩ := exitScope_ok.mp hexit
  have hrest : s.frame.scopes = around :: scopes := by
    rw [hframe, hopen] at hscopes
    exact (List.cons.inj hscopes).2
  have hcurrent : around = s.frame.currentScope := by
    have hhead := h.consistent.innermost
    rw [hrest] at hhead
    exact Option.some.inj hhead
  obtain ⟨rfl, rfl⟩ : inner = blocks ∧ rest = s.frame.unfinished := by
    rw [← hclose, hframe, hopen] at hscript
    simpa [addBlocks, eq_comm] using hscript
  have hafter : { t₂ with frame.unfinished := s.frame.unfinished }.frame =
      { s.frame with lastScope := s.frame.lastScope + (1 + body.blocks) } := by
    rw [← hclose, hframe, hopen, ← hrest, hcurrent]
    simp [Nat.add_assoc]
  have hdraft : t₂.draft = t₁.draft := by
    rw [← hclose]
  have hglobals : t₁.draft.globals = s.draft.globals := by
    rw [htrans.globals, ← enterScope_ok.mp henter]
  have hnumbered : ∀ entry ∈ added, ∃ scope name,
      entry.1 = fullName s.frame.place.isSprite scope name ∧ s.frame.lastScope < scope := by
    intro entry hentry
    have hlater := htrans.numbered entry hentry
    rw [hopen] at hlater
    obtain ⟨scope, name, hkey, hscope⟩ := hlater
    refine ⟨scope, name, hkey, ?_⟩
    rcases hscope with rfl | hlt
    · exact Nat.lt_succ_self _
    · exact Nat.lt_of_succ_lt hlt
  refine ⟨added, cells, .of_quiet ⟨?_, (congrArg Draft.globals hdraft).trans hglobals, ?_,
    fun entry hentry => ?_⟩ hquiet, ?_, ?_⟩
  · rw [hafter, addBlocks_nil]
  · refine h.leave htrans.describes hnumbered ?_ ?_ ?_ hdraft hglobals
    · rw [hafter, hframe, hopen, Nat.add_assoc]
    · rw [hframe, hopen]
    · exact (htrans.describes.consistent.exit hexit).congr rfl
  · obtain ⟨scope, name, hkey, hlt⟩ := hnumbered entry hentry
    exact ⟨scope, name, hkey, .inr hlt⟩
  · have hplaced := htrans.describes.placed
    rw [hframe, hopen] at hplaced
    exact hplaced
  · rwa [hopen] at hsimulates

section

variable (h : Describes names outer s locals layout)

include h

/-- A variable that is new has a full name that no cell has. -/
theorem Describes.fresh (hunused : Cell.find name layout = none) (hname : name ∈ names) :
    fullName s.frame.place.isSprite s.frame.currentScope name ∉
      layout.map fun cell => cell.content.name := by
  intro hmem
  obtain ⟨cell, hcell, hcontent⟩ := List.mem_map.mp hmem
  have hlookup := h.lookup hname
  rw [hunused] at hlookup
  have habsent := (lookup_none h.tidy hlookup).2 s.frame.currentScope cell.content
    (.inr List.mem_cons_self)
  rw [← hcontent] at habsent
  have hplaced := h.placed cell hcell
  unfold Placed at hplaced
  split at hplaced
  · exact habsent hplaced.2
  · rcases h.known _ hplaced with hmem | hglobal
    · exact habsent hmem
    · rw [hcontent, isGlobalName_fullName] at hglobal
      cases hglobal

/-- Adding a variable under an unused name puts a cell in front of the layout. -/
theorem Describes.addVariable (hunused : Cell.find name layout = none) (hname : name ∈ names)
    (hrun : addVariable name .ofNumber value constant s = .ok d s') :
    d.type = .typed .ofNumber ∧ (d.name ∉ layout.map fun cell => cell.content.name) ∧
      Extends names outer s s' locals layout 0 [] [(d.name, d)]
        [⟨some s.frame.currentScope, name, d⟩] := by
  obtain ⟨hd, hframe, hglobals, -, table, htable, hafter⟩ := addVariable_ok hrun
  obtain rfl := Option.some.inj (htable.symm.trans h.table)
  have hfull : d.name = fullName s.frame.place.isSprite s.frame.currentScope name := hd ▸ rfl
  have htype : d.type = .typed .ofNumber := hd ▸ rfl
  have hlookup := h.lookup hname
  rw [hunused] at hlookup
  have habsent := absent_of_lookup_none h.tidy hlookup (.inr List.mem_cons_self)
  have hfresh := hfull ▸ h.fresh hunused hname
  refine ⟨htype, hfresh, by simp [hframe], hglobals, ?_,
    List.forall_mem_singleton.mpr ⟨_, _, hfull, .inl rfl⟩⟩
  have htable' : s'.draft.locals? s'.frame.place = some (table ++ [(d.name, d)]) := by
    rw [hframe, hafter, hfull, Assoc.put_of_absent habsent]
  refine ⟨h.consistent.addVariable hrun, htable', ?_, ?_, ?_, ?_, ?_⟩
  · exact fun entry hentry => (h.known entry hentry).imp_left (List.mem_append_left _)
  · intro wanted hwanted
    rw [find?_ofName htable', hframe, hglobals, hfull,
      lookup_append hlookup (.inr List.mem_cons_self), h.lookup hwanted]
    by_cases heq : wanted = name
    · simp [Cell.find, heq]
    · simp [Cell.find, heq, Ne.symm heq]
  · exact List.forall_mem_cons.mpr ⟨htype, h.numbers⟩
  · exact List.nodup_cons.mpr ⟨hfresh, h.distinct⟩
  · rw [hframe]
    refine List.forall_mem_cons.mpr ⟨⟨hfull, ?_⟩, ?_⟩
    · exact List.mem_append_right _ List.mem_cons_self
    · exact h.placed.mono fun entry hentry => List.mem_append_left _ hentry

end

section

variable (hrest : Translates byZero names outer rest)

include hrest

theorem translates_declare (hname : name ∈ names)
    (hvalue : ∀ own ∈ (value.getD (.lit 0)).names, own ∈ names) :
    Translates byZero names outer (.declare pos namePos name value constant rest) := by
  refine hrest.cons 0 rfl (Nat.zero_add _).symm fun s s' locals layout h hstmt => ?_
  obtain ⟨t₀, hquiet, hdeclare⟩ := statement_declare hstmt
  obtain ⟨own, e, start, v, d, t, t', hplain, hfind, he, -, hrun, hadd, hassign⟩ :=
    declareVariable_ok hdeclare
  obtain rfl : name = own := Except.ok.inj hplain
  obtain rfl : (value.getD (.lit 0)).expr = e := by
    cases value <;> exact Option.some.inj he
  have h₀ := h.quiet hquiet
  obtain ⟨hunused, -⟩ := (h₀.find_iff hname).mp hfind
  obtain ⟨hquiet', -, hreports⟩ := expression_arith byZero _ h₀ hvalue hrun
  have hsame := hquiet.trans hquiet'
  obtain ⟨htype, hfresh, hadds⟩ := (h.quiet hsame).addVariable hunused hname hadd
  have hemit := assign_ok (by rw [htype]; decide) hassign
  rw [hsame.frame] at hadds
  refine ⟨_, _, _, (hadds.of_quiet hsame).emit (.refl _) hemit, fun table _ blocks layout' => ?_⟩
  exact simulates_declare hreports hfresh

/-- A statement with no code inside, which gives one block. -/
theorem translates_plain (hstmts : code.stmts = stmt :: rest.stmts)
    (hblocks : code.blocks = rest.blocks)
    (hstmt : ∀ s s' locals layout, Describes names outer s locals layout →
      statement stmt s = .ok () s' → ∃ t b, Quiet s t ∧ emit b t = .ok () s' ∧
        ∀ P block last blocks layout', P layout →
          Simulates byZero P block last layout rest blocks layout' →
          Simulates byZero P block last layout code (b :: blocks) layout') :
    Translates byZero names outer code := by
  refine hrest.cons 0 hstmts (by omega) fun s s' locals layout h hfirst => ?_
  obtain ⟨t, b, hquiet, hemit, hsimulates⟩ := hstmt s s' locals layout h hfirst
  refine ⟨_, _, _, h.here.emit hquiet hemit, fun table htable blocks layout' => ?_⟩
  exact hsimulates _ _ _ _ _ (h.placed.mono fun entry hentry => htable entry (by simpa using hentry))

theorem translates_assign (hname : name ∈ names) (hvalue : ∀ own ∈ value.names, own ∈ names) :
    Translates byZero names outer (.assign pos namePos name value rest) := by
  refine translates_plain hrest rfl rfl fun s s' locals layout h hrun => ?_
  obtain ⟨t, t', v, d, hquiet, hvalue', hfind, hassign⟩ := statement_assign hrun
  have h₀ := h.quiet hquiet
  obtain ⟨hquiet', -, hreports⟩ := expression_arith byZero value h₀ hvalue hvalue'
  obtain ⟨hlayout, -⟩ := ((h₀.quiet hquiet').find_iff hname).mp hfind
  obtain ⟨cell, hcell, rfl⟩ := mem_of_find hlayout
  have htype : cell.content.type ≠ .typed .ofList := by
    rw [h.numbers cell hcell]
    decide
  refine ⟨t', _, hquiet.trans hquiet', assign_ok htype hassign, ?_⟩
  intro P block last blocks layout' _ hlater
  exact simulates_assign hreports hlayout h.distinct hlater

theorem translates_update (hname : name ∈ names) (hvalue : ∀ own ∈ value.names, own ∈ names) :
    Translates byZero names outer (.update pos namePos op name value rest) := by
  refine translates_plain hrest rfl rfl fun s s' locals layout h hrun => ?_
  obtain ⟨t, t', v, d, w, hquiet, hvalue', hfind, happly, hemit⟩ := statement_update hrun
  have h₀ := h.quiet hquiet
  obtain ⟨hquiet', hnumeric, hreports⟩ := expression_arith byZero value h₀ hvalue hvalue'
  obtain ⟨hlayout, -⟩ := ((h₀.quiet hquiet').find_iff hname).mp hfind
  refine ⟨t', _, hquiet.trans hquiet', hemit, ?_⟩
  intro P block last blocks layout' _ hlater
  refine simulates_update hreports hlayout h.distinct hlater fun store m n hm hn => ?_
  exact number_apply op (.inr rfl) hnumeric happly hm hn

theorem translates_giveBack : Translates byZero names outer (.giveBack pos rest) := by
  refine translates_plain hrest rfl rfl fun s s' locals layout h hrun => ?_
  obtain ⟨t, hquiet, hemit⟩ := statement_giveBack_none hrun
  exact ⟨t, _, hquiet, hemit, fun P block last blocks layout' hplaced _ => simulates_giveBack hplaced⟩

variable {c : Cond} (hc : ∀ name ∈ c.names, name ∈ names)
  (hbody : Translates byZero names outer body)

include hc hbody

theorem translates_ifThen : Translates byZero names outer (.ifThen pos c body rest) := by
  refine hrest.cons (1 + body.blocks) rfl rfl fun s s' locals layout h hstmt => ?_
  obtain ⟨t, t₁, t₂, v, inner, hquiet, hcond, hinner, hemit⟩ := statement_ifThen hstmt
  obtain ⟨hquiet', hdecides⟩ := expression_cond byZero c (h.quiet hquiet) hc (condition_ok hcond)
  obtain ⟨added, cells, hbuilt, -, hsimulates⟩ :=
    body_translated hbody h (hquiet.trans hquiet') hinner
  refine ⟨_, _, _, hbuilt.emit (.refl _) hemit, fun table htable blocks layout' hlater => ?_⟩
  exact simulates_ifThen hlater (hsimulates table htable) hdecides

theorem translates_ifElse (halternative : Translates byZero names outer alternative) :
    Translates byZero names outer (.ifElse pos c body alternative rest) := by
  refine hrest.cons (1 + body.blocks + (1 + alternative.blocks)) rfl rfl
    fun s s' locals layout h hstmt => ?_
  obtain ⟨t, t₁, t₂, t₃, v, inner, inner', hquiet, hcond, hinner, hinner', hemit⟩ :=
    statement_ifElse hstmt
  obtain ⟨hquiet', hdecides⟩ := expression_cond byZero c (h.quiet hquiet) hc (condition_ok hcond)
  obtain ⟨added₁, cells, hbuilt, -, hsimulates⟩ :=
    body_translated hbody h (hquiet.trans hquiet') hinner
  obtain ⟨added₂, cells', hbuilt', -, hsimulates'⟩ :=
    body_translated halternative hbuilt.describes (.refl _) hinner'
  rw [hbuilt.frame] at hsimulates'
  refine ⟨_, _, _, (hbuilt.trans hbuilt').emit (.refl _) hemit, ?_⟩
  intro table htable blocks layout' hlater
  rw [← List.append_assoc] at htable
  refine simulates_ifElse hdecides (hsimulates table fun entry hentry => htable entry ?_)
    (hsimulates' table htable) ?_
  · exact List.mem_append_left _ hentry
  · rwa [← Nat.add_assoc] at hlater

theorem translates_whileLoop : Translates byZero names outer (.whileLoop pos c body rest) := by
  refine hrest.cons (1 + body.blocks) rfl rfl fun s s₁ locals layout h hstmt => ?_
  obtain ⟨t, t₁, inner, hquiet, hinner, hloop⟩ := statement_whileLoop hstmt
  obtain ⟨added, cells, hbuilt, -, hsimulates⟩ := body_translated hbody h hquiet hinner
  have hblock : ∃ t₂ b, Quiet t₁ t₂ ∧ emit b t₂ = .ok () s₁ ∧ ∀ P block last blocks layout',
      Simulates byZero P block (last + (1 + body.blocks)) layout rest blocks layout' →
      Simulates byZero P (last + 1) (last + 1) layout body inner (cells ++ layout) →
      Simulates byZero P block last layout (.whileLoop pos c body rest) (b :: blocks) layout' := by
    rcases hloop with ⟨hc, hemit⟩ | ⟨-, t₂, v, w, hcond, hnot, hemit⟩
    · cases c with
      | truth b =>
        obtain rfl : b = true := by simpa [Cond.expr] using hc
        exact ⟨t₁, _, .refl t₁, hemit, fun P block last blocks layout' => simulates_forever⟩
      | _ => cases hc
    · obtain ⟨hquiet', hdecides⟩ := expression_cond byZero c hbuilt.describes hc (condition_ok hcond)
      refine ⟨t₂, _, hquiet', hemit, fun P block last blocks layout' hrest hbody =>
        simulates_repeatUntil hrest hbody fun store => ?_⟩
      obtain ⟨b, hholds, htruth⟩ := hdecides store
      rw [List.nil_append] at hholds
      refine ⟨!b, ?_, truth_logicalNot htruth hnot⟩
      simp [Cond.holds, hholds]
  obtain ⟨t₂, b, hquiet', hemit, hpass⟩ := hblock
  refine ⟨_, _, _, hbuilt.emit hquiet' hemit, fun table htable blocks layout' hlater => ?_⟩
  exact hpass _ _ _ _ _ hlater (hsimulates table htable)

end

/-- Whenever number code can be built, it is built to blocks that do what it does. -/
theorem translates (byZero : Int → Int) (outer : List (String × Data)) (code : Code)
    (hnames : ∀ name ∈ code.names, name ∈ names) : Translates byZero names outer code := by
  induction code with
  | done =>
    intro s s' locals layout h hrun
    rw [Code.stmts, statements] at hrun
    obtain ⟨-, rfl⟩ := pure_ok.mp hrun
    exact ⟨_, _, _, h.here, fun table _ => simulates_done _ _ _⟩
  | declare pos namePos name value constant rest ih =>
    simp only [Code.names, List.forall_mem_cons, List.forall_mem_append] at hnames
    refine translates_declare (ih hnames.2.2) hnames.1 fun own hown => ?_
    cases value with
    | none => cases hown
    | some a => exact hnames.2.1 own hown
  | assign pos namePos name value rest ih =>
    simp only [Code.names, List.forall_mem_cons, List.forall_mem_append] at hnames
    exact translates_assign (ih hnames.2.2) hnames.1 hnames.2.1
  | update pos namePos op name value rest ih =>
    simp only [Code.names, List.forall_mem_cons, List.forall_mem_append] at hnames
    exact translates_update (ih hnames.2.2) hnames.1 hnames.2.1
  | ifThen pos c body rest ihbody ih =>
    simp only [Code.names, List.forall_mem_append] at hnames
    exact translates_ifThen (ih hnames.2.2) hnames.1 (ihbody hnames.2.1)
  | ifElse pos c body alternative rest ihbody ihalternative ih =>
    simp only [Code.names, List.forall_mem_append] at hnames
    exact translates_ifElse (ih hnames.2.2.2) hnames.1 (ihbody hnames.2.1)
      (ihalternative hnames.2.2.1)
  | whileLoop pos c body rest ihbody ih =>
    simp only [Code.names, List.forall_mem_append] at hnames
    exact translates_whileLoop (ih hnames.2.2) hnames.1 (ihbody hnames.2.1)
  | giveBack pos rest ih => exact translates_giveBack (ih hnames)

end

/-- The variables from around some code that it may use: numbers that their names stand for
in the state of the builder, and among them all that the code names. -/
structure Surrounds (s : BuildState) (code : Code) (outer : List (String × Data)) : Prop where
  names : (outer.map Prod.fst).Nodup
  found : ∀ entry ∈ outer, find? (.ofName entry.1) s = .ok (some entry.2) s
  numbers : ∀ entry ∈ outer, entry.2.type = .typed .ofNumber
  complete : ∀ name ∈ code.names, ∀ d, find? (.ofName name) s = .ok (some d) s → (name, d) ∈ outer

def outerLayout (outer : List (String × Data)) : Layout :=
  outer.map fun entry => ⟨none, entry.1, entry.2⟩

theorem find_outerLayout (hnames : (outer.map Prod.fst).Nodup) :
    Cell.find name (outerLayout outer) = some d ↔ (name, d) ∈ outer := by
  induction outer with
  | nil => simp [outerLayout, Cell.find]
  | cons entry rest ih =>
    rw [List.map_cons, List.nodup_cons] at hnames
    simp only [outerLayout, List.map_cons, Cell.find, List.mem_cons]
    split
    · rename_i heq
      constructor
      · intro h
        exact .inl (Prod.ext heq.symm (Option.some.inj h).symm)
      · rintro (h | h)
        · exact congrArg some (congrArg Prod.snd h).symm
        · exact absurd (List.mem_map.mpr ⟨(name, d), h, heq.symm⟩) hnames.1
    · rename_i hne
      rw [← outerLayout, ih hnames.2]
      refine ⟨.inr, fun h => h.resolve_left ?_⟩
      rintro rfl
      exact hne rfl

section

variable {byZero : Int → Int} {outer : List (String × Data)} {code : Code} {s s' : BuildState}
  {blocks : List Value} {own : Bool}

theorem describes_outer (h : Consistent s) (houter : Surrounds s code outer) :
    ∃ locals, Describes code.names outer s locals (outerLayout outer) := by
  obtain ⟨locals, hlocals, -⟩ := h.table
  refine ⟨locals, h, hlocals, ?_, ?_, ?_, ?_, ?_⟩
  · intro entry hentry
    rcases h.find_name (houter.found entry hentry) with hname | ⟨table, _, htable, -, hmem⟩
    · exact .inr (hname ▸ isGlobalName_globalName _)
    · obtain rfl := Option.some.inj (htable.symm.trans hlocals)
      exact .inl hmem
  · intro name hname
    obtain ⟨found, hfind⟩ := h.find?_total name
    rw [hfind]
    cases found with
    | some d =>
      have hmem := houter.complete name hname d hfind
      rw [(find_outerLayout houter.names).mpr hmem]
    | none =>
      cases hcell : Cell.find name (outerLayout outer) with
      | none => rfl
      | some d =>
        have hsome := houter.found _ ((find_outerLayout houter.names).mp hcell)
        rw [hfind] at hsome
        cases hsome
  · intro cell hcell
    obtain ⟨entry, hentry, rfl⟩ := List.mem_map.mp hcell
    exact houter.numbers entry hentry
  · have hdistinct := houter.names
    rw [List.Nodup, List.pairwise_map] at hdistinct
    rw [outerLayout, List.map_map, List.Nodup, List.pairwise_map]
    refine hdistinct.imp_of_mem ?_
    intro entry entry' hentry hentry' hne heq
    exact hne (h.find_inj (houter.found entry hentry) (houter.found entry' hentry') heq)
  · intro cell hcell
    obtain ⟨entry, hentry, rfl⟩ := List.mem_map.mp hcell
    exact hentry

/-- A variable of the code has the same value as the variable it was resolved to: one that
was created in the scope of its block, or one that its name stood for before. -/
def Carried (s s' : BuildState) (store : Store) (cell : Cell Int) : Prop :=
  match cell.block with
  | some block => ∃ locals d, s'.draft.locals? s'.frame.place = some locals ∧ (d.name, d) ∈ locals ∧
      d.name = fullName s.frame.place.isSprite block cell.name ∧ cell.content = store d.name
  | none => ∃ d, find? (.ofName cell.name) s = .ok (some d) s ∧ cell.content = store d.name

/-- The number of the block that a script is, and of the blocks begun with it. -/
def scriptBlock (s : BuildState) (own : Bool) : Nat :=
  if own then s.frame.lastScope + 1 else s.frame.currentScope

def scriptLast (s : BuildState) (own : Bool) : Nat :=
  if own then s.frame.lastScope + 1 else s.frame.lastScope

theorem script_simulates (byZero : Int → Int) (h : Consistent s) (houter : Surrounds s code outer)
    (hrun : script own code.stmts s = .ok blocks s') :
    ∃ layout table, s'.draft.locals? s'.frame.place = some table ∧
      AllPlaced s.frame.place.isSprite outer table layout ∧
      Simulates byZero (AllPlaced s.frame.place.isSprite outer table) (scriptBlock s own)
        (scriptLast s own) (outerLayout outer) code blocks layout := by
  obtain ⟨locals, hdescribes⟩ := describes_outer h houter
  have htranslates : Translates byZero code.names outer code :=
    translates byZero outer code fun _ hname => hname
  cases own with
  | true =>
    obtain ⟨added, cells, hbuilt, hplaced, hsimulates⟩ :=
      body_translated htranslates hdescribes (.refl _) hrun
    exact ⟨_, _, hbuilt.describes.table, hplaced, hsimulates _ fun _ hentry => hentry⟩
  | false =>
    obtain ⟨t, t₁, t₂, rest, hopen, hstep, hclose, hscript, rfl⟩ := inScript_ok.mp hrun
    obtain ⟨-, rfl⟩ := pure_ok.mp hopen
    obtain ⟨-, rfl⟩ := pure_ok.mp hclose
    have hopened : Describes code.names outer
        { s with frame.unfinished := [] :: s.frame.unfinished } locals (outerLayout outer) :=
      hdescribes.congr rfl
    obtain ⟨written, added, cells, htrans, hsimulates⟩ := htranslates _ _ _ _ hopened hstep
    have hframe := htrans.frame
    obtain rfl : blocks = written := by
      rw [hframe] at hscript
      exact (List.cons.inj hscript).1.symm
    refine ⟨_, _, htrans.describes.table, ?_, hsimulates _ fun _ hentry => hentry⟩
    have hplaced := htrans.describes.placed
    rwa [hframe] at hplaced

/-- Number code keeps its meaning. Whenever a script can be built from it in a consistent
state of the builder, in which the variables from around it are numbers, the blocks end
exactly when the code ends, and every variable of the code then has the value of the variable
it was resolved to. Neither gets stuck on the way. -/
theorem script_keeps_meaning (byZero : Int → Int) (h : Consistent s)
    (houter : Surrounds s code outer) (hrun : script own code.stmts s = .ok blocks s')
    (store : Store) :
    ((∃ mem, Ending.EndsIn (fun fuel => code.run byZero fuel (scriptBlock s own) (scriptLast s own)
        (view store (outerLayout outer))) mem) ↔
      ∃ store', Ending.EndsIn (fun fuel => (engine byZero).run fuel blocks store) store') ∧
    (∀ mem store', Ending.EndsIn (fun fuel => code.run byZero fuel (scriptBlock s own)
        (scriptLast s own) (view store (outerLayout outer))) mem →
      Ending.EndsIn (fun fuel => (engine byZero).run fuel blocks store) store' →
      ∀ cell ∈ mem, Carried s s' store' cell) ∧
    ∀ fuel, code.run byZero fuel (scriptBlock s own) (scriptLast s own)
        (view store (outerLayout outer)) ≠ .stuck ∧
      (engine byZero).run fuel blocks store ≠ .stuck := by
  obtain ⟨layout, table, htable, hplaced, hsimulates⟩ := script_simulates byZero h houter hrun
  obtain ⟨hiff, hvalues⟩ := hsimulates.ends hplaced store
  refine ⟨hiff, ?_, fun fuel => (hsimulates fuel store).not_stuck⟩
  intro mem store' hmem hstore cell hcell
  obtain ⟨inner, hinner, rfl⟩ := hvalues mem store' hmem hstore
  obtain ⟨source, hsource, rfl⟩ := List.mem_map.mp hcell
  have hwhere := hinner source hsource
  unfold Placed at hwhere
  unfold Carried
  cases hblock : source.block with
  | none =>
    simp only [hblock] at hwhere
    simp only [Cell.map, hblock]
    exact ⟨source.content, houter.found _ hwhere, rfl⟩
  | some block =>
    simp only [hblock] at hwhere
    simp only [Cell.map, hblock]
    exact ⟨table, source.content, htable, hwhere.2, hwhere.1, rfl⟩

end

/-- Adds up even numbers and returns from inside the loop. -/
def sumCode : Code :=
  .declare .nowhere .nowhere "i" none false <|
  .whileLoop .nowhere (.truth true)
    (.declare .nowhere .nowhere "twice" (some (.binary .nowhere .mul (.lit 2) (.var .nowhere "i")))
        false <|
      .update .nowhere .nowhere .add "total" (.var .nowhere "twice") <|
      .ifElse .nowhere
        (.or .nowhere (.not .nowhere (.compare .nowhere .lt (.var .nowhere "i") (.lit 3)))
          (.truth false))
        (.giveBack .nowhere .done)
        (.update .nowhere .nowhere .add "i" (.lit 1) .done)
        .done)
    .done

theorem script_keeps_meaning_sum :
    ∃ blocks s', script true sumCode.stmts totalBuilder = .ok blocks s' ∧
      ∃ store', Ending.EndsIn (fun fuel => (engine id).run fuel blocks fun _ => 0) store' ∧
        store' "g_total" = 12 ∧ store' "b1_i" = 3 ∧ store' "b2_twice" = 6 := by
  have hconsistent : Consistent totalBuilder := by
    refine ⟨⟨[], rfl, by simp [Tidy], by simp⟩, ?_, rfl, ?_⟩
    · exact List.forall_mem_singleton.mpr rfl
    · exact List.forall_mem_singleton.mpr (Nat.le_refl _)
  have houter : Surrounds totalBuilder sumCode [("total", totalData)] := by
    refine ⟨by simp, List.forall_mem_singleton.mpr rfl, List.forall_mem_singleton.mpr rfl, ?_⟩
    · intro name hname d hfind
      have hcases : name = "total" ∨ name = "i" ∨ name = "twice" := by
        simp only [sumCode, Code.names, Arith.names, Cond.names, Option.map, Option.getD,
          List.mem_cons, List.mem_append, List.not_mem_nil, or_false, false_or] at hname
        grind
      rcases hcases with rfl | rfl | rfl <;> cases hfind
      exact List.mem_singleton.mpr rfl
  obtain ⟨blocks, s', hrun⟩ : ∃ blocks s', script true sumCode.stmts totalBuilder = .ok blocks s' :=
    ⟨_, _, rfl⟩
  obtain ⟨hends, hvalues, -⟩ := script_keeps_meaning id hconsistent houter hrun fun _ => 0
  have hsource : Ending.EndsIn (fun fuel => sumCode.run id fuel 1 1
      (view (fun _ => 0) (outerLayout [("total", totalData)])))
      [⟨some 2, "twice", 6⟩, ⟨some 1, "i", 3⟩, ⟨none, "total", 12⟩] := ⟨20, rfl⟩
  obtain ⟨store', hstore⟩ := hends.mp ⟨_, hsource⟩
  have hcells := hvalues _ store' hsource hstore
  refine ⟨blocks, s', hrun, store', hstore, ?_, ?_, ?_⟩
  · obtain ⟨d, hfind, hvalue⟩ := hcells ⟨none, "total", 12⟩ (by simp)
    cases hfind
    exact hvalue.symm
  · obtain ⟨_, d, -, -, hname, hvalue⟩ := hcells ⟨some 1, "i", 3⟩ (by simp)
    rw [hname] at hvalue
    exact hvalue.symm
  · obtain ⟨_, d, -, -, hname, hvalue⟩ := hcells ⟨some 2, "twice", 6⟩ (by simp)
    rw [hname] at hvalue
    exact hvalue.symm

end BlockScript.NumberCode
