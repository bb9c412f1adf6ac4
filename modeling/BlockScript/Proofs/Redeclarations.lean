import BlockScript.Proofs.GlobalValues

/-!
Globals that are declared again. A setup asks whether a name has a value that counts as true, and
not whether it has one. A name is therefore refused only if its value is neither zero nor empty nor
false, and otherwise it is created once more beside the first.
-/
namespace BlockScript.Build

variable {s s' t t' : BuildState} {stored : List (Global × Value)}

section

/-- A name whose value counts as true is refused where it is declared again. -/
theorem keepGlobal_refused (hw : Assoc.get? g.name s.constants = some w) (htruthy : w.truthy = true)
    (v : Value) : keepGlobal g v s = .error (s.session.diagnose .redeclaredGlobal) s := by
  rw [keepGlobal, bind_of_ok (rfl : (get : Build BuildState) s = .ok s s), hw]
  simp only [htruthy, if_true]
  rfl

/-- Evaluating a global leaves what is known and the level of what is logged. -/
theorem evaluated_same {g : Global} {v : Value}
    (h : (do moveTo g.pos; expression .setup g.value : Build Value) s = .ok v s') :
    Unchanged s s' ∧ s'.session.console.level = s.session.console.level := by
  let Level (s s' : BuildState) : Prop := s'.session.console.level = s.session.console.level
  have : IsPreorder BuildState Level :=
    { refl := fun _ => rfl, trans := fun _ _ _ h k => Eq.trans k h }
  have hlevel (p : Position) : Within Level (moveTo p) := by
    intro s u s' h
    obtain ⟨-, rfl⟩ := moveTo_ok.mp h
    rfl
  obtain ⟨_, t, hmove, hv⟩ := bind_ok.mp h
  exact ⟨chain (unchanged_moveTo _ _ _ _ hmove)
      (unchanged_expression _ _ _ _ hv),
    Eq.trans (Within.setup hlevel _ _ _ _ hv) (hlevel _ _ _ _ hmove)⟩

/-- A global is created beside those before it, and its name had no value that counts as true. -/
theorem addGlobal_creates {g : Global} {u : Unit} (h : addGlobal g s = .ok u s') :
    s'.session.console.level ≠ none ∧
      ∃ v, (∀ w, Assoc.get? g.name s.constants = some w → w.truthy = false) ∧
        s'.constants = Assoc.put g.name v s.constants ∧ s'.draft.project.stage.data =
          s.draft.project.stage.data ++ [⟨globalData g.name g.type, v⟩] := by
  rw [addGlobal_eq] at h
  obtain ⟨v, t, hv, h⟩ := bind_ok.mp h
  obtain ⟨⟨hdraft, hconstants⟩, -⟩ := evaluated_same hv
  obtain ⟨hfalse, -, d, t', hdata, rfl⟩ := keepGlobal_ok.mp h
  obtain ⟨hkept, hlevel, hlogged, hstage⟩ := addData_global hdata
  exact ⟨hlevel ▸ hlogged, v, hconstants ▸ hfalse, by simp only [hkept, hconstants],
    by rw [hstage, hdraft]⟩

end

section

/-- No global is declared while its name has a value that counts as true. -/
def Unopposed (stored : List (Global × Value)) : Prop :=
  ∀ before g v after, stored = before ++ (g, v) :: after →
    ∀ w, Assoc.get? g.name (recorded before []) = some w → w.truthy = false

/-- A setup that is applied creates all its globals, and none that is opposed by its name. -/
theorem setup_creates (h : setup folder tree s = .ok () s') :
    ∃ stored : List (Global × Value), stored.map Prod.fst = tree.globals ∧
      s'.draft.project.stage.data = s.draft.project.stage.data ++ storedData stored ∧
      s'.constants = recorded stored [] ∧ Unopposed stored := by
  have h := modifyDraft_bind_ok.mp h
  have h := modify_bind_ok.mp h
  refine forM_adds (I := fun _ => True) (Q := fun known g _ =>
    ∀ w, Assoc.get? g.name known = some w → w.truthy = false) (fun g _ s s' u _ h => ?_) trivial h
  obtain ⟨-, v, hfalse, hconstants, hdata⟩ := addGlobal_creates h
  exact ⟨v, hfalse, trivial, hconstants, hdata⟩

/-- Declarations that follow others go on where those have ended. -/
theorem setup_append (h : setup folder ⟨file, before⟩ s = .ok () t) (rest : List Global) :
    setup folder ⟨file, before ++ rest⟩ s = rest.forM addGlobal t := by
  have hrun {before : List Global} {s : BuildState} (h : before.forM addGlobal s = .ok () t) :
      (before ++ rest).forM addGlobal s = rest.forM addGlobal t := by
    induction before generalizing s with
    | nil =>
      obtain ⟨-, rfl⟩ := pure_ok.mp h
      rfl
    | cons g before ih =>
      obtain ⟨_, t', hg, h⟩ := bind_ok.mp h
      exact (bind_of_ok hg).trans (ih h)
  obtain ⟨_, t₀, hfile, _, t₁, hnone, h⟩ := bind_bind_ok.mp h
  exact (bind_of_ok hfile).trans ((bind_of_ok hnone).trans (hrun h))

/-- Where a global has been created, something can be logged. -/
theorem level_of_setup (tree : Setup) (hsome : tree.globals ≠ [])
    (h : setup folder tree s = .ok () s') : s'.session.console.level ≠ none := by
  have hrun {gs : List Global} {s : BuildState} (hsome : gs ≠ [])
      (h : gs.forM addGlobal s = .ok () s') : s'.session.console.level ≠ none := by
    induction gs generalizing s with
    | nil => contradiction
    | cons g rest ih =>
      obtain ⟨_, t, hg, h⟩ := bind_ok.mp h
      cases rest with
      | nil =>
        obtain ⟨-, rfl⟩ := pure_ok.mp h
        exact (addGlobal_creates hg).1
      | cons g' rest => exact ih (by simp) h
  obtain ⟨_, t₀, -, _, t₁, -, h⟩ := bind_bind_ok.mp h
  exact hrun hsome h

end

section

theorem recorded_append (p : Global × Value) :
    recorded (stored ++ [p]) known = Assoc.put p.1.name p.2 (recorded stored known) := by
  simp [recorded]

variable (known) in
theorem exists_recorded (h : name ∈ stored.map fun p => p.1.name) :
    ∃ w, Assoc.get? name (recorded stored known) = some w := by
  induction stored using List.reverseRecOn with
  | nil => cases h
  | append_singleton stored p ih =>
    rw [recorded_append]
    by_cases hname : name = p.1.name
    · exact ⟨p.2, hname ▸ Assoc.get?_put_self ..⟩
    · rw [Assoc.get?_put_of_ne hname]
      rw [List.map_append, List.mem_append, List.map_singleton, List.mem_singleton] at h
      exact ih (h.resolve_right hname)

theorem Unopposed.init (h : Unopposed (stored ++ [p])) : Unopposed stored :=
  fun before g v after heq => h before g v (after ++ [p]) (by simp [heq])

/-- If the last value of a name counts as false, then so do all before it. -/
theorem Unopposed.all_false (h : Unopposed stored)
    (hw : Assoc.get? name (recorded stored []) = some w) (hfalse : w.truthy = false) :
    ∀ p ∈ stored, p.1.name = name → p.2.truthy = false := by
  induction stored using List.reverseRecOn generalizing w with
  | nil => simp
  | append_singleton stored q ih =>
    intro p hp hname
    rw [recorded_append] at hw
    rw [List.mem_append, List.mem_singleton] at hp
    by_cases hlast : name = q.1.name
    · rw [hlast, Assoc.get?_put_self] at hw
      cases hw
      rcases hp with hp | rfl
      · obtain ⟨w, hw⟩ := exists_recorded []
          (List.mem_map.mpr ⟨p, hp, hname.trans hlast⟩)
        have hbefore := h stored q.1 q.2 [] rfl w hw
        exact ih h.init (hlast ▸ hw) hbefore p hp hname
      · exact hfalse
    · rw [Assoc.get?_put_of_ne hlast] at hw
      rcases hp with hp | rfl
      · exact ih h.init hw hfalse p hp hname
      · exact absurd hname.symm hlast

theorem Unopposed.pairwise (h : Unopposed stored) :
    stored.Pairwise fun p q => p.1.name = q.1.name → p.2.truthy = false := by
  induction stored using List.reverseRecOn with
  | nil => exact .nil
  | append_singleton stored q ih =>
    rw [List.pairwise_append]
    refine ⟨ih h.init, List.pairwise_singleton _ _, fun p hp q' hq' hname => ?_⟩
    obtain rfl := List.mem_singleton.mp hq'
    obtain ⟨w, hw⟩ := exists_recorded [] (List.mem_map.mpr ⟨p, hp, hname⟩)
    exact h.init.all_false hw (h stored q'.1 q'.2 [] rfl w hw) p hp hname

end

section

/-- Where a setup declares a name again, the last value of the name decides. If it counts as true,
the setup is refused there. If it counts as false, the name is created once more, as long as its new
value passes the check of types. So a setup that is applied creates each name once if and only if no
value that counts as false has its name declared again. -/
theorem redeclared_refused_iff (folder : String) (tree : Setup) (s : BuildState) :
    (∀ s', setup folder tree s = .ok () s' → ∃ stored : List (Global × Value),
      stored.map Prod.fst = tree.globals ∧
      s'.draft.project.stage.data = s.draft.project.stage.data ++ storedData stored ∧
      (stored.Pairwise fun p q => p.1.name = q.1.name → p.2.truthy = false) ∧
      ((tree.globals.map Global.name).Nodup ↔
        stored.Pairwise fun p q => p.2.truthy = false → p.1.name ≠ q.1.name)) ∧
    ∀ before g after t t' v, tree.globals = before ++ g :: after →
      g.name ∈ before.map Global.name → setup folder ⟨tree.file, before⟩ s = .ok () t →
      (do moveTo g.pos; expression .setup g.value : Build Value) t = .ok v t' →
      ∃ (stored : List (Global × Value)) (w : Value), stored.map Prod.fst = before ∧
        t.draft.project.stage.data = s.draft.project.stage.data ++ storedData stored ∧
        Assoc.get? g.name (recorded stored []) = some w ∧
        if w.truthy then setup folder tree s = .error (t'.session.diagnose .redeclaredGlobal) t'
        else (∃ s', setup folder ⟨tree.file, before ++ [g]⟩ s = .ok () s' ∧
            s'.draft.project.stage.data = s.draft.project.stage.data ++
              storedData (stored ++ [(g, v)])) ↔
          checkAssignment (some (.typed g.type)) v t' = .ok () t' := by
  constructor
  · intro s' h
    obtain ⟨stored, hglobals, hdata, -, hunopposed⟩ := setup_creates h
    have hfalse := hunopposed.pairwise
    refine ⟨stored, hglobals, hdata, hfalse, ?_⟩
    rw [← hglobals, List.map_map, List.Nodup, List.pairwise_map]
    constructor
    · intro hnames
      exact hnames.imp fun {p q} (hne : p.1.name ≠ q.1.name) _ => hne
    · intro hnames
      exact (hfalse.and hnames).imp fun h hname => h.2 (h.1 hname) hname
  · intro before g after t t' v hglobals hagain hbefore hv
    obtain ⟨stored, hstored, hdata, hconstants, -⟩ := setup_creates hbefore
    obtain ⟨w, hw⟩ : ∃ w, Assoc.get? g.name (recorded stored []) = some w := by
      change stored.map Prod.fst = before at hstored
      refine exists_recorded _ ?_
      rwa [← hstored, List.map_map] at hagain
    obtain ⟨⟨hdraft, hknown⟩, hlevel⟩ := evaluated_same hv
    have hown : Assoc.get? g.name t'.constants = some w := by rw [hknown, hconstants, hw]
    have hsetup (rest : List Global) : setup folder ⟨tree.file, before ++ g :: rest⟩ s =
        (keepGlobal g v >>= fun _ => rest.forM addGlobal) t' := by
      have hadd : (addGlobal g >>= fun _ => rest.forM addGlobal) t =
          (keepGlobal g v >>= fun _ => rest.forM addGlobal) t' := by
        rw [addGlobal_eq, bind_assoc]
        exact bind_of_ok hv
      exact (setup_append hbefore (g :: rest)).trans hadd
    refine ⟨stored, w, hstored, hdata, hw, ?_⟩
    split
    · next htruthy =>
      have hrun := hsetup after
      rw [← hglobals] at hrun
      exact hrun.trans (bind_of_error (keepGlobal_refused hown htruthy v))
    · next hfalse =>
      rw [Bool.not_eq_true] at hfalse
      have hkeeps (s' : BuildState) : setup folder ⟨tree.file, before ++ [g]⟩ s = .ok () s' ↔
          keepGlobal g v t' = .ok () s' := by
        rw [hsetup, bind_ok]
        constructor
        · rintro ⟨_, t₁, hkeep, hnil⟩
          obtain ⟨-, rfl⟩ := pure_ok.mp hnil
          exact hkeep
        · exact fun hkeep => ⟨_, _, hkeep, rfl⟩
      constructor
      · rintro ⟨s', hrun, -⟩
        exact (keepGlobal_ok.mp ((hkeeps s').mp hrun)).2.1
      · intro hcheck
        have hsome : before ≠ [] := by rintro rfl; cases hagain
        have hlogged : t'.session.console.level ≠ none :=
          hlevel ▸ level_of_setup ⟨tree.file, before⟩ hsome hbefore
        obtain ⟨d, t₁, hcreated⟩ := exists_addData_global g.name g.type v hlogged
        refine ⟨_, (hkeeps _).mpr (keepGlobal_ok.mpr ⟨fun w' hw' => ?_, hcheck, d, t₁, hcreated,
          rfl⟩), ?_⟩
        · cases hown.symm.trans hw'
          exact hfalse
        · obtain ⟨-, -, -, hstage⟩ := addData_global hcreated
          simp only [hstage, hdraft, hdata, storedData, List.map_append, List.map_cons,
            List.map_nil, List.append_assoc]

/-- Zero counts as false, so a name with that value can be declared again. -/
theorem redeclared_refused_iff_zero :
    let x (n : Int) : Global := ⟨.start 0, "x", .ofNumber, .int n⟩
    ∃ (s' : BuildState) (stored : List (Global × Value)),
      setup "project" ⟨.unnamed, [x 0, x 1]⟩ (.fresh (.fresh (some .error) false) "project") =
        .ok () s' ∧
      stored.map Prod.fst = [x 0, x 1] ∧ s'.draft.project.stage.data = storedData stored ∧
      (s'.draft.project.stage.data.map fun d => d.data.name) = ["g_x", "g_x"] ∧
      ¬ stored.Pairwise fun p q => p.2.truthy = false → p.1.name ≠ q.1.name := by
  intro x
  have hseen : seen (fun s => s.draft.project.stage.data.map fun d => d.data.name)
      (setup "project" ⟨.unnamed, [x 0, x 1]⟩ (.fresh (.fresh (some .error) false) "project")) =
        some ["g_x", "g_x"] := by decide +kernel
  obtain ⟨s', hrun, hnames⟩ := exists_of_seen hseen
  obtain ⟨stored, hglobals, hdata, -, honce⟩ := (redeclared_refused_iff "project" _ _).1 s' hrun
  refine ⟨s', stored, hrun, hglobals, hdata, hnames, fun hapart => ?_⟩
  exact absurd (honce.mpr hapart) (by decide)

end

end BlockScript.Build
