import BlockScript.Proofs.Creations
import BlockScript.Proofs.Listing

/-!
Which target a variable belongs to. A run builds the stage and then each sprite in a pass of its
own, and what a pass creates is known from the statements of the sprite. All of it belongs to the
sprite and is recorded in its table, but for the messages of broadcasts, the results of functions
and what tells clones apart: a result is a variable of the stage whose name does not tell which
sprite it is for, and the variable for clones is recorded nowhere.
-/
namespace BlockScript.Build

variable {s s' : BuildState}

/-- The type of what a function gives back. -/
def returns? : Stmt → Option TypeSet
  | .function _ returns _ _ _ _ => returns
  | _ => none

section

mutual

/-- A body names variables and does nothing else that is stated. -/
theorem named_of_mem_stated (stmt : Stmt) (h : o ∈ stated own stmt) :
    ∃ name type constant, o = .named own name type constant := by
  cases stmt with
  | declare pos target type value constant =>
    rw [stated, namedBy] at h
    split at h
    · exact ⟨_, _, _, List.mem_singleton.mp h⟩
    · cases h
  | ifThen pos c body => exact named_of_mem_statedAll body (by simpa [stated] using h)
  | ifElse pos c body alternative =>
    rw [stated, List.mem_append] at h
    exact h.elim (named_of_mem_statedAll body) (named_of_mem_statedAll alternative)
  | whileLoop pos c body => exact named_of_mem_statedAll body (by simpa [stated] using h)
  | forLoop pos start c next body =>
    rw [stated, List.mem_append, List.mem_append] at h
    rcases h with h | h | h
    · exact named_of_mem_stated start h
    · exact named_of_mem_statedAll body h
    · exact named_of_mem_stated next h
  | _ => simp [stated] at h

theorem named_of_mem_statedAll (stmts : List Stmt) (h : o ∈ statedAll own stmts) :
    ∃ name type constant, o = .named own name type constant := by
  cases stmts with
  | nil => cases h
  | cons stmt rest =>
    rw [statedAll, List.mem_append] at h
    exact h.elim (named_of_mem_stated stmt) (named_of_mem_statedAll rest)

end

/-- The top level states the result of each function that has one, and names variables. -/
theorem mem_statedAtTop (h : o ∈ statedAtTop own stmt) :
    (∃ name type constant, o = .named own name type constant) ∨
      ∃ name type, o = .output own name type ∧ returns? stmt = some type := by
  cases stmt with
  | shared pos target type value =>
    simp only [statedAtTop, List.mem_flatMap] at h
    obtain ⟨t, -, h⟩ := h
    rw [namedBy] at h
    split at h
    · exact .inl ⟨_, _, _, List.mem_singleton.mp h⟩
    · cases h
  | function pos returns name parameters warp body =>
    simp only [statedAtTop, List.mem_append, List.mem_map, Option.mem_toList] at h
    rcases h with ⟨parameter, -, rfl⟩ | ⟨type, htype, rfl⟩ | h
    · exact .inl ⟨_, _, _, rfl⟩
    · exact .inr ⟨name, type, rfl, htype⟩
    · exact .inl (named_of_mem_statedAll body h)
  | hat pos event arguments body =>
    rw [statedAtTop, List.mem_append] at h
    rcases h with h | h
    · unfold heardBy at h
      split at h
      · split at h
        · obtain ⟨name, -, rfl⟩ := List.mem_map.mp h
          exact .inl ⟨_, _, _, rfl⟩
        · cases h
      · cases h
    · exact .inl (named_of_mem_statedAll body h)
  | _ => cases h

theorem mem_statedBy : o ∈ statedBy own body ↔ ∃ stmt ∈ body, o ∈ statedAtTop own stmt := by
  have hpart : ∀ stmt, o ∈ statedAtTop own stmt →
      stmt.part = .shared ∨ stmt.part = .function ∨ stmt.part = .hat := by
    intro stmt h
    cases stmt with
    | shared | function | hat => simp [Stmt.part]
    | _ => cases h
  simp only [statedBy, List.mem_append, List.mem_flatMap, List.mem_filter, beq_iff_eq]
  constructor
  · rintro (⟨stmt, ⟨hstmt, -⟩, h⟩ | ⟨stmt, ⟨hstmt, -⟩, h⟩ | ⟨stmt, ⟨hstmt, -⟩, h⟩) <;>
      exact ⟨stmt, hstmt, h⟩
  · rintro ⟨stmt, hstmt, h⟩
    rcases hpart stmt h with hkind | hkind | hkind
    · exact .inl ⟨stmt, ⟨hstmt, hkind⟩, h⟩
    · exact .inr (.inl ⟨stmt, ⟨hstmt, hkind⟩, h⟩)
    · exact .inr (.inr ⟨stmt, ⟨hstmt, hkind⟩, h⟩)

end

section

variable {entry : SpriteEntry}

theorem forM_append_ok {α : Type} {f : α → Build Unit} {first second : List α} :
    ((first ++ second).forM f : Build Unit) s = .ok () s' ↔
      ∃ t, (first.forM f : Build Unit) s = .ok () t ∧ (second.forM f : Build Unit) t = .ok () s' := by
  have happend : (first ++ second).forM f = first.forM f >>= fun _ => second.forM f :=
    List.forM_append
  rw [happend, bind_ok]
  constructor
  · rintro ⟨_, t, hboth⟩
    exact ⟨t, hboth⟩
  · rintro ⟨t, hboth⟩
    exact ⟨(), t, hboth⟩

theorem buildStage_creates (h : buildStage s = .ok () s') :
    Builds .stage s.draft.stageStatements s s' := by
  rw [buildStage, get_bind_ok] at h
  split at h
  · rename_i hempty
    obtain ⟨hdraft, hframe, -⟩ := log_ok h
    rw [Builds, hdraft, hframe, List.isEmpty_iff.mp hempty]
    exact ⟨.inl rfl, [], .refl _ _, rfl, by simp, rfl⟩
  · obtain ⟨_, t, hbuild, h⟩ := bind_ok.mp h
    obtain ⟨hdraft, hframe, -⟩ := debug_ok h
    rw [Builds, hdraft, hframe]
    exact buildTarget_creates hbuild

theorem buildSprite_creates (h : buildSprite name entry s = .ok () s') :
    Builds (.sprite entry.index) entry.statements s s' := by
  obtain ⟨_, t, hbuild, h⟩ := bind_ok.mp h
  obtain ⟨hdraft, hframe, -⟩ := debug_ok h
  rw [Builds, hdraft, hframe]
  exact buildTarget_creates hbuild

/-- A run builds the stage and then the sprites that are listed. -/
theorem project_ok (h : project s = .ok () s') : ∃ t, buildStage s = .ok () t ∧
    t.draft.sprites = s.draft.sprites ∧
    (s.draft.sprites.forM fun (name, entry) => buildSprite name entry : Build Unit) t =
      .ok () s' := by
  obtain ⟨_, t, hstage, h⟩ := bind_ok.mp h
  obtain ⟨-, log, hcreates, -⟩ := buildStage_creates hstage
  rw [get_bind_ok, hcreates.entries rfl] at h
  exact ⟨t, hstage, hcreates.entries rfl, h⟩

end

/-- A variable is recorded in the table of a target. -/
def RecordedIn (place : Place) (d : Draft) (data : Data) : Prop :=
  ∃ table, d.locals? place = some table ∧ (Assoc.get? data.name table).isSome = true

variable {log : List Creation} {body : List Stmt}

/-- What is to be recorded in a table is found there. -/
theorem Creates.recorded (h : Creates own log d d') (hc : c ∈ log)
    (hfiled : c.reason.isFiled = true) : RecordedIn c.reason.place d' c.data := by
  obtain ⟨hplace, hsome⟩ := h.filed c hc hfiled
  obtain ⟨table, htable⟩ := Option.isSome_iff_exists.mp hsome
  refine ⟨record (log.filter (filedAt c.reason.place)) table, ?_, ?_⟩
  · rw [h.tables _ hplace, htable]
    rfl
  · have hmem : c ∈ log.filter (filedAt c.reason.place) :=
      List.mem_filter.mpr ⟨hc, by simp [filedAt, hfiled]⟩
    obtain ⟨last, -, -, hget⟩ := get?_record ⟨c, hmem, rfl⟩ table
    rw [hget]
    rfl

theorem mem_statedIn : o ∈ statedIn log ↔ ∃ c ∈ log, c.reason = o ∧ o.isStated = true := by
  simp only [statedIn, List.mem_filter, List.mem_map]
  constructor
  · rintro ⟨⟨c, hc, rfl⟩, hstated⟩
    exact ⟨c, hc, rfl, hstated⟩
  · rintro ⟨c, hc, rfl, hstated⟩
    exact ⟨⟨c, hc, rfl⟩, hstated⟩

/-- The result of a function is created on the stage. -/
theorem output_created (hstated : statedIn log = statedBy own body)
    (h : .output own function type ∈ statedBy own body) :
    ∃ c ∈ log, c.reason = .output own function type ∧
      c.data = outputData own.isSprite function type := by
  rw [← hstated, mem_statedIn] at h
  obtain ⟨c, hc, hreason, -⟩ := h
  have hmade := c.made
  rw [hreason] at hmade
  exact ⟨c, hc, hreason, hmade⟩

theorem statesOutput_of_returns (own : Place) (hstmt : stmt ∈ body)
    (h : returns? stmt = some type) :
    ∃ function, Reason.output own function type ∈ statedBy own body := by
  cases stmt with
  | function pos returns name parameters warp inner =>
    refine ⟨name, mem_statedBy.mpr ⟨_, hstmt, ?_⟩⟩
    rw [returns?] at h
    simp [statedAtTop, h]
  | _ => cases h

/-- What the script of a sprite creates, messages apart, is created on the sprite and recorded in
its table exactly if none of its functions has a result and no expression asks for a clone. -/
theorem owned_by_sprite_iff (hcreates : Creates (.sprite index) log d d') (hd : Unflagged d)
    (hstated : statedIn log = statedBy (.sprite index) body)
    (hof : ∀ c ∈ log, c.reason.IsOf (.sprite index))
    (hasks : (log.any fun c => c.reason.isClone) = body.any fun stmt => asks (topTranslated stmt)) :
    (∀ c ∈ log, (∃ text, c.reason = .message text) ∨
        c.reason.place = .sprite index ∧ RecordedIn (.sprite index) d' c.data) ↔
      ∀ stmt ∈ body, returns? stmt = none ∧ asks (topTranslated stmt) = false := by
  constructor
  · refine fun howned stmt hstmt => ⟨?_, ?_⟩
    · rw [Option.eq_none_iff_forall_ne_some]
      intro type htype
      obtain ⟨function, houtput⟩ := statesOutput_of_returns (.sprite index) hstmt htype
      obtain ⟨c, hc, hreason, -⟩ := output_created hstated houtput
      rcases howned c hc with ⟨text, hmessage⟩ | ⟨hplace, -⟩
      · cases hreason.symm.trans hmessage
      · rw [hreason] at hplace
        cases hplace
    · by_contra hasked
      have hsome : (log.any fun c => c.reason.isClone) = true := by
        rw [hasks]
        exact List.any_eq_true.mpr ⟨stmt, hstmt, by simpa using hasked⟩
      obtain ⟨c, hc, hclone⟩ := List.any_eq_true.mp hsome
      have hmade := c.made
      have howned := howned c hc
      cases hreason : c.reason with
      | cloneFlag own =>
        rw [hreason] at hmade howned
        obtain ⟨text, hmessage⟩ | ⟨-, table, htable, hfound⟩ := howned
        · cases hmessage
        · rw [hmade.2, (hcreates.unflagged hd).locals? htable] at hfound
          cases hfound
      | _ =>
        rw [hreason] at hclone
        cases hclone
  · intro hnone c hc
    have hown := hof c hc
    cases hreason : c.reason with
    | message text => exact .inl ⟨text, rfl⟩
    | named place name type constant =>
      rw [hreason] at hown
      obtain rfl : place = .sprite index := hown
      have hrecorded := hcreates.recorded hc (by rw [hreason]; rfl)
      rw [hreason] at hrecorded
      exact .inr ⟨rfl, hrecorded⟩
    | cloneFlag place =>
      have hsome : (log.any fun c => c.reason.isClone) = true :=
        List.any_eq_true.mpr ⟨c, hc, by rw [hreason]; rfl⟩
      rw [hasks] at hsome
      obtain ⟨stmt, hstmt, hasked⟩ := List.any_eq_true.mp hsome
      rw [(hnone stmt hstmt).2] at hasked
      cases hasked
    | global | output =>
      have hmem : c.reason ∈ statedBy (.sprite index) body := by
        rw [← hstated]
        exact mem_statedIn.mpr ⟨c, hc, rfl, by rw [hreason]; rfl⟩
      obtain ⟨stmt, hstmt, htop⟩ := mem_statedBy.mp hmem
      rcases mem_statedAtTop htop with ⟨_, _, _, hnamed⟩ | ⟨_, _, -, hreturns⟩
      · cases hreason.symm.trans hnamed
      · rw [(hnone stmt hstmt).1] at hreturns
        cases hreturns

/-- What is seen of the state after a run that succeeds. -/
def seen {α : Type} (f : BuildState → α) : EStateM.Result Failure BuildState Unit → Option α
  | .ok _ s => some (f s)
  | .error _ _ => none

theorem exists_of_seen (h : seen f result = some a) : ∃ s', result = .ok () s' ∧ f s' = a := by
  cases result with
  | ok u s' => exact ⟨s', rfl, Option.some.inj h⟩
  | error failure s' => cases h

end BlockScript.Build
