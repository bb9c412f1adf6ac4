import BlockScript.Value

/-!
Running scripts. Branches, loops and the block that stops a script have a fixed meaning.
What any other block does, and how a condition turns out, is up to an engine, so the same
runs serve for different kinds of states. A run takes at most a given number of steps.
-/
namespace BlockScript

/-- How a run ends, or that it has not ended within the steps it was allowed. -/
inductive Ending (σ : Type)
  | running
  /-- A block or condition came after which the script does not go on. -/
  | stuck
  | stopped (state : σ)
  | finished (state : σ)

namespace Ending

variable {σ : Type}

/-- Goes on from the end of a script; nothing follows where the script was stopped. -/
def bind (e : Ending σ) (next : σ → Ending σ) : Ending σ :=
  match e with
  | finished s => next s
  | e => e

def result? : Ending σ → Option σ
  | stopped s | finished s => some s
  | running | stuck => none

/-- An ending is kept when more steps are allowed. -/
def Extends (e e' : Ending σ) : Prop := e = running ∨ e' = e

theorem Extends.refl (e : Ending σ) : Extends e e := .inr rfl

theorem Extends.trans (h : Extends e₁ e₂) (h' : Extends e₂ e₃) : Extends e₁ e₃ := by
  rcases h with h | rfl
  · exact .inl h
  · exact h'

theorem Extends.bind (h : Extends e e')
    (hnext : ∀ s, Extends (next s) (next' s)) : Extends (e.bind next) (e'.bind next') := by
  rcases h with rfl | rfl
  · exact .inl rfl
  · cases e' with
    | finished s => exact hnext s
    | running => exact .inl rfl
    | stuck | stopped s => exact .inr rfl

theorem Extends.result (h : Extends e e') (hs : e.result? = some s) : e'.result? = some s := by
  rcases h with rfl | rfl
  · cases hs
  · exact hs

/-- The runs of one program for growing numbers of steps agree on their ending. -/
def Growing (run : Nat → Ending σ) : Prop := ∀ fuel, Extends (run fuel) (run (fuel + 1))

theorem Growing.extends (h : Growing run) (hle : fuel ≤ fuel') :
    Extends (run fuel) (run fuel') := by
  induction hle with
  | refl => exact .refl _
  | step _ ih => exact ih.trans (h _)

/-- A program ends in a state if it does so within some number of steps. -/
def EndsIn (run : Nat → Ending σ) (s : σ) : Prop := ∃ fuel, (run fuel).result? = some s

theorem EndsIn.unique (h : Growing run) (hs : EndsIn run s) (hs' : EndsIn run s') : s = s' := by
  obtain ⟨fuel, hfuel⟩ := hs
  obtain ⟨fuel', hfuel'⟩ := hs'
  have hmax := (h.extends (Nat.le_max_left fuel fuel')).result hfuel
  have hmax' := (h.extends (Nat.le_max_right fuel fuel')).result hfuel'
  exact Option.some.inj (hmax.symm.trans hmax')

end Ending

/-- What blocks do to states of a kind. A block after which the script does not go on gives
no state. A condition may turn out differently each time it is tested, because it may ask
for what changes meanwhile. -/
structure Engine (σ : Type) where
  act : Value → σ → Option σ
  test : Value → σ → Option (Bool × σ)

namespace Engine

variable {σ : Type}

/-- Goes one of two ways by how a condition turns out. -/
def branch (m : Engine σ) (c : Value) (yes no : σ → Ending σ) (s : σ) : Ending σ :=
  match m.test c s with
  | none => .stuck
  | some (true, s) => yes s
  | some (false, s) => no s

/-- The script for the case that a condition fails, which there may not be. -/
def otherwise (run : List Value → σ → Ending σ) : Option (List Value) → σ → Ending σ
  | none => .finished
  | some script => run script

/-- Runs one block, given how the scripts inside it are run. -/
def block (m : Engine σ) (run : List Value → σ → Ending σ) (b : Value) (s : σ) : Ending σ :=
  match b with
  | .block .stop [.str "this_script"] _ _ => .stopped s
  | .block .ifThen (c :: body) _ alternative => m.branch c (run body) (otherwise run alternative) s
  | .block .repeatUntil (c :: body) _ _ =>
    m.branch c .finished (fun s => (run body s).bind (run [b])) s
  | .block .forever body _ _ => (run body s).bind (run [b])
  | _ =>
    match m.act b s with
    | some s => .finished s
    | none => .stuck

/-- Runs a script for at most so many steps. -/
def run (m : Engine σ) : Nat → List Value → σ → Ending σ
  | 0, _, _ => .running
  | _ + 1, [], s => .finished s
  | fuel + 1, b :: rest, s => (m.block (m.run fuel) b s).bind (m.run fuel rest)

theorem branch_extends (m : Engine σ) (c : Value)
    (hyes : ∀ s, (yes s).Extends (yes' s)) (hno : ∀ s, (no s).Extends (no' s)) (s : σ) :
    (m.branch c yes no s).Extends (m.branch c yes' no' s) := by
  unfold branch
  split
  · exact .refl _
  · exact hyes _
  · exact hno _

theorem block_extends (m : Engine σ) {run run' : List Value → σ → Ending σ}
    (h : ∀ script s, (run script s).Extends (run' script s)) (b : Value) (s : σ) :
    (m.block run b s).Extends (m.block run' b s) := by
  unfold block
  split
  · exact .refl _
  · rename_i alternative
    refine m.branch_extends _ (h _) (fun s => ?_) s
    cases alternative with
    | none => exact .refl _
    | some script => exact h script s
  · exact m.branch_extends _ (fun _ => .refl _) (fun s => (h _ s).bind (h _)) s
  · exact (h _ s).bind (h _)
  · exact .refl _

theorem run_growing (m : Engine σ) (script : List Value) (s : σ) :
    Ending.Growing fun fuel => m.run fuel script s := by
  intro fuel
  induction fuel generalizing script s with
  | zero => exact .inl rfl
  | succ fuel ih =>
    cases script with
    | nil => exact .refl _
    | cons b rest => exact (m.block_extends ih b s).bind (ih rest)

end Engine

end BlockScript
