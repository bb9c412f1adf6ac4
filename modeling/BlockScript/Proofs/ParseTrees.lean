import BlockScript.Proofs.Runs

/-!
Parse trees. A node is a rule by its number, and the tokens are the leaves. The value of a tree is
put together by the rules from the leaves up, from left to right, and the first rule that fails is
the fault of the whole. Every derivation of a grammar is a parse tree. A run of the automaton
follows a tree if at every step the automaton decides for what the tree has there.
-/
namespace BlockScript.Grammar

open Automaton

/-- A tree of rules, by their numbers, over tokens. -/
inductive ParseTree
  | leaf (t : Token)
  | node (rule : Nat) (children : List ParseTree)

variable {α : Type} {g : Grammar α} {ofToken : Token → α}

namespace ParseTree

mutual

/-- The leaves of a tree, from left to right. -/
@[simp] def tokens : ParseTree → List Token
  | leaf t => [t]
  | node _ children => tokensAll children

@[simp] def tokensAll : List ParseTree → List Token
  | [] => []
  | T :: rest => tokens T ++ tokensAll rest

end

mutual

/-- How many leaves and nodes a tree has. -/
@[simp] def size : ParseTree → Nat
  | leaf _ => 1
  | node _ children => sizeAll children + 1

@[simp] def sizeAll : List ParseTree → Nat
  | [] => 0
  | T :: rest => size T + sizeAll rest

end

mutual

@[simp] def subtrees : ParseTree → List ParseTree
  | leaf t => [leaf t]
  | node r children => node r children :: subtreesAll children

@[simp] def subtreesAll : List ParseTree → List ParseTree
  | [] => []
  | T :: rest => subtrees T ++ subtreesAll rest

end

mutual

def value (g : Grammar α) (ofToken : Token → α) : ParseTree → Except Fault α
  | leaf t => .ok (ofToken t)
  | node r children => do
    let parts ← valueAll g ofToken children
    match g.rules[r]? with
    | some rule => rule.action parts
    | none => .error .outOfRange

def valueAll (g : Grammar α) (ofToken : Token → α) : List ParseTree → Except Fault (List α)
  | [] => .ok []
  | T :: rest => do
    let v ← value g ofToken T
    let vs ← valueAll g ofToken rest
    return v :: vs

end

end ParseTree

open ParseTree

/-- Trees of the given symbols: a leaf is a token of its kind, and the children of a node are trees
of the body of its rule. -/
inductive Parses (g : Grammar α) : List Symbol → List ParseTree → Prop
  | nil : Parses g [] []
  | leaf {xs : List Symbol} {ts : List ParseTree} (t : Token) (rest : Parses g xs ts) :
      Parses g (.tok t.kind :: xs) (.leaf t :: ts)
  | node {r : Nat} {rule : Rule α} {xs : List Symbol} {cs ts : List ParseTree}
      (hrule : g.rules[r]? = some rule) (children : Parses g rule.body cs) (rest : Parses g xs ts) :
      Parses g (.cat rule.head :: xs) (.node r cs :: ts)

namespace Parses

theorem length_eq (h : Parses g xs ts) : ts.length = xs.length := by
  induction h with
  | nil => rfl
  | leaf _ _ ih | node _ _ _ _ ih => exact congrArg Nat.succ ih

end Parses

variable {xs : List Symbol} {ts : List ParseTree}

/-- A derivation is a tree with the derived value. -/
theorem Derives.exists_trees {tokens : List Token}
    (h : Derives g ofToken xs tokens vs) : ∃ ts, Parses g xs ts ∧ tokensAll ts = tokens ∧
      valueAll g ofToken ts = .ok vs := by
  induction h with
  | nil => exact ⟨[], .nil, rfl, rfl⟩
  | token t _ ih =>
    obtain ⟨ts, hparses, rfl, hvalue⟩ := ih
    refine ⟨.leaf t :: ts, .leaf t hparses, rfl, ?_⟩
    rw [valueAll, value, hvalue]
    rfl
  | @rule rule symbols inner tokens parts values v mem _ built _ ihbody ihrest =>
    obtain ⟨cs, hchildren, rfl, hparts⟩ := ihbody
    obtain ⟨ts, hparses, rfl, hvalue⟩ := ihrest
    obtain ⟨r, hrule⟩ := List.mem_iff_getElem?.mp mem
    refine ⟨.node r cs :: ts, .node hrule hchildren hparses, rfl, ?_⟩
    rw [valueAll, value, hparts, hvalue]
    simp only [bind, Except.bind, hrule, built]
    rfl

/-- The kind of the first token of some trees, or what lies ahead of them. -/
def firstKind (ts : List ParseTree) (ahead : Option Terminal) : Option Terminal :=
  ((tokensAll ts).head?.map Token.kind).or ahead

theorem head?_append_kind (tokens rest : List Token) :
    (tokens ++ rest).head?.map Token.kind =
      (tokens.head?.map Token.kind).or (rest.head?.map Token.kind) := by
  cases tokens <;> rfl

/-- From a state on, the automaton decides for what the trees have at every step: it reads a leaf
although rules may have been read to their ends, and it reduces the rule of a node before what comes
after it. -/
inductive Chosen (g : Grammar α) : Nat → List Symbol → List ParseTree → Option Terminal → Prop
  | nil {p : Nat} {ahead : Option Terminal} : Chosen g p [] [] ahead
  | leaf {p q : Nat} {xs : List Symbol} {ts : List ParseTree} {ahead : Option Terminal} (t : Token)
      (hgoto : Goto g p (.tok t.kind) q)
      (hkept : ∀ r rule, g.rules[r]? = some rule → Has g p r rule.body.length →
        reduces (g.rulePrecedence rule) (g.precedence t.kind) = false)
      (rest : Chosen g q xs ts ahead) : Chosen g p (.tok t.kind :: xs) (.leaf t :: ts) ahead
  | node {p p' q r : Nat} {rule : Rule α} {xs : List Symbol} {cs ts : List ParseTree}
      {ahead : Option Terminal} (hrule : g.rules[r]? = some rule) (hbegins : Has g p r 0)
      (hpath : Path g p rule.body p')
      (honly : ∀ r', Has g p' r' (bodyOf g r').length → r' = r)
      (hprefer : ∀ t, firstKind ts ahead = some t → ∀ q', Goto g p' (.tok t) q' →
        reduces (g.rulePrecedence rule) (g.precedence t) = true)
      (hfollow : CanFollow g p rule.head (lookCode (firstKind ts ahead)))
      (hgoto : Goto g p (.cat rule.head) q)
      (children : Chosen g p rule.body cs (firstKind ts ahead)) (rest : Chosen g q xs ts ahead) :
      Chosen g p (.cat rule.head :: xs) (.node r cs :: ts) ahead

theorem Chosen.parses (h : Chosen g p xs ts ahead) : Parses g xs ts := by
  induction h with
  | nil => exact .nil
  | leaf t _ _ _ ih => exact .leaf t ih
  | node hrule _ _ _ _ _ _ _ _ ihchildren ihrest => exact .node hrule ihchildren ihrest

/-- The frames that symbols with their values make on the stack, the first one first. -/
def frames (g : Grammar α) (p : Nat) : List Symbol → List α → List (Frame α)
  | x :: xs, v :: vs =>
    let q := ((graph (sketch g)).target? p x.code).getD 0
    ⟨q, x, v⟩ :: frames g q xs vs
  | _, _ => []

section

theorem frames_cons (h : Goto g p x q) :
    frames g p (x :: xs) (v :: vs) = ⟨q, x, v⟩ :: frames g q xs vs := by
  have hq : (graph (sketch g)).target? p x.code = some q := h
  rw [frames, hq]
  rfl

theorem length_frames (h : vs.length = xs.length) : (frames g p xs vs).length = xs.length := by
  induction xs generalizing p vs with
  | nil => rfl
  | cons x xs ih =>
    cases vs with
    | nil => cases h
    | cons v vs => exact congrArg Nat.succ (ih (Nat.succ.inj h))

theorem values_frames (h : vs.length = xs.length) :
    (frames g p xs vs).map (fun f => f.value) = vs := by
  induction xs generalizing p vs with
  | nil => exact (List.length_eq_zero_iff.mp h).symm
  | cons x xs ih =>
    cases vs with
    | nil => cases h
    | cons v vs => exact congrArg (v :: ·) (ih (Nat.succ.inj h))

/-- Reading symbols leads to the state at the end of their path. -/
theorem topState_frames (hp : topState stack = p) (h : vs.length = xs.length)
    (hpath : Path g p xs q) : topState ((frames g p xs vs).reverse ++ stack) = q := by
  induction xs generalizing p vs stack with
  | nil => exact hp.trans hpath
  | cons x xs ih =>
    cases vs with
    | nil => cases h
    | cons v vs =>
      obtain ⟨p', hgoto, hrest⟩ := hpath
      rw [frames_cons hgoto, List.reverse_cons, List.append_assoc]
      exact ih rfl (Nat.succ.inj h) hrest

end

theorem length_valueAll (h : valueAll g ofToken ts = .ok vs) : vs.length = ts.length := by
  induction ts generalizing vs with
  | nil =>
    cases h
    rfl
  | cons T ts ih =>
    rw [valueAll] at h
    cases hv : value g ofToken T with
    | error f =>
      rw [hv] at h
      cases h
    | ok v =>
      cases hvs : valueAll g ofToken ts with
      | error f =>
        rw [hv, hvs] at h
        cases h
      | ok vs' =>
        rw [hv, hvs] at h
        cases h
        exact congrArg Nat.succ (ih hvs)

theorem value_leaf (t : Token) : value g ofToken (.leaf t) = pure (ofToken t) := rfl

theorem valueAll_nil : valueAll g ofToken [] = pure [] := rfl

theorem valueAll_cons (T : ParseTree) (ts : List ParseTree) :
    valueAll g ofToken (T :: ts) = (do
      let v ← value g ofToken T
      let vs ← valueAll g ofToken ts
      return v :: vs) := by
  rw [valueAll]

theorem valueAll_leaf (t : Token) (ts : List ParseTree) :
    valueAll g ofToken (.leaf t :: ts) = (valueAll g ofToken ts).map (ofToken t :: ·) := by
  rw [valueAll, value]
  cases valueAll g ofToken ts <;> rfl

theorem value_node (hrule : g.rules[r]? = some rule) (cs : List ParseTree) :
    value g ofToken (.node r cs) = valueAll g ofToken cs >>= rule.action := by
  rw [value, hrule]

/-- A run follows the trees for which the automaton decides. It takes a step for every leaf and for
every node, and leaves the values of the trees on the stack. -/
theorem Chosen.leads
    {scan : Scan} (h : Chosen g p xs ts ahead) (hscan : scan.error = none) (hp : topState stack = p)
    (hahead : rest.head?.map Token.kind = ahead) (line : Nat) :
    Leads (.ofGrammar g ofToken) scan ⟨stack, tokensAll ts ++ rest, line⟩ (sizeAll ts)
      ((valueAll g ofToken ts).map fun vs => (frames g p xs vs).reverse ++ stack) rest := by
  induction h generalizing stack rest line with
  | nil => exact ⟨0, Nat.le_refl 0, line, fun fuel => rfl⟩
  | @leaf p q xs ts ahead t hgoto hkept _ ih =>
    subst hp
    have houtcome : ((valueAll g ofToken (.leaf t :: ts)).map fun vs =>
        (frames g (topState stack) (.tok t.kind :: xs) vs).reverse ++ stack) =
        (valueAll g ofToken ts).map fun vs =>
          (frames g q xs vs).reverse ++ (⟨q, .tok t.kind, ofToken t⟩ :: stack) := by
      rw [valueAll_leaf]
      cases valueAll g ofToken ts with
      | error f => rfl
      | ok vs => simp [Except.map, frames_cons hgoto]
    rw [houtcome]
    exact (leads_shift hgoto hkept).trans fun line => ih rfl hahead line
  | @node p p' q r rule xs cs ts ahead hrule hbegins hpath honly hprefer hfollow hgoto hchosen _
      ihchildren ihrest =>
    subst hp
    have hnext : (tokensAll ts ++ rest).head?.map Token.kind = firstKind ts ahead := by
      rw [head?_append_kind, hahead, firstKind]
    have hchildren := ihchildren rfl hnext line
    rw [← List.append_assoc] at hchildren
    rw [sizeAll, size, valueAll, value_node hrule]
    cases hparts : valueAll g ofToken cs with
    | error f =>
      rw [hparts] at hchildren
      have hfault : Leads _ _ _ _ (.error f) rest := hchildren
      exact hfault.mono (by omega)
    | ok parts =>
      rw [hparts] at hchildren
      have hcount : parts.length = rule.body.length :=
        (length_valueAll hparts).trans hchosen.parses.length_eq
      have hstate := topState_frames rfl hcount hpath
      let read := frames g (topState stack) rule.body parts
      have hreduce : ∀ line, Leads (.ofGrammar g ofToken) scan
          ⟨read.reverse ++ stack, tokensAll ts ++ rest, line⟩ 1
          ((rule.action (read.map (·.value))).map fun v => ⟨q, .cat rule.head, v⟩ :: stack)
          (tokensAll ts ++ rest) := fun line =>
        leads_rule read hscan hrule hbegins (by rwa [hstate]) (length_frames hcount)
          (by rwa [hstate]) (by rwa [hstate, hnext]) (by rwa [hnext]) hgoto
      rw [values_frames hcount] at hreduce
      have hnode := hchildren.trans hreduce
      show Leads _ _ _ _ (Except.map _ ((rule.action parts) >>= _)) rest
      cases hbuilt : rule.action parts with
      | error f =>
        rw [hbuilt] at hnode
        have hfault : Leads _ _ _ _ (.error f) rest := hnode
        exact hfault.mono (by omega)
      | ok v =>
        rw [hbuilt] at hnode
        have hall := hnode.trans fun line => ihrest rfl hahead line
        have houtcome : Except.map (fun vs =>
            (frames g (topState stack) (.cat rule.head :: xs) vs).reverse ++ stack)
            ((valueAll g ofToken ts) >>= fun vs => pure (v :: vs)) =
            (valueAll g ofToken ts).map fun vs =>
              (frames g q xs vs).reverse ++ (⟨q, .cat rule.head, v⟩ :: stack) := by
          cases valueAll g ofToken ts with
          | error f => rfl
          | ok vs => simp [bind, Except.bind, pure, Except.pure, Except.map, frames_cons hgoto]
        exact houtcome ▸ hall

end BlockScript.Grammar
