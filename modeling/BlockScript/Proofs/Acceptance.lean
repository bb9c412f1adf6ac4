import BlockScript.Proofs.GrammarTables
import BlockScript.Proofs.ScriptValues

/-!
Which scripts are parsed. The rules have values for all trees in which no literal is compared, so
that a script is parsed, whatever its operands are, if and only if no literal comes first in a
comparison.
-/
namespace BlockScript.Grammar

open ParseTree
open Scan (Spelled)

namespace ParseTree

/-- Whether a tree compares a literal with something else. -/
def hasLiteralFirst : ParseTree → Bool
  | leaf _ => false
  | node r children => scripts.rules[r]?.any fun rule => comparesLiteral rule (children.map tokens)

theorem flatten_map_tokens (ts : List ParseTree) : (ts.map tokens).flatten = tokensAll ts := by
  induction ts with
  | nil => rfl
  | cons T ts ih => simp [ih]

end ParseTree

/-- The rules have values for trees in which no literal is compared, and a fault for all others. -/
theorem Parses.values (h : Parses scripts xs ts)
    (hspelled : ∀ t ∈ tokensAll ts, ∃ text, Spelled .script t.kind t.value text) :
    if (subtreesAll ts).any hasLiteralFirst then
      valueAll scripts .ofToken ts = .error .typeMismatch
    else ∃ ps : List (List Token × Fragment), valueAll scripts .ofToken ts = .ok (ps.map Prod.snd) ∧
      ps.map Prod.fst = ts.map tokens ∧ PartsOf xs ps := by
  induction h with
  | nil => exact ⟨[], rfl, rfl, .nil⟩
  | leaf t _ ih =>
    simp only [tokensAll, tokens, List.singleton_append, List.forall_mem_cons] at hspelled
    obtain ⟨⟨text, htext⟩, hrest⟩ := hspelled
    have ih := ih hrest
    simp only [subtreesAll, subtrees, List.singleton_append, List.any_cons, hasLiteralFirst,
      Bool.false_or, valueAll_leaf]
    split at ih
    · next h => 
      rw [if_pos h, ih]
      rfl
    · next h =>
      obtain ⟨ps, hvalue, htokens, hparts⟩ := ih
      rw [if_neg h, hvalue]
      exact ⟨([t], .ofToken t) :: ps, rfl, by simp [htokens], .cons (valueOf_token htext) hparts⟩
  | @node r rule xs cs ts hrule _ _ ihchildren ihrest =>
    simp only [tokensAll, tokens, List.forall_mem_append] at hspelled
    have hchildren := ihchildren hspelled.1
    have hrest := ihrest hspelled.2
    simp only [subtreesAll, subtrees, List.cons_append, List.any_cons, List.any_append,
      hasLiteralFirst, hrule, Option.any_some, valueAll_cons, value_node hrule]
    split at hchildren
    · next h =>
      simp only [h, Bool.or_true, Bool.true_or, if_true, hchildren]
      rfl
    · next h =>
      obtain ⟨parts, hvalue, htokens, hparts⟩ := hchildren
      have htotal := total_of_mem rule (List.mem_of_getElem? hrule) parts hparts
      rw [htokens] at htotal
      simp only [h, hvalue]
      split at htotal
      · next hliteral =>
        rw [if_pos (by simp [hliteral])]
        simp [bind, Except.bind, htotal]
      · next hliteral =>
        obtain ⟨v, hv, hshape⟩ := htotal
        simp only [bind, Except.bind, hv, hliteral, Bool.false_or]
        rw [List.flatMap_def, htokens, flatten_map_tokens] at hshape
        split at hrest
        · next hlater =>
          rw [if_pos hlater, hrest]
        · next hlater =>
          obtain ⟨ps, hvalues, hfirst, hps⟩ := hrest
          rw [if_neg hlater, hvalues]
          exact ⟨(tokensAll cs, v) :: ps, rfl, by simp [hfirst], .cons hshape hps⟩

theorem Parses.value (h : Parses scripts [x] [T])
    (hspelled : ∀ t ∈ T.tokens, ∃ text, Spelled .script t.kind t.value text) :
    if T.subtrees.any hasLiteralFirst then T.value scripts .ofToken = .error .typeMismatch
    else ∃ v, T.value scripts .ofToken = .ok v ∧ ValueOf T.tokens v x := by
  have hvalues := h.values (by simpa using hspelled)
  simp only [subtreesAll, List.append_nil, valueAll_cons, valueAll_nil] at hvalues
  cases hvalue : T.value scripts .ofToken with
  | error f =>
    rw [hvalue] at hvalues
    split at hvalues
    · next hliteral =>
      cases hvalues
      rw [if_pos hliteral]
    · obtain ⟨_, hvalues, -⟩ := hvalues
      cases hvalues
  | ok v =>
    rw [hvalue] at hvalues
    split at hvalues
    · cases hvalues
    · next hliteral =>
      obtain ⟨_, hvalues, htokens, _ | @⟨_, ⟨ts, w⟩, _, _, hp, _ | _⟩⟩ := hvalues
      cases hvalues
      cases htokens
      rw [if_neg hliteral]
      exact ⟨_, rfl, hp⟩

/-- A script whose tokens are derived, with precedence where the grammar leaves a choice, is parsed
unless a comparison in it has a literal for its first operand. Then its place is missing. -/
theorem parse_derived_script {scan : Scan} {T : ParseTree} (line : Nat) (hscan : scan.error = none)
    (hspelled : ∀ t ∈ scan.tokens, ∃ text, Spelled .script t.kind t.value text)
    (htokens : scan.tokens = T.tokens)
    (h : Canonical scripts disputes .unranked .unranked [.cat .program] [T] none) :
    if T.subtrees.any hasLiteralFirst then
      ∃ line', scriptMachine.parse line scan = (.fault .typeMismatch, line')
    else ∃ p, scriptMachine.parse line scan = (.accepted (.script p), scan.line) := by
  obtain ⟨line', hparse⟩ : ∃ line', scriptMachine.parse line scan =
      ended (T.value scripts .ofToken) scan.line line' :=
    h.parse Scripts.settles hscan htokens line
  have hvalue := h.parses.value (by rwa [← htokens])
  rw [hparse]
  split at hvalue
  · next hliteral => exact if_pos hliteral ▸ ⟨line', by rw [hvalue]; rfl⟩
  · next hliteral =>
    obtain ⟨v, hv, p, rfl, -⟩ := hvalue
    exact if_neg hliteral ▸ ⟨p, by rw [hv]; rfl⟩

theorem parse_derived_script_literal_first :
    ∃ T : ParseTree, (scan .script 1 "x = 1 < y;").tokens = T.tokens ∧
      Canonical scripts disputes .unranked .unranked [.cat .program] [T] none ∧
      T.subtrees.any hasLiteralFirst = true ∧ ∃ line,
        scriptMachine.parse 1 (scan .script 1 "x = 1 < y;") = (.fault .typeMismatch, line) := by
  let one : ParseTree := .node 94 [.node 63 [.leaf ⟨.integer, .int 1, 1, 4⟩]]
  let y : ParseTree := .node 97 [.node 58 [.leaf ⟨.word, .text "y", 1, 8⟩]]
  let T : ParseTree := .node 2 [.node 19 [.node 22 [.node 43 [
    .node 58 [.leaf ⟨.word, .text "x", 1, 0⟩], .leaf ⟨.equals, .text "=", 1, 2⟩,
    .node 100 [.node 84 [one, .leaf ⟨.lessThan, .text "<", 1, 6⟩, y]]],
    .leaf ⟨.semicolon, .text ";", 1, 9⟩]]]
  have htokens : (scan .script 1 "x = 1 < y;").tokens = T.tokens := rfl
  have hcanonical : Canonical scripts disputes .unranked .unranked [.cat .program] [T] none := by
    repeat' first
      | exact .nil
      | refine .leaf_of_kind _ rfl ?_
      | refine .node_of_head rfl rfl (by decide) (by decide) ?_ ?_
  have hliteral : T.subtrees.any hasLiteralFirst = true := by decide
  have hparse := parse_derived_script 1 rfl (scan_spelled rfl).1 htokens hcanonical
  rw [if_pos hliteral] at hparse
  exact ⟨T, htokens, hcanonical, hliteral, hparse⟩

end BlockScript.Grammar
