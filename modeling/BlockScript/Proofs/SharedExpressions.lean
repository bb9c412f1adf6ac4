import BlockScript.Proofs.Groupings

/-!
Expressions that scripts and setups share. A text that is scanned to the tokens of a phrase in a
script is scanned to the same tokens in a setup, further on, and both read a tree from them. It is
the same tree unless the two languages disagree on two operators that compete for an operand, and
one of those is always `not` or `in`.
-/
namespace BlockScript

/-- The token in a text in which some lines and characters stand before it. -/
def Token.moved (lines places : Nat) (t : Token) : Token :=
  { t with line := t.line + lines, position := t.position + places }

namespace Scan

open Text

/-- The kinds of token that expressions of both languages are made of, and the semicolon. -/
def sharedKinds : List Terminal :=
  [.decimal, .integer, .string, .trueWord, .falseWord, .word, .lparen, .rparen, .concat, .plus, .minus,
    .times, .dividedBy, .modulo, .exponent, .lessThan, .greaterThan, .lessThanEqual, .greaterThanEqual,
    .equalTo, .notEqualTo, .not, .and, .or, .isIn, .semicolon]

/-- A token of scripts that is the same token in a language. A name must not be reserved there. -/
def Shared (d : Dialect) (kind : Terminal) (value : Literal) : Prop :=
  d = .setup → kind ∈ sharedKinds ∧
    (kind = .word → value ∉ Terminal.setupKeywords.map fun k => Literal.text k.1)

theorem ofWord_shared (h : Shared d (Terminal.ofWord .script word) (.text word)) :
    Terminal.ofWord d word = Terminal.ofWord .script word := by
  cases d with
  | script => rfl
  | setup =>
    obtain ⟨hkind, hfree⟩ := h rfl
    by_cases hscript : word ∈ Terminal.scriptKeywords.map (·.1)
    · have hall : ∀ word ∈ Terminal.scriptKeywords.map (·.1),
          Terminal.ofWord .script word ∈ sharedKinds →
          Terminal.ofWord .setup word = Terminal.ofWord .script word := by decide
      exact hall word hscript hkind
    · have hword := ofWord_of_free (d := .script) hscript
      have hsetup : word ∉ Terminal.setupKeywords.map (·.1) := by
        intro hmem
        obtain ⟨k, hk, rfl⟩ := List.mem_map.mp hmem
        exact hfree hword (List.mem_map.mpr ⟨k, hk, rfl⟩)
      rw [hword, ofWord_of_free (d := .setup) hsetup]

/-- A mark that both languages have is found in both. -/
theorem mark?_shared (h : mark? .script cs = some (.token kind value n))
    (hkind : kind ∈ sharedKinds) : mark? .setup cs = some (.token kind value n) := by
  obtain ⟨m, hfind, hm⟩ := Option.map_eq_some_iff.mp h
  have hmarks : Terminal.marks .setup =
      Terminal.scriptMarks.filter fun m => m ∈ Terminal.marks .setup := by decide
  have hmem : ∀ m ∈ Terminal.scriptMarks, m.2 ∈ sharedKinds → m ∈ Terminal.marks .setup := by decide
  obtain ⟨hp, before, after, hsplit, hbefore⟩ := List.find?_eq_some_iff_append.mp hfind
  have hkind' : m.2 = kind := (Lexeme.token.inj hm).1
  have hm' : m ∈ Terminal.marks .setup := hmem m (List.mem_of_find?_eq_some hfind) (hkind' ▸ hkind)
  refine Option.map_eq_some_iff.mpr ⟨m, ?_, hm⟩
  rw [hmarks, show Terminal.scriptMarks = before ++ m :: after from hsplit, List.filter_append,
    List.filter_cons_of_pos (by simpa using hm')]
  exact List.find?_eq_some_iff_append.mpr ⟨hp, _, _, rfl, fun a ha =>
    hbefore a (List.mem_of_mem_filter ha)⟩

/-- The lexemes that no language words or marks differently. -/
theorem lexeme_shared (h : lexeme .script afterWord position c rest = l)
    (hshared : ∀ kind value n, l = .token kind value n → Shared d kind value)
    (herror : ∀ e, l ≠ .error e) : lexeme d afterWord position' c rest = l := by
  unfold lexeme at h ⊢
  split at h
  · rename_i hblank
    rwa [if_pos hblank]
  · rename_i hblank
    rw [if_neg hblank]
    split at h
    · rename_i hline
      rwa [if_pos hline]
    · rename_i hline
      rw [if_neg hline]
      split at h
      · rename_i hword
        rw [if_pos hword]
        dsimp only at h ⊢
        rwa [ofWord_shared (hshared _ _ _ h.symm)]
      · rename_i hword
        rw [if_neg hword]
        dsimp only at h ⊢
        generalize (if (decide (c = '\'') || decide (c = '"')) = true then string? c rest else none) =
          quoted at h ⊢
        generalize number? (c :: rest) = number at h ⊢
        generalize comment? (c :: rest) = comment at h ⊢
        rcases quoted with _ | l'
        · rcases number with _ | l'
          · rcases comment with _ | l'
            · cases hmark : mark? .script (c :: rest) with
              | none =>
                rw [hmark] at h
                exact absurd h.symm (herror _)
              | some l' =>
                rw [hmark] at h
                obtain rfl : l' = l := h
                obtain ⟨m, hm, rfl⟩ := Option.map_eq_some_iff.mp hmark
                cases d with
                | script => exact congrArg (Option.getD · _) hmark
                | setup =>
                  exact congrArg (Option.getD · _) (mark?_shared hmark (hshared _ _ _ rfl rfl).1)
            · exact h
          · exact h
        · exact h

/-- Tokens that both languages have are scanned in both, wherever they stand. -/
theorem scanFrom_shared {line position skip line' : Nat}
    (h : scanFrom .script line position afterWord skip cs = ⟨ts, none, line'⟩)
    (hshared : ∀ t ∈ ts, Shared d t.kind t.value) (lines places : Nat) :
    scanFrom d (line + lines) (position + places) afterWord skip cs =
      ⟨ts.map (Token.moved lines places), none, line' + lines⟩ := by
  induction cs generalizing line position skip line' afterWord ts with
  | nil =>
    cases h
    rfl
  | cons c rest ih =>
    rw [scanFrom] at h ⊢
    split at h
    · rename_i hskip
      rw [if_pos hskip, Nat.add_right_comm]
      exact ih h hshared
    · rename_i hskip
      rw [if_neg hskip, Nat.add_right_comm position]
      cases hlexeme : lexeme .script afterWord position c rest with
      | skipped n =>
        have hsame : lexeme d afterWord (position + places) c rest = .skipped n :=
          lexeme_shared hlexeme (by rintro _ _ _ ⟨⟩) (by rintro _ ⟨⟩)
        rw [hlexeme] at h
        rw [hsame]
        exact ih h hshared
      | newline =>
        have hsame : lexeme d afterWord (position + places) c rest = .newline :=
          lexeme_shared hlexeme (by rintro _ _ _ ⟨⟩) (by rintro _ ⟨⟩)
        rw [hlexeme] at h
        rw [hsame]
        dsimp only
        rw [Nat.add_right_comm line]
        exact ih h hshared
      | error e =>
        rw [hlexeme] at h
        cases h
      | token kind value n =>
        rw [hlexeme] at h
        cases htail : scanFrom .script line (position + 1) (isWordChar c) (n - 1) rest with
        | mk tokens error after =>
          simp only [htail] at h
          obtain ⟨rfl, rfl, rfl⟩ := (Scan.mk.injEq ..).mp h
          obtain ⟨hfirst, hrest⟩ := List.forall_mem_cons.mp hshared
          rw [lexeme_shared hlexeme (by rintro _ _ _ ⟨⟩; exact hfirst) (by rintro _ ⟨⟩)]
          simp only [ih htail hrest]
          rfl

/-- Words with a blank after each. -/
def lead (ws : List Word) : List Char := ws.flatMap fun w => w.text.toList ++ [' ']

/-- The tokens of words with a blank after each. -/
def leadTokens (line position : Nat) : List Word → List Token
  | [] => []
  | w :: ws =>
    ⟨w.kind, .text w.text, line, position⟩ :: leadTokens line (position + w.text.length + 1) ws

theorem scanFrom_lead (hws : ∀ w ∈ ws, w.Scans d)
    {line line' position : Nat} {error : Option ScanError}
    (h : scanFrom d line (position + (lead ws).length) false 0 rest = ⟨ts, error, line'⟩) :
    scanFrom d line position false 0 (lead ws ++ rest) =
      ⟨leadTokens line position ws ++ ts, error, line'⟩ := by
  induction ws generalizing position with
  | nil => exact h
  | cons w ws ih =>
    obtain ⟨hw, hrest⟩ := List.forall_mem_cons.mp hws
    have htext : lead (w :: ws) ++ rest = w.text.toList ++ ' ' :: (lead ws ++ rest) := by simp [lead]
    have hlength : position + (lead (w :: ws)).length =
        position + w.text.length + 1 + (lead ws).length := by
      simp only [lead, List.flatMap_cons, List.length_append, String.length_toList,
        List.length_singleton]
      omega
    obtain ⟨afterWord, hscan⟩ := hw.scanFrom line position ⟨lead ws ++ rest, .inl rfl⟩
    rw [hlength] at h
    rw [htext, hscan, scanFrom_blank, ih hrest h]
    rfl

/-- A text that is scanned to the given tokens, up to a semicolon after it. -/
def Writes (text : String) (ts : List Token) : Prop :=
  ∃ semicolon line, semicolon.kind = .semicolon ∧
    scanFrom .script 0 0 false 0 (text.toList ++ [';']) = ⟨ts ++ [semicolon], none, line⟩

end Scan

/-- A position in a text that more characters are put into the front of. The start of a text stays
its start. -/
def Position.shift (distance : Nat) : Position → Position
  | .start i => if i = 0 then .start 0 else .start (i + distance)
  | p => p

namespace Grammar

open Scan Automaton

section

variable {lines lines' places distance : Nat} {t : Token} {a b e : Expr}

theorem shift_position (h : 0 < places) : (Position.start (t.moved lines places).position).shift
    distance = .start (t.moved lines' (places + distance)).position := by
  have hpos : 0 < (t.moved lines places).position := Nat.lt_add_left t.position h
  rw [Position.shift, if_neg (by omega)]
  simp only [Token.moved]
  congr 1
  omega

theorem position_shift (e : Expr) :
    (e.place (.shift distance)).position = e.position.map (.shift distance) := by
  have hmissing (p : Position) : p.shift distance = .missing ↔ p = .missing := by
    cases p with
    | start i =>
      rw [Position.shift]
      split <;> simp
    | _ => simp [Position.shift]
  cases e <;> simp only [Expr.place, Expr.position, hmissing] <;> first | rfl | (split <;> rfl)

theorem startOf_shift (h : 0 < places) :
    startOf (a.place (.shift distance)) (t.moved lines' (places + distance)).position =
      (startOf a (t.moved lines places).position).shift distance := by
  rw [startOf, startOf, position_shift]
  cases a.position with
  | ok p => rfl
  | error f => exact (shift_position h).symm

theorem Operator.action_moved {op : Operator} (hplaces : 0 < places)
    (h : op.action [.expr a, .ofToken (t.moved lines places), .expr b] = .ok (.expr e)) :
    op.action [.expr (a.place (.shift distance)), .ofToken (t.moved lines' (places + distance)),
      .expr (b.place (.shift distance))] = .ok (.expr (e.place (.shift distance))) := by
  have hstart : startOf (a.place (.shift distance)) (t.moved lines' (places + distance)).position =
    (startOf a (t.moved lines places).position).shift distance := startOf_shift hplaces
  have hcompare (compare : CompareOp)
      (h : comparison compare [.expr a, .ofToken (t.moved lines places), .expr b] = .ok (.expr e)) :
      comparison compare [.expr (a.place (.shift distance)),
        .ofToken (t.moved lines' (places + distance)), .expr (b.place (.shift distance))] =
        .ok (.expr (e.place (.shift distance))) := by
    obtain ⟨p, hp, h⟩ := ok_of_bind h
    cases h
    simp only [comparison, Fragment.ofToken, position_shift, hp]
    rfl
  cases op with
  | lessThan | greaterThan | lessThanEqual | greaterThanEqual | equalTo | notEqualTo =>
    exact hcompare _ h
  | _ =>
    cases h
    simp only [Operator.action, concatenation, arithmetic, logic, Fragment.ofToken, hstart]
    rfl

theorem Sign.action_moved {sign : Sign} (hplaces : 0 < places)
    (h : sign.action [.ofToken (t.moved lines places), .expr a] = .ok (.expr e)) :
    sign.action [.ofToken (t.moved lines' (places + distance)), .expr (a.place (.shift distance))] =
      .ok (.expr (e.place (.shift distance))) := by
  cases sign with
  | minus =>
    cases h
    rfl
  | not =>
    cases h
    rw [Expr.place, shift_position hplaces]
    rfl

theorem Leaf.action_moved {l : Leaf} (hplaces : 0 < places)
    (h : l.action [.ofToken (t.moved lines places)] = .ok (.expr e)) :
    l.action [.ofToken (t.moved lines' (places + distance))] =
      .ok (.expr (e.place (.shift distance))) := by
  cases l with
  | decimal | integer | string =>
    cases h
    simp only [Leaf.action, literal, Fragment.ofToken, Token.moved]
    cases t.value <;> rfl
  | trueWord | falseWord =>
    cases h
    rfl
  | name =>
    cases hvalue : (t.moved lines places).value with
    | text n =>
      have hvalue' : (t.moved lines' (places + distance)).value = .text n := hvalue
      rw [Leaf.action, Fragment.ofToken, hvalue] at h
      cases h
      rw [Leaf.action, Fragment.ofToken, hvalue', Expr.place, shift_position hplaces]
      rfl
    | _ =>
      rw [Leaf.action, Fragment.ofToken, hvalue] at h
      cases h

end

namespace Phrase

variable {φ : Phrase} {lines lines' places distance : Nat}

/-- The phrase in a text in which some lines and characters stand before it. -/
def moved (lines places : Nat) : Phrase → Phrase
  | leaf l t kind => leaf l (t.moved lines places) kind
  | paren opening inner closing opens closes =>
    paren (opening.moved lines places) (inner.moved lines places) (closing.moved lines places) opens
      closes
  | unary sign t kind operand =>
    unary sign (t.moved lines places) kind (operand.moved lines places)
  | binary left op t kind right =>
    binary (left.moved lines places) op (t.moved lines places) kind (right.moved lines places)

theorem tokens_moved (φ : Phrase) (lines places : Nat) :
    (φ.moved lines places).tokens = φ.tokens.map (Token.moved lines places) := by
  induction φ <;> simp [moved, tokens, *]

theorem fits_moved : (φ.moved lines places).fits ranks b next = φ.fits ranks b next := by
  induction φ generalizing b next <;> simp [moved, fits, *]

/-- The same phrase further on in a text has the same tree, shifted. -/
theorem value_moved {e : Expr} (hplaces : 0 < places)
    (h : (φ.moved lines places).value = .ok (.expr e)) :
    (φ.moved lines' (places + distance)).value = .ok (.expr (e.place (.shift distance))) := by
  induction φ generalizing e with
  | leaf l t hkind => exact Leaf.action_moved hplaces h
  | paren opening inner closing hopening hclosing ih => exact ih h
  | unary sign t hkind operand ih =>
    obtain ⟨v, hv, haction⟩ := ok_of_bind h
    obtain ⟨a, rfl⟩ := value_expr hv
    simp only [moved, value, ih hv]
    exact Sign.action_moved hplaces haction
  | binary left op t hkind right ihl ihr =>
    obtain ⟨v, hv, h⟩ := ok_of_bind h
    obtain ⟨w, hw, haction⟩ := ok_of_bind h
    obtain ⟨a, rfl⟩ := value_expr hv
    obtain ⟨b, rfl⟩ := value_expr hw
    simp only [moved, value, ihl hv, ihr hw]
    exact Operator.action_moved hplaces haction

/-- Precedence groups the tokens of a phrase as the phrase does if it groups them as another does that
has the same tree. -/
theorem fits_of_same_tree {ranks : Ranks} {b : Precedence} {next : Option Operator} {ψ : Phrase}
    {e : Expr} (htokens : φ.tokens = ψ.tokens) (hfits : φ.fits ranks b next = true)
    (h : (φ.moved lines places).value = .ok (.expr e))
    (h' : (ψ.moved lines places).value = .ok (.expr e)) : ψ.fits ranks b next = true := by
  have hmoved := eq_of_same_tree (by rw [tokens_moved, tokens_moved, htokens]) h h'
  have hsame := congrArg (fits ranks b next) hmoved
  rw [fits_moved, fits_moved, hfits] at hsame
  exact hsame.symm

theorem kind_mem (φ : Phrase) : ∀ t ∈ φ.tokens, t.kind ∈ sharedKinds := by
  induction φ with
  | leaf l t hkind =>
    refine List.forall_mem_singleton.mpr ?_
    rw [hkind]
    cases l <;> decide
  | paren opening inner closing hopening hclosing ih =>
    refine List.forall_mem_cons.mpr ⟨hopening ▸ by decide, List.forall_mem_append.mpr ⟨ih, ?_⟩⟩
    exact List.forall_mem_singleton.mpr (hclosing ▸ by decide)
  | unary sign t hkind operand ih =>
    refine List.forall_mem_cons.mpr ⟨?_, ih⟩
    rw [hkind]
    cases sign <;> decide
  | binary left op t hkind right ihl ihr =>
    refine List.forall_mem_append.mpr ⟨ihl, List.forall_mem_cons.mpr ⟨?_, ihr⟩⟩
    rw [hkind]
    cases op <;> decide

end Phrase

def TypeWord.spelling : TypeWord → String
  | num => "num"
  | str => "str"
  | bool => "bool"
  | var => "var"

def assigning (name text : String) : String := name ++ " = " ++ text ++ ";"

/-- A setup that declares a variable with what a text says. -/
def declaring (name : String) (w : TypeWord) (text : String) : String :=
  name ++ " : " ++ w.spelling ++ " = " ++ text ++ ";"

/-- The names in a phrase are not reserved in setups. -/
def Phrase.Free (φ : Phrase) : Prop :=
  ∀ t ∈ φ.tokens, t.kind = .word → t.value ∉ Terminal.setupKeywords.map fun k => Literal.text k.1

section

variable {d : Dialect} {φ : Phrase} {name : Name} {text : String} {s : Session}

/-- The tokens of a text are scanned after some words. -/
theorem scanFrom_writes (hws : ∀ w ∈ ws, w.Scans d)
    (hwrites : Writes text φ.tokens) (hfree : d = .setup → φ.Free) (line : Nat) :
    ∃ semicolon line', semicolon.kind = .semicolon ∧
      scanFrom d line 0 false 0 (lead ws ++ (text.toList ++ [';'])) =
        ⟨leadTokens line 0 ws ++ ((φ.moved line (lead ws).length).tokens ++ [semicolon]), none,
          line'⟩ := by
  obtain ⟨semicolon, line', hsemicolon, hscan⟩ := hwrites
  have hshared : ∀ t ∈ φ.tokens ++ [semicolon], Shared d t.kind t.value := by
    refine List.forall_mem_append.mpr ⟨fun t ht hd => ⟨φ.kind_mem t ht, hfree hd t ht⟩, ?_⟩
    refine List.forall_mem_singleton.mpr fun _ => ⟨hsemicolon ▸ by decide, fun h => ?_⟩
    rw [hsemicolon] at h
    cases h
  have hmoved := scanFrom_shared hscan hshared line (lead ws).length
  rw [Nat.zero_add, List.map_append, ← Phrase.tokens_moved] at hmoved
  exact ⟨semicolon.moved line (lead ws).length, _, hsemicolon, scanFrom_lead hws hmoved⟩

theorem parseFragment_ended (d : Dialect) {line line' : Nat} (hcontent : s.content = .ok source)
    (h : (Session.machine d).parse (s.line d) (scan d (s.line d) source) = ended x line line') :
    (s.parseFragment d).1 = x.mapError .fault := by
  simp only [Session.parseFragment, hcontent, h]
  cases x <;> rfl

/-- A script that assigns a phrase is parsed to that assignment, or has the fault of the phrase. -/
theorem parseScript_assigning (hcontent : s.content = .ok (assigning name.text text))
    (hwrites : Writes text φ.tokens)
    (hfits : φ.fits (.of scripts Scripts.minusRank) .unranked none = true) :
    let value := (φ.moved (s.line .script) (name.text.length + 3)).value
    (∃ f, value = .error f ∧ s.parseScript.1 = .error (.fault f)) ∨
      ∃ e, value = .ok (.expr e) ∧
        s.parseScript.1 = .ok ⟨[], [.assign (.start 0) (.name (.start 0) name.text) e]⟩ := by
  have hws : ∀ w ∈ [Word.mk .word name.text, ⟨.equals, "="⟩], w.Scans .script :=
    List.forall_mem_cons.mpr ⟨name.scans, List.forall_mem_singleton.mpr (mark_scans (by decide))⟩
  have htext : (assigning name.text text).toList =
      lead [⟨.word, name.text⟩, ⟨.equals, "="⟩] ++ (text.toList ++ [';']) := by
    simp [assigning, lead]
  have hlength : (lead [⟨.word, name.text⟩, ⟨.equals, "="⟩]).length = name.text.length + 3 := by
    simp [lead, String.length_toList]
  obtain ⟨semicolon, after, hsemicolon, hscan⟩ := scanFrom_writes hws hwrites nofun (s.line .script)
  rw [← htext, hlength] at hscan
  simp only [leadTokens, List.cons_append, List.nil_append] at hscan
  obtain ⟨line', hparse⟩ := Scripts.parse_assigned (s.line .script) (congrArg Scan.error hscan)
    rfl rfl hsemicolon (Phrase.fits_moved.trans hfits) (congrArg Scan.tokens hscan)
  have hended := parseFragment_ended .script hcontent hparse
  rw [Session.parseScript]
  cases hfragment : s.parseFragment .script with
  | mk r s' =>
    rw [hfragment] at hended
    cases hvalue : (φ.moved (s.line .script) (name.text.length + 3)).value with
    | error f =>
      rw [hvalue] at hended
      obtain rfl : r = .error (.fault f) := hended
      exact .inl ⟨f, rfl, rfl⟩
    | ok v =>
      obtain ⟨e, rfl⟩ := Phrase.value_expr hvalue
      rw [hvalue, Scripts.assigned_eq rfl] at hended
      obtain rfl := hended
      exact .inr ⟨e, rfl, rfl⟩

section

variable (hname : name.text ∉ Terminal.setupKeywords.map (·.1))

include hname

theorem setup_scans (w : TypeWord) :
    ∀ v ∈ [Word.mk .word name.text, ⟨.colon, ":"⟩, ⟨w.terminal, w.spelling⟩, ⟨.equals, "="⟩],
      v.Scans .setup := by
  have hmark : ∀ {v : Word}, v = ⟨.colon, ":"⟩ ∨ v = ⟨.equals, "="⟩ → v.Scans .setup := by
    rintro v (rfl | rfl)
    · exact ⟨':', [], rfl, fun position rest h => by obtain ⟨r, rfl | rfl⟩ := h <;> rfl⟩
    · exact ⟨'=', [], rfl, fun position rest h => by obtain ⟨r, rfl | rfl⟩ := h <;> rfl⟩
  have hword : (Word.mk .word name.text).Scans .setup :=
    ofWord_of_free (d := .setup) hname ▸ name.isWord.scans .setup
  have hisWord : IsWord w.spelling := by cases w <;> exact ⟨_, _, rfl, rfl, List.all_eq_true.mp rfl⟩
  have hkind : Terminal.ofWord .setup w.spelling = w.terminal := by cases w <;> rfl
  have htype : (Word.mk w.terminal w.spelling).Scans .setup := hkind ▸ hisWord.scans .setup
  refine List.forall_mem_cons.mpr ⟨hword, List.forall_mem_cons.mpr ⟨hmark (.inl rfl), ?_⟩⟩
  exact List.forall_mem_cons.mpr ⟨htype, List.forall_mem_singleton.mpr (hmark (.inr rfl))⟩

/-- A setup that declares a variable with a phrase is parsed to that declaration, or has the fault
of the phrase. -/
theorem parseSetup_declaring {w : TypeWord}
    (hcontent : s.content = .ok (declaring name.text w text)) (hwrites : Writes text φ.tokens)
    (hfree : φ.Free) (hfits : φ.fits (.of setups Setups.minusRank) .unranked none = true) :
    let value := (φ.moved (s.line .setup) (name.text.length + 3 + (w.spelling.length + 3))).value
    (∃ f, value = .error f ∧ s.parseSetup.1 = .error (.fault f)) ∨
      ∃ e, value = .ok (.expr e) ∧
        s.parseSetup.1 = .ok ⟨.unnamed, [⟨.start 0, name.text, w.type, e⟩]⟩ := by
  have htext : (declaring name.text w text).toList = lead [⟨.word, name.text⟩, ⟨.colon, ":"⟩,
      ⟨w.terminal, w.spelling⟩, ⟨.equals, "="⟩] ++ (text.toList ++ [';']) := by
    simp [declaring, lead]
  have hlength : (lead [⟨.word, name.text⟩, ⟨.colon, ":"⟩, ⟨w.terminal, w.spelling⟩,
      ⟨.equals, "="⟩]).length = name.text.length + 3 + (w.spelling.length + 3) := by
    simp [lead, String.length_toList]
    omega
  obtain ⟨semicolon, after, hsemicolon, hscan⟩ :=
    scanFrom_writes (setup_scans hname w) hwrites (fun _ => hfree) (s.line .setup)
  rw [← htext, hlength] at hscan
  simp only [leadTokens, List.cons_append, List.nil_append] at hscan
  obtain ⟨line', hparse⟩ := Setups.parse_declared (s.line .setup) (congrArg Scan.error hscan)
    rfl rfl rfl rfl hsemicolon (Phrase.fits_moved.trans hfits) (congrArg Scan.tokens hscan)
  have hended := parseFragment_ended .setup hcontent hparse
  rw [Session.parseSetup]
  cases hfragment : s.parseFragment .setup with
  | mk r s' =>
    rw [hfragment] at hended
    cases hvalue : (φ.moved (s.line .setup) (name.text.length + 3 + (w.spelling.length + 3))).value with
    | error f =>
      rw [hvalue] at hended
      obtain rfl : r = .error (.fault f) := hended
      exact .inl ⟨f, rfl, rfl⟩
    | ok v =>
      obtain ⟨e, rfl⟩ := Phrase.value_expr hvalue
      rw [hvalue] at hended
      obtain rfl : r = .ok (.setup ⟨.unnamed, [⟨.start 0, name.text, w.type, e⟩]⟩) := hended
      exact .inr ⟨e, rfl, rfl⟩

end

end

/-- The rivals of which scripts and setups prefer different ones. -/
def disputed : List (Waiting × Operator) :=
  [(.sign .not, .and), (.sign .not, .or), (.sign .not, .concat), (.operator .isIn, .and),
    (.operator .isIn, .or), (.operator .isIn, .concat), (.operator .isIn, .isIn),
    (.operator .and, .isIn), (.operator .or, .isIn)]

theorem prefers_eq_iff (pair : Waiting × Operator) :
    (Ranks.of setups Setups.minusRank).prefers pair =
      (Ranks.of scripts Scripts.minusRank).prefers pair ↔ pair ∉ disputed := by
  have hall : ∀ w ∈ Waiting.sign .minus :: .sign .not :: Operator.all.map .operator,
      ∀ op ∈ Operator.all, (Ranks.of setups Setups.minusRank).prefers (w, op) =
        (Ranks.of scripts Scripts.minusRank).prefers (w, op) ↔ (w, op) ∉ disputed := by
    decide +kernel
  obtain ⟨w, op⟩ := pair
  refine hall w ?_ op op.mem_all
  cases w with
  | sign sign => cases sign <;> simp
  | operator op => simp [op.mem_all]

/-- Setups group what scripts group in the same way unless some rivals are disputed. -/
theorem fits_setups_iff {φ : Phrase}
    (h : φ.fits (.of scripts Scripts.minusRank) .unranked none = true) :
    φ.fits (.of setups Setups.minusRank) .unranked none = true ↔
      ∀ pair ∈ φ.rivals none none, pair ∉ disputed := by
  simp only [← prefers_eq_iff]
  exact Phrase.fits_iff_rivals (w := none) h

/-- A text over the expressions of both languages is grouped by scripts in some way. Where it is the
value of a variable in a script and in a setup, and both are parsed, the setup has the tree that the
script has, shifted, if and only if no rivals in that grouping are disputed. -/
theorem trees_agree_iff (name : Name) (hname : name.text ∉ Terminal.setupKeywords.map (·.1))
    (w : TypeWord) {text : String} {φ : Phrase} (hwrites : Writes text φ.tokens) (hfree : φ.Free) :
    let groups (ψ : Phrase) : Prop := ψ.tokens = φ.tokens ∧
      ψ.fits (.of scripts Scripts.minusRank) .unranked none = true
    (∃ ψ, groups ψ) ∧ ∀ ψ, groups ψ → ∀ (s s' : Session) (p : Script) (q : Setup),
      s.content = .ok (assigning name.text text) → s'.content = .ok (declaring name.text w text) →
      s.parseScript.1 = .ok p → s'.parseSetup.1 = .ok q →
      ∃ e e', p = ⟨[], [.assign (.start 0) (.name (.start 0) name.text) e]⟩ ∧
        q = ⟨.unnamed, [⟨.start 0, name.text, w.type, e'⟩]⟩ ∧
        (e' = e.place (.shift (w.spelling.length + 3)) ↔
          ∀ pair ∈ ψ.rivals none none, pair ∉ disputed) := by
  intro groups
  refine ⟨?_, ?_⟩
  · obtain ⟨ψ, hfits, htokens⟩ := φ.exists_fits (.of scripts Scripts.minusRank)
    exact ⟨ψ, htokens, hfits⟩
  rintro ψ ⟨htokens, hfits⟩ s s' p q hcontent hcontent' hp hq
  obtain ⟨χ, hfits', htokens'⟩ := φ.exists_fits (.of setups Setups.minusRank)
  have hfree' {ξ : Phrase} (h : ξ.tokens = φ.tokens) : ξ.Free := by rwa [Phrase.Free, h]
  rcases parseScript_assigning hcontent (htokens ▸ hwrites) hfits with ⟨f, -, hf⟩ | ⟨e, hvalue, he⟩
  · cases hf.symm.trans hp
  rcases parseSetup_declaring hname hcontent' (htokens' ▸ hwrites) (hfree' htokens') hfits' with
    ⟨f, -, hf⟩ | ⟨e', hvalue', he'⟩
  · cases hf.symm.trans hq
  refine ⟨e, e', (Except.ok.inj (he.symm.trans hp)).symm,
    (Except.ok.inj (he'.symm.trans hq)).symm, ?_⟩
  have hshifted : (ψ.moved (s'.line .setup) (name.text.length + 3 + (w.spelling.length + 3))).value =
      .ok (.expr (e.place (.shift (w.spelling.length + 3)))) :=
    Phrase.value_moved (by omega) hvalue
  rw [← fits_setups_iff hfits]
  constructor
  · rintro rfl
    exact Phrase.fits_of_same_tree (htokens'.trans htokens.symm) hfits' hvalue' hshifted
  · intro hown
    rcases parseSetup_declaring hname hcontent' (htokens ▸ hwrites) (hfree' htokens) hown with
      ⟨f, -, hf⟩ | ⟨a, ha, hparse⟩
    · cases hf.symm.trans hq
    · cases ha.symm.trans hshifted
      cases hparse.symm.trans he'
      rfl

def Name.x : Name := ⟨"x", ⟨'x', [], rfl, rfl, nofun⟩, by decide⟩

/-- Two groupings of the same text, with the negation of its first name or of both. -/
def negatedFirst : Phrase :=
  .binary (.unary .not ⟨.not, .text "not", 0, 0⟩ rfl (.leaf .name ⟨.word, .text "a", 0, 4⟩ rfl)) .and
    ⟨.and, .text "and", 0, 6⟩ rfl (.leaf .name ⟨.word, .text "b", 0, 10⟩ rfl)

def negatedBoth : Phrase :=
  .unary .not ⟨.not, .text "not", 0, 0⟩ rfl (.binary (.leaf .name ⟨.word, .text "a", 0, 4⟩ rfl) .and
    ⟨.and, .text "and", 0, 6⟩ rfl (.leaf .name ⟨.word, .text "b", 0, 10⟩ rfl))

/-- In a script the negation takes the first operand only, in a setup it takes both. -/
theorem trees_agree_iff_negation :
    let s := (Session.fresh none false).register "x" (assigning "x" "not a and b")
    let s' := (Session.fresh none false).register "x" (declaring "x" .bool "not a and b")
    let e : Expr := .logic (.start 4) .and
      [.logic (.start 4) .not [.name (.start 8) "a"], .name (.start 14) "b"]
    let e' : Expr := .logic (.start 11) .not
      [.logic (.start 15) .and [.name (.start 15) "a", .name (.start 21) "b"]]
    s.parseScript.1 = .ok ⟨[], [.assign (.start 0) (.name (.start 0) "x") e]⟩ ∧
      s'.parseSetup.1 = .ok ⟨.unnamed, [⟨.start 0, "x", .ofBoolean, e'⟩]⟩ ∧
      e' ≠ e.place (.shift 7) := by
  intro s s' e e'
  have hwrites : Writes "not a and b" negatedFirst.tokens :=
    ⟨⟨.semicolon, .text ";", 0, 11⟩, 0, rfl, rfl⟩
  have hfree : negatedFirst.Free := by
    simp [Phrase.Free, negatedFirst, Phrase.tokens, Terminal.setupKeywords]
  have hcontent : s.content = .ok (assigning Name.x.text "not a and b") := content_register _ _ _
  have hcontent' : s'.content = .ok (declaring Name.x.text .bool "not a and b") :=
    content_register _ _ _
  have hscript : s.parseScript.1 = .ok ⟨[], [.assign (.start 0) (.name (.start 0) "x") e]⟩ := by
    have hvalue : (negatedFirst.moved (s.line .script) 4).value = .ok (.expr e) := rfl
    rcases parseScript_assigning hcontent hwrites (by decide) with ⟨f, hf, -⟩ | ⟨u, hu, hparse⟩
    · cases hf.symm.trans hvalue
    · cases hu.symm.trans hvalue
      exact hparse
  have hsetup : s'.parseSetup.1 = .ok ⟨.unnamed, [⟨.start 0, "x", .ofBoolean, e'⟩]⟩ := by
    have hvalue : (negatedBoth.moved (s'.line .setup) 11).value = .ok (.expr e') := rfl
    have hwrites' : Writes "not a and b" negatedBoth.tokens := hwrites
    rcases parseSetup_declaring (by decide) hcontent' hwrites' hfree (by decide) with
      ⟨f, hf, -⟩ | ⟨u, hu, hparse⟩
    · cases hf.symm.trans hvalue
    · cases hu.symm.trans hvalue
      exact hparse
  obtain ⟨u, u', hu, hu', hiff⟩ := (trees_agree_iff .x (by decide) .bool hwrites hfree).2
    negatedFirst ⟨rfl, by decide⟩ s s' _ _ hcontent hcontent' hscript hsetup
  cases hu
  cases hu'
  refine ⟨hscript, hsetup, fun heq => ?_⟩
  exact hiff.mp heq (.sign .not, .and) (by decide) (by decide)

end Grammar

end BlockScript
