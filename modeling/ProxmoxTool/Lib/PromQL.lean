import Mathlib
import ProxmoxTool.Lib.Text

/-!
# Tokens of PromQL

The tokens of a PromQL query: names, numbers and durations, operators and brackets of one character, and strings between double quotes with
the escapes of Go.  A text with anything else (comments, strings between other quotes, numeric escapes) has no tokens.

A string literal is one token whatever it holds (`run_literal`).  Two texts of the same pieces, literals apart, have tokens that differ in
their strings only (`lex_pieces_alike`), and the strings hold what the literals were made of (`lex_pieces_values`).
-/

namespace ProxmoxTool.PromQL

inductive Token
  | name (t : Text)
  | number (t : Text)
  | sign (c : Char)
  | string (t : Text)
  deriving DecidableEq

inductive Mode
  | plain
  | name (t : Text)
  | number (t : Text)
  | string (t : Text)
  | escape (t : Text)
  deriving DecidableEq

/-- The tokens, the last one first. -/
structure Lexer where
  mode : Mode := .plain
  tokens : List Token := []
  deriving DecidableEq

def isNameStart (c : Char) : Bool := c.isAlpha || c = '_' || c = ':'

def isNameChar (c : Char) : Bool := c.isAlphanum || c = '_' || c = ':'

def isNumberChar (c : Char) : Bool := c.isAlphanum || c = '.'

def isSign (c : Char) : Bool := c ∈ "\x7b\x7d()[],=!~+-*/%^<>@ ".toList

/-- The character that an escape of Go stands for. -/
def escaped (c : Char) : Option Char :=
  match c with
  | 'a' => some '\x07'
  | 'b' => some '\x08'
  | 'f' => some '\x0c'
  | 'n' => some '\n'
  | 'r' => some '\r'
  | 't' => some '\t'
  | 'v' => some '\x0b'
  | '\\' => some '\\'
  | '"' => some '"'
  | _ => none

def Lexer.push (t : Token) (s : Lexer) : Lexer := ⟨.plain, t :: s.tokens⟩

def plainStep (s : Lexer) (c : Char) : Option Lexer :=
  if isNameStart c then some ⟨.name [c], s.tokens⟩
  else if c.isDigit || c = '.' then some ⟨.number [c], s.tokens⟩
  else if c = '"' then some ⟨.string [], s.tokens⟩
  else if isSign c then some (s.push (.sign c))
  else none

def step (s : Lexer) (c : Char) : Option Lexer :=
  match s.mode with
  | .plain => plainStep s c
  | .name t => if isNameChar c then some ⟨.name (t ++ [c]), s.tokens⟩ else plainStep (s.push (.name t)) c
  | .number t =>
    if isNumberChar c then some ⟨.number (t ++ [c]), s.tokens⟩
    else if isNameChar c then none
    else plainStep (s.push (.number t)) c
  | .string t =>
    if c = '"' then some (s.push (.string t))
    else if c = '\\' then some ⟨.escape t, s.tokens⟩
    else if c = '\n' then none
    else some ⟨.string (t ++ [c]), s.tokens⟩
  | .escape t => (escaped c).map fun d => ⟨.string (t ++ [d]), s.tokens⟩

def run (s : Lexer) (t : Text) : Option Lexer := t.foldlM step s

/-- The tokens, if no string is left open. -/
def finish (s : Lexer) : Option (List Token) :=
  match s.mode with
  | .plain => some s.tokens.reverse
  | .name t => some (s.push (.name t)).tokens.reverse
  | .number t => some (s.push (.number t)).tokens.reverse
  | _ => none

def lex (t : Text) : Option (List Token) := (run {} t).bind finish

/-! ### What a literal adds -/

theorem run_append (s : Lexer) (t u : Text) : run s (t ++ u) = (run s t).bind fun s' => run s' u := List.foldlM_append

theorem run_cons_of {s s' : Lexer} {c : Char} (h : step s c = some s') (t : Text) : run s (c :: t) = run s' t := by
  rw [run, List.foldlM_cons, h]
  rfl

/-- A character in a literal. -/
def escapeChar (c : Char) : Text :=
  if c = '\\' then ['\\', '\\'] else if c = '"' then ['\\', '"'] else if c = '\n' then ['\\', 'n'] else [c]

theorem run_escapeChar (c : Char) (t : Text) (ts : List Token) :
    run ⟨.string t, ts⟩ (escapeChar c) = some ⟨.string (t ++ [c]), ts⟩ := by
  unfold escapeChar
  split_ifs with hbackslash hquote hline
  · subst hbackslash
    rfl
  · subst hquote
    rfl
  · subst hline
    rfl
  · have hstep : step ⟨.string t, ts⟩ c = some ⟨.string (t ++ [c]), ts⟩ :=
      (if_neg hquote).trans ((if_neg hbackslash).trans (if_neg hline))
    rw [run_cons_of hstep]
    rfl

/-- Inside of a literal the escaped text stands for the text. -/
theorem run_escaped (v t : Text) (ts : List Token) : run ⟨.string t, ts⟩ (v.flatMap escapeChar) = some ⟨.string (t ++ v), ts⟩ := by
  induction v generalizing t with
  | nil => simp [run]
  | cons c v ih =>
    rw [List.flatMap_cons, run_append, run_escapeChar, Option.bind_some, ih, List.append_assoc]
    rfl

/-- No string is open. -/
def Lexer.Outside (s : Lexer) : Prop :=
  match s.mode with
  | .string _ | .escape _ => False
  | _ => True

/-- The tokens when the next character begins another one. -/
def Lexer.done (s : Lexer) : List Token :=
  match s.mode with
  | .name t => .name t :: s.tokens
  | .number t => .number t :: s.tokens
  | _ => s.tokens

theorem step_quote {s : Lexer} (h : s.Outside) : step s '"' = some ⟨.string [], s.done⟩ := by
  obtain ⟨mode, tokens⟩ := s
  cases mode with
  | plain => rfl
  | name t => rfl
  | number t => rfl
  | string t => exact h.elim
  | escape t => exact h.elim

/-- A literal is one token, with the text that was escaped. -/
theorem run_literal {s : Lexer} (h : s.Outside) (v : Text) :
    run s ('"' :: (v.flatMap escapeChar ++ ['"'])) = some ⟨.plain, .string v :: s.done⟩ := by
  rw [run_cons_of (step_quote h), run_append, run_escaped, Option.bind_some]
  rfl

/-! ### Two runs -/

/-- Tokens that are the same but for what a string holds. -/
def Token.Alike : Token → Token → Prop
  | .string _, .string _ => True
  | a, b => a = b

theorem Token.alike_refl (a : Token) : a.Alike a := by
  cases a <;> simp [Token.Alike]

/-- Two lexers between the same tokens, that have read tokens that differ in strings only. -/
def Alike (s s' : Lexer) : Prop := s.Outside ∧ s.mode = s'.mode ∧ List.Forall₂ Token.Alike s.tokens s'.tokens

/-- Both fail, or both have come to lexers that are alike. -/
def BothAlike : Option Lexer → Option Lexer → Prop
  | none, none => True
  | some s, some s' => Alike s s'
  | _, _ => False

theorem plainStep_alike {m m' : Mode} {ts ts' : List Token} (h : List.Forall₂ Token.Alike ts ts') {c : Char} (hc : c ≠ '"') :
    BothAlike (plainStep ⟨m, ts⟩ c) (plainStep ⟨m', ts'⟩ c) := by
  unfold plainStep
  split_ifs
  · exact ⟨trivial, rfl, h⟩
  · exact ⟨trivial, rfl, h⟩
  · exact ⟨trivial, rfl, .cons (Token.alike_refl _) h⟩
  · trivial

theorem step_alike {s s' : Lexer} (h : Alike s s') {c : Char} (hc : c ≠ '"') : BothAlike (step s c) (step s' c) := by
  obtain ⟨mode, tokens⟩ := s
  obtain ⟨mode', tokens'⟩ := s'
  obtain ⟨houtside, rfl, htokens⟩ := h
  cases mode with
  | plain => exact plainStep_alike htokens hc
  | name t =>
    change BothAlike (if _ then _ else plainStep _ c) (if _ then _ else plainStep _ c)
    split_ifs
    · exact ⟨trivial, rfl, htokens⟩
    · exact plainStep_alike (.cons (Token.alike_refl _) htokens) hc
  | number t =>
    change BothAlike (if _ then _ else if _ then _ else plainStep _ c) (if _ then _ else if _ then _ else plainStep _ c)
    split_ifs
    · exact ⟨trivial, rfl, htokens⟩
    · trivial
    · exact plainStep_alike (.cons (Token.alike_refl _) htokens) hc
  | string t => exact houtside.elim
  | escape t => exact houtside.elim

/-- A text without quotes keeps two lexers alike. -/
theorem run_alike {t : Text} (ht : '"' ∉ t) {s s' : Lexer} (h : Alike s s') : BothAlike (run s t) (run s' t) := by
  induction t generalizing s s' with
  | nil => exact h
  | cons c t ih =>
    rw [List.mem_cons, not_or] at ht
    have hstep := step_alike h (Ne.symm ht.1)
    rw [run, run, List.foldlM_cons, List.foldlM_cons]
    cases hs : step s c with
    | none =>
      cases hs' : step s' c with
      | none => trivial
      | some r' =>
        rw [hs, hs'] at hstep
        exact hstep.elim
    | some r =>
      cases hs' : step s' c with
      | none =>
        rw [hs, hs'] at hstep
        exact hstep.elim
      | some r' =>
        rw [hs, hs'] at hstep
        exact ih ht.2 hstep

theorem Alike.done {s s' : Lexer} (h : Alike s s') : List.Forall₂ Token.Alike s.done s'.done := by
  obtain ⟨mode, tokens⟩ := s
  obtain ⟨mode', tokens'⟩ := s'
  obtain ⟨-, rfl, htokens⟩ := h
  cases mode with
  | plain => exact htokens
  | name t => exact .cons (Token.alike_refl _) htokens
  | number t => exact .cons (Token.alike_refl _) htokens
  | string t => exact htokens
  | escape t => exact htokens

theorem Alike.outside_right {s s' : Lexer} (h : Alike s s') : s'.Outside := by
  obtain ⟨houtside, hmode, -⟩ := h
  unfold Lexer.Outside at houtside ⊢
  rwa [← hmode]

/-- Two literals keep two lexers alike, whatever they hold. -/
theorem literal_alike {s s' : Lexer} (h : Alike s s') (v v' : Text) :
    BothAlike (run s ('"' :: (v.flatMap escapeChar ++ ['"']))) (run s' ('"' :: (v'.flatMap escapeChar ++ ['"']))) := by
  rw [run_literal h.1, run_literal h.outside_right]
  exact ⟨trivial, rfl, .cons trivial h.done⟩

theorem BothAlike.bind {r r' : Option Lexer} (h : BothAlike r r') {f f' : Lexer → Option Lexer}
    (hf : ∀ s s', Alike s s' → BothAlike (f s) (f' s')) : BothAlike (r.bind f) (r'.bind f') := by
  cases r with
  | none =>
    cases r' with
    | none => trivial
    | some s' => exact h.elim
  | some s =>
    cases r' with
    | none => exact h.elim
    | some s' => exact hf s s' h

/-! ### Texts with literals in them -/

/-- A piece of a query: text without quotes, or a literal. -/
inductive Piece
  | fixed (t : Text)
  | literal (v : Text)

def Piece.text : Piece → Text
  | .fixed t => t
  | .literal v => '"' :: (v.flatMap escapeChar ++ ['"'])

def Piece.value? : Piece → Option Text
  | .fixed _ => none
  | .literal v => some v

/-- The same piece but for what a literal holds. -/
def Piece.Alike : Piece → Piece → Prop
  | .fixed t, .fixed t' => t = t' ∧ '"' ∉ t
  | .literal _, .literal _ => True
  | _, _ => False

def Token.value? : Token → Option Text
  | .string v => some v
  | _ => none

/-- Texts of the same pieces keep two lexers alike. -/
theorem run_pieces_alike {ps ps' : List Piece} (hps : List.Forall₂ Piece.Alike ps ps') :
    ∀ {s s' : Lexer}, Alike s s' → BothAlike (run s (ps.flatMap Piece.text)) (run s' (ps'.flatMap Piece.text)) := by
  induction hps with
  | nil => exact fun h => h
  | @cons p p' ps ps' hp _ ih =>
    intro s s' h
    rw [List.flatMap_cons, List.flatMap_cons, run_append, run_append]
    refine BothAlike.bind ?_ fun _ _ => ih
    cases p with
    | fixed t =>
      cases p' with
      | fixed t' =>
        obtain ⟨rfl, ht⟩ := hp
        exact run_alike ht h
      | literal v' => exact hp.elim
    | literal v =>
      cases p' with
      | fixed t' => exact hp.elim
      | literal v' => exact literal_alike h v v'

theorem finish_outside {s : Lexer} (h : s.Outside) : finish s = some s.done.reverse := by
  obtain ⟨mode, tokens⟩ := s
  cases mode with
  | plain => rfl
  | name t => rfl
  | number t => rfl
  | string t => exact h.elim
  | escape t => exact h.elim

/-- Texts of the same pieces have no tokens, both of them, or tokens that differ in strings only. -/
theorem lex_pieces_alike {ps ps' : List Piece} (hps : List.Forall₂ Piece.Alike ps ps') :
    (lex (ps.flatMap Piece.text) = none ∧ lex (ps'.flatMap Piece.text) = none) ∨
      ∃ ts ts', lex (ps.flatMap Piece.text) = some ts ∧ lex (ps'.flatMap Piece.text) = some ts' ∧
        List.Forall₂ Token.Alike ts ts' := by
  have hstart : PromQL.Alike {} {} := ⟨trivial, rfl, .nil⟩
  have hrun := run_pieces_alike hps hstart
  unfold lex
  cases hs : run {} (ps.flatMap Piece.text) with
  | none =>
    cases hs' : run {} (ps'.flatMap Piece.text) with
    | none => exact .inl ⟨rfl, rfl⟩
    | some r' =>
      rw [hs, hs'] at hrun
      exact hrun.elim
  | some r =>
    cases hs' : run {} (ps'.flatMap Piece.text) with
    | none =>
      rw [hs, hs'] at hrun
      exact hrun.elim
    | some r' =>
      rw [hs, hs'] at hrun
      have halike : Alike r r' := hrun
      exact .inr ⟨_, _, finish_outside halike.1, finish_outside halike.outside_right, List.rel_reverse halike.done⟩

/-! ### What the strings hold -/

/-- What the strings of a lexer's tokens hold, the last one first. -/
def Lexer.values (s : Lexer) : List Text := s.tokens.filterMap Token.value?

theorem Lexer.values_done (s : Lexer) : s.done.filterMap Token.value? = s.values := by
  obtain ⟨mode, tokens⟩ := s
  cases mode <;> rfl

theorem plainStep_values {s s' : Lexer} {c : Char} (hc : c ≠ '"') (h : plainStep s c = some s') :
    s'.Outside ∧ s'.values = s.values := by
  unfold plainStep at h
  split_ifs at h
  · cases h
    exact ⟨trivial, rfl⟩
  · cases h
    exact ⟨trivial, rfl⟩
  · cases h
    exact ⟨trivial, rfl⟩

theorem step_values {s s' : Lexer} {c : Char} (houtside : s.Outside) (hc : c ≠ '"') (h : step s c = some s') :
    s'.Outside ∧ s'.values = s.values := by
  obtain ⟨mode, tokens⟩ := s
  cases mode with
  | plain => exact plainStep_values hc h
  | name t =>
    change (if _ then _ else plainStep _ c) = _ at h
    split_ifs at h
    · cases h
      exact ⟨trivial, rfl⟩
    · obtain ⟨hout, hvalues⟩ := plainStep_values hc h
      exact ⟨hout, hvalues⟩
  | number t =>
    change (if _ then _ else if _ then _ else plainStep _ c) = _ at h
    split_ifs at h
    · cases h
      exact ⟨trivial, rfl⟩
    · obtain ⟨hout, hvalues⟩ := plainStep_values hc h
      exact ⟨hout, hvalues⟩
  | string t => exact houtside.elim
  | escape t => exact houtside.elim

theorem run_values {t : Text} (ht : '"' ∉ t) {s s' : Lexer} (houtside : s.Outside) (h : run s t = some s') :
    s'.Outside ∧ s'.values = s.values := by
  induction t generalizing s with
  | nil =>
    cases h
    exact ⟨houtside, rfl⟩
  | cons c t ih =>
    rw [List.mem_cons, not_or] at ht
    rw [run, List.foldlM_cons] at h
    obtain ⟨r, hr, hrun⟩ := Option.bind_eq_some_iff.1 h
    obtain ⟨hout, hvalues⟩ := step_values houtside (Ne.symm ht.1) hr
    obtain ⟨hout', hvalues'⟩ := ih ht.2 hout hrun
    exact ⟨hout', hvalues'.trans hvalues⟩

/-- The strings of a text of pieces are its literals. -/
theorem run_pieces_values {ps : List Piece} (hps : ∀ t, Piece.fixed t ∈ ps → '"' ∉ t) :
    ∀ {s s' : Lexer}, s.Outside → run s (ps.flatMap Piece.text) = some s' →
      s'.Outside ∧ s'.values = (ps.filterMap Piece.value?).reverse ++ s.values := by
  induction ps with
  | nil =>
    intro s s' houtside h
    cases h
    exact ⟨houtside, rfl⟩
  | cons p ps ih =>
    intro s s' houtside h
    rw [List.flatMap_cons, run_append] at h
    obtain ⟨r, hr, hrun⟩ := Option.bind_eq_some_iff.1 h
    have hrest : ∀ t, Piece.fixed t ∈ ps → '"' ∉ t := fun t ht => hps t (List.mem_cons_of_mem _ ht)
    cases p with
    | fixed t =>
      obtain ⟨hout, hvalues⟩ := run_values (hps t List.mem_cons_self) houtside hr
      obtain ⟨hout', hvalues'⟩ := ih hrest hout hrun
      exact ⟨hout', by rw [hvalues', hvalues]; rfl⟩
    | literal v =>
      have hr' : r = ⟨.plain, .string v :: s.done⟩ := Option.some.inj (hr.symm.trans (run_literal houtside v))
      have hvalues : r.values = v :: s.values := by
        rw [hr', ← s.values_done]
        rfl
      obtain ⟨hout', hvalues'⟩ := ih hrest (by rw [hr']; trivial) hrun
      have hfilter : (Piece.literal v :: ps).filterMap Piece.value? = v :: ps.filterMap Piece.value? := rfl
      refine ⟨hout', ?_⟩
      rw [hvalues', hvalues, hfilter, List.reverse_cons, List.append_assoc]
      rfl

theorem lex_pieces_values {ps : List Piece} (hps : ∀ t, Piece.fixed t ∈ ps → '"' ∉ t) {ts : List Token}
    (h : lex (ps.flatMap Piece.text) = some ts) : ts.filterMap Token.value? = ps.filterMap Piece.value? := by
  obtain ⟨s, hs, hfinish⟩ := Option.bind_eq_some_iff.1 h
  obtain ⟨houtside, hvalues⟩ := run_pieces_values hps (s := {}) trivial hs
  rw [finish_outside houtside] at hfinish
  cases hfinish
  rw [List.filterMap_reverse, s.values_done, hvalues, List.reverse_append, List.reverse_reverse]
  rfl

/-! ### The tokens of a selector -/

def isName : Text → Bool
  | [] => false
  | c :: t => isNameStart c && t.all isNameChar

theorem isName_append {t u : Text} (ht : isName t = true) (hu : u.all isNameChar = true) : isName (t ++ u) = true := by
  cases t with
  | nil => cases ht
  | cons c t =>
    have hname := Bool.and_eq_true_iff.1 ht
    have hall : (t ++ u).all isNameChar = true := by
      rw [List.all_append, hname.2, hu]
      rfl
    exact Bool.and_eq_true_iff.2 ⟨hname.1, hall⟩

theorem quote_not_mem_of_nameChars {t : Text} (h : t.all isNameChar = true) : '"' ∉ t := by
  intro hquote
  have hname := List.all_eq_true.1 h _ hquote
  cases hname

theorem quote_not_mem_of_isName {t : Text} (h : isName t = true) : '"' ∉ t := by
  cases t with
  | nil => cases h
  | cons c t =>
    have hname := Bool.and_eq_true_iff.1 h
    rw [List.mem_cons, not_or]
    refine ⟨?_, quote_not_mem_of_nameChars hname.2⟩
    rintro rfl
    cases hname.1

theorem run_nameChars {u : Text} (hu : u.all isNameChar = true) (t : Text) (ts : List Token) :
    run ⟨.name t, ts⟩ u = some ⟨.name (t ++ u), ts⟩ := by
  induction u generalizing t with
  | nil => simp [run]
  | cons c u ih =>
    have hall := Bool.and_eq_true_iff.1 hu
    have hstep : step ⟨.name t, ts⟩ c = some ⟨.name (t ++ [c]), ts⟩ := if_pos hall.1
    rw [run_cons_of hstep, ih hall.2, List.append_assoc]
    rfl

theorem run_name {t : Text} (ht : isName t = true) (ts : List Token) : run ⟨.plain, ts⟩ t = some ⟨.name t, ts⟩ := by
  cases t with
  | nil => cases ht
  | cons c t =>
    have hname := Bool.and_eq_true_iff.1 ht
    have hstep : step ⟨.plain, ts⟩ c = some ⟨.name [c], ts⟩ := if_pos hname.1
    rw [run_cons_of hstep, run_nameChars hname.2]
    rfl

theorem run_numberChars {u : Text} (hu : u.all isNumberChar = true) (t : Text) (ts : List Token) :
    run ⟨.number t, ts⟩ u = some ⟨.number (t ++ u), ts⟩ := by
  induction u generalizing t with
  | nil => simp [run]
  | cons c u ih =>
    have hall := Bool.and_eq_true_iff.1 hu
    have hstep : step ⟨.number t, ts⟩ c = some ⟨.number (t ++ [c]), ts⟩ := if_pos hall.1
    rw [run_cons_of hstep, ih hall.2, List.append_assoc]
    rfl

theorem run_number {c : Char} (hc : c.isDigit = true) {t : Text} (ht : t.all isNumberChar = true) (ts : List Token) :
    run ⟨.plain, ts⟩ (c :: t) = some ⟨.number (c :: t), ts⟩ := by
  have hstart : isNameStart c = false := by
    have halpha : c.isAlpha = false := by
      simp only [Char.isDigit, Bool.and_eq_true, decide_eq_true_eq, UInt32.le_iff_toNat_le] at hc
      simp only [Char.isAlpha, Char.isUpper, Char.isLower, Bool.or_eq_false_iff, Bool.and_eq_false_iff, decide_eq_false_iff_not,
        UInt32.le_iff_toNat_le]
      have h57 : c.val.toNat ≤ 57 := hc.2
      have h65 : 'A'.val.toNat = 65 := rfl
      have h97 : 'a'.val.toNat = 97 := rfl
      omega
    have hunderscore : c ≠ '_' := by
      rintro rfl
      cases hc
    have hcolon : c ≠ ':' := by
      rintro rfl
      cases hc
    unfold isNameStart
    rw [halpha, decide_eq_false hunderscore, decide_eq_false hcolon]
    rfl
  have hstep : step ⟨.plain, ts⟩ c = some ⟨.number [c], ts⟩ := by
    change (if _ then _ else if _ then _ else _) = _
    rw [hstart, if_neg Bool.false_ne_true, hc, Bool.true_or, if_pos rfl]
  rw [run_cons_of hstep, run_numberChars ht]
  rfl

/-- A sign ends what is before it. -/
theorem step_sign {s : Lexer} (h : s.Outside) {c : Char} (hc : isSign c = true) : step s c = some ⟨.plain, .sign c :: s.done⟩ := by
  have hsigns : ∀ c ∈ "\x7b\x7d()[],=!~+-*/%^<>@ ".toList,
      (!isNameChar c && !isNumberChar c && !isNameStart c && !(c.isDigit || c = '.') && !decide (c = '"')) = true :=
    List.all_eq_true.1 rfl
  have hsign := hsigns c (of_decide_eq_true hc)
  simp only [Bool.and_eq_true, Bool.not_eq_true', decide_eq_false_iff_not] at hsign
  obtain ⟨⟨⟨⟨hname, hnumber⟩, hstart⟩, hdigit⟩, hquote⟩ := hsign
  have hplain : ∀ s' : Lexer, plainStep s' c = some (s'.push (.sign c)) := by
    intro s'
    unfold plainStep
    rw [hstart, if_neg Bool.false_ne_true, hdigit, if_neg Bool.false_ne_true, if_neg hquote, hc, if_pos rfl]
  obtain ⟨mode, tokens⟩ := s
  cases mode with
  | plain => exact hplain _
  | name t =>
    change (if isNameChar c then _ else plainStep _ c) = _
    rw [hname, if_neg Bool.false_ne_true]
    exact hplain _
  | number t =>
    change (if isNumberChar c then _ else if isNameChar c then _ else plainStep _ c) = _
    rw [hnumber, if_neg Bool.false_ne_true, hname, if_neg Bool.false_ne_true]
    exact hplain _
  | string t => exact h.elim
  | escape t => exact h.elim

theorem step_sign_plain {c : Char} (hc : isSign c = true) (ts : List Token) : step ⟨.plain, ts⟩ c = some ⟨.plain, .sign c :: ts⟩ :=
  step_sign (s := ⟨.plain, ts⟩) trivial hc

theorem step_sign_name {c : Char} (hc : isSign c = true) (t : Text) (ts : List Token) :
    step ⟨.name t, ts⟩ c = some ⟨.plain, .sign c :: .name t :: ts⟩ :=
  step_sign (s := ⟨.name t, ts⟩) trivial hc

theorem step_sign_number {c : Char} (hc : isSign c = true) (t : Text) (ts : List Token) :
    step ⟨.number t, ts⟩ c = some ⟨.plain, .sign c :: .number t :: ts⟩ :=
  step_sign (s := ⟨.number t, ts⟩) trivial hc

end ProxmoxTool.PromQL
