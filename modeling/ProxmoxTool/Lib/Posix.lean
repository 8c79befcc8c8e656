import Mathlib.Tactic.Common
import ProxmoxTool.Lib.Text

/-!
# Commands of the POSIX shell

How a shell reads a command line: the tokens, with what is quoted in a word, and the simple commands between the operators, with their
redirections.  The lexer takes one character at a time, so that what it makes of a text is what it makes of the parts, one after the other
(`run_append`).  Subshells, here-documents, other compound commands and every expansion but `$NAME` are not read: a text with one of them
has no tokens.  A word between quotes, as `quote` and `nest` write it, is read as its text (`run_nest`, `run_quote`).
-/

namespace ProxmoxTool.Posix

/-- A part of a word. -/
inductive Piece
  | char (quoted : Bool) (c : Char)
  | param (quoted : Bool) (name : Text)
  deriving DecidableEq

abbrev Word := List Piece

inductive Op
  | pipe | orIf | andIf | amp | semi | newline | less | great | dgreat
  deriving DecidableEq

inductive Token
  | word (w : Word)
  | op (o : Op)
  deriving DecidableEq

/-! ### Tokens -/

/-- What the last characters have begun. -/
inductive Mode
  | plain
  | single
  | double
  | escape
  | doubleEscape
  | dollar (quoted : Bool)
  | name (quoted : Bool) (n : Text)
  | operator (c : Char)
  | comment
  deriving DecidableEq

structure Lexer where
  mode : Mode := .plain
  word : Option Word := none
  tokens : List Token := []
  deriving DecidableEq

def isNameStart (c : Char) : Bool := c.isAlpha || c = '_'

def isNameChar (c : Char) : Bool := c.isAlphanum || c = '_'

namespace Lexer

def goto (m : Mode) (s : Lexer) : Lexer := { s with mode := m }

/-- A word begins here, if none has. -/
def start (s : Lexer) : Lexer := { s with word := some (s.word.getD []) }

def add (p : Piece) (s : Lexer) : Lexer := { s with word := some (s.word.getD [] ++ [p]) }

/-- The word ends here. -/
def flush (s : Lexer) : Lexer :=
  match s.word with
  | none => s
  | some w => { s with word := none, tokens := s.tokens ++ [.word w] }

def push (o : Op) (s : Lexer) : Lexer := { s with tokens := s.tokens ++ [.op o] }

/-- The word is a number so far, which in front of `<` and `>` names a file descriptor. -/
def isNumber (s : Lexer) : Bool :=
  match s.word with
  | none => false
  | some w => w.all fun p => match p with
    | .char false c => c.isDigit
    | _ => false

end Lexer

open Lexer

def plainStep (s : Lexer) (c : Char) : Option Lexer :=
  if c = ' ' ∨ c = '\t' then some (s.flush.goto .plain)
  else if c = '\n' then some ((s.flush.push .newline).goto .plain)
  else if c = '|' ∨ c = '&' ∨ c = ';' then some (s.flush.goto (.operator c))
  else if c = '<' ∨ c = '>' then if s.isNumber then none else some (s.flush.goto (.operator c))
  else if c = '(' ∨ c = ')' ∨ c = '`' then none
  else if c = '\'' then some (s.start.goto .single)
  else if c = '"' then some (s.start.goto .double)
  else if c = '\\' then some (s.goto .escape)
  else if c = '$' then some (s.goto (.dollar false))
  else if c = '#' ∧ s.word = none then some (s.goto .comment)
  else some ((s.add (.char false c)).goto .plain)

def doubleStep (s : Lexer) (c : Char) : Option Lexer :=
  if c = '"' then some (s.goto .plain)
  else if c = '\\' then some (s.goto .doubleEscape)
  else if c = '$' then some (s.goto (.dollar true))
  else if c = '`' then none
  else some ((s.add (.char true c)).goto .double)

/-- An operator of one character. -/
def single (c : Char) : Op :=
  if c = '|' then .pipe else if c = '&' then .amp else if c = ';' then .semi else if c = '<' then .less else .great

/-- The character behind one that begins an operator. -/
def operatorStep (s : Lexer) (o c : Char) : Option Lexer :=
  if o = '|' ∧ c = '|' then some ((s.push .orIf).goto .plain)
  else if o = '&' ∧ c = '&' then some ((s.push .andIf).goto .plain)
  else if o = '>' ∧ c = '>' then some ((s.push .dgreat).goto .plain)
  else if (o = ';' ∧ c = ';') ∨ (o = '>' ∧ (c = '&' ∨ c = '|')) ∨ (o = '<' ∧ (c = '<' ∨ c = '&' ∨ c = '>')) then none
  else plainStep ((s.push (single o)).goto .plain) c

def step (s : Lexer) (c : Char) : Option Lexer :=
  match s.mode with
  | .plain => plainStep s c
  | .single => if c = '\'' then some (s.goto .plain) else some (s.add (.char true c))
  | .double => doubleStep s c
  | .escape => if c = '\n' then some (s.goto .plain) else some ((s.add (.char true c)).goto .plain)
  | .doubleEscape =>
    if c = '\n' then some (s.goto .double)
    else if c = '$' ∨ c = '`' ∨ c = '"' ∨ c = '\\' then some ((s.add (.char true c)).goto .double)
    else some (((s.add (.char true '\\')).add (.char true c)).goto .double)
  | .dollar quoted => if isNameStart c then some (s.goto (.name quoted [c])) else none
  | .name quoted n =>
    if isNameChar c then some (s.goto (.name quoted (n ++ [c])))
    else (if quoted then doubleStep else plainStep) (s.add (.param quoted n)) c
  | .operator o => operatorStep s o c
  | .comment => if c = '\n' then plainStep (s.goto .plain) c else some s

def run (s : Lexer) (t : Text) : Option Lexer := t.foldlM step s

/-- The tokens, if nothing is left open. -/
def finish (s : Lexer) : Option (List Token) :=
  match s.mode with
  | .plain | .comment => some s.flush.tokens
  | .name false n => some (s.add (.param false n)).flush.tokens
  | .operator o => some (s.push (single o)).tokens
  | _ => none

/-- The tokens of a text; no command line holds a NUL. -/
def lex (t : Text) : Option (List Token) := if '\x00' ∈ t then none else (run {} t).bind finish

/-! ### Commands -/

/-- The text of a piece that no expansion changes. -/
def Piece.literal : Piece → Option Char
  | .char true c => some c
  | .char false c => if c = '*' ∨ c = '?' ∨ c = '[' ∨ c = '{' then none else some c
  | .param _ _ => none

/-- The text of a word that no expansion changes. -/
def Word.literal (w : Word) : Option Text := if w.head? = some (.char false '~') then none else w.mapM Piece.literal

def unquoted (t : Text) : Word := t.map (.char false)

def quoted (t : Text) : Word := t.map (.char true)

theorem unquoted_injective : Function.Injective unquoted :=
  List.map_injective_iff.2 fun _ _ h => (Piece.char.inj h).2

def reserved : List Text :=
  ["!", "\x7b", "\x7d", "case", "do", "done", "elif", "else", "esac", "fi", "for", "if", "in", "then", "until", "while"].map String.toList

/-- The name in front of `=`, if the word can be an assignment. -/
def Word.assignedName : Word → Option Text
  | .char false c :: w =>
    if c = '=' then some [] else if isNameChar c then (Word.assignedName w).map (c :: ·) else none
  | _ => none

def Word.isAssignment (w : Word) : Bool := (Word.assignedName w).any fun n => n.head?.any isNameStart

structure Simple where
  assignments : List Word := []
  words : List Word := []
  redirects : List (Op × Word) := []
  deriving DecidableEq

def Simple.isEmpty (s : Simple) : Bool := s.assignments.isEmpty && s.words.isEmpty && s.redirects.isEmpty

/-- Assignments stand in front of the words; a reserved word begins a command that is not simple. -/
def Simple.addWord (s : Simple) (w : Word) : Option Simple :=
  if s.words = [] then
    if w.isAssignment then some { s with assignments := s.assignments ++ [w] }
    else if w ∈ reserved.map unquoted then none
    else some { s with words := [w] }
  else some { s with words := s.words ++ [w] }

structure Parser where
  done : List (Simple × Op) := []
  cur : Simple := {}
  redirect : Option Op := none
  deriving DecidableEq

def parseStep (p : Parser) : Token → Option Parser
  | .word w => match p.redirect with
    | some o => some { p with cur := { p.cur with redirects := p.cur.redirects ++ [(o, w)] }, redirect := none }
    | none => (p.cur.addWord w).map fun cur => { p with cur := cur }
  | .op o =>
    if p.redirect.isSome then none
    else if o = .less ∨ o = .great ∨ o = .dgreat then some { p with redirect := some o }
    else if p.cur.isEmpty then if o = .newline then some p else none
    else some { p with done := p.done ++ [(p.cur, o)], cur := {} }

/-- The simple commands, each with the operator behind it; `;` stands behind the last one. -/
def Parser.finish (p : Parser) : Option (List (Simple × Op)) :=
  if p.redirect.isSome then none
  else if p.cur.isEmpty then
    if (p.done.getLast?.any fun last => last.2 = .pipe || last.2 = .andIf || last.2 = .orIf) then none else some p.done
  else some (p.done ++ [(p.cur, .semi)])

def parse (t : Text) : Option (List (Simple × Op)) := (lex t).bind fun ts => (ts.foldlM parseStep {}).bind Parser.finish

/-! ### Quoting -/

/-- `t.replace("'", e)`. -/
def replaceQuote (e t : Text) : Text := t.flatMap fun c => if c = '\'' then e else [c]

/-- A text between quotes, where `'\''` stands for a quote. -/
def nest (t : Text) : Text := '\'' :: (replaceQuote "'\\''".toList t ++ ['\''])

/-- The characters that `shlex.quote` leaves bare. -/
def isSafe (c : Char) : Bool := c.isAlphanum || c ∈ ['_', '@', '%', '+', '=', ':', ',', '.', '/', '-']

/-- `shlex.quote`. -/
def quote (t : Text) : Text :=
  if t = [] then "''".toList
  else if t.all isSafe then t
  else '\'' :: (replaceQuote "'\"'\"'".toList t ++ ['\''])

/-- The word that a shell reads of `quote t`. -/
def quotedWord (t : Text) : Word := if t ≠ [] ∧ t.all isSafe then unquoted t else quoted t

/-! ### What the lexer makes of a text -/

theorem run_append (s : Lexer) (t u : Text) : run s (t ++ u) = (run s t).bind fun s' => run s' u := List.foldlM_append

theorem run_append_of {s s' : Lexer} {t : Text} (h : run s t = some s') (u : Text) : run s (t ++ u) = run s' u := by
  rw [run_append, h, Option.bind_some]

theorem run_cons_of {s s' : Lexer} {c : Char} (h : step s c = some s') (t : Text) : run s (c :: t) = run s' t := by
  rw [run, List.foldlM_cons, h]
  rfl

/-- No character of the kind means anything but itself. -/
def isOrdinary (c : Char) : Bool :=
  !(c = ' ' || c = '\t' || c = '\n' || c = '|' || c = '&' || c = ';' || c = '<' || c = '>' || c = '(' || c = ')' || c = '`' ||
    c = '\'' || c = '"' || c = '\\' || c = '$' || c = '#')

theorem plainStep_of_isOrdinary {c : Char} (h : isOrdinary c = true) (s : Lexer) :
    plainStep s c = some ((s.add (.char false c)).goto .plain) := by
  simp only [isOrdinary, Bool.not_eq_true', Bool.or_eq_false_iff, decide_eq_false_iff_not] at h
  obtain ⟨⟨⟨⟨⟨⟨⟨⟨⟨⟨⟨⟨⟨⟨⟨h1, h2⟩, h3⟩, h4⟩, h5⟩, h6⟩, h7⟩, h8⟩, h9⟩, h10⟩, h11⟩, h12⟩, h13⟩, h14⟩, h15⟩, h16⟩ := h
  simp [plainStep, h1, h2, h3, h4, h5, h6, h7, h8, h9, h10, h11, h12, h13, h14, h15, h16]

/-- A word that begins with ordinary characters. -/
theorem run_ordinary {t : Text} (h : t.all isOrdinary = true) (w : Word) (ts : List Token) :
    run ⟨.plain, some w, ts⟩ t = some ⟨.plain, some (w ++ unquoted t), ts⟩ := by
  induction t generalizing w with
  | nil => simp [run, unquoted]
  | cons c t ih =>
    rw [List.all_cons, Bool.and_eq_true] at h
    have hstep : step ⟨.plain, some w, ts⟩ c = some ⟨.plain, some (w ++ [.char false c]), ts⟩ := plainStep_of_isOrdinary h.1 _
    rw [run_cons_of hstep, ih h.2, List.append_assoc]
    rfl

theorem run_ordinary_start {t : Text} (h : t.all isOrdinary = true) (hne : t ≠ []) (ts : List Token) :
    run ⟨.plain, none, ts⟩ t = some ⟨.plain, some (unquoted t), ts⟩ := by
  obtain ⟨c, t, rfl⟩ := List.exists_cons_of_ne_nil hne
  rw [List.all_cons, Bool.and_eq_true] at h
  have hstep : step ⟨.plain, none, ts⟩ c = some ⟨.plain, some [.char false c], ts⟩ := plainStep_of_isOrdinary h.1 _
  rw [run_cons_of hstep, run_ordinary h.2]
  rfl

/-- Between quotes every character stands for itself, and what stands for a quote gives a quote. -/
theorem run_replaceQuote {e : Text}
    (he : ∀ w ts, run ⟨.single, some w, ts⟩ e = some ⟨.single, some (w ++ [.char true '\'']), ts⟩) (t : Text) (w : Word) (ts : List Token) :
    run ⟨.single, some w, ts⟩ (replaceQuote e t) = some ⟨.single, some (w ++ quoted t), ts⟩ := by
  induction t generalizing w with
  | nil => simp [run, replaceQuote, quoted]
  | cons c t ih =>
    rw [replaceQuote, List.flatMap_cons]
    by_cases hc : c = '\''
    · rw [if_pos hc, run_append_of (he w ts)]
      refine (ih _).trans ?_
      rw [List.append_assoc, hc]
      rfl
    · have hstep : step ⟨.single, some w, ts⟩ c = some ⟨.single, some (w ++ [.char true c]), ts⟩ := if_neg hc
      rw [if_neg hc, List.singleton_append, run_cons_of hstep]
      refine (ih _).trans ?_
      rw [List.append_assoc]
      rfl

theorem run_quotes {e : Text}
    (he : ∀ w ts, run ⟨.single, some w, ts⟩ e = some ⟨.single, some (w ++ [.char true '\'']), ts⟩) (t : Text) (ts : List Token) :
    run ⟨.plain, none, ts⟩ ('\'' :: (replaceQuote e t ++ ['\''])) = some ⟨.plain, some (quoted t), ts⟩ := by
  have hopen : step ⟨.plain, none, ts⟩ '\'' = some ⟨.single, some [], ts⟩ := rfl
  rw [run_cons_of hopen, run_append_of (run_replaceQuote he t [] ts)]
  rfl

theorem run_nest (t : Text) (ts : List Token) : run ⟨.plain, none, ts⟩ (nest t) = some ⟨.plain, some (quoted t), ts⟩ := by
  refine run_quotes (fun w ts => ?_) t ts
  simp [run, step, plainStep, goto, add, start]

/-- The characters that mean nothing but themselves between double quotes. -/
def isDoubleOrdinary (c : Char) : Bool := !(c = '"' || c = '\\' || c = '$' || c = '`')

theorem run_double {t : Text} (h : t.all isDoubleOrdinary = true) (w : Word) (ts : List Token) :
    run ⟨.double, some w, ts⟩ t = some ⟨.double, some (w ++ quoted t), ts⟩ := by
  induction t generalizing w with
  | nil => simp [run, quoted]
  | cons c t ih =>
    rw [List.all_cons, Bool.and_eq_true] at h
    have hstep : step ⟨.double, some w, ts⟩ c = some ⟨.double, some (w ++ [.char true c]), ts⟩ := by
      have hc := h.1
      simp only [isDoubleOrdinary, Bool.not_eq_true', Bool.or_eq_false_iff, decide_eq_false_iff_not] at hc
      obtain ⟨⟨⟨hquote, hescape⟩, hdollar⟩, htick⟩ := hc
      simp [step, doubleStep, hquote, hescape, hdollar, htick, Lexer.add, Lexer.goto]
    rw [run_cons_of hstep, ih h.2, List.append_assoc]
    rfl

theorem isOrdinary_of_isSafe {c : Char} (h : isSafe c = true) : isOrdinary c = true := by
  by_contra hspecial
  simp only [isOrdinary, Bool.not_eq_true', Bool.not_eq_false, Bool.or_eq_true, decide_eq_true_eq] at hspecial
  rcases hspecial with
    ((((((((((((((rfl | rfl) | rfl) | rfl) | rfl) | rfl) | rfl) | rfl) | rfl) | rfl) | rfl) | rfl) | rfl) | rfl) | rfl) | rfl <;>
    exact absurd h (by decide)

theorem run_quote (t : Text) (ts : List Token) : run ⟨.plain, none, ts⟩ (quote t) = some ⟨.plain, some (quotedWord t), ts⟩ := by
  unfold quote quotedWord
  by_cases hnil : t = []
  · subst hnil
    rfl
  · by_cases hsafe : t.all isSafe = true
    · rw [if_neg hnil, if_pos hsafe, if_pos ⟨hnil, hsafe⟩]
      refine run_ordinary_start ?_ hnil ts
      exact List.all_eq_true.2 fun c hc => isOrdinary_of_isSafe (List.all_eq_true.1 hsafe c hc)
    · rw [if_neg hnil, if_neg hsafe, if_neg fun h => hsafe h.2]
      refine run_quotes (fun w ts => ?_) t ts
      simp [run, step, plainStep, doubleStep, goto, add, start]

theorem mapM_literal {w : Word} {t : Text} {q : Bool} (hw : w = t.map (.char q)) (h : ∀ c ∈ t, Piece.literal (.char q c) = some c) :
    w.mapM Piece.literal = some t := by
  subst hw
  induction t with
  | nil => rfl
  | cons c t ih =>
    rw [List.map_cons, List.mapM_cons, h c List.mem_cons_self, ih fun d hd => h d (List.mem_cons_of_mem _ hd)]
    rfl

theorem literal_quoted (t : Text) : Word.literal (quoted t) = some t := by
  have hhead : (quoted t).head? ≠ some (.char false '~') := by
    cases t <;> simp [quoted]
  rw [Word.literal, if_neg hhead]
  exact mapM_literal rfl fun c _ => rfl

/-- Characters of which no unquoted one is expanded. -/
def isInert (c : Char) : Bool := !(c = '*' || c = '?' || c = '[' || c = '{' || c = '~')

theorem literal_unquoted {t : Text} (h : t.all isInert = true) : Word.literal (unquoted t) = some t := by
  have hc : ∀ c ∈ t, c ≠ '~' ∧ Piece.literal (.char false c) = some c := by
    intro c hc
    have hinert := List.all_eq_true.1 h c hc
    simp only [isInert, Bool.not_eq_true', Bool.or_eq_false_iff, decide_eq_false_iff_not] at hinert
    exact ⟨hinert.2, if_neg (by tauto)⟩
  have hhead : (unquoted t).head? ≠ some (.char false '~') := by
    cases t with
    | nil => simp [unquoted]
    | cons c t => simpa [unquoted] using (hc c List.mem_cons_self).1
  rw [Word.literal, if_neg hhead]
  exact mapM_literal rfl fun c hmem => (hc c hmem).2

theorem isInert_of_isSafe {c : Char} (h : isSafe c = true) : isInert c = true := by
  by_contra hspecial
  simp only [isInert, Bool.not_eq_true', Bool.not_eq_false, Bool.or_eq_true, decide_eq_true_eq] at hspecial
  rcases hspecial with (((rfl | rfl) | rfl) | rfl) | rfl <;> exact absurd h (by decide)

theorem literal_quotedWord (t : Text) : Word.literal (quotedWord t) = some t := by
  unfold quotedWord
  split_ifs with h
  · exact literal_unquoted (List.all_eq_true.2 fun c hc => isInert_of_isSafe (List.all_eq_true.1 h.2 c hc))
  · exact literal_quoted t

/-! ### Simple commands -/

/-- The words of a simple command that no expansion changes. -/
def Simple.argv (s : Simple) : Option (List Text) := s.words.mapM Word.literal

theorem foldlM_words (ws vs : List Word) (p : Parser) (hp : p.redirect = none) (hvs : p.cur.words = vs) (hne : vs ≠ []) :
    (ws.map Token.word).foldlM parseStep p = some { p with cur := { p.cur with words := vs ++ ws } } := by
  induction ws generalizing vs p with
  | nil =>
    subst hvs
    simp
  | cons w ws ih =>
    have hstep : parseStep p (.word w) = some { p with cur := { p.cur with words := vs ++ [w] } } := by
      simp [parseStep, hp, Simple.addWord, hvs, hne]
    rw [List.map_cons, List.foldlM_cons, hstep]
    refine (ih (vs ++ [w]) { p with cur := { p.cur with words := vs ++ [w] } } hp rfl (by simp)).trans ?_
    simp

/-- Words alone are one simple command, if the first one is neither an assignment nor reserved. -/
theorem parse_words {w : Word} (hassign : w.isAssignment = false) (hreserved : w ∉ reserved.map unquoted) (ws : List Word) :
    (((w :: ws).map Token.word).foldlM parseStep {}).bind Parser.finish = some [({ words := w :: ws }, .semi)] := by
  have hstep : parseStep {} (.word w) = some { cur := { words := [w] } } := by
    simp [parseStep, Simple.addWord, hassign, hreserved]
  rw [List.map_cons, List.foldlM_cons, hstep]
  change ((ws.map Token.word).foldlM parseStep _).bind _ = _
  rw [foldlM_words ws [w] _ rfl rfl (by simp)]
  rfl

theorem parse_of_run {t : Text} (hnul : '\x00' ∉ t) {s : Lexer} (hrun : run {} t = some s) :
    parse t = (finish s).bind fun ts => (ts.foldlM parseStep {}).bind Parser.finish := by
  rw [parse, lex, if_neg hnul, hrun, Option.bind_some]

/-! ### No NUL -/

theorem not_mem_replaceQuote {c : Char} {e t : Text} (he : c ∉ e) (ht : c ∉ t) : c ∉ replaceQuote e t := by
  intro h
  obtain ⟨d, hd, hmem⟩ := List.mem_flatMap.1 h
  split_ifs at hmem
  · exact he hmem
  · exact ht (List.mem_singleton.1 hmem ▸ hd)

theorem not_mem_nest {c : Char} {t : Text} (hc : c ≠ '\'' ∧ c ≠ '\\') (ht : c ∉ t) : c ∉ nest t := by
  have he : c ∉ "'\\''".toList := by
    simp [hc]
  rw [nest, List.mem_cons, List.mem_append, List.mem_singleton]
  exact fun h => h.elim hc.1 fun h => h.elim (not_mem_replaceQuote he ht) hc.1

theorem not_mem_quote {c : Char} {t : Text} (hc : c ≠ '\'' ∧ c ≠ '"') (ht : c ∉ t) : c ∉ quote t := by
  have he : c ∉ "'\"'\"'".toList := by
    simp [hc]
  unfold quote
  split_ifs
  · simp [hc.1]
  · exact ht
  · rw [List.mem_cons, List.mem_append, List.mem_singleton]
    exact fun h => h.elim hc.1 fun h => h.elim (not_mem_replaceQuote he ht) hc.1

end ProxmoxTool.Posix
