import Mathlib
import ProxmoxTool.Lib.Text

/-!
# Tokens of Ruby

The tokens of a Ruby program that is made of names, integers, operators of one character and strings between quotes, single or double, with
expressions in the latter ones.  Blanks and ends of lines are tokens too, since they matter to Ruby.  A text with anything else (comments,
regular expressions, `%` literals, here-documents, escapes in double quotes) has no tokens.

A text that begins and ends between tokens adds the same tokens wherever it stands (`Runs`), so that the tokens of a program are those of
its parts.
-/

namespace ProxmoxTool.Ruby

inductive Token
  | name (t : Text)
  | integer (t : Text)
  | sign (c : Char)
  | string (t : Text)
  /-- The beginning or the end of a string between double quotes, and the text between those and its expressions. -/
  | quote
  | part (t : Text)
  | enter
  | leave
  deriving DecidableEq

/-- What the last characters have begun. -/
inductive Mode
  | plain
  | name (t : Text)
  | integer (t : Text)
  | single (t : Text)
  | singleEscape (t : Text)
  | double (t : Text)
  | doubleHash (t : Text)
  deriving DecidableEq

/-- The open braces in each expression that stands in a string, and the tokens, the last one first. -/
structure Lexer where
  mode : Mode := .plain
  braces : List Nat := []
  tokens : List Token := []
  deriving DecidableEq

def isNameStart (c : Char) : Bool := c.isAlpha || c = '_'

def isNameChar (c : Char) : Bool := c.isAlphanum || c = '_'

def isSign (c : Char) : Bool := c ∈ [' ', '\n', '(', ')', '[', ']', '=', '.', ',', ':', ';', '&', '|', '+', '-', '*', '!', '>']

namespace Lexer

def goto (m : Mode) (s : Lexer) : Lexer := { s with mode := m }

def push (t : Token) (s : Lexer) : Lexer := { s with mode := .plain, tokens := t :: s.tokens }

end Lexer

def openBrace (s : Lexer) : Lexer :=
  match s.braces with
  | [] => s.push (.sign '{')
  | n :: ns => { s.push (.sign '{') with braces := (n + 1) :: ns }

/-- A brace ends an expression in a string if none was opened in the expression. -/
def closeBrace (s : Lexer) : Lexer :=
  match s.braces with
  | [] => s.push (.sign '}')
  | 0 :: ns => { s.push .leave with mode := .double [], braces := ns }
  | (n + 1) :: ns => { s.push (.sign '}') with braces := n :: ns }

def plainStep (s : Lexer) (c : Char) : Option Lexer :=
  if isNameStart c then some (s.goto (.name [c]))
  else if c.isDigit then some (s.goto (.integer [c]))
  else if c = '\'' then some (s.goto (.single []))
  else if c = '"' then some ((s.push .quote).goto (.double []))
  else if c = '{' then some (openBrace s)
  else if c = '}' then some (closeBrace s)
  else if isSign c then some (s.push (.sign c))
  else none

def doubleStep (s : Lexer) (t : Text) (c : Char) : Option Lexer :=
  if c = '"' then some ((s.push (.part t)).push .quote)
  else if c = '#' then some (s.goto (.doubleHash t))
  else if c = '\\' then none
  else some (s.goto (.double (t ++ [c])))

def step (s : Lexer) (c : Char) : Option Lexer :=
  match s.mode with
  | .plain => plainStep s c
  | .name t =>
    if isNameChar c then some (s.goto (.name (t ++ [c])))
    else if c = '?' ∨ c = '!' then some (s.push (.name (t ++ [c])))
    else plainStep (s.push (.name t)) c
  | .integer t =>
    if c.isDigit then some (s.goto (.integer (t ++ [c])))
    else if isNameChar c then none
    else plainStep (s.push (.integer t)) c
  | .single t =>
    if c = '\'' then some (s.push (.string t))
    else if c = '\\' then some (s.goto (.singleEscape t))
    else some (s.goto (.single (t ++ [c])))
  | .singleEscape t => some (s.goto (.single (t ++ if c = '\'' ∨ c = '\\' then [c] else ['\\', c])))
  | .double t => doubleStep s t c
  | .doubleHash t =>
    if c = '{' then some { ((s.push (.part t)).push .enter) with braces := 0 :: s.braces }
    else if c = '$' ∨ c = '@' then none
    else doubleStep s (t ++ ['#']) c

def run (s : Lexer) (t : Text) : Option Lexer := t.foldlM step s

/-- The tokens, if nothing is left open. -/
def finish (s : Lexer) : Option (List Token) :=
  if s.braces ≠ [] then none
  else match s.mode with
    | .plain => some s.tokens.reverse
    | .name t => some (s.push (.name t)).tokens.reverse
    | .integer t => some (s.push (.integer t)).tokens.reverse
    | _ => none

def lex (t : Text) : Option (List Token) := (run {} t).bind finish

/-! ### The parts of a program -/

theorem run_append (s : Lexer) (t u : Text) : run s (t ++ u) = (run s t).bind fun s' => run s' u := List.foldlM_append

theorem run_cons_of {s s' : Lexer} {c : Char} (h : step s c = some s') (t : Text) : run s (c :: t) = run s' t := by
  rw [run, List.foldlM_cons, h]
  rfl

/-- The tokens behind those of `s`. -/
def Lexer.over (us : List Token) (s : Lexer) : Lexer := { s with tokens := s.tokens ++ us }

theorem plainStep_over (us : List Token) (s : Lexer) (c : Char) : plainStep (s.over us) c = (plainStep s c).map (Lexer.over us) := by
  have hopen : openBrace (s.over us) = (openBrace s).over us := by
    obtain ⟨mode, braces, tokens⟩ := s
    cases braces <;> rfl
  have hclose : closeBrace (s.over us) = (closeBrace s).over us := by
    obtain ⟨mode, braces, tokens⟩ := s
    rcases braces with - | ⟨- | n, ns⟩ <;> rfl
  unfold plainStep
  rw [hopen, hclose]
  split_ifs <;> rfl

theorem doubleStep_over (us : List Token) (s : Lexer) (t : Text) (c : Char) :
    doubleStep (s.over us) t c = (doubleStep s t c).map (Lexer.over us) := by
  unfold doubleStep
  split_ifs <;> rfl

/-- The tokens of before are kept and matter to no character. -/
theorem step_over (us : List Token) (s : Lexer) (c : Char) : step (s.over us) c = (step s c).map (Lexer.over us) := by
  obtain ⟨mode, braces, tokens⟩ := s
  cases mode with
  | plain => exact plainStep_over us _ c
  | name t =>
    have hend := plainStep_over us (Lexer.push (.name t) ⟨.name t, braces, tokens⟩) c
    change (if _ then _ else if _ then _ else plainStep _ c) = Option.map _ (if _ then _ else if _ then _ else plainStep _ c)
    split_ifs
    · rfl
    · rfl
    · exact hend
  | integer t =>
    have hend := plainStep_over us (Lexer.push (.integer t) ⟨.integer t, braces, tokens⟩) c
    change (if _ then _ else if _ then _ else plainStep _ c) = Option.map _ (if _ then _ else if _ then _ else plainStep _ c)
    split_ifs
    · rfl
    · rfl
    · exact hend
  | single t =>
    change (if _ then _ else if _ then _ else _) = Option.map _ (if _ then _ else if _ then _ else _)
    split_ifs <;> rfl
  | singleEscape t => rfl
  | double t => exact doubleStep_over us _ t c
  | doubleHash t =>
    have hend := doubleStep_over us ⟨.doubleHash t, braces, tokens⟩ (t ++ ['#']) c
    change (if _ then _ else if _ then _ else doubleStep _ _ c) = Option.map _ (if _ then _ else if _ then _ else doubleStep _ _ c)
    split_ifs
    · rfl
    · rfl
    · exact hend

theorem run_over (us : List Token) (s : Lexer) (t : Text) : run (s.over us) t = (run s t).map (Lexer.over us) := by
  induction t generalizing s with
  | nil => rfl
  | cons c t ih =>
    rw [run, run, List.foldlM_cons, List.foldlM_cons, step_over]
    cases step s c with
    | none => rfl
    | some s' => exact ih s'

/-- A text that begins and ends between tokens and outside of strings. -/
def Runs (t : Text) (ts : List Token) : Prop := run {} t = some ⟨.plain, [], ts.reverse⟩

instance (t : Text) (ts : List Token) : Decidable (Runs t ts) := inferInstanceAs (Decidable (_ = _))

namespace Runs

theorem nil : Runs [] [] := rfl

theorem append {t u : Text} {ts us : List Token} (ht : Runs t ts) (hu : Runs u us) : Runs (t ++ u) (ts ++ us) := by
  have hbehind := run_over ts.reverse {} u
  rw [Runs] at ht hu
  rw [hu] at hbehind
  rw [Runs, run_append, ht, Option.bind_some, List.reverse_append]
  exact hbehind

theorem flatMap {α : Type} {l : List α} {f : α → Text} {g : α → List Token} (h : ∀ a ∈ l, Runs (f a) (g a)) :
    Runs (l.flatMap f) (l.flatMap g) := by
  induction l with
  | nil => exact nil
  | cons a l ih => exact (h a List.mem_cons_self).append (ih fun b hb => h b (List.mem_cons_of_mem _ hb))

/-- The tokens of a program are those of its parts. -/
theorem lex {t : Text} {ts : List Token} (h : Runs t ts) : lex t = some ts := by
  rw [Ruby.lex, h, Option.bind_some]
  exact congrArg some (List.reverse_reverse ts)

end Runs

theorem run_single {t : Text} (h : ∀ c ∈ t, c ≠ '\'' ∧ c ≠ '\\') (acc : Text) (ns : List Nat) (us : List Token) :
    run ⟨.single acc, ns, us⟩ t = some ⟨.single (acc ++ t), ns, us⟩ := by
  induction t generalizing acc with
  | nil => simp [run]
  | cons c t ih =>
    obtain ⟨hquote, hbackslash⟩ := h c List.mem_cons_self
    have hstep : step ⟨.single acc, ns, us⟩ c = some ⟨.single (acc ++ [c]), ns, us⟩ :=
      (if_neg hquote).trans (if_neg hbackslash)
    rw [run_cons_of hstep, ih fun d hd => h d (List.mem_cons_of_mem _ hd), List.append_assoc]
    rfl

/-- Between quotes every text without a quote and a backslash stands for itself. -/
theorem runs_string {t : Text} (h : ∀ c ∈ t, c ≠ '\'' ∧ c ≠ '\\') : Runs ('\'' :: (t ++ ['\''])) [.string t] := by
  have hopen : step {} '\'' = some ⟨.single [], [], []⟩ := rfl
  rw [Runs, run_cons_of hopen, run_append, run_single h, Option.bind_some]
  rfl

theorem run_digits {t : Text} (h : t.all Char.isDigit = true) (acc : Text) (ns : List Nat) (us : List Token) :
    run ⟨.integer acc, ns, us⟩ t = some ⟨.integer (acc ++ t), ns, us⟩ := by
  induction t generalizing acc with
  | nil => simp [run]
  | cons c t ih =>
    rw [List.all_cons, Bool.and_eq_true] at h
    have hstep : step ⟨.integer acc, ns, us⟩ c = some ⟨.integer (acc ++ [c]), ns, us⟩ := if_pos h.1
    rw [run_cons_of hstep, ih h.2, List.append_assoc]
    rfl

theorem isNameStart_of_isDigit {c : Char} (h : c.isDigit = true) : isNameStart c = false := by
  have hdigit : c.toNat ≤ 57 := by
    simp only [Char.isDigit, Bool.and_eq_true, decide_eq_true_eq] at h
    exact h.2
  rw [isNameStart, Bool.or_eq_false_iff, decide_eq_false_iff_not, Bool.eq_false_iff]
  constructor
  · intro halpha
    simp only [Char.isAlpha, Char.isUpper, Char.isLower, Bool.or_eq_true, Bool.and_eq_true, decide_eq_true_eq] at halpha
    have hletter : 65 ≤ c.toNat := by
      rcases halpha with ⟨hge, -⟩ | ⟨hge, -⟩
      · exact hge
      · exact Nat.le_trans (by decide) hge
    omega
  · rintro rfl
    exact absurd hdigit (by decide)

/-- A numeral in front of a sign. -/
theorem runs_integer {t : Text} (hne : t ≠ []) (h : t.all Char.isDigit = true) : Runs (t ++ [')']) [.integer t, .sign ')'] := by
  obtain ⟨c, t, rfl⟩ := List.exists_cons_of_ne_nil hne
  rw [List.all_cons, Bool.and_eq_true] at h
  have hstep : step {} c = some ⟨.integer [c], [], []⟩ := by
    change plainStep {} c = _
    rw [plainStep, if_neg (by simp [isNameStart_of_isDigit h.1]), if_pos h.1]
    rfl
  rw [Runs, List.cons_append, run_cons_of hstep, run_append, run_digits h.2, Option.bind_some]
  rfl

end ProxmoxTool.Ruby
