import Mathlib.Tactic.Common
import ProxmoxTool.Lib.Fields

/-!
# Values that reach a remote shell

The allow-list checks of `apps/utils.py` that the upgrade of Mastodon runs before it builds a command.  All of them use
`fullmatch`, so a trailing newline is refused; `portPattern` is the one `re.match` with `$`, which lets one pass.  Python's
`\w` and `\d` depend on the Unicode tables for characters outside ASCII: these are the parameter `CharTable`.
-/

namespace ProxmoxTool

/-- What Python's Unicode tables say of a character outside ASCII. -/
structure CharTable where
  alnum : Char → Bool
  decimal : Char → Bool

namespace CharTable

variable (u : CharTable)

/-- `\w`.  White space is in no table of letters or digits. -/
def isWord (c : Char) : Bool :=
  if c.toNat < 128 then c.isAlphanum || c == '_' else u.alnum c && !isSpace c

/-- `\d`. -/
def isDecimal (c : Char) : Bool :=
  if c.toNat < 128 then c.isDigit else u.decimal c && !isSpace c

/-- `_SHELL_SAFE_RE`, one character. -/
def isShellSafe (c : Char) : Bool := u.isWord c || c ∈ ['.', '-', '/', ':', '~']

/-- `_validate_shell_param` raises nothing. -/
def validateShellParam (t : Text) : Bool := !t.isEmpty && t.all u.isShellSafe

/-- `_validate_abs_path` raises nothing. -/
def validateAbsPath (t : Text) : Bool :=
  let inner := fun c => u.isWord c || c ∈ ['.', '-', '/']
  2 ≤ t.length && t.head? == some '/' && t.tail.all inner && t.getLast? != some '/' &&
    !(t.splitOn '/').contains ['.', '.']

/-- `re.match(r'^\d+$', t)`: `$` also matches before a newline at the end. -/
def portPattern (t : Text) : Bool :=
  let ds := if t.getLast? = some '\n' then t.dropLast else t
  !ds.isEmpty && ds.all u.isDecimal

/-- `_validate_git_branch` raises nothing. -/
def validateGitBranch (t : Text) : Bool :=
  match t with
  | [] => false
  | c :: rest => c.isAlphanum && rest.length ≤ 127 && (rest.all fun c => u.isWord c || c ∈ ['.', '-', '/']) &&
      !hasSub ['.', '.'] t

private theorem isSpace_of_isWord {c : Char} (h : u.isWord c = true) : isSpace c = false := by
  unfold isWord at h
  split at h
  · rw [Bool.or_eq_true, beq_iff_eq] at h
    rcases h with h | rfl
    · exact isSpace_of_between (between_of_isAlphanum h)
    · decide
  · simpa using (Bool.and_eq_true_iff.1 h).2

/-- An accepted shell parameter is one word without white space. -/
theorem not_isSpace_of_validateShellParam {t : Text} (h : u.validateShellParam t = true) :
    ∀ c ∈ t, isSpace c = false := by
  intro c hc
  have hs : u.isShellSafe c = true := List.all_eq_true.1 (Bool.and_eq_true_iff.1 h).2 c hc
  unfold isShellSafe at hs
  rw [Bool.or_eq_true, decide_eq_true_eq] at hs
  rcases hs with hs | hs
  · exact isSpace_of_isWord u hs
  · simp only [List.mem_cons, List.not_mem_nil, or_false] at hs
    rcases hs with rfl | rfl | rfl | rfl | rfl <;> decide

private theorem isSpace_of_isDecimal {c : Char} (h : u.isDecimal c = true) : isSpace c = false := by
  unfold isDecimal at h
  split at h
  · exact isSpace_of_isDigit h
  · simpa using (Bool.and_eq_true_iff.1 h).2

theorem not_isSpace_of_portPattern {t : Text} (h : u.portPattern t = true) (hn : '\n' ∉ t) :
    ∀ c ∈ t, isSpace c = false := by
  have hlast : t.getLast? ≠ some '\n' := fun hl => hn (List.mem_of_getLast? hl)
  simp only [portPattern, if_neg hlast, Bool.and_eq_true, List.all_eq_true] at h
  exact fun c hc => isSpace_of_isDecimal u (h.2 c hc)

end CharTable

/-- `_validate_username` raises nothing. -/
def validateUsername (t : Text) : Bool :=
  match t with
  | [] => false
  | c :: rest => (c.isAlpha || c == '_') && rest.length ≤ 31 &&
      rest.all fun c => c.isAlphanum || c ∈ ['_', '.', '-']

/-- `_validate_db_name` raises nothing. -/
def validateDbName (t : Text) : Bool :=
  match t with
  | [] => false
  | c :: rest => (c.isAlpha || c == '_') && rest.length ≤ 62 && rest.all fun c => c.isAlphanum || c ∈ ['_', '$']

end ProxmoxTool
