import Mathlib.Data.List.DropRight
import Mathlib.Data.Nat.Basic

/-!
# Text

A text is a list of characters.  The string operations of Python that the models below use: `strip`, `split`, `in`,
`partition` at a separator, `join` and `int`.  The facts about decimal numerals are the round trip (`parseInt_natText`)
and that a numeral holds no separator, so that a numeral printed between separators is read back.
-/

namespace ProxmoxTool

abbrev Text := List Char

instance (t : Text) (ts : List Text) : Decidable (t ∈ ts) := inferInstance

/-- Python's `str.isspace` for one character. -/
def isSpace (c : Char) : Bool :=
  let n := c.toNat
  (9 ≤ n && n ≤ 13) || (28 ≤ n && n ≤ 32) || n == 0x85 || n == 0xa0 || n == 0x1680 || (0x2000 ≤ n && n ≤ 0x200a) ||
    n == 0x2028 || n == 0x2029 || n == 0x202f || n == 0x205f || n == 0x3000

def strip (t : Text) : Text := ((t.dropWhile isSpace).reverse.dropWhile isSpace).reverse

/-- `t.partition(c)`: the text before the first `c`, whether there is one, and the text after it. -/
def partition (c : Char) : Text → Text × Bool × Text
  | [] => ([], false, [])
  | d :: t => if d = c then ([], true, t) else (d :: (partition c t).1, (partition c t).2)

/-- `t.split()`: the maximal runs without white space. -/
def words (t : Text) : List Text := (t.splitOnP isSpace).filter (· ≠ [])

/-- A character at which Python's `str.splitlines` ends a line. -/
def isLineEnd (c : Char) : Bool :=
  let n := c.toNat
  (10 ≤ n && n ≤ 13) || (28 ≤ n && n ≤ 30) || n == 0x85 || n == 0x2028 || n == 0x2029

/-- The lines of `line ++ t`, where `line` has no end of a line. -/
def splitLinesFrom (line : Text) : Text → List Text
  | [] => if line = [] then [] else [line]
  | '\r' :: '\n' :: t => line :: splitLinesFrom [] t
  | c :: t => if isLineEnd c then line :: splitLinesFrom [] t else splitLinesFrom (line ++ [c]) t

/-- `t.splitlines()`. -/
def splitLines (t : Text) : List Text := splitLinesFrom [] t

/-- `sub in t`. -/
def hasSub (sub : Text) : Text → Bool
  | [] => sub.isEmpty
  | c :: t => sub.isPrefixOf (c :: t) || hasSub sub t

/-- `t.split(sep)[-1]`: what follows the last of the occurrences of `sep` found from the left, all of `t` if there is
none.  `skip` counts the characters of the current occurrence that are still to pass, `last` is the best answer so far. -/
def afterLast (sep : Text) (skip : Nat) (last : Text) : Text → Text
  | [] => last
  | c :: t => match skip with
    | k + 1 => afterLast sep k last t
    | 0 => if sep.isPrefixOf (c :: t) then afterLast sep (sep.length - 1) ((c :: t).drop sep.length) t
        else afterLast sep 0 last t

/-- `t.rstrip(c)`. -/
def rstripChar (c : Char) (t : Text) : Text := (t.reverse.dropWhile (· = c)).reverse

/-- `sep.join(ts)`. -/
def joinText (sep : Text) (ts : List Text) : Text := sep.intercalate ts

/-- The decimal numeral of `n`, as `echo` and `wc` print it. -/
def natText (n : Nat) : Text := Nat.toDigits 10 n

def intText (i : Int) : Text := if i < 0 then '-' :: natText i.natAbs else natText i.natAbs

/-- ASCII digits with single underscores between them, as Python's `int` accepts. -/
def parseNat (t : Text) : Option Nat :=
  if (t.splitOn '_').all (fun g => !g.isEmpty && g.all Char.isDigit) then
    some (Nat.ofDigitChars 10 (t.filter (· != '_')) 0)
  else none

/-- Python's `int(t)`; `none` for a `ValueError`.  Other digits than those of ASCII and the limit on their number are left out, and U+001C to
U+001F are taken for white space here. -/
def parseInt (t : Text) : Option Int :=
  match strip t with
  | '-' :: ds => (parseNat ds).map fun n => -(n : Int)
  | '+' :: ds => (parseNat ds).map Int.ofNat
  | ds => (parseNat ds).map Int.ofNat

/-! ### `strip` and `partition` -/

private theorem dropWhile_of_forall_false {p : Char → Bool} {t : Text} (h : ∀ c ∈ t, p c = false) :
    t.dropWhile p = t := by
  cases t with
  | nil => rfl
  | cons c t => rw [List.dropWhile_cons, h c (by simp)]; rfl

theorem strip_of_forall_not_space {t : Text} (h : ∀ c ∈ t, isSpace c = false) : strip t = t := by
  unfold strip
  rw [dropWhile_of_forall_false h, dropWhile_of_forall_false (by simpa using h), List.reverse_reverse]

theorem strip_strip (t : Text) : strip (strip t) = strip t := by
  obtain ⟨s, hs⟩ : strip t <+: t.dropWhile isSpace := List.rdropWhile_prefix isSpace (t.dropWhile isSpace)
  -- the first character of the stripped text is the first one of `t` that is no white space
  have hleft : (strip t).dropWhile isSpace = strip t := by
    rw [List.dropWhile_eq_self_iff]
    intro hl
    have hY := List.dropWhile_eq_self_iff.1 (List.dropWhile_idempotent isSpace t)
    rw [← hs] at hY
    have := hY (by simp only [List.length_append]; exact Nat.lt_of_lt_of_le hl (Nat.le_add_right _ _))
    rwa [List.getElem_append_left hl] at this
  have hright : List.rdropWhile isSpace (strip t) = strip t := List.rdropWhile_idempotent _ _
  calc strip (strip t) = List.rdropWhile isSpace ((strip t).dropWhile isSpace) := rfl
    _ = strip t := by rw [hleft, hright]

theorem partition_append {c : Char} {t : Text} (h : c ∉ t) (rest : Text) :
    partition c (t ++ c :: rest) = (t, true, rest) := by
  induction t with
  | nil => simp [partition]
  | cons d t ih =>
    simp only [List.mem_cons, not_or] at h
    rw [List.cons_append, partition, if_neg (Ne.symm h.1), ih h.2]

/-! ### Numerals -/

theorem isSpace_of_isDigit {c : Char} (h : c.isDigit = true) : isSpace c = false := by
  have h1 : 48 ≤ c.toNat ∧ c.toNat ≤ 57 := by
    simp only [Char.isDigit, Bool.and_eq_true, decide_eq_true_eq] at h
    exact ⟨h.1, h.2⟩
  simp only [isSpace, Bool.or_eq_false_iff, Bool.and_eq_false_iff, decide_eq_false_iff_not, beq_eq_false_iff_ne]
  omega

theorem isDigit_of_mem_natText {n : Nat} {c : Char} (h : c ∈ natText n) : c.isDigit = true :=
  Nat.isDigit_of_mem_toDigits (by omega) (by omega) h

theorem natText_ne_nil (n : Nat) : natText n ≠ [] := Nat.toDigits_ne_nil

theorem not_mem_natText {n : Nat} {c : Char} (h : c.isDigit = false) : c ∉ natText n := by
  intro hc
  rw [isDigit_of_mem_natText hc] at h
  exact absurd h (by decide)

theorem strip_natText (n : Nat) : strip (natText n) = natText n :=
  strip_of_forall_not_space fun _ hc => isSpace_of_isDigit (isDigit_of_mem_natText hc)

/-- Digits are read as a numeral. -/
theorem parseNat_of_digits {t : Text} (hne : t ≠ []) (h : ∀ c ∈ t, c.isDigit = true) :
    parseNat t = some (Nat.ofDigitChars 10 t 0) := by
  have hu : ∀ c ∈ t, (c == '_') = false := by
    intro c hc
    rw [beq_eq_false_iff_ne]
    rintro rfl
    exact absurd (h '_' hc) (by decide)
  have hsplit : t.splitOn '_' = [t] := List.splitOnP_eq_singleton hu
  have hfilter : t.filter (· != '_') = t := by
    rw [List.filter_eq_self]
    intro c hc
    simp [bne, hu c hc]
  have hall : t.all Char.isDigit = true := List.all_eq_true.2 h
  have hnonempty : t.isEmpty = false := by
    rw [List.isEmpty_eq_false_iff]; exact hne
  unfold parseNat
  rw [hsplit, hfilter]
  simp only [List.all_cons, List.all_nil, hall, hnonempty]
  rfl

theorem parseInt_of_digits {t : Text} (hne : t ≠ []) (h : ∀ c ∈ t, c.isDigit = true) :
    parseInt t = some (Nat.ofDigitChars 10 t 0 : Int) := by
  have hsign : ∀ {c : Char}, c.isDigit = false → c ∉ t := by
    intro c hc hmem
    rw [h c hmem] at hc
    cases hc
  unfold parseInt
  rw [strip_of_forall_not_space fun c hc => isSpace_of_isDigit (h c hc)]
  split
  · exact absurd List.mem_cons_self (hsign (c := '-') (by decide))
  · exact absurd List.mem_cons_self (hsign (c := '+') (by decide))
  · rw [parseNat_of_digits hne h]; rfl

theorem parseNat_natText (n : Nat) : parseNat (natText n) = some n := by
  rw [parseNat_of_digits (natText_ne_nil n) fun _ hc => isDigit_of_mem_natText hc]
  exact congrArg some Nat.ofDigitChars_ten_toDigits

/-- A printed numeral is read back. -/
theorem parseInt_natText (n : Nat) : parseInt (natText n) = some (n : Int) := by
  rw [parseInt_of_digits (natText_ne_nil n) fun _ hc => isDigit_of_mem_natText hc]
  exact congrArg (fun m : Nat => some (m : Int)) Nat.ofDigitChars_ten_toDigits

end ProxmoxTool
