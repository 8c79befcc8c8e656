import ProxmoxTool.Lib.Json

/-!
# Basic strings of TOML

`readString` reads the text behind the opening quote of a basic string up to the quote that ends it.
-/

namespace ProxmoxTool.Toml

/-- What may stand in a basic string as it is: white space, and all but control characters. -/
def isUnescaped (c : Char) : Bool := c = '\t' || (32 ≤ c.toNat && c.toNat ≠ 127)

/-- The escapes of one letter. -/
def escape (c : Char) : Option Char :=
  if c = 'b' then some '\x08'
  else if c = 't' then some '\t'
  else if c = 'n' then some '\n'
  else if c = 'f' then some '\x0c'
  else if c = 'r' then some '\r'
  else if c = '"' then some '"'
  else if c = '\\' then some '\\'
  else none

/-- A Unicode scalar value. -/
def scalar (n : Nat) : Option Char := if h : n.isValidChar then some (Char.ofNatAux n h) else none

/-- The text of a basic string and what follows it. -/
def readString : Text → Option (Text × Text)
  | [] => none
  | '"' :: t => some ([], t)
  | '\\' :: 'u' :: a :: b :: c :: d :: t =>
    ((Json.hex4 a b c d).bind scalar).bind fun x => (readString t).map fun p => (x :: p.1, p.2)
  | '\\' :: 'U' :: a :: b :: c :: d :: a' :: b' :: c' :: d' :: t =>
    ((Json.hex4 a b c d).bind fun high => (Json.hex4 a' b' c' d').bind fun low => scalar (high * 65536 + low)).bind fun x =>
      (readString t).map fun p => (x :: p.1, p.2)
  | '\\' :: c :: t => (escape c).bind fun x => (readString t).map fun p => (x :: p.1, p.2)
  | c :: t => if isUnescaped c && c ≠ '\\' then (readString t).map fun p => (c :: p.1, p.2) else none

/-- A basic string that is the whole text. -/
def parseString : Text → Option Text
  | '"' :: t =>
    match readString t with
    | some (u, []) => some u
    | _ => none
  | _ => none

theorem readString_cons {c : Char} (hquote : c ≠ '"') (hbackslash : c ≠ '\\') (t : Text) :
    readString (c :: t) = if isUnescaped c then (readString t).map fun p => (c :: p.1, p.2) else none := by
  rw [readString]
  · rw [decide_eq_true hbackslash, Bool.and_true]
  · intro h
    exact absurd h hquote
  · intro a b d e u h
    exact absurd h hbackslash
  · intro a b d e a' b' d' e' u h
    exact absurd h hbackslash
  · intro d u h
    exact absurd h hbackslash

theorem readString_escape {c x : Char} (h : escape c = some x) (t : Text) :
    readString ('\\' :: c :: t) = (readString t).map fun p => (x :: p.1, p.2) := by
  have hu : c ≠ 'u' ∧ c ≠ 'U' := by
    constructor
    · rintro rfl
      cases h
    · rintro rfl
      cases h
  rw [readString, h, Option.bind_some]
  · intro a b d e u heq
    exact absurd heq hu.1
  · intro a b d e a' b' d' e' u heq
    exact absurd heq hu.2

theorem parseString_eq_some_iff {t u : Text} : parseString ('"' :: t) = some u ↔ readString t = some (u, []) := by
  rw [parseString]
  cases hread : readString t with
  | none => simp
  | some p =>
    obtain ⟨u', rest⟩ := p
    cases rest with
    | nil => simp
    | cons c rest => simp

end ProxmoxTool.Toml
