import ProxmoxTool.Lib.Text

/-!
# JSON

`loads` is Python's `json.loads`: values between white space, objects and arrays without trailing commas, strings without
control characters and with the usual escapes, numbers, the three literals and `NaN`, `Infinity`, `-Infinity`.  A string is
the list of its code points, since an escape may give half of a surrogate pair.  The reader goes down with a bound on the
number of calls: one more than there are characters, and every call reads one.  Python's limits on recursion and on the digits of
an integer are left out.
-/

namespace ProxmoxTool

/-- A Python string: its code points. -/
abbrev Str := List Nat

def Str.ofText (t : Text) : Str := t.map Char.toNat

inductive Json
  | null
  | bool (b : Bool)
  | num (literal : Text)
  | str (s : Str)
  | arr (items : List Json)
  | obj (members : List (Str × Json))

namespace Json

def skipWs (t : Text) : Text := t.dropWhile fun c => c = ' ' || c = '\t' || c = '\n' || c = '\r'

def hexDigit (c : Char) : Option Nat :=
  if '0' ≤ c ∧ c ≤ '9' then some (c.toNat - '0'.toNat)
  else if 'a' ≤ c ∧ c ≤ 'f' then some (c.toNat - 'a'.toNat + 10)
  else if 'A' ≤ c ∧ c ≤ 'F' then some (c.toNat - 'A'.toNat + 10)
  else none

def hex4 (a b c d : Char) : Option Nat := do
  return (((← hexDigit a) * 16 + (← hexDigit b)) * 16 + (← hexDigit c)) * 16 + (← hexDigit d)

/-- The character that a backslash and `c` stand for. -/
def escape (c : Char) : Option Nat :=
  match c with
  | '"' => some 0x22
  | '\\' => some 0x5C
  | '/' => some 0x2F
  | 'b' => some 8
  | 'f' => some 12
  | 'n' => some 10
  | 'r' => some 13
  | 't' => some 9
  | _ => none

/-- The code units of a string behind its opening quote, and the text behind its closing quote. -/
def scanUnits : Text → Option (List Nat × Text)
  | '"' :: t => some ([], t)
  | '\\' :: 'u' :: a :: b :: c :: d :: t => do
    let n ← hex4 a b c d
    let (units, rest) ← scanUnits t
    return (n :: units, rest)
  | '\\' :: c :: t => do
    let n ← escape c
    let (units, rest) ← scanUnits t
    return (n :: units, rest)
  | c :: t =>
    if c = '\\' ∨ c.toNat < 0x20 then none
    else do
      let (units, rest) ← scanUnits t
      return (c.toNat :: units, rest)
  | [] => none

/-- Surrogate pairs are joined. -/
def joinPairs : List Nat → Str
  | high :: low :: units =>
    if (0xD800 ≤ high ∧ high < 0xDC00) ∧ 0xDC00 ≤ low ∧ low < 0xE000 then
      (0x10000 + (high - 0xD800) * 0x400 + (low - 0xDC00)) :: joinPairs units
    else high :: joinPairs (low :: units)
  | units => units

def scanString (t : Text) : Option (Str × Text) := (scanUnits t).map fun (units, rest) => (joinPairs units, rest)

/-- A point and digits, if they are there. -/
def fraction : Text → Text × Text
  | '.' :: t =>
    let digits := t.takeWhile Char.isDigit
    if digits = [] then ([], '.' :: t) else ('.' :: digits, t.dropWhile Char.isDigit)
  | t => ([], t)

/-- An exponent, if it is there. -/
def exponent (t : Text) : Text × Text :=
  match t with
  | [] => ([], [])
  | e :: rest =>
    if e = 'e' ∨ e = 'E' then
      let (sign, body) := match rest with
        | '+' :: body => (['+'], body)
        | '-' :: body => (['-'], body)
        | body => ([], body)
      let digits := body.takeWhile Char.isDigit
      if digits = [] then ([], t) else (e :: sign ++ digits, body.dropWhile Char.isDigit)
    else ([], t)

/-- The whole part: a zero, or digits that do not start with one. -/
def whole : Text → Option (Text × Text)
  | '0' :: t => some (['0'], t)
  | t =>
    let digits := t.takeWhile Char.isDigit
    if digits = [] then none else some (digits, t.dropWhile Char.isDigit)

def number (t : Text) : Option (Json × Text) := do
  let (sign, t) := match t with
    | '-' :: t => (['-'], t)
    | t => ([], t)
  let (digits, t) ← whole t
  let (frac, t) := fraction t
  let (exp, t) := exponent t
  return (.num (sign ++ digits ++ frac ++ exp), t)

/-- The text behind a literal. -/
def literal (word : String) (t : Text) : Option Text :=
  if word.toList.isPrefixOf t then some (t.drop word.length) else none

mutual

def value : Nat → Text → Option (Json × Text)
  | 0, _ => none
  | calls + 1, t =>
    match t with
    | '"' :: t => (scanString t).map fun (s, rest) => (.str s, rest)
    | '\x7b' :: t => match skipWs t with
      | '\x7d' :: rest => some (.obj [], rest)
      | t => objectMembers calls [] t
    | '[' :: t => match skipWs t with
      | ']' :: rest => some (.arr [], rest)
      | t => arrayItems calls [] t
    | t =>
      ((literal "null" t).map fun rest => (.null, rest)) <|> ((literal "true" t).map fun rest => (.bool true, rest)) <|>
        ((literal "false" t).map fun rest => (.bool false, rest)) <|> number t <|>
        ((literal "NaN" t).map fun rest => (.num "NaN".toList, rest)) <|>
        ((literal "Infinity" t).map fun rest => (.num "Infinity".toList, rest)) <|>
        ((literal "-Infinity" t).map fun rest => (.num "-Infinity".toList, rest))

def objectMembers : Nat → List (Str × Json) → Text → Option (Json × Text)
  | 0, _, _ => none
  | calls + 1, members, t =>
    match t with
    | '"' :: t => do
      let (key, t) ← scanString t
      match skipWs t with
      | ':' :: t => do
        let (v, t) ← value calls (skipWs t)
        match skipWs t with
        | '\x7d' :: t => some (.obj (members ++ [(key, v)]), t)
        | ',' :: t => objectMembers calls (members ++ [(key, v)]) (skipWs t)
        | _ => none
      | _ => none
    | _ => none

def arrayItems : Nat → List Json → Text → Option (Json × Text)
  | 0, _, _ => none
  | calls + 1, items, t => do
    let (v, t) ← value calls t
    match skipWs t with
    | ']' :: t => some (.arr (items ++ [v]), t)
    | ',' :: t => arrayItems calls (items ++ [v]) (skipWs t)
    | _ => none

end

/-- `json.loads(t)`; `none` for a `JSONDecodeError`. -/
def loads (t : Text) : Option Json := do
  let (v, rest) ← value (t.length + 1) (skipWs t)
  if skipWs rest = [] then some v else none

/-- `d[key]` of a dictionary read from JSON: the last member with the key. -/
def member (members : List (Str × Json)) (key : Str) : Option Json :=
  (members.reverse.find? fun m => m.1 = key).map Prod.snd

end Json

end ProxmoxTool
