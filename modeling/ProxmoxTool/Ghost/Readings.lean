import ProxmoxTool.Apps.Validate
import ProxmoxTool.Lib.Json

/-!
# What the upgrade of Ghost reads

The parts of `apps/ghost.py` that make something of a command's output: the ranges of Node.js versions, the metadata of ghost-cli, the
marker of an HTTP status, and the entries of `config.production.json`.  What Python's own conversions give is the parameter `Python`.
-/

namespace ProxmoxTool.Ghost

/-- Python on text and on values read from JSON. -/
structure Python where
  chars : CharTable
  /-- `str.isdigit`. -/
  isdigit : Text → Bool
  /-- `int` of digits; `none` for a `ValueError`. -/
  int : Text → Option Nat
  /-- The truth value of a number. -/
  truthy : Text → Bool
  /-- `str(value or "")`. -/
  str : Option Json → Text
  /-- `int(value or 0)`; `none` for an error other than `TypeError` and `ValueError`, `some none` for one of these. -/
  intOf : Option Json → Option (Option Int)
  /-- `urlparse(url).hostname`; `none` for a `ValueError`. -/
  hostname : Text → Option (Option Text)

/-- A Python string without its surrogates. -/
def textOf (s : Str) : Text := s.map fun n => if n.isValidChar then Char.ofNat n else '\uFFFD'

/-- What `$` leaves: a newline at the end does not count. -/
def line (t : Text) : Text := if t.getLast? = some '\n' then t.dropLast else t

/-- The first line of an output, stripped. -/
def firstLine (t : Text) : Text := strip ((splitLines (strip t)).head?.getD [])

/-- `os.path.basename(path.rstrip("/"))`. -/
def basename (path : Text) : Text := ((rstripChar '/' path).reverse.takeWhile (· ≠ '/')).reverse

/-- `re.search`: the first position at which `m` matches. -/
def search {α : Type} (m : Text → Option α) : Text → Option α
  | [] => m []
  | c :: t => (m (c :: t)).or (search m t)

section

variable (py : Python)

/-! ### Versions -/

/-- `(\d+)` at the start, as a number, with what follows. -/
def decimals (t : Text) : Option (Nat × Text) :=
  let ds := t.takeWhile py.chars.isDecimal
  if ds = [] then none else (py.int ds).map fun n => (n, t.drop ds.length)

abbrev Semver := Nat × Nat × Nat

/-- `(\d+)\.(\d+)\.(\d+)` at the start. -/
def triple (t : Text) : Option (Semver × Text) := do
  let (major, t) ← decimals py t
  let t ← match t with
    | '.' :: t => some t
    | _ => none
  let (minor, t) ← decimals py t
  let t ← match t with
    | '.' :: t => some t
    | _ => none
  let (patch, t) ← decimals py t
  return ((major, minor, patch), t)

/-- `_parse_semver`. -/
def parseSemver (text : Text) : Option Semver :=
  let t := strip text
  (triple py (if t.head? = some 'v' then t.tail else t)).map Prod.fst

/-- A whole text of three numbers. -/
def exactly (t : Text) : Option Semver := do
  let (v, rest) ← triple py t
  if rest = [] then some v else none

/-- One alternative of a range. -/
inductive Alternative
  | caret (base : Semver)
  | exact (base : Semver)
  | atLeast (base : Semver)

/-- `_CARET_RE` and else `_GTE_RE`. -/
def alternative (alt : Text) : Option Alternative :=
  match alt with
  | '^' :: t => (exactly py t).map .caret
  | '>' :: '=' :: t => (exactly py (t.dropWhile isSpace)).map .atLeast
  | t => (exactly py t).map .exact

/-- The base of an alternative; its first number is the major that it names. -/
def Alternative.base : Alternative → Semver
  | .caret base => base
  | .exact base => base
  | .atLeast base => base

/-- The comparison of tuples. -/
def le (v w : Semver) : Bool :=
  v.1 < w.1 || (v.1 = w.1 && (v.2.1 < w.2.1 || (v.2.1 = w.2.1 && v.2.2 ≤ w.2.2)))

def Alternative.accepts (v : Semver) : Alternative → Bool
  | .caret base => v.1 = base.1 && le base v
  | .exact base => v = base
  | .atLeast base => le base v

/-- `node_range.split("||")`. -/
def splitBars : Text → List Text
  | '|' :: '|' :: t => [] :: splitBars t
  | c :: t => match splitBars t with
    | alt :: alts => (c :: alt) :: alts
    | [] => [[c]]
  | [] => [[]]

def alternatives (nodeRange : Text) : List Alternative := (splitBars nodeRange).filterMap fun alt => alternative py (strip alt)

/-- `_node_satisfies`. -/
def nodeSatisfies (version nodeRange : Text) : Bool :=
  match parseSemver py version with
  | none => false
  | some v => (alternatives py nodeRange).any fun alt => alt.accepts v

/-- `_node_target_major`. -/
def nodeTargetMajor (nodeRange : Text) (currentMajor : Option Nat) : Option Nat :=
  let majors := (alternatives py nodeRange).map fun alt => alt.base.1
  match currentMajor.filter fun m => decide (m ∈ majors) with
  | some major => some major
  | none => majors.min?

/-- `_VERSION_RE`, the whole text. -/
def isVersion (t : Text) : Bool :=
  match triple py t with
  | none => false
  | some (_, []) => true
  | some (_, c :: rest) => (c = '-' || c = '+') && !rest.isEmpty && rest.all fun c => c.isAlphanum || c = '.'

/-! ### ghost-cli -/

/-- `"key"\s*:\s*"([^"]+)"` at the start. -/
def quotedEntry (key t : Text) : Option Text :=
  let key := '"' :: key ++ ['"']
  if key.isPrefixOf t then
    match (t.drop key.length).dropWhile isSpace with
    | ':' :: t => match t.dropWhile isSpace with
      | '"' :: t =>
        let value := t.takeWhile (· ≠ '"')
        if value ≠ [] ∧ (t.drop value.length).head? = some '"' then some value else none
      | _ => none
    | _ => none
  else none

def entry (key raw : Text) : Option Text := search (quotedEntry key) raw

/-- `^[a-zA-Z0-9_-]+$`. -/
def plainName (t : Text) : Bool := !(line t).isEmpty && (line t).all fun c => c.isAlphanum || c = '_' || c = '-'

/-- `service_name` and `pre_version`, from `.ghost-cli`. -/
def metadata (ghostDir raw : Text) (found : Bool) : Text × Option Text :=
  let fallback := "ghost_".toList ++ basename ghostDir
  if found && !(strip raw).isEmpty then
    (match (entry "name".toList raw).filter plainName with
      | some name => "ghost_".toList ++ name
      | none => fallback,
     (entry "active-version".toList raw).filter (isVersion py))
  else (fallback, none)

/-- The release that `current` points at. -/
def linkedVersion (out : Text) : Option Text :=
  let target := strip out
  if target = [] then none else some (basename target) |>.filter (isVersion py)

/-- `_UNIX_USER_RE`. -/
def isUnixUser (t : Text) : Bool :=
  match line t with
  | [] => false
  | c :: rest => (c.isLower || c = '_') && rest.all fun c => c.isLower || c.isDigit || c = '_' || c = '-'

/-! ### HTTP -/

/-- `HTTP:(\d{3})` at the start. -/
def statusMarker (t : Text) : Option Text :=
  if "HTTP:".toList.isPrefixOf t then
    let ds := (t.drop 5).take 3
    if ds.length = 3 ∧ ds.all py.chars.isDecimal then some ds else none
  else none

/-- `_http_ok`. -/
def httpOk (out : Text) : Bool :=
  match search (statusMarker py) out with
  | some (c :: _) => c = '2' || c = '3'
  | _ => false

/-- `_HOSTNAME_RE`. -/
def isHostname (t : Text) : Bool := !t.isEmpty && t.all fun c => c.isAlphanum || c = '.' || c = '-'

/-- Where the site is asked for. -/
structure HttpTarget where
  hostname : Option Text := none
  host : Text := "127.0.0.1".toList
  port : Int := 2368

/-- `_resolve_ghost_http_target` on its output; `none` if it raises. -/
def resolveHttpTarget (out : Text) (found : Bool) : Option HttpTarget :=
  if !found || (strip out).isEmpty then some {}
  else match Json.loads (strip out) with
    | some (.obj members) => do
      let get (key : Text) := Json.member members (Str.ofText key)
      let candidate := (← py.hostname (py.str (get "url".toList))).getD []
      let host := py.str (get "host".toList)
      let port ← py.intOf (get "port".toList)
      return {
        hostname := if isHostname candidate then some candidate else none
        host := if isHostname host then host else "127.0.0.1".toList
        port := match port with
          | some p => if 0 < p ∧ p < 65536 then p else 2368
          | none => 2368 }
    | _ => some {}

/-! ### The database -/

def truthy : Json → Bool
  | .null => false
  | .bool b => b
  | .num literal => py.truthy literal
  | .str s => !s.isEmpty
  | .arr items => !items.isEmpty
  | .obj members => !members.isEmpty

/-- Two values to unpack; a later member of a name replaces an earlier one. -/
def unpackTwo : Json → Option (Json × Json)
  | .arr [a, b] => some (a, b)
  | .str [a, b] => some (.str [a], .str [b])
  | .obj members => match (members.map Prod.fst).reverse.dedup.reverse with
    | [a, b] => some (.str a, .str b)
    | _ => none
  | _ => none

/-- `_resolve_ghost_db`. -/
def resolveGhostDb (out : Text) (found : Bool) : Option (Json × Json) :=
  if !found || (strip out).isEmpty then none
  else ((Json.loads (strip out)).bind unpackTwo).filter fun (db, user) => truthy py db && truthy py user

/-- `_DB_IDENT_RE` by `match`; `none` for a `TypeError`. -/
def isDbIdent : Json → Option Bool
  | .str s =>
    let t := line (textOf s)
    some (!t.isEmpty && t.all fun c => c.isAlphanum || c = '_')
  | _ => none

/-- `_resolve_ghost_db_host`. -/
def resolveGhostDbHost (out : Text) (found : Bool) : Text :=
  if !found || (strip out).isEmpty then []
  else match Json.loads (strip out) with
    | some (.str host) => strip (textOf host)
    | _ => []

/-- `_LOCAL_DB_HOSTS`. -/
def localDbHosts : List Text := [[], "localhost".toList, "127.0.0.1".toList, "::1".toList]

/-- `has_all`. -/
def hasAll (db grants : Text) : Bool :=
  (splitLines grants).any fun ln =>
    hasSub "ALL PRIVILEGES ON *.*".toList ln || hasSub ("ALL PRIVILEGES ON `".toList ++ db ++ "`.*".toList) ln

end

end ProxmoxTool.Ghost
