import ProxmoxTool.Lib.Text

/-!
# Links in a browser

How a browser resolves a link on a page with an `http` or `https` address: the basic URL parser of the URL standard with that address as
base, as far as scheme, host and port go.  The states behind the host change none of them and never fail; a link with another scheme is known
by its scheme.  What makes a host of a text between the slashes is a parameter.
-/

namespace ProxmoxTool.WebUrl

inductive Scheme
  | http
  | https
  deriving DecidableEq

def Scheme.text : Scheme → Text
  | .http => "http".toList
  | .https => "https".toList

def Scheme.defaultPort : Scheme → Nat
  | .http => 80
  | .https => 443

/-- Scheme, host and port of an address; the default port is `none`. -/
structure Base where
  scheme : Scheme
  host : Text
  port : Option Nat
  deriving DecidableEq

/-- Where a link leads. -/
inductive Link
  | web (origin : Base)
  | other (scheme : Text)
  deriving DecidableEq

/-! ### Before the parser -/

def isTabOrNewline (c : Char) : Bool := c = '\t' || c = '\n' || c = '\r'

def isC0OrSpace (c : Char) : Bool := c.toNat ≤ 32

def kept (t : Text) : Text := t.filter fun c => !isTabOrNewline c

/-- Control characters and blanks at both ends are taken off, then tabs and ends of line anywhere. -/
def cleaned (t : Text) : Text := kept ((t.dropWhile isC0OrSpace).rdropWhile isC0OrSpace)

/-! ### The states -/

def isSlash (c : Char) : Bool := c = '/' || c = '\\'

def isSchemeChar (c : Char) : Bool := c.isAlphanum || c = '+' || c = '-' || c = '.'

/-- The scheme states: a scheme in lower case and the rest behind the colon. -/
def splitScheme (t : Text) : Option (Text × Text) :=
  match t.takeWhile isSchemeChar, t.dropWhile isSchemeChar with
  | c :: scheme, ':' :: rest => if c.isAlpha then some ((c :: scheme).map Char.toLower, rest) else none
  | _, _ => none

/-- The authority state: what stands behind the userinfo. -/
def hostPart (t : Text) : Option Text :=
  if '@' ∈ t then
    let back := (t.reverse.takeWhile (· ≠ '@')).reverse
    if back = [] then none else some back
  else some t

/-- The host state: a colon outside of brackets ends the host. -/
def splitPort (inBrackets : Bool) : Text → Text × Option Text
  | [] => ([], none)
  | c :: t =>
    if c = ':' ∧ inBrackets = false then ([], some t)
    else
      let rest := splitPort (if c = '[' then true else if c = ']' then false else inBrackets) t
      (c :: rest.1, rest.2)

/-- The port state. -/
def readPort (s : Scheme) (t : Text) : Option (Option Nat) :=
  let port := Nat.ofDigitChars 10 t 0
  if t = [] then some none
  else if !t.all Char.isDigit || 65535 < port then none
  else some (if port = s.defaultPort then none else some port)

section

variable (hostParser : Text → Option Text)

def readAuthority (s : Scheme) (t : Text) : Option Link := do
  let hostAndPort ← hostPart t
  let (host, port) := splitPort false hostAndPort
  if host = [] then none
  else
    let host ← hostParser host
    let port ← (port.map (readPort s)).getD (some none)
    some (.web ⟨s, host, port⟩)

/-- The state that ignores slashes in front of an authority. -/
def behindSlashes (s : Scheme) (t : Text) : Option Link :=
  readAuthority hostParser s ((t.dropWhile isSlash).takeWhile fun c => !(isSlash c || c = '?' || c = '#'))

/-- The relative states: two slashes begin an authority. -/
def relative (base : Base) (t : Text) : Option Link :=
  match t with
  | c :: d :: rest => if isSlash c && isSlash d then behindSlashes hostParser base.scheme rest else some (.web base)
  | _ => some (.web base)

/-- A link on a page with the address `base`; `none` is a failure. -/
def resolve (base : Base) (link : Text) : Option Link :=
  let t := cleaned link
  match splitScheme t with
  | none => relative hostParser base t
  | some (scheme, rest) =>
    if scheme = base.scheme.text then
      if ['/', '/'].isPrefixOf rest then behindSlashes hostParser base.scheme rest else relative hostParser base rest
    else
      match [Scheme.http, Scheme.https].find? (·.text = scheme) with
      | some s => behindSlashes hostParser s rest
      | none => some (.other scheme)

/-! ### Links that begin with a slash -/

theorem splitScheme_slash (t : Text) : splitScheme ('/' :: t) = none := by
  rw [splitScheme, List.takeWhile_cons_of_neg (by decide)]

/-- Only a second slash leads away from the host of the page. -/
theorem resolve_slash {link t : Text} (h : cleaned link = '/' :: t) (base : Base) :
    resolve hostParser base link =
      if t.head?.any isSlash then behindSlashes hostParser base.scheme t.tail else some (.web base) := by
  have hresolve : resolve hostParser base link = relative hostParser base ('/' :: t) := by
    unfold resolve
    rw [h]
    dsimp only
    rw [splitScheme_slash]
  rw [hresolve]
  cases t with
  | nil => rfl
  | cons d rest => rfl

/-- With a second slash it is not the page that decides where the link leads. -/
theorem stays_iff {link t : Text} (h : cleaned link = '/' :: t) :
    (∀ base, resolve hostParser base link = some (.web base)) ↔ t.head?.any isSlash = false := by
  constructor
  · intro hstays
    by_contra hslash
    rw [Bool.not_eq_false] at hslash
    have hleads : ∀ base : Base, behindSlashes hostParser base.scheme t.tail = some (.web base) := by
      intro base
      have hbase := hstays base
      rwa [resolve_slash hostParser h, if_pos hslash] at hbase
    have hsame := (hleads ⟨.http, "a".toList, none⟩).symm.trans (hleads ⟨.http, "b".toList, none⟩)
    simp at hsame
  · intro hslash base
    rw [resolve_slash hostParser h, hslash, if_neg Bool.false_ne_true]

end

/-! ### What cleaning leaves -/

theorem kept_append (s t : Text) : kept (s ++ t) = kept s ++ kept t := List.filter_append _ _

/-- What is taken off at the end is no slash. -/
theorem head_cleaned {t : Text} : ∃ s, cleaned ('/' :: t) = '/' :: s ∧ s.head?.any isSlash = (kept t).head?.any isSlash := by
  have hfront : ('/' :: t).dropWhile isC0OrSpace = '/' :: t := List.dropWhile_cons_of_neg (by decide)
  have hsplit : ('/' :: t).rdropWhile isC0OrSpace ++ ('/' :: t).rtakeWhile isC0OrSpace = '/' :: t :=
    List.rdropWhile_append_rtakeWhile
  have hends : ∀ c ∈ ('/' :: t).rtakeWhile isC0OrSpace, isC0OrSpace c = true := fun c hc => List.mem_rtakeWhile_imp hc
  rw [cleaned, hfront]
  generalize ('/' :: t).rdropWhile isC0OrSpace = body at hsplit ⊢
  generalize ('/' :: t).rtakeWhile isC0OrSpace = ends at hsplit hends
  cases body with
  | nil =>
    rw [List.nil_append] at hsplit
    exact absurd (hends '/' (hsplit ▸ List.mem_cons_self)) (by decide)
  | cons c s =>
    rw [List.cons_append, List.cons.injEq] at hsplit
    obtain ⟨rfl, hrest⟩ := hsplit
    refine ⟨kept s, rfl, ?_⟩
    rw [← hrest, kept_append]
    cases hs : kept s with
    | cons d rest => rfl
    | nil =>
      rw [List.nil_append]
      cases he : kept ends with
      | nil => rfl
      | cons d rest =>
        have hd : isC0OrSpace d = true := hends d (List.mem_of_mem_filter (he ▸ List.mem_cons_self : d ∈ kept ends))
        have hslash : isSlash d = false := by
          rw [isSlash, Bool.or_eq_false_iff, decide_eq_false_iff_not, decide_eq_false_iff_not]
          constructor
          · rintro rfl
            exact absurd hd (by decide)
          · rintro rfl
            exact absurd hd (by decide)
        exact hslash.symm

end ProxmoxTool.WebUrl
