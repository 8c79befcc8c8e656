import ProxmoxTool.Lib.Json
import ProxmoxTool.Lib.Utf8

/-!
# Where a URL leads

How Python's `urllib.request` and `http.client` read a URL: what `Request` takes as scheme, authority and selector, and what a
connection takes of the authority as host and port.  Userinfo is not known to them: it stays a part of the host.  `target`
is `none` where they raise before anything is sent.

The host and the port of a URL `https://host[:port]` with more text behind it are decided by what that text adds to the authority
(`target_append_iff`).
-/

namespace ProxmoxTool.Url

open Utf8

/-- `unquote`, where `pending` are the bytes of the ASCII characters since the last other one. -/
def unquoteFrom (pending : Bytes) : Text → Text
  | '%' :: a :: b :: t =>
    match Json.hexDigit a, Json.hexDigit b with
    | some x, some y => unquoteFrom (pending ++ [UInt8.ofNat (x * 16 + y)]) t
    | _, _ => unquoteFrom (pending ++ [37]) (a :: b :: t)
  | c :: t =>
    if c.toNat < 128 then unquoteFrom (pending ++ [UInt8.ofNat c.toNat]) t
    else decodeReplace pending ++ c :: unquoteFrom [] t
  | [] => decodeReplace pending

def unquote (t : Text) : Text := unquoteFrom [] t

/-- `unwrap`. -/
def unwrap (url : Text) : Text :=
  let url := strip url
  let url := if url.head? = some '<' ∧ url.getLast? = some '>' then strip url.tail.dropLast else url
  if ['U', 'R', 'L', ':'].isPrefixOf url then strip (url.drop 4) else url

/-- `_splittag`: what stands before the last `#`. -/
def splitTag : Text → Text
  | [] => []
  | c :: t => if '#' ∈ t then c :: splitTag t else if c = '#' then [] else c :: t

/-- `_splittype`. -/
def splitType (url : Text) : Option (Text × Text) :=
  match url.takeWhile (fun c => c ≠ '/' ∧ c ≠ ':'), url.dropWhile (fun c => c ≠ '/' ∧ c ≠ ':') with
  | c :: scheme, ':' :: rest => some ((c :: scheme).map Char.toLower, rest)
  | _, _ => none

/-- A character of the authority. -/
def inAuthority (c : Char) : Bool := c ≠ '/' && c ≠ '#' && c ≠ '?'

/-- The path as `_splithost` gives it. -/
def selector : Text → Text
  | [] => []
  | c :: t => if c = '/' then c :: t else '/' :: c :: t

/-- `_splithost`. -/
def splitHost : Text → Option (Text × Text)
  | '/' :: '/' :: t => some (t.takeWhile inAuthority, selector (t.dropWhile inAuthority))
  | _ => none

/-- The last colon or closing bracket. -/
def splitLast : Text → Option (Text × Char × Text)
  | [] => none
  | c :: t =>
    match splitLast t with
    | some (front, sep, back) => some (c :: front, sep, back)
    | none => if c = ':' ∨ c = ']' then some ([], c, t) else none

def unbracket (host : Text) : Text :=
  if host.head? = some '[' ∧ host.getLast? = some ']' then host.tail.dropLast else host

/-- `_get_hostport`. -/
def hostPort (default : Int) (authority : Text) : Option (Text × Int) :=
  match splitLast authority with
  | none => some (unbracket authority, default)
  | some (front, sep, digits) =>
    if sep = ':' then
      if digits = [] then some (unbracket front, default) else (parseInt digits).map fun port => (unbracket front, port)
    else some (unbracket authority, default)

/-- A space or a control character: no host and no path of a request may have one. -/
def isControl (c : Char) : Bool := c.toNat ≤ 32 || c.toNat = 127

structure Target where
  scheme : Text
  host : Text
  port : Int
  selector : Text
  deriving DecidableEq

def defaultPort (scheme : Text) : Option Int :=
  if scheme = ['h', 't', 't', 'p', 's'] then some 443 else if scheme = ['h', 't', 't', 'p'] then some 80 else none

/-- Whom a request for the URL is sent to. -/
def target (url : Text) : Option Target := do
  let (scheme, rest) ← splitType (splitTag (unwrap url))
  let default ← defaultPort scheme
  let (authority, selector) ← splitHost rest
  if authority = [] then none
  else
    let (host, port) ← hostPort default (unquote authority)
    if host.any isControl || selector.any (fun c => isControl c || 128 ≤ c.toNat) then none
    else some { scheme, host, port, selector }

/-! ### Percent-decoding -/

theorem unquoteFrom_append (q : Text) (bs : Bytes) (t : Text) : unquoteFrom (encode q ++ bs) t = q ++ unquoteFrom bs t := by
  fun_induction unquoteFrom bs t with
  | case1 bs a b t x y ha hb ih =>
    rw [unquoteFrom, ha, hb]
    dsimp only
    rw [List.append_assoc, ih]
  | case2 bs a b t hab ih =>
    rw [unquoteFrom]
    split
    · rename_i x y ha hb
      exact absurd hb (hab x y ha)
    · rw [List.append_assoc, ih]
  | case3 bs c t hpct hascii ih =>
    rw [unquoteFrom, if_pos hascii, List.append_assoc, ih]
    exact hpct
  | case4 bs c t hpct hascii ih =>
    rw [unquoteFrom, if_neg hascii, decodeReplace_encode_append, List.append_assoc]
    exact hpct
  | case5 bs => rw [unquoteFrom, decodeReplace_encode_append]

private theorem unquoteFrom_cons {c : Char} (hc : c ≠ '%') (bs : Bytes) (t : Text) : unquoteFrom bs (c :: t) =
    if c.toNat < 128 then unquoteFrom (bs ++ [UInt8.ofNat c.toNat]) t else decodeReplace bs ++ c :: unquoteFrom [] t := by
  rw [unquoteFrom]
  intro a b t' h
  exact absurd h hc

private theorem encode_ascii {c : Char} (h : c.toNat < 128) : encode [c] = [UInt8.ofNat c.toNat] := by
  have hval : c.val.toNat ≤ 127 := Nat.le_of_lt_succ h
  rw [encode, List.flatMap_singleton, String.utf8EncodeChar]
  rw [if_pos hval]
  rfl

/-- What has no escapes is left as it is. -/
theorem unquote_append {s : Text} (h : '%' ∉ s) (t : Text) : unquote (s ++ t) = s ++ unquote t := by
  unfold unquote
  induction s with
  | nil => rfl
  | cons c s ih =>
    rw [List.mem_cons, not_or] at h
    rw [List.cons_append, unquoteFrom_cons (Ne.symm h.1), List.cons_append]
    split
    · rename_i hascii
      rw [List.nil_append, ← encode_ascii hascii, ← List.append_nil (encode [c]), unquoteFrom_append, ih h.2, List.singleton_append]
    · rw [ih h.2]
      rfl

@[simp] theorem unquote_nil : unquote [] = [] := rfl

/-! ### Host and port -/

theorem splitLast_append {s : Text} (h : ∀ c ∈ s, c ≠ ':' ∧ c ≠ ']') (t : Text) :
    splitLast (s ++ t) = (splitLast t).map fun p => (s ++ p.1, p.2) := by
  induction s with
  | nil =>
    rw [List.nil_append]
    cases splitLast t with
    | none => rfl
    | some p => rfl
  | cons c s ih =>
    rw [List.cons_append, splitLast, ih fun d hd => h d (by simp [hd])]
    cases splitLast t with
    | none =>
      have hc := h c (by simp)
      simp [hc]
    | some p => rfl

/-- A host name: not empty, and without the characters that mean something in a URL. -/
structure IsHost (host : Text) : Prop where
  ne_nil : host ≠ []
  plain : ∀ c ∈ host, c ∉ ['/', '?', '#', ':', '[', ']', '%'] ∧ isSpace c = false ∧ isControl c = false

/-- The port that the text behind a host gives; `none` if that text is more than a port. -/
def readPort (default : Int) (t : Text) : Option Int :=
  match splitLast t with
  | none => if t = [] then some default else none
  | some (front, sep, digits) =>
    if front = [] ∧ sep = ':' then if digits = [] then some default else parseInt digits else none

theorem IsHost.unbracket_append {host : Text} (h : IsHost host) (t : Text) : unbracket (host ++ t) = host ++ t := by
  obtain ⟨c, rest, rfl⟩ := List.exists_cons_of_ne_nil h.ne_nil
  have hc : c ≠ '[' := by
    rintro rfl
    exact (h.plain '[' (by simp)).1 (by simp)
  unfold unbracket
  rw [if_neg]
  rintro ⟨hhead, -⟩
  exact hc (Option.some.inj hhead)

/-- The connection is for the host itself exactly if the text behind it is a port. -/
theorem IsHost.hostPort_append {host : Text} (h : IsHost host) {default port : Int} {t host' : Text} {port' : Int}
    (heq : hostPort default (host ++ t) = some (host', port')) : host' = host ∧ port' = port ↔ readPort default t = some port := by
  have hsep : ∀ c ∈ host, c ≠ ':' ∧ c ≠ ']' := by
    intro c hc
    have := (h.plain c hc).1
    simp only [List.mem_cons, not_or] at this
    exact ⟨this.2.2.2.1, this.2.2.2.2.2.1⟩
  have hself : ∀ {s : Text}, host ++ s = host ↔ s = [] := List.append_right_eq_self
  unfold hostPort at heq
  rw [splitLast_append hsep] at heq
  unfold readPort
  cases hlast : splitLast t with
  | none =>
    rw [hlast, Option.map_none] at heq
    dsimp only
    rw [h.unbracket_append] at heq
    cases heq
    rw [hself]
    split
    · rename_i hnil
      simp [hnil]
    · rename_i hnil
      simp [hnil]
  | some p =>
    obtain ⟨front, sep, digits⟩ := p
    rw [hlast, Option.map_some] at heq
    dsimp only at heq ⊢
    by_cases hcolon : sep = ':'
    · subst hcolon
      rw [if_pos rfl, h.unbracket_append] at heq
      split at heq
      · rename_i hdigits
        cases heq
        rw [hself]
        by_cases hfront : front = []
        · simp [hfront, hdigits]
        · simp [hfront]
      · rename_i hdigits
        obtain ⟨n, hn, hpair⟩ := Option.map_eq_some_iff.1 heq
        cases hpair
        rw [hself]
        by_cases hfront : front = []
        · simp [hfront, hdigits, hn]
        · simp [hfront]
    · have hne : t ≠ [] := by
        rintro rfl
        cases hlast
      rw [if_neg (fun hcond => hcolon hcond.2)]
      rw [if_neg hcolon, h.unbracket_append] at heq
      cases heq
      rw [hself]
      simp [hne]

/-! ### Text behind `https://host[:port]` -/

/-- What a text adds to the authority it is appended to. -/
def added (t : Text) : Text := (splitTag (t.rdropWhile isSpace)).takeWhile inAuthority

theorem splitTag_append {s : Text} (h : '#' ∉ s) (t : Text) : splitTag (s ++ t) = s ++ splitTag t := by
  induction s with
  | nil => rfl
  | cons c s ih =>
    rw [List.mem_cons, not_or] at h
    rw [List.cons_append, splitTag]
    split
    · rw [ih h.2, List.cons_append]
    · rename_i hno
      rw [if_neg (Ne.symm h.1), List.cons_append]
      have hself : ∀ {r : Text}, '#' ∉ r → splitTag r = r := by
        intro r hr
        cases r with
        | nil => rfl
        | cons d r =>
          rw [List.mem_cons, not_or] at hr
          rw [splitTag, if_neg hr.2, if_neg (Ne.symm hr.1)]
      rw [hself fun hmem => hno (List.mem_append_right s hmem)]

theorem added_slash (t : Text) : added ('/' :: t) = [] := by
  have hhead : ∃ t', ('/' :: t).rdropWhile isSpace = '/' :: t' := by
    obtain ⟨s, hs⟩ := List.rdropWhile_prefix isSpace ('/' :: t)
    cases hr : List.rdropWhile isSpace ('/' :: t) with
    | nil =>
      rw [List.rdropWhile_eq_nil_iff] at hr
      exact absurd (hr '/' (by simp)) (by decide)
    | cons d t' =>
      rw [hr, List.cons_append, List.cons.injEq] at hs
      exact ⟨t', by rw [hs.1]⟩
  obtain ⟨t', ht'⟩ := hhead
  unfold added
  rw [ht', ← List.singleton_append, splitTag_append (by decide)]
  rfl

theorem rdropWhile_append {p : Char → Bool} {s : Text} (hne : s ≠ []) (hlast : p (s.getLast hne) = false) (t : Text) :
    (s ++ t).rdropWhile p = s ++ t.rdropWhile p := by
  induction t using List.reverseRecOn with
  | nil =>
    rw [List.append_nil, List.rdropWhile_nil, List.append_nil, List.rdropWhile_eq_self_iff]
    intro _
    simp [hlast]
  | append_singleton t c ih =>
    rw [← List.append_assoc, List.rdropWhile_concat, List.rdropWhile_concat]
    split
    · exact ih
    · rw [List.append_assoc]

def https : Text := ['h', 't', 't', 'p', 's']

/-- A port in a URL, with its colon; it may be missing. -/
def IsPortText (portText : Text) : Prop :=
  portText = [] ∨ ∃ digits, portText = ':' :: digits ∧ digits ≠ [] ∧ ∀ c ∈ digits, c.isDigit = true

theorem IsPortText.plain {portText : Text} (h : IsPortText portText) :
    ∀ c ∈ portText, c ∉ ['/', '?', '#', '%'] ∧ isSpace c = false := by
  rcases h with rfl | ⟨digits, rfl, -, hdigits⟩
  · exact fun c hc => absurd hc List.not_mem_nil
  · intro c hc
    rcases List.mem_cons.1 hc with rfl | hc
    · exact ⟨by decide, by decide⟩
    · refine ⟨?_, isSpace_of_isDigit (hdigits c hc)⟩
      have hdigit := hdigits c hc
      intro hmem
      simp only [List.mem_cons, List.not_mem_nil, or_false] at hmem
      rcases hmem with rfl | rfl | rfl | rfl <;> exact absurd hdigit (by decide)

theorem authority_plain {host portText : Text} (hhost : IsHost host) (hport : IsPortText portText) :
    ∀ c ∈ host ++ portText, c ∉ ['/', '?', '#', '%'] ∧ isSpace c = false := by
  intro c hc
  rcases List.mem_append.1 hc with hc | hc
  · obtain ⟨hnot, hspace, -⟩ := hhost.plain c hc
    simp only [List.mem_cons, List.not_mem_nil, or_false, not_or] at hnot ⊢
    exact ⟨⟨hnot.1, hnot.2.1, hnot.2.2.1, hnot.2.2.2.2.2.2⟩, hspace⟩
  · exact hport.plain c hc

/-- The beginning `https://host[:port]` of a URL. -/
def authorityUrl (host portText : Text) : Text := https ++ [':', '/', '/'] ++ (host ++ portText)

theorem authorityUrl_ne_nil (host portText : Text) : authorityUrl host portText ≠ [] := by
  unfold authorityUrl https
  exact List.cons_ne_nil _ _

theorem getLast_authorityUrl {host portText : Text} (hhost : IsHost host) (hport : IsPortText portText) :
    (authorityUrl host portText).getLast (authorityUrl_ne_nil host portText) ∉ ['/', '?', '#', '%'] ∧
      isSpace ((authorityUrl host portText).getLast (authorityUrl_ne_nil host portText)) = false := by
  have hne : host ++ portText ≠ [] := fun hnil => hhost.ne_nil (List.append_eq_nil_iff.1 hnil).1
  have hlast : (authorityUrl host portText).getLast (authorityUrl_ne_nil host portText) = (host ++ portText).getLast hne :=
    List.getLast_append_of_ne_nil _ hne
  rw [hlast]
  exact authority_plain hhost hport _ (List.getLast_mem hne)

/-- Whom a URL `https://host[:port]` with more text behind it leads to. -/
theorem target_append_iff {host portText : Text} (hhost : IsHost host) (hport : IsPortText portText) {t : Text} {tgt : Target}
    (h : target (authorityUrl host portText ++ t) = some tgt) {port : Int} :
    (tgt.scheme = https ∧ tgt.host = host ∧ tgt.port = port) ↔ readPort 443 (portText ++ unquote (added t)) = some port := by
  have hplain := authority_plain hhost hport
  have hnot : ∀ d ∈ ['/', '?', '#', '%'], d ∉ host ++ portText := fun d hd hmem => (hplain d hmem).1 hd
  -- the white space behind the URL goes, the fragment goes
  have hunwrap : unwrap (authorityUrl host portText ++ t) = authorityUrl host portText ++ t.rdropWhile isSpace := by
    have hstrip : strip (authorityUrl host portText ++ t) = authorityUrl host portText ++ t.rdropWhile isSpace :=
      rdropWhile_append (authorityUrl_ne_nil host portText) (getLast_authorityUrl hhost hport).2 t
    unfold unwrap
    rw [hstrip]
    rfl
  have htag : splitTag (authorityUrl host portText ++ t.rdropWhile isSpace) =
      authorityUrl host portText ++ splitTag (t.rdropWhile isSpace) := by
    refine splitTag_append ?_ _
    unfold authorityUrl
    rw [List.mem_append, not_or]
    exact ⟨by decide, hnot '#' (by simp)⟩
  have hauthority : (host ++ portText ++ splitTag (t.rdropWhile isSpace)).takeWhile inAuthority = host ++ portText ++ added t := by
    rw [List.takeWhile_append_of_pos]
    · rfl
    · intro c hc
      have := (hplain c hc).1
      simp only [List.mem_cons, List.not_mem_nil, or_false, not_or] at this
      simp [inAuthority, this]
  have hunquote : unquote (host ++ portText ++ added t) = host ++ (portText ++ unquote (added t)) := by
    rw [unquote_append (hnot '%' (by simp)), List.append_assoc]
  unfold target at h
  rw [hunwrap, htag] at h
  obtain ⟨p, htype, h⟩ := Option.bind_eq_some_iff.1 h
  have htype' : splitType (authorityUrl host portText ++ splitTag (t.rdropWhile isSpace)) =
      some (https, '/' :: '/' :: (host ++ portText ++ splitTag (t.rdropWhile isSpace))) := rfl
  obtain rfl := Option.some.inj (htype'.symm.trans htype)
  obtain ⟨default, hdefault, h⟩ := Option.bind_eq_some_iff.1 h
  obtain rfl : 443 = default := Option.some.inj hdefault
  obtain ⟨p, hsplit, h⟩ := Option.bind_eq_some_iff.1 h
  obtain rfl := Option.some.inj hsplit
  dsimp only at h
  split at h
  · cases h
  obtain ⟨p, hhostport, h⟩ := Option.bind_eq_some_iff.1 h
  split at h
  · cases h
  cases h
  rw [hauthority, hunquote] at hhostport
  rw [← hhost.hostPort_append hhostport]
  exact and_iff_right rfl

end ProxmoxTool.Url
