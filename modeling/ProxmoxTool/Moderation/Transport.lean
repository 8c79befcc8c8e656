import ProxmoxTool.Lib.Url

/-!
# Requests to the instance

`_MastodonClientBase`: every request carries the bearer token.  The path of a request comes from the client's own methods, or it
is a `next` link that a response gave.  A link with a scheme must begin with the API URL and a slash; any other link is
appended to the API URL as it is, and what it adds to the authority decides where the token goes
(`token_stays_on_origin_iff`).
-/

namespace ProxmoxTool.Moderation.Transport

open Url

/-! ### The API URL -/

/-- `https://host[:port][/path]`. -/
structure ApiUrl where
  host : Text
  port : Option Text
  path : Text
  host_ok : IsHost host
  port_ok : ∀ digits ∈ port, digits ≠ [] ∧ ∀ c ∈ digits, c.isDigit = true
  path_ok : path = [] ∨ ∃ rest, path = '/' :: rest

namespace ApiUrl

def portText (api : ApiUrl) : Text := api.port.elim [] (':' :: ·)

def text (api : ApiUrl) : Text := authorityUrl api.host api.portText ++ api.path

/-- The number of the port. -/
def portNumber (api : ApiUrl) : Int := (readPort 443 api.portText).getD 443

/-- `__init__`. -/
def base (api : ApiUrl) : Text := rstripChar '/' api.text

theorem isPortText (api : ApiUrl) : IsPortText api.portText := by
  unfold portText
  cases hport : api.port with
  | none => exact Or.inl rfl
  | some digits => exact Or.inr ⟨digits, rfl, api.port_ok digits hport⟩

theorem readPort_portText (api : ApiUrl) : readPort 443 api.portText = some api.portNumber := by
  obtain ⟨port, hport⟩ : ∃ port, readPort 443 api.portText = some port := by
    rcases api.isPortText with hnil | ⟨digits, hdigits, hne, hall⟩
    · rw [hnil]
      exact ⟨443, rfl⟩
    · have hlast : splitLast digits = none := by
        have := splitLast_append (s := digits) ?_ []
        · rwa [List.append_nil] at this
        · intro c hc
          constructor
          · rintro rfl
            exact absurd (hall ':' hc) (by decide)
          · rintro rfl
            exact absurd (hall ']' hc) (by decide)
      rw [hdigits, readPort, splitLast, hlast]
      exact ⟨_, (if_neg hne).trans (parseInt_of_digits hne hall)⟩
  rw [portNumber, hport, Option.getD_some]

/-- The path without the slashes at its end. -/
def root (api : ApiUrl) : Text := rstripChar '/' api.path

theorem root_ok (api : ApiUrl) : api.root = [] ∨ ∃ rest, api.root = '/' :: rest := by
  unfold root rstripChar
  obtain ⟨s, hs⟩ := List.rdropWhile_prefix (fun c => decide (c = '/')) api.path
  change api.path.rdropWhile (fun c => decide (c = '/')) = [] ∨ ∃ rest, api.path.rdropWhile (fun c => decide (c = '/')) = '/' :: rest
  cases hroot : api.path.rdropWhile fun c => decide (c = '/') with
  | nil => exact Or.inl rfl
  | cons c rest =>
    rw [hroot] at hs
    rcases api.path_ok with hnil | ⟨rest', hrest'⟩
    · rw [hnil] at hs
      cases hs
    · rw [hrest', List.cons_append, List.cons.injEq] at hs
      exact Or.inr ⟨rest, by rw [hs.1]⟩

theorem base_eq (api : ApiUrl) : api.base = authorityUrl api.host api.portText ++ api.root := by
  have hlast := (getLast_authorityUrl api.host_ok api.isPortText).1
  simp only [List.mem_cons, not_or] at hlast
  exact rdropWhile_append (authorityUrl_ne_nil api.host api.portText) (decide_eq_false hlast.1) api.path

end ApiUrl

/-! ### Requests -/

inductive Lift
  | enable | unsilence | unsuspend | unsensitive

def Lift.text : Lift → Text
  | .enable => "enable".toList
  | .unsilence => "unsilence".toList
  | .unsuspend => "unsuspend".toList
  | .unsensitive => "unsensitive".toList

/-- The paths that the methods of the clients ask for. -/
inductive Endpoint
  | verifyCredentials
  | instanceV2
  | instanceV1
  | reports
  | report (id : Int)
  | resolveReport (id : Int)
  | reopenReport (id : Int)
  | accounts
  | account (id : Int)
  | approveAccount (id : Int)
  | rejectAccount (id : Int)
  | accountAction (id : Int)
  | liftAction (id : Int) (lift : Lift)
  | lookup
  | domainBlocks
  | domainBlock (id : Int)
  | accountStatuses (id : Int)
  | statuses

def Endpoint.path : Endpoint → Text
  | .verifyCredentials => "/api/v1/accounts/verify_credentials".toList
  | .instanceV2 => "/api/v2/instance".toList
  | .instanceV1 => "/api/v1/instance".toList
  | .reports => "/api/v1/admin/reports".toList
  | .report id => "/api/v1/admin/reports/".toList ++ intText id
  | .resolveReport id => "/api/v1/admin/reports/".toList ++ intText id ++ "/resolve".toList
  | .reopenReport id => "/api/v1/admin/reports/".toList ++ intText id ++ "/reopen".toList
  | .accounts => "/api/v2/admin/accounts".toList
  | .account id => "/api/v1/admin/accounts/".toList ++ intText id
  | .approveAccount id => "/api/v1/admin/accounts/".toList ++ intText id ++ "/approve".toList
  | .rejectAccount id => "/api/v1/admin/accounts/".toList ++ intText id ++ "/reject".toList
  | .accountAction id => "/api/v1/admin/accounts/".toList ++ intText id ++ "/action".toList
  | .liftAction id lift => "/api/v1/admin/accounts/".toList ++ intText id ++ ['/'] ++ lift.text
  | .lookup => "/api/v1/accounts/lookup".toList
  | .domainBlocks => "/api/v1/admin/domain_blocks".toList
  | .domainBlock id => "/api/v1/admin/domain_blocks/".toList ++ intText id
  | .accountStatuses id => "/api/v1/accounts/".toList ++ intText id ++ "/statuses".toList
  | .statuses => "/api/v1/statuses".toList

theorem Endpoint.path_eq_slash (endpoint : Endpoint) : ∃ rest, endpoint.path = '/' :: rest := by
  cases endpoint <;> exact ⟨_, rfl⟩

def httpScheme : Text := "http://".toList

def httpsScheme : Text := "https://".toList

/-- A path that `_request` takes as a whole URL. -/
def isUrl (path : Text) : Bool := httpScheme.isPrefixOf path || httpsScheme.isPrefixOf path

/-- The URL of `_request` without parameters; `none` if it refuses the path. -/
def startUrl (base path : Text) : Option Text :=
  if isUrl path then if (base ++ ['/']).isPrefixOf path then some path else none else some (base ++ path)

/-- The URL of `_request`, with the encoded parameters behind it. -/
def requestUrl (base path : Text) (query : Option Text) : Option Text :=
  (startUrl base path).map fun url => match query with
    | none => url
    | some query => url ++ (if '?' ∈ url then '&' else '?') :: query

/-- `_LINK_NEXT_RE` at the beginning of a text. -/
def linkNextHere : Text → Option Text
  | '<' :: t =>
    match t.takeWhile (· ≠ '>'), t.dropWhile (· ≠ '>') with
    | c :: link, '>' :: ';' :: rest => if "rel=\"next\"".toList.isPrefixOf (rest.dropWhile isSpace) then some (c :: link) else none
    | _, _ => none
  | _ => none

/-- `_LINK_NEXT_RE.search`. -/
def linkNext : Text → Option Text
  | [] => none
  | c :: t => (linkNextHere (c :: t)).or (linkNext t)

/-- What becomes of a request: it raises a `MastodonAPIError`, or there is JSON, and if it is a list the header `Link`. -/
inductive Response
  | failed
  | other
  | items (empty : Bool) (link : Text)

/-- A request that was sent: the path given to `_request`, whether that path is a link from a response, and the URL. -/
structure Sent where
  path : Text
  fromLink : Bool
  url : Text
  deriving DecidableEq

/-- One `_request`, if it is sent at all. -/
def request (base path : Text) (query : Option Text) (fromLink : Bool) : Option Sent := do
  let url ← requestUrl base path query
  let _ ← target url
  return { path, fromLink, url }

section

variable (base : Text) (server : Nat → Response)

/-- The requests of `_iter_pages` from a page on, when `sent` requests were sent before.  `enough` says after which page the caller
takes no further one. -/
def iterPages (enough : Nat → Bool) : Nat → Nat → Text → Option Text → Nat → List Sent
  | 0, _, _, _, _ => []
  | pages + 1, page, path, query, sent =>
    match request base path query (page ≠ 0) with
    | none => []
    | some s => s ::
      match server sent with
      | .items empty link =>
        match linkNext link with
        | some next => if enough page ∨ empty then [] else iterPages enough pages (page + 1) next none (sent + 1)
        | none => []
      | _ => []

/-- A call of `_request` or of `_iter_pages` by a method of a client. -/
inductive Call
  | single (endpoint : Endpoint) (query : Option Text)
  | pages (endpoint : Endpoint) (query : Text) (maxPages : Nat) (enough : Nat → Bool)

def Call.maxRequests : Call → Nat
  | .single _ _ => 1
  | .pages _ _ maxPages _ => maxPages

def Call.run (sent : Nat) : Call → List Sent
  | .single endpoint query => (request base endpoint.path query false).toList
  | .pages endpoint query maxPages enough => iterPages base server enough maxPages 0 endpoint.path (some query) sent

/-- A sequence of calls, each with its requests. -/
def runCalls : Nat → List Call → List (Call × List Sent)
  | _, [] => []
  | sent, call :: calls =>
    let requests := call.run base server sent
    (call, requests) :: runCalls (sent + requests.length) calls

end

/-! ### Where the token goes -/

namespace ApiUrl

/-- The request goes to the scheme, the host and the port of the API URL. -/
def OnOrigin (api : ApiUrl) (url : Text) : Prop :=
  ∀ tgt, target url = some tgt → tgt.scheme = https ∧ tgt.host = api.host ∧ tgt.port = api.portNumber

/-- A link that leaves the origin alone: it is a whole URL, or what it adds to the authority of the API URL is no more than another
way to write the port. -/
def Harmless (api : ApiUrl) (link : Text) : Prop :=
  isUrl link = true ∨ readPort 443 (api.portText ++ unquote (added (api.root ++ link))) = some api.portNumber

theorem onOrigin_iff (api : ApiUrl) {t : Text} {tgt : Target} (h : target (authorityUrl api.host api.portText ++ t) = some tgt) :
    api.OnOrigin (authorityUrl api.host api.portText ++ t) ↔
      readPort 443 (api.portText ++ unquote (added t)) = some api.portNumber := by
  rw [← target_append_iff api.host_ok api.isPortText h]
  constructor
  · exact fun hon => hon tgt h
  · intro hon tgt' h'
    cases h.symm.trans h'
    exact hon

/-- A slash ends the authority. -/
theorem onOrigin_slash (api : ApiUrl) (rest : Text) : api.OnOrigin (authorityUrl api.host api.portText ++ '/' :: rest) := by
  intro tgt h
  refine (api.onOrigin_iff h).2 ?_ tgt h
  rw [added_slash, unquote_nil, List.append_nil, api.readPort_portText]

theorem onOrigin_base_slash (api : ApiUrl) (rest : Text) : api.OnOrigin (api.base ++ '/' :: rest) := by
  rw [api.base_eq, List.append_assoc]
  rcases api.root_ok with hroot | ⟨rest', hroot⟩
  · rw [hroot, List.nil_append]
    exact api.onOrigin_slash rest
  · rw [hroot, List.cons_append]
    exact api.onOrigin_slash _

end ApiUrl

/-- The URL of a request, and what `_request` checked. -/
theorem request_eq_some {base path : Text} {query : Option Text} {fromLink : Bool} {s : Sent}
    (h : request base path query fromLink = some s) :
    s.path = path ∧ s.fromLink = fromLink ∧ (∃ tgt, target s.url = some tgt) ∧
      ∃ q, (query = none → q = []) ∧
        (isUrl path = true ∧ (∃ rest, s.url = base ++ '/' :: rest) ∨ isUrl path = false ∧ s.url = base ++ path ++ q) := by
  obtain ⟨url, hurl, h⟩ := Option.bind_eq_some_iff.1 h
  obtain ⟨tgt, htgt, h⟩ := Option.bind_eq_some_iff.1 h
  cases h
  refine ⟨rfl, rfl, ⟨tgt, htgt⟩, ?_⟩
  obtain ⟨start, hstart, hurl⟩ := Option.map_eq_some_iff.1 hurl
  obtain ⟨q, hq, rfl⟩ : ∃ q, (query = none → q = []) ∧ url = start ++ q := by
    cases query with
    | none => exact ⟨[], fun _ => rfl, by rw [List.append_nil]; exact hurl.symm⟩
    | some query => exact ⟨(if '?' ∈ start then '&' else '?') :: query, fun hnone => (nomatch hnone), hurl.symm⟩
  unfold startUrl at hstart
  refine ⟨q, hq, ?_⟩
  split at hstart
  · rename_i hisUrl
    split at hstart
    · rename_i hprefix
      cases hstart
      obtain ⟨rest, hrest⟩ := List.isPrefixOf_iff_prefix.1 hprefix
      exact Or.inl ⟨hisUrl, rest ++ q, by simp [← hrest]⟩
    · cases hstart
  · rename_i hisUrl
    cases hstart
    exact Or.inr ⟨eq_false_of_ne_true hisUrl, rfl⟩

/-- A request of a method goes to the origin. -/
theorem onOrigin_of_endpoint (api : ApiUrl) {path : Text} (hpath : ∃ rest, path = '/' :: rest) {query : Option Text}
    {fromLink : Bool} {s : Sent} (h : request api.base path query fromLink = some s) : api.OnOrigin s.url := by
  obtain ⟨-, -, -, q, -, ⟨-, rest, hurl⟩ | ⟨-, hurl⟩⟩ := request_eq_some h
  · rw [hurl]
    exact api.onOrigin_base_slash rest
  · obtain ⟨rest, rfl⟩ := hpath
    rw [hurl, List.append_assoc, List.cons_append]
    exact api.onOrigin_base_slash _

/-- A request that follows a link goes to the origin exactly if the link is harmless. -/
theorem onOrigin_of_link (api : ApiUrl) {link : Text} {fromLink : Bool} {s : Sent} (h : request api.base link none fromLink = some s) :
    api.OnOrigin s.url ↔ api.Harmless link := by
  obtain ⟨-, -, ⟨tgt, htgt⟩, q, hq, ⟨hisUrl, rest, hurl⟩ | ⟨hisUrl, hurl⟩⟩ := request_eq_some h
  · rw [hurl]
    exact iff_of_true (api.onOrigin_base_slash rest) (Or.inl hisUrl)
  · rw [hq rfl, List.append_nil, api.base_eq, List.append_assoc] at hurl
    rw [hurl] at htgt ⊢
    rw [api.onOrigin_iff htgt, ApiUrl.Harmless, hisUrl]
    exact (or_iff_right Bool.false_ne_true).symm

/-- What is known of one request. -/
def Sent.Judged (api : ApiUrl) (s : Sent) : Prop := api.OnOrigin s.url ↔ (s.fromLink = true → api.Harmless s.path)

theorem iterPages_judged (api : ApiUrl) (server : Nat → Response) (enough : Nat → Bool) {pages page : Nat} {path : Text}
    {query : Option Text} {sent : Nat} (hpath : page = 0 ∧ (∃ rest, path = '/' :: rest) ∨ page ≠ 0 ∧ query = none) :
    (∀ s ∈ iterPages api.base server enough pages page path query sent, s.Judged api) ∧
      (iterPages api.base server enough pages page path query sent).length ≤ pages := by
  induction pages generalizing page path query sent with
  | zero => exact ⟨fun s hs => absurd hs List.not_mem_nil, Nat.le_refl _⟩
  | succ pages ih =>
    rw [iterPages]
    split
    · exact ⟨fun s hs => absurd hs List.not_mem_nil, Nat.zero_le _⟩
    · rename_i s hs
      obtain ⟨hspath, hsfrom, -⟩ := request_eq_some hs
      have hjudged : s.Judged api := by
        unfold Sent.Judged
        rw [hspath, hsfrom]
        rcases hpath with ⟨hzero, hrest⟩ | ⟨hpos, rfl⟩
        · have hon := onOrigin_of_endpoint api hrest hs
          exact iff_of_true hon fun hlink => absurd hzero (of_decide_eq_true hlink)
        · rw [onOrigin_of_link api hs]
          exact ⟨fun h _ => h, fun h => h (decide_eq_true hpos)⟩
      have hone : (∀ r ∈ [s], r.Judged api) ∧ [s].length ≤ pages + 1 :=
        ⟨fun r hr => by rw [List.mem_singleton.1 hr]; exact hjudged, by simp⟩
      split
      · split
        · split
          · exact hone
          · rename_i next hnext hmore
            obtain ⟨hrest, hlength⟩ := @ih (page + 1) next none (sent + 1)
              (Or.inr ⟨Nat.succ_ne_zero page, rfl⟩)
            refine ⟨fun r hr => ?_, Nat.succ_le_succ hlength⟩
            rcases List.mem_cons.1 hr with rfl | hr
            · exact hjudged
            · exact hrest r hr
        · exact hone
      · exact hone

theorem run_judged (api : ApiUrl) (server : Nat → Response) (sent : Nat) (call : Call) :
    (∀ s ∈ call.run api.base server sent, s.Judged api) ∧ (call.run api.base server sent).length ≤ call.maxRequests := by
  cases call with
  | single endpoint query =>
    change (∀ s ∈ (request api.base endpoint.path query false).toList, s.Judged api) ∧
      (request api.base endpoint.path query false).toList.length ≤ 1
    cases hs : request api.base endpoint.path query false with
    | none => exact ⟨fun s hs => absurd hs List.not_mem_nil, by simp⟩
    | some s =>
      refine ⟨fun r hr => ?_, Nat.le_refl _⟩
      obtain rfl := List.mem_singleton.1 hr
      obtain ⟨-, hfrom, -⟩ := request_eq_some hs
      refine iff_of_true (onOrigin_of_endpoint api endpoint.path_eq_slash hs) fun hlink => ?_
      rw [hfrom] at hlink
      cases hlink
  | pages endpoint query maxPages enough => exact iterPages_judged api server enough (Or.inl ⟨rfl, endpoint.path_eq_slash⟩)

theorem runCalls_judged (api : ApiUrl) (server : Nat → Response) (sent : Nat) (calls : List Call) :
    ∀ r ∈ runCalls api.base server sent calls, (∀ s ∈ r.2, s.Judged api) ∧ r.2.length ≤ r.1.maxRequests := by
  induction calls generalizing sent with
  | nil => exact fun r hr => absurd hr List.not_mem_nil
  | cons call calls ih =>
    intro r hr
    rcases List.mem_cons.1 hr with rfl | hr
    · exact run_judged api server sent call
    · exact ih _ r hr

/-- Over any calls and any responses, the token stays on the origin of the API URL exactly if every link followed is harmless;
and no listing takes more requests than its number of pages. -/
theorem token_stays_on_origin_iff (api : ApiUrl) (server : Nat → Response) (calls : List Call) :
    (∀ r ∈ runCalls api.base server 0 calls, (∀ s ∈ r.2, api.OnOrigin s.url) ∧ r.2.length ≤ r.1.maxRequests) ↔
      ∀ r ∈ runCalls api.base server 0 calls, ∀ s ∈ r.2, s.fromLink = true → api.Harmless s.path := by
  have hjudged := runCalls_judged api server 0 calls
  constructor
  · intro h r hr s hs
    exact ((hjudged r hr).1 s hs).1 ((h r hr).1 s hs)
  · intro h r hr
    exact ⟨fun s hs => ((hjudged r hr).1 s hs).2 (h r hr s hs), (hjudged r hr).2⟩

/-! ### A link that begins with a dot -/

def socialExample : ApiUrl where
  host := "social.example".toList
  port := none
  path := []
  host_ok := ⟨by decide +kernel, by simp [isSpace, isControl]⟩
  port_ok := by simp
  path_ok := Or.inl rfl

/-- A list with a `next` link into the domain of another. -/
def dotServer : Nat → Response := fun _ => .items false "<.evil.example/api?max_id=1>; rel=\"next\"".toList

def listReports : Call := .pages .reports "resolved=false&limit=100".toList 5 (fun _ => false)

theorem token_leaves_origin :
    ¬ ∀ r ∈ runCalls socialExample.base dotServer 0 [listReports],
      (∀ s ∈ r.2, socialExample.OnOrigin s.url) ∧ r.2.length ≤ r.1.maxRequests := by
  intro h
  have hsent : ∃ r ∈ runCalls socialExample.base dotServer 0 [listReports], ∃ s ∈ r.2,
      s.url = "https://social.example.evil.example/api?max_id=1".toList := by
    unfold dotServer listReports
    repeat rw [String.toList_ofList]
    decide +kernel
  have htarget : target "https://social.example.evil.example/api?max_id=1".toList =
      some ⟨https, "social.example.evil.example".toList, 443, "/api?max_id=1".toList⟩ := by
    rw [String.toList_ofList, String.toList_ofList, String.toList_ofList]
    decide +kernel
  obtain ⟨r, hr, s, hs, hurl⟩ := hsent
  rw [← hurl] at htarget
  have hhost := ((h r hr).1 s hs _ htarget).2.1
  exact absurd hhost (by decide +kernel)

end ProxmoxTool.Moderation.Transport
