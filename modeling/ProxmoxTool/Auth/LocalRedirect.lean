import ProxmoxTool.Lib.Dict
import ProxmoxTool.Lib.UrlParse

/-!
# Redirects to pages of the application

`resolve_local_url`: the path of the target is matched against the URL map and the URL is built anew with `url_for`, which gets the query as
keyword arguments.

A query key `endpoint` is no such argument: `url_for` has one of this name, and the call raises a `TypeError`.  And where the application is
mounted below a path, the path of a canonical redirect is matched with the mount point in front of it.  `sound_iff` says what is left: the
target is resolved as it should be unless one of the two happens, or a converter or the split of the redirect raises.
-/

namespace ProxmoxTool.LocalRedirect

open Url UrlParse

/-- `adapter.match`; `valueError` if a converter raises one that is no `ValidationError`, as `int` does for more than 4300 digits. -/
inductive Match (V : Type)
  | served (endpoint : Text) (values : Dict Text V)
  | requestRedirect (newUrl : Text)
  | httpException
  | valueError

inductive PyError
  | typeError
  | valueError

/-- A request, and what the framework makes of it: the URL map and the path that `url_for` builds (`none` for a `BuildError`). -/
structure Site (V : Type) where
  netlocOk : Text → Bool
  lower : Text → Text
  host : Text
  scriptRoot : Text
  route : Text → Match V
  buildPath : Text → Dict Text V → Option Text

/-- `_RESERVED_URL_FOR_KWARGS`. -/
def reservedUrlForKwargs : List Text := ["_external".toList, "_anchor".toList, "_method".toList, "_scheme".toList]

/-- The other parameter of `url_for`. -/
def endpointName : Text := "endpoint".toList

def staticEndpoint : Text := "static".toList

/-- What `url_for` leaves of a query as it is. -/
def querySafe : Text := "!$'()*,/:;?@".toList

def keys {W : Type} (d : List (Text × W)) : List Text := d.map Prod.fst

/-- The path below the mount point. -/
def belowRoot (scriptRoot path : Text) : Text :=
  if scriptRoot = [] then path
  else if path = scriptRoot then ['/']
  else if (scriptRoot ++ ['/']).isPrefixOf path then path.drop scriptRoot.length
  else path

section

variable {V : Type} (site : Site V)

/-- The rounds of `_match_route`. -/
def Site.matchRoute : Nat → Text → Except PyError (Option (Text × Dict Text V))
  | 0, _ => .ok none
  | rounds + 1, path =>
    match site.route path with
    | .served endpoint values => .ok (some (endpoint, values))
    | .requestRedirect newUrl =>
      match urlsplit site.netlocOk newUrl with
      | none => .error .valueError
      | some parts => Site.matchRoute rounds (unquote parts.path)
    | .httpException => .ok none
    | .valueError => .error .valueError

/-- The path and the query of a target on this host. -/
def Site.locate (target : Text) : Option (Text × Text) :=
  let target := strip target
  if target = [] then none
  else
    match urlsplit site.netlocOk target with
    | none => none
    | some parts =>
      let scheme := parts.scheme.map Char.toLower
      if (parts.scheme ≠ [] ∨ parts.netloc ≠ []) ∧
          (scheme ∉ ["http".toList, "https".toList] ∨ site.lower parts.netloc ≠ site.lower site.host) then none
      else
        let path := if unquote parts.path = [] then ['/'] else unquote parts.path
        if path.head? ≠ some '/' ∨ path.tail.head? = some '/' then none
        else some (belowRoot site.scriptRoot path, parts.query)

/-- A round of the loop over the query. -/
def keepParam (values : Dict Text V) (query : Dict Text Text) (param : Text × Text) : Dict Text Text :=
  if param.1 ∈ keys values ∨ param.1 ∈ reservedUrlForKwargs ∨ param.1 ∈ keys query then query else Dict.set query param.1 param.2

def keptQuery (values : Dict Text V) (params : List (Text × Text)) : Dict Text Text := params.foldl (keepParam values) []

/-- `url_for(endpoint, **values, **query)`; the builders that Werkzeug generates also fail on a query key `.self`. -/
def Site.urlFor (endpoint : Text) (values : Dict Text V) (query : Dict Text Text) : Except PyError (Option Text) :=
  if endpointName ∈ keys values ∨ endpointName ∈ keys query then .error .typeError
  else .ok ((site.buildPath endpoint values).map fun path => withQuery (site.scriptRoot ++ path) (urlencode querySafe query))

/-- `resolve_local_url`. -/
def Site.resolveLocalUrl (target : Text) : Except PyError (Option Text) :=
  match site.locate target with
  | none => .ok none
  | some (path, query) =>
    match site.matchRoute 2 path with
    | .error e => .error e
    | .ok none => .ok none
    | .ok (some (endpoint, values)) =>
      if endpoint = staticEndpoint then .ok none
      else site.urlFor endpoint values (keptQuery values (parseQsl query))

/-- What the framework documents: the path built for what a path was matched to is matched to the same, it is quoted and begins with one
slash, and the variables of the routes have not the names of the parameters of `url_for`.  An empty authority is a valid one. -/
structure Site.Framework : Prop where
  netlocOk_nil : site.netlocOk [] = true
  build_served : ∀ path endpoint values built, site.route path = .served endpoint values → site.buildPath endpoint values = some built →
    site.route (unquote built) = .served endpoint values
  build_slash : ∀ endpoint values built, site.buildPath endpoint values = some built →
    ∃ rest, built = '/' :: rest ∧ (unquote rest).head? ≠ some '/'
  build_quoted : ∀ endpoint values built, site.buildPath endpoint values = some built →
    ∀ c ∈ built, (33 ≤ c.toNat ∧ c.toNat ≤ 126) ∧ c ≠ '#' ∧ c ≠ '?'
  names : ∀ path endpoint values, site.route path = .served endpoint values → endpointName ∉ keys values

/-- A mount point that needs no quoting. -/
structure PlainRoot (scriptRoot : Text) : Prop where
  slash : scriptRoot = [] ∨ ∃ rest, scriptRoot = '/' :: rest ∧ rest ≠ [] ∧ rest.head? ≠ some '/'
  plain : ∀ c ∈ scriptRoot, (33 ≤ c.toNat ∧ c.toNat ≤ 126) ∧ c ≠ '#' ∧ c ≠ '?'
  unescaped : '%' ∉ scriptRoot

/-- The view that a path leads to, by itself or by the redirect to its canonical form. -/
def Site.Serves (path endpoint : Text) (values : Dict Text V) : Prop :=
  site.route path = .served endpoint values ∨
    ∃ newUrl parts, site.route path = .requestRedirect newUrl ∧ urlsplit site.netlocOk newUrl = some parts ∧
      site.route (belowRoot site.scriptRoot (unquote parts.path)) = .served endpoint values

/-- A URL that leads where the target does. -/
structure Site.Local (target url : Text) : Prop where
  slash : ∃ rest, url = site.scriptRoot ++ '/' :: rest ∧ rest.head? ≠ some '/'
  same : ∃ path query endpoint values path' query', site.locate target = some (path, query) ∧ site.Serves path endpoint values ∧
    site.locate url = some (path', query') ∧ site.route path' = .served endpoint values ∧ ∀ p ∈ parseQsl query', p ∈ parseQsl query
  again : site.resolveLocalUrl url = .ok (some url)

/-- The target is resolved to such a URL or to nothing. -/
def Site.Sound (target : Text) : Prop :=
  ∃ result, site.resolveLocalUrl target = .ok result ∧ ∀ url ∈ result, site.Local target url

/-- What may come of the path of a canonical redirect. -/
def Site.RedirectOk (query : Text) (path : Text) : Prop :=
  match site.route path with
  | .served endpoint values => endpoint = staticEndpoint ∨ endpointName ∉ keys (parseQsl query) ∧
      (site.buildPath endpoint values = none ∨ site.route (belowRoot site.scriptRoot path) = .served endpoint values)
  | .requestRedirect newUrl => urlsplit site.netlocOk newUrl ≠ none
  | .httpException => True
  | .valueError => False

/-- No query key `endpoint` for a page of the application, nothing raised by a converter or by the split of a redirect, and no other page at
the path of a redirect with the mount point in front. -/
def Site.TargetOk (target : Text) : Prop :=
  ∀ path query, site.locate target = some (path, query) →
    match site.route path with
    | .served endpoint _ => endpoint = staticEndpoint ∨ endpointName ∉ keys (parseQsl query)
    | .requestRedirect newUrl => ∃ parts, urlsplit site.netlocOk newUrl = some parts ∧ site.RedirectOk query (unquote parts.path)
    | .httpException => True
    | .valueError => False

end

/-! ### The query -/

section

variable {V : Type} {site : Site V} {values : Dict Text V}

theorem querySafe_chars : SafeChars querySafe := by
  constructor
  · exact forall_mem_of_all (by decide)
  · exact forall_mem_of_all (by decide)

theorem not_mem_reserved_endpointName : endpointName ∉ reservedUrlForKwargs := by decide

/-- The names that may stand in the query. -/
structure Kept (values : Dict Text V) (query : Dict Text Text) : Prop where
  nodup : (keys query).Nodup
  free : ∀ key ∈ keys query, key ∉ keys values ∧ key ∉ reservedUrlForKwargs

/-- A parameter is left out, or it is added at the end. -/
theorem keepParam_cases (values : Dict Text V) (query : Dict Text Text) (param : Text × Text) :
    (param.1 ∈ keys values ∨ param.1 ∈ reservedUrlForKwargs ∨ param.1 ∈ keys query) ∧ keepParam values query param = query ∨
      param.1 ∉ keys values ∧ param.1 ∉ reservedUrlForKwargs ∧ param.1 ∉ keys query ∧ keepParam values query param = query ++ [param] := by
  unfold keepParam
  split_ifs with htaken
  · exact .inl ⟨htaken, rfl⟩
  · rw [not_or, not_or] at htaken
    exact .inr ⟨htaken.1, htaken.2.1, htaken.2.2, Dict.set_of_not_mem htaken.2.2 param.2⟩

theorem Kept.keepParam {query : Dict Text Text} (h : Kept values query) (param : Text × Text) : Kept values (keepParam values query param) := by
  rcases keepParam_cases values query param with ⟨-, heq⟩ | ⟨hvalues, hreserved, hquery, heq⟩
  · rw [heq]
    exact h
  · rw [heq]
    constructor
    · rw [keys, List.map_append, List.map_singleton, List.nodup_append]
      refine ⟨h.nodup, List.nodup_singleton _, fun a ha b hb => ?_⟩
      rw [List.mem_singleton.1 hb]
      exact fun hab => hquery (hab ▸ ha)
    · intro key hkey
      rw [keys, List.map_append, List.map_singleton, List.mem_append, List.mem_singleton] at hkey
      rcases hkey with hkey | rfl
      · exact h.free key hkey
      · exact ⟨hvalues, hreserved⟩

theorem foldl_kept {query : Dict Text Text} (h : Kept values query) (params : List (Text × Text)) :
    Kept values (params.foldl (keepParam values) query) := by
  induction params generalizing query with
  | nil => exact h
  | cons param params ih => exact ih (h.keepParam param)

theorem keptQuery_kept (values : Dict Text V) (params : List (Text × Text)) : Kept values (keptQuery values params) := by
  have hnil : Kept values [] := ⟨List.nodup_nil, fun _ hkey => nomatch hkey⟩
  exact foldl_kept hnil params

theorem mem_foldl_keepParam {query : Dict Text Text} {params : List (Text × Text)} {p : Text × Text}
    (h : p ∈ params.foldl (keepParam values) query) : p ∈ query ∨ p ∈ params := by
  induction params generalizing query with
  | nil => exact .inl h
  | cons param params ih =>
    rcases ih h with hquery | hparams
    · rcases keepParam_cases values query param with ⟨-, heq⟩ | ⟨-, -, -, heq⟩
      · exact .inl (heq ▸ hquery)
      · rw [heq, List.mem_append, List.mem_singleton] at hquery
        rcases hquery with hquery | rfl
        · exact .inl hquery
        · exact .inr List.mem_cons_self
    · exact .inr (List.mem_cons_of_mem _ hparams)

theorem mem_keptQuery {params : List (Text × Text)} {p : Text × Text} (h : p ∈ keptQuery values params) : p ∈ params :=
  (mem_foldl_keepParam h).resolve_left (List.not_mem_nil)

theorem foldl_of_kept {query params : Dict Text Text} (h : Kept values (query ++ params)) :
    params.foldl (keepParam values) query = query ++ params := by
  induction params generalizing query with
  | nil => rw [List.foldl_nil, List.append_nil]
  | cons param params ih =>
    have happend : query ++ param :: params = query ++ [param] ++ params := by rw [List.append_assoc, List.singleton_append]
    have hfree := h.free param.1 (by simp [keys])
    have hnew : param.1 ∉ keys query := by
      have hnodup := h.nodup
      rw [keys, List.map_append, List.map_cons, List.nodup_append] at hnodup
      exact fun hmem => hnodup.2.2 _ hmem _ List.mem_cons_self rfl
    rcases keepParam_cases values query param with ⟨htaken, -⟩ | ⟨-, -, -, heq⟩
    · exact absurd htaken (not_or.2 ⟨hfree.1, not_or.2 ⟨hfree.2, hnew⟩⟩)
    · rw [List.foldl_cons, heq, happend]
      exact ih (happend ▸ h)

/-- A query that was kept is kept again. -/
theorem keptQuery_of_kept {query : Dict Text Text} (h : Kept values query) : keptQuery values query = query := by
  have hfold : keptQuery values query = [] ++ query := foldl_of_kept h
  rwa [List.nil_append] at hfold

theorem endpointName_mem_foldl {query : Dict Text Text} {params : List (Text × Text)} (hvalues : endpointName ∉ keys values)
    (h : endpointName ∈ keys query ∨ endpointName ∈ keys params) : endpointName ∈ keys (params.foldl (keepParam values) query) := by
  induction params generalizing query with
  | nil => exact h.resolve_right List.not_mem_nil
  | cons param params ih =>
    refine ih ?_
    have hcons : keys (param :: params) = param.1 :: keys params := rfl
    rw [hcons, List.mem_cons] at h
    rcases keepParam_cases values query param with ⟨htaken, heq⟩ | ⟨-, -, -, heq⟩
    · rw [heq]
      rcases h with hquery | hname | hparams
      · exact .inl hquery
      · rw [← hname] at htaken
        exact .inl ((htaken.resolve_left hvalues).resolve_left not_mem_reserved_endpointName)
      · exact .inr hparams
    · rw [heq, keys, List.map_append, List.map_singleton, List.mem_append, List.mem_singleton]
      rcases h with hquery | hname | hparams
      · exact .inl (.inl hquery)
      · exact .inl (.inr hname)
      · exact .inr hparams

/-- The key `endpoint` is not left out. -/
theorem endpointName_mem_keptQuery_iff (hvalues : endpointName ∉ keys values) {params : List (Text × Text)} :
    endpointName ∈ keys (keptQuery values params) ↔ endpointName ∈ keys params := by
  constructor
  · intro h
    obtain ⟨p, hp, hkey⟩ := List.mem_map.1 h
    exact List.mem_map.2 ⟨p, mem_keptQuery hp, hkey⟩
  · exact fun h => endpointName_mem_foldl hvalues (.inr h)

/-! ### A URL that was built -/

theorem belowRoot_append (scriptRoot rest : Text) : belowRoot scriptRoot (scriptRoot ++ '/' :: rest) = '/' :: rest := by
  unfold belowRoot
  split_ifs with hnil heq hprefix
  · rw [hnil, List.nil_append]
  · rw [List.append_right_eq_self] at heq
    cases heq
  · exact List.drop_left' rfl
  · refine absurd ?_ hprefix
    rw [List.isPrefixOf_iff_prefix]
    exact ⟨rest, by rw [List.append_assoc, List.singleton_append]⟩

theorem unquote_slash (t : Text) : unquote ('/' :: t) = '/' :: unquote t := unquote_append (s := ['/']) (by decide) t

theorem head_of_unquote {rest : Text} (h : (unquote rest).head? ≠ some '/') : rest.head? ≠ some '/' := by
  cases rest with
  | nil => exact h
  | cons c t =>
    intro hhead
    obtain rfl : c = '/' := Option.some.inj hhead
    exact h (by rw [unquote_slash]; rfl)

/-- A URL that was built is on this host, and below the mount point it has the path that was built. -/
theorem locate_built (hsite : site.Framework) (hroot : PlainRoot site.scriptRoot) {endpoint built : Text} {query : Dict Text Text}
    (hbuilt : site.buildPath endpoint values = some built) :
    site.locate (withQuery (site.scriptRoot ++ built) (urlencode querySafe query)) = some (unquote built, urlencode querySafe query) := by
  obtain ⟨rest, rfl, hrest⟩ := hsite.build_slash _ _ _ hbuilt
  have hwhole : unquote (site.scriptRoot ++ '/' :: rest) = site.scriptRoot ++ '/' :: unquote rest := by
    rw [unquote_append hroot.unescaped, unquote_slash]
  have hplain : ∀ c ∈ site.scriptRoot ++ '/' :: rest, (33 ≤ c.toNat ∧ c.toNat ≤ 126) ∧ c ≠ '#' ∧ c ≠ '?' := by
    intro c hc
    rcases List.mem_append.1 hc with hc | hc
    · exact hroot.plain c hc
    · exact hsite.build_quoted _ _ _ hbuilt c hc
  -- a text that begins as the mount point does, or as the path if there is none
  have hstart : ∀ t : Text, t.head? ≠ some '/' →
      (site.scriptRoot ++ '/' :: t).head? = some '/' ∧ (site.scriptRoot ++ '/' :: t).tail.head? ≠ some '/' := by
    intro t ht
    rcases hroot.slash with hnil | ⟨r, hr, hne, hsecond⟩
    · rw [hnil]
      exact ⟨rfl, ht⟩
    · rw [hr]
      refine ⟨rfl, ?_⟩
      obtain ⟨c, r, rfl⟩ := List.exists_cons_of_ne_nil hne
      exact hsecond
  have hslash := head_of_unquote hrest
  have hquery : ∀ c ∈ urlencode querySafe query, (33 ≤ c.toNat ∧ c.toNat ≤ 126) ∧ c ≠ '#' := fun c => plain_of_mem_urlencode querySafe_chars
  have hsplit := urlsplit_local hsite.netlocOk_nil (hstart rest hslash).1 (hstart rest hslash).2 hplain hquery
  have hstrip : strip (withQuery (site.scriptRoot ++ '/' :: rest) (urlencode querySafe query)) =
      withQuery (site.scriptRoot ++ '/' :: rest) (urlencode querySafe query) := by
    refine strip_of_forall_not_space fun c hc => isSpace_of_between ?_
    unfold withQuery at hc
    split_ifs at hc
    · exact (hplain c hc).1
    · rcases List.mem_append.1 hc with hc | hc
      · exact (hplain c hc).1
      · rcases List.mem_cons.1 hc with rfl | hc
        · decide
        · exact (hquery c hc).1
  have hne : withQuery (site.scriptRoot ++ '/' :: rest) (urlencode querySafe query) ≠ [] := by
    unfold withQuery
    split_ifs
    · simp
    · simp
  obtain ⟨hhead, hsecond⟩ := hstart (unquote rest) hrest
  have hpath : (if site.scriptRoot ++ '/' :: unquote rest = [] then ['/'] else site.scriptRoot ++ '/' :: unquote rest) =
      site.scriptRoot ++ '/' :: unquote rest := if_neg (by simp)
  unfold Site.locate
  dsimp only
  rw [hstrip, if_neg hne, hsplit]
  dsimp only
  rw [if_neg (by simp), hwhole, hpath, if_neg (not_or.2 ⟨not_not.2 hhead, hsecond⟩), belowRoot_append, unquote_slash]

/-- What `url_for` gives leads where the path leads that was matched, and is resolved to itself. -/
theorem local_built (hsite : site.Framework) (hroot : PlainRoot site.scriptRoot) {target path query endpoint matched built : Text}
    (htarget : site.locate target = some (path, query)) (hserves : site.Serves path endpoint values)
    (hmatched : site.route matched = .served endpoint values) (hstatic : endpoint ≠ staticEndpoint)
    (hendpoint : endpointName ∉ keys (parseQsl query)) (hbuilt : site.buildPath endpoint values = some built) :
    site.Local target (withQuery (site.scriptRoot ++ built) (urlencode querySafe (keptQuery values (parseQsl query)))) := by
  have hnames := hsite.names _ _ _ hmatched
  have hlocate : site.locate (withQuery (site.scriptRoot ++ built) (urlencode querySafe (keptQuery values (parseQsl query)))) =
      some (unquote built, urlencode querySafe (keptQuery values (parseQsl query))) := locate_built hsite hroot hbuilt
  have hroute := hsite.build_served _ _ _ _ hmatched hbuilt
  have hread := parseQsl_urlencode querySafe_chars (keptQuery values (parseQsl query))
  refine ⟨?_, ⟨path, query, endpoint, values, _, _, htarget, hserves, hlocate, hroute, fun p hp => ?_⟩, ?_⟩
  · obtain ⟨rest, rfl, hrest⟩ := hsite.build_slash _ _ _ hbuilt
    have hslash := head_of_unquote hrest
    unfold withQuery
    split_ifs
    · exact ⟨rest, rfl, hslash⟩
    · refine ⟨rest ++ '?' :: urlencode querySafe (keptQuery values (parseQsl query)), by rw [List.append_assoc, List.cons_append], ?_⟩
      cases rest with
      | nil => simp
      | cons c u => exact hslash
  · rw [hread] at hp
    exact mem_keptQuery hp
  · have hkept : endpointName ∉ keys (keptQuery values (parseQsl query)) := fun hmem => hendpoint ((endpointName_mem_keptQuery_iff hnames).1 hmem)
    have hmatch : site.matchRoute 2 (unquote built) = .ok (some (endpoint, values)) := by
      rw [Site.matchRoute, hroute]
    unfold Site.resolveLocalUrl
    rw [hlocate]
    dsimp only
    rw [hmatch]
    dsimp only
    rw [if_neg hstatic, hread, keptQuery_of_kept (keptQuery_kept values _), Site.urlFor, if_neg (not_or.2 ⟨hnames, hkept⟩), hbuilt]
    rfl

/-! ### When a target is resolved as it should be -/

/-- What the call of `url_for` comes to. -/
theorem urlFor_cases (site : Site V) (hnames : endpointName ∉ keys values) (endpoint query : Text) :
    endpointName ∈ keys (parseQsl query) ∧ site.urlFor endpoint values (keptQuery values (parseQsl query)) = .error .typeError ∨
      endpointName ∉ keys (parseQsl query) ∧ site.urlFor endpoint values (keptQuery values (parseQsl query)) =
        .ok ((site.buildPath endpoint values).map fun built =>
          withQuery (site.scriptRoot ++ built) (urlencode querySafe (keptQuery values (parseQsl query)))) := by
  have hkept : endpointName ∈ keys (keptQuery values (parseQsl query)) ↔ endpointName ∈ keys (parseQsl query) :=
    endpointName_mem_keptQuery_iff hnames
  unfold Site.urlFor
  split_ifs with hendpoint
  · exact .inl ⟨hkept.1 (hendpoint.resolve_left hnames), rfl⟩
  · exact .inr ⟨fun hmem => hendpoint (.inr (hkept.2 hmem)), rfl⟩

section

variable {target path query endpoint matched : Text}

theorem resolveLocalUrl_matched (htarget : site.locate target = some (path, query))
    (hmatch : site.matchRoute 2 path = .ok (some (endpoint, values))) :
    site.resolveLocalUrl target =
      if endpoint = staticEndpoint then .ok none else site.urlFor endpoint values (keptQuery values (parseQsl query)) := by
  unfold Site.resolveLocalUrl
  rw [htarget]
  dsimp only
  rw [hmatch]

theorem resolveLocalUrl_unmatched (htarget : site.locate target = some (path, query)) (hmatch : site.matchRoute 2 path = .ok none) :
    site.resolveLocalUrl target = .ok none := by
  unfold Site.resolveLocalUrl
  rw [htarget]
  dsimp only
  rw [hmatch]

theorem resolveLocalUrl_error (htarget : site.locate target = some (path, query)) {e : PyError} (hmatch : site.matchRoute 2 path = .error e) :
    site.resolveLocalUrl target = .error e := by
  unfold Site.resolveLocalUrl
  rw [htarget]
  dsimp only
  rw [hmatch]

theorem sound_of_none (h : site.resolveLocalUrl target = .ok none) : site.Sound target := ⟨none, h, fun _ hurl => nomatch hurl⟩

theorem not_sound_of_error {e : PyError} (h : site.resolveLocalUrl target = .error e) : ¬site.Sound target := by
  rintro ⟨result, hresult, -⟩
  rw [h] at hresult
  cases hresult

/-- Behind a match, with the view that the path leads to. -/
theorem sound_matched_iff (hsite : site.Framework) (hroot : PlainRoot site.scriptRoot) (htarget : site.locate target = some (path, query))
    (hmatch : site.matchRoute 2 path = .ok (some (endpoint, values))) (hmatched : site.route matched = .served endpoint values) :
    site.Sound target ↔ endpoint = staticEndpoint ∨ endpointName ∉ keys (parseQsl query) ∧
      (site.buildPath endpoint values = none ∨ site.Serves path endpoint values) := by
  have hnames := hsite.names _ _ _ hmatched
  have hresolve := resolveLocalUrl_matched htarget hmatch
  by_cases hstatic : endpoint = staticEndpoint
  · rw [if_pos hstatic] at hresolve
    exact iff_of_true (sound_of_none hresolve) (.inl hstatic)
  · rw [if_neg hstatic] at hresolve
    rcases urlFor_cases site hnames endpoint query with ⟨hendpoint, hurl⟩ | ⟨hendpoint, hurl⟩
    · refine iff_of_false (not_sound_of_error (hresolve.trans hurl)) ?_
      rintro (heq | ⟨hnot, -⟩)
      · exact hstatic heq
      · exact hnot hendpoint
    · rw [hurl] at hresolve
      cases hbuilt : site.buildPath endpoint values with
      | none =>
        rw [hbuilt] at hresolve
        exact iff_of_true (sound_of_none hresolve) (.inr ⟨hendpoint, .inl rfl⟩)
      | some built =>
        rw [hbuilt] at hresolve
        constructor
        · rintro ⟨result, hresult, hlocal⟩
          rw [hresolve, Except.ok.injEq] at hresult
          obtain ⟨path₀, query₀, endpoint', values', path', query', htarget', hserves, hlocate, hroute, -⟩ := (hlocal _ hresult.symm).same
          -- the URL that was built leads to the view it was built for, so this is the view of the target
          rw [htarget, Option.some.injEq, Prod.mk.injEq] at htarget'
          rw [locate_built hsite hroot hbuilt, Option.some.injEq, Prod.mk.injEq] at hlocate
          rw [← hlocate.1, hsite.build_served _ _ _ _ hmatched hbuilt, Match.served.injEq] at hroute
          rw [← htarget'.1, ← hroute.1, ← hroute.2] at hserves
          exact .inr ⟨hendpoint, .inr hserves⟩
        · rintro (heq | ⟨-, hnone | hserves⟩)
          · exact absurd heq hstatic
          · cases hnone
          · refine ⟨_, hresolve, fun url hurl => ?_⟩
            obtain rfl := Option.some.inj hurl
            exact local_built hsite hroot htarget hserves hmatched hstatic hendpoint hbuilt

end

end

/-- Two pages, one of them with a slash at the end. -/
def twoPages : Site Nat where
  netlocOk _ := true
  lower t := t.map Char.toLower
  host := "localhost".toList
  scriptRoot := []
  route path :=
    if path = "/login".toList then .served "auth.login".toList []
    else if path = "/hosts/".toList then .served "hosts.index".toList []
    else if path = "/hosts".toList then .requestRedirect "http://localhost/hosts/".toList
    else .httpException
  buildPath endpoint _ :=
    if endpoint = "auth.login".toList then some "/login".toList
    else if endpoint = "hosts.index".toList then some "/hosts/".toList
    else none

theorem twoPages_framework : twoPages.Framework := by
  have hbuilt : ∀ {endpoint values built}, twoPages.buildPath endpoint values = some built → built = "/login".toList ∨ built = "/hosts/".toList := by
    intro endpoint values built h
    unfold twoPages at h
    dsimp only at h
    split_ifs at h
    · exact .inl (Option.some.inj h).symm
    · exact .inr (Option.some.inj h).symm
  have hserved : ∀ {path endpoint values}, twoPages.route path = .served endpoint values →
      values = [] ∧ (endpoint = "auth.login".toList ∨ endpoint = "hosts.index".toList) := by
    intro path endpoint values h
    unfold twoPages at h
    dsimp only at h
    split_ifs at h
    · obtain ⟨rfl, rfl⟩ := Match.served.inj h
      exact ⟨rfl, .inl rfl⟩
    · obtain ⟨rfl, rfl⟩ := Match.served.inj h
      exact ⟨rfl, .inr rfl⟩
  refine ⟨rfl, fun path endpoint values built hroute hpath => ?_, fun endpoint values built hpath => ?_, fun endpoint values built hpath => ?_,
    fun path endpoint values hroute => ?_⟩
  · obtain ⟨rfl, rfl | rfl⟩ := hserved hroute
    · obtain rfl : "/login".toList = built := Option.some.inj hpath
      rfl
    · obtain rfl : "/hosts/".toList = built := Option.some.inj hpath
      rfl
  · rcases hbuilt hpath with rfl | rfl
    · exact ⟨"login".toList, rfl, by decide⟩
    · exact ⟨"hosts/".toList, rfl, by decide⟩
  · rcases hbuilt hpath with rfl | rfl
    · exact forall_mem_of_all (by decide)
    · exact forall_mem_of_all (by decide)
  · rw [(hserved hroute).1]
    exact List.not_mem_nil

/-- The query key `endpoint` is the endpoint once more for `url_for`. -/
theorem endpoint_key_raises : twoPages.resolveLocalUrl "/login?endpoint=x".toList = .error .typeError ∧
    ¬twoPages.Sound "/login?endpoint=x".toList := by
  have herror : twoPages.resolveLocalUrl "/login?endpoint=x".toList = .error .typeError := rfl
  exact ⟨herror, not_sound_of_error herror⟩

/-- A target is resolved to a URL that leads to the same page with some of its query, or to nothing, exactly if it has no query key `endpoint`
for a page of the application, a canonical redirect leads to no other page when the mount point is left in front of its path, and neither a
converter nor the split of the redirect raises. -/
theorem sound_iff {V : Type} (site : Site V) (hsite : site.Framework) (hroot : PlainRoot site.scriptRoot) (target : Text) :
    site.Sound target ↔ site.TargetOk target := by
  cases hlocate : site.locate target with
  | none =>
    have hresolve : site.resolveLocalUrl target = .ok none := by
      unfold Site.resolveLocalUrl
      rw [hlocate]
    refine iff_of_true (sound_of_none hresolve) fun path query h => ?_
    rw [hlocate] at h
    cases h
  | some located =>
    obtain ⟨path, query⟩ := located
    have honly : ∀ P : Text → Text → Prop, (∀ p q, some (path, query) = some (p, q) → P p q) ↔ P path query := by
      intro P
      constructor
      · exact fun h => h path query rfl
      · rintro h p q heq
        obtain ⟨rfl, rfl⟩ := Prod.mk.inj (Option.some.inj heq)
        exact h
    unfold Site.TargetOk
    rw [hlocate, honly]
    cases hroute : site.route path with
    | served endpoint values =>
      have hmatch : site.matchRoute 2 path = .ok (some (endpoint, values)) := by rw [Site.matchRoute, hroute]
      rw [sound_matched_iff hsite hroot hlocate hmatch hroute]
      have hserves : site.Serves path endpoint values := .inl hroute
      dsimp only
      rw [and_iff_left (.inr hserves)]
    | requestRedirect newUrl =>
      dsimp only
      cases hsplit : urlsplit site.netlocOk newUrl with
      | none =>
        have hmatch : site.matchRoute 2 path = .error .valueError := by
          rw [Site.matchRoute, hroute]
          dsimp only
          rw [hsplit]
        refine iff_of_false (not_sound_of_error (resolveLocalUrl_error hlocate hmatch)) ?_
        rintro ⟨parts, hparts, -⟩
        cases hparts
      | some parts =>
        have hmatch : site.matchRoute 2 path = site.matchRoute 1 (unquote parts.path) := by
          rw [Site.matchRoute, hroute]
          dsimp only
          rw [hsplit]
        have hparts : (∃ parts', some parts = some parts' ∧ site.RedirectOk query (unquote parts'.path)) ↔
            site.RedirectOk query (unquote parts.path) := by
          constructor
          · rintro ⟨parts', heq, h⟩
            rwa [Option.some.inj heq]
          · exact fun h => ⟨parts, rfl, h⟩
        rw [hparts]
        unfold Site.RedirectOk
        cases hagain : site.route (unquote parts.path) with
        | served endpoint values =>
          have hfound : site.matchRoute 2 path = .ok (some (endpoint, values)) := by rw [hmatch, Site.matchRoute, hagain]
          rw [sound_matched_iff hsite hroot hlocate hfound hagain]
          have hserves : site.Serves path endpoint values ↔
              site.route (belowRoot site.scriptRoot (unquote parts.path)) = .served endpoint values := by
            unfold Site.Serves
            constructor
            · rintro (hserved | ⟨newUrl', parts', hredirect, hsplit', hserved⟩)
              · rw [hroute] at hserved
                cases hserved
              · rw [hroute, Match.requestRedirect.injEq] at hredirect
                rw [← hredirect, hsplit, Option.some.injEq] at hsplit'
                rw [hsplit']
                exact hserved
            · exact fun h => .inr ⟨newUrl, parts, hroute, hsplit, h⟩
          dsimp only
          rw [hserves]
        | requestRedirect newUrl' =>
          dsimp only
          cases hsplit' : urlsplit site.netlocOk newUrl' with
          | none =>
            have herror : site.matchRoute 2 path = .error .valueError := by
              rw [hmatch, Site.matchRoute, hagain]
              dsimp only
              rw [hsplit']
            exact iff_of_false (not_sound_of_error (resolveLocalUrl_error hlocate herror)) fun h => h rfl
          | some parts' =>
            have hnone : site.matchRoute 2 path = .ok none := by
              rw [hmatch, Site.matchRoute, hagain]
              dsimp only
              rw [hsplit']
              rfl
            exact iff_of_true (sound_of_none (resolveLocalUrl_unmatched hlocate hnone)) (Option.some_ne_none _)
        | httpException =>
          have hnone : site.matchRoute 2 path = .ok none := by rw [hmatch, Site.matchRoute, hagain]
          exact iff_of_true (sound_of_none (resolveLocalUrl_unmatched hlocate hnone)) trivial
        | valueError =>
          have herror : site.matchRoute 2 path = .error .valueError := by rw [hmatch, Site.matchRoute, hagain]
          exact iff_of_false (not_sound_of_error (resolveLocalUrl_error hlocate herror)) not_false
    | httpException =>
      have hnone : site.matchRoute 2 path = .ok none := by rw [Site.matchRoute, hroute]
      exact iff_of_true (sound_of_none (resolveLocalUrl_unmatched hlocate hnone)) trivial
    | valueError =>
      have herror : site.matchRoute 2 path = .error .valueError := by rw [Site.matchRoute, hroute]
      exact iff_of_false (not_sound_of_error (resolveLocalUrl_error hlocate herror)) not_false

theorem twoPages_sound_iff : twoPages.resolveLocalUrl "/hosts?page=2&endpoint_id=ö".toList = .ok (some "/hosts/?page=2&endpoint_id=%C3%B6".toList) ∧
    (twoPages.Sound "/hosts?page=2&endpoint_id=ö".toList ↔ twoPages.TargetOk "/hosts?page=2&endpoint_id=ö".toList) :=
  ⟨rfl, sound_iff twoPages twoPages_framework ⟨.inl rfl, fun _ hc => (nomatch hc), List.not_mem_nil⟩ _⟩

end ProxmoxTool.LocalRedirect
