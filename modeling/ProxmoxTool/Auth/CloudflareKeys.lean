import ProxmoxTool.Lib.System
import ProxmoxTool.Lib.Text
import Mathlib.Algebra.Order.Group.Defs
import Mathlib.Algebra.Order.Ring.Int
import Mathlib.Tactic.Common

/-!
# The keys behind Cloudflare tokens

`_fetch_jwks` and `validate_cf_token` of `auth/cloudflare_access.py`.  One cache of keys serves the whole process, whatever the team
domain; a call that finds no fresh keys asks the endpoint of its own domain, and meanwhile other calls may begin and end.  A run
has the calls in any order, with any domains, audiences, answers of the endpoints and clock readings.

The log of fetches says which keys each endpoint has returned; the cache always has those of the latest (`Inv.cached`).  As long as
no call is answered from the cache with the keys of another domain, the law of the tokens holds: `own_keys_run`.
-/

namespace ProxmoxTool.Cloudflare

/-- `JWKS_CACHE_TTL` and `JWKS_STALE_MAX_AGE`. -/
structure Config (T : Type) [AddCommGroup T] [LinearOrder T] where
  ttl : T
  staleMaxAge : T
  ttl_nonneg : 0 ≤ ttl
  ttl_le : ttl ≤ staleMaxAge

def defaults : Config ℤ := ⟨3600, 86400, by decide, by decide⟩

inductive Decoded (Payload : Type)
  | payload (p : Payload)
  | invalidSignature
  | expiredSignature
  | invalidAudience
  | otherException

/-- PyJWT: `decode` with RS256 for an audience and an issuer, at a time, which keys `PyJWKSet` takes, and what there is to say of a
token. -/
structure PyJwt (Token Jwk Payload T : Type) where
  decode : Token → Jwk → Text → Text → T → Decoded Payload
  usable : Jwk → Bool
  /-- The token has an RS256 signature of this key. -/
  Verifies : Token → Jwk → Prop
  audiences : Token → List Text
  issuer : Token → Option Text
  expiry : Token → Option T
  /-- The claims about the times of issue and of the beginning allow the token. -/
  Begun : Token → T → Prop
  payload : Token → Payload

section

variable {Token Jwk Payload T : Type} [LinearOrder T]

def issuerOf (domain : Text) : Text := "https://".toList ++ domain

/-- The token is signed with the key, for this audience and by the issuer of this domain, and is not expired. -/
structure PyJwt.Valid (py : PyJwt Token Jwk Payload T) (token : Token) (key : Jwk) (audience domain : Text) (clock : T) : Prop where
  signed : py.Verifies token key
  audience : audience ∈ py.audiences token
  issuer : py.issuer token = some (issuerOf domain)
  notExpired : ∀ e ∈ py.expiry token, clock < e
  begun : py.Begun token clock

/-- What is documented of PyJWT. -/
structure PyJwt.Documented (py : PyJwt Token Jwk Payload T) : Prop where
  payload_iff : ∀ token key audience domain clock p, py.decode token key audience (issuerOf domain) clock = .payload p ↔
    py.Valid token key audience domain clock ∧ p = py.payload token
  expired : ∀ token key audience issuer clock, py.decode token key audience issuer clock = .expiredSignature →
    ∃ e ∈ py.expiry token, e ≤ clock
  audience : ∀ token key audience issuer clock, py.decode token key audience issuer clock = .invalidAudience →
    audience ∉ py.audiences token
  usable : ∀ token key, py.Verifies token key → py.usable key = true

/-! ### `validate_cf_token` with given keys -/

inductive Result (Payload : Type)
  | payload (p : Payload)
  /-- A `ValueError`. -/
  | refused (message : Text)
  /-- Any other exception. -/
  | raised

variable (py : PyJwt Token Jwk Payload T)

/-- The loop over the keys. -/
def tryKeys (token : Token) (audience issuer : Text) (clock : T) : List Jwk → Result Payload
  | [] => .refused "Token signature could not be verified with any key".toList
  | key :: keys => match py.decode token key audience issuer clock with
    | .payload p => .payload p
    | .invalidSignature => tryKeys token audience issuer clock keys
    | .expiredSignature => .refused "Token has expired".toList
    | .invalidAudience => .refused "Invalid audience".toList
    | .otherException => tryKeys token audience issuer clock keys

/-- `validate_cf_token` after `_fetch_jwks`; a set without a usable key raises. -/
def validateWith (jwks : List Jwk) (token : Token) (audience domain : Text) (clock : T) : Result Payload :=
  if jwks.isEmpty then .refused "Could not fetch Cloudflare public keys".toList
  else if (jwks.filter py.usable).isEmpty then .raised
  else tryKeys py token audience (issuerOf domain) clock (jwks.filter py.usable)

variable {py} {token : Token} {audience domain : Text} {clock : T}

theorem valid_of_tryKeys (hdoc : py.Documented) {keys : List Jwk} {p : Payload}
    (h : tryKeys py token audience (issuerOf domain) clock keys = .payload p) :
    ∃ key ∈ keys, py.Valid token key audience domain clock := by
  induction keys with
  | nil => cases h
  | cons key keys ih =>
    rw [tryKeys] at h
    split at h
    · rename_i hdecode
      exact ⟨key, List.mem_cons_self, ((hdoc.payload_iff ..).1 hdecode).1⟩
    · obtain ⟨key', hmem, hvalid⟩ := ih h
      exact ⟨key', List.mem_cons_of_mem key hmem, hvalid⟩
    · cases h
    · cases h
    · obtain ⟨key', hmem, hvalid⟩ := ih h
      exact ⟨key', List.mem_cons_of_mem key hmem, hvalid⟩

/-- A key that comes before the right one does not stop a valid token. -/
theorem tryKeys_of_valid (hdoc : py.Documented) {keys : List Jwk} {key : Jwk} (hmem : key ∈ keys)
    (hvalid : py.Valid token key audience domain clock) :
    ∃ p, tryKeys py token audience (issuerOf domain) clock keys = .payload p := by
  induction keys with
  | nil => cases hmem
  | cons first keys ih =>
    rw [tryKeys]
    have hnext : py.decode token first audience (issuerOf domain) clock ≠ .payload (py.payload token) → key ∈ keys := by
      intro hne
      rcases List.mem_cons.1 hmem with rfl | hmem
      · exact absurd ((hdoc.payload_iff ..).2 ⟨hvalid, rfl⟩) hne
      · exact hmem
    split
    · rename_i p hdecode
      exact ⟨p, rfl⟩
    · rename_i hdecode
      exact ih (hnext (by rw [hdecode]; exact nofun))
    · rename_i hdecode
      obtain ⟨e, he, hle⟩ := hdoc.expired _ _ _ _ _ hdecode
      exact absurd (hvalid.notExpired e he) (not_lt.2 hle)
    · rename_i hdecode
      exact absurd hvalid.audience (hdoc.audience _ _ _ _ _ hdecode)
    · rename_i hdecode
      exact ih (hnext (by rw [hdecode]; exact nofun))

theorem valid_of_validateWith (hdoc : py.Documented) {jwks : List Jwk} {p : Payload}
    (h : validateWith py jwks token audience domain clock = .payload p) :
    ∃ key ∈ jwks, py.Valid token key audience domain clock := by
  unfold validateWith at h
  split at h
  · cases h
  split at h
  · cases h
  obtain ⟨key, hmem, hvalid⟩ := valid_of_tryKeys hdoc h
  exact ⟨key, List.mem_of_mem_filter hmem, hvalid⟩

theorem validateWith_of_valid (hdoc : py.Documented) {jwks : List Jwk} {key : Jwk} (hmem : key ∈ jwks)
    (hvalid : py.Valid token key audience domain clock) :
    ∃ p, validateWith py jwks token audience domain clock = .payload p := by
  have husable : key ∈ jwks.filter py.usable := List.mem_filter.2 ⟨hmem, hdoc.usable token key hvalid.signed⟩
  unfold validateWith
  rw [if_neg (by simpa using List.ne_nil_of_mem hmem), if_neg (by rw [List.isEmpty_iff]; exact List.ne_nil_of_mem husable)]
  exact tryKeys_of_valid hdoc husable hvalid

end

/-! ### `_fetch_jwks` in a run -/

def teamSuffix : Text := ".cloudflareaccess.com".toList

/-- `_is_valid_team_domain`, with `str.lower`. -/
def isValidTeamDomain (lower : Text → Text) (domain : Text) : Bool :=
  let text := lower domain
  let team := text.take (text.length - teamSuffix.length)
  !domain.isEmpty && !team.isEmpty && team.all (fun c => c.isLower || c.isDigit || c == '-') && text == team ++ teamSuffix

/-- A call of `validate_cf_token`, with the time at which `_fetch_jwks` begins. -/
structure Call (Token T : Type) where
  token : Token
  domain : Text
  audience : Text
  now : T

/-- `_jwks_cache`; `None` and an empty list are both no keys. -/
structure Cache (Jwk T : Type) where
  keys : List Jwk
  fetchedAt : T

/-- The endpoint of the domain has returned these keys. -/
structure Fetch (Jwk T : Type) where
  domain : Text
  fetchedAt : T
  keys : List Jwk

/-- What a call has returned, the time at which the claims were checked, and the latest fetch then. -/
structure Answer (Token Jwk Payload T : Type) where
  call : Call Token T
  clock : T
  result : Result Payload
  latest : Option (Fetch Jwk T)

/-- The calls that wait for an endpoint, and the fetches and the answers so far, the latest first. -/
structure State (Token Jwk Payload T : Type) where
  cache : Cache Jwk T
  waiting : List (Call Token T) := []
  fetches : List (Fetch Jwk T) := []
  answers : List (Answer Token Jwk Payload T) := []

inductive Event (Token Jwk T : Type)
  | begin (call : Call Token T) (clock : T)
  /-- The request of a waiting call ends, with its keys or with an exception. -/
  | finish (i : ℕ) (outcome : Option (List Jwk)) (clock : T)

section

variable {Token Jwk Payload T : Type} [AddCommGroup T] [LinearOrder T]
variable (c : Config T) (py : PyJwt Token Jwk Payload T) (lower : Text → Text)

/-- There are keys, and they are younger than the limit. -/
def Cache.serves (cache : Cache Jwk T) (limit now : T) : Bool := !cache.keys.isEmpty && decide (now - cache.fetchedAt < limit)

def State.answer (s : State Token Jwk Payload T) (call : Call Token T) (clock : T) (jwks : List Jwk) : State Token Jwk Payload T :=
  { s with answers :=
      ⟨call, clock, validateWith py jwks call.token call.audience call.domain clock, s.fetches.head?⟩ :: s.answers }

def State.begin (s : State Token Jwk Payload T) (call : Call Token T) (clock : T) : State Token Jwk Payload T :=
  if s.cache.serves c.ttl call.now then s.answer py call clock s.cache.keys
  else if !isValidTeamDomain lower call.domain then s.answer py call clock []
  else { s with waiting := s.waiting ++ [call] }

def State.finish (s : State Token Jwk Payload T) (call : Call Token T) (clock : T) : Option (List Jwk) → State Token Jwk Payload T
  | some keys =>
    State.answer py { s with cache := ⟨keys, call.now⟩, fetches := ⟨call.domain, call.now, keys⟩ :: s.fetches } call clock keys
  | none => s.answer py call clock (if s.cache.serves c.staleMaxAge call.now then s.cache.keys else [])

def step (s : State Token Jwk Payload T) : Event Token Jwk T → Option (State Token Jwk Payload T)
  | .begin call clock => some (s.begin c py lower call clock)
  | .finish i outcome clock => (s.waiting[i]?).map fun call =>
      State.finish c py { s with waiting := s.waiting.eraseIdx i } call clock outcome

/-- The process starts with `{"keys": None, "fetched_at": 0}`. -/
def system : System (State Token Jwk Payload T) (Event Token Jwk T) where
  init s := s = { cache := ⟨[], 0⟩ }
  step := step c py lower

/-! ### The law of the tokens -/

/-- A payload is of a token that is signed with a key of its own domain, fetched recently. -/
def Answer.Sound (a : Answer Token Jwk Payload T) (fetches : List (Fetch Jwk T)) : Prop :=
  ∀ p, a.result = .payload p → ∃ f ∈ fetches, f.domain = a.call.domain ∧ a.call.now - f.fetchedAt ≤ c.staleMaxAge ∧
    ∃ key ∈ f.keys, py.Valid a.call.token key a.call.audience a.call.domain a.clock

/-- While the keys of the domain are the cached ones, and not too old, a valid token is accepted. -/
def Answer.Accepts (a : Answer Token Jwk Payload T) : Prop :=
  ∀ f ∈ a.latest, f.domain = a.call.domain → a.call.now - f.fetchedAt < c.staleMaxAge →
    ∀ key ∈ f.keys, py.Valid a.call.token key a.call.audience a.call.domain a.clock → ∃ p, a.result = .payload p

/-- The keys in the cache are those of the domain. -/
def State.Owns (s : State Token Jwk Payload T) (domain : Text) : Prop := ∀ f ∈ s.fetches.head?, f.domain = domain

/-- A step that answers from the cache does so with the keys of the call's own domain. -/
def OwnKeys (s : State Token Jwk Payload T) : Event Token Jwk T → Prop
  | .begin call _ => s.cache.serves c.ttl call.now = true → s.Owns call.domain
  | .finish i none _ => ∀ call ∈ s.waiting[i]?, s.cache.serves c.staleMaxAge call.now = true → s.Owns call.domain
  | .finish _ (some _) _ => True

structure Inv (s : State Token Jwk Payload T) : Prop where
  cached : ∀ f ∈ s.fetches.head?, s.cache = ⟨f.keys, f.fetchedAt⟩
  uncached : s.fetches = [] → s.cache.keys = []
  valid : ∀ f ∈ s.fetches, isValidTeamDomain lower f.domain = true
  waiting : ∀ call ∈ s.waiting, isValidTeamDomain lower call.domain = true
  sound : ∀ a ∈ s.answers, a.Sound c py s.fetches
  accepts : ∀ a ∈ s.answers, a.Accepts c py

variable {c py lower} {s : State Token Jwk Payload T}

theorem serves_iff {cache : Cache Jwk T} {limit now : T} :
    cache.serves limit now = true ↔ cache.keys ≠ [] ∧ now - cache.fetchedAt < limit := by
  simp [Cache.serves]

/-- Keys in the cache come from the latest fetch. -/
theorem Inv.latest (hI : Inv c py lower s) (hkeys : s.cache.keys ≠ []) :
    ∃ f ∈ s.fetches, s.fetches.head? = some f ∧ s.cache = ⟨f.keys, f.fetchedAt⟩ := by
  cases hfetches : s.fetches with
  | nil => exact absurd (hI.uncached hfetches) hkeys
  | cons f fetches => exact ⟨f, List.mem_cons_self, rfl, hI.cached f (by rw [hfetches]; rfl)⟩

/-- An answer from the cache, with the keys of the call's own domain. -/
theorem Inv.sound_of_cache (hdoc : py.Documented) (hI : Inv c py lower s) {call : Call Token T} {limit clock : T}
    (hlimit : limit ≤ c.staleMaxAge) (hserves : s.cache.serves limit call.now = true) (hown : s.Owns call.domain) :
    Answer.Sound c py ⟨call, clock, validateWith py s.cache.keys call.token call.audience call.domain clock, s.fetches.head?⟩
      s.fetches := by
  intro p hp
  obtain ⟨hkeys, hage⟩ := serves_iff.1 hserves
  obtain ⟨f, hmem, hhead, hcache⟩ := hI.latest hkeys
  obtain ⟨key, hkey, hvalid⟩ := valid_of_validateWith hdoc hp
  rw [hcache] at hage hkey
  exact ⟨f, hmem, hown f hhead, le_of_lt (lt_of_lt_of_le hage hlimit), key, hkey, hvalid⟩

theorem sound_of_no_keys (call : Call Token T) (clock : T) (latest : Option (Fetch Jwk T)) (fetches : List (Fetch Jwk T)) :
    Answer.Sound c py ⟨call, clock, validateWith py [] call.token call.audience call.domain clock, latest⟩ fetches := by
  intro p hp
  cases hp

/-- The latest keys are tried where they are of the call's own domain. -/
theorem accepts_of_keys (hdoc : py.Documented) {call : Call Token T} {clock : T} {latest : Option (Fetch Jwk T)} {jwks : List Jwk}
    (h : ∀ f ∈ latest, f.domain = call.domain → call.now - f.fetchedAt < c.staleMaxAge → f.keys ≠ [] → jwks = f.keys) :
    Answer.Accepts c py ⟨call, clock, validateWith py jwks call.token call.audience call.domain clock, latest⟩ := by
  intro f hf hdomain hage key hkey hvalid
  obtain rfl := h f hf hdomain hage (List.ne_nil_of_mem hkey)
  exact validateWith_of_valid hdoc hkey hvalid

theorem Answer.Sound.mono {a : Answer Token Jwk Payload T} {fetches : List (Fetch Jwk T)} (h : a.Sound c py fetches) (f : Fetch Jwk T) :
    a.Sound c py (f :: fetches) := by
  intro p hp
  obtain ⟨g, hg, hrest⟩ := h p hp
  exact ⟨g, List.mem_cons_of_mem f hg, hrest⟩

theorem Inv.answer (hI : Inv c py lower s) {call : Call Token T} {clock : T} {jwks : List Jwk}
    (hsound : Answer.Sound c py ⟨call, clock, validateWith py jwks call.token call.audience call.domain clock, s.fetches.head?⟩
      s.fetches)
    (haccepts : Answer.Accepts c py
      ⟨call, clock, validateWith py jwks call.token call.audience call.domain clock, s.fetches.head?⟩) :
    Inv c py lower (s.answer py call clock jwks) :=
  { hI with
    sound := List.forall_mem_cons.2 ⟨hsound, hI.sound⟩
    accepts := List.forall_mem_cons.2 ⟨haccepts, hI.accepts⟩ }

theorem Inv.begin (hdoc : py.Documented) (hI : Inv c py lower s) {call : Call Token T} {clock : T}
    (hok : OwnKeys c s (.begin call clock)) : Inv c py lower (s.begin c py lower call clock) := by
  unfold State.begin
  split
  · rename_i hserves
    refine hI.answer (hI.sound_of_cache hdoc c.ttl_le hserves (hok hserves)) (accepts_of_keys hdoc fun f hf _ _ _ => ?_)
    rw [hI.cached f hf]
  rename_i hstale
  split
  · rename_i hinvalid
    refine hI.answer (sound_of_no_keys call clock _ _) (accepts_of_keys hdoc fun f hf hdomain _ _ => ?_)
    -- keys are only fetched for a valid domain
    have hvalid := hI.valid f (List.mem_of_mem_head? hf)
    rw [hdomain] at hvalid
    simp [hvalid] at hinvalid
  · rename_i hvalid
    refine { hI with waiting := fun call' hmem => ?_ }
    rcases List.mem_append.1 hmem with hmem | hmem
    · exact hI.waiting call' hmem
    · rw [List.mem_singleton.1 hmem]
      simpa using hvalid

theorem Inv.finish (hdoc : py.Documented) (hI : Inv c py lower s) {call : Call Token T} {clock : T} {outcome : Option (List Jwk)}
    (hdomain : isValidTeamDomain lower call.domain = true)
    (hok : outcome = none → s.cache.serves c.staleMaxAge call.now = true → s.Owns call.domain) :
    Inv c py lower (s.finish c py call clock outcome) := by
  cases outcome with
  | none =>
    refine hI.answer ?_ (accepts_of_keys hdoc fun f hf _ hage hkeys => ?_)
    · split
      · rename_i hserves
        exact hI.sound_of_cache hdoc (le_refl _) hserves (hok rfl hserves)
      · exact sound_of_no_keys call clock _ _
    · rw [hI.cached f hf, if_pos (serves_iff.2 ⟨hkeys, hage⟩)]
  | some keys =>
    have hfilled : Inv c py lower { s with cache := ⟨keys, call.now⟩, fetches := ⟨call.domain, call.now, keys⟩ :: s.fetches } := by
      refine { hI with cached := ?_, uncached := ?_, valid := ?_, sound := fun a ha => (hI.sound a ha).mono _ }
      · rintro f ⟨⟩
        rfl
      · exact nofun
      · exact List.forall_mem_cons.2 ⟨hdomain, hI.valid⟩
    refine hfilled.answer ?_ (accepts_of_keys hdoc ?_)
    · intro p hp
      obtain ⟨key, hkey, hvalid⟩ := valid_of_validateWith hdoc hp
      refine ⟨_, List.mem_cons_self, rfl, ?_, key, hkey, hvalid⟩
      rw [sub_self]
      exact le_trans c.ttl_nonneg c.ttl_le
    · rintro f ⟨⟩ - - -
      rfl

theorem Inv.step (hdoc : py.Documented) {s' : State Token Jwk Payload T} {e : Event Token Jwk T} (hI : Inv c py lower s)
    (hok : OwnKeys c s e) (hstep : step c py lower s e = some s') : Inv c py lower s' := by
  cases e with
  | begin call clock =>
    cases hstep
    exact hI.begin hdoc hok
  | finish i outcome clock =>
    obtain ⟨call, hcall, rfl⟩ := Option.map_eq_some_iff.1 hstep
    have hI' : Inv c py lower { s with waiting := s.waiting.eraseIdx i } :=
      { hI with waiting := fun call' hmem => hI.waiting call' (List.mem_of_mem_eraseIdx hmem) }
    refine hI'.finish hdoc (hI.waiting call (List.mem_of_getElem? hcall)) ?_
    rintro rfl
    exact hok call hcall

/-- In a run in which no call is answered from the cache with the keys of another domain, every answer keeps the law. -/
theorem own_keys_run (hdoc : py.Documented) (h : (system c py lower).Reach (OwnKeys c) s) :
    ∀ a ∈ s.answers, a.Sound c py s.fetches ∧ a.Accepts c py := by
  have hI : Inv c py lower s := by
    refine h.invariant ?_ fun s e s' hI hok hstep => hI.step hdoc hok hstep
    rintro s rfl
    exact ⟨nofun, fun _ => rfl, nofun, nofun, nofun, nofun⟩
  exact fun a ha => ⟨hI.sound a ha, hI.accepts a ha⟩

end

/-! ### A change of the team domain -/

/-- A token by the number of the key that has signed it. -/
structure ExampleToken where
  signer : ℕ
  aud : Text
  iss : Text
  exp : ℤ
  email : Text

def exampleJwt : PyJwt ExampleToken ℕ Text ℤ where
  decode token key audience issuer clock :=
    if token.signer ≠ key then .invalidSignature
    else if token.exp ≤ clock then .expiredSignature
    else if token.iss ≠ issuer then .otherException
    else if token.aud ≠ audience then .invalidAudience
    else .payload token.email
  usable _ := true
  Verifies token key := token.signer = key
  audiences token := [token.aud]
  issuer token := some token.iss
  expiry token := some token.exp
  Begun _ _ := True
  payload token := token.email

theorem exampleJwt_documented : exampleJwt.Documented where
  payload_iff token key audience domain clock p := by
    constructor
    · intro h
      simp only [exampleJwt] at h
      split at h
      · cases h
      split at h
      · cases h
      split at h
      · cases h
      split at h
      · cases h
      rename_i hsigner hexp hiss haud
      cases h
      refine ⟨⟨not_not.1 hsigner, ?_, ?_, ?_, trivial⟩, rfl⟩
      · rw [← not_not.1 haud]
        exact List.mem_cons_self
      · exact congrArg some (not_not.1 hiss)
      · rintro e ⟨⟩
        exact not_le.1 hexp
    · rintro ⟨hvalid, rfl⟩
      have haud : token.aud = audience := (List.mem_singleton.1 hvalid.audience).symm
      have hiss : token.iss = issuerOf domain := Option.some.inj hvalid.issuer
      have hexp : ¬token.exp ≤ clock := not_le.2 (hvalid.notExpired token.exp rfl)
      have hsigner : token.signer = key := hvalid.signed
      simp [exampleJwt, haud, hiss, hexp, hsigner]
  expired token key audience issuer clock h := by
    refine ⟨token.exp, rfl, ?_⟩
    simp only [exampleJwt] at h
    split at h
    · cases h
    split at h
    · assumption
    · split at h
      · cases h
      · split at h <;> cases h
  audience token key audience issuer clock h := by
    simp only [exampleJwt] at h
    split at h
    · cases h
    split at h
    · cases h
    split at h
    · cases h
    split at h
    · rename_i haud
      simpa [exampleJwt] using Ne.symm haud
    · cases h
  usable _ _ _ := rfl

def newTeam : Text := "new.cloudflareaccess.com".toList

/-- Key 7 has signed a token for the new team. -/
def newTeamCall (domain : Text) (now : ℤ) : Call ExampleToken ℤ where
  token := ⟨7, "aud".toList, issuerOf newTeam, 5000, "eve@example.com".toList⟩
  domain := domain
  audience := "aud".toList
  now := now

theorem own_keys_run_newTeam :
    let s : State ExampleToken ℕ Text ℤ := State.finish defaults exampleJwt { cache := ⟨[], 0⟩ } (newTeamCall newTeam 10) 10 (some [7])
    ∀ a ∈ s.answers, a.Sound defaults exampleJwt s.fetches ∧ a.Accepts defaults exampleJwt := by
  have hinit : (system defaults exampleJwt id).Reach (OwnKeys defaults) { cache := ⟨[], 0⟩ } := .init rfl
  have hwait := hinit.next (.begin (newTeamCall newTeam 10) 10) nofun rfl
  exact own_keys_run exampleJwt_documented (hwait.next (.finish 0 (some [7]) 10) trivial rfl)

/-- Ten seconds after the keys of one team were fetched, the settings name another team: a token signed with a key of the first one is
accepted, and the endpoint of the second was never asked. -/
theorem foreign_key_accepted :
    ∃ s, (system defaults exampleJwt id).Reachable s ∧
      ∃ a ∈ s.answers, a.call.domain = newTeam ∧ a.result = .payload "eve@example.com".toList ∧
        ¬a.Sound defaults exampleJwt s.fetches := by
  have hinit : (system defaults exampleJwt id).Reachable { cache := ⟨[], 0⟩ } := .init rfl
  have hwait := hinit.next (.begin (newTeamCall "old.cloudflareaccess.com".toList 0) 0) trivial rfl
  have hold := hwait.next (.finish 0 (some [7]) 0) trivial rfl
  have hnew := hold.next (.begin (newTeamCall newTeam 10) 10) trivial rfl
  refine ⟨_, hnew, _, List.mem_cons_self, rfl, rfl, fun hsound => ?_⟩
  obtain ⟨f, hmem, hdomain, -⟩ := hsound _ rfl
  obtain rfl := List.mem_singleton.1 hmem
  exact absurd hdomain (by decide)

end ProxmoxTool.Cloudflare
