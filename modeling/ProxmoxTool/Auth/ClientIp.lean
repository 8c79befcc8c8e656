import Mathlib
import ProxmoxTool.Lib.HeaderList

/-!
# The client's address behind a proxy

The model of `auth/proxy_trust.py` and of `_get_client_ip` in `auth/local_network.py` and `routes/auth.py`, with the addresses of
`ipaddress`.  Werkzeug's `ProxyFix` is a parameter: it reads the list in `X-Forwarded-For`, takes the value that many places from the
right, and keeps the peer it has replaced.  Which addresses are loopback or private is a parameter too, since the registries differ
between versions of Python.

A trusted proxy appends the client's address and forwards the rest.  `client_ip_iff` says when the address derived is the one that is
derived without any header of the client's own: there must be no `CF-Connecting-IP` to go by, and `X-Forwarded-For` must leave no
quoted string open, which costs the list what the proxy appended.
-/

namespace ProxmoxTool.ClientIp

/-! ### Addresses -/

inductive Address
  | v4 (value : Nat)
  | v6 (value : Nat)
  deriving DecidableEq

/-- A decimal octet: no leading zeros. -/
def parseOctet (t : Text) : Option Nat :=
  if t ≠ [] ∧ t.all Char.isDigit ∧ t.length ≤ 3 ∧ (t = ['0'] ∨ t.head? ≠ some '0') ∧ Nat.ofDigitChars 10 t 0 ≤ 255 then
    some (Nat.ofDigitChars 10 t 0)
  else none

/-- The number of a dotted IPv4 address. -/
def ipv4Int (t : Text) : Option Nat :=
  match (t.splitOn '.').mapM parseOctet with
  | some [a, b, c, d] => some (((a * 256 + b) * 256 + c) * 256 + d)
  | _ => none

def isHexDigit (c : Char) : Bool := c.isDigit || ('a' ≤ c && c ≤ 'f') || ('A' ≤ c && c ≤ 'F')

def hexDigit (c : Char) : Nat :=
  if c.isDigit then c.toNat - 48 else if 'a' ≤ c then c.toNat - 87 else c.toNat - 55

def parseHextet (t : Text) : Option Nat :=
  if t ≠ [] ∧ t.all isHexDigit ∧ t.length ≤ 4 then some (t.foldl (fun n c => n * 16 + hexDigit c) 0) else none

/-- The parts between the colons of an IPv6 address, with a trailing IPv4 address as two of them. -/
def ipv6Parts (t : Text) : Option (List Text) :=
  let parts := t.splitOn ':'
  let last := parts.getLast?.getD []
  if parts.length < 3 then none
  else if '.' ∈ last then (ipv4Int last).map fun n =>
    parts.dropLast ++ [Nat.toDigits 16 (n / 65536), Nat.toDigits 16 (n % 65536)]
  else some parts

/-- The parts before and after a `::`, which stands for at least one group of zeros. -/
def ipv6Groups (parts : List Text) : Option (List Nat) :=
  let n := parts.length
  if n > 9 then none
  else match (List.range n).filter fun i => decide (0 < i ∧ i + 1 < n ∧ parts[i]? = some []) with
    | [] => if n = 8 ∧ parts.head? ≠ some [] ∧ parts.getLast? ≠ some [] then parts.mapM parseHextet else none
    | [skip] =>
      let high := if parts.head? = some [] then skip - 1 else skip
      let low := if parts.getLast? = some [] then n - skip - 2 else n - skip - 1
      if (parts.head? = some [] ∧ high ≠ 0) ∨ (parts.getLast? = some [] ∧ low ≠ 0) ∨ 8 < high + low + 1 then none
      else do
        let before ← (parts.take high).mapM parseHextet
        let after ← (parts.drop (n - low)).mapM parseHextet
        return before ++ List.replicate (8 - (high + low)) 0 ++ after
    | _ => none

/-- The number of an IPv6 address, which may have a scope. -/
def ipv6Int (t : Text) : Option Nat :=
  match t.splitOn '%' with
  | [address] => (ipv6Parts address).bind fun parts => (ipv6Groups parts).map fun groups => groups.foldl (· * 65536 + ·) 0
  | [address, scope] => if scope = [] then none
      else (ipv6Parts address).bind fun parts => (ipv6Groups parts).map fun groups => groups.foldl (· * 65536 + ·) 0
  | _ => none

/-- `ipaddress.ip_address`; `none` for a `ValueError`. -/
def ipAddress (t : Text) : Option Address :=
  if '/' ∈ t then none else ((ipv4Int t).map .v4).or ((ipv6Int t).map .v6)

/-- The IPv4 address in an IPv4-mapped one. -/
def Address.unmapped : Address → Address
  | .v6 n => if n / 2 ^ 32 = 0xffff then .v4 (n % 2 ^ 32) else .v6 n
  | a => a

/-- A network of `TRUSTED_PROXY_PEERS`: an address and the length of its prefix. -/
structure Network where
  address : Address
  prefixLength : Nat

def Network.contains (net : Network) : Address → Bool
  | .v4 n => match net.address with
    | .v4 m => decide (n / 2 ^ (32 - net.prefixLength) = m / 2 ^ (32 - net.prefixLength))
    | .v6 _ => false
  | .v6 n => match net.address with
    | .v4 _ => false
    | .v6 m => decide (n / 2 ^ (128 - net.prefixLength) = m / 2 ^ (128 - net.prefixLength))

/-! ### Requests -/

/-- Header lines, the names in lower case. -/
abbrev Headers := List (Text × Text)

def forwardedFor : Text := "x-forwarded-for".toList

def cfConnectingIp : Text := "cf-connecting-ip".toList

/-- The values of a header, joined by commas as the WSGI server does. -/
def Headers.get (headers : Headers) (name : Text) : Option Text :=
  match (headers.filter fun h => decide (h.1 = name)).map Prod.snd with
  | [] => none
  | value :: values => some (values.foldl (fun joined v => joined ++ ',' :: v) value)

/-- The WSGI environment, as far as it decides on the address; `orig` is the peer that `ProxyFix` has replaced. -/
structure Environ where
  remoteAddr : Text
  headers : Headers
  orig : Option Text := none

/-- The proxy appends the address of its client, and forwards the rest. -/
def forward (client : Text) (headers : Headers) : Headers := headers ++ [(forwardedFor, client)]

/-- Werkzeug's reading of a list header, `parse_list_header`. -/
structure ProxyFix where
  values : Text → List Text

/-- What is documented of it: commas separate the items, and a quoted string that is not closed leaves none. -/
structure ProxyFix.Documented (fix : ProxyFix) : Prop where
  plain : ∀ {c}, Plain c → fix.values c = [c]
  closed : ∀ {v c}, Plain c → quoteOpen v = false → (fix.values (v ++ ',' :: c)).getLast? = some c
  opened : ∀ {v c}, Plain c → quoteOpen v = true → fix.values (v ++ ',' :: c) = []

/-- The value that many places from the right, if there are that many. -/
def ProxyFix.realValue (fix : ProxyFix) (trusted : Nat) (value : Option Text) : Option Text :=
  let values := fix.values (value.getD [])
  if trusted = 0 ∨ value.getD [] = [] ∨ values.length < trusted then none else values[values.length - trusted]?

/-- `ProxyFix.__call__`. -/
def ProxyFix.call (fix : ProxyFix) (trusted : Nat) (environ : Environ) : Environ :=
  let client := (fix.realValue trusted (environ.headers.get forwardedFor)).getD []
  { environ with
    orig := some environ.remoteAddr
    remoteAddr := if client = [] then environ.remoteAddr else client }

section

-- `parsed.is_loopback or parsed.is_private`
variable (isLocal : Address → Bool)

/-- `peer_is_trusted`. -/
def peerIsTrusted (addr : Text) (peers : Option (List Network)) : Bool :=
  match if addr = [] then none else ipAddress addr with
  | none => false
  | some parsed => match peers with
    | none => isLocal parsed.unmapped
    | some peers => peers.any fun net => net.contains parsed.unmapped

/-- `_is_proxy_peer`. -/
def isProxyPeer (addr : Text) : Bool := if addr = [] then false else (ipAddress addr).any isLocal

def isIpAddress (value : Text) : Bool := (ipAddress value).isSome

/-- `TrustedPeerProxyFix`, installed if `TRUSTED_PROXY_COUNT` is positive. -/
def wsgiApp (fix : ProxyFix) (count : Nat) (peers : Option (List Network)) (environ : Environ) : Environ :=
  if count = 0 then environ
  else if peerIsTrusted isLocal environ.remoteAddr peers then fix.call count environ
  else environ

/-- The `CF-Connecting-IP` that `_get_client_ip` goes by. -/
def cfIp (headers : Headers) : Option Text :=
  let ip := strip ((headers.get cfConnectingIp).getD [])
  if ip ≠ [] ∧ isIpAddress ip then some ip else none

/-- `_get_client_ip` of `auth/local_network.py`. -/
def getClientIp (environ : Environ) : Option Text :=
  let remoteAddr := if environ.remoteAddr = [] then none else some environ.remoteAddr
  match environ.orig with
  | none => remoteAddr
  | some peer => if isProxyPeer isLocal peer then (cfIp environ.headers).or remoteAddr else remoteAddr

/-- The key of the login rate limit, `_get_client_ip` of `routes/auth.py`. -/
def rateLimitKey (environ : Environ) : Text := (getClientIp isLocal environ).getD "unknown".toList

end

/-! ### What the client's headers decide -/

section

variable (isLocal : Address → Bool) (fix : ProxyFix) (count : Nat) (peers : Option (List Network))

/-- The address derived for a request of a TCP peer. -/
def clientIp (peer : Text) (headers : Headers) : Option Text :=
  getClientIp isLocal (wsgiApp isLocal fix count peers ⟨peer, headers, none⟩)

/-- The address of a request without headers of the client's own: one hop is unwound, more than one are not there. -/
def ownAddress (proxy client : Text) : Text := if count = 1 then client else proxy

/-- What a client's headers must be like: `CF-Connecting-IP` is not gone by, or is the client's own address; and the list that the
proxy appends to leaves no quoted string open, unless the client is the proxy itself, or, if more hops are unwound than there are, has
nothing in that place. -/
def Unforged (proxy client : Text) (headers : Headers) : Prop :=
  count = 0 ∨ match if isProxyPeer isLocal proxy then cfIp headers else none with
    | some ip => ip = ownAddress count proxy client
    | none =>
      if count = 1 then (∀ v ∈ headers.get forwardedFor, quoteOpen v = false) ∨ client = proxy
      else
        let value := (fix.realValue count ((forward client headers).get forwardedFor)).getD []
        value = [] ∨ value = proxy

end

section

variable {isLocal : Address → Bool} {fix : ProxyFix} {count : Nat} {peers : Option (List Network)}

theorem foldl_join (value last : Text) (values : List Text) :
    (values ++ [last]).foldl (fun joined v => joined ++ ',' :: v) value =
      values.foldl (fun joined v => joined ++ ',' :: v) value ++ ',' :: last := by
  rw [List.foldl_append, List.foldl_cons, List.foldl_nil]

theorem get_forward_forwardedFor (client : Text) (headers : Headers) : (forward client headers).get forwardedFor =
    some (((headers.get forwardedFor).map fun v => v ++ ',' :: client).getD client) := by
  unfold forward Headers.get
  rw [List.filter_append, List.filter_singleton, decide_eq_true rfl, cond_true, List.map_append, List.map_singleton]
  cases (headers.filter fun h => decide (h.1 = forwardedFor)).map Prod.snd with
  | nil => rfl
  | cons value values =>
    rw [List.cons_append]
    dsimp only
    rw [foldl_join]
    rfl

theorem get_forward_of_ne {name : Text} (h : name ≠ forwardedFor) (client : Text) (headers : Headers) :
    (forward client headers).get name = headers.get name := by
  unfold forward Headers.get
  rw [List.filter_append, List.filter_singleton, decide_eq_false (Ne.symm h), cond_false, List.append_nil]

theorem cfIp_forward (client : Text) (headers : Headers) : cfIp (forward client headers) = cfIp headers := by
  unfold cfIp
  rw [get_forward_of_ne (by decide)]

/-- An untrusted peer, or no proxy: the address is that of the peer. -/
theorem clientIp_of_direct {peer : Text} {headers : Headers} (h : count = 0 ∨ peerIsTrusted isLocal peer peers = false) :
    clientIp isLocal fix count peers peer headers = if peer = [] then none else some peer := by
  have happ : wsgiApp isLocal fix count peers ⟨peer, headers, none⟩ = ⟨peer, headers, none⟩ := by
    unfold wsgiApp
    rcases h with h | h
    · exact if_pos h
    · dsimp only
      split
      · rfl
      · exact if_neg (by simp [h])
  unfold clientIp
  rw [happ]
  rfl

theorem ne_nil_of_trusted {peer : Text} (h : peerIsTrusted isLocal peer peers = true) : peer ≠ [] := by
  rintro rfl
  unfold peerIsTrusted at h
  rw [if_pos rfl] at h
  cases h

/-- A trusted proxy: its own look-up of the client's headers, then the unwound address. -/
theorem clientIp_of_trusted {proxy client : Text} {headers : Headers} (hcount : count ≠ 0)
    (h : peerIsTrusted isLocal proxy peers = true) : clientIp isLocal fix count peers proxy (forward client headers) =
      some (((if isProxyPeer isLocal proxy then cfIp headers else none)).getD
        (let value := (fix.realValue count ((forward client headers).get forwardedFor)).getD []
          if value = [] then proxy else value)) := by
  have hproxy := ne_nil_of_trusted h
  have happ : wsgiApp isLocal fix count peers ⟨proxy, forward client headers, none⟩ =
      fix.call count ⟨proxy, forward client headers, none⟩ := by
    unfold wsgiApp
    dsimp only
    rw [if_neg hcount, h, if_pos rfl]
  unfold clientIp
  rw [happ]
  unfold ProxyFix.call getClientIp
  dsimp only
  rw [cfIp_forward]
  generalize (fix.realValue count ((forward client headers).get forwardedFor)).getD [] = value
  have hremote : (if (if value = [] then proxy else value) = [] then none else some (if value = [] then proxy else value)) =
      some (if value = [] then proxy else value) := by
    refine if_neg ?_
    split
    · exact hproxy
    · rename_i hne
      exact hne
  rw [hremote]
  cases isProxyPeer isLocal proxy with
  | false => rfl
  | true =>
    rw [if_pos rfl, if_pos rfl]
    cases cfIp headers with
    | none => rfl
    | some ip => rfl

/-- The value unwound for one hop: the last of the list. -/
theorem realValue_one {value : Text} (hne : value ≠ []) (hitems : fix.values value ≠ []) :
    fix.realValue 1 (some value) = (fix.values value).getLast? := by
  have hlength : 0 < (fix.values value).length := List.length_pos_iff.2 hitems
  unfold ProxyFix.realValue
  dsimp only [Option.getD_some]
  rw [if_neg (by simp only [hne, false_or, not_or]; omega), List.getLast?_eq_getElem?]

/-- One hop: the appended address is taken unless a quoted string of the client's list is open. -/
theorem realValue_one_iff (hfix : fix.Documented) {client : Text} (hclient : Plain client) (own? : Option Text) :
    let value := fix.realValue 1 (some ((own?.map fun v => v ++ ',' :: client).getD client))
    (value = some client ∧ ∀ v ∈ own?, quoteOpen v = false) ∨ value = none ∧ ¬ ∀ v ∈ own?, quoteOpen v = false := by
  cases own? with
  | none =>
    refine .inl ⟨?_, fun v hv => by cases hv⟩
    have hitems : fix.values client = [client] := hfix.plain hclient
    rw [Option.map_none, Option.getD_none, realValue_one hclient.nonempty (by simp [hitems]), hitems]
    rfl
  | some v =>
    rw [Option.map_some, Option.getD_some]
    have hne : v ++ ',' :: client ≠ [] := by simp
    cases hquote : quoteOpen v with
    | false =>
      have hlast := hfix.closed hclient hquote
      have hitems : fix.values (v ++ ',' :: client) ≠ [] := by
        intro hnil
        rw [hnil] at hlast
        cases hlast
      refine .inl ⟨(realValue_one hne hitems).trans hlast, fun w hw => ?_⟩
      cases hw
      exact hquote
    | true =>
      refine .inr ⟨?_, fun hall => ?_⟩
      · unfold ProxyFix.realValue
        dsimp only [Option.getD_some]
        rw [hfix.opened hclient hquote, if_pos (.inr (.inr Nat.zero_lt_one))]
      · rw [hall v rfl] at hquote
        cases hquote

/-- The address derived is the client's own exactly for headers that are not forged. -/
theorem clientIp_eq_own_iff (hfix : fix.Documented) {proxy client : Text} (hclient : Plain client) (hcount : count ≠ 0)
    (h : peerIsTrusted isLocal proxy peers = true) (headers : Headers) :
    clientIp isLocal fix count peers proxy (forward client headers) = some (ownAddress count proxy client) ↔
      Unforged isLocal fix count proxy client headers := by
  rw [clientIp_of_trusted hcount h]
  unfold Unforged
  rw [or_iff_right hcount, Option.some_inj]
  cases (if isProxyPeer isLocal proxy then cfIp headers else none) with
  | some ip => exact Iff.rfl
  | none =>
    dsimp only [Option.getD_none]
    unfold ownAddress
    by_cases hone : count = 1
    · rw [if_pos hone, if_pos hone, hone, get_forward_forwardedFor]
      rcases realValue_one_iff hfix hclient (headers.get forwardedFor) with ⟨hvalue, hall⟩ | ⟨hvalue, hnot⟩
      · rw [hvalue, Option.getD_some, if_neg hclient.nonempty]
        exact ⟨fun _ => .inl hall, fun _ => rfl⟩
      · rw [hvalue, Option.getD_none, if_pos rfl, or_iff_right hnot]
        exact eq_comm
    · rw [if_neg hone, if_neg hone]
      generalize (fix.realValue count ((forward client headers).get forwardedFor)).getD [] = value
      by_cases hvalue : value = []
      · rw [if_pos hvalue]
        exact ⟨fun _ => .inl hvalue, fun _ => rfl⟩
      · rw [if_neg hvalue, or_iff_right hvalue]

theorem unforged_nil (hfix : fix.Documented) {proxy client : Text} (hclient : Plain client) :
    Unforged isLocal fix count proxy client [] := by
  unfold Unforged
  have hcf : (if isProxyPeer isLocal proxy then cfIp [] else none) = none := by
    split
    · rfl
    · rfl
  rw [hcf]
  by_cases hzero : count = 0
  · exact .inl hzero
  · refine .inr ?_
    dsimp only
    split
    · exact .inl fun v hv => by cases hv
    · rename_i hone
      refine .inl ?_
      have hget : Headers.get [] forwardedFor = none := rfl
      have hitems : fix.values client = [client] := hfix.plain hclient
      rw [get_forward_forwardedFor, hget, Option.map_none, Option.getD_none]
      unfold ProxyFix.realValue
      rw [Option.getD_some, hitems, if_pos (.inr (.inr (by rw [List.length_singleton]; omega)))]
      rfl

/-- Behind a trusted proxy that appends the address of its client and forwards the rest, the address derived is the same as without any
header of the client's own exactly if these are not forged; for a peer that is not trusted it is the peer's, whatever the headers. -/
theorem client_ip_iff (isLocal : Address → Bool) {fix : ProxyFix} (hfix : fix.Documented) (count : Nat)
    (peers : Option (List Network)) :
    (∀ proxy client, Plain client → peerIsTrusted isLocal proxy peers = true →
      (∀ headers, clientIp isLocal fix count peers proxy (forward client headers) =
          clientIp isLocal fix count peers proxy (forward client []) ↔ Unforged isLocal fix count proxy client headers) ∧
      ((∀ headers headers', clientIp isLocal fix count peers proxy (forward client headers) =
          clientIp isLocal fix count peers proxy (forward client headers')) ↔
        ∀ headers, Unforged isLocal fix count proxy client headers)) ∧
    ∀ peer headers, peer ≠ [] → peerIsTrusted isLocal peer peers = false →
      clientIp isLocal fix count peers peer headers = some peer := by
  refine ⟨fun proxy client hclient htrusted => ?_, fun peer headers hne hpeer => ?_⟩
  · have hone : ∀ headers, clientIp isLocal fix count peers proxy (forward client headers) =
        clientIp isLocal fix count peers proxy (forward client []) ↔ Unforged isLocal fix count proxy client headers := by
      intro headers
      by_cases hcount : count = 0
      · rw [clientIp_of_direct (.inl hcount), clientIp_of_direct (.inl hcount)]
        exact ⟨fun _ => .inl hcount, fun _ => rfl⟩
      · rw [(clientIp_eq_own_iff hfix hclient hcount htrusted []).2 (unforged_nil hfix hclient)]
        exact clientIp_eq_own_iff hfix hclient hcount htrusted headers
    refine ⟨hone, fun hall headers => (hone headers).1 (hall headers []), fun hall headers headers' => ?_⟩
    rw [(hone headers).2 (hall headers), (hone headers').2 (hall headers')]
  · rw [clientIp_of_direct (.inr hpeer), if_neg hne]

end

/-! ### A local proxy -/

def listHeader : ProxyFix := ⟨headerItems⟩

theorem listHeader_documented : listHeader.Documented := ⟨headerItems_plain, headerItems_closed, headerItems_opened⟩

/-- The loopback addresses and the private ones of RFC 1918. -/
def exampleLocal : Address → Bool
  | .v4 n => n / 2 ^ 24 = 127 || n / 2 ^ 24 = 10 || n / 2 ^ 20 = 0xac1 || n / 2 ^ 16 = 0xc0a8
  | .v6 n => n = 1

theorem examplePlain : Plain "198.51.100.7".toList := ⟨by decide, by simp [isSpace]⟩

theorem example_own : clientIp exampleLocal listHeader 1 none "127.0.0.1".toList
    (forward "198.51.100.7".toList [(forwardedFor, "10.0.0.5".toList)]) =
      clientIp exampleLocal listHeader 1 none "127.0.0.1".toList (forward "198.51.100.7".toList []) := by
  refine (((client_ip_iff exampleLocal listHeader_documented 1 none).1 "127.0.0.1".toList "198.51.100.7".toList examplePlain
    (by decide +kernel)).1 [(forwardedFor, "10.0.0.5".toList)]).2 (.inr ?_)
  have hcf : (if isProxyPeer exampleLocal "127.0.0.1".toList then cfIp [(forwardedFor, "10.0.0.5".toList)] else none) = none := by
    decide +kernel
  rw [hcf]
  refine .inl fun v hv => ?_
  obtain rfl : "10.0.0.5".toList = v := Option.some.inj hv
  decide +kernel

/-- The same client is two addresses, one of which it has made up. -/
theorem example_forged : peerIsTrusted exampleLocal "127.0.0.1".toList none = true ∧
    clientIp exampleLocal listHeader 1 none "127.0.0.1".toList (forward "198.51.100.7".toList []) =
      some "198.51.100.7".toList ∧
    clientIp exampleLocal listHeader 1 none "127.0.0.1".toList
      (forward "198.51.100.7".toList [(cfConnectingIp, "203.0.113.9".toList)]) = some "203.0.113.9".toList := by
  refine ⟨?_, ?_, ?_⟩
  · decide +kernel
  · decide +kernel
  · decide +kernel

end ProxmoxTool.ClientIp
