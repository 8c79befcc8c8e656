import ProxmoxTool.ConfigBackup.Data

/-!
# Settings in a document

Which settings `core/config_backup.py` treats as secrets, as critical for authentication, as intervals and as addresses
that a stored secret is sent to.
-/

namespace ProxmoxTool.ConfigBackup

/-- Simple lower-casing as `re.IGNORECASE` compares ASCII patterns: besides the capitals, four letters outside ASCII. -/
def foldCase (c : Char) : Char :=
  if c.isUpper then c.toLower
  else if c.toNat = 0x130 ∨ c.toNat = 0x131 then 'i'
  else if c.toNat = 0x17f then 's'
  else if c.toNat = 0x212a then 'k'
  else c

/-- The alternatives of `_SECRET_KEY_PATTERN`. -/
def secretWords : List String :=
  ["password", "passwd", "secret", "token", "apikey", "api_key", "api-key", "privatekey", "private_key", "private-key",
    "webhook"]

/-- `_looks_like_secret_key`; `_EXTRA_SECRET_SETTING_KEYS` is empty. -/
def looksLikeSecretKey (key : String) : Bool :=
  secretWords.any fun w => hasSub w.toList (key.toList.map foldCase)

/-- `_FERNET_LIKE_RE.match`: `$` also matches before a newline at the end. -/
def looksLikeFernet (value : Text) : Bool :=
  let rest := value.drop 6
  let body := if rest.getLast? = some '\n' then rest.dropLast else rest
  ['g', 'A', 'A', 'A', 'A', 'A'].isPrefixOf value && 20 ≤ body.length &&
    body.all fun c => c.isAlphanum || c == '_' || c == '=' || c == '-'

/-- `_looks_like_secret_value`. -/
def looksLikeSecretValue (value : Option Text) : Bool := value.any looksLikeFernet

/-- `_AUTH_CRITICAL_SETTING_KEYS`. -/
def authCriticalKeys : List String :=
  ["trusted_subnets", "local_bypass_enabled", "cf_access_enabled", "cf_access_bypass_local_auth", "cf_access_audience",
    "cf_access_auto_provision", "cf_access_team_domain", "app_auto_update", "app_update_branch",
    "moderation_auto_ban_enabled"]

/-- `_SECRET_DESTINATION_SETTINGS`. -/
def secretDestinations : List (String × List String) :=
  [("moderation_mastodon_api_url", ["moderation_mastodon_api_token", "moderation_bot_token"]),
    ("moderation_peertube_api_url", ["moderation_peertube_api_token"]),
    ("unifi_base_url", ["unifi_password"])]

/-- The secrets sent to the address in the setting `key`; `none` if it is no such address. -/
def destinationSecrets (key : String) : Option (List String) := secretDestinations.lookup key

theorem mem_of_destinationSecrets {key : String} {secrets : List String}
    (h : destinationSecrets key = some secrets) : (key, secrets) ∈ secretDestinations := by
  rw [destinationSecrets, List.lookup_eq_some_iff] at h
  obtain ⟨l₁, l₂, heq, -⟩ := h
  rw [heq]
  simp

theorem destinationSecrets_of_mem {url : String} {secrets : List String}
    (h : (url, secrets) ∈ secretDestinations) : destinationSecrets url = some secrets := by
  have hall : ∀ e ∈ secretDestinations, destinationSecrets e.1 = some e.2 := by decide
  exact hall (url, secrets) h

theorem looksLikeSecretKey_of_mem {url key : String} {secrets : List String}
    (h : (url, secrets) ∈ secretDestinations) (hk : key ∈ secrets) : looksLikeSecretKey key = true := by
  have hall : ∀ e ∈ secretDestinations, ∀ k ∈ e.2, looksLikeSecretKey k = true := by
    unfold looksLikeSecretKey secretWords secretDestinations
    simp only [-String.reduceToList, List.forall_mem_cons, List.any_cons, List.any_nil]
    repeat rw [String.toList_ofList]
    decide
  exact hall (url, secrets) h key hk

theorem not_looksLikeSecretKey_of_mem {url : String} {secrets : List String}
    (h : (url, secrets) ∈ secretDestinations) : looksLikeSecretKey url = false := by
  have hall : ∀ e ∈ secretDestinations, looksLikeSecretKey e.1 = false := by
    unfold looksLikeSecretKey secretWords secretDestinations
    simp only [-String.reduceToList, List.forall_mem_cons, List.any_cons, List.any_nil]
    repeat rw [String.toList_ofList]
    decide
  exact hall (url, secrets) h

/-- `_INTERVAL_SETTING_KEYS` with their `INTERVAL_BOUNDS`. -/
def intervalBounds : List (String × Int × Int) :=
  [("scan_interval", 1, 168), ("discovery_interval", 1, 168), ("service_check_interval", 1, 1440),
    ("unifi_api_poll_interval", 1, 1440), ("prometheus_collect_interval", 10, 86400),
    ("moderation_check_interval_hours", 1, 8760), ("moderation_watch_poll_minutes", 1, 1440),
    ("moderation_log_retention_days", 30, 3650)]

/-- `parse_interval`, for a key with bounds; the text `None` is no number. -/
def parseInterval (low high : Int) (value : Option Text) : Option Int := do
  let i ← parseInt (← value)
  if low ≤ i ∧ i ≤ high then some i else none

end ProxmoxTool.ConfigBackup
