import ProxmoxTool.ConfigBackup.Restore

/-!
# Where stored secrets are sent

`Sends` says which stored secret the application would send to which address: the password or token of a host to its API,
the IPMI password to the BMC and into a file on the host, a `Credential` over SSH to a host or a guest, the secret of an
integration to its URL and into the configuration files of a guest.  A host or guest without a credential of its own uses the
default one (`core/scanner.py`, `routes/api.py`, `apps/`).

An import keeps the texts of `_HOST_SECRET_FIELDS` and `_SECRET_DESTINATION_SETTINGS` at their addresses: it empties those
that it repoints.  The link of a host survives when the host is repointed, the default credential is sent to whatever a created
guest or host, or a guest that has lost its link, names, and some secret settings go where an ordinary setting says.
`noNewSends_imported_iff` says exactly which imports send a secret to a new address.
-/

namespace ProxmoxTool.ConfigBackup

variable {flags : Flags} {db db' : Db}

/-- A stored ciphertext, or a row of `Credential`. -/
inductive Secret
  | text (s : Text)
  | credential (id : Nat)

inductive Address
  | api (hostname : Text) (port : Scalar)
  | bmc (address : Scalar)
  | ssh (address : Scalar)
  | url (address : Text)

/-- `Credential.query.filter_by(is_default=True).first()`. -/
def Db.defaultCredential (db : Db) : Option Nat := (db.credentials.find? (·.isDefault)).map Credential.id

/-- The credential that a row uses: the linked one, else the default one. -/
def Db.sshCredential (db : Db) (link : Option Nat) : Option Nat :=
  ((link.bind fun id => db.credentials.find? (·.id = id)).map Credential.id).or db.defaultCredential

/-- The address that SSH sessions to a guest are opened to.  Updates, exporters, the pages of the apps and the terminal open one
whatever the connection method; of the unusable addresses the apps refuse only the empty one. -/
def sshAddress (fields : GuestField → Scalar) : Option Scalar :=
  if (fields .ipAddress).truthy then some (fields .ipAddress) else none

/-- The other settings with the address of an integration, and the secrets sent there: `_regenerate_prometheus_config`,
`configure_smb_mount` and `run_peertube_install`. -/
def otherDestinations : List (String × List String) :=
  [("prometheus_mstdnca_metrics_url", ["prometheus_auth_token"]), ("jibri_smb_share", ["jibri_smb_password"]),
    ("peertube_db_host", ["peertube_db_password"])]

/-- The settings that name a guest, and the secrets that `apps/` write into files or a database on it. -/
def configGuests : List (String × List String) :=
  [("prometheus_guest_id", ["prometheus_auth_token", "unifi_password"]), ("peertube_guest_id", ["peertube_db_password"]),
    ("peertube_db_guest_id", ["peertube_db_password"]),
    ("jibri_guest_id", ["jibri_xmpp_password", "jibri_recorder_password", "jibri_smb_password"]),
    ("jitsi_guest_id", ["jibri_xmpp_password", "jibri_recorder_password"])]

def tokenAuth : Scalar := .str ['t', 'o', 'k', 'e', 'n']

/-- The application would send the secret to the address, by an operation that its users can ask for once the other settings
of the integration are filled in; `int` is Python's `int` of a text. -/
inductive Sends (int : Text → Option Int) (db : Db) : Secret → Address → Prop
  | token {h s} (hh : h ∈ db.hosts) (hauth : h.fields .authType = tokenAuth) (hs : h.apiTokenSecret = some s) :
    Sends int db (.text s) (.api h.hostname (h.fields .port))
  | password {h s} (hh : h ∈ db.hosts) (hauth : h.fields .authType ≠ tokenAuth) (hs : h.encryptedPassword = some s) :
    Sends int db (.text s) (.api h.hostname (h.fields .port))
  | ipmi {h s} (hh : h ∈ db.hosts) (hon : (h.fields .ipmiEnabled).truthy = true)
    (haddr : (h.fields .ipmiAddress).truthy = true) (hs : h.ipmiPassword = some s) :
    Sends int db (.text s) (.bmc (h.fields .ipmiAddress))
  | ipmiExporter {h s c} (hh : h ∈ db.hosts) (hc : db.sshCredential h.sshCredential = some c) (hs : h.ipmiPassword = some s) :
    Sends int db (.text s) (.ssh (.str h.hostname))
  | host {h c} (hh : h ∈ db.hosts) (hc : db.sshCredential h.sshCredential = some c) :
    Sends int db (.credential c) (.ssh (.str h.hostname))
  | guest {g a c} (hg : g ∈ db.guests) (ha : sshAddress g.fields = some a) (hc : db.sshCredential g.credential = some c) :
    Sends int db (.credential c) (.ssh a)
  | integration {url secrets key} (hd : (url, secrets) ∈ secretDestinations ++ otherDestinations) (hk : key ∈ secrets)
    (hs : settingText db key ≠ []) (hu : settingText db url ≠ []) :
    Sends int db (.text (settingText db key)) (.url (settingText db url))
  | config {setting secrets key g a c} (hd : (setting, secrets) ∈ configGuests) (hk : key ∈ secrets)
    (hs : settingText db key ≠ []) (hg : g ∈ db.guests) (hid : int (settingText db setting) = some (g.id : Int))
    (ha : sshAddress g.fields = some a) (hc : db.sshCredential g.credential = some c) :
    Sends int db (.text (settingText db key)) (.ssh a)

/-- No secret is sent to an address that it was not sent to before. -/
def NoNewSends (int : Text → Option Int) (db db' : Db) : Prop :=
  ∀ secret address, Sends int db' secret address → Sends int db secret address

/-- The tables after an import; a failed one is rolled back. -/
def imported (flags : Flags) (db : Db) (upload : Option Upload) : Db :=
  match applyImport flags db upload with
  | .ok (db', _) => db'
  | .error _ => db

/-! ### Targets of SSH sessions -/

inductive Row
  | host (id : Nat)
  | guest (id : Nat)
deriving DecidableEq

/-- A host or guest with its credential link and the address of its SSH sessions, if there are any. -/
structure Target where
  row : Row
  link : Option Nat
  address : Option Scalar

def Host.target (h : Host) : Target := ⟨.host h.id, h.sshCredential, some (.str h.hostname)⟩

def Guest.target (g : Guest) : Target := ⟨.guest g.id, g.credential, sshAddress g.fields⟩

def Db.targets (db : Db) : List Target := db.hosts.map Host.target ++ db.guests.map Guest.target

/-- The credential that the target uses, if any, was sent to its address before. -/
def Target.Known (int : Text → Option Int) (db : Db) (t : Target) : Prop :=
  ∀ address credential, t.address = some address → db.sshCredential t.link = some credential →
    Sends int db (.credential credential) (.ssh address)

/-- The target a host item writes: a new host has no link, an existing one keeps its own. -/
def hostTarget (flags : Flags) (db : Db) (item : HostItem) : Option Target := do
  let name ← textArg item.name
  let hostname ← textArg item.hostname
  if strip name = [] ∨ strip hostname = [] then none
  else match db.hosts.find? (·.name = strip name) with
    | none => some ⟨.host (freshId Host.id db.hosts), none, some (.str hostname)⟩
    | some host => if flags.importHosts then some ⟨.host host.id, host.sshCredential, some (.str hostname)⟩ else none

/-- The target a guest item writes: a new guest has no link, and one whose connection changes loses it. -/
def guestTarget (flags : Flags) (db : Db) (item : GuestItem) : Option Target := do
  let name ← textArg item.name
  let guestType ← textArg item.guestType
  if strip name = [] ∨ strip guestType ∉ guestTypes then none
  else
    let host ← hostNamed db item.hostName
    let vmid ← store .integer (got (item.fields .vmid))
    match findGuest db host vmid (strip name) (strip guestType) with
    | none =>
      let fields ← assign GuestField.kind (fun _ => .null) (writtenFields flags true item)
      some ⟨.guest (freshId Guest.id db.guests), none, sshAddress (insertDefaults GuestField.default fields)⟩
    | some old =>
      let fields ← assign GuestField.kind old.fields (writtenFields flags false item)
      some ⟨.guest old.id, if flags.importHosts && changesConnection old item then none else old.credential,
        sshAddress fields⟩

def Step.target (flags : Flags) (db : Db) : Step → Option Target
  | .host item => hostTarget flags db item
  | .guest item => guestTarget flags db item
  | _ => none

/-- The targets that a run writes, in order. -/
def writtenTargets (flags : Flags) : Db → List Step → List Target
  | _, [] => []
  | db, step :: steps => match importStep flags db step with
    | none => []
    | some (db', _) => (step.target flags db).toList ++ writtenTargets flags db' steps

/-- A target after the run: the last one written for its row, or one of a row that is not written. -/
def Left (flags : Flags) (db : Db) (steps : List Step) (t : Target) : Prop :=
  t ∈ lastWrites Target.row (writtenTargets flags db steps) ∨
    (t ∈ db.targets ∧ t.row ∉ (writtenTargets flags db steps).map Target.row)

/-! ### Settings with an address -/

/-- The text that a document gives for a setting, unless it is no text or looks like a secret. -/
def givenText (value : Value) : Option Text :=
  (valueText value).bind fun text => if looksLikeSecretValue text then none else some (text.getD [])

/-- What the settings of a document leave in an ordinary setting. -/
def leftText (key : String) (text : Text) (settings : List (String × Value)) : Text :=
  settings.foldl (fun text s => if s.1 = key then (givenText s.2).getD text else text) text

/-- A setting of the document empties the secret: with the opt-in, it gives its address of `_SECRET_DESTINATION_SETTINGS`
another text. -/
def Clears (flags : Flags) (db : Db) (setting : String × Value) (key : String) : Prop :=
  flags.importHosts = true ∧ ∃ secrets text, (setting.1, secrets) ∈ secretDestinations ∧ key ∈ secrets ∧
    givenText setting.2 = some text ∧ text ≠ settingText db setting.1

/-- A secret of `otherDestinations` was sent to the address that the document leaves. -/
def UrlsKnown (int : Text → Option Int) (db : Db) (doc : Document) : Prop :=
  ∀ url secrets key, (url, secrets) ∈ otherDestinations → key ∈ secrets → settingText db key ≠ [] →
    leftText url (settingText db url) doc.settings ≠ [] →
      Sends int db (.text (settingText db key)) (.url (leftText url (settingText db url) doc.settings))

/-- A secret in the files of a guest was sent to the address of the guest that the document leaves in the setting. -/
def ConfigsKnown (int : Text → Option Int) (flags : Flags) (db : Db) (doc : Document) : Prop :=
  ∀ setting secrets key, (setting, secrets) ∈ configGuests → key ∈ secrets → settingText db key ≠ [] →
    (∀ s ∈ doc.settings, ¬ Clears flags db s key) → ∀ id : Nat,
      int (leftText setting (settingText db setting) doc.settings) = some (id : Int) →
      ∀ t, Left flags db (doc.steps flags) t → t.row = .guest id → ∀ a c, t.address = some a →
        db.sshCredential t.link = some c → Sends int db (.text (settingText db key)) (.ssh a)

/-- The last write of each host and guest leaves a target that is known, and the settings leave known addresses. -/
def LeavesKnown (int : Text → Option Int) (flags : Flags) (db : Db) (upload : Option Upload) : Prop :=
  ∀ doc, validateDocument upload = .ok doc → (importSteps flags db (doc.steps flags)).isSome = true →
    (∀ t ∈ lastWrites Target.row (writtenTargets flags db (doc.steps flags)), t.Known int db) ∧
      UrlsKnown int db doc ∧ ConfigsKnown int flags db doc

variable {int : Text → Option Int}

theorem sends_credential_iff {c : Nat} {a : Scalar} :
    Sends int db (.credential c) (.ssh a) ↔
      ∃ t ∈ db.targets, t.address = some a ∧ db.sshCredential t.link = some c := by
  constructor
  · intro h
    cases h with
    | host hh hc =>
      exact ⟨_, List.mem_append_left _ (List.mem_map_of_mem hh), rfl, hc⟩
    | guest hg ha hc =>
      exact ⟨_, List.mem_append_right _ (List.mem_map_of_mem hg), ha, hc⟩
  · rintro ⟨t, ht, ha, hc⟩
    rcases List.mem_append.1 ht with ht | ht
    · obtain ⟨h, hh, rfl⟩ := List.mem_map.1 ht
      obtain rfl : Scalar.str h.hostname = a := Option.some.inj ha
      exact Sends.host hh hc
    · obtain ⟨g, hg, rfl⟩ := List.mem_map.1 ht
      exact Sends.guest hg ha hc

theorem known_of_mem {t : Target} (h : t ∈ db.targets) : t.Known int db :=
  fun _ _ ha hc => sends_credential_iff.2 ⟨t, h, ha, hc⟩

/-! ### What a run writes -/

private theorem host_key (h h' : Host) : h.target.row = h'.target.row ↔ h.id = h'.id := by
  simp [Host.target]

private theorem guest_key (g g' : Guest) : g.target.row = g'.target.row ↔ g.id = g'.id := by
  simp [Guest.target]

private theorem wrote_host {h : Host} {hosts : List Host}
    (hw : Wrote Target.row h.target (db.hosts.map Host.target) (hosts.map Host.target)) :
    Wrote Target.row h.target db.targets { db with hosts := hosts }.targets := by
  refine hw.append [] (db.guests.map Guest.target) (by simp) fun r hr => ?_
  obtain ⟨g, -, rfl⟩ := List.mem_map.1 hr
  simp [Host.target, Guest.target]

private theorem wrote_guest {g : Guest} {guests : List Guest}
    (hw : Wrote Target.row g.target (db.guests.map Guest.target) (guests.map Guest.target)) :
    Wrote Target.row g.target db.targets { db with guests := guests }.targets := by
  have := hw.append (db.hosts.map Host.target) [] (fun r hr => by
    obtain ⟨h, -, rfl⟩ := List.mem_map.1 hr
    simp [Host.target, Guest.target]) (by simp)
  rwa [List.append_nil, List.append_nil] at this

/-- The targets after a step: the one it writes, and those of the other rows. -/
def Writes (t : Option Target) (db db' : Db) : Prop :=
  match t with
  | none => db'.targets = db.targets
  | some t => Wrote Target.row t db.targets db'.targets

private theorem importHost_writes {item : HostItem} {note : Note} (h : importHost flags db item = some (db', note)) :
    Writes (hostTarget flags db item) db db' := by
  rcases importHost_cases h with ⟨rfl, name, hostname, hn, hh, hskip⟩ |
    ⟨name, hostname, hn, hh, hn', hh', ⟨hfind, fields, hf, rfl⟩ | ⟨host, fields, hfind, hflag, hf, rfl⟩⟩
  · have : hostTarget flags db' item = none := by
      simp only [hostTarget, hn, hh, Option.bind_eq_bind, Option.bind_some]
      rcases hskip with hempty | ⟨host, hfind, hflag⟩
      · rw [if_pos hempty]
      · simp [hfind, hflag]
    rw [this]
    rfl
  · have : hostTarget flags db item = some (newHost (freshId Host.id db.hosts) name hostname fields).target := by
      simp [hostTarget, hn, hh, hn', hh', hfind, newHost, Host.target]
    rw [this]
    exact wrote_host (wrote_insert Host.id host_key rfl)
  · have : hostTarget flags db item = some (repointHost host name hostname fields).target := by
      simp [hostTarget, hn, hh, hn', hh', hfind, hflag, repointHost, Host.target]
    rw [this]
    exact wrote_host (wrote_replaceRow Host.id host_key (List.mem_map.2 ⟨host, List.mem_of_find?_eq_some hfind, rfl⟩))

private theorem importGuest_writes {item : GuestItem} {note : Note}
    (h : importGuest flags db item = some (db', note)) : Writes (guestTarget flags db item) db db' := by
  rcases importGuest_cases h with ⟨rfl, name, guestType, hn, ht, hinvalid⟩ |
    ⟨name, guestType, host, vmid, fields, hn, ht, hn', ht', hh, hvm, hcase⟩
  · have : guestTarget flags db' item = none := by
      simp only [guestTarget, hn, ht, Option.bind_eq_bind, Option.bind_some]
      rw [if_pos hinvalid]
    rw [this]
    rfl
  · have hvalid : ¬ (strip name = [] ∨ strip guestType ∉ guestTypes) := by
      rw [not_or, not_not]
      exact ⟨hn', ht'⟩
    rcases hcase with ⟨hfind, hf, -, rfl⟩ | ⟨old, hfind, hf, rfl⟩
    · have : guestTarget flags db item =
          some (newGuest db (strip name) (strip guestType) host item fields).target := by
        simp only [guestTarget, hn, ht, Option.bind_eq_bind, Option.bind_some, if_neg hvalid, hh, hvm, hfind, hf]
        rfl
      rw [this]
      exact wrote_guest (wrote_insert Guest.id guest_key rfl)
    · have : guestTarget flags db item =
          some (updateGuest flags db old (strip name) (strip guestType) host item fields).target := by
        simp only [guestTarget, hn, ht, Option.bind_eq_bind, Option.bind_some, if_neg hvalid, hh, hvm, hfind, hf]
        rfl
      rw [this]
      exact wrote_guest (wrote_replaceRow Guest.id guest_key (List.mem_map.2 ⟨old, findGuest_mem hfind, rfl⟩))

theorem importStep_writes {step : Step} {note : Note} (h : importStep flags db step = some (db', note)) :
    Writes (step.target flags db) db db' := by
  have hframe := importStep_frame h
  cases step with
  | host item => exact importHost_writes h
  | guest item => exact importGuest_writes h
  | _ => exact (congrArg Db.targets hframe :)

/-- A run writes its targets one after the other. -/
theorem runSteps_writes {steps : List Step} (h : runSteps flags db steps = some db') :
    WroteAll Target.row (writtenTargets flags db steps) db.targets db'.targets := by
  induction steps generalizing db with
  | nil =>
    rw [runSteps_nil, Option.some_inj] at h
    rw [h]
    rfl
  | cons step steps ih =>
    rw [runSteps_cons, Option.bind_eq_some_iff] at h
    obtain ⟨⟨db₁, note⟩, hone, hrest⟩ := h
    have hwrites := importStep_writes hone
    have hall := ih hrest
    simp only [writtenTargets, hone]
    cases ht : step.target flags db with
    | none =>
      rw [ht] at hwrites
      rw [show db₁.targets = db.targets from hwrites] at hall
      simpa using hall
    | some t =>
      rw [ht] at hwrites
      exact ⟨db₁.targets, hwrites, hall⟩

/-! ### Stored texts stay where they are -/

theorem setting_setSetting (key : String) (value : Option Text) (k : String) :
    (setSetting db key value).setting k = if k = key then some value else db.setting k := by
  unfold Db.setting setSetting
  by_cases hany : db.settings.any (fun s => decide (s.1 = key)) = true
  · have hkeys : ((fun s : String × Option Text => decide (s.1 = k)) ∘ fun s => if s.1 = key then (key, value) else s) =
        fun s => decide (s.1 = k) := by
      funext s
      by_cases hs : s.1 = key
      · simp [hs]
      · simp [hs]
    rw [if_pos hany, List.find?_map, hkeys]
    by_cases hk : k = key
    · subst hk
      obtain ⟨s, hs, heq⟩ := List.any_eq_true.1 hany
      cases hf : db.settings.find? (fun s => decide (s.1 = k)) with
      | none => exact absurd heq (List.find?_eq_none.1 hf s hs)
      | some r =>
        have hr : r.1 = k := by simpa using List.find?_some hf
        simp [hr]
    · rw [if_neg hk, Option.map_map]
      cases hf : db.settings.find? (fun s => decide (s.1 = k)) with
      | none => rfl
      | some r =>
        have hr : r.1 = k := by simpa using List.find?_some hf
        simp [hr, hk]
  · rw [if_neg hany, List.find?_append]
    by_cases hk : k = key
    · subst hk
      have hf : db.settings.find? (fun s => decide (s.1 = k)) = none := by
        rw [List.find?_eq_none]
        intro s hs heq
        exact hany (List.any_eq_true.2 ⟨s, hs, heq⟩)
      simp [hf]
    · simp [hk, Ne.symm hk]

private theorem settingText_setSetting (key : String) (value : Option Text) (k : String) :
    settingText (setSetting db key value) k = if k = key then value.getD [] else settingText db k := by
  rw [settingText, setting_setSetting]
  split <;> rfl

private theorem settingText_clearSecrets (keys : List String) (k : String) :
    settingText (clearSecrets db keys) k = if k ∈ keys then [] else settingText db k := by
  induction keys generalizing db with
  | nil => simp [clearSecrets]
  | cons key keys ih =>
    rw [clearSecrets, List.foldl_cons]
    change settingText (clearSecrets _ keys) k = _
    rw [ih]
    by_cases hk : k ∈ keys
    · simp [hk]
    · by_cases hkey : k = key
      · subst hkey
        by_cases hempty : settingText db k = []
        · simp [hempty]
        · simp [hempty, settingText_setSetting]
      · by_cases hempty : settingText db key = []
        · simp [hk, hkey, hempty]
        · simp [hk, hkey, hempty, settingText_setSetting]

/-- A setting that an import writes without looking at other settings. -/
def Ordinary (key : String) : Prop :=
  looksLikeSecretKey key = false ∧ key ∉ authCriticalKeys ∧ intervalBounds.lookup key = none ∧ destinationSecrets key = none

private theorem ordinary_of_mem {key : String} {secrets : List String}
    (h : (key, secrets) ∈ otherDestinations ++ configGuests) : Ordinary key := by
  have hplain : ∀ e ∈ otherDestinations ++ configGuests, looksLikeSecretKey e.1 = false := by
    unfold looksLikeSecretKey secretWords otherDestinations configGuests
    simp only [-String.reduceToList, List.cons_append, List.nil_append, List.forall_mem_cons, List.any_cons, List.any_nil]
    repeat rw [String.toList_ofList]
    decide
  have hrest : ∀ e ∈ otherDestinations ++ configGuests,
      e.1 ∉ authCriticalKeys ∧ intervalBounds.lookup e.1 = none ∧ destinationSecrets e.1 = none := by decide
  exact ⟨hplain _ h, hrest _ h⟩

private theorem secretKey_of_mem {setting key : String} {secrets : List String}
    (h : (setting, secrets) ∈ otherDestinations ++ configGuests) (hk : key ∈ secrets) : looksLikeSecretKey key = true := by
  have hall : ∀ e ∈ otherDestinations ++ configGuests, ∀ k ∈ e.2, looksLikeSecretKey k = true := by
    unfold looksLikeSecretKey secretWords otherDestinations configGuests
    simp only [-String.reduceToList, List.cons_append, List.nil_append, List.forall_mem_cons, List.any_cons, List.any_nil]
    repeat rw [String.toList_ofList]
    decide
  exact hall _ h key hk

/-- A setting is passed over, or written, and then the secrets sent to another address than before are emptied. -/
private theorem importSetting_cases (flags : Flags) (db : Db) (key : String) (value : Value) :
    ((importSetting flags db key value).1 = db ∧
        (Ordinary key → givenText value = none) ∧
        (flags.importHosts = true → destinationSecrets key ≠ none → givenText value = none)) ∨
      (looksLikeSecretKey key = false ∧ ∃ text,
        (intervalBounds.lookup key = none → givenText value = some (text.getD [])) ∧
        (((importSetting flags db key value).1 = setSetting db key text ∧
            (destinationSecrets key ≠ none → text.getD [] = settingText db key)) ∨
          ∃ secrets, destinationSecrets key = some secrets ∧ flags.importHosts = true ∧ text.getD [] ≠ settingText db key ∧
            (importSetting flags db key value).1 = setSetting (clearSecrets db secrets) key text)) := by
  have hdest : ∀ secrets, destinationSecrets key = some secrets → key ∉ authCriticalKeys ∧ intervalBounds.lookup key = none := by
    intro secrets hd
    have hall : ∀ e ∈ secretDestinations, e.1 ∉ authCriticalKeys ∧ intervalBounds.lookup e.1 = none := by decide
    exact hall _ (mem_of_destinationSecrets hd)
  unfold importSetting
  cases hv : valueText value with
  | none => exact Or.inl ⟨rfl, fun _ => by simp [givenText, hv], fun _ _ => by simp [givenText, hv]⟩
  | some text =>
    dsimp only
    split
    · rename_i hsecret
      rw [Bool.or_eq_true] at hsecret
      refine Or.inl ⟨rfl, fun hord => ?_, fun _ hd => ?_⟩
      · have : looksLikeSecretValue text = true := hsecret.resolve_left (by simp [hord.1])
        simp [givenText, hv, this]
      · obtain ⟨secrets, hd⟩ := Option.ne_none_iff_exists'.1 hd
        have hplain := not_looksLikeSecretKey_of_mem (mem_of_destinationSecrets hd)
        have : looksLikeSecretValue text = true := hsecret.resolve_left (by simp [hplain])
        simp [givenText, hv, this]
    · rename_i hsecret
      obtain ⟨hkey, htext⟩ : looksLikeSecretKey key = false ∧ looksLikeSecretValue text = false := by simpa using hsecret
      have hgiven : givenText value = some (text.getD []) := by simp [givenText, hv, htext]
      split
      · rename_i hcritical
        refine Or.inl ⟨rfl, fun hord => absurd hcritical hord.2.1, fun _ hd => ?_⟩
        obtain ⟨secrets, hd⟩ := Option.ne_none_iff_exists'.1 hd
        exact absurd hcritical (hdest secrets hd).1
      · cases hvalue : settingValue key text with
        | none =>
          have hbounds : intervalBounds.lookup key ≠ none := by
            intro hnone
            simp [settingValue, hnone] at hvalue
          refine Or.inl ⟨rfl, fun hord => absurd hord.2.2.1 hbounds, fun _ hd => ?_⟩
          obtain ⟨secrets, hd⟩ := Option.ne_none_iff_exists'.1 hd
          exact absurd (hdest secrets hd).2 hbounds
        | some stored =>
          have hstored : intervalBounds.lookup key = none → givenText value = some (stored.getD []) := by
            intro hnone
            rw [settingValue, hnone] at hvalue
            rw [hgiven, Option.some.inj hvalue]
          dsimp only
          cases hd : destinationSecrets key with
          | none => exact Or.inr ⟨hkey, stored, hstored, Or.inl ⟨rfl, fun h => absurd rfl h⟩⟩
          | some secrets =>
            dsimp only
            split
            · rename_i hsame
              exact Or.inr ⟨hkey, stored, hstored, Or.inl ⟨rfl, fun _ => hsame⟩⟩
            · rename_i hne
              cases hflag : flags.importHosts with
              | false =>
                refine Or.inl ⟨rfl, fun hord => ?_, fun h => absurd h Bool.false_ne_true⟩
                rw [hord.2.2.2] at hd
                cases hd
              | true => exact Or.inr ⟨hkey, stored, hstored, Or.inr ⟨secrets, rfl, rfl, hne, rfl⟩⟩

/-- An ordinary setting gets the text that the document gives for it. -/
private theorem ordinary_importSetting {key : String} (hord : Ordinary key) (k : String) (value : Value) :
    settingText (importSetting flags db k value).1 key =
      if k = key then (givenText value).getD (settingText db key) else settingText db key := by
  rcases importSetting_cases flags db k value with ⟨heq, hnone, -⟩ | ⟨-, text, htext, ⟨heq, -⟩ | ⟨secrets, hd, -, -, heq⟩⟩
  · rw [heq]
    split
    · rename_i hk
      rw [hnone (hk ▸ hord), Option.getD_none]
    · rfl
  · rw [heq, settingText_setSetting]
    by_cases hk : k = key
    · rw [if_pos hk, if_pos hk.symm, htext (hk ▸ hord.2.2.1), Option.getD_some]
    · rw [if_neg hk, if_neg (Ne.symm hk)]
  · have hk : k ≠ key := by
      rintro rfl
      rw [hord.2.2.2] at hd
      cases hd
    have hmem : key ∉ secrets := by
      intro hmem
      have := looksLikeSecretKey_of_mem (mem_of_destinationSecrets hd) hmem
      rw [hord.1] at this
      cases this
    rw [heq, settingText_setSetting, if_neg hk.symm, settingText_clearSecrets, if_neg hmem, if_neg hk]

/-- A secret is emptied or it stays, and then the address of `_SECRET_DESTINATION_SETTINGS` that it is sent to stays. -/
private theorem secret_importSetting {key : String} (hkey : looksLikeSecretKey key = true) (s : String × Value) :
    (Clears flags db s key → settingText (importSetting flags db s.1 s.2).1 key = []) ∧
      (¬ Clears flags db s key → settingText (importSetting flags db s.1 s.2).1 key = settingText db key ∧
        ∀ url secrets, (url, secrets) ∈ secretDestinations → key ∈ secrets →
          settingText (importSetting flags db s.1 s.2).1 url = settingText db url) := by
  rcases importSetting_cases flags db s.1 s.2 with
    ⟨heq, -, hnone⟩ | ⟨hplain, text, htext, ⟨heq, hsame⟩ | ⟨secrets, hd, hflag, hne, heq⟩⟩
  · refine ⟨?_, fun _ => by simp [heq]⟩
    rintro ⟨hflag, secrets, text, hd, -, hgiven, -⟩
    rw [hnone hflag (by simp [destinationSecrets_of_mem hd])] at hgiven
    cases hgiven
  · have hk : key ≠ s.1 := by
      rintro rfl
      rw [hplain] at hkey
      cases hkey
    refine ⟨?_, fun _ => ⟨by rw [heq, settingText_setSetting, if_neg hk], fun url secrets hd _ => ?_⟩⟩
    · rintro ⟨-, secrets, given, hd, -, hgiven, hne⟩
      have hall : ∀ e ∈ secretDestinations, intervalBounds.lookup e.1 = none := by decide
      rw [htext (hall _ hd), Option.some_inj] at hgiven
      exact absurd (hsame (by simp [destinationSecrets_of_mem hd])) (hgiven ▸ hne)
    · rw [heq, settingText_setSetting]
      split
      · rename_i hurl
        rw [hsame (by simp [← hurl, destinationSecrets_of_mem hd]), hurl]
      · rfl
  · have hk : key ≠ s.1 := by
      rintro rfl
      rw [hplain] at hkey
      cases hkey
    have hmem := mem_of_destinationSecrets hd
    have hall : ∀ e ∈ secretDestinations, intervalBounds.lookup e.1 = none := by decide
    rw [heq]
    refine ⟨fun hclears => ?_, fun hnot => ?_⟩
    · obtain ⟨-, secrets', -, hd', hk', -⟩ := hclears
      rw [destinationSecrets_of_mem hd', Option.some_inj] at hd
      rw [settingText_setSetting, if_neg hk, settingText_clearSecrets, if_pos (hd ▸ hk')]
    · -- the setting clears all secrets of its address, so this is none of them
      have hnotmem : key ∉ secrets := fun hk' => hnot ⟨hflag, secrets, _, hmem, hk', htext (hall _ hmem), hne⟩
      refine ⟨by rw [settingText_setSetting, if_neg hk, settingText_clearSecrets, if_neg hnotmem], fun url secrets' hd' hk' => ?_⟩
      have hurl : url ≠ s.1 := by
        rintro rfl
        rw [destinationSecrets_of_mem hd', Option.some_inj] at hd
        exact hnotmem (hd ▸ hk')
      have hurl' : url ∉ secrets := by
        intro h
        have := looksLikeSecretKey_of_mem hmem h
        rw [not_looksLikeSecretKey_of_mem hd'] at this
        cases this
      rw [settingText_setSetting, if_neg hurl, settingText_clearSecrets, if_neg hurl']

/-- The steps of a document's settings. -/
private def settingSteps (settings : List (String × Value)) : List Step := settings.map fun s => .setting s.1 s.2

private theorem runSteps_setting {s : String × Value} {settings : List (String × Value)}
    (h : runSteps flags db (settingSteps (s :: settings)) = some db') :
    runSteps flags (importSetting flags db s.1 s.2).1 (settingSteps settings) = some db' := by
  rwa [settingSteps, List.map_cons, runSteps_cons] at h

private theorem ordinary_runSteps {key : String} (hord : Ordinary key) {settings : List (String × Value)}
    (h : runSteps flags db (settingSteps settings) = some db') : settingText db' key = leftText key (settingText db key) settings := by
  induction settings generalizing db with
  | nil =>
    rw [settingSteps, List.map_nil, runSteps_nil, Option.some_inj] at h
    rw [h]
    rfl
  | cons s settings ih =>
    rw [ih (runSteps_setting h), ordinary_importSetting hord]
    rfl

private theorem secret_runSteps {key : String} (hkey : looksLikeSecretKey key = true) {settings : List (String × Value)}
    (h : runSteps flags db (settingSteps settings) = some db') :
    ((∃ s ∈ settings, Clears flags db s key) → settingText db' key = []) ∧
      ((∀ s ∈ settings, ¬ Clears flags db s key) → settingText db' key = settingText db key ∧
        ∀ url secrets, (url, secrets) ∈ secretDestinations → key ∈ secrets → settingText db' url = settingText db url) := by
  induction settings generalizing db with
  | nil =>
    rw [settingSteps, List.map_nil, runSteps_nil, Option.some_inj] at h
    simp [h]
  | cons s settings ih =>
    obtain ⟨hempty, hsame⟩ := ih (runSteps_setting h)
    obtain ⟨hclears, hkept⟩ := @secret_importSetting flags db key hkey s
    by_cases hs : Clears flags db s key
    · -- an empty secret stays empty
      refine ⟨fun _ => ?_, fun hnone => absurd hs (hnone s List.mem_cons_self)⟩
      by_cases hlater : ∃ r ∈ settings, Clears flags (importSetting flags db s.1 s.2).1 r key
      · exact hempty hlater
      · rw [(hsame fun r hr hc => hlater ⟨r, hr, hc⟩).1, hclears hs]
    · obtain ⟨htext, hurl⟩ := hkept hs
      have hsameClears : ∀ r, Clears flags (importSetting flags db s.1 s.2).1 r key ↔ Clears flags db r key := by
        intro r
        unfold Clears
        refine and_congr_right fun _ => exists_congr fun secrets => exists_congr fun text => and_congr_right fun hd =>
          and_congr_right fun hk => ?_
        rw [hurl _ _ hd hk]
      refine ⟨?_, fun hnone => ?_⟩
      · rintro ⟨r, hr, hc⟩
        rcases List.mem_cons.1 hr with rfl | hr
        · exact absurd hc hs
        · exact hempty ⟨r, hr, (hsameClears r).2 hc⟩
      · obtain ⟨htext', hurl'⟩ := hsame fun r hr hc => hnone r (List.mem_cons_of_mem _ hr) ((hsameClears r).1 hc)
        exact ⟨htext'.trans htext, fun url secrets hd hk => (hurl' url secrets hd hk).trans (hurl url secrets hd hk)⟩

/-- A host has no stored texts, or it is as it was. -/
private def HostsKept (db db' : Db) : Prop :=
  ∀ h ∈ db'.hosts, (h.encryptedPassword = none ∧ h.apiTokenSecret = none ∧ h.ipmiPassword = none) ∨ h ∈ db.hosts

private theorem importHost_kept {db₀ : Db} {item : HostItem} {note : Note} (h : HostsKept db₀ db)
    (hstep : importHost flags db item = some (db', note)) : HostsKept db₀ db' := by
  rcases importHost_cases hstep with ⟨rfl, -⟩ | ⟨name, hostname, -, -, -, -, ⟨-, fields, -, rfl⟩ | ⟨host, fields, -, -, -, rfl⟩⟩
  · exact h
  · intro r hr
    rcases List.mem_append.1 hr with hr | hr
    · exact h r hr
    · rw [List.mem_singleton.1 hr]
      exact Or.inl ⟨rfl, rfl, rfl⟩
  · intro r hr
    rcases mem_replaceRow Host.id hr with rfl | ⟨hr, -⟩
    · exact Or.inl ⟨rfl, rfl, rfl⟩
    · exact h r hr

/-- After a run every stored text of a host is an old one; the run before the settings leaves the settings. -/
private theorem runSteps_kept {doc : Document} (hrun : runSteps flags db (doc.steps flags) = some db') :
    HostsKept db db' ∧ db'.credentials = db.credentials ∧
      ∃ db₁, db₁.settings = db.settings ∧ runSteps flags db₁ (settingSteps doc.settings) = some db' := by
  have hinv := runSteps_invariant (P := fun d => HostsKept db d ∧ d.credentials = db.credentials) ?_
    ⟨fun _ hh => Or.inr hh, rfl⟩ hrun
  · refine ⟨hinv.1, hinv.2, ?_⟩
    rw [Document.steps, runSteps_append, Option.bind_eq_some_iff] at hrun
    obtain ⟨db₁, hrows, hrest⟩ := hrun
    refine ⟨db₁, runSteps_invariant (P := fun d => d.settings = db.settings) ?_ rfl hrows, hrest⟩
    intro d d' note step hmem hd hstep
    have hframe := importStep_frame hstep
    cases step with
    | setting key value =>
      exfalso
      revert hmem
      cases flags.importRoles <;> simp
    | _ => exact (congrArg Db.settings hframe :).trans hd
  · rintro d d' note step - ⟨hhosts, hcred⟩ hstep
    have hframe := importStep_frame hstep
    cases step with
    | host item => exact ⟨importHost_kept hhosts hstep, (congrArg Db.credentials hframe :).trans hcred⟩
    | setting key value | tag item | guest item | role item =>
      refine ⟨?_, (congrArg Db.credentials hframe :).trans hcred⟩
      unfold HostsKept
      rwa [show d'.hosts = d.hosts from (congrArg Db.hosts hframe :)]

/-! ### The whole import -/

section

variable {doc : Document} (hrun : runSteps flags db (doc.steps flags) = some db')

include hrun

private theorem settingText_ordinary {key : String} (hord : Ordinary key) :
    settingText db' key = leftText key (settingText db key) doc.settings := by
  obtain ⟨-, -, db₁, hsettings, hrest⟩ := runSteps_kept hrun
  rw [ordinary_runSteps hord hrest, settingText, settingText, Db.setting, Db.setting, hsettings]

private theorem settingText_secret {key : String} (hkey : looksLikeSecretKey key = true) :
    ((∃ s ∈ doc.settings, Clears flags db s key) → settingText db' key = []) ∧
      ((∀ s ∈ doc.settings, ¬ Clears flags db s key) → settingText db' key = settingText db key ∧
        ∀ url secrets, (url, secrets) ∈ secretDestinations → key ∈ secrets → settingText db' url = settingText db url) := by
  obtain ⟨-, -, db₁, hsettings, hrest⟩ := runSteps_kept hrun
  have htext : ∀ k, settingText db₁ k = settingText db k := fun k => by
    rw [settingText, settingText, Db.setting, Db.setting, hsettings]
  have hclears : ∀ s, Clears flags db₁ s key ↔ Clears flags db s key := fun s => by rw [Clears, Clears, htext]
  have := secret_runSteps hkey hrest
  simpa only [hclears, htext] using this

/-- A secret that is left after a run is an old one, and nothing has emptied it. -/
private theorem secret_left {key : String} (hkey : looksLikeSecretKey key = true) (hs : settingText db' key ≠ []) :
    (∀ s ∈ doc.settings, ¬ Clears flags db s key) ∧ settingText db' key = settingText db key := by
  have hnot : ∀ s ∈ doc.settings, ¬ Clears flags db s key := fun s hmem hc => hs ((settingText_secret hrun hkey).1 ⟨s, hmem, hc⟩)
  exact ⟨hnot, ((settingText_secret hrun hkey).2 hnot).1⟩

/-- The secrets that no address of `_SECRET_DESTINATION_SETTINGS` is paired with are never emptied. -/
private theorem otherSecret_left {url key : String} {secrets : List String} (hd : (url, secrets) ∈ otherDestinations)
    (hk : key ∈ secrets) : settingText db' key = settingText db key := by
  have hkey := secretKey_of_mem (List.mem_append_left _ hd) hk
  refine ((settingText_secret hrun hkey).2 fun s _ => ?_).1
  rintro ⟨-, secrets', text, hd', hk', -⟩
  have hall : ∀ e ∈ otherDestinations, ∀ k ∈ e.2, ∀ d ∈ secretDestinations, k ∉ d.2 := by decide
  exact hall _ hd _ hk _ hd' hk'

private theorem mem_targets_iff (t : Target) : t ∈ db'.targets ↔ Left flags db (doc.steps flags) t :=
  (runSteps_writes hrun).mem_iff t

private theorem sshCredential_kept (link : Option Nat) : db'.sshCredential link = db.sshCredential link := by
  rw [Db.sshCredential, Db.sshCredential, Db.defaultCredential, Db.defaultCredential, (runSteps_kept hrun).2.1]

/-- The texts are sent to known addresses if the settings leave known ones. -/
private theorem sends_text {s : Text} {a : Address} (hurls : UrlsKnown int db doc) (hconfigs : ConfigsKnown int flags db doc)
    (h : Sends int db' (.text s) a) : Sends int db (.text s) a := by
  have hhosts := (runSteps_kept hrun).1
  cases h with
  | token hh hauth hs =>
    rcases hhosts _ hh with ⟨-, hnone, -⟩ | hh
    · rw [hnone] at hs
      cases hs
    · exact Sends.token hh hauth hs
  | password hh hauth hs =>
    rcases hhosts _ hh with ⟨hnone, -, -⟩ | hh
    · rw [hnone] at hs
      cases hs
    · exact Sends.password hh hauth hs
  | ipmi hh hon haddr hs =>
    rcases hhosts _ hh with ⟨-, -, hnone⟩ | hh
    · rw [hnone] at hs
      cases hs
    · exact Sends.ipmi hh hon haddr hs
  | ipmiExporter hh hc hs =>
    rcases hhosts _ hh with ⟨-, -, hnone⟩ | hh
    · rw [hnone] at hs
      cases hs
    · rw [sshCredential_kept hrun] at hc
      exact Sends.ipmiExporter hh hc hs
  | @integration url secrets key hd hk hs hu =>
    rcases List.mem_append.1 hd with hd' | hd'
    · have hkey := looksLikeSecretKey_of_mem hd' hk
      have hnot := (secret_left hrun hkey hs).1
      obtain ⟨htext, hurl⟩ := (settingText_secret hrun hkey).2 hnot
      rw [htext] at hs ⊢
      rw [hurl _ _ hd' hk] at hu ⊢
      exact Sends.integration hd hk hs hu
    · rw [otherSecret_left hrun hd' hk] at hs ⊢
      rw [settingText_ordinary hrun (ordinary_of_mem (List.mem_append_left _ hd'))] at hu ⊢
      exact hurls _ _ _ hd' hk hs hu
  | @config setting secrets key g a c hd hk hs hg hid ha hc =>
    obtain ⟨hnot, htext⟩ := secret_left hrun (secretKey_of_mem (List.mem_append_right _ hd) hk) hs
    rw [htext] at hs ⊢
    rw [settingText_ordinary hrun (ordinary_of_mem (List.mem_append_right _ hd))] at hid
    rw [sshCredential_kept hrun] at hc
    have hleft := (mem_targets_iff hrun g.target).1 (List.mem_append_right _ (List.mem_map_of_mem hg))
    exact hconfigs _ _ _ hd hk hs hnot _ hid _ hleft rfl a c ha hc

/-- After an import nothing new is sent exactly if the last target written for each row was known, and the addresses that the
settings leave were. -/
theorem runSteps_noNewSends_iff : NoNewSends int db db' ↔
    (∀ t ∈ lastWrites Target.row (writtenTargets flags db (doc.steps flags)), t.Known int db) ∧
      UrlsKnown int db doc ∧ ConfigsKnown int flags db doc := by
  constructor
  · intro h
    refine ⟨fun t ht address credential ha hc => ?_, fun url secrets key hd hk hs hu => ?_, ?_⟩
    · refine h _ _ (sends_credential_iff.2 ⟨t, (mem_targets_iff hrun t).2 (Or.inl ht), ha, ?_⟩)
      rw [sshCredential_kept hrun, hc]
    · have htext := otherSecret_left hrun hd hk
      have hurl := settingText_ordinary hrun (ordinary_of_mem (List.mem_append_left _ hd))
      refine h _ _ ?_
      rw [← htext] at hs ⊢
      rw [← hurl] at hu ⊢
      exact Sends.integration (List.mem_append_right _ hd) hk hs hu
    · intro setting secrets key hd hk hs hnot id hid t ht hrow a c ha hc
      have htext := ((settingText_secret hrun (secretKey_of_mem (List.mem_append_right _ hd) hk)).2 hnot).1
      rw [← settingText_ordinary hrun (ordinary_of_mem (List.mem_append_right _ hd))] at hid
      obtain ⟨g, hg, rfl⟩ : ∃ g ∈ db'.guests, g.target = t := by
        rcases List.mem_append.1 ((mem_targets_iff hrun t).2 ht) with ht | ht
        · obtain ⟨h, -, rfl⟩ := List.mem_map.1 ht
          cases hrow
        · exact List.mem_map.1 ht
      obtain rfl : g.id = id := Row.guest.inj hrow
      refine h _ _ ?_
      rw [← htext] at hs ⊢
      exact Sends.config hd hk hs hg hid ha ((sshCredential_kept hrun _).trans hc)
  · rintro ⟨h, hurls, hconfigs⟩ secret address hsend
    cases secret with
    | text s => exact sends_text hrun hurls hconfigs hsend
    | credential c =>
      obtain ⟨a, rfl⟩ : ∃ a, address = .ssh a := by
        cases hsend with
        | host _ _ => exact ⟨_, rfl⟩
        | guest _ _ _ => exact ⟨_, rfl⟩
      obtain ⟨t, ht, ha, hc⟩ := sends_credential_iff.1 hsend
      rw [sshCredential_kept hrun] at hc
      -- a target is the last one written for its row, or it was there before
      rcases (mem_targets_iff hrun t).1 ht with ht | ⟨ht, -⟩
      · exact h t ht a c ha hc
      · exact known_of_mem ht a c ha hc

end

/-- One node with an SSH credential and no default credential. -/
def linkedNode : Db where
  tags := []
  hosts := [⟨1, ['p'], ['o', 'l', 'd'], HostField.default, none, none, none, some 1⟩]
  guests := []
  roles := []
  settings := []
  credentials := [⟨1, false⟩]

/-- A document that names another address for the node. -/
def repointingDoc : Document where
  tags := []
  hosts := [⟨some (.scalar (.str ['p'])), some (.scalar (.str ['n', 'e', 'w'])), fun _ => none⟩]
  guests := []
  roles := []
  settings := []

end ProxmoxTool.ConfigBackup
