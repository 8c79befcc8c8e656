import ProxmoxTool.ConfigBackup.Automation

/-!
# Secrets in an export and in an import

Two databases that differ in their secrets only have the same export, and an import leaves the secrets of the settings, the settings of
the login and the intervals alone: `secrets_stay`.  A setting is secret by its key or by its value; the value of a Fernet token is secret
under every key.
-/

namespace ProxmoxTool.ConfigBackup

variable {flags : Flags} {db db' : Db} {note : Note}

/-! ### Exports -/

/-- A host without its credentials. -/
def Host.bare (host : Host) : Host :=
  { host with encryptedPassword := none, apiTokenSecret := none, ipmiPassword := none, sshCredential := none }

/-- A guest without its link to a credential. -/
def Guest.bare (guest : Guest) : Guest := { guest with credential := none }

/-- The same setting, with another value only where the key is that of a secret, or where both values are ciphertexts. -/
def SameSetting (s s' : String × Option Text) : Prop :=
  s.1 = s'.1 ∧ (s.2 = s'.2 ∨ looksLikeSecretKey s.1 = true ∨ looksLikeSecretValue s.2 = true ∧ looksLikeSecretValue s'.2 = true)

/-- The databases differ in their secrets only; the credentials are free. -/
structure SameButSecrets (db db' : Db) : Prop where
  tags : db.tags = db'.tags
  hosts : db.hosts.map Host.bare = db'.hosts.map Host.bare
  guests : db.guests.map Guest.bare = db'.guests.map Guest.bare
  roles : db.roles = db'.roles
  settings : List.Forall₂ SameSetting db.settings db'.settings

/-- An order by a key that the map keeps. -/
theorem map_orderBy {α β γ : Type} [LE β] [DecidableLE β] {key : α → β} {key' : γ → β} {f : α → γ} (hkey : ∀ a, key' (f a) = key a)
    (rows : List α) : (orderBy key rows).map f = orderBy key' (rows.map f) := by
  unfold orderBy
  refine List.map_insertionSort _ _ f rows fun a _ b _ => ?_
  rw [hkey, hkey]

/-- What an export takes from rows that agree under `f` is the same, if `f` keeps it. -/
theorem map_orderBy_congr {α β γ : Type} [LE β] [DecidableLE β] {key : α → β} {f : α → α} {item item' : α → γ}
    (hkey : ∀ a, key (f a) = key a) (hitem : ∀ a, item' (f a) = item a) (hitem' : ∀ a, item' (f a) = item' a) {rows rows' : List α}
    (h : rows.map f = rows'.map f) : (orderBy key rows).map item = (orderBy key rows').map item' := by
  have hleft : (orderBy key rows).map item = (orderBy key (rows.map f)).map item' := by
    rw [← map_orderBy hkey, List.map_map]
    exact List.map_congr_left fun a _ => (hitem a).symm
  have hright : (orderBy key rows').map item' = (orderBy key (rows'.map f)).map item' := by
    rw [← map_orderBy hkey, List.map_map]
    exact List.map_congr_left fun a _ => (hitem' a).symm
  rw [hleft, hright, h]

theorem hostName_bare (guest : Guest) :
    db.hostName guest = (guest.host.bind fun id => (db.hosts.map Host.bare).find? (·.id = id)).map Host.name := by
  have hfind : ∀ id : Nat, ((db.hosts.map Host.bare).find? (·.id = id)).map Host.name = (db.hosts.find? (·.id = id)).map Host.name := by
    intro id
    rw [List.find?_map, Option.map_map]
    rfl
  unfold Db.hostName
  cases guest.host with
  | none => rfl
  | some id => exact (hfind id).symm

theorem guestItem_congr (htags : db.tags = db'.tags) (hhosts : db.hosts.map Host.bare = db'.hosts.map Host.bare) (guest : Guest) :
    db.guestItem guest = db'.guestItem guest := by
  have hhost : db.hostName guest = db'.hostName guest := by rw [hostName_bare, hostName_bare, hhosts]
  have hnames : db.tagNames guest = db'.tagNames guest := by rw [Db.tagNames, Db.tagNames, htags]
  rw [Db.guestItem, Db.guestItem, hhost, hnames]

theorem exportSetting_congr {s s' : String × Option Text} (h : SameSetting s s') : exportSetting s = exportSetting s' := by
  obtain ⟨hkey, hvalue⟩ := h
  unfold exportSetting
  rw [← hkey]
  rcases hvalue with heq | hsecret | ⟨hleft, hright⟩
  · rw [heq]
  · rw [hsecret, Bool.true_or, Bool.true_or, if_pos rfl, if_pos rfl]
  · rw [hleft, hright, Bool.or_true, if_pos rfl, if_pos rfl]

theorem exportSettings_congr {settings settings' : List (String × Option Text)} (h : List.Forall₂ SameSetting settings settings') :
    settings.map exportSetting = settings'.map exportSetting := by
  induction h with
  | nil => rfl
  | cons hone _ ih => rw [List.map_cons, List.map_cons, exportSetting_congr hone, ih]

theorem buildExport_congr (h : SameButSecrets db db') : buildExport db = buildExport db' := by
  have hhosts : (orderBy Host.name db.hosts).map Host.item = (orderBy Host.name db'.hosts).map Host.item :=
    map_orderBy_congr (f := Host.bare) (fun _ => rfl) (show ∀ host : Host, host.bare.item = host.item from fun _ => rfl)
      (fun _ => rfl) h.hosts
  have hguests : (orderBy Guest.name db.guests).map db.guestItem = (orderBy Guest.name db'.guests).map db'.guestItem :=
    map_orderBy_congr (f := Guest.bare) (fun _ => rfl) (show ∀ guest : Guest, db'.guestItem guest.bare = db.guestItem guest from
      fun guest => (guestItem_congr h.tags h.hosts guest).symm) (fun _ => rfl) h.guests
  have hsettings : (orderBy Prod.fst db.settings).map exportSetting = (orderBy Prod.fst db'.settings).map exportSetting := by
    have hkey : ∀ s, Prod.fst (exportSetting s) = Prod.fst s := fun _ => rfl
    rw [map_orderBy hkey, map_orderBy hkey, exportSettings_congr h.settings]
  unfold buildExport
  rw [hhosts, h.tags, hguests, h.roles, hsettings]

/-! ### Imports -/

/-- The setting of the key may be cleared, if it was set, and nothing else. -/
def ClearedAtMost (db db' : Db) (key : String) : Prop :=
  db'.setting key = db.setting key ∨ settingText db key ≠ [] ∧ db'.setting key = some (some [])

/-- What an import leaves alone among the settings. -/
structure SecretsKept (db db' : Db) : Prop where
  secret : ∀ key, looksLikeSecretKey key = true → ClearedAtMost db db' key
  critical : ∀ key ∈ authCriticalKeys, db'.setting key = db.setting key
  interval : ∀ key low high, (key, low, high) ∈ intervalBounds →
    db'.setting key = db.setting key ∨ ∃ i : Int, low ≤ i ∧ i ≤ high ∧ db'.setting key = some (some (intText i))

/-- What a step does to the setting of a key: nothing, or a secret is cleared, or a value that passes the checks is written. -/
inductive SettingStep (db db' : Db) (key : String) : Prop
  | same (h : db'.setting key = db.setting key)
  | cleared (hsecret : looksLikeSecretKey key = true) (hset : settingText db key ≠ []) (h : db'.setting key = some (some []))
  | written (hsecret : looksLikeSecretKey key = false) (hcritical : key ∉ authCriticalKeys) (text text' : Option Text)
    (hvalue : settingValue key text = some text') (h : db'.setting key = some text')

theorem clearSecrets_clears (keys : List String) (key : String) : ClearedAtMost db (clearSecrets db keys) key := by
  induction keys generalizing db with
  | nil => exact .inl rfl
  | cons k keys ih =>
    change ClearedAtMost db (clearSecrets (if settingText db k = [] then db else setSetting db k (some [])) keys) key
    by_cases hempty : settingText db k = []
    · rw [if_pos hempty]
      exact ih
    · rw [if_neg hempty]
      have hone : ClearedAtMost db (setSetting db k (some [])) key := by
        unfold ClearedAtMost
        rw [setting_setSetting]
        by_cases hkey : key = k
        · subst hkey
          exact .inr ⟨hempty, if_pos rfl⟩
        · exact .inl (if_neg hkey)
      have hrest : ClearedAtMost (setSetting db k (some [])) (clearSecrets (setSetting db k (some [])) keys) key := ih
      rcases hrest with hsame | ⟨hset, hcleared⟩
      · unfold ClearedAtMost
        rw [hsame]
        exact hone
      · rcases hone with hkept | hnow
        · rw [settingText, hkept] at hset
          exact .inr ⟨hset, hcleared⟩
        · rw [settingText, hnow.2] at hset
          exact absurd rfl hset

/-- The secrets of an address are cleared at most, the other settings are kept. -/
theorem clearSecrets_setting {url : String} {secrets : List String} (hdest : destinationSecrets url = some secrets) (key : String) :
    SettingStep db (clearSecrets db secrets) key := by
  by_cases hmem : key ∈ secrets
  · have hsecret := looksLikeSecretKey_of_mem (mem_of_destinationSecrets hdest) hmem
    have hclears : ClearedAtMost db (clearSecrets db secrets) key := clearSecrets_clears secrets key
    rcases hclears with hsame | ⟨hset, hcleared⟩
    · exact .same hsame
    · exact .cleared hsecret hset hcleared
  · refine .same ?_
    rw [setting_eq_rowsOf, rowsOf_clearSecrets hmem, ← setting_eq_rowsOf]

/-- Writing a value that passes the checks, after other settings have changed as a step may change them. -/
theorem settingStep_setSetting {key' key : String} {text text' : Option Text} (hsecret : looksLikeSecretKey key' = false)
    (hcritical : key' ∉ authCriticalKeys) (hvalue : settingValue key' text = some text') (h : SettingStep db db' key) :
    SettingStep db (setSetting db' key' text') key := by
  by_cases hkey : key = key'
  · subst hkey
    exact .written hsecret hcritical text text' hvalue (by rw [setting_setSetting, if_pos rfl])
  · have hkept : (setSetting db' key' text').setting key = db'.setting key := by rw [setting_setSetting, if_neg hkey]
    cases h with
    | same hsame => exact .same (hkept.trans hsame)
    | cleared hsecret hset hcleared => exact .cleared hsecret hset (hkept.trans hcleared)
    | written hsecret hcritical text text' hvalue hwritten => exact .written hsecret hcritical text text' hvalue (hkept.trans hwritten)

theorem settingStep_importSetting (flags : Flags) (db : Db) (key' : String) (value : Value) (key : String) :
    SettingStep db (importSetting flags db key' value).1 key := by
  unfold importSetting
  cases valueText value with
  | none => exact .same rfl
  | some text =>
    dsimp only
    split
    · exact .same rfl
    · rename_i hlooks
      have hsecret : looksLikeSecretKey key' = false := by
        simp only [Bool.or_eq_true, not_or, Bool.not_eq_true] at hlooks
        exact hlooks.1
      split
      · exact .same rfl
      · rename_i hcritical
        cases hvalue : settingValue key' text with
        | none => exact .same rfl
        | some text' =>
          dsimp only
          cases hdest : destinationSecrets key' with
          | none => exact settingStep_setSetting hsecret hcritical hvalue (.same rfl)
          | some secrets =>
            dsimp only
            split
            · exact settingStep_setSetting hsecret hcritical hvalue (.same rfl)
            · split
              · exact .same rfl
              · exact settingStep_setSetting hsecret hcritical hvalue (clearSecrets_setting hdest key)

theorem settingStep_importStep {step : Step} (h : importStep flags db step = some (db', note)) (key : String) :
    SettingStep db db' key := by
  have hframe := importStep_frame h
  cases step with
  | setting key' value =>
    obtain rfl : (importSetting flags db key' value).1 = db' := congrArg Prod.fst (Option.some.inj h)
    exact settingStep_importSetting flags db key' value key
  | _ =>
    unfold Step.Frame at hframe
    exact .same (by rw [hframe]; rfl)

/-- The value of an interval passes the checks only as a number within its bounds. -/
theorem settingValue_interval {key : String} {low high : Int} (hkey : (key, low, high) ∈ intervalBounds) {text text' : Option Text}
    (h : settingValue key text = some text') : ∃ i : Int, low ≤ i ∧ i ≤ high ∧ text' = some (intText i) := by
  have hall : ∀ bounds ∈ intervalBounds, intervalBounds.lookup bounds.1 = some bounds.2 := by decide
  have hlookup : intervalBounds.lookup key = some (low, high) := hall (key, low, high) hkey
  rw [settingValue, hlookup] at h
  obtain ⟨i, hparse, rfl⟩ := Option.map_eq_some_iff.1 h
  unfold parseInterval at hparse
  obtain ⟨t, -, hparse⟩ := Option.bind_eq_some_iff.1 hparse
  obtain ⟨j, -, hbound⟩ := Option.bind_eq_some_iff.1 hparse
  split at hbound
  · rename_i hin
    cases hbound
    exact ⟨i, hin.1, hin.2, rfl⟩
  · cases hbound

theorem clearedAtMost_step {d : Db} {key : String} (hsecret : looksLikeSecretKey key = true) (h : ClearedAtMost db d key)
    (hstep : SettingStep d db' key) : ClearedAtMost db db' key := by
  cases hstep with
  | same hsame =>
    unfold ClearedAtMost
    rw [hsame]
    exact h
  | cleared _ hset hcleared =>
    rcases h with hkept | hempty
    · rw [settingText, hkept] at hset
      exact .inr ⟨hset, hcleared⟩
    · rw [settingText, hempty.2] at hset
      exact absurd rfl hset
  | written hnot _ _ _ _ _ =>
    rw [hsecret] at hnot
    cases hnot

private theorem not_secret_of_interval {key : String} {low high : Int} (hkey : (key, low, high) ∈ intervalBounds) :
    looksLikeSecretKey key = false := by
  have hall : ∀ bounds ∈ intervalBounds, looksLikeSecretKey bounds.1 = false := by
    unfold looksLikeSecretKey secretWords intervalBounds
    simp only [-String.reduceToList, List.forall_mem_cons, List.any_cons, List.any_nil]
    repeat rw [String.toList_ofList]
    decide
  exact hall (key, low, high) hkey

private theorem not_secret_of_critical {key : String} (hkey : key ∈ authCriticalKeys) : looksLikeSecretKey key = false := by
  have hall : ∀ key ∈ authCriticalKeys, looksLikeSecretKey key = false := by
    unfold looksLikeSecretKey secretWords authCriticalKeys
    simp only [-String.reduceToList, List.forall_mem_cons, List.any_cons, List.any_nil]
    repeat rw [String.toList_ofList]
    decide
  exact hall _ hkey

theorem secretsKept_step {d : Db} (h : SecretsKept db d) (hstep : ∀ key, SettingStep d db' key) : SecretsKept db db' where
  secret key hsecret := clearedAtMost_step hsecret (h.secret key hsecret) (hstep key)
  critical key hkey := by
    cases hstep key with
    | same hsame => exact hsame.trans (h.critical key hkey)
    | cleared hsecret _ _ =>
      rw [not_secret_of_critical hkey] at hsecret
      cases hsecret
    | written _ hcritical _ _ _ _ => exact absurd hkey hcritical
  interval key low high hkey := by
    cases hstep key with
    | same hsame =>
      rw [hsame]
      exact h.interval key low high hkey
    | cleared hsecret _ _ =>
      rw [not_secret_of_interval hkey] at hsecret
      cases hsecret
    | written _ _ text text' hvalue hwritten =>
      obtain ⟨i, hlow, hhigh, rfl⟩ := settingValue_interval hkey hvalue
      exact .inr ⟨i, hlow, hhigh, hwritten⟩

/-- Also the steps of an import that fails later on keep the secrets. -/
theorem secretsKept_runSteps {steps : List Step} (h : runSteps flags db steps = some db') : SecretsKept db db' :=
  runSteps_invariant (P := SecretsKept db) (fun _ _ _ _ _ hkept hstep => secretsKept_step hkept (settingStep_importStep hstep))
    ⟨fun _ _ => .inl rfl, fun _ _ => rfl, fun _ _ _ _ => .inl rfl⟩ h

theorem secretsKept_imported (flags : Flags) (db : Db) (upload : Option Upload) : SecretsKept db (imported flags db upload) := by
  have hrefl : SecretsKept db db := secretsKept_runSteps (runSteps_nil : runSteps flags db [] = some db)
  unfold imported applyImport
  cases hdoc : validateDocument upload with
  | error message => exact hrefl
  | ok doc =>
    have hrun : runSteps flags db (doc.steps flags) = (importSteps flags db (doc.steps flags)).map Prod.fst := rfl
    cases hsteps : importSteps flags db (doc.steps flags) with
    | none => simpa only [hsteps] using hrefl
    | some r =>
      rw [hsteps] at hrun
      simpa only [hsteps] using secretsKept_runSteps hrun

theorem secrets_stay : (∀ db db' : Db, SameButSecrets db db' → buildExport db = buildExport db') ∧
    ∀ (flags : Flags) (db : Db) (upload : Option Upload), SecretsKept db (imported flags db upload) :=
  ⟨fun _ _ => buildExport_congr, secretsKept_imported⟩

/-- One guest, and a token of the bot. -/
def botNode (token : Text) : Db := { quietNode with settings := [("moderation_bot_token", some token)] }

/-- A document with another token, and another address to send it to. -/
def movedDoc : Document := { updatingDoc with
  settings := [("moderation_bot_token", .scalar (.str ['b'])), ("moderation_mastodon_api_url", .scalar (.str ['u']))] }

theorem botNode_exported : buildExport (botNode ['a']) = buildExport (botNode ['b']) ∧
    SecretsKept (botNode ['a']) (imported ⟨false, true⟩ (botNode ['a']) (some movedDoc.upload)) ∧
    (imported ⟨false, true⟩ (botNode ['a']) (some movedDoc.upload)).settings =
      [("moderation_bot_token", some []), ("moderation_mastodon_api_url", some ['u'])] :=
  ⟨secrets_stay.1 _ _ ⟨rfl, rfl, rfl, rfl, .cons ⟨rfl, .inr (.inl (by decide +kernel))⟩ .nil⟩, secrets_stay.2 _ _ _, by decide +kernel⟩

end ProxmoxTool.ConfigBackup
