import ProxmoxTool.ConfigBackup.GuestsAgain
import ProxmoxTool.ConfigBackup.Secrets

/-!
# Automation in a document

What an import does to the switches of unattended changes.  The update of the application itself and the unattended bans are refused, the
other settings are taken as the document has them, and so is the `auto_update` of a guest: `automation_imported`.
-/

namespace ProxmoxTool.ConfigBackup

variable {flags : Flags} {db db' : Db} {note : Note}

/-- The switches among `_AUTH_CRITICAL_SETTING_KEYS`. -/
def guardedSwitches : List String := ["app_auto_update", "moderation_auto_ban_enabled"]

/-- The switches of the release checks and of the welcomes. -/
def openSwitches : List String :=
  ["mastodon_auto_upgrade", "ghost_auto_upgrade", "peertube_auto_upgrade", "elk_auto_upgrade", "harmony_auto_upgrade",
    "jitsi_auto_upgrade", "prometheus_auto_upgrade", "unpoller_auto_upgrade", "moderation_welcome_enabled"]

/-- `Setting.get(key, "false") == "true"`. -/
def Db.switchedOn (db : Db) (key : String) : Prop := db.setting key = some (some "true".toList)

instance (db : Db) (key : String) : Decidable (db.switchedOn key) := inferInstanceAs (Decidable (_ = _))

def Guest.updatesItself (guest : Guest) : Prop := guest.fields .autoUpdate = .bool true

/-- Nothing that was off is on. -/
structure NothingSwitchedOn (db db' : Db) : Prop where
  settings : ∀ key ∈ guardedSwitches ++ openSwitches, db'.switchedOn key → db.switchedOn key
  guests : ∀ guest ∈ db.guests, ∀ guest' ∈ db'.guests, guest'.id = guest.id → guest'.updatesItself → guest.updatesItself

/-! ### Settings -/

theorem setting_eq_rowsOf (db : Db) (key : String) : db.setting key = (db.rowsOf key).head?.map Prod.snd := by
  rw [Db.setting, Db.rowsOf, List.head?_filter]

theorem setting_importSetting_ne {key key' : String} (hne : key' ≠ key) (hsecret : looksLikeSecretKey key = false) (value : Value) :
    (importSetting flags db key' value).1.setting key = db.setting key := by
  rw [setting_eq_rowsOf, rowsOf_importSetting hne hsecret, ← setting_eq_rowsOf]

theorem importSetting_guarded {key : String} (hkey : key ∈ authCriticalKeys) (value : Value) : (importSetting flags db key value).1 = db := by
  unfold importSetting
  split
  · rfl
  · rw [if_pos hkey]
    split <;> rfl

variable (flags db) in
/-- A setting that is neither an interval nor an address is left alone or gets the text of the document. -/
theorem importSetting_plain {key : String} (hinterval : intervalBounds.lookup key = none) (haddress : destinationSecrets key = none)
    (value : Value) : (importSetting flags db key value).1 = db ∨
      ∃ text, valueText value = some text ∧ (importSetting flags db key value).1 = setSetting db key text := by
  unfold importSetting
  cases valueText value with
  | none => exact .inl rfl
  | some text =>
    have hvalue : settingValue key text = some text := by rw [settingValue, hinterval]
    simp only [hvalue, haddress]
    split
    · exact .inl rfl
    · split
      · exact .inl rfl
      · exact .inr ⟨text, rfl, rfl⟩

theorem valueText_eq_some {value : Value} {t : Text} (h : valueText value = some (some t)) : value = .scalar (.str t) := by
  unfold valueText at h
  split at h
  · cases h
  · cases h
    rfl
  · cases h

/-- A step writes the setting of its own key only. -/
theorem setting_importStep {step : Step} {key : String} (hsecret : looksLikeSecretKey key = false)
    (h : importStep flags db step = some (db', note)) (hstep : ∀ value, step ≠ .setting key value) : db'.setting key = db.setting key := by
  have hframe := importStep_frame h
  cases step with
  | setting key' value =>
    obtain rfl : (importSetting flags db key' value).1 = db' := congrArg Prod.fst (Option.some.inj h)
    refine setting_importSetting_ne ?_ hsecret value
    rintro rfl
    exact hstep value rfl
  | _ =>
    unfold Step.Frame at hframe
    rw [hframe]
    rfl

theorem guarded_kept {key : String} (hkey : key ∈ authCriticalKeys) (hsecret : looksLikeSecretKey key = false) {steps : List Step}
    (h : runSteps flags db steps = some db') : db'.setting key = db.setting key := by
  refine runSteps_invariant (P := fun d => d.setting key = db.setting key) (fun d d' n step _ hd hone => ?_) rfl h
  by_cases hstep : ∃ value, step = .setting key value
  · obtain ⟨value, rfl⟩ := hstep
    obtain rfl : (importSetting flags d key value).1 = d' := congrArg Prod.fst (Option.some.inj hone)
    rw [importSetting_guarded hkey]
    exact hd
  · rw [setting_importStep hsecret hone fun value heq => hstep ⟨value, heq⟩]
    exact hd

/-- A plain setting is on at the end only if it was on, or a step asks for it. -/
theorem switchedOn_of_run {key : String} (hsecret : looksLikeSecretKey key = false) (hinterval : intervalBounds.lookup key = none)
    (haddress : destinationSecrets key = none) {steps : List Step} (h : runSteps flags db steps = some db') (hon : db'.switchedOn key) :
    db.switchedOn key ∨ Step.setting key (.scalar (.str "true".toList)) ∈ steps := by
  refine runSteps_invariant
    (P := fun d => d.switchedOn key → db.switchedOn key ∨ Step.setting key (.scalar (.str "true".toList)) ∈ steps)
    (fun d d' n step hmem hd hone hon' => ?_) .inl h hon
  by_cases hstep : ∃ value, step = .setting key value
  · obtain ⟨value, rfl⟩ := hstep
    obtain rfl : (importSetting flags d key value).1 = d' := congrArg Prod.fst (Option.some.inj hone)
    rcases importSetting_plain flags d hinterval haddress value with hsame | ⟨text, hvalue, hset⟩
    · rw [hsame] at hon'
      exact hd hon'
    · rw [hset, Db.switchedOn, setting_setSetting, if_pos rfl] at hon'
      rw [Option.some.inj hon'] at hvalue
      rw [valueText_eq_some hvalue] at hmem
      exact .inr hmem
  · rw [Db.switchedOn, setting_importStep hsecret hone fun value heq => hstep ⟨value, heq⟩] at hon'
    exact hd hon'

/-! ### Guests -/

/-- The value that a step gives to the `auto_update` of guest `id`, if its item is written to that guest and has one. -/
def Step.autoUpdate (db : Db) (id : Nat) : Step → Option Scalar
  | .guest item =>
    if item.valid && (item.found db).any (fun guest => guest.id = id) then stored GuestField.kind item.fields .autoUpdate else none
  | _ => none

/-- The last value that the steps give to it. -/
def lastAutoUpdate (flags : Flags) (id : Nat) : Db → List Step → Option Scalar
  | _, [] => none
  | db, step :: steps => match importStep flags db step with
    | none => none
    | some (db', _) => (lastAutoUpdate flags id db' steps).or (step.autoUpdate db id)

theorem guest_importStep (hkeys : (db.guests.map Guest.id).Nodup) {step : Step} (h : importStep flags db step = some (db', note)) :
    (db'.guests.map Guest.id).Nodup ∧ ∀ guest ∈ db.guests, ∃ guest' ∈ db'.guests, guest'.id = guest.id ∧
      guest'.fields .autoUpdate = (step.autoUpdate db guest.id).getD (guest.fields .autoUpdate) := by
  have hother : db'.guests = db.guests → (∀ id, step.autoUpdate db id = none) →
      (db'.guests.map Guest.id).Nodup ∧ ∀ guest ∈ db.guests, ∃ guest' ∈ db'.guests, guest'.id = guest.id ∧
        guest'.fields .autoUpdate = (step.autoUpdate db guest.id).getD (guest.fields .autoUpdate) := by
    intro hsame hnone
    rw [hsame]
    exact ⟨hkeys, fun guest hguest => ⟨guest, hguest, rfl, by rw [hnone]; rfl⟩⟩
  have hframe := importStep_frame h
  cases step with
  | tag item | host item | role item | setting key value =>
    unfold Step.Frame at hframe
    exact hother (by rw [hframe]) fun _ => rfl
  | guest item =>
    obtain ⟨rfl, -⟩ := importGuest_upsert hkeys h
    have hnodup := guestUpsert_keys flags db hkeys item
    refine ⟨hnodup, fun guest hguest => ?_⟩
    cases hvalid : item.valid with
    | false =>
      have hgiven : Step.autoUpdate db guest.id (.guest item) = none := by simp [Step.autoUpdate, hvalid]
      refine ⟨guest, ?_, rfl, by rw [hgiven]; rfl⟩
      rw [guestUpsert, hvalid, if_neg Bool.false_ne_true]
      exact hguest
    | true =>
      cases hfound : item.found db with
      | none =>
        have hgiven : Step.autoUpdate db guest.id (.guest item) = none := by simp [Step.autoUpdate, hfound]
        refine ⟨guest, ?_, rfl, by rw [hgiven]; rfl⟩
        rw [guestUpsert, if_pos hvalid, hfound]
        exact List.mem_append_left _ hguest
      | some old =>
        rw [guestUpsert, if_pos hvalid, hfound]
        by_cases hid : guest.id = old.id
        · have hgiven : Step.autoUpdate db guest.id (.guest item) = stored GuestField.kind item.fields .autoUpdate := by
            simp [Step.autoUpdate, hvalid, hfound, hid]
          refine ⟨item.write flags db guest, List.mem_map.2 ⟨guest, hguest, if_pos hid⟩, rfl, ?_⟩
          rw [hgiven]
          rfl
        · have hgiven : Step.autoUpdate db guest.id (.guest item) = none := by simp [Step.autoUpdate, hfound, Ne.symm hid]
          exact ⟨guest, List.mem_map.2 ⟨guest, hguest, if_neg hid⟩, rfl, by rw [hgiven]; rfl⟩

/-- The steps write the `auto_update` of a guest that they find, and nothing else does. -/
theorem guest_runSteps {steps : List Step} (hkeys : (db.guests.map Guest.id).Nodup) (h : runSteps flags db steps = some db') :
    (db'.guests.map Guest.id).Nodup ∧ ∀ guest ∈ db.guests, ∃ guest' ∈ db'.guests, guest'.id = guest.id ∧
      guest'.fields .autoUpdate = (lastAutoUpdate flags guest.id db steps).getD (guest.fields .autoUpdate) := by
  induction steps generalizing db with
  | nil =>
    cases h
    exact ⟨hkeys, fun guest hguest => ⟨guest, hguest, rfl, rfl⟩⟩
  | cons step steps ih =>
    rw [runSteps_cons, Option.bind_eq_some_iff] at h
    obtain ⟨⟨db₁, note⟩, hone, hrest⟩ := h
    obtain ⟨hkeys₁, hstep⟩ := guest_importStep hkeys hone
    obtain ⟨hkeys', hafter⟩ := ih hkeys₁ hrest
    refine ⟨hkeys', fun guest hguest => ?_⟩
    obtain ⟨guest₁, hguest₁, hid₁, hfield₁⟩ := hstep guest hguest
    obtain ⟨guest', hguest', hid', hfield'⟩ := hafter guest₁ hguest₁
    refine ⟨guest', hguest', hid'.trans hid₁, ?_⟩
    have hlast : lastAutoUpdate flags guest.id db (step :: steps) =
        (lastAutoUpdate flags guest.id db₁ steps).or (step.autoUpdate db guest.id) := by rw [lastAutoUpdate, hone]
    rw [hfield', hfield₁, hid₁, hlast]
    cases lastAutoUpdate flags guest.id db₁ steps with
    | none => rfl
    | some value => rfl

/-! ### Imports -/

/-- The document gives the text `true` for the key. -/
def AsksFor (upload : Option Upload) (key : String) : Prop :=
  ∃ doc, validateDocument upload = .ok doc ∧ (key, Value.scalar (.str "true".toList)) ∈ doc.settings

/-- The last value that an item of the document gives to the `auto_update` of guest `id`; a failed import is rolled back. -/
def autoUpdateGiven (flags : Flags) (db : Db) (upload : Option Upload) (id : Nat) : Option Scalar :=
  match validateDocument upload with
  | .error _ => none
  | .ok doc => if (importSteps flags db (doc.steps flags)).isSome then lastAutoUpdate flags id db (doc.steps flags) else none

/-- What an import does to the switches of unattended changes. -/
structure AutomationImported (flags : Flags) (db : Db) (upload : Option Upload) (db' : Db) : Prop where
  guarded : ∀ key ∈ guardedSwitches, db'.setting key = db.setting key
  asked : ∀ key ∈ openSwitches, db'.switchedOn key → db.switchedOn key ∨ AsksFor upload key
  guests : ∀ guest ∈ db.guests, ∀ guest' ∈ db'.guests, guest'.id = guest.id →
    guest'.fields .autoUpdate = (autoUpdateGiven flags db upload guest.id).getD (guest.fields .autoUpdate)

private theorem guarded_keys : ∀ key ∈ guardedSwitches, key ∈ authCriticalKeys ∧ looksLikeSecretKey key = false := by
  unfold looksLikeSecretKey secretWords guardedSwitches
  simp only [-String.reduceToList, List.forall_mem_cons, List.any_cons, List.any_nil]
  repeat rw [String.toList_ofList]
  decide

private theorem open_keys : ∀ key ∈ openSwitches,
    looksLikeSecretKey key = false ∧ intervalBounds.lookup key = none ∧ destinationSecrets key = none := by
  unfold looksLikeSecretKey secretWords openSwitches
  simp only [-String.reduceToList, List.forall_mem_cons, List.any_cons, List.any_nil]
  repeat rw [String.toList_ofList]
  decide

private theorem setting_of_steps {doc : Document} {key : String} {value : Value} (h : Step.setting key value ∈ doc.steps flags) :
    (key, value) ∈ doc.settings := by
  unfold Document.steps at h
  simp only [List.mem_append, List.mem_map, reduceCtorEq, and_false, exists_false, false_or] at h
  rcases h with h | ⟨s, hs, heq⟩
  · split at h
    · obtain ⟨item, -, heq⟩ := List.mem_map.1 h
      cases heq
    · cases h
  · cases heq
    exact hs

theorem automation_imported (flags : Flags) (db : Db) (upload : Option Upload) (hkeys : (db.guests.map Guest.id).Nodup) :
    AutomationImported flags db upload (imported flags db upload) := by
  have hnothing : (∀ id, autoUpdateGiven flags db upload id = none) → AutomationImported flags db upload db := by
    intro hnone
    refine ⟨fun _ _ => rfl, fun _ _ => .inl, fun guest hguest guest' hguest' hid => ?_⟩
    rw [eq_of_id_eq Guest.id hkeys hguest' hguest hid, hnone]
    rfl
  unfold imported applyImport
  cases hdoc : validateDocument upload with
  | error message => exact hnothing fun id => by rw [autoUpdateGiven, hdoc]
  | ok doc =>
    have hrun : runSteps flags db (doc.steps flags) = (importSteps flags db (doc.steps flags)).map Prod.fst := rfl
    cases hsteps : importSteps flags db (doc.steps flags) with
    | none =>
      simp only [hsteps]
      exact hnothing fun id => by simp [autoUpdateGiven, hdoc, hsteps]
    | some r =>
      rw [hsteps] at hrun
      simp only [hsteps]
      refine ⟨fun key hkey => ?_, fun key hkey hon => ?_, fun guest hguest guest' hguest' hid => ?_⟩
      · obtain ⟨hcritical, hsecret⟩ := guarded_keys key hkey
        exact guarded_kept hcritical hsecret hrun
      · obtain ⟨hsecret, hinterval, haddress⟩ := open_keys key hkey
        exact (switchedOn_of_run hsecret hinterval haddress hrun hon).imp_right fun hmem => ⟨doc, hdoc, setting_of_steps hmem⟩
      · obtain ⟨hkeys', hafter⟩ := guest_runSteps hkeys hrun
        obtain ⟨guest₁, hguest₁, hid₁, hfield⟩ := hafter guest hguest
        rw [eq_of_id_eq Guest.id hkeys' hguest' hguest₁ (hid.trans hid₁.symm), hfield]
        simp [autoUpdateGiven, hdoc, hsteps]

/-- One guest, and nothing is switched on. -/
def quietNode : Db where
  tags := []
  hosts := []
  guests := [⟨1, ['w'], ['c', 't'], GuestField.default, none, none, []⟩]
  roles := []
  settings := []
  credentials := []

/-- A document that has the guest update itself. -/
def updatingDoc : Document where
  tags := []
  hosts := []
  guests := [⟨some (.scalar (.str ['w'])), some (.scalar (.str ['c', 't'])),
    fun f => if f = .autoUpdate then some (.scalar (.bool true)) else none, none, none⟩]
  roles := []
  settings := [("app_auto_update", .scalar (.str "true".toList))]

theorem updatingDoc_imported : AutomationImported ⟨false, false⟩ quietNode (some updatingDoc.upload)
      (imported ⟨false, false⟩ quietNode (some updatingDoc.upload)) ∧
    (imported ⟨false, false⟩ quietNode (some updatingDoc.upload)).setting "app_auto_update" = none ∧
    autoUpdateGiven ⟨false, false⟩ quietNode (some updatingDoc.upload) 1 = some (.bool true) :=
  ⟨automation_imported _ _ _ (by decide), by decide +kernel, by decide +kernel⟩

/-- Guests take their `auto_update` from the document. -/
theorem guest_updates_itself : ¬ NothingSwitchedOn quietNode (imported ⟨false, false⟩ quietNode (some updatingDoc.upload)) := by
  intro h
  have hon : ∃ guest ∈ (imported ⟨false, false⟩ quietNode (some updatingDoc.upload)).guests,
      guest.id = 1 ∧ guest.fields .autoUpdate = .bool true := by decide +kernel
  obtain ⟨guest, hguest, hid, hupdates⟩ := hon
  have hoff := h.guests _ List.mem_cons_self guest hguest hid hupdates
  cases hoff

end ProxmoxTool.ConfigBackup
