import ProxmoxTool.ConfigBackup.Automation
import ProxmoxTool.ConfigBackup.RolesAgain

/-!
# A document twice

A second import of a document, over the tables that the first has left.  The sections come one after the other, and each of them writes its
own table (`sections_run`), so the tables stay as they are if each section leaves its own alone: `imported_twice_iff`.
-/

namespace ProxmoxTool.ConfigBackup

attribute [ext] Db

variable {flags : Flags} {db db' : Db}

/-! ### Sections -/

/-- The items of one kind change one table; `frame d d'` has it from `d'` and the other ones from `d`. -/
theorem section_frame {ι : Type} {mk : ι → Step} {items : List ι} (frame : Db → Db → Db) (hself : ∀ d, frame d d = d)
    (htrans : ∀ d d' d'', frame (frame d d') d'' = frame d d'') (hstep : ∀ item d d', (mk item).Frame d d' → d' = frame d d')
    (h : runSteps flags db (items.map mk) = some db') : db' = frame db db' := by
  refine runSteps_invariant (P := fun d => d = frame db d) (fun d d' note step hmem hd hone => ?_) (hself db).symm h
  obtain ⟨item, -, rfl⟩ := List.mem_map.1 hmem
  have hframe := hstep item d d' (importStep_frame hone)
  rw [hd, htrans] at hframe
  exact hframe

/-- The role items of a document, if they are imported. -/
def Document.roleItems (flags : Flags) (doc : Document) : List RoleItem := if flags.importRoles then doc.roles else []

/-- An import is a run of each section over its own table. -/
structure SectionsRun (flags : Flags) (doc : Document) (db db' : Db) : Prop where
  tags : runSteps flags db (doc.tags.map .tag) = some { db with tags := db'.tags }
  hosts : runSteps flags { db with tags := db'.tags } (doc.hosts.map .host) = some { db with tags := db'.tags, hosts := db'.hosts }
  guests : runSteps flags { db with tags := db'.tags, hosts := db'.hosts } (doc.guests.map .guest) =
    some { db with tags := db'.tags, hosts := db'.hosts, guests := db'.guests }
  roles : runSteps flags { db with tags := db'.tags, hosts := db'.hosts, guests := db'.guests } ((doc.roleItems flags).map .role) =
    some { db' with settings := db.settings }
  settings : runSteps flags { db' with settings := db.settings } (doc.settings.map fun s => .setting s.1 s.2) = some db'
  credentials : db'.credentials = db.credentials

theorem sections_run {doc : Document} (h : runSteps flags db (doc.steps flags) = some db') : SectionsRun flags doc db db' := by
  have hroles : (if flags.importRoles then doc.roles.map Step.role else []) = (doc.roleItems flags).map .role := by
    unfold Document.roleItems
    split
    · rfl
    · rfl
  unfold Document.steps at h
  rw [hroles] at h
  simp only [runSteps_append, Option.bind_eq_some_iff] at h
  obtain ⟨dR, ⟨dG, ⟨dH, ⟨dT, htags, hhosts⟩, hguests⟩, hroles⟩, hsettings⟩ := h
  have hT := section_frame (fun d d' => { d with tags := d'.tags }) (fun _ => rfl) (fun _ _ _ => rfl) (fun _ _ _ => id) htags
  have hH := section_frame (fun d d' => { d with hosts := d'.hosts }) (fun _ => rfl) (fun _ _ _ => rfl) (fun _ _ _ => id) hhosts
  have hG := section_frame (fun d d' => { d with guests := d'.guests }) (fun _ => rfl) (fun _ _ _ => rfl) (fun _ _ _ => id) hguests
  have hR := section_frame (fun d d' => { d with roles := d'.roles }) (fun _ => rfl) (fun _ _ _ => rfl) (fun _ _ _ => id) hroles
  have hS := section_frame (fun d d' => { d with settings := d'.settings }) (fun _ => rfl) (fun _ _ _ => rfl) (fun _ _ _ => id) hsettings
  generalize db'.settings = settings at hS
  generalize dR.roles = roles at hR
  generalize dG.guests = guests at hG
  generalize dH.hosts = hosts at hH
  generalize dT.tags = tags at hT
  subst hT hH hG hR hS
  exact ⟨htags, hhosts, hguests, hroles, hsettings, rfl⟩

/-! ### The second import -/

/-- The primary keys, and the names of the roles (`unique=True`). -/
structure Db.KeysDistinct (db : Db) : Prop where
  tags : (db.tags.map Tag.id).Nodup
  hosts : (db.hosts.map Host.id).Nodup
  guests : (db.guests.map Guest.id).Nodup
  roles : RoleNames db.roles

/-- The tables that the guests of a document are looked up in. -/
def guestTables (flags : Flags) (db : Db) (doc : Document) : Db :=
  (runSteps flags db (doc.tags.map .tag ++ doc.hosts.map .host)).getD db

/-- With the guests that the items leave, each item finds the guest again that it was written to, or that it has created. -/
def GuestsMeetAgain (flags : Flags) (db : Db) (items : List GuestItem) : Prop :=
  (guestTrace flags db items (guestRun flags db items db.guests)).map (Twice.key? Guest.id) =
    (guestTrace flags db items db.guests).map (Twice.key? Guest.id)

/-- What a document has to be like for a second import to leave the tables alone. -/
structure Settled (flags : Flags) (db : Db) (doc : Document) : Prop where
  hosts : HostsSettled flags db.hosts doc.hosts
  guests : GuestDefaultsKept flags (guestTables flags db doc) doc.guests
  roles : RolesSettled db.roles (doc.roleItems flags)

section

variable {doc : Document} {db₁ db₂ : Db}

theorem guestTables_eq (h : SectionsRun flags doc db db₁) :
    guestTables flags db doc = { db with tags := db₁.tags, hosts := db₁.hosts } := by
  unfold guestTables
  rw [runSteps_append, h.tags, Option.bind_some, h.hosts]
  rfl

theorem tags_twice (hkeys : db.KeysDistinct) (h₁ : SectionsRun flags doc db db₁) (h₂ : SectionsRun flags doc db₁ db₂) :
    db₂.tags = db₁.tags := @tags_again flags db _ doc.tags db₁ { db₁ with tags := db₂.tags } hkeys.tags h₁.tags rfl h₂.tags

theorem hosts_twice_iff (hkeys : db.KeysDistinct) (h₁ : SectionsRun flags doc db db₁) (h₂ : SectionsRun flags doc db₁ db₂) :
    db₂.hosts = db₁.hosts ↔ HostsSettled flags db.hosts doc.hosts :=
  @hosts_again_iff flags { db with tags := db₁.tags } _ doc.hosts { db₁ with tags := db₂.tags }
    { db₁ with tags := db₂.tags, hosts := db₂.hosts } hkeys.hosts h₁.hosts rfl h₂.hosts

theorem guests_twice_iff (hkeys : db.KeysDistinct) (h₁ : SectionsRun flags doc db db₁) (h₂ : SectionsRun flags doc db₁ db₂)
    (hhosts : db₂.hosts = db₁.hosts) (hmeet : GuestsMeetAgain flags (guestTables flags db doc) doc.guests) :
    db₂.guests = db₁.guests ↔ GuestDefaultsKept flags (guestTables flags db doc) doc.guests := by
  have htags := tags_twice hkeys h₁ h₂
  rw [guestTables_eq h₁] at hmeet ⊢
  have htags : ({ db₁ with tags := db₂.tags, hosts := db₂.hosts } : Db).tags =
      ({ db with tags := db₁.tags, hosts := db₁.hosts } : Db).tags := htags
  have hhosts : ({ db₁ with tags := db₂.tags, hosts := db₂.hosts } : Db).hosts =
      ({ db with tags := db₁.tags, hosts := db₁.hosts } : Db).hosts := hhosts
  refine @guests_again_iff flags { db with tags := db₁.tags, hosts := db₁.hosts } _ doc.guests
    { db₁ with tags := db₂.tags, hosts := db₂.hosts } { db₁ with tags := db₂.tags, hosts := db₂.hosts, guests := db₂.guests }
    hkeys.guests h₁.guests htags hhosts rfl h₂.guests ?_
  have hrun : db₁.guests = guestRun flags { db with tags := db₁.tags, hosts := db₁.hosts } doc.guests db.guests :=
    congrArg Db.guests (@guestItems_run flags { db with tags := db₁.tags, hosts := db₁.hosts } _ doc.guests hkeys.guests h₁.guests).1
  unfold GuestsMeetAgain at hmeet
  rw [← hrun] at hmeet
  rw [(guestTrace_congr flags htags hhosts doc.guests _).1]
  exact hmeet

theorem roles_twice_iff (hkeys : db.KeysDistinct) (h₁ : SectionsRun flags doc db db₁) (h₂ : SectionsRun flags doc db₁ db₂) :
    db₂.roles = db₁.roles ↔ RolesSettled db.roles (doc.roleItems flags) :=
  @roles_again_iff (doc.roleItems flags) flags { db with tags := db₁.tags, hosts := db₁.hosts, guests := db₁.guests } _
    { db₁ with tags := db₂.tags, hosts := db₂.hosts, guests := db₂.guests } { db₂ with settings := db₁.settings } hkeys.roles h₁.roles rfl
    h₂.roles

theorem settings_twice (hsettings : (doc.settings.map Prod.fst).Nodup) (h₁ : SectionsRun flags doc db db₁)
    (h₂ : SectionsRun flags doc db₁ db₂) : db₂.settings = db₁.settings := by
  have hagain := @settings_again flags { db₁ with settings := db.settings } db₁ doc.settings { db₂ with settings := db₁.settings } hsettings
    h₁.settings rfl
  rw [h₂.settings, Option.some_inj] at hagain
  rw [hagain]

/-- The tables after a second run of the sections. -/
theorem sections_twice_iff (hkeys : db.KeysDistinct) (hsettings : (doc.settings.map Prod.fst).Nodup) (h₁ : SectionsRun flags doc db db₁)
    (h₂ : SectionsRun flags doc db₁ db₂) : db₂ = db₁ ↔ db₂.hosts = db₁.hosts ∧ db₂.guests = db₁.guests ∧ db₂.roles = db₁.roles := by
  refine ⟨fun heq => by rw [heq]; exact ⟨rfl, rfl, rfl⟩, fun ⟨hhosts, hguests, hroles⟩ => ?_⟩
  exact Db.ext (tags_twice hkeys h₁ h₂) hhosts hguests hroles (settings_twice hsettings h₁ h₂) h₂.credentials

end

/-- The document is imported. -/
def Accepts (flags : Flags) (db : Db) (upload : Option Upload) : Prop := ∃ result, applyImport flags db upload = .ok result

theorem sectionsRun_imported {upload : Option Upload} {doc : Document} (hdoc : validateDocument upload = .ok doc)
    (h : Accepts flags db upload) : SectionsRun flags doc db (imported flags db upload) := by
  obtain ⟨⟨db', summary⟩, hok⟩ := h
  have himported : imported flags db upload = db' := by
    unfold imported
    rw [hok]
  obtain ⟨doc', hdoc', hrun⟩ := applyImport_ok hok
  rw [hdoc, Except.ok.injEq] at hdoc'
  rw [himported]
  exact sections_run (hdoc' ▸ hrun)

theorem accepts_of_runSteps {upload : Option Upload} {doc : Document} (hdoc : validateDocument upload = .ok doc)
    (h : (runSteps flags db (doc.steps flags)).isSome = true) : Accepts flags db upload := by
  unfold runSteps at h
  rw [Option.isSome_map] at h
  obtain ⟨⟨db', notes⟩, hsteps⟩ := Option.isSome_iff_exists.1 h
  refine ⟨(db', summary flags doc notes), ?_⟩
  unfold applyImport
  rw [hdoc]
  dsimp only
  rw [hsteps]

theorem imported_of_not_accepts {upload : Option Upload} (h : ¬ Accepts flags db upload) : imported flags db upload = db := by
  unfold imported
  cases hok : applyImport flags db upload with
  | ok result => exact absurd ⟨result, hok⟩ h
  | error failure => rfl

/-- A second import of a document leaves all tables alone, if it is refused, or if the hosts, guests and roles of the document are settled.
Hosts and roles have to be; of the guests this holds if each item finds its guest again. -/
theorem imported_twice_iff {upload : Option Upload} {doc : Document} (hkeys : db.KeysDistinct) (hdoc : validateDocument upload = .ok doc)
    (hsettings : (doc.settings.map Prod.fst).Nodup) (haccepts : Accepts flags db upload) :
    (imported flags (imported flags db upload) upload = imported flags db upload → Accepts flags (imported flags db upload) upload →
        HostsSettled flags db.hosts doc.hosts ∧ RolesSettled db.roles (doc.roleItems flags)) ∧
      (GuestsMeetAgain flags (guestTables flags db doc) doc.guests →
        (imported flags (imported flags db upload) upload = imported flags db upload ↔
          (Accepts flags (imported flags db upload) upload → Settled flags db doc))) := by
  have h₁ := sectionsRun_imported hdoc haccepts
  constructor
  · intro heq haccepts'
    have h₂ := sectionsRun_imported hdoc haccepts'
    rw [← hosts_twice_iff hkeys h₁ h₂, ← roles_twice_iff hkeys h₁ h₂, heq]
    exact ⟨rfl, rfl⟩
  · intro hmeet
    by_cases haccepts' : Accepts flags (imported flags db upload) upload
    · have h₂ := sectionsRun_imported hdoc haccepts'
      rw [sections_twice_iff hkeys hsettings h₁ h₂]
      constructor
      · rintro ⟨hhosts, hguests, hroles⟩ -
        exact ⟨(hosts_twice_iff hkeys h₁ h₂).1 hhosts, (guests_twice_iff hkeys h₁ h₂ hhosts hmeet).1 hguests,
          (roles_twice_iff hkeys h₁ h₂).1 hroles⟩
      · intro hsettled
        obtain ⟨hhosts, hguests, hroles⟩ := hsettled haccepts'
        have hhosts := (hosts_twice_iff hkeys h₁ h₂).2 hhosts
        exact ⟨hhosts, (guests_twice_iff hkeys h₁ h₂ hhosts hmeet).2 hguests, (roles_twice_iff hkeys h₁ h₂).2 hroles⟩
    · exact iff_of_true (imported_of_not_accepts haccepts') fun hyes => absurd hyes haccepts'

/-- A host, a role, and the guest that is there. -/
def settledDoc : Document where
  tags := []
  hosts := [⟨some (.scalar (.str ['n'])), some (.scalar (.str ['h'])), fun _ => none⟩]
  guests := updatingDoc.guests
  roles := [⟨some (.scalar (.str ['r'])), none, none, none, none, fun _ => none⟩]
  settings := updatingDoc.settings

theorem settledDoc_trace : ∀ t ∈ guestTrace ⟨true, false⟩ (guestTables ⟨true, false⟩ quietNode settledDoc) settledDoc.guests
    (guestTables ⟨true, false⟩ quietNode settledDoc).guests, (t matches .create ..) = false := by decide +kernel

theorem settledDoc_twice : imported ⟨true, false⟩ (imported ⟨true, false⟩ quietNode (some settledDoc.upload)) (some settledDoc.upload) =
    imported ⟨true, false⟩ quietNode (some settledDoc.upload) := by
  have hkeys : quietNode.KeysDistinct := ⟨by decide, by decide, by decide, List.nodup_nil⟩
  have hdoc := validateDocument_upload settledDoc
  have haccepts : Accepts ⟨true, false⟩ quietNode (some settledDoc.upload) := accepts_of_runSteps hdoc (by decide +kernel)
  have hmeet : GuestsMeetAgain ⟨true, false⟩ (guestTables ⟨true, false⟩ quietNode settledDoc) settledDoc.guests := by
    unfold GuestsMeetAgain
    decide +kernel
  refine ((imported_twice_iff hkeys hdoc (by decide) haccepts).2 hmeet).2 fun _ => ⟨?_, ?_, fun name => ?_⟩
  · intro item hitem n hn
    obtain rfl := List.mem_singleton.1 hitem
    obtain rfl : ['n'] = n := Option.some.inj hn
    exact .inr ⟨_, hitem, by decide, by decide⟩
  · intro before row item after heq
    have hcreate := settledDoc_trace (.create row item) (heq ▸ List.mem_append_right _ List.mem_cons_self)
    cases hcreate
  · rintro before creator after heq - -
    cases before with
    | nil => exact ⟨fun _ _ => rfl, fun _ _ _ => rfl, fun _ _ => rfl, fun _ _ => rfl⟩
    | cons item before =>
      have hnil := (List.cons.inj heq).2
      exact absurd hnil.symm (List.append_ne_nil_of_right_ne_nil before (List.cons_ne_nil _ _))

/-- A host whose name is not stripped is stored as it is and not found again. -/
def paddedDoc : Document where
  tags := []
  hosts := [⟨some (.scalar (.str [' ', 'n'])), some (.scalar (.str ['h'])), fun _ => none⟩]
  guests := []
  roles := []
  settings := []

theorem padded_host_added_again : quietNode.KeysDistinct ∧ Accepts ⟨false, false⟩ quietNode (some paddedDoc.upload) ∧
    imported ⟨false, false⟩ (imported ⟨false, false⟩ quietNode (some paddedDoc.upload)) (some paddedDoc.upload) ≠
      imported ⟨false, false⟩ quietNode (some paddedDoc.upload) := by
  refine ⟨⟨by decide, by decide, by decide, List.nodup_nil⟩, ?_, fun heq => ?_⟩
  · exact accepts_of_runSteps (validateDocument_upload paddedDoc) (by decide +kernel)
  · have hhosts := congrArg (fun db : Db => db.hosts.length) heq
    revert hhosts
    decide +kernel

end ProxmoxTool.ConfigBackup
