import ProxmoxTool.ConfigBackup.Rebuild

/-!
# Export, import into an empty database, export again

`roundTrips_iff_restorable` says for every database when this gives the same document: `Restorable` is a condition on the
rows.  If it holds, every step of the import creates its row and the tables are rebuilt.  If the second document is the
same, every step has created a row, which gives the conditions on pairs of rows, and the conditions on single rows hold for
everything the import writes.
-/

namespace ProxmoxTool.ConfigBackup

variable {flags : Flags} {D E : Db}

/-- What the schema promises of the rows. -/
structure Db.WF (db : Db) : Prop where
  tagNames : (db.tags.map Tag.name).Nodup
  networks : ∀ t ∈ db.tags, t.networks.Nodup
  colors : ∀ t ∈ db.tags, Legal .text t.color
  hostFields : ∀ h ∈ db.hosts, ∀ f : HostField, Legal f.kind (h.fields f)
  guestFields : ∀ g ∈ db.guests, ∀ f : GuestField, Legal f.kind (g.fields f)
  roles : ∀ r ∈ db.roles, Legal .text r.displayName ∧ Legal .text r.baseTier ∧ bindable r.level = true
  settingKeys : (db.settings.map Prod.fst).Nodup

/-- No tags, hosts, guests or settings. -/
structure Db.Blank (db : Db) : Prop where
  tags : db.tags = []
  hosts : db.hosts = []
  guests : db.guests = []
  settings : db.settings = []

/-- A guest of a document, with the names of its tags as a set. -/
def GuestItem.shape (item : GuestItem) :
    Option Value × Option Value × (GuestField → Option Value) × Option Value × Finset Text :=
  (item.name, item.guestType, item.fields, item.hostName, match item.tags with
    | some (.arr names) => (names.filterMap id).toFinset
    | _ => ∅)

/-- The same tags, hosts, multiset of guests and compared settings. -/
structure Same (doc doc' : Document) : Prop where
  tags : doc.tags = doc'.tags
  hosts : doc.hosts = doc'.hosts
  guests : (doc.guests.map GuestItem.shape).Perm (doc'.guests.map GuestItem.shape)
  settings : doc.settings.filter compared = doc'.settings.filter compared

/-- Importing the export of `D` into `E` succeeds, and exporting again gives the same. -/
def RoundTrips (flags : Flags) (D E : Db) : Prop :=
  ∃ E' summary, applyImport flags E (some (buildExport D).upload) = .ok (E', summary) ∧
    Same (buildExport E') (buildExport D)

structure Restorable (flags : Flags) (D : Db) : Prop where
  tags : ∀ t ∈ D.tags, t.Restorable
  hosts : ∀ h ∈ D.hosts, strip h.name ≠ [] ∧ strip h.hostname ≠ [] ∧ ∀ f, h.fields f = .null → f.default = .null
  hostNames : (orderBy Host.name D.hosts).Pairwise fun a b => a.name ≠ strip b.name
  guests : ∀ g ∈ D.guests, strip g.name = g.name ∧ g.name ≠ [] ∧ g.guestType ∈ guestTypes ∧
    ∀ f, g.fields f = .null → f.default = .null
  guestKeys : D.guests.Pairwise fun a b => ¬ (a.name = b.name ∧ a.guestType = b.guestType) ∧
    ¬ ∃ n, D.hostName a = some n ∧ D.hostName b = some n ∧ a.fields .vmid = b.fields .vmid ∧ a.fields .vmid ≠ .null
  settings : ∀ s ∈ D.settings, SettingRestorable flags s

/-! ### The five parts of the import -/

/-- The roles of `D` that are imported, in the order of the document. -/
private def importedRoles (flags : Flags) (D : Db) : List Role :=
  if flags.importRoles then (orderBy Role.level (orderBy Role.name D.roles).reverse).reverse else []

/-- The tables after each section of the document. -/
private theorem runSteps_sections {E' : Db} :
    runSteps flags E ((buildExport D).steps flags) = some E' ↔
      ∃ E₁ E₂ E₃ E₄,
        runSteps flags E ((orderBy Tag.name D.tags).map fun t => .tag t.item) = some E₁ ∧
        runSteps flags E₁ ((orderBy Host.name D.hosts).map fun h => .host h.item) = some E₂ ∧
        runSteps flags E₂ ((orderBy Guest.name D.guests).map fun g => .guest (D.guestItem g)) = some E₃ ∧
        runSteps flags E₃ ((importedRoles flags D).map fun r => .role r.item) = some E₄ ∧
        runSteps flags E₄ (((orderBy Prod.fst D.settings).map exportSetting).map fun s => .setting s.1 s.2) =
          some E' := by
  have hroles : (if flags.importRoles then (buildExport D).roles.map Step.role else []) =
      (importedRoles flags D).map fun r => .role r.item := by
    unfold importedRoles
    split
    · simp [buildExport]
    · rfl
  rw [Document.steps, hroles]
  simp only [runSteps_append, Option.bind_eq_some_iff, buildExport, List.map_map]
  constructor
  · rintro ⟨E₄, ⟨E₃, ⟨E₂, ⟨E₁, h1, h2⟩, h3⟩, h4⟩, h5⟩
    exact ⟨E₁, E₂, E₃, E₄, h1, h2, h3, h4, h5⟩
  · rintro ⟨E₁, E₂, E₃, E₄, h1, h2, h3, h4, h5⟩
    exact ⟨E₄, ⟨E₃, ⟨E₂, ⟨E₁, h1, h2⟩, h3⟩, h4⟩, h5⟩

private theorem applyImport_eq_ok {E' : Db} :
    (∃ summary, applyImport flags E (some (buildExport D).upload) = .ok (E', summary)) ↔
      runSteps flags E ((buildExport D).steps flags) = some E' := by
  simp only [applyImport, validateDocument_upload, runSteps]
  cases importSteps flags E ((buildExport D).steps flags) with
  | none => simp
  | some r =>
    simp only [Except.ok.injEq, Prod.mk.injEq, exists_and_left, exists_eq', and_true, Option.map_some, Option.some_inj]

/-- A table that no step of a section may write stays as it is. -/
private theorem section_keeps {α β : Type} {db db' : Db} {mk : α → Step} {xs : List α} (table : Db → β)
    (hrun : runSteps flags db (xs.map mk) = some db')
    (h : ∀ x db db', (mk x).Frame db db' → table db' = table db) : table db' = table db := by
  refine runSteps_invariant (P := fun d => table d = table db) ?_ rfl hrun
  intro d d' note step hmem hd hstep
  obtain ⟨x, -, rfl⟩ := List.mem_map.1 hmem
  rw [h x d d' (importStep_frame hstep), hd]

/-- The keys of the tags and of the hosts. -/
private def KeysNodup (db : Db) : Prop := (db.tags.map Tag.id).Nodup ∧ (db.hosts.map Host.id).Nodup

private theorem importStep_keysNodup {db db' : Db} {note : Note} {step : Step}
    (h : importStep flags db step = some (db', note)) (hdb : KeysNodup db) : KeysNodup db' := by
  cases step with
  | tag item =>
    rcases importTag_cases h with rfl | ⟨_, _, -, -, -, ⟨-, rfl⟩ | ⟨_, -, rfl⟩⟩
    · exact hdb
    · exact ⟨nodup_append_fresh Tag.id hdb.1 rfl, hdb.2⟩
    · exact ⟨by rw [map_id_replaceRow]; exact hdb.1, hdb.2⟩
  | host item =>
    rcases importHost_cases h with ⟨rfl, -⟩ | ⟨_, _, -, -, -, -, ⟨-, _, -, rfl⟩ | ⟨_, _, -, -, -, rfl⟩⟩
    · exact hdb
    · exact ⟨hdb.1, nodup_append_fresh Host.id hdb.2 rfl⟩
    · exact ⟨hdb.1, by rw [map_id_replaceRow]; exact hdb.2⟩
  | guest | role | setting =>
    rw [show db' = _ from importStep_frame h]
    exact hdb

private theorem map_eq_of_map_eq {α α' β γ : Type} {f : α → β} {f' : α' → β} {g : α → γ} {g' : α' → γ}
    (h : ∀ a a', f a = f' a' → g a = g' a') {l : List α} {l' : List α'} (hl : l.map f = l'.map f') :
    l.map g = l'.map g' := by
  induction l generalizing l' with
  | nil => cases l' with
    | nil => rfl
    | cons a' l' => cases hl
  | cons a l ih => cases l' with
    | nil => cases hl
    | cons a' l' =>
      rw [List.map_cons, List.map_cons, List.cons.injEq] at hl ⊢
      exact ⟨h a a' hl.1, ih hl.2⟩

/-! ### Guests and the rows they refer to -/

/-- The tags and hosts of `db` carry the names of those of `D`. -/
private structure Mirrors (db D : Db) : Prop where
  tagNames : ∀ n, n ∈ db.tags.map Tag.name ↔ n ∈ D.tags.map Tag.name
  hostNames : ∀ n, n ∈ db.hosts.map Host.name ↔ n ∈ D.hosts.map Host.name
  named : ∀ h ∈ D.hosts, h.name ≠ []
  tagIds : (db.tags.map Tag.id).Nodup
  hostIds : (db.hosts.map Host.id).Nodup

private theorem hostName_mem {g : Guest} {n : Text} (h : D.hostName g = some n) : n ∈ D.hosts.map Host.name := by
  obtain ⟨host, hfind, rfl⟩ := Option.map_eq_some_iff.1 h
  obtain ⟨id, -, hfind⟩ := Option.bind_eq_some_iff.1 hfind
  exact List.mem_map.2 ⟨host, List.mem_of_find?_eq_some hfind, rfl⟩

private theorem resolve_spec {db : Db} {name : Option Text} {h : Host} (hres : db.resolve name = some h) :
    h ∈ db.hosts ∧ name = some h.name := by
  obtain ⟨n, rfl, hfind⟩ := Option.bind_eq_some_iff.1 hres
  split at hfind
  · cases hfind
  · have := List.find?_some hfind
    exact ⟨List.mem_of_find?_eq_some hfind, by rw [of_decide_eq_true this]⟩

private theorem Mirrors.resolve_hostName {db : Db} (hm : Mirrors db D) {g : Guest} {n : Text}
    (h : D.hostName g = some n) : ∃ host, db.resolve (some n) = some host := by
  have hmem := hostName_mem h
  have hne : n ≠ [] := by
    obtain ⟨host, hhost, rfl⟩ := List.mem_map.1 hmem
    exact hm.named host hhost
  obtain ⟨host, hhost, hname⟩ := List.mem_map.1 ((hm.hostNames n).2 hmem)
  simp only [Db.resolve, Option.bind_some, hne, if_false]
  rw [← Option.isSome_iff_exists, List.find?_isSome]
  exact ⟨host, hhost, by simpa using hname⟩

/-- Two guests of one import: the second is merged with the first if they agree in name and type, or in host and VMID. -/
private theorem Mirrors.captures_iff {db : Db} (hm : Mirrors db D) (a b : Guest) :
    Captures db D (db.created D a 0) b ↔
      (strip a.name = strip b.name ∧ strip a.guestType = strip b.guestType) ∨
        ∃ n, D.hostName a = some n ∧ D.hostName b = some n ∧ a.fields .vmid = b.fields .vmid ∧
          a.fields .vmid ≠ .null := by
  unfold Captures
  rw [created_vmid]
  refine or_congr Iff.rfl ?_
  constructor
  · -- the ids of the rebuilt hosts are distinct, so one id is one name
    rintro ⟨h, hresb, hvmid, hhost, heq⟩
    obtain ⟨h', hresa, hid⟩ := Option.map_eq_some_iff.1 hhost
    obtain ⟨hmem, hb⟩ := resolve_spec hresb
    obtain ⟨hmem', ha⟩ := resolve_spec hresa
    rw [eq_of_id_eq Host.id hm.hostIds hmem' hmem hid] at ha
    exact ⟨h.name, ha, hb, heq, by rwa [heq]⟩
  · rintro ⟨n, ha, hb, heq, hvmid⟩
    obtain ⟨h, hres⟩ := hm.resolve_hostName ha
    refine ⟨h, by rw [hb, hres], by rwa [← heq], ?_, heq⟩
    simp [Db.created, ha, hres]

private theorem Mirrors.hostName_created {db : Db} (hm : Mirrors db D) (g : Guest) (id : Nat) :
    db.hostName (db.created D g id) = D.hostName g := by
  unfold Db.hostName Db.created
  cases hres : db.resolve (D.hostName g) with
  | none =>
    cases hname : D.hostName g with
    | none => simpa [Db.hostName] using hname.symm
    | some n =>
      obtain ⟨h, hsome⟩ := hm.resolve_hostName hname
      rw [hname, hsome] at hres
      cases hres
  | some h =>
    obtain ⟨hmem, hname⟩ := resolve_spec hres
    have hfind : db.hosts.find? (fun r => decide (r.id = h.id)) = some h := by
      cases hf : db.hosts.find? (fun r => decide (r.id = h.id)) with
      | none => simpa using List.find?_eq_none.1 hf h hmem
      | some r =>
        rw [eq_of_id_eq Host.id hm.hostIds (List.mem_of_find?_eq_some hf) hmem (by simpa using List.find?_some hf)]
    change _ = D.hostName g
    simp [hfind, hname]

private theorem Mirrors.mem_tagNames_created {db : Db} (hm : Mirrors db D) (g : Guest) (id : Nat) (n : Text) :
    n ∈ db.tagNames (db.created D g id) ↔ n ∈ D.tagNames g := by
  have hsub : n ∈ D.tagNames g → n ∈ D.tags.map Tag.name := by
    intro h
    obtain ⟨t, ht, rfl⟩ := List.mem_map.1 h
    exact List.mem_map.2 ⟨t, (List.mem_filter.1 ht).1, rfl⟩
  have hmem : n ∈ db.tagNames (db.created D g id) ↔ ∃ t ∈ db.tags, t.name = n ∧ ∃ t' ∈ db.tags,
      t'.name ∈ D.tagNames g ∧ t'.id = t.id := by
    have hlink : ∀ i, i ∈ (db.created D g id).tags ↔ ∃ t' ∈ db.tags, t'.name ∈ D.tagNames g ∧ t'.id = i := by
      intro i
      simp [Db.created, and_assoc]
    rw [Db.tagNames, List.mem_map]
    simp only [List.mem_filter, decide_eq_true_eq, hlink]
    constructor
    · rintro ⟨t, ⟨ht, hlinked⟩, hname⟩
      exact ⟨t, ht, hname, hlinked⟩
    · rintro ⟨t, ht, hname, hlinked⟩
      exact ⟨t, ⟨ht, hlinked⟩, hname⟩
  rw [hmem]
  constructor
  · rintro ⟨t, ht, rfl, t', ht', hname, hid⟩
    rwa [eq_of_id_eq Tag.id hm.tagIds ht' ht hid] at hname
  · intro h
    obtain ⟨t, ht, rfl⟩ := List.mem_map.1 ((hm.tagNames n).2 (hsub h))
    exact ⟨t, ht, rfl, t, ht, h, rfl⟩

/-- The item of a guest with its texts stripped and its defaults filled in. -/
private def Db.restoredItem (D : Db) (g : Guest) : GuestItem :=
  D.guestItem { g with
    name := strip g.name
    guestType := strip g.guestType
    fields := insertDefaults GuestField.default g.fields }

private theorem Mirrors.shape_created {db : Db} (hm : Mirrors db D) (g : Guest) (id : Nat) :
    (db.guestItem (db.created D g id)).shape = (D.restoredItem g).shape := by
  have htags : (db.tagNames (db.created D g id)).toFinset = (D.tagNames g).toFinset := by
    ext n
    simpa using hm.mem_tagNames_created g id n
  simp only [GuestItem.shape, Db.guestItem, Db.restoredItem, hm.hostName_created, List.filterMap_map, Function.comp_def,
    id_eq, List.filterMap_some, htags]
  rfl

/-! ### Tags and hosts -/

private theorem name_of_tag_item {t t' : Tag} (h : t.item = t'.item) : t.name = t'.name := by
  simpa [Tag.item] using congrArg TagItem.name h

private theorem tag_restorable_of_item {t t' : Tag} (h : t.item = t'.item) (hr : t.Restorable) : t'.Restorable := by
  have hname := name_of_tag_item h
  have hcolor : t.color = t'.color := by simpa [Tag.item] using congrArg TagItem.color h
  have hnets : t.networks = t'.networks := by
    simpa [Tag.item, List.map_inj_right (Option.some_injective _)] using congrArg TagItem.unifiNetworks h
  unfold Tag.Restorable at hr ⊢
  rwa [← hname, ← hcolor, ← hnets]

private theorem name_of_host_item (h h' : Host) (heq : h.item = h'.item) : h.name = h'.name := by
  simpa [Host.item] using congrArg HostItem.name heq

/-- Restorable tags and hosts that do not capture one another come back, in order. -/
private theorem rebuilt (flags : Flags) (hD : D.WF) (hE : E.Blank) (htags : ∀ t ∈ D.tags, t.Restorable)
    (hhosts : ∀ h ∈ D.hosts, strip h.name ≠ [] ∧ strip h.hostname ≠ [])
    (hnames : (orderBy Host.name D.hosts).Pairwise fun a b => a.name ≠ strip b.name) :
    ∃ tags hosts,
      runSteps flags E ((orderBy Tag.name D.tags).map fun t => .tag t.item) = some { E with tags := tags } ∧
      runSteps flags { E with tags := tags } ((orderBy Host.name D.hosts).map fun h => .host h.item) =
        some { E with tags := tags, hosts := hosts } ∧
      orderBy Tag.name tags = tags ∧ tags.map Tag.item = (orderBy Tag.name D.tags).map Tag.item ∧
      orderBy Host.name hosts = hosts ∧
      hosts.map Host.item = (orderBy Host.name D.hosts).map (fun h => h.inserted.item) ∧
      Mirrors { E with tags := tags, hosts := hosts } D := by
  obtain ⟨tags, hrun, htagItems⟩ := tags_run flags E
    (fun t (ht : t ∈ orderBy Tag.name D.tags) => htags t (mem_orderBy.1 ht)) (fun t ht => hD.networks t (mem_orderBy.1 ht))
    (fun t ht => hD.colors t (mem_orderBy.1 ht))
    (((orderBy_perm Tag.name D.tags).map Tag.name).nodup_iff.2 hD.tagNames) (by simp [hE.tags])
  rw [hE.tags, List.nil_append] at hrun
  obtain ⟨hosts, hrun', hhostItems⟩ := hosts_run flags { E with tags := tags }
    (fun h (hh : h ∈ orderBy Host.name D.hosts) => hD.hostFields h (mem_orderBy.1 hh))
    (fun h hh => hhosts h (mem_orderBy.1 hh)) hnames (by simp [hE.hosts])
  rw [show ({ E with tags := tags } : Db).hosts ++ hosts = hosts by simp [hE.hosts]] at hrun'
  have htagNames : tags.map Tag.name = (orderBy Tag.name D.tags).map Tag.name :=
    map_eq_of_map_eq (fun _ _ => name_of_tag_item) htagItems
  have hhostNames : hosts.map Host.name = (orderBy Host.name D.hosts).map Host.name := by
    refine map_eq_of_map_eq ?_ hhostItems
    intro r h heq
    exact name_of_host_item r h.inserted heq
  have hkeys : KeysNodup { E with tags := tags, hosts := hosts } := by
    have hstart : KeysNodup E := by simp [KeysNodup, hE.tags, hE.hosts]
    have hmid := runSteps_invariant (fun _ _ _ _ _ hdb h => importStep_keysNodup h hdb) hstart hrun
    exact runSteps_invariant (fun _ _ _ _ _ hdb h => importStep_keysNodup h hdb) hmid hrun'
  refine ⟨tags, hosts, hrun, hrun', orderBy_of_pairwise ?_, htagItems, orderBy_of_pairwise ?_, hhostItems, ?_⟩
  · rw [htagNames]
    exact pairwise_orderBy Tag.name D.tags
  · rw [hhostNames]
    exact pairwise_orderBy Host.name D.hosts
  · constructor
    · intro n
      simp only [htagNames, ((orderBy_perm Tag.name D.tags).map Tag.name).mem_iff]
    · intro n
      simp only [hhostNames, ((orderBy_perm Host.name D.hosts).map Host.name).mem_iff]
    · intro h hh hempty
      exact (hhosts h hh).1 (by rw [hempty]; rfl)
    · exact hkeys.1
    · exact hkeys.2

/-! ### Guests and settings -/

/-- Valid guests that do not capture one another are all created. -/
private theorem guests_rebuilt (flags : Flags) {db : Db} (hD : D.WF) (hm : Mirrors db D) (hguests : db.guests = [])
    (hv : ∀ g ∈ D.guests, g.Valid)
    (hp : (orderBy Guest.name D.guests).Pairwise fun a b => ¬ Captures db D (db.created D a 0) b) :
    ∃ guests, runSteps flags db ((orderBy Guest.name D.guests).map fun g => .guest (D.guestItem g)) =
        some { db with guests := guests } ∧
      (guests.map db.guestItem).map GuestItem.shape =
        ((orderBy Guest.name D.guests).map D.restoredItem).map GuestItem.shape := by
  obtain ⟨guests, hrun, hrows⟩ := guests_run flags db (fun g hg => hD.guestFields g (mem_orderBy.1 hg))
    (fun g hg => hv g (mem_orderBy.1 hg)) hp (by simp [hguests])
  rw [hguests, List.nil_append] at hrun
  refine ⟨guests, hrun, ?_⟩
  rw [List.map_map, List.map_map]
  refine map_eq_of_map_eq ?_ hrows
  intro r g heq
  calc (db.guestItem r).shape = (db.guestItem { r with id := 0 }).shape := rfl
    _ = (db.guestItem (db.created D g 0)).shape := by rw [heq]
    _ = (D.restoredItem g).shape := hm.shape_created g 0

/-- Roles and settings never fail. -/
private theorem settings_rebuilt (flags : Flags) (db : Db) (hD : D.WF) (hsettings : db.settings = []) :
    ∃ db₄ settings, runSteps flags db ((importedRoles flags D).map fun r => .role r.item) = some db₄ ∧
      runSteps flags db₄ (((orderBy Prod.fst D.settings).map exportSetting).map fun s => .setting s.1 s.2) =
        some { db with roles := db₄.roles, settings := settings } ∧
      orderBy Prod.fst settings = settings ∧
      settings = ((orderBy Prod.fst D.settings).map exportSetting).filterMap (keptSetting flags) := by
  have hroles : ∀ r ∈ importedRoles flags D, r ∈ D.roles := by
    intro r hr
    unfold importedRoles at hr
    split at hr
    · rw [List.mem_reverse, mem_orderBy, List.mem_reverse, mem_orderBy] at hr
      exact hr
    · cases hr
  obtain ⟨roles, hrun⟩ := roles_run flags db fun r hr => hD.roles r (hroles r hr)
  have hkeys : ((orderBy Prod.fst D.settings).map exportSetting).map Prod.fst =
      (orderBy Prod.fst D.settings).map Prod.fst := by
    rw [List.map_map]
    rfl
  have hrun' := settings_run flags { db with roles := roles }
    (show (((orderBy Prod.fst D.settings).map exportSetting).map Prod.fst).Nodup by
      rw [hkeys]
      exact ((orderBy_perm _ _).map Prod.fst).nodup_iff.2 hD.settingKeys)
    (by simp [hsettings]) (by simp [hsettings])
  have hnil : ∀ kept, ({ db with roles := roles } : Db).settings ++ kept = kept := by simp [hsettings]
  rw [hnil] at hrun'
  refine ⟨_, _, hrun, hrun', orderBy_of_pairwise ?_, rfl⟩
  -- what is kept of an ordered list of keys is ordered
  have hsub : ((((orderBy Prod.fst D.settings).map exportSetting).filterMap (keptSetting flags)).map Prod.fst).Sublist
      ((orderBy Prod.fst D.settings).map Prod.fst) := by
    rw [← hkeys]
    generalize (orderBy Prod.fst D.settings).map exportSetting = ss
    induction ss with
    | nil => simp
    | cons s ss ih =>
      rw [List.filterMap_cons, List.map_cons]
      split
      · exact ih.cons _
      · rename_i e he
        obtain ⟨-, -, -, -, -, hkey⟩ := keptSetting_inv he
        rw [List.map_cons, hkey]
        exact ih.cons_cons _
  exact (pairwise_orderBy Prod.fst D.settings).sublist hsub

/-! ### The round trip -/

private theorem insertDefaults_eq_self_iff {F : Type} (default fields : F → Scalar) :
    insertDefaults default fields = fields ↔ ∀ f, fields f = .null → default f = .null := by
  constructor
  · intro h f hnull
    have := congrFun h f
    rwa [insertDefaults, if_pos hnull, hnull] at this
  · intro h
    funext f
    unfold insertDefaults
    split
    · rename_i hnull
      rw [hnull, h f hnull]
    · rfl

private theorem inserted_item_eq_iff {h : Host} :
    h.inserted.item = h.item ↔ ∀ f, h.fields f = .null → f.default = .null := by
  rw [← insertDefaults_eq_self_iff HostField.default]
  constructor
  · intro heq
    funext f
    simpa [Host.item, Host.inserted] using congrFun (congrArg HostItem.fields heq) f
  · intro heq
    rw [Host.inserted, heq]

private theorem strip_guestType : ∀ t ∈ guestTypes, strip t = t := by decide

private theorem restoredItem_eq {g : Guest} (hname : strip g.name = g.name) (htype : g.guestType ∈ guestTypes)
    (hdef : ∀ f, g.fields f = .null → f.default = .null) : D.restoredItem g = D.guestItem g := by
  rw [Db.restoredItem, hname, strip_guestType _ htype, (insertDefaults_eq_self_iff _ _).2 hdef]

private theorem distinct_symm {a b : Guest} (h : ¬ (a.name = b.name ∧ a.guestType = b.guestType) ∧
      ¬ ∃ n, D.hostName a = some n ∧ D.hostName b = some n ∧ a.fields .vmid = b.fields .vmid ∧ a.fields .vmid ≠ .null) :
    ¬ (b.name = a.name ∧ b.guestType = a.guestType) ∧
      ¬ ∃ n, D.hostName b = some n ∧ D.hostName a = some n ∧ b.fields .vmid = a.fields .vmid ∧
        b.fields .vmid ≠ .null := by
  refine ⟨fun hn => h.1 ⟨hn.1.symm, hn.2.symm⟩, ?_⟩
  rintro ⟨n, hb, ha, heq, hne⟩
  exact h.2 ⟨n, ha, hb, heq.symm, by rwa [← heq]⟩

/-- Restorable guests capture one another exactly as the condition on pairs says, in any order. -/
private theorem Mirrors.fresh_iff {db : Db} (hm : Mirrors db D)
    (hg : ∀ g ∈ D.guests, strip g.name = g.name ∧ g.guestType ∈ guestTypes) :
    ((orderBy Guest.name D.guests).Pairwise fun a b => ¬ Captures db D (db.created D a 0) b) ↔
      D.guests.Pairwise fun a b => ¬ (a.name = b.name ∧ a.guestType = b.guestType) ∧
        ¬ ∃ n, D.hostName a = some n ∧ D.hostName b = some n ∧ a.fields .vmid = b.fields .vmid ∧
          a.fields .vmid ≠ .null := by
  rw [← (orderBy_perm Guest.name D.guests).pairwise_iff distinct_symm]
  refine List.Pairwise.iff_of_mem fun {a b} ha hb => ?_
  obtain ⟨hna, hta⟩ := hg a (mem_orderBy.1 ha)
  obtain ⟨hnb, htb⟩ := hg b (mem_orderBy.1 hb)
  rw [hm.captures_iff, hna, hnb, strip_guestType _ hta, strip_guestType _ htb, not_or]

/-- If the condition holds, the second document is the same as the first. -/
private theorem roundTrips_of_restorable (hD : D.WF) (hE : E.Blank) (hr : Restorable flags D) :
    RoundTrips flags D E := by
  obtain ⟨tags, hosts, h1, h2, htags, htagItems, hhosts, hhostItems, hm⟩ := rebuilt flags hD hE hr.tags
    (fun h hh => ⟨(hr.hosts h hh).1, (hr.hosts h hh).2.1⟩) hr.hostNames
  have hfresh := (hm.fresh_iff fun g hg => ⟨(hr.guests g hg).1, (hr.guests g hg).2.2.1⟩).2 hr.guestKeys
  -- guests refer to hosts and tags by name, so they are compared over the rebuilt ones
  obtain ⟨guests, h3, hshapes⟩ := guests_rebuilt flags hD hm hE.guests (fun g hg => by
    obtain ⟨hn, hne, ht, -⟩ := hr.guests g hg
    exact ⟨by rwa [hn], by rwa [strip_guestType _ ht]⟩) hfresh
  obtain ⟨E₄, settings, h4, h5, hsorted, hsettings⟩ := settings_rebuilt flags
    { E with tags := tags, hosts := hosts, guests := guests } hD hE.settings
  obtain ⟨summary, hok⟩ := applyImport_eq_ok.2 (runSteps_sections.2 ⟨_, _, _, _, h1, h2, h3, h4, h5⟩)
  refine ⟨_, summary, hok, ⟨?_, ?_, ?_, ?_⟩⟩
  · simp only [buildExport, htags, htagItems]
  · simp only [buildExport, hhosts, hhostItems]
    refine List.map_congr_left fun h hh => inserted_item_eq_iff.2 (hr.hosts h (mem_orderBy.1 hh)).2.2
  · have hitems : (orderBy Guest.name D.guests).map D.restoredItem = (orderBy Guest.name D.guests).map D.guestItem := by
      refine List.map_congr_left fun g hg => ?_
      obtain ⟨hn, -, ht, hdef⟩ := hr.guests g (mem_orderBy.1 hg)
      exact restoredItem_eq hn ht hdef
    rw [hitems] at hshapes
    change (((orderBy Guest.name guests).map _).map _).Perm (((orderBy Guest.name D.guests).map D.guestItem).map _)
    rw [← hshapes]
    exact ((orderBy_perm Guest.name guests).map _).map _
  · change ((orderBy Prod.fst settings).map exportSetting).filter compared = _
    rw [hsorted, hsettings]
    exact settings_same_iff.2 fun s hs => hr.settings s (mem_orderBy.1 hs)

section

variable {E₁ E₂ E₃ E₄ E' : Db}

private theorem tags_of_same (hE : E.Blank)
    (h1 : runSteps flags E ((orderBy Tag.name D.tags).map fun t => .tag t.item) = some E₁) (hkept : E'.tags = E₁.tags)
    (hsame : (buildExport E').tags = (buildExport D).tags) : ∀ t ∈ D.tags, t.Restorable := by
  have hall : ∀ t ∈ E₁.tags, t.Restorable := by
    refine runSteps_invariant (P := fun db => ∀ t ∈ db.tags, t.Restorable) ?_ (by simp [hE.tags]) h1
    intro db db' note step hmem hdb hstep
    obtain ⟨t, -, rfl⟩ := List.mem_map.1 hmem
    exact importTag_restorable hstep hdb
  intro t ht
  have hitem : t.item ∈ (buildExport E').tags := by
    rw [hsame]
    exact List.mem_map_of_mem (mem_orderBy.2 ht)
  obtain ⟨t', ht', heq⟩ := List.mem_map.1 hitem
  rw [mem_orderBy, hkept] at ht'
  exact tag_restorable_of_item heq (hall t' ht')

/-- As many hosts as in the first document: each of them was created. -/
private theorem hosts_of_same (hempty : E₁.hosts = [])
    (h2 : runSteps flags E₁ ((orderBy Host.name D.hosts).map fun h => .host h.item) = some E₂)
    (hkept : E'.hosts = E₂.hosts) (hsame : (buildExport E').hosts = (buildExport D).hosts) :
    (∀ h ∈ D.hosts, strip h.name ≠ [] ∧ strip h.hostname ≠ []) ∧
      (orderBy Host.name D.hosts).Pairwise fun a b => a.name ≠ strip b.name := by
  have hlen := congrArg List.length hsame
  simp only [buildExport, List.length_map, length_orderBy, hkept] at hlen
  have hgrow : EachGrows flags (fun db => db.hosts.length) E₁
      ((orderBy Host.name D.hosts).map fun h => .host h.item) := by
    refine (eachGrows_of_size ?_ h2).2 (by simp [hempty, hlen])
    intro db db' note step hmem hstep
    obtain ⟨x, -, rfl⟩ := List.mem_map.1 hmem
    exact importHost_size hstep
  obtain ⟨hall, hp⟩ := fresh_of_hosts_grow hgrow
  refine ⟨fun h hh => ?_, hp⟩
  obtain ⟨hn, hh', -⟩ := hall h (mem_orderBy.2 hh)
  exact ⟨hn, hh'⟩

/-- The same for guests. -/
private theorem guests_of_same (hD : D.WF) (hempty : E₂.guests = [])
    (h3 : runSteps flags E₂ ((orderBy Guest.name D.guests).map fun g => .guest (D.guestItem g)) = some E₃)
    (hkept : E'.guests = E₃.guests)
    (hsame : ((buildExport E').guests.map GuestItem.shape).Perm ((buildExport D).guests.map GuestItem.shape)) :
    (∀ g ∈ D.guests, g.Valid) ∧
      (orderBy Guest.name D.guests).Pairwise fun a b => ¬ Captures E₂ D (E₂.created D a 0) b := by
  have hlen := hsame.length_eq
  simp only [buildExport, List.length_map, length_orderBy, hkept] at hlen
  have hgrow : EachGrows flags (fun db => db.guests.length) E₂
      ((orderBy Guest.name D.guests).map fun g => .guest (D.guestItem g)) := by
    refine (eachGrows_of_size ?_ h3).2 (by simp [hempty, hlen])
    intro db db' note step hmem hstep
    obtain ⟨x, -, rfl⟩ := List.mem_map.1 hmem
    exact importGuest_size hstep
  obtain ⟨hall, hp⟩ := fresh_of_guests_grow
    (fun g hg => hD.guestFields g (mem_orderBy.1 hg)) hgrow
  exact ⟨fun g hg => (hall g (mem_orderBy.2 hg)).1, hp⟩

private theorem sections_keep (h1 : runSteps flags E ((orderBy Tag.name D.tags).map fun t => .tag t.item) = some E₁)
    (h2 : runSteps flags E₁ ((orderBy Host.name D.hosts).map fun h => .host h.item) = some E₂)
    (h3 : runSteps flags E₂ ((orderBy Guest.name D.guests).map fun g => .guest (D.guestItem g)) = some E₃)
    (h4 : runSteps flags E₃ ((importedRoles flags D).map fun r => .role r.item) = some E₄)
    (h5 : runSteps flags E₄ (((orderBy Prod.fst D.settings).map exportSetting).map fun s => .setting s.1 s.2) =
      some E') :
    E'.tags = E₁.tags ∧ E₁.hosts = E.hosts ∧ E'.hosts = E₂.hosts ∧ E₂.guests = E.guests ∧ E'.guests = E₃.guests := by
  refine ⟨?_, ?_, ?_, ?_, ?_⟩
  · rw [section_keeps Db.tags h5 fun _ _ _ hf => (congrArg Db.tags hf :),
      section_keeps Db.tags h4 fun _ _ _ hf => (congrArg Db.tags hf :),
      section_keeps Db.tags h3 fun _ _ _ hf => (congrArg Db.tags hf :),
      section_keeps Db.tags h2 fun _ _ _ hf => (congrArg Db.tags hf :)]
  · exact section_keeps Db.hosts h1 fun _ _ _ hf => (congrArg Db.hosts hf :)
  · rw [section_keeps Db.hosts h5 fun _ _ _ hf => (congrArg Db.hosts hf :),
      section_keeps Db.hosts h4 fun _ _ _ hf => (congrArg Db.hosts hf :),
      section_keeps Db.hosts h3 fun _ _ _ hf => (congrArg Db.hosts hf :)]
  · rw [section_keeps Db.guests h2 fun _ _ _ hf => (congrArg Db.guests hf :),
      section_keeps Db.guests h1 fun _ _ _ hf => (congrArg Db.guests hf :)]
  · rw [section_keeps Db.guests h5 fun _ _ _ hf => (congrArg Db.guests hf :),
      section_keeps Db.guests h4 fun _ _ _ hf => (congrArg Db.guests hf :)]

end

/-- A guest with the shape of a restored one is restorable. -/
private theorem guest_of_shape {g g' : Guest} (hv : g'.Valid)
    (h : (D.restoredItem g').shape = (D.guestItem g).shape) :
    strip g.name = g.name ∧ g.name ≠ [] ∧ g.guestType ∈ guestTypes ∧ ∀ f, g.fields f = .null → f.default = .null := by
  have hname : strip g'.name = g.name := by
    simpa [GuestItem.shape, Db.restoredItem, Db.guestItem] using congrArg (·.1) h
  have htype : strip g'.guestType = g.guestType := by
    simpa [GuestItem.shape, Db.restoredItem, Db.guestItem] using congrArg (·.2.1) h
  have hfields : insertDefaults GuestField.default g'.fields = g.fields := by
    funext f
    simpa [GuestItem.shape, Db.restoredItem, Db.guestItem] using congrFun (congrArg (·.2.2.1) h) f
  refine ⟨by rw [← hname, strip_strip], by rw [← hname]; exact hv.1, by rw [← htype]; exact hv.2, ?_⟩
  intro f hnull
  rw [← hfields, insertDefaults] at hnull
  split at hnull
  · exact hnull
  · contradiction

/-- Conversely, every host and every guest of the document was created, and what was written is restorable. -/
private theorem restorable_of_roundTrips (hD : D.WF) (hE : E.Blank) (h : RoundTrips flags D E) :
    Restorable flags D := by
  obtain ⟨E', summary, hok, hsame⟩ := h
  obtain ⟨E₁, E₂, E₃, E₄, h1, h2, h3, h4, h5⟩ := runSteps_sections.1 (applyImport_eq_ok.1 ⟨summary, hok⟩)
  obtain ⟨keptTags, keptHosts, keptHosts', keptGuests, keptGuests'⟩ := sections_keep h1 h2 h3 h4 h5
  have htags := tags_of_same hE h1 keptTags hsame.tags
  have hhosts := hosts_of_same (keptHosts.trans hE.hosts) h2 keptHosts' hsame.hosts
  obtain ⟨hvalid, hfresh⟩ := guests_of_same hD (keptGuests.trans hE.guests) h3 keptGuests' hsame.guests
  -- the run is now known: every section has created its rows
  obtain ⟨tags, hosts, h1', h2', -, -, hhostSorted, hhostItems, hm⟩ :=
    rebuilt flags hD hE htags hhosts.1 hhosts.2
  obtain rfl : _ = E₁ := Option.some.inj (h1'.symm.trans h1)
  obtain rfl : _ = E₂ := Option.some.inj (h2'.symm.trans h2)
  obtain ⟨guests, h3', hshapes⟩ := guests_rebuilt flags hD hm hE.guests hvalid hfresh
  obtain rfl : _ = E₃ := Option.some.inj (h3'.symm.trans h3)
  obtain ⟨db₄, settings, h4', h5', hsorted, hsettings⟩ := settings_rebuilt flags
    { E with tags := tags, hosts := hosts, guests := guests } hD hE.settings
  obtain rfl : db₄ = E₄ := Option.some.inj (h4'.symm.trans h4)
  obtain rfl : _ = E' := Option.some.inj (h5'.symm.trans h5)
  have hguests : ∀ g ∈ D.guests, strip g.name = g.name ∧ g.name ≠ [] ∧ g.guestType ∈ guestTypes ∧
      ∀ f, g.fields f = .null → f.default = .null := by
    -- the shape of `g` is that of some restored guest, and every restored guest is restorable
    intro g hg
    have hmem : (D.guestItem g).shape ∈ (guests.map
        ({ E with tags := tags, hosts := hosts } : Db).guestItem).map GuestItem.shape := by
      rw [← (((orderBy_perm Guest.name guests).map _).map _).mem_iff]
      exact hsame.guests.mem_iff.2 (List.mem_map_of_mem (List.mem_map_of_mem (mem_orderBy.2 hg)))
    rw [hshapes, List.map_map] at hmem
    obtain ⟨g', hg', heq⟩ := List.mem_map.1 hmem
    exact guest_of_shape (hvalid g' (mem_orderBy.1 hg')) heq
  constructor
  · exact htags
  · intro h hh
    refine ⟨(hhosts.1 h hh).1, (hhosts.1 h hh).2, inserted_item_eq_iff.1 ?_⟩
    have hdocs : (orderBy Host.name hosts).map Host.item = (orderBy Host.name D.hosts).map Host.item := hsame.hosts
    rw [hhostSorted, hhostItems] at hdocs
    exact List.map_inj_left.1 hdocs h (mem_orderBy.2 hh)
  · exact hhosts.2
  · exact hguests
  · exact (hm.fresh_iff fun g hg => ⟨(hguests g hg).1, (hguests g hg).2.2.1⟩).1 hfresh
  · have hdocs := hsame.settings
    change ((orderBy Prod.fst settings).map exportSetting).filter compared = _ at hdocs
    rw [hsorted, hsettings] at hdocs
    intro s hs
    exact settings_same_iff.1 hdocs s (mem_orderBy.2 hs)

/-- The second document is the same as the first exactly if every row is restorable and no two hosts or guests are merged. -/
theorem roundTrips_iff_restorable (hD : D.WF) (hE : E.Blank) : RoundTrips flags D E ↔ Restorable flags D :=
  ⟨restorable_of_roundTrips hD hE, roundTrips_of_restorable hD hE⟩

def emptyDb : Db := ⟨[], [], [], [], [], []⟩

def sampleHost (id : Nat) (name : Text) : Host where
  id := id
  name := name
  hostname := name
  fields := HostField.default
  encryptedPassword := none
  apiTokenSecret := none
  ipmiPassword := none
  sshCredential := none

def sampleGuest (id vmid : Nat) (name : Text) (host : Nat) : Guest where
  id := id
  name := name
  guestType := ['v', 'm']
  fields := fun f => if f = .vmid then .int vmid else f.default
  host := some host
  credential := none
  tags := [1]

/-- Two nodes, a guest on each of them, a tag and an interval. -/
def twoNodes (name name' : Text) : Db where
  tags := [⟨1, ['w', 'e', 'b'], .str ['#', 'f', 'f', 'f'], [['l', 'a', 'n']]⟩]
  hosts := [sampleHost 1 ['p', '1'], sampleHost 2 ['p', '2']]
  guests := [sampleGuest 1 100 name 1, sampleGuest 2 101 name' 2]
  roles := []
  settings := [("scan_interval", some ['6'])]
  credentials := []

private theorem twoNodes_wf (name name' : Text) : (twoNodes name name').WF := by
  constructor
  · simp [twoNodes]
  · simp [twoNodes]
  · simp [twoNodes, Legal, store]
  · simp only [twoNodes, List.mem_cons, List.not_mem_nil, or_false, forall_eq_or_imp, forall_eq, sampleHost, Legal]
    decide
  · simp only [twoNodes, List.mem_cons, List.not_mem_nil, or_false, forall_eq_or_imp, forall_eq, sampleGuest, Legal]
    decide
  · simp [twoNodes]
  · simp [twoNodes]

private theorem emptyDb_blank : emptyDb.Blank := ⟨rfl, rfl, rfl, rfl⟩

theorem distinct_guests_restored :
    RoundTrips ⟨false, false⟩ (twoNodes ['a'] ['b']) emptyDb := by
  refine (roundTrips_iff_restorable (twoNodes_wf _ _) emptyDb_blank).2 ⟨?_, ?_, ?_, ?_, ?_, ?_⟩
  · simp [twoNodes, Tag.Restorable, Scalar.truthy, strip]
    decide
  · simp only [twoNodes, List.mem_cons, List.not_mem_nil, or_false, forall_eq_or_imp, forall_eq, sampleHost]
    decide
  · decide
  · simp only [twoNodes, List.mem_cons, List.not_mem_nil, or_false, forall_eq_or_imp, forall_eq, sampleGuest]
    decide
  · simp [twoNodes, sampleGuest, Db.hostName, sampleHost]
  · intro s hs
    rw [List.mem_singleton.1 hs]
    intro _
    exact ⟨by decide +kernel, by decide +kernel⟩

/-- Two guests of one name and type, on different nodes and with different VMIDs, are merged. -/
theorem namesake_guests_merged :
    (twoNodes ['a'] ['a']).WF ∧ emptyDb.Blank ∧ ¬ RoundTrips ⟨true, true⟩ (twoNodes ['a'] ['a']) emptyDb := by
  refine ⟨twoNodes_wf _ _, emptyDb_blank, fun h => ?_⟩
  have hkeys := (restorable_of_roundTrips (twoNodes_wf _ _) emptyDb_blank h).guestKeys
  rw [twoNodes, List.pairwise_cons] at hkeys
  exact (hkeys.1 (sampleGuest 2 101 ['a'] 2) (by simp)).1 ⟨rfl, rfl⟩

end ProxmoxTool.ConfigBackup
