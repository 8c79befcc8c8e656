import ProxmoxTool.ConfigBackup.Restore

/-!
# Rebuilding the tables

What an import of exported rows does to each table.  Rows of one import capture one another: a host is not created when an
earlier one has its (stripped) name, a guest is merged with an earlier one of the same name and type, or of the same host
and VMID.  For hosts and guests there are two lemmas each: rows that nothing captures are all created (`hosts_run`,
`guests_run`), and if all of them were created, nothing captured them (`fresh_of_hosts_grow`, `fresh_of_guests_grow`).
-/

namespace ProxmoxTool.ConfigBackup

variable {flags : Flags} {db db' : Db}

/-- The column can hold the value. -/
def Legal (k : Kind) (s : Scalar) : Prop := store k (.scalar s) = some s

private theorem assign_legal {F : Type} [DecidableEq F] [Fintype F] {kind : F → Kind} {base fields : F → Scalar}
    (h : ∀ f, Legal (kind f) (fields f)) : assign kind base (fun f => some (.scalar (fields f))) = some fields := by
  unfold assign
  rw [if_pos (by intro f; simp [show store (kind f) (.scalar (fields f)) = some (fields f) from h f])]
  congr 1
  funext f
  simp [show store (kind f) (.scalar (fields f)) = some (fields f) from h f]

/-! ### Tags -/

/-- The tag comes back as it is. -/
def Tag.Restorable (t : Tag) : Prop :=
  strip t.name = t.name ∧ t.name ≠ [] ∧ t.color.truthy = true ∧ ∀ n ∈ t.networks, strip n = n ∧ n ≠ []

private theorem networkLinks_restorable {networks : List Text} (h : ∀ n ∈ networks, strip n = n ∧ n ≠ []) :
    networkLinks (some (.arr (networks.map some))) = some networks := by
  have hmap : networks.map strip = networks := by
    conv_rhs => rw [← List.map_id networks]
    exact List.map_congr_left fun n hn => (h n hn).1
  have hfilter : networks.filter (· ≠ []) = networks := by
    rw [List.filter_eq_self]
    intro n hn
    simpa using (h n hn).2
  simp only [networkLinks, got, Option.getD_some, List.filterMap_map, Function.comp_def, id_eq, List.filterMap_some,
    hmap, hfilter]

private theorem networkLinks_stripped {v : Option Value} {networks : List Text} (h : networkLinks v = some networks) :
    ∀ n ∈ networks, strip n = n ∧ n ≠ [] := by
  unfold networkLinks at h
  split at h
  · cases h
    intro n hn
    obtain ⟨hn, hne⟩ := List.mem_filter.1 hn
    obtain ⟨m, -, rfl⟩ := List.mem_map.1 hn
    exact ⟨strip_strip m, by simpa using hne⟩
  · split at h
    · cases h
    · cases h
      simp

private theorem eq_of_store_text {v : Value} {c : Scalar} (h : store .text v = some c) : v = .scalar c := by
  cases v with
  | scalar s =>
    cases s with
    | int i =>
      simp only [store] at h
      split at h
      · cases h; rfl
      · cases h
    | _ => cases h; rfl
  | _ => cases h

private theorem orDefault_truthy {v : Option Value} {d c : Scalar} (hd : d.truthy = true) (h : orDefault v d = some c) :
    c.truthy = true := by
  unfold orDefault at h
  split at h
  · rename_i ht
    rwa [eq_of_store_text h] at ht
  · cases h
    exact hd

/-- Everything a tag step writes is restorable. -/
theorem importTag_restorable {item : TagItem} {note : Note} (h : importTag db item = some (db', note))
    (hdb : ∀ t ∈ db.tags, t.Restorable) : ∀ t ∈ db'.tags, t.Restorable := by
  have hlinks : ∀ base : List Text, (∀ n ∈ base, strip n = n ∧ n ≠ []) →
      ∀ n ∈ (networkLinks item.unifiNetworks).getD base, strip n = n ∧ n ≠ [] := by
    intro base hbase
    cases hn : networkLinks item.unifiNetworks with
    | none => exact hbase
    | some networks => exact networkLinks_stripped hn
  rcases importTag_cases h with rfl | ⟨name, color, -, hne, hcolor, ⟨-, rfl⟩ | ⟨tag, hfind, rfl⟩⟩
  · exact hdb
  · intro t ht
    rcases List.mem_append.1 ht with ht | ht
    · exact hdb t ht
    · rw [List.mem_singleton.1 ht]
      exact ⟨strip_strip name, hne, orDefault_truthy rfl hcolor, hlinks [] (by simp)⟩
  · intro t ht
    rcases mem_replaceRow Tag.id ht with rfl | ⟨ht, -⟩
    · obtain ⟨h1, h2, -, h4⟩ := hdb tag (List.mem_of_find?_eq_some hfind)
      exact ⟨h1, h2, orDefault_truthy rfl hcolor, hlinks _ h4⟩
    · exact hdb t ht

private theorem importTag_new {t : Tag} (hr : t.Restorable) (hn : t.networks.Nodup) (hc : Legal .text t.color)
    (hnew : ∀ r ∈ db.tags, r.name ≠ t.name) :
    importTag db t.item = some ({ db with tags := db.tags ++
      [{ t with id := freshId Tag.id db.tags }] }, .tag) := by
  obtain ⟨hname, hne, hcolor, hnets⟩ := hr
  have hfind : db.tags.find? (fun r => decide (r.name = t.name)) = none := by simpa using hnew
  have hcol : orDefault (some (.scalar t.color)) defaultColor = some t.color := by
    simp only [orDefault, got, Option.getD_some, Value.truthy, hcolor, if_true]
    exact hc
  simp [importTag, Tag.item, textArg, got, hname, hne, hcol, networkLinks_restorable hnets, hn, hfind]

/-- Restorable tags with new names are all created. -/
theorem tags_run (flags : Flags) (db : Db) {ts : List Tag} (hr : ∀ t ∈ ts, t.Restorable) (hn : ∀ t ∈ ts, t.networks.Nodup)
    (hc : ∀ t ∈ ts, Legal .text t.color) (hnames : (ts.map Tag.name).Nodup)
    (hnew : ∀ t ∈ ts, ∀ r ∈ db.tags, r.name ≠ t.name) :
    ∃ tags, runSteps flags db (ts.map fun t => .tag t.item) = some { db with tags := db.tags ++ tags } ∧
      tags.map Tag.item = ts.map Tag.item := by
  induction ts generalizing db with
  | nil => exact ⟨[], by simp, rfl⟩
  | cons t ts ih =>
    rw [List.map_cons, List.nodup_cons] at hnames
    have hone := importTag_new (hr t (by simp)) (hn t (by simp)) (hc t (by simp)) (hnew t (by simp))
    obtain ⟨tags, hrun, hitems⟩ := ih
      { db with tags := db.tags ++ [{ t with id := freshId Tag.id db.tags }] }
      (fun x hx => hr x (by simp [hx])) (fun x hx => hn x (by simp [hx])) (fun x hx => hc x (by simp [hx])) hnames.2 (by
        intro x hx r hr'
        rcases List.mem_append.1 hr' with hr' | hr'
        · exact hnew x (by simp [hx]) r hr'
        · rw [List.mem_singleton.1 hr']
          exact fun heq => hnames.1 (List.mem_map.2 ⟨x, hx, heq.symm⟩))
    refine ⟨{ t with id := freshId Tag.id db.tags } :: tags, ?_, ?_⟩
    · rw [List.map_cons, runSteps_cons, importStep, hone, Option.bind_some, hrun]
      simp
    · rw [List.map_cons, hitems]
      rfl

/-! ### Hosts -/

/-- The host as an insert stores it. -/
def Host.inserted (h : Host) : Host := { h with fields := insertDefaults HostField.default h.fields }

private theorem importHost_new (flags : Flags) {h : Host} (hl : ∀ f : HostField, Legal f.kind (h.fields f)) (hname : strip h.name ≠ [])
    (hhost : strip h.hostname ≠ []) (hnew : ∀ r ∈ db.hosts, r.name ≠ strip h.name) :
    importHost flags db h.item = some ({ db with hosts := db.hosts ++
      [newHost (freshId Host.id db.hosts) h.name h.hostname h.fields] }, .host) := by
  have hfind : db.hosts.find? (fun r => decide (r.name = strip h.name)) = none := by
    simpa using hnew
  simp [importHost, Host.item, textArg, got, hname, hhost, hfind, assign_legal hl]

/-- Hosts whose names no earlier host has are all created. -/
theorem hosts_run (flags : Flags) (db : Db) {hs : List Host} (hl : ∀ h ∈ hs, ∀ f : HostField, Legal f.kind (h.fields f))
    (hr : ∀ h ∈ hs, strip h.name ≠ [] ∧ strip h.hostname ≠ []) (hp : hs.Pairwise fun a b => a.name ≠ strip b.name)
    (hnew : ∀ h ∈ hs, ∀ r ∈ db.hosts, r.name ≠ strip h.name) :
    ∃ hosts, runSteps flags db (hs.map fun h => .host h.item) = some { db with hosts := db.hosts ++ hosts } ∧
      hosts.map Host.item = hs.map fun h => h.inserted.item := by
  induction hs generalizing db with
  | nil => exact ⟨[], by simp, rfl⟩
  | cons h hs ih =>
    rw [List.pairwise_cons] at hp
    have hone := importHost_new flags (hl h (by simp)) (hr h (by simp)).1 (hr h (by simp)).2
      (hnew h (by simp))
    obtain ⟨hosts, hrun, hitems⟩ := ih { db with hosts := db.hosts ++
        [newHost (freshId Host.id db.hosts) h.name h.hostname h.fields] }
      (fun x hx => hl x (by simp [hx])) (fun x hx => hr x (by simp [hx])) hp.2 (by
        intro x hx r hr'
        rcases List.mem_append.1 hr' with hr' | hr'
        · exact hnew x (by simp [hx]) r hr'
        · rw [List.mem_singleton.1 hr']
          exact hp.1 x hx)
    refine ⟨newHost (freshId Host.id db.hosts) h.name h.hostname h.fields :: hosts, ?_, ?_⟩
    · rw [List.map_cons, runSteps_cons, importStep, hone, Option.bind_some, hrun]
      simp
    · rw [List.map_cons, hitems]
      rfl

theorem importHost_size {db db' : Db} {note : Note} {item : HostItem}
    (h : importHost flags db item = some (db', note)) : db'.hosts.length ≤ db.hosts.length + 1 := by
  rcases importHost_cases h with ⟨rfl, -⟩ | ⟨_, _, -, -, -, -, ⟨-, _, -, rfl⟩ | ⟨_, _, -, -, -, rfl⟩⟩ <;> simp

/-- If every host was created, no earlier host had its name. -/
theorem fresh_of_hosts_grow {hs : List Host}
    (h : EachGrows flags (fun db => db.hosts.length) db (hs.map fun h => .host h.item)) :
    (∀ h ∈ hs, strip h.name ≠ [] ∧ strip h.hostname ≠ [] ∧ ∀ r ∈ db.hosts, r.name ≠ strip h.name) ∧
      hs.Pairwise fun a b => a.name ≠ strip b.name := by
  induction hs generalizing db with
  | nil => simp
  | cons x hs ih =>
    -- of the three things a step can do, only an insert adds a row
    obtain ⟨db₁, note, hone, hsize, hrest⟩ := h
    rcases importHost_cases hone with ⟨rfl, -⟩ | ⟨name, hostname, hn, hh, hn', hh', ⟨hfind, fields, -, rfl⟩ | ⟨_, _, -, -, -, rfl⟩⟩
    · omega
    · obtain rfl : x.name = name := Option.some.inj hn
      obtain rfl : x.hostname = hostname := Option.some.inj hh
      have hnot : ∀ r ∈ db.hosts, r.name ≠ strip x.name := by simpa using hfind
      obtain ⟨hall, hp⟩ := ih hrest
      refine ⟨?_, List.pairwise_cons.2 ⟨?_, hp⟩⟩
      · intro h' hh''
        rcases List.mem_cons.1 hh'' with rfl | hmem
        · exact ⟨hn', hh', hnot⟩
        · exact ⟨(hall h' hmem).1, (hall h' hmem).2.1, fun r hr => (hall h' hmem).2.2 r (by simp [hr])⟩
      · intro h' hmem
        exact (hall h' hmem).2.2 (newHost (freshId Host.id db.hosts) x.name x.hostname fields) (by simp)
    · simp at hsize

/-! ### Guests -/

/-- The host that the import finds for a host name. -/
def Db.resolve (db : Db) (name : Option Text) : Option Host :=
  name.bind fun n => if n = [] then none else db.hosts.find? (·.name = n)

private theorem hostNamed_orNull (name : Option Text) : hostNamed db (some (orNull name)) = some (db.resolve name) := by
  cases name with
  | none => rfl
  | some n =>
    by_cases hn : n = []
    · subst hn; rfl
    · simp [hostNamed, got, orNull, Value.truthy, Scalar.truthy, Db.resolve, hn]

/-- A row that captures the item of `g`: one of its name and type, or of its host and VMID. -/
def Captures (db D : Db) (r g : Guest) : Prop :=
  (r.name = strip g.name ∧ r.guestType = strip g.guestType) ∨
    ∃ h, db.resolve (D.hostName g) = some h ∧ g.fields .vmid ≠ .null ∧ r.host = some h.id ∧
      r.fields .vmid = g.fields .vmid

private theorem findGuest_eq_none_iff {D : Db} {g : Guest} :
    findGuest db (db.resolve (D.hostName g)) (g.fields .vmid) (strip g.name) (strip g.guestType) = none ↔
      ∀ r ∈ db.guests, ¬ Captures db D r g := by
  unfold findGuest Captures
  cases hres : db.resolve (D.hostName g) with
  | none => simp
  | some h =>
    by_cases hv : g.fields .vmid = .null
    · simp [hv]
    · simp only [hv, if_false, Option.or_eq_none_iff, List.find?_eq_none, decide_eq_true_eq]
      constructor
      · rintro ⟨h1, h2⟩ r hr (hc | ⟨h', hh', -, hc⟩)
        · exact h2 r hr hc
        · rw [← Option.some.inj hh'] at hc
          exact h1 r hr hc
      · intro hall
        exact ⟨fun r hr hc => hall r hr (Or.inr ⟨h, rfl, hv, hc⟩), fun r hr hc => hall r hr (Or.inl hc)⟩

/-- The guest that the import creates for the item of `g`, up to its id. -/
def Db.created (db D : Db) (g : Guest) (id : Nat) : Guest :=
  { id := id
    name := strip g.name
    guestType := strip g.guestType
    fields := insertDefaults GuestField.default g.fields
    host := (db.resolve (D.hostName g)).map Host.id
    credential := none
    tags := (db.tags.filter fun t => t.name ∈ D.tagNames g).map Tag.id }

private theorem newGuest_item (D : Db) (g : Guest) :
    newGuest db (strip g.name) (strip g.guestType) (db.resolve (D.hostName g)) (D.guestItem g) g.fields =
      db.created D g (freshId Guest.id db.guests) := by
  simp [newGuest, Db.created, Db.guestItem, tagLinks, got]

private theorem writtenFields_new (item : GuestItem) : writtenFields flags true item = item.fields := by
  funext f
  simp [writtenFields]

@[simp] theorem created_vmid (db D : Db) (g : Guest) (id : Nat) :
    (db.created D g id).fields .vmid = g.fields .vmid := by
  simp only [Db.created, insertDefaults, GuestField.default]
  split
  · exact Eq.symm ‹_›
  · rfl

private theorem vmidFree_created {D : Db} {g : Guest} (id : Nat) (h : ∀ r ∈ db.guests, ¬ Captures db D r g) :
    vmidFree db (db.created D g id) = true := by
  simp only [vmidFree, decide_eq_true_eq, created_vmid]
  cases hres : db.resolve (D.hostName g) with
  | none => exact Or.inl (by simp [Db.created, hres])
  | some host =>
    by_cases hv : g.fields .vmid = .null
    · exact Or.inr (Or.inl hv)
    · refine Or.inr (Or.inr fun r hr => ?_)
      by_contra hc
      rw [not_or, not_or, not_not, not_not] at hc
      exact h r hr (Or.inr ⟨host, hres, hv, by rw [hc.2.1]; simp [Db.created, hres], hc.2.2⟩)

/-- The guest can be created at all. -/
def Guest.Valid (g : Guest) : Prop := strip g.name ≠ [] ∧ strip g.guestType ∈ guestTypes

private theorem importGuest_new (flags : Flags) {D : Db} {g : Guest} (hl : ∀ f : GuestField, Legal f.kind (g.fields f)) (hv : g.Valid)
    (hnew : ∀ r ∈ db.guests, ¬ Captures db D r g) :
    importGuest flags db (D.guestItem g) = some ({ db with guests := db.guests ++
      [db.created D g (freshId Guest.id db.guests)] }, .guest none none) := by
  have hfields : assign GuestField.kind (fun _ => .null) (D.guestItem g).fields = some g.fields := assign_legal hl
  have hvmid : store .integer (.scalar (g.fields .vmid)) = some (g.fields .vmid) := hl .vmid
  have hname : textArg (D.guestItem g).name = some g.name := rfl
  have htype : textArg (D.guestItem g).guestType = some g.guestType := rfl
  have hhost : hostNamed db (D.guestItem g).hostName = some (db.resolve (D.hostName g)) := hostNamed_orNull _
  have hgot : got ((D.guestItem g).fields .vmid) = .scalar (g.fields .vmid) := rfl
  simp only [importGuest, hname, htype, hhost, hgot, hvmid, Option.bind_eq_bind, Option.bind_some, Option.pure_def,
    findGuest_eq_none_iff.2 hnew, writtenFields_new, hfields, newGuest_item, vmidFree_created _ hnew]
  rw [if_neg (by rw [not_or, not_not]; exact hv), if_pos trivial]

/-- Guests that neither an earlier one nor a row of the table captures are all created. -/
theorem guests_run (flags : Flags) (db : Db) {D : Db} {gs : List Guest} (hl : ∀ g ∈ gs, ∀ f : GuestField, Legal f.kind (g.fields f))
    (hv : ∀ g ∈ gs, g.Valid) (hp : gs.Pairwise fun a b => ¬ Captures db D (db.created D a 0) b)
    (hnew : ∀ g ∈ gs, ∀ r ∈ db.guests, ¬ Captures db D r g) :
    ∃ guests, runSteps flags db (gs.map fun g => .guest (D.guestItem g)) =
        some { db with guests := db.guests ++ guests } ∧
      guests.map (fun r => { r with id := 0 }) = gs.map fun g => db.created D g 0 := by
  induction gs generalizing db with
  | nil => exact ⟨[], by simp, rfl⟩
  | cons g gs ih =>
    rw [List.pairwise_cons] at hp
    have hone := importGuest_new flags (hl g (by simp)) (hv g (by simp)) (hnew g (by simp))
    obtain ⟨guests, hrun, hrows⟩ := ih
      { db with guests := db.guests ++ [db.created D g (freshId Guest.id db.guests)] }
      (fun x hx => hl x (by simp [hx])) (fun x hx => hv x (by simp [hx])) hp.2 (by
        intro x hx r hr
        rcases List.mem_append.1 hr with hr | hr
        · exact hnew x (by simp [hx]) r hr
        · rw [List.mem_singleton.1 hr]
          exact hp.1 x hx)
    refine ⟨db.created D g (freshId Guest.id db.guests) :: guests, ?_, ?_⟩
    · rw [List.map_cons, runSteps_cons, importStep, hone, Option.bind_some, hrun]
      simp
    · rw [List.map_cons, hrows]
      rfl

theorem importGuest_size {db db' : Db} {note : Note} {item : GuestItem}
    (h : importGuest flags db item = some (db', note)) : db'.guests.length ≤ db.guests.length + 1 := by
  rcases importGuest_cases h with
    ⟨rfl, -⟩ | ⟨_, _, _, _, _, -, -, -, -, -, -, ⟨-, -, -, rfl⟩ | ⟨_, -, -, rfl⟩⟩ <;> simp

/-- If every guest was created, no earlier one captured it. -/
theorem fresh_of_guests_grow {D : Db} {gs : List Guest}
    (hl : ∀ g ∈ gs, ∀ f : GuestField, Legal f.kind (g.fields f))
    (h : EachGrows flags (fun db => db.guests.length) db (gs.map fun g => .guest (D.guestItem g))) :
    (∀ g ∈ gs, g.Valid ∧ ∀ r ∈ db.guests, ¬ Captures db D r g) ∧
      gs.Pairwise fun a b => ¬ Captures db D (db.created D a 0) b := by
  induction gs generalizing db with
  | nil => simp
  | cons x gs ih =>
    obtain ⟨db₁, note, hone, hsize, hrest⟩ := h
    rcases importGuest_cases hone with
      ⟨rfl, -⟩ | ⟨name, guestType, host, vmid, fields, hn, ht, hn', ht', hh, hvm, ⟨hfind, hf, -, rfl⟩ | ⟨_, -, -, rfl⟩⟩
    · omega
    · obtain rfl : x.name = name := Option.some.inj hn
      obtain rfl : x.guestType = guestType := Option.some.inj ht
      obtain rfl : db.resolve (D.hostName x) = host := Option.some.inj ((hostNamed_orNull _).symm.trans hh)
      obtain rfl : x.fields .vmid = vmid := Option.some.inj ((hl x (by simp) .vmid).symm.trans hvm)
      obtain rfl : x.fields = fields := by
        rw [writtenFields_new, show (D.guestItem x).fields = fun f => some (.scalar (x.fields f)) from rfl,
          assign_legal (hl x (by simp))] at hf
        exact Option.some.inj hf
      have hnot := findGuest_eq_none_iff.1 hfind
      obtain ⟨hall, hp⟩ := ih (fun g hg => hl g (by simp [hg])) hrest
      refine ⟨?_, List.pairwise_cons.2 ⟨?_, hp⟩⟩
      · intro g hg
        rcases List.mem_cons.1 hg with rfl | hg
        · exact ⟨⟨hn', ht'⟩, hnot⟩
        · exact ⟨(hall g hg).1, fun r hr => (hall g hg).2 r (by simp [hr])⟩
      · intro g hg
        have := (hall g hg).2 (newGuest db (strip x.name) (strip x.guestType) (db.resolve (D.hostName x))
          (D.guestItem x) x.fields) (by simp)
        rwa [newGuest_item] at this
    · simp at hsize

/-! ### Settings -/

/-- What the import writes for an entry while the setting and the secrets are not set. -/
def keptSetting (flags : Flags) (s : String × Value) : Option (String × Option Text) :=
  match valueText s.2 with
  | none => none
  | some text =>
    if looksLikeSecretKey s.1 || looksLikeSecretValue text then none
    else if s.1 ∈ authCriticalKeys then none
    else match settingValue s.1 text with
      | none => none
      | some text =>
        if (destinationSecrets s.1).isSome ∧ text.getD [] ≠ [] ∧ flags.importHosts = false then none
        else some (s.1, text)

theorem keptSetting_inv {s : String × Value} {e : String × Option Text} (h : keptSetting flags s = some e) :
    ∃ text, valueText s.2 = some text ∧ looksLikeSecretKey s.1 = false ∧ s.1 ∉ authCriticalKeys ∧
      settingValue s.1 text = some e.2 ∧ e.1 = s.1 := by
  unfold keptSetting at h
  cases hv : valueText s.2 with
  | none => simp [hv] at h
  | some text =>
    simp only [hv] at h
    by_cases hsecret : (looksLikeSecretKey s.1 || looksLikeSecretValue text) = true
    · simp [hsecret] at h
    · by_cases hauth : s.1 ∈ authCriticalKeys
      · simp [hsecret, hauth] at h
      · rw [if_neg hsecret, if_neg hauth] at h
        cases hset : settingValue s.1 text with
        | none => simp [hset] at h
        | some t =>
          simp only [hset] at h
          split at h
          · cases h
          · cases h
            simp only [Bool.or_eq_true, not_or, Bool.not_eq_true] at hsecret
            exact ⟨text, rfl, hsecret.1, hauth, hset, rfl⟩

private theorem settingText_of_not_mem {key : String} (h : key ∉ db.settings.map Prod.fst) : settingText db key = [] := by
  have : db.settings.find? (fun s => decide (s.1 = key)) = none := by
    rw [List.find?_eq_none]
    intro s hs
    simpa using fun heq => h (List.mem_map.2 ⟨s, hs, heq⟩)
  simp [settingText, Db.setting, this]

private theorem clearSecrets_eq {secrets : List String} (hs : ∀ k ∈ secrets, k ∉ db.settings.map Prod.fst) :
    clearSecrets db secrets = db := by
  induction secrets with
  | nil => rfl
  | cons k secrets ih =>
    rw [clearSecrets, List.foldl_cons, if_pos (settingText_of_not_mem (hs k (by simp)))]
    exact ih fun k' hk' => hs k' (by simp [hk'])

private theorem setSetting_new {key : String} {value : Option Text} (h : key ∉ db.settings.map Prod.fst) :
    setSetting db key value = { db with settings := db.settings ++ [(key, value)] } := by
  have : db.settings.any (fun s => decide (s.1 = key)) = false := by
    rw [List.any_eq_false]
    intro s hs
    simpa using fun heq => h (List.mem_map.2 ⟨s, hs, heq⟩)
  simp [setSetting, this]

private theorem importSetting_new (flags : Flags) {s : String × Value} (hnew : s.1 ∉ db.settings.map Prod.fst)
    (hsec : ∀ k ∈ db.settings.map Prod.fst, looksLikeSecretKey k = false) :
    (importSetting flags db s.1 s.2).1 = { db with settings := db.settings ++ (keptSetting flags s).toList } := by
  have htext := settingText_of_not_mem hnew
  have hkeep : ∀ text, setSetting db s.1 text = { db with settings := db.settings ++ [(s.1, text)] } :=
    fun text => setSetting_new hnew
  unfold importSetting keptSetting
  cases valueText s.2 with
  | none => simp
  | some text =>
    dsimp only
    by_cases hsecret : (looksLikeSecretKey s.1 || looksLikeSecretValue text) = true
    · simp [hsecret]
    · by_cases hauth : s.1 ∈ authCriticalKeys
      · simp [hsecret, hauth]
      · rw [if_neg hsecret, if_neg hsecret, if_neg hauth, if_neg hauth]
        cases settingValue s.1 text with
        | none => simp
        | some text =>
          dsimp only
          cases hdest : destinationSecrets s.1 with
          | none => simp [hkeep]
          | some secrets =>
            have hclear : clearSecrets db secrets = db := by
              apply clearSecrets_eq
              intro k hk hmem
              have := hsec k hmem
              rw [looksLikeSecretKey_of_mem (mem_of_destinationSecrets hdest) hk] at this
              cases this
            dsimp only
            rw [htext, hclear]
            by_cases hempty : text.getD [] = []
            · simp [hempty, hkeep]
            · cases hflag : flags.importHosts <;> simp [hempty, hkeep]

/-- The settings that are kept are written one after the other. -/
theorem settings_run (flags : Flags) (db : Db) {ss : List (String × Value)} (hnodup : (ss.map Prod.fst).Nodup)
    (hnew : ∀ s ∈ ss, s.1 ∉ db.settings.map Prod.fst)
    (hsec : ∀ k ∈ db.settings.map Prod.fst, looksLikeSecretKey k = false) :
    runSteps flags db (ss.map fun s => .setting s.1 s.2) =
      some { db with settings := db.settings ++ ss.filterMap (keptSetting flags) } := by
  induction ss generalizing db with
  | nil => simp
  | cons s ss ih =>
    rw [List.map_cons, List.nodup_cons] at hnodup
    have hone := importSetting_new flags (hnew s (by simp)) hsec
    have hkey : ∀ e ∈ (keptSetting flags s).toList, e.1 = s.1 ∧ looksLikeSecretKey s.1 = false := by
      intro e he
      obtain ⟨-, -, hsecret, -, -, hkey⟩ := keptSetting_inv (Option.mem_toList.1 he)
      exact ⟨hkey, hsecret⟩
    rw [List.map_cons, runSteps_cons, importStep, Option.bind_some, hone, ih _ hnodup.2]
    · cases hk : keptSetting flags s <;> simp [hk]
    · intro e he hmem
      simp only [List.map_append, List.mem_append, List.mem_map] at hmem
      rcases hmem with hmem | ⟨e', he', heq⟩
      · exact hnew e (by simp [he]) (List.mem_map.2 hmem)
      · rw [(hkey e' he').1] at heq
        exact hnodup.1 (List.mem_map.2 ⟨e, he, heq.symm⟩)
    · intro k hk
      simp only [List.map_append, List.mem_append, List.mem_map] at hk
      rcases hk with hk | ⟨e', he', rfl⟩
      · exact hsec k (List.mem_map.2 hk)
      · rw [(hkey e' he').1]
        exact (hkey e' he').2

/-- The entry is one the two documents are compared at: not redacted, not critical for authentication, and in bounds. -/
def compared (e : String × Value) : Bool :=
  e.2 ≠ .scalar (.str redacted) ∧ e.1 ∉ authCriticalKeys ∧
    ((valueText e.2).bind fun text => settingValue e.1 text).isSome = true

/-- The setting comes back as it is: an interval is written in its canonical form, and an address that secrets are sent to
is only imported with the opt-in. -/
def SettingRestorable (flags : Flags) (s : String × Option Text) : Prop :=
  compared (exportSetting s) = true → settingValue s.1 s.2 = some s.2 ∧
    ((destinationSecrets s.1).isSome = true → s.2.getD [] ≠ [] → flags.importHosts = true)

@[simp] private theorem valueText_orNull (t : Option Text) : valueText (orNull t) = some t := by
  cases t <;> rfl

private theorem orNull_injective {t t' : Option Text} (h : orNull t = orNull t') : t = t' := by
  have := congrArg valueText h
  simpa using this

private theorem settingValue_cases {key : String} {t t' : Option Text} (h : settingValue key t = some t') :
    t' = t ∨ ∃ (low high : Int) (n : Nat), intervalBounds.lookup key = some (low, high) ∧ low ≤ (n : Int) ∧ (n : Int) ≤ high ∧
      t' = some (natText n) := by
  unfold settingValue at h
  split at h
  · exact Or.inl (Option.some.inj h).symm
  · rename_i low high hlookup
    obtain ⟨i, hi, rfl⟩ := Option.map_eq_some_iff.1 h
    have hpos : ∀ e ∈ intervalBounds, 1 ≤ e.2.1 := by decide
    rw [List.lookup_eq_some_iff] at hlookup
    obtain ⟨l₁, l₂, heq, hl⟩ := hlookup
    have hlow : 1 ≤ low := hpos (key, low, high) (by rw [heq]; simp)
    simp only [parseInterval, Option.bind_eq_bind, Option.bind_eq_some_iff] at hi
    obtain ⟨text, -, j, -, hj⟩ := hi
    split at hj
    · cases hj
      refine Or.inr ⟨low, high, i.toNat, ?_, by omega, by omega, ?_⟩
      · exact List.lookup_eq_some_iff.2 ⟨l₁, l₂, heq, hl⟩
      · rw [intText, if_neg (by omega), show i.natAbs = i.toNat by omega]
    · cases hj

/-- Importing the written text again writes the same. -/
private theorem settingValue_idem {key : String} {t t' : Option Text} (h : settingValue key t = some t') :
    settingValue key t' = some t' := by
  rcases settingValue_cases h with rfl | ⟨low, high, n, hlookup, hlow, hhigh, rfl⟩
  · exact h
  · simp only [settingValue, hlookup, parseInterval, Option.bind_eq_bind, Option.bind_some, parseInt_natText,
      if_pos (And.intro hlow hhigh), Option.map_some]
    simp [intText]

private theorem not_fernet_natText (n : Nat) : looksLikeFernet (natText n) = false := by
  by_contra hf
  rw [Bool.not_eq_false] at hf
  simp only [looksLikeFernet, Bool.and_eq_true] at hf
  obtain ⟨rest, hrest⟩ := List.isPrefixOf_iff_prefix.1 hf.1.1
  exact not_mem_natText (c := 'g') (n := n) (by decide) (by rw [← hrest]; simp)

private theorem settingValue_not_secret {key : String} {t t' : Option Text} (ht : looksLikeSecretValue t = false)
    (h : settingValue key t = some t') : looksLikeSecretValue t' = false := by
  rcases settingValue_cases h with rfl | ⟨_, _, n, -, -, -, rfl⟩
  · exact ht
  · exact not_fernet_natText n

private theorem settingValue_redacted {key : String} {t t' : Option Text} (h : settingValue key t = some t') :
    t' = some redacted ↔ t = some redacted := by
  rcases settingValue_cases h with rfl | ⟨low, high, n, hlookup, -, -, rfl⟩
  · rfl
  · constructor
    · intro heq
      exact absurd (show '*' ∈ natText n by rw [Option.some.inj heq]; decide) (not_mem_natText (by decide))
    · rintro rfl
      have hparse : parseInt redacted = none := by decide
      simp [settingValue, hlookup, parseInterval, hparse] at h

/-- The entry of the second document, if the setting was kept. -/
private def reexported (flags : Flags) (e : String × Value) : Option (String × Value) :=
  (keptSetting flags e).map exportSetting

private theorem compared_exportSetting {s : String × Option Text} (h : compared (exportSetting s) = true) :
    exportSetting s = (s.1, orNull s.2) ∧ looksLikeSecretKey s.1 = false ∧ looksLikeSecretValue s.2 = false ∧
      s.2 ≠ some redacted ∧ s.1 ∉ authCriticalKeys ∧ ∃ t, settingValue s.1 s.2 = some t := by
  simp only [compared, decide_eq_true_eq] at h
  obtain ⟨hred, hauth, hsome⟩ := h
  have hsecret : (looksLikeSecretKey s.1 || looksLikeSecretValue s.2) = false := by
    by_contra hs
    rw [Bool.not_eq_false] at hs
    exact hred (by rw [exportSetting, if_pos hs])
  have hexp : exportSetting s = (s.1, orNull s.2) := by
    rw [exportSetting, if_neg (by simp [hsecret])]
  rw [hexp] at hred hauth hsome
  rw [Bool.or_eq_false_iff] at hsecret
  refine ⟨hexp, hsecret.1, hsecret.2, ?_, hauth, ?_⟩
  · intro heq
    exact hred (by rw [heq]; rfl)
  · rw [valueText_orNull, Option.bind_some] at hsome
    exact Option.isSome_iff_exists.1 hsome

/-- Of a compared entry: it is kept unless it is an address without the opt-in. -/
private theorem reexported_of_compared (flags : Flags) {s : String × Option Text} (h : compared (exportSetting s) = true) :
    ∃ t, settingValue s.1 s.2 = some t ∧ compared (s.1, orNull t) = true ∧
      reexported flags (exportSetting s) =
        if (destinationSecrets s.1).isSome ∧ t.getD [] ≠ [] ∧ flags.importHosts = false then none
        else some (s.1, orNull t) := by
  obtain ⟨hexp, hkey, hval, hred, hauth, t, ht⟩ := compared_exportSetting h
  have hexp' : exportSetting (s.1, t) = (s.1, orNull t) := by
    simp [exportSetting, hkey, settingValue_not_secret hval ht]
  refine ⟨t, ht, ?_, ?_⟩
  · simp only [compared, decide_eq_true_eq, valueText_orNull, Option.bind_some, settingValue_idem ht]
    refine ⟨fun heq => hred ((settingValue_redacted ht).1 ?_), hauth, rfl⟩
    exact orNull_injective (show orNull t = orNull (some redacted) from heq)
  · simp only [reexported, hexp, keptSetting, valueText_orNull, hkey, hval, hauth, ht, Bool.or_self,
      Bool.false_eq_true, if_false]
    split
    · rfl
    · rw [Option.map_some, hexp']

private theorem not_compared_reexported {s : String × Option Text} {e : String × Value}
    (h : compared (exportSetting s) = false) (he : reexported flags (exportSetting s) = some e) :
    compared e = false := by
  obtain ⟨kept, hkept, rfl⟩ := Option.map_eq_some_iff.1 he
  obtain ⟨text, htext, -, hauth, hset, -⟩ := keptSetting_inv hkept
  -- an entry that is kept is only left out of the comparison because it is redacted
  have hred : (exportSetting s).2 = .scalar (.str redacted) := by
    by_contra hne
    have hcomp : compared (exportSetting s) = true := by
      simp only [compared, decide_eq_true_eq]
      exact ⟨hne, hauth, by rw [htext, Option.bind_some, hset]; rfl⟩
    rw [h] at hcomp
    cases hcomp
  have hvalue : kept.2 = some redacted := by
    rw [hred] at htext
    exact (settingValue_redacted hset).2 (Option.some.inj htext).symm
  have hexp : (exportSetting kept).2 = .scalar (.str redacted) := by
    rw [exportSetting, hvalue]
    split <;> rfl
  simp [compared, hexp]

private theorem reexported_eq_self_iff {s : String × Option Text} (h : compared (exportSetting s) = true) :
    reexported flags (exportSetting s) = some (exportSetting s) ↔ SettingRestorable flags s := by
  obtain ⟨hexp, -⟩ := compared_exportSetting h
  obtain ⟨t, ht, -, hre⟩ := reexported_of_compared flags h
  rw [hre, hexp]
  unfold SettingRestorable
  rw [ht]
  constructor
  · intro heq _
    split at heq
    · cases heq
    · rename_i hnot
      have hval : t = s.2 := orNull_injective (Prod.ext_iff.1 (Option.some.inj heq)).2
      refine ⟨by rw [hval], fun hd hne => ?_⟩
      by_contra hflag
      exact hnot ⟨hd, by rwa [hval], by simpa using hflag⟩
  · intro hr
    obtain ⟨hval, hdest⟩ := hr h
    obtain rfl : t = s.2 := Option.some.inj hval
    rw [if_neg]
    rintro ⟨hd, hne, hflag⟩
    rw [hdest hd hne] at hflag
    cases hflag

private theorem filterMap_eq_self_iff {α : Type} {f : α → Option α} {l : List α} :
    l.filterMap f = l ↔ ∀ a ∈ l, f a = some a := by
  constructor
  · intro h
    induction l with
    | nil => simp
    | cons a l ih =>
      rw [List.filterMap_cons] at h
      split at h
      · have := congrArg List.length h
        have hle := List.length_filterMap_le f l
        simp only [List.length_cons] at this
        omega
      · rename_i b hb
        injection h with hab hl
        subst hab
        simpa [hb] using ih hl
  · intro h
    rw [List.filterMap_congr h, List.filterMap_some]

/-- The compared entries of the two documents agree exactly when every setting is restorable. -/
theorem settings_same_iff {ss : List (String × Option Text)} :
    (((ss.map exportSetting).filterMap (keptSetting flags)).map exportSetting).filter compared =
        (ss.map exportSetting).filter compared ↔ ∀ s ∈ ss, SettingRestorable flags s := by
  have hcommute : ((((ss.map exportSetting).filterMap (keptSetting flags)).map exportSetting).filter compared) =
      ((ss.map exportSetting).filter compared).filterMap (reexported flags) := by
    rw [List.map_filterMap]
    change ((ss.map exportSetting).filterMap (reexported flags)).filter compared = _
    induction ss with
    | nil => rfl
    | cons s ss ih =>
      rw [List.map_cons, List.filterMap_cons]
      cases hc : compared (exportSetting s) with
      | false =>
        rw [List.filter_cons_of_neg (by simp [hc])]
        split
        · exact ih
        · rename_i e he
          rw [List.filter_cons_of_neg (by simp [not_compared_reexported hc he])]
          exact ih
      | true =>
        rw [List.filter_cons_of_pos hc, List.filterMap_cons]
        split
        · exact ih
        · rename_i e he
          obtain ⟨t, -, ht, hre⟩ := reexported_of_compared flags hc
          have hcomp : compared e = true := by
            rw [he] at hre
            split at hre
            · cases hre
            · rw [Option.some.inj hre]
              exact ht
          rw [List.filter_cons_of_pos hcomp, ih]
  rw [hcommute, filterMap_eq_self_iff]
  constructor
  · intro h s hs
    by_cases hc : compared (exportSetting s) = true
    · exact (reexported_eq_self_iff hc).1 (h _ (List.mem_filter.2 ⟨List.mem_map.2 ⟨s, hs, rfl⟩, hc⟩))
    · exact fun hc' => absurd hc' hc
  · intro h e he
    obtain ⟨he, hc⟩ := List.mem_filter.1 he
    obtain ⟨s, hs, rfl⟩ := List.mem_map.1 he
    exact (reexported_eq_self_iff hc).2 (h s hs)

/-! ### Roles are imported without an error -/

private theorem orDefault_legal {c d : Scalar} (h : Legal .text c) : ∃ c', orDefault (some (.scalar c)) d = some c' := by
  unfold orDefault
  split
  · exact ⟨c, h⟩
  · exact ⟨d, rfl⟩

private theorem bindable_min {i j : Int} (hi : bindable i = true) (hj : 2 ≤ j) : bindable (min i j) = true := by
  simp only [bindable, Bool.and_eq_true, decide_eq_true_eq] at hi ⊢
  omega

private theorem tierLevel_scalar (s : Scalar) : ∃ l, tierLevel (.scalar s) = some l := by
  cases s with
  | str t =>
    unfold tierLevel
    dsimp only
    split_ifs <;> exact ⟨_, rfl⟩
  | _ => exact ⟨0, rfl⟩

private theorem newRole_item {r : Role} (hd : Legal .text r.displayName) (ht : Legal .text r.baseTier)
    (hl : bindable r.level = true) (name : Text) : ∃ role, newRole name r.item = some role := by
  obtain ⟨l, htier⟩ := tierLevel_scalar r.baseTier
  obtain ⟨c, hc⟩ := orDefault_legal (d := .str name) hd
  have hstore : store .text (.scalar r.baseTier) = some r.baseTier := ht
  have hb : bindable (min r.level maxImportedRoleLevel) = true := bindable_min hl (by decide)
  simp only [newRole, Role.item, got, Option.getD_some, htier, wantedLevel, hc, hb, hstore, Option.map_some]
  cases (Value.scalar r.baseTier).truthy <;> simp
  split_ifs <;> exact ⟨_, rfl⟩

private theorem updateRole_item {r : Role} (hd : Legal .text r.displayName) (ht : Legal .text r.baseTier)
    (hl : bindable r.level = true) (role : Role) : ∃ role', updateRole role r.item = some role' := by
  obtain ⟨l, htier⟩ := tierLevel_scalar r.baseTier
  obtain ⟨c, hc⟩ := orDefault_legal (d := role.displayName) hd
  have hstore : store .text (.scalar r.baseTier) = some r.baseTier := ht
  have hb : bindable (cappedLevel role r.item) = true := bindable_min hl (le_max_right _ _)
  simp only [updateRole, Role.item, got, Option.getD_some, htier, hc, hstore, Option.map_some] at hb ⊢
  cases (Value.scalar r.baseTier).truthy <;> simp [hb]
  split_ifs <;> exact ⟨_, rfl⟩

private theorem importRole_item (db : Db) {r : Role} (hd : Legal .text r.displayName) (ht : Legal .text r.baseTier)
    (hl : bindable r.level = true) : ∃ db' note, importRole db r.item = some (db', note) := by
  have hname : textArg r.item.name = some r.name := rfl
  simp only [importRole, hname, Option.bind_eq_bind, Option.bind_some, Option.pure_def]
  split
  · exact ⟨_, _, rfl⟩
  · split
    · split
      · exact ⟨_, _, rfl⟩
      · obtain ⟨role, hrole⟩ := newRole_item hd ht hl (strip r.name)
        exact ⟨_, _, by rw [hrole]; rfl⟩
    · rename_i role _
      split
      · exact ⟨_, _, rfl⟩
      · obtain ⟨role', hrole⟩ := updateRole_item hd ht hl role
        exact ⟨_, _, by rw [hrole]; rfl⟩

/-- Exported roles are imported without an error, and only roles change. -/
theorem roles_run (flags : Flags) (db : Db) {rs : List Role}
    (h : ∀ r ∈ rs, Legal .text r.displayName ∧ Legal .text r.baseTier ∧ bindable r.level = true) :
    ∃ roles, runSteps flags db (rs.map fun r => .role r.item) = some { db with roles := roles } := by
  induction rs generalizing db with
  | nil => exact ⟨db.roles, rfl⟩
  | cons r rs ih =>
    obtain ⟨hd, ht, hl⟩ := h r (by simp)
    obtain ⟨db₁, note, hone⟩ := importRole_item db hd ht hl
    obtain ⟨roles, hrun⟩ := ih db₁ fun x hx => h x (by simp [hx])
    refine ⟨roles, ?_⟩
    rw [List.map_cons, runSteps_cons, importStep, hone, Option.bind_some, hrun, importRole_frame hone]

end ProxmoxTool.ConfigBackup
