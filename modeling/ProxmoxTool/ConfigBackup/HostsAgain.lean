import ProxmoxTool.ConfigBackup.Restore
import ProxmoxTool.Lib.Upserts

/-!
# A document twice: tags, hosts and settings

What a second import of the same document does to the tables of the first.  Tags and settings stay as they are.  A host is looked up by the
stripped name but written with the name as the item has it, so with such a name it is not found again: `hosts_again_iff`.
-/

namespace ProxmoxTool.ConfigBackup

attribute [ext] Tag Host Guest Role

variable {flags : Flags} {db db' : Db} {note : Note}

/-! ### Tags -/

/-- The name by which an item looks up its tag; an item without one is ignored. -/
def TagItem.key (item : TagItem) : Option Text := ((textArg item.name).map strip).filter fun n => decide (n ≠ [])

def TagItem.write (item : TagItem) (tag : Tag) : Tag :=
  { tag with
    color := (orDefault item.color defaultColor).getD .null
    networks := (networkLinks item.unifiNetworks).getD tag.networks }

def TagItem.row (tags : List Tag) (item : TagItem) : Tag := item.write ⟨freshId Tag.id tags, item.key.getD [], .null, []⟩

/-- With distinct keys, replacing a row by what becomes of it is a change of its key. -/
theorem replaceRow_eq {α : Type} {id : α → Nat} {f : α → α} {rows : List α} (hkeys : (rows.map id).Nodup) {row : α} (hrow : row ∈ rows)
    (hid : id (f row) = id row) : replaceRow id (f row) rows = rows.map fun r => if id r = id row then f r else r := by
  unfold replaceRow
  refine List.map_congr_left fun r hr => ?_
  rw [hid]
  split
  · rename_i heq
    rw [eq_of_id_eq id hkeys hr hrow heq]
  · rfl

theorem importTag_upsert (hkeys : (db.tags.map Tag.id).Nodup) {item : TagItem} (h : importTag db item = some (db', note)) :
    db'.tags = (namedUpsert Tag.id Tag.name TagItem.key TagItem.row item db.tags).first.apply Tag.id TagItem.write db.tags := by
  simp only [importTag, Option.bind_eq_bind, Option.bind_eq_some_iff, Option.pure_def] at h
  obtain ⟨name, hname, h⟩ := h
  unfold namedUpsert
  split at h
  · rename_i hempty
    have hkey : item.key = none := by simp [TagItem.key, hname, hempty]
    rw [hkey]
    cases h
    rfl
  · rename_i hne
    have hkey : item.key = some (strip name) := by simp [TagItem.key, hname, hne]
    rw [hkey]
    simp only [Option.bind_eq_some_iff] at h
    obtain ⟨color, hcolor, h⟩ := h
    split at h
    · dsimp only
      split at h
      · rename_i hfind
        rw [hfind]
        cases h
        simp [Twice.first, Upsert.apply, TagItem.row, TagItem.write, hkey, hcolor]
      · rename_i tag hfind
        rw [hfind]
        cases h
        have hwrite : item.write tag = { tag with color := color, networks := (networkLinks item.unifiNetworks).getD tag.networks } := by
          rw [TagItem.write, hcolor]
          rfl
        exact hwrite ▸ replaceRow_eq hkeys (List.mem_of_find?_eq_some hfind) rfl
    · cases h

theorem tagTable : NamedTable Tag.id TagItem.write Tag.name TagItem.key TagItem.row where
  key_act _ _ := rfl
  name_act _ _ _ _ h := h
  fresh rows item n hn := ⟨by simp [TagItem.row, TagItem.write, hn], freshId_not_mem Tag.id rows⟩

/-! ### Sections -/

/-- The items of one kind, over the table they write. -/
theorem section_run {ι α : Type} {mk : ι → Step} {table : Db → List α} {step : ι → List α → List α} {P : List α → Prop} {Q : ι → Prop}
    (hstep : ∀ item db db' note, P (table db) → importStep flags db (mk item) = some (db', note) →
      table db' = step item (table db) ∧ P (step item (table db)) ∧ Q item)
    {items : List ι} (hdb : P (table db)) (h : runSteps flags db (items.map mk) = some db') :
    table db' = items.foldl (fun rows item => step item rows) (table db) ∧ ∀ item ∈ items, Q item := by
  induction items generalizing db with
  | nil =>
    cases h
    exact ⟨rfl, nofun⟩
  | cons item items ih =>
    rw [List.map_cons, runSteps_cons, Option.bind_eq_some_iff] at h
    obtain ⟨⟨db₁, note⟩, hone, hrest⟩ := h
    obtain ⟨htable, hP, hQ⟩ := hstep item db db₁ note hdb hone
    obtain ⟨hfold, hall⟩ := ih (htable ▸ hP) hrest
    rw [List.foldl_cons, ← htable]
    exact ⟨hfold, List.forall_mem_cons.2 ⟨hQ, hall⟩⟩

theorem namedRun_foldl {α κ ι ν : Type} [DecidableEq κ] [DecidableEq ν] {key : α → κ} {act : ι → α → α} {nm : α → ν}
    {name : ι → Option ν} {new : List α → ι → α} (items : List ι) (rows : List α) : namedRun key act nm name new items rows =
      items.foldl (fun rows item => (namedUpsert key nm name new item rows).first.apply key act rows) rows := by
  induction items generalizing rows with
  | nil => rfl
  | cons item items ih => exact ih _

theorem tags_run_named {items : List TagItem} (hkeys : (db.tags.map Tag.id).Nodup) (h : runSteps flags db (items.map .tag) = some db') :
    db'.tags = namedRun Tag.id TagItem.write Tag.name TagItem.key TagItem.row items db.tags := by
  rw [namedRun_foldl]
  refine (section_run (P := fun tags => (tags.map Tag.id).Nodup) (Q := fun _ => True) (fun item db db' note hkeys hone => ?_) hkeys h).1
  exact ⟨importTag_upsert hkeys hone, namedUpsert_keys tagTable hkeys item, trivial⟩

/-- A second run of the tags changes nothing. -/
theorem tags_again {items : List TagItem} {db₁ db₂ : Db} (hkeys : (db.tags.map Tag.id).Nodup)
    (h₁ : runSteps flags db (items.map .tag) = some db') (hsame : db₁.tags = db'.tags) (h₂ : runSteps flags db₁ (items.map .tag) = some db₂) :
    db₂.tags = db₁.tags := by
  have hrun := tags_run_named hkeys h₁
  have hkeys' : (db₁.tags.map Tag.id).Nodup := by
    rw [hsame, hrun]
    exact namedRun_keys tagTable hkeys items
  rw [tags_run_named hkeys' h₂, hsame, hrun]
  have hid : ∀ item (tag : Tag), (TagItem.write item tag).id = (none : Option Nat).getD tag.id := fun _ _ => rfl
  have hname : ∀ item (tag : Tag), (TagItem.write item tag).name = (none : Option Text).getD tag.name := fun _ _ => rfl
  have hcolor : ∀ item (tag : Tag), (TagItem.write item tag).color = (some ((orDefault item.color defaultColor).getD .null)).getD tag.color :=
    fun _ _ => rfl
  have hnetworks : ∀ item (tag : Tag), (TagItem.write item tag).networks = (networkLinks item.unifiNetworks).getD tag.networks :=
    fun _ _ => rfl
  refine (namedRun_twice_iff tagTable hkeys (fun ps tag => ?_) (fun _ _ => True) fun item _ tags ps _ _ => ?_).2 fun _ _ _ _ _ _ _ _ => trivial
  · exact Tag.ext (part_twice _ hid ps tag) (part_twice _ hname ps tag) (part_twice _ hcolor ps tag) (part_twice _ hnetworks ps tag)
  · refine iff_true_intro (Tag.ext ((part_again_iff _ hid ps item _).2 fun _ => rfl) ((part_again_iff _ hname ps item _).2 fun _ => rfl)
      ((part_again_iff _ hcolor ps item _).2 fun _ => rfl) ((part_again_iff _ hnetworks ps item _).2 fun _ => ?_))
    show (networkLinks item.unifiNetworks).getD ((networkLinks item.unifiNetworks).getD []) = (networkLinks item.unifiNetworks).getD []
    cases networkLinks item.unifiNetworks with
    | none => rfl
    | some networks => rfl

/-! ### Hosts -/

section

variable {F : Type} [DecidableEq F] [Fintype F]

/-- What the fields of an item write. -/
def stored (kind : F → Kind) (item : F → Option Value) (f : F) : Option Scalar := (item f).map fun v => (store (kind f) v).getD .null

omit [DecidableEq F] in
theorem assign_eq {kind : F → Kind} {base fields : F → Scalar} {item : F → Option Value} (h : assign kind base item = some fields) :
    (fields = fun f => (stored kind item f).getD (base f)) ∧ ∀ f v, item f = some v → (store (kind f) v).isSome = true := by
  unfold assign at h
  rw [Option.ite_none_right_eq_some] at h
  obtain ⟨hall, h⟩ := h
  have hstore : ∀ f v, item f = some v → (store (kind f) v).isSome = true := by
    intro f v hv
    have hf := hall f
    rw [hv] at hf
    exact hf
  refine ⟨?_, hstore⟩
  rw [← Option.some.inj h]
  funext f
  unfold stored
  cases hv : item f with
  | none => rfl
  | some v =>
    obtain ⟨s, hs⟩ := Option.isSome_iff_exists.1 (hstore f v hv)
    simp [hs]

theorem store_null_iff {kind : Kind} {v : Value} (h : (store kind v).isSome = true) :
    (store kind v).getD .null = .null ↔ v = .scalar .null := by
  refine ⟨fun hnull => ?_, fun hv => by rw [hv]; cases kind <;> rfl⟩
  obtain ⟨s, hs⟩ := Option.isSome_iff_exists.1 h
  rw [hs, Option.getD_some] at hnull
  subst hnull
  unfold store at hs
  split at hs
  · rfl
  · cases hs
  · cases hs
  · cases hs
  · cases hs
  · split at hs
    · cases hs
    · cases hs
  · cases hs
    rfl
  · cases hs
  · cases hs

omit [DecidableEq F] [Fintype F] in
/-- A value that must not be null if no later item writes it: if it is null, some later item writes it. -/
theorem untouched_imp_iff {ι : Type} {kind : F → Kind} {w : ι → F → Option Value} {ps : List ι} {f : F} {D N : Prop} :
    ((∀ i ∈ ps, stored kind (w i) f = none) → D → ¬ N) ↔ (D → N → ∃ i ∈ ps, (w i f).isSome = true) := by
  have hnone : (∀ i ∈ ps, stored kind (w i) f = none) ↔ ¬ ∃ i ∈ ps, (w i f).isSome = true := by
    simp [stored]
  rw [hnone]
  exact ⟨fun h hd hn => not_not.1 fun hno => h hno hd hn, fun h hno hd hn => hno (h hd hn)⟩

omit [DecidableEq F] [Fintype F] in
/-- The fields of a new row: writing them once more makes a difference where a default has been filled in. -/
theorem insertDefaults_stored_iff (kind : F → Kind) (default : F → Scalar) (item : F → Option Value) {item' : F → Option Value} {f : F}
    (hstorable : ∀ v, item' f = some v → (store (kind f) v).isSome = true) (hsub : ∀ v, item' f = some v → item f = some v) :
    (stored kind item' f).getD (insertDefaults default (fun f => (stored kind item f).getD .null) f) =
        insertDefaults default (fun f => (stored kind item f).getD .null) f ↔
      (default f ≠ .null → item' f ≠ some (.scalar .null)) := by
  unfold insertDefaults stored
  cases hv : item' f with
  | none => exact ⟨fun _ _ => nofun, fun _ => rfl⟩
  | some v =>
    simp only [hsub v hv, Option.map_some, Option.getD_some]
    rw [ne_eq, ne_eq, Option.some_inj, ← store_null_iff (hstorable v hv)]
    by_cases hnull : (store (kind f) v).getD .null = .null
    · rw [if_pos hnull, hnull]
      exact ⟨fun heq hne => absurd heq.symm hne, fun himp => by_contra fun hne => himp (fun hdefault => hne hdefault.symm) rfl⟩
    · rw [if_neg hnull]
      exact ⟨fun _ _ => hnull, fun _ => rfl⟩

end

def HostItem.nameText (item : HostItem) : Text := (textArg item.name).getD []

def HostItem.hostnameText (item : HostItem) : Text := (textArg item.hostname).getD []

/-- The name by which an item looks up its host; an item without name or hostname is ignored. -/
def HostItem.key (item : HostItem) : Option Text :=
  if strip item.nameText = [] ∨ strip item.hostnameText = [] then none else some (strip item.nameText)

/-- The name is looked up as it is written. -/
def HostItem.Clean (item : HostItem) : Prop := strip item.nameText = item.nameText

def HostItem.write (item : HostItem) (host : Host) : Host :=
  repointHost host item.nameText item.hostnameText fun f => (stored HostField.kind item.fields f).getD (host.fields f)

def HostItem.row (hosts : List Host) (item : HostItem) : Host :=
  newHost (freshId Host.id hosts) item.nameText item.hostnameText fun f => (stored HostField.kind item.fields f).getD .null

/-- The hosts after an item. -/
def hostStep (flags : Flags) (item : HostItem) (hosts : List Host) : List Host :=
  match item.key with
  | none => hosts
  | some n => match hosts.find? fun h => decide (h.name = n) with
    | none => hosts ++ [item.row hosts]
    | some host => if flags.importHosts then hosts.map fun h => if h.id = host.id then item.write h else h else hosts

/-- Every value of the item can be stored in its column. -/
def HostItem.Storable (item : HostItem) : Prop := ∀ f v, item.fields f = some v → (store f.kind v).isSome = true

theorem importHost_step (hkeys : (db.hosts.map Host.id).Nodup) {item : HostItem} (h : importHost flags db item = some (db', note)) :
    db'.hosts = hostStep flags item db.hosts ∧ (flags.importHosts = true → item.key.isSome = true → item.Storable) := by
  have hkey : ∀ {name hostname}, textArg item.name = some name → textArg item.hostname = some hostname →
      item.nameText = name ∧ item.hostnameText = hostname := by
    intro name hostname hname hhostname
    rw [HostItem.nameText, HostItem.hostnameText, hname, hhostname]
    exact ⟨rfl, rfl⟩
  rcases importHost_cases h with ⟨rfl, name, hostname, hname, hhostname, hcase⟩ |
    ⟨name, hostname, hname, hhostname, hne, hne', ⟨hfind, fields, hassign, rfl⟩ | ⟨host, fields, hfind, hflag, hassign, rfl⟩⟩
  · obtain ⟨htext, htext'⟩ := hkey hname hhostname
    unfold hostStep HostItem.key
    rw [htext, htext']
    rcases hcase with hempty | ⟨host, hfind, hflag⟩
    · rw [if_pos hempty]
      exact ⟨rfl, fun _ hsome => by cases hsome⟩
    · refine ⟨?_, fun hflag' => absurd (hflag.symm.trans hflag') Bool.false_ne_true⟩
      by_cases hempty : strip name = [] ∨ strip hostname = []
      · rw [if_pos hempty]
      · rw [if_neg hempty]
        dsimp only
        rw [hfind, hflag]
        rfl
  · obtain ⟨htext, htext'⟩ := hkey hname hhostname
    obtain ⟨rfl, hstore⟩ := assign_eq hassign
    unfold hostStep HostItem.key
    rw [htext, htext', if_neg (by simp [hne, hne'])]
    dsimp only
    rw [hfind]
    refine ⟨?_, fun _ _ => hstore⟩
    rw [HostItem.row, htext, htext']
  · obtain ⟨htext, htext'⟩ := hkey hname hhostname
    obtain ⟨rfl, hstore⟩ := assign_eq hassign
    unfold hostStep HostItem.key
    rw [htext, htext', if_neg (by simp [hne, hne'])]
    dsimp only
    rw [hfind, hflag]
    refine ⟨?_, fun _ _ => hstore⟩
    have hwrite : repointHost host name hostname (fun f => (stored HostField.kind item.fields f).getD (host.fields f)) = item.write host := by
      rw [HostItem.write, htext, htext']
    show replaceRow Host.id _ db.hosts = _
    rw [hwrite]
    exact replaceRow_eq hkeys (List.mem_of_find?_eq_some hfind) rfl

/-- The items whose name is looked up as it is written. -/
def HostItem.cleanKey (item : HostItem) : Option Text := item.key.filter fun n => decide (n = item.nameText)

theorem hostTable : NamedTable Host.id HostItem.write Host.name HostItem.cleanKey HostItem.row where
  key_act _ _ := rfl
  name_act item n host hn _ := by
    obtain ⟨-, hclean⟩ := Option.filter_eq_some_iff.1 hn
    exact (of_decide_eq_true hclean).symm
  fresh rows item n hn := by
    obtain ⟨-, hclean⟩ := Option.filter_eq_some_iff.1 hn
    exact ⟨(of_decide_eq_true hclean).symm, freshId_not_mem Host.id rows⟩

theorem hostStep_keys {hosts : List Host} (hkeys : (hosts.map Host.id).Nodup) (item : HostItem) :
    ((hostStep flags item hosts).map Host.id).Nodup := by
  unfold hostStep
  split
  · exact hkeys
  · split
    · exact nodup_append_fresh Host.id hkeys rfl
    · rename_i host _
      split
      · have hsame : ((Upsert.change host.id item).apply Host.id HostItem.write hosts).map Host.id = hosts.map Host.id :=
          Upsert.map_key_change hostTable.key_act host.id item hosts
        rw [← hsame] at hkeys
        exact hkeys
      · exact hkeys

theorem hostItems_run {items : List HostItem} (hkeys : (db.hosts.map Host.id).Nodup) (h : runSteps flags db (items.map .host) = some db') :
    db'.hosts = items.foldl (fun hosts item => hostStep flags item hosts) db.hosts ∧
      ∀ item ∈ items, flags.importHosts = true → item.key.isSome = true → item.Storable := by
  refine section_run (P := fun hosts => (hosts.map Host.id).Nodup) (fun item db db' note hkeys hone => ?_) hkeys h
  obtain ⟨hstep, hstorable⟩ := importHost_step hkeys hone
  exact ⟨hstep, hostStep_keys hkeys item, hstorable⟩

/-! ### Hosts without the opt-in -/

section

variable {hosts : List Host} {items : List HostItem}

theorem length_hostStep (flags : Flags) (item : HostItem) (hosts : List Host) : hosts.length ≤ (hostStep flags item hosts).length := by
  unfold hostStep
  split
  · exact le_rfl
  · split
    · simp
    · split
      · simp
      · exact le_rfl

theorem length_hostRun (flags : Flags) (items : List HostItem) (hosts : List Host) :
    hosts.length ≤ (items.foldl (fun hosts item => hostStep flags item hosts) hosts).length := by
  induction items generalizing hosts with
  | nil => exact le_rfl
  | cons item items ih => exact (length_hostStep flags item hosts).trans (ih _)

/-- Without the opt-in an item adds a host or does nothing. -/
theorem hostStep_skips (hflag : flags.importHosts = false) (item : HostItem) (hosts : List Host) :
    (hostStep flags item hosts = hosts ∧ ∀ n, item.key = some n → n ∈ hosts.map Host.name) ∨
      hostStep flags item hosts = hosts ++ [item.row hosts] ∧ ∃ n, item.key = some n ∧ n ∉ hosts.map Host.name := by
  unfold hostStep
  cases item.key with
  | none => exact .inl ⟨rfl, nofun⟩
  | some n =>
    dsimp only
    cases hfind : hosts.find? fun h => decide (h.name = n) with
    | none =>
      refine .inr ⟨rfl, n, rfl, fun hmem => ?_⟩
      obtain ⟨host, hhost, hn⟩ := List.mem_map.1 hmem
      exact List.find?_eq_none.1 hfind host hhost (decide_eq_true hn)
    | some host =>
      rw [hflag]
      refine .inl ⟨rfl, fun m hm => ?_⟩
      cases hm
      have hn : host.name = n := by simpa using List.find?_some hfind
      exact List.mem_map.2 ⟨host, List.mem_of_find?_eq_some hfind, hn⟩

/-- Without the opt-in a run changes nothing exactly if every name is there. -/
theorem hostRun_fixed_iff (hflag : flags.importHosts = false) : items.foldl (fun hosts item => hostStep flags item hosts) hosts = hosts ↔
    ∀ item ∈ items, ∀ n, item.key = some n → n ∈ hosts.map Host.name := by
  induction items with
  | nil => exact ⟨fun _ => nofun, fun _ => rfl⟩
  | cons item items ih =>
    rw [List.foldl_cons, List.forall_mem_cons]
    rcases hostStep_skips hflag item hosts with ⟨hsame, hfound⟩ | ⟨hadds, n, hn, hnot⟩
    · rw [hsame, ih]
      exact ⟨fun hall => ⟨hfound, hall⟩, fun hboth => hboth.2⟩
    · refine ⟨fun hfixed => ?_, fun hboth => absurd (hboth.1 n hn) hnot⟩
      have hle := length_hostRun flags items (hostStep flags item hosts)
      rw [hfixed, hadds, List.length_append, List.length_singleton] at hle
      omega

/-- The names after a run without the opt-in. -/
theorem mem_hostRun_names (hflag : flags.importHosts = false) {n : Text} (hn : strip n = n) :
    n ∈ (items.foldl (fun hosts item => hostStep flags item hosts) hosts).map Host.name ↔
      n ∈ hosts.map Host.name ∨ ∃ item ∈ items, item.key.isSome = true ∧ item.nameText = n := by
  induction items generalizing hosts with
  | nil => simp
  | cons item items ih =>
    rw [List.foldl_cons, ih]
    simp only [List.mem_cons, exists_eq_or_imp, ← or_assoc]
    refine or_congr_left ?_
    rcases hostStep_skips hflag item hosts with ⟨hsame, hfound⟩ | ⟨hadds, m, hm, hnot⟩
    · rw [hsame]
      refine ⟨.inl, fun h => h.elim id ?_⟩
      rintro ⟨hkey, hname⟩
      obtain ⟨m, hm⟩ := Option.isSome_iff_exists.1 hkey
      have hmn : m = n := by
        unfold HostItem.key at hm
        split at hm
        · cases hm
        · rw [← Option.some.inj hm, hname, hn]
      exact hfound n (hmn ▸ hm)
    · rw [hadds, List.map_append, List.mem_append, List.map_singleton, List.mem_singleton]
      refine or_congr_right ⟨fun heq => ⟨by rw [hm]; rfl, heq.symm⟩, fun hboth => hboth.2.symm⟩

end

/-! ### Hosts with the opt-in -/

section

variable {hosts : List Host} {items : List HostItem}

instance (item : HostItem) : Decidable item.Clean := inferInstanceAs (Decidable (_ = _))

theorem countP_map_le {α : Type} {p : α → Bool} {f : α → α} {l : List α} (h : ∀ a ∈ l, p (f a) = true → p a = true) :
    (l.map f).countP p ≤ l.countP p := by
  rw [List.countP_map]
  exact List.countP_mono_left h

theorem countP_map_lt {α : Type} {p : α → Bool} {f : α → α} {l : List α} (h : ∀ a ∈ l, p (f a) = true → p a = true) {a : α} (ha : a ∈ l)
    (hbefore : p a = true) (hafter : p (f a) = false) : (l.map f).countP p < l.countP p := by
  obtain ⟨l₁, l₂, rfl⟩ := List.append_of_mem ha
  have h₁ := countP_map_le (l := l₁) (f := f) (p := p) fun b hb => h b (List.mem_append_left _ hb)
  have h₂ := countP_map_le (l := l₂) (f := f) (p := p) fun b hb => h b (List.mem_append_right _ (List.mem_cons_of_mem _ hb))
  simp only [List.map_append, List.map_cons, List.countP_append, List.countP_cons, hbefore, hafter]
  simp only [if_true, Bool.false_eq_true, if_false]
  omega

/-- The hosts with a stripped name. -/
def cleanHosts (hosts : List Host) : Nat := hosts.countP fun h => decide (strip h.name = h.name)

/-- An item whose name is not stripped adds a host or gives such a name to one that had a stripped one. -/
theorem hostStep_clean (hflag : flags.importHosts = true) (hkeys : (hosts.map Host.id).Nodup) (item : HostItem)
    (hlength : (hostStep flags item hosts).length = hosts.length) :
    cleanHosts (hostStep flags item hosts) ≤ cleanHosts hosts ∧
      (item.key.isSome = true → ¬ item.Clean → cleanHosts (hostStep flags item hosts) < cleanHosts hosts) := by
  unfold hostStep at hlength ⊢
  split
  · rename_i hkey
    rw [hkey]
    exact ⟨le_rfl, fun hsome => by cases hsome⟩
  · rename_i n hkey
    rw [hkey] at hlength
    dsimp only at hlength
    split
    · rename_i hfind
      rw [hfind] at hlength
      simp at hlength
    · rename_i host hfind
      rw [hflag, if_pos rfl]
      have hhost : host ∈ hosts := List.mem_of_find?_eq_some hfind
      have hname : host.name = n := by simpa using List.find?_some hfind
      have hn : n = strip item.nameText := by
        unfold HostItem.key at hkey
        split at hkey
        · cases hkey
        · exact (Option.some.inj hkey).symm
      have hclean : strip host.name = host.name := by rw [hname, hn, strip_strip]
      have hmono : ∀ h ∈ hosts, decide (strip (if h.id = host.id then item.write h else h).name =
          (if h.id = host.id then item.write h else h).name) = true → decide (strip h.name = h.name) = true := by
        intro h hh
        split
        · rename_i heq
          obtain rfl := eq_of_id_eq Host.id hkeys hh hhost heq
          exact fun _ => decide_eq_true hclean
        · exact id
      refine ⟨countP_map_le hmono, fun _ hunclean => countP_map_lt hmono hhost (decide_eq_true hclean) ?_⟩
      rw [if_pos rfl]
      exact decide_eq_false hunclean

theorem hostRun_clean (hflag : flags.importHosts = true) (hkeys : (hosts.map Host.id).Nodup)
    (hlength : (items.foldl (fun hosts item => hostStep flags item hosts) hosts).length = hosts.length) :
    cleanHosts (items.foldl (fun hosts item => hostStep flags item hosts) hosts) ≤ cleanHosts hosts ∧
      ((∃ item ∈ items, item.key.isSome = true ∧ ¬ item.Clean) →
        cleanHosts (items.foldl (fun hosts item => hostStep flags item hosts) hosts) < cleanHosts hosts) := by
  induction items generalizing hosts with
  | nil => exact ⟨le_rfl, fun ⟨_, hmem, _⟩ => absurd hmem List.not_mem_nil⟩
  | cons item items ih =>
    rw [List.foldl_cons] at hlength ⊢
    have hone := length_hostStep flags item hosts
    have hrest := length_hostRun flags items (hostStep flags item hosts)
    obtain ⟨hle, hlt⟩ := hostStep_clean hflag hkeys item (by omega)
    have hkeys' : ((hostStep flags item hosts).map Host.id).Nodup := hostStep_keys hkeys item
    obtain ⟨hle', hlt'⟩ := ih hkeys' (by omega)
    refine ⟨hle'.trans hle, ?_⟩
    rintro ⟨i, hi, hkey, hunclean⟩
    rcases List.mem_cons.1 hi with rfl | hi
    · exact Nat.lt_of_le_of_lt hle' (hlt hkey hunclean)
    · exact Nat.lt_of_lt_of_le (hlt' ⟨i, hi, hkey, hunclean⟩) hle

theorem cleanKey_eq {item : HostItem} (h : item.key.isSome = true → item.Clean) : item.cleanKey = item.key := by
  unfold HostItem.cleanKey
  cases hkey : item.key with
  | none => rfl
  | some n =>
    have hclean := h (by rw [hkey]; rfl)
    have hn : n = item.nameText := by
      unfold HostItem.key at hkey
      split at hkey
      · cases hkey
      · rw [← Option.some.inj hkey]
        exact hclean
    exact Option.filter_eq_some_iff.2 ⟨rfl, decide_eq_true hn⟩

/-- With stripped names only, the items look their hosts up by the names they write. -/
theorem hostRun_named (hflag : flags.importHosts = true) (hclean : ∀ item ∈ items, item.key.isSome = true → item.Clean) :
    items.foldl (fun hosts item => hostStep flags item hosts) hosts =
      namedRun Host.id HostItem.write Host.name HostItem.cleanKey HostItem.row items hosts := by
  rw [namedRun_foldl]
  induction items generalizing hosts with
  | nil => rfl
  | cons item items ih =>
    have hstep : hostStep flags item hosts =
        (namedUpsert Host.id Host.name HostItem.cleanKey HostItem.row item hosts).first.apply Host.id HostItem.write hosts := by
      unfold hostStep namedUpsert
      rw [cleanKey_eq (hclean item List.mem_cons_self)]
      cases item.key with
      | none => rfl
      | some n =>
        dsimp only
        cases hosts.find? fun h => decide (h.name = n) with
        | none => rfl
        | some host =>
          dsimp only
          rw [hflag]
          rfl
    rw [List.foldl_cons, List.foldl_cons, hstep]
    exact ih fun i hi => hclean i (List.mem_cons_of_mem _ hi)

/-- A column that the first item of a name gives as `null`, and that has a default, is given by a later one of the name. -/
def DefaultsGiven (item : HostItem) (later : List HostItem) : Prop :=
  ∀ f : HostField, f.default ≠ .null → item.fields f = some (.scalar .null) → ∃ i ∈ later, (i.fields f).isSome = true

section

variable (i : HostItem) (host : Host)

private theorem write_id : (i.write host).id = (none : Option Nat).getD host.id := rfl

private theorem write_name : (i.write host).name = (some i.nameText).getD host.name := rfl

private theorem write_hostname : (i.write host).hostname = (some i.hostnameText).getD host.hostname := rfl

private theorem write_field (f : HostField) : (i.write host).fields f = (stored HostField.kind i.fields f).getD (host.fields f) := rfl

private theorem write_password : (i.write host).encryptedPassword = (some none).getD host.encryptedPassword := rfl

private theorem write_token : (i.write host).apiTokenSecret = (some none).getD host.apiTokenSecret := rfl

private theorem write_ipmi : (i.write host).ipmiPassword = (some none).getD host.ipmiPassword := rfl

private theorem write_ssh : (i.write host).sshCredential = (none : Option (Option Nat)).getD host.sshCredential := rfl

end

theorem host_twice (ps : List HostItem) (host : Host) :
    throughAll HostItem.write ps (throughAll HostItem.write ps host) = throughAll HostItem.write ps host :=
  Host.ext (part_twice _ write_id ps host) (part_twice _ write_name ps host) (part_twice _ write_hostname ps host)
    (funext fun f => part_twice (fun host : Host => host.fields f) (fun i host => write_field i host f) ps host)
    (part_twice _ write_password ps host) (part_twice _ write_token ps host) (part_twice _ write_ipmi ps host) (part_twice _ write_ssh ps host)

theorem newHost_kept_iff {item : HostItem} (hstorable : item.Storable) (hosts : List Host) (ps : List HostItem) :
    throughAll HostItem.write ps (item.write (throughAll HostItem.write ps (item.row hosts))) = throughAll HostItem.write ps (item.row hosts) ↔
      DefaultsGiven item ps := by
  have hfields : (∀ f, (throughAll HostItem.write ps (item.write (throughAll HostItem.write ps (item.row hosts)))).fields f =
      (throughAll HostItem.write ps (item.row hosts)).fields f) ↔ DefaultsGiven item ps := by
    refine forall_congr' fun f => ?_
    have hnew := insertDefaults_stored_iff HostField.kind HostField.default item.fields (hstorable f)
      fun _ hv => hv
    refine (part_again_iff (fun host : Host => host.fields f) (fun i host => write_field i host f) ps item _).trans ?_
    exact (imp_congr_right fun _ => hnew).trans untouched_imp_iff
  rw [← hfields]
  refine ⟨fun heq f => by rw [heq], fun hall => ?_⟩
  exact Host.ext ((part_again_iff _ write_id ps item _).2 fun _ => rfl) ((part_again_iff _ write_name ps item _).2 fun _ => rfl)
    ((part_again_iff _ write_hostname ps item _).2 fun _ => rfl) (funext hall) ((part_again_iff _ write_password ps item _).2 fun _ => rfl)
    ((part_again_iff _ write_token ps item _).2 fun _ => rfl) ((part_again_iff _ write_ipmi ps item _).2 fun _ => rfl)
    ((part_again_iff _ write_ssh ps item _).2 fun _ => rfl)

end

/-- What a document has to be like for a second import to leave the hosts alone.  With the opt-in, every name is stripped, and a default
that the first import has filled in is not asked to be `null` again.  Without it, every name is one of the database or is given stripped. -/
def HostsSettled (flags : Flags) (hosts : List Host) (items : List HostItem) : Prop :=
  if flags.importHosts then
    (∀ item ∈ items, item.key.isSome = true → item.Clean) ∧
      ∀ before item after n, items = before ++ item :: after → item.key = some n → n ∉ hosts.map Host.name → (∀ i ∈ before, i.key ≠ some n) →
        DefaultsGiven item (after.filter fun i => decide (i.key = some n))
  else ∀ item ∈ items, ∀ n, item.key = some n → n ∈ hosts.map Host.name ∨ ∃ i ∈ items, i.key.isSome = true ∧ i.nameText = n

theorem hosts_again_iff {items : List HostItem} {db₁ db₂ : Db} (hkeys : (db.hosts.map Host.id).Nodup)
    (h₁ : runSteps flags db (items.map .host) = some db') (hsame : db₁.hosts = db'.hosts)
    (h₂ : runSteps flags db₁ (items.map .host) = some db₂) : db₂.hosts = db₁.hosts ↔ HostsSettled flags db.hosts items := by
  have hkeys₁ : (db₁.hosts.map Host.id).Nodup := by
    rw [hsame, (hostItems_run hkeys h₁).1]
    exact List.foldlRecOn (motive := fun hosts : List Host => (hosts.map Host.id).Nodup) items _ hkeys
      fun hosts hhosts item _ => hostStep_keys hhosts item
  rw [(hostItems_run hkeys₁ h₂).1, hsame]
  obtain ⟨hrun, hstorable⟩ := hostItems_run hkeys h₁
  unfold HostsSettled
  cases hflag : flags.importHosts with
  | false =>
    rw [if_neg Bool.false_ne_true, hostRun_fixed_iff hflag, hrun]
    refine forall₂_congr fun item _ => forall₂_congr fun n hn => mem_hostRun_names hflag ?_
    unfold HostItem.key at hn
    split at hn
    · cases hn
    · rw [← Option.some.inj hn, strip_strip]
  | true =>
    rw [if_pos rfl]
    by_cases hclean : ∀ item ∈ items, item.key.isSome = true → item.Clean
    · have hkey : ∀ item ∈ items, item.cleanKey = item.key := fun item hitem => cleanKey_eq (hclean item hitem)
      have hkept : ∀ item ∈ items, ∀ hosts ps, (∀ p ∈ ps, p ∈ items) → item.cleanKey.isSome = true →
          (throughAll HostItem.write ps (item.write (throughAll HostItem.write ps (item.row hosts))) =
            throughAll HostItem.write ps (item.row hosts) ↔ DefaultsGiven item ps) :=
        fun item hitem hosts ps _ hsome => newHost_kept_iff (hstorable item hitem hflag (hkey item hitem ▸ hsome)) hosts ps
      rw [hrun, hostRun_named hflag hclean, hostRun_named hflag hclean, namedRun_twice_iff hostTable hkeys host_twice _ hkept,
        and_iff_right hclean]
      refine forall₄_congr fun before item after n => forall_congr' fun heq => ?_
      have hafter : after.filter (fun i => decide (i.cleanKey = some n)) = after.filter fun i => decide (i.key = some n) := by
        refine List.filter_congr fun i hi => ?_
        rw [hkey i (heq ▸ List.mem_append_right _ (List.mem_cons_of_mem _ hi))]
      have hbefore : (∀ i ∈ before, i.cleanKey ≠ some n) ↔ ∀ i ∈ before, i.key ≠ some n := by
        refine forall₂_congr fun i hi => ?_
        rw [hkey i (heq ▸ List.mem_append_left _ hi)]
      rw [hkey item (heq ▸ List.mem_append_right _ List.mem_cons_self), hafter, hbefore]
    · refine ⟨fun hfixed => ?_, fun hboth => absurd hboth.1 hclean⟩
      push Not at hclean
      obtain ⟨-, hlt⟩ := hostRun_clean hflag (hsame ▸ hkeys₁) (congrArg List.length hfixed)
      rw [hfixed] at hlt
      exact absurd (hlt hclean) (lt_irrefl _)

/-! ### Settings -/

/-- The rows of a key. -/
def Db.rowsOf (db : Db) (key : String) : List (String × Option Text) := db.settings.filter fun s => decide (s.1 = key)

theorem settingText_eq (db : Db) (key : String) : settingText db key = (((db.rowsOf key).head?.map Prod.snd).getD none).getD [] := by
  unfold settingText Db.setting Db.rowsOf
  rw [List.head?_filter]

theorem rowsOf_setSetting_ne {key key' : String} (hne : key' ≠ key) (value : Option Text) :
    (setSetting db key' value).rowsOf key = db.rowsOf key := by
  unfold setSetting Db.rowsOf
  dsimp only
  split
  · rw [List.filter_map]
    have hsame : ((fun s : String × Option Text => decide (s.1 = key)) ∘ fun s => if s.1 = key' then (key', value) else s) =
        fun s => decide (s.1 = key) := by
      funext s
      dsimp only [Function.comp_apply]
      split
      · rename_i heq
        rw [heq]
      · rfl
    rw [hsame]
    refine (List.map_congr_left fun s hs => ?_).trans (List.map_id _)
    have hkey : s.1 = key := of_decide_eq_true (List.mem_filter.1 hs).2
    exact if_neg fun heq => hne (heq.symm.trans hkey)
  · rw [List.filter_append, List.filter_cons, if_neg (by simpa using hne), List.filter_nil, List.append_nil]

variable (db) in
/-- The rows of the key that is set. -/
theorem rowsOf_setSetting (key : String) (value : Option Text) :
    (setSetting db key value).rowsOf key ≠ [] ∧ ∀ s ∈ (setSetting db key value).rowsOf key, s = (key, value) := by
  unfold setSetting Db.rowsOf
  dsimp only
  split
  · rename_i hany
    constructor
    · obtain ⟨s, hs, hkey⟩ := List.any_eq_true.1 hany
      have hkey : s.1 = key := of_decide_eq_true hkey
      refine List.ne_nil_of_mem (a := (key, value)) (List.mem_filter.2 ⟨List.mem_map.2 ⟨s, hs, if_pos hkey⟩, ?_⟩)
      exact decide_eq_true rfl
    · intro s hs
      obtain ⟨hs, hkey⟩ := List.mem_filter.1 hs
      obtain ⟨r, -, rfl⟩ := List.mem_map.1 hs
      have hkey := of_decide_eq_true hkey
      split at hkey
      · rename_i heq
        exact if_pos heq
      · rename_i hne
        exact absurd hkey hne
  · rename_i hany
    have hnone : ∀ s ∈ db.settings, ¬ s.1 = key := by
      intro s hs hkey
      exact hany (List.any_eq_true.2 ⟨s, hs, decide_eq_true hkey⟩)
    rw [List.filter_append, List.filter_eq_nil_iff.2 (by simpa using hnone), List.nil_append, List.filter_cons, if_pos (decide_eq_true rfl),
      List.filter_nil]
    exact ⟨List.cons_ne_nil _ _, fun s hs => List.mem_singleton.1 hs⟩

/-- A setting that has the value already. -/
theorem setSetting_same {key : String} {value : Option Text} (hne : db.rowsOf key ≠ []) (hall : ∀ s ∈ db.rowsOf key, s = (key, value)) :
    setSetting db key value = db := by
  unfold setSetting
  have hany : db.settings.any (fun s => decide (s.1 = key)) = true := by
    obtain ⟨s, hs⟩ := List.exists_mem_of_ne_nil _ hne
    obtain ⟨hs, hkey⟩ := List.mem_filter.1 hs
    exact List.any_eq_true.2 ⟨s, hs, hkey⟩
  have hmap : (db.settings.map fun s => if s.1 = key then (key, value) else s) = db.settings := by
    refine (List.map_congr_left fun s hs => ?_).trans (List.map_id _)
    split
    · rename_i hkey
      exact (hall s (List.mem_filter.2 ⟨hs, decide_eq_true hkey⟩)).symm
    · rfl
  rw [if_pos hany, hmap]

theorem rowsOf_clearSecrets {key : String} {keys : List String} (hkey : key ∉ keys) : (clearSecrets db keys).rowsOf key = db.rowsOf key := by
  induction keys generalizing db with
  | nil => rfl
  | cons k keys ih =>
    rw [List.mem_cons, not_or] at hkey
    unfold clearSecrets
    rw [List.foldl_cons]
    refine (ih hkey.2).trans ?_
    split
    · rfl
    · exact rowsOf_setSetting_ne (fun heq => hkey.1 heq.symm) _

/-- An item writes its own setting and secrets. -/
theorem rowsOf_importSetting {key key' : String} (hne : key' ≠ key) (hsecret : looksLikeSecretKey key = false) (value : Value) :
    (importSetting flags db key' value).1.rowsOf key = db.rowsOf key := by
  unfold importSetting
  repeat' split
  all_goals first
    | rfl
    | exact rowsOf_setSetting_ne hne _
    | skip
  rename_i secrets hdest _ _
  refine (rowsOf_setSetting_ne hne _).trans (rowsOf_clearSecrets fun hmem => ?_)
  have hlooks := looksLikeSecretKey_of_mem (mem_of_destinationSecrets hdest) hmem
  rw [hsecret] at hlooks
  cases hlooks

variable (db) in
/-- Once an item has been imported, it changes nothing as long as the rows of its key stay as they are. -/
theorem importSetting_again {t : Db} {key : String} {value : Value}
    (hrows : looksLikeSecretKey key = false → t.rowsOf key = (importSetting flags db key value).1.rowsOf key) :
    (importSetting flags t key value).1 = t := by
  have hset : ∀ {d : Db} {text : Option Text}, t.rowsOf key = (setSetting d key text).rowsOf key → setSetting t key text = t := by
    intro d text heq
    obtain ⟨hne, hall⟩ := rowsOf_setSetting d key text
    exact setSetting_same (heq ▸ hne) fun s hs => hall s (heq ▸ hs)
  have htext : ∀ {d : Db} {text : Option Text}, t.rowsOf key = (setSetting d key text).rowsOf key → text.getD [] = settingText t key := by
    intro d text heq
    obtain ⟨hne, hall⟩ := rowsOf_setSetting d key text
    rw [settingText_eq, heq]
    cases hrows : (setSetting d key text).rowsOf key with
    | nil => exact absurd hrows hne
    | cons s rows =>
      rw [hall s (hrows ▸ List.mem_cons_self)]
      rfl
  unfold importSetting at hrows ⊢
  generalize valueText value = text at hrows ⊢
  cases text with
  | none => rfl
  | some text =>
    dsimp only at hrows ⊢
    by_cases hlooks : (looksLikeSecretKey key || looksLikeSecretValue text) = true
    · rw [if_pos hlooks]
    · rw [if_neg hlooks] at hrows ⊢
      have hsecret : looksLikeSecretKey key = false := by
        rw [Bool.or_eq_true, not_or, Bool.not_eq_true] at hlooks
        exact hlooks.1
      have hrows := hrows hsecret
      by_cases hcritical : key ∈ authCriticalKeys
      · rw [if_pos hcritical]
      · rw [if_neg hcritical] at hrows ⊢
        generalize settingValue key text = text' at hrows ⊢
        cases text' with
        | none => rfl
        | some text =>
          generalize destinationSecrets key = secrets' at hrows ⊢
          cases secrets' with
          | none => exact hset hrows
          | some secrets =>
            dsimp only at hrows ⊢
            by_cases hsame : text.getD [] = settingText db key
            · rw [if_pos hsame] at hrows
              rw [if_pos (htext hrows)]
              exact hset hrows
            · rw [if_neg hsame] at hrows
              cases hflag : flags.importHosts with
              | false =>
                rw [hflag, Bool.not_false, if_pos rfl] at hrows
                rw [Bool.not_false, if_pos rfl, if_neg]
                rw [settingText_eq, hrows, ← settingText_eq]
                exact hsame
              | true =>
                rw [hflag, Bool.not_true, if_neg Bool.false_ne_true] at hrows
                rw [if_pos (htext hrows)]
                exact hset hrows

/-- After a run every item has been imported. -/
theorem settings_settled {settings : List (String × Value)} (hkeys : (settings.map Prod.fst).Nodup)
    (h : runSteps flags db (settings.map fun s => .setting s.1 s.2) = some db') {t : Db} :
    ∀ s ∈ settings, (looksLikeSecretKey s.1 = false → t.rowsOf s.1 = db'.rowsOf s.1) → (importSetting flags t s.1 s.2).1 = t := by
  induction settings generalizing db with
  | nil => exact nofun
  | cons s settings ih =>
    rw [List.map_cons, runSteps_cons] at h
    rw [List.map_cons, List.nodup_cons] at hkeys
    have hrest : runSteps flags (importSetting flags db s.1 s.2).1 (settings.map fun s => .setting s.1 s.2) = some db' := h
    refine List.forall_mem_cons.2 ⟨fun hrows => ?_, ih hkeys.2 hrest⟩
    refine importSetting_again db fun hsecret => (hrows hsecret).trans ?_
    refine runSteps_invariant (P := fun d => d.rowsOf s.1 = (importSetting flags db s.1 s.2).1.rowsOf s.1) ?_ rfl hrest
    rintro d d' note step hstep hd hone
    obtain ⟨s', hs', rfl⟩ := List.mem_map.1 hstep
    have hne : s'.1 ≠ s.1 := fun heq => hkeys.1 (heq ▸ List.mem_map_of_mem hs')
    obtain rfl : (importSetting flags d s'.1 s'.2).1 = d' := congrArg Prod.fst (Option.some.inj hone)
    exact (rowsOf_importSetting hne hsecret s'.2).trans hd

/-- A second run of the settings changes nothing. -/
theorem settings_again {settings : List (String × Value)} {db₁ : Db} (hkeys : (settings.map Prod.fst).Nodup)
    (h₁ : runSteps flags db (settings.map fun s => .setting s.1 s.2) = some db') (hsame : db₁.settings = db'.settings) :
    runSteps flags db₁ (settings.map fun s => .setting s.1 s.2) = some db₁ := by
  have hsettled := settings_settled hkeys h₁ (t := db₁)
  have hrows : ∀ key, db₁.rowsOf key = db'.rowsOf key := fun key => by rw [Db.rowsOf, Db.rowsOf, hsame]
  clear h₁ hkeys
  induction settings with
  | nil => rfl
  | cons s settings ih =>
    have hfixed : (importSetting flags db₁ s.1 s.2).1 = db₁ := hsettled s List.mem_cons_self fun _ => hrows s.1
    rw [List.map_cons, runSteps_cons]
    show runSteps flags (importSetting flags db₁ s.1 s.2).1 _ = _
    rw [hfixed]
    exact ih fun s' hs' => hsettled s' (List.mem_cons_of_mem _ hs')

end ProxmoxTool.ConfigBackup
