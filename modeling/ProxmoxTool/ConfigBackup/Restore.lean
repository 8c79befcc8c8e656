import ProxmoxTool.ConfigBackup.Export

/-!
# Runs of upserts

What the steps of an import do to the tables.  Each kind of step changes one table.  An import of exported rows into an
empty table is lossless exactly when every row is created anew; `EachGrows` says that of a run, and follows from the number
of rows at its end, since no step adds more than one.
-/

namespace ProxmoxTool.ConfigBackup

variable {flags : Flags} {db db' : Db} {note : Note}

/-! ### Running steps -/

@[simp] theorem runSteps_nil : runSteps flags db [] = some db := rfl

@[simp] theorem runSteps_cons (step : Step) (steps : List Step) :
    runSteps flags db (step :: steps) = (importStep flags db step).bind fun r => runSteps flags r.1 steps := by
  unfold runSteps
  rw [importSteps]
  cases importStep flags db step with
  | none => rfl
  | some r =>
    simp only [bind, Option.bind]
    cases importSteps flags r.1 steps <;> rfl

theorem runSteps_append (xs ys : List Step) :
    runSteps flags db (xs ++ ys) = (runSteps flags db xs).bind fun r => runSteps flags r ys := by
  induction xs generalizing db with
  | nil => rfl
  | cons x xs ih =>
    rw [List.cons_append, runSteps_cons, runSteps_cons, Option.bind_assoc]
    congr 1
    funext r
    exact ih

/-- A property that every step keeps holds at the end. -/
theorem runSteps_invariant {P : Db → Prop} {steps : List Step}
    (hstep : ∀ db db' note, ∀ step ∈ steps, P db → importStep flags db step = some (db', note) → P db') (h : P db)
    (hrun : runSteps flags db steps = some db') : P db' := by
  induction steps generalizing db with
  | nil =>
    rw [runSteps_nil, Option.some_inj] at hrun
    exact hrun ▸ h
  | cons step steps ih =>
    rw [runSteps_cons, Option.bind_eq_some_iff] at hrun
    obtain ⟨⟨db₁, note⟩, hone, hrest⟩ := hrun
    exact ih (fun db db' note s hs => hstep db db' note s (List.mem_cons_of_mem _ hs))
      (hstep _ _ _ _ List.mem_cons_self h hone) hrest

/-- Every step of the run adds a row to the table that `size` counts. -/
def EachGrows (flags : Flags) (size : Db → Nat) : Db → List Step → Prop
  | _, [] => True
  | db, step :: steps => ∃ db' note, importStep flags db step = some (db', note) ∧ size db' = size db + 1 ∧
      EachGrows flags size db' steps

/-- If a run ends with a row for each of its steps, every step added one: it cannot end with more. -/
theorem eachGrows_of_size {size : Db → Nat} {steps : List Step}
    (hle : ∀ db db' note, ∀ step ∈ steps, importStep flags db step = some (db', note) → size db' ≤ size db + 1)
    (hrun : runSteps flags db steps = some db') :
    size db' ≤ size db + steps.length ∧ (size db' = size db + steps.length → EachGrows flags size db steps) := by
  induction steps generalizing db with
  | nil =>
    rw [runSteps_nil, Option.some_inj] at hrun
    exact ⟨(congrArg size hrun).ge, fun _ => trivial⟩
  | cons step steps ih =>
    rw [runSteps_cons, Option.bind_eq_some_iff] at hrun
    obtain ⟨⟨db₁, note⟩, hone, hrest⟩ := hrun
    have h1 := hle _ _ _ _ List.mem_cons_self hone
    obtain ⟨h2, hgrows⟩ := ih (fun db db' note s hs => hle db db' note s (List.mem_cons_of_mem step hs)) hrest
    simp only [List.length_cons] at h2 hgrows ⊢
    exact ⟨by omega, fun hsize => ⟨db₁, note, hone, by omega, hgrows (by omega)⟩⟩

/-! ### What a step changes -/

/-- A tag step ignores the item, creates a tag or overwrites the one of that name. -/
theorem importTag_cases {item : TagItem} (h : importTag db item = some (db', note)) :
    db' = db ∨ ∃ name color, textArg item.name = some name ∧ strip name ≠ [] ∧
      orDefault item.color defaultColor = some color ∧
      ((db.tags.find? (·.name = strip name) = none ∧ db' = { db with tags := db.tags ++
          [⟨freshId Tag.id db.tags, strip name, color, (networkLinks item.unifiNetworks).getD []⟩] }) ∨
        ∃ tag, db.tags.find? (·.name = strip name) = some tag ∧
          db' = { db with
            tags := replaceRow Tag.id { tag with
              color := color, networks := (networkLinks item.unifiNetworks).getD tag.networks } db.tags }) := by
  simp only [importTag, Option.bind_eq_bind, Option.bind_eq_some_iff, Option.pure_def] at h
  obtain ⟨name, hname, h⟩ := h
  split at h
  · exact Or.inl (by simp_all)
  · rename_i hne
    simp only [Option.bind_eq_some_iff] at h
    obtain ⟨color, hcolor, h⟩ := h
    refine Or.inr ⟨name, color, hname, hne, hcolor, ?_⟩
    split at h
    · split at h
      · exact Or.inl ⟨‹_›, (congrArg Prod.fst (Option.some.inj h)).symm⟩
      · exact Or.inr ⟨_, ‹_›, (congrArg Prod.fst (Option.some.inj h)).symm⟩
    · cases h

/-- A host step leaves the hosts alone, creates one, or, with the opt-in, overwrites the first one of that name. -/
theorem importHost_cases {item : HostItem} (h : importHost flags db item = some (db', note)) :
    (db' = db ∧ ∃ name hostname, textArg item.name = some name ∧ textArg item.hostname = some hostname ∧
        ((strip name = [] ∨ strip hostname = []) ∨
          ∃ host, db.hosts.find? (·.name = strip name) = some host ∧ flags.importHosts = false)) ∨
      ∃ name hostname, textArg item.name = some name ∧ textArg item.hostname = some hostname ∧
      strip name ≠ [] ∧ strip hostname ≠ [] ∧
      ((db.hosts.find? (·.name = strip name) = none ∧ ∃ fields,
          assign HostField.kind (fun _ => .null) item.fields = some fields ∧
          db' = { db with hosts := db.hosts ++ [newHost (freshId Host.id db.hosts) name hostname fields] }) ∨
        ∃ host fields, db.hosts.find? (·.name = strip name) = some host ∧ flags.importHosts = true ∧
          assign HostField.kind host.fields item.fields = some fields ∧
          db' = { db with hosts := replaceRow Host.id (repointHost host name hostname fields) db.hosts }) := by
  simp only [importHost, Option.bind_eq_bind, Option.bind_eq_some_iff, Option.pure_def] at h
  obtain ⟨name, hname, hostname, hhostname, h⟩ := h
  split at h
  · rename_i hempty
    exact Or.inl ⟨(congrArg Prod.fst (Option.some.inj h)).symm, name, hostname, hname, hhostname, Or.inl hempty⟩
  · rename_i hne
    rw [not_or] at hne
    split at h
    · rename_i hfind
      obtain ⟨fields, hfields, h⟩ := Option.bind_eq_some_iff.1 h
      exact Or.inr ⟨name, hostname, hname, hhostname, hne.1, hne.2, Or.inl ⟨hfind, fields, hfields,
        (congrArg Prod.fst (Option.some.inj h)).symm⟩⟩
    · rename_i host hfind
      cases hflag : flags.importHosts with
      | false =>
        simp only [hflag] at h
        exact Or.inl ⟨(congrArg Prod.fst (Option.some.inj h)).symm, name, hostname, hname, hhostname,
          Or.inr ⟨host, hfind, rfl⟩⟩
      | true =>
        simp only [hflag] at h
        obtain ⟨fields, hfields, h⟩ := Option.bind_eq_some_iff.1 h
        exact Or.inr ⟨name, hostname, hname, hhostname, hne.1, hne.2, Or.inr ⟨host, fields, hfind, rfl, hfields,
          (congrArg Prod.fst (Option.some.inj h)).symm⟩⟩

theorem findGuest_mem {host : Option Host} {vmid : Scalar} {name guestType : Text} {g : Guest}
    (h : findGuest db host vmid name guestType = some g) : g ∈ db.guests := by
  unfold findGuest at h
  rcases Option.or_eq_some_iff.1 h with h | ⟨-, h⟩
  · split at h
    · split at h
      · cases h
      · exact List.mem_of_find?_eq_some h
    · cases h
  · exact List.mem_of_find?_eq_some h

/-- A guest step ignores the item, creates a guest or overwrites the one the look-up finds. -/
theorem importGuest_cases {item : GuestItem} (h : importGuest flags db item = some (db', note)) :
    (db' = db ∧ ∃ name guestType, textArg item.name = some name ∧ textArg item.guestType = some guestType ∧
        (strip name = [] ∨ strip guestType ∉ guestTypes)) ∨
      ∃ name guestType host vmid fields, textArg item.name = some name ∧
      textArg item.guestType = some guestType ∧ strip name ≠ [] ∧ strip guestType ∈ guestTypes ∧
      hostNamed db item.hostName = some host ∧ store .integer (got (item.fields .vmid)) = some vmid ∧
      ((findGuest db host vmid (strip name) (strip guestType) = none ∧
          assign GuestField.kind (fun _ => .null) (writtenFields flags true item) = some fields ∧
          vmidFree db (newGuest db (strip name) (strip guestType) host item fields) = true ∧
          db' = { db with guests := db.guests ++ [newGuest db (strip name) (strip guestType) host item fields] }) ∨
        ∃ old, findGuest db host vmid (strip name) (strip guestType) = some old ∧
          assign GuestField.kind old.fields (writtenFields flags false item) = some fields ∧
          db' = { db with
            guests := replaceRow Guest.id
              (updateGuest flags db old (strip name) (strip guestType) host item fields) db.guests }) := by
  simp only [importGuest, Option.bind_eq_bind, Option.bind_eq_some_iff, Option.pure_def] at h
  obtain ⟨name, hname, guestType, htype, h⟩ := h
  split at h
  · rename_i hinvalid
    exact Or.inl ⟨(congrArg Prod.fst (Option.some.inj h)).symm, name, guestType, hname, htype, hinvalid⟩
  · rename_i hne
    rw [not_or, not_not] at hne
    simp only [Option.bind_eq_some_iff] at h
    obtain ⟨host, hhost, vmid, hvmid, h⟩ := h
    split at h
    · rename_i hfind
      obtain ⟨fields, hfields, h⟩ := Option.bind_eq_some_iff.1 h
      split at h
      · exact Or.inr ⟨name, guestType, host, vmid, fields, hname, htype, hne.1, hne.2, hhost, hvmid,
          Or.inl ⟨hfind, hfields, ‹_›, (congrArg Prod.fst (Option.some.inj h)).symm⟩⟩
      · cases h
    · rename_i old hfind
      obtain ⟨fields, hfields, h⟩ := Option.bind_eq_some_iff.1 h
      split at h
      · exact Or.inr ⟨name, guestType, host, vmid, fields, hname, htype, hne.1, hne.2, hhost, hvmid,
          Or.inr ⟨old, hfind, hfields, (congrArg Prod.fst (Option.some.inj h)).symm⟩⟩
      · cases h

theorem importRole_frame {item : RoleItem} (h : importRole db item = some (db', note)) :
    db' = { db with roles := db'.roles } := by
  simp only [importRole, Option.bind_eq_bind, Option.bind_eq_some_iff, Option.pure_def] at h
  obtain ⟨name, -, h⟩ := h
  split at h
  · cases h; rfl
  · split at h
    · split at h
      · cases h; rfl
      · obtain ⟨role, -, h⟩ := Option.bind_eq_some_iff.1 h
        cases h; rfl
    · split at h
      · cases h; rfl
      · obtain ⟨role, -, h⟩ := Option.bind_eq_some_iff.1 h
        cases h; rfl

private theorem clearSecrets_frame (keys : List String) (db : Db) :
    clearSecrets db keys = { db with settings := (clearSecrets db keys).settings } := by
  induction keys generalizing db with
  | nil => rfl
  | cons key keys ih =>
    rw [clearSecrets, List.foldl_cons]
    change clearSecrets _ keys = { db with settings := (clearSecrets _ keys).settings }
    rw [ih]
    split <;> rfl

theorem importSetting_frame (key : String) (value : Value) :
    (importSetting flags db key value).1 = { db with settings := (importSetting flags db key value).1.settings } := by
  unfold importSetting
  repeat' split
  all_goals first
    | rfl
    | (simp only [setSetting]; rw [clearSecrets_frame])

/-- The table that a step may write. -/
def Step.Frame (db db' : Db) : Step → Prop
  | .tag _ => db' = { db with tags := db'.tags }
  | .host _ => db' = { db with hosts := db'.hosts }
  | .guest _ => db' = { db with guests := db'.guests }
  | .role _ => db' = { db with roles := db'.roles }
  | .setting .. => db' = { db with settings := db'.settings }

theorem importStep_frame {step : Step} (h : importStep flags db step = some (db', note)) : step.Frame db db' := by
  cases step with
  | tag item =>
    rcases importTag_cases h with rfl | ⟨_, _, -, -, -, ⟨-, rfl⟩ | ⟨_, -, rfl⟩⟩ <;> rfl
  | host item =>
    rcases importHost_cases h with ⟨rfl, -⟩ | ⟨_, _, -, -, -, -, ⟨-, _, -, rfl⟩ | ⟨_, _, -, -, -, rfl⟩⟩ <;> rfl
  | guest item =>
    rcases importGuest_cases h with
      ⟨rfl, -⟩ | ⟨_, _, _, _, _, -, -, -, -, -, -, ⟨-, -, -, rfl⟩ | ⟨_, -, -, rfl⟩⟩ <;> rfl
  | role item => exact importRole_frame h
  | setting key value =>
    obtain rfl : (importSetting flags db key value).1 = db' := congrArg Prod.fst (Option.some.inj h)
    exact importSetting_frame key value

end ProxmoxTool.ConfigBackup
