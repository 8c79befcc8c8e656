import ProxmoxTool.ConfigBackup.Restore

/-!
# Roles of an import

What the steps of an import do to the role table.  A row keeps its place, its name and whether it is built in; a built-in row is not
touched at all, and a level is not raised above the operator level (`Updated`).  New rows come at the end, with names that are free
(`Imported`).  The relation is transitive, so a document is as good as one item.
-/

namespace ProxmoxTool.ConfigBackup

/-- What an import may make of a role. -/
structure Updated (role role' : Role) : Prop where
  name : role'.name = role.name
  builtin : role'.isBuiltin = role.isBuiltin
  kept : role.isBuiltin = true → role' = role
  level : role'.level ≤ max role.level maxImportedRoleLevel

/-- A role that an import has created. -/
structure Created (role : Role) : Prop where
  custom : role.isBuiltin = false
  level : role.level ≤ maxImportedRoleLevel

theorem Updated.refl (role : Role) : Updated role role := ⟨rfl, rfl, fun _ => rfl, le_max_left _ _⟩

theorem Updated.trans {a b c : Role} (h : Updated a b) (h' : Updated b c) : Updated a c := by
  refine ⟨h'.name.trans h.name, h'.builtin.trans h.builtin, fun hbuiltin => ?_, ?_⟩
  · have hb : b = a := h.kept hbuiltin
    rw [h'.kept (hb ▸ hbuiltin), hb]
  · have hab := h.level
    have hbc := h'.level
    omega

theorem Created.updated {a b : Role} (h : Created a) (h' : Updated a b) : Created b := by
  refine ⟨h'.builtin.trans h.custom, ?_⟩
  have ha := h.level
  have hb := h'.level
  omega

/-- What an import may make of a role table. -/
structure Imported (roles roles' : List Role) : Prop where
  length : roles.length ≤ roles'.length
  row : ∀ (i : Nat) r r', roles[i]? = some r → roles'[i]? = some r' → Updated r r'
  created : ∀ (i : Nat) r', roles[i]? = none → roles'[i]? = some r' → Created r'

theorem Imported.refl (roles : List Role) : Imported roles roles := by
  refine ⟨le_rfl, fun i r r' hr hr' => ?_, fun i r' hr hr' => ?_⟩
  · rw [hr, Option.some_inj] at hr'
    exact hr' ▸ Updated.refl r
  · rw [hr] at hr'
    cases hr'

theorem Imported.trans {a b c : List Role} (h : Imported a b) (h' : Imported b c) : Imported a c := by
  refine ⟨h.length.trans h'.length, fun i r r'' hr hr'' => ?_, fun i r'' hr hr'' => ?_⟩
  · have hlt : i < b.length := Nat.lt_of_lt_of_le (List.getElem?_eq_some_iff.1 hr).1 h.length
    have hb : b[i]? = some b[i] := List.getElem?_eq_getElem hlt
    exact (h.row i r _ hr hb).trans (h'.row i _ r'' hb hr'')
  · cases hb : b[i]? with
    | none => exact h'.created i r'' hb hr''
    | some r' => exact (h.created i r' hr hb).updated (h'.row i r' r'' hb hr'')

theorem Imported.map {roles : List Role} {f : Role → Role} (h : ∀ r ∈ roles, Updated r (f r)) : Imported roles (roles.map f) := by
  refine ⟨by rw [List.length_map], fun i r r' hr hr' => ?_, fun i r' hr hr' => ?_⟩
  · rw [List.getElem?_map, hr, Option.map_some, Option.some_inj] at hr'
    exact hr' ▸ h r (List.mem_of_getElem? hr)
  · rw [List.getElem?_map, hr] at hr'
    cases hr'

theorem Imported.append {roles : List Role} {role : Role} (h : Created role) : Imported roles (roles ++ [role]) := by
  refine ⟨by simp, fun i r r' hr hr' => ?_, fun i r' hr hr' => ?_⟩
  · rw [List.getElem?_append_left (List.getElem?_eq_some_iff.1 hr).1, hr, Option.some_inj] at hr'
    exact hr' ▸ Updated.refl r
  · have hle : roles.length ≤ i := List.getElem?_eq_none_iff.1 hr
    rw [List.getElem?_append_right hle] at hr'
    have hmem : r' ∈ [role] := List.mem_of_getElem? hr'
    rw [List.mem_singleton] at hmem
    exact hmem ▸ h

/-! ### One item -/

/-- The base tier of an item is one, and above a level. -/
def tierAbove (item : RoleItem) (level : Int) : Option Bool :=
  if (got item.baseTier).truthy then (tierLevel (got item.baseTier)).map fun l => decide (level < l) else some false

theorem newRole_ok {name : Text} {item : RoleItem} {role : Role} (h : newRole name item = some role) :
    ∃ tooHigh displayName baseTier, orDefault item.displayName (.str name) = some displayName ∧
      tierAbove item (min (wantedLevel item.level) maxImportedRoleLevel) = some tooHigh ∧
      (if tooHigh then some .null else store .text (got item.baseTier)) = some baseTier ∧
      role = ⟨name, displayName, min (wantedLevel item.level) maxImportedRoleLevel, false, baseTier,
        importedPermissions (fun _ => false) item⟩ := by
  have heq : newRole name item = (tierAbove item (min (wantedLevel item.level) maxImportedRoleLevel)).bind fun tooHigh =>
      (if tooHigh then some .null else store .text (got item.baseTier)).bind fun baseTier =>
        (orDefault item.displayName (.str name)).bind fun displayName =>
          if bindable (min (wantedLevel item.level) maxImportedRoleLevel) then
            some ⟨name, displayName, min (wantedLevel item.level) maxImportedRoleLevel, false, baseTier,
              importedPermissions (fun _ => false) item⟩
          else none := by
    simp only [newRole, tierAbove, Option.bind_eq_bind]
    cases (got item.baseTier).truthy with
    | false => rfl
    | true =>
      cases tierLevel (got item.baseTier) with
      | none => rfl
      | some l =>
        simp only [Option.map_some, Option.bind_some, if_true]
        split
        · rfl
        · rfl
  rw [heq, Option.bind_eq_some_iff] at h
  obtain ⟨tooHigh, htoo, h⟩ := h
  obtain ⟨baseTier, hbase, h⟩ := Option.bind_eq_some_iff.1 h
  obtain ⟨displayName, hdisplay, h⟩ := Option.bind_eq_some_iff.1 h
  rw [Option.ite_none_right_eq_some] at h
  exact ⟨tooHigh, displayName, baseTier, hdisplay, htoo, hbase, (Option.some.inj h.2).symm⟩

theorem newRole_created {name : Text} {item : RoleItem} {role : Role} (h : newRole name item = some role) :
    Created role ∧ role.name = name := by
  obtain ⟨tooHigh, displayName, baseTier, -, -, -, rfl⟩ := newRole_ok h
  exact ⟨⟨rfl, min_le_right _ _⟩, rfl⟩

theorem cappedLevel_le (role : Role) (item : RoleItem) : cappedLevel role item ≤ max role.level maxImportedRoleLevel :=
  min_le_right _ _

/-- The base tier of an item is one, and not above the level its role may have. -/
def takesTier (role : Role) (item : RoleItem) : Option Bool :=
  if (got item.baseTier).truthy then (tierLevel (got item.baseTier)).map fun l => decide (l ≤ cappedLevel role item)
  else some false

theorem updateRole_ok {role role' : Role} {item : RoleItem} (h : updateRole role item = some role') :
    ∃ takes displayName baseTier, orDefault item.displayName role.displayName = some displayName ∧ takesTier role item = some takes ∧
      (if takes then store .text (got item.baseTier) else some role.baseTier) = some baseTier ∧
      role' = ⟨role.name, displayName, if item.level.isSome then cappedLevel role item else role.level, role.isBuiltin, baseTier,
        importedPermissions role.permissions item⟩ := by
  have heq : updateRole role item = (orDefault item.displayName role.displayName).bind fun displayName =>
      (takesTier role item).bind fun takes =>
        (if takes then store .text (got item.baseTier) else some role.baseTier).bind fun baseTier =>
          if bindable (cappedLevel role item) then
            some ⟨role.name, displayName, if item.level.isSome then cappedLevel role item else role.level, role.isBuiltin,
              baseTier, importedPermissions role.permissions item⟩
          else none := by
    simp only [updateRole, takesTier, Option.bind_eq_bind]
    refine congrArg _ (funext fun displayName => ?_)
    cases (got item.baseTier).truthy with
    | false => rfl
    | true =>
      cases tierLevel (got item.baseTier) with
      | none => rfl
      | some l =>
        simp only [Option.map_some, Option.bind_some, if_true]
        split
        · rfl
        · rfl
  rw [heq, Option.bind_eq_some_iff] at h
  obtain ⟨displayName, hdisplay, h⟩ := h
  obtain ⟨takes, htakes, h⟩ := Option.bind_eq_some_iff.1 h
  obtain ⟨baseTier, hbase, h⟩ := Option.bind_eq_some_iff.1 h
  rw [Option.ite_none_right_eq_some] at h
  exact ⟨takes, displayName, baseTier, hdisplay, htakes, hbase, (Option.some.inj h.2).symm⟩

theorem updateRole_updated {role role' : Role} {item : RoleItem} (hcustom : role.isBuiltin = false)
    (h : updateRole role item = some role') : Updated role role' := by
  obtain ⟨takes, displayName, baseTier, -, -, -, rfl⟩ := updateRole_ok h
  refine ⟨rfl, rfl, fun hbuiltin => ?_, ?_⟩
  · rw [hcustom] at hbuiltin
    cases hbuiltin
  · dsimp only
    split
    · exact cappedLevel_le role item
    · exact le_max_left _ _

variable {flags : Flags} {db db' : Db} {note : Note}

/-- What an item of a role does: nothing, a new row, or a change of the custom role of that name. -/
theorem importRole_cases {item : RoleItem} (h : importRole db item = some (db', note)) :
    ∃ name, (textArg item.name).map strip = some name ∧
      (db' = db ∧ (name = [] ∨ (db.roles.find? (·.name = name) = none ∧ (got item.isBuiltin).truthy = true) ∨
          ∃ role, db.roles.find? (·.name = name) = some role ∧ role.isBuiltin = true) ∨
        name ≠ [] ∧ db.roles.find? (·.name = name) = none ∧ (got item.isBuiltin).truthy = false ∧
          (∃ role, newRole name item = some role ∧ db' = { db with roles := db.roles ++ [role] }) ∨
        name ≠ [] ∧ ∃ role role', db.roles.find? (·.name = name) = some role ∧ role.isBuiltin = false ∧
          updateRole role item = some role' ∧
          db' = { db with roles := db.roles.map fun r => if r.name = role.name then role' else r }) := by
  simp only [importRole, Option.bind_eq_bind, Option.bind_eq_some_iff, Option.pure_def] at h
  obtain ⟨raw, hraw, h⟩ := h
  refine ⟨strip raw, by rw [hraw]; rfl, ?_⟩
  split at h
  · rename_i hempty
    cases h
    exact .inl ⟨rfl, .inl hempty⟩
  · rename_i hne
    split at h
    · rename_i hfind
      split at h
      · rename_i hbuiltin
        cases h
        exact .inl ⟨rfl, .inr (.inl ⟨hfind, hbuiltin⟩)⟩
      · rename_i hbuiltin
        obtain ⟨role, hrole, h⟩ := Option.bind_eq_some_iff.1 h
        cases h
        exact .inr (.inl ⟨hne, hfind, by simpa using hbuiltin, role, hrole, rfl⟩)
    · rename_i role hfind
      split at h
      · rename_i hbuiltin
        cases h
        exact .inl ⟨rfl, .inr (.inr ⟨role, hfind, hbuiltin⟩)⟩
      · rename_i hbuiltin
        obtain ⟨role', hrole', h⟩ := Option.bind_eq_some_iff.1 h
        cases h
        exact .inr (.inr ⟨hne, role, role', hfind, by simpa using hbuiltin, hrole', rfl⟩)

/-- The names of the roles are distinct (`unique=True`). -/
def RoleNames (roles : List Role) : Prop := (roles.map Role.name).Nodup

theorem importRole_imported {item : RoleItem} (hnames : RoleNames db.roles) (h : importRole db item = some (db', note)) :
    Imported db.roles db'.roles ∧ RoleNames db'.roles := by
  obtain ⟨name, -, ⟨rfl, -⟩ | ⟨-, hfind, -, role, hrole, rfl⟩ | ⟨-, role, role', hfind, hcustom, hrole', rfl⟩⟩ :=
    importRole_cases h
  · exact ⟨Imported.refl _, hnames⟩
  · obtain ⟨hcreated, hname⟩ := newRole_created hrole
    refine ⟨Imported.append hcreated, nodup_append_of_not_mem Role.name hnames fun hmem => ?_⟩
    obtain ⟨r, hr, heq⟩ := List.mem_map.1 hmem
    have hnone := List.find?_eq_none.1 hfind r hr
    rw [decide_eq_true_eq] at hnone
    exact hnone (heq.trans hname)
  · have hrow : role ∈ db.roles := List.mem_of_find?_eq_some hfind
    have hupdated := updateRole_updated hcustom hrole'
    have hmap : ∀ r ∈ db.roles, Updated r (if r.name = role.name then role' else r) := by
      intro r hr
      split
      · rename_i heq
        obtain rfl := eq_of_id_eq Role.name hnames hr hrow heq
        exact hupdated
      · exact Updated.refl r
    refine ⟨Imported.map hmap, ?_⟩
    have hsame : (db.roles.map fun r => if r.name = role.name then role' else r).map Role.name = db.roles.map Role.name := by
      rw [List.map_map]
      exact List.map_congr_left fun r hr => (hmap r hr).name
    unfold RoleNames
    rw [hsame]
    exact hnames

/-! ### A document -/

theorem runSteps_imported {steps : List Step} (hnames : RoleNames db.roles) (h : runSteps flags db steps = some db') :
    Imported db.roles db'.roles ∧ RoleNames db'.roles := by
  refine runSteps_invariant (P := fun d => Imported db.roles d.roles ∧ RoleNames d.roles) ?_ ⟨Imported.refl _, hnames⟩ h
  rintro d d' note step - ⟨himported, hnames⟩ hstep
  cases step with
  | role item =>
    obtain ⟨hone, hnames'⟩ := importRole_imported hnames hstep
    exact ⟨himported.trans hone, hnames'⟩
  | _ =>
    have hroles : d'.roles = d.roles := by
      have hframe := importStep_frame hstep
      unfold Step.Frame at hframe
      rw [hframe]
    rw [hroles]
    exact ⟨himported, hnames⟩

theorem applyImport_ok {upload : Option Upload} {summary : Summary} (h : applyImport flags db upload = .ok (db', summary)) :
    ∃ doc, validateDocument upload = .ok doc ∧ runSteps flags db (doc.steps flags) = some db' := by
  unfold applyImport at h
  split at h
  · cases h
  · rename_i doc hdoc
    split at h
    · cases h
    · rename_i notes hrun
      cases h
      exact ⟨doc, hdoc, by rw [runSteps, hrun]; rfl⟩

end ProxmoxTool.ConfigBackup
