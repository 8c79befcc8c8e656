import ProxmoxTool.Auth.Users
import ProxmoxTool.ConfigBackup.RoleImport

/-!
# User and role management

The model of the role management in `routes/security.py` and of the import in `routes/settings.py`, beside that of the users.  The
operations on roles are functions on the rows; a `RoleStore` is a table of rows as all of them leave it (`Valid`), and is what the
properties of users go by.

`superAdmin_remains` is the lockout protection.  Only an active user acts.  A `super_admin` keeps its own role and active flag
whatever it does, an actor of another role reaches users under its level only, and no operation writes the `super_admin` row.
-/

namespace ProxmoxTool.Roles

open Users (User superAdmin baseTierLevel)
open ConfigBackup (Permission Flags Upload Imported Updated Created RoleNames maxImportedRoleLevel)

structure RoleRow extends ConfigBackup.Role where
  id : Nat

/-- What the writers of the role table keep. -/
structure Valid (rows : List RoleRow) : Prop where
  ids : (rows.map RoleRow.id).Nodup
  names : (rows.map fun row => row.name).Nodup
  seeded : ∃ row ∈ rows, row.name = superAdmin ∧ row.level = 4 ∧ row.isBuiltin = true
  bound : ∀ row ∈ rows, row.level ≤ 4

structure RoleStore where
  rows : List RoleRow
  valid : Valid rows

/-- A row as the properties of `User` read it. -/
def RoleRow.role (row : RoleRow) : Users.Role :=
  ⟨row.id, row.name, row.level, row.isBuiltin, row.permissions .manageUsers, row.permissions .manageGuests,
    row.permissions .viewGuests⟩

theorem Valid.eq_of_name {rows : List RoleRow} (h : Valid rows) {row row' : RoleRow} (hrow : row ∈ rows) (hrow' : row' ∈ rows)
    (hname : row.name = row'.name) : row = row' :=
  eq_of_id_eq (fun r : RoleRow => r.name) h.names hrow hrow' hname

/-- The `super_admin` row is built in, at level 4. -/
theorem Valid.of_superAdmin {rows : List RoleRow} (h : Valid rows) {row : RoleRow} (hrow : row ∈ rows)
    (hname : row.name = superAdmin) : row.level = 4 ∧ row.isBuiltin = true := by
  obtain ⟨top, htop, htopname, hlevel, hbuiltin⟩ := h.seeded
  obtain rfl := h.eq_of_name hrow htop (hname.trans htopname.symm)
  exact ⟨hlevel, hbuiltin⟩

def RoleStore.table (roles : RoleStore) : Users.RoleTable where
  rows := roles.rows.map RoleRow.role
  ids := by
    rw [List.map_map]
    exact roles.valid.ids
  seeded := by
    obtain ⟨row, hrow, hname, -⟩ := roles.valid.seeded
    exact ⟨row.role, List.mem_map_of_mem hrow, hname⟩
  top := by
    intro role hrole hname
    obtain ⟨row, hrow, rfl⟩ := List.mem_map.1 hrole
    exact (roles.valid.of_superAdmin hrow hname).1
  bound := by
    intro role hrole
    obtain ⟨row, hrow, rfl⟩ := List.mem_map.1 hrole
    exact roles.valid.bound row hrow

/-! ### The requests -/

/-- The form of a role; a field that is missing has the default of its route. -/
structure RoleForm where
  name : Text
  displayName : Text
  baseTier : Option Text
  permissions : Permission → Bool

section

-- `str.lower`
variable (lower : Text → Text)

/-- The name of a new role. -/
def RoleForm.roleName (form : RoleForm) : Text := (lower (strip form.name)).map fun c => if c = ' ' then '_' else c

/-- `add_role`. -/
def addRole (form : RoleForm) (rows : List RoleRow) : Except Text (List RoleRow) :=
  let name := form.roleName lower
  let displayName := strip form.displayName
  let baseTier := form.baseTier.getD "viewer".toList
  if name = [] ∨ displayName = [] then .error "Role name and display name are required.".toList
  else if rows.any fun row => decide (row.name = name) then
    .error ("Role '".toList ++ name ++ "' already exists.".toList)
  else .ok (rows ++ [{
    id := freshId RoleRow.id rows, name := name, displayName := .str displayName
    level := (baseTierLevel baseTier).getD 1, isBuiltin := false, baseTier := .str baseTier, permissions := form.permissions }])

end

/-- The row `edit_role` leaves: only a custom role gets another display name and base tier. -/
def RoleRow.edited (row : RoleRow) (form : RoleForm) : RoleRow :=
  let displayName := strip form.displayName
  let tier := form.baseTier.getD []
  if row.isBuiltin then { row with permissions := form.permissions }
  else { row with
    displayName := if displayName = [] then row.displayName else .str displayName
    baseTier := if (baseTierLevel tier).isSome then .str tier else row.baseTier
    level := (baseTierLevel tier).getD row.level
    permissions := form.permissions }

/-- `edit_role`. -/
def editRole (roleId : Nat) (form : RoleForm) (rows : List RoleRow) : Except Text (List RoleRow) :=
  match rows.find? fun row => decide (row.id = roleId) with
  | none => .error "Not found".toList
  | some role =>
    if role.name = superAdmin then .error "The Super Admin role cannot be edited.".toList
    else .ok (rows.map fun row => if row.id = roleId then role.edited form else row)

/-- A display name in a message. -/
def shownName : ConfigBackup.Scalar → Text
  | .null => "None".toList
  | .bool b => if b then "True".toList else "False".toList
  | .int i => intText i
  | .frac shown => shown
  | .str s => s

/-- `delete_role`. -/
def deleteRole (roleId : Nat) (users : List User) (rows : List RoleRow) : Except Text (List RoleRow) :=
  match rows.find? fun row => decide (row.id = roleId) with
  | none => .error "Not found".toList
  | some role =>
    let assigned := users.countP fun u => decide (u.roleId = roleId)
    if role.isBuiltin then .error "Built-in roles cannot be deleted.".toList
    else if assigned ≠ 0 then
      .error ("Cannot delete role '".toList ++ shownName role.displayName ++ "' — ".toList ++ natText assigned ++
        " user(s) are assigned to it. Reassign them first.".toList)
    else .ok (rows.filter fun row => !decide (row.id = roleId))

/-- The rows after an import: those there were keep their keys, and the new ones get the next. -/
def renumber (rows : List RoleRow) (roles : List ConfigBackup.Role) : List RoleRow :=
  (roles.drop rows.length).foldl (fun rows role => rows ++ [⟨role, freshId RoleRow.id rows⟩])
    (List.zipWith (fun row role => ⟨role, row.id⟩) rows roles)

/-! ### What the operations keep -/

variable {rows rows' : List RoleRow}

/-- The `super_admin` row is still there, as it was. -/
def KeepsSuperAdmin (rows rows' : List RoleRow) : Prop := ∀ row ∈ rows, row.name = superAdmin → row ∈ rows'

theorem addRole_ok {lower : Text → Text} {form : RoleForm} (h : addRole lower form rows = .ok rows') :
    ∃ row, row.id = freshId RoleRow.id rows ∧ (∀ r ∈ rows, r.name ≠ row.name) ∧ row.level ≤ 3 ∧ row.isBuiltin = false ∧
      rows' = rows ++ [row] := by
  unfold addRole at h
  dsimp only at h
  split at h
  · cases h
  · split at h
    · cases h
    · rename_i hfree
      cases h
      refine ⟨_, rfl, fun r hr heq => hfree ?_, Users.baseTierLevel_le _, rfl, rfl⟩
      exact List.any_eq_true.2 ⟨r, hr, by simpa using heq⟩

theorem addRole_valid {lower : Text → Text} {form : RoleForm} (hvalid : Valid rows) (h : addRole lower form rows = .ok rows') :
    Valid rows' ∧ KeepsSuperAdmin rows rows' := by
  obtain ⟨row, hid, hfree, hlevel, hcustom, rfl⟩ := addRole_ok h
  refine ⟨⟨nodup_append_fresh RoleRow.id hvalid.ids hid, ?_, ?_, fun r hr => ?_⟩, fun r hr _ => List.mem_append_left _ hr⟩
  · refine nodup_append_of_not_mem (fun r : RoleRow => r.name) hvalid.names fun hmem => ?_
    obtain ⟨r, hr, heq⟩ := List.mem_map.1 hmem
    exact hfree r hr heq
  · obtain ⟨top, htop, hrest⟩ := hvalid.seeded
    exact ⟨top, List.mem_append_left _ htop, hrest⟩
  · rcases List.mem_append.1 hr with hr | hr
    · exact hvalid.bound r hr
    · obtain rfl := List.mem_singleton.1 hr
      omega

theorem edited_facts (row : RoleRow) (form : RoleForm) : (row.edited form).id = row.id ∧ (row.edited form).name = row.name ∧
    (row.edited form).isBuiltin = row.isBuiltin := by
  unfold RoleRow.edited
  dsimp only
  split
  · exact ⟨rfl, rfl, rfl⟩
  · exact ⟨rfl, rfl, rfl⟩

theorem edited_level_le {row : RoleRow} (h : row.level ≤ 4) (form : RoleForm) : (row.edited form).level ≤ 4 := by
  unfold RoleRow.edited
  dsimp only
  split
  · exact h
  · have htier := Users.baseTierLevel_le (form.baseTier.getD [])
    cases hlevel : baseTierLevel (form.baseTier.getD []) with
    | none => exact h
    | some level =>
      rw [hlevel, Option.getD_some] at htier
      dsimp only [Option.getD_some]
      omega

theorem editRole_ok {roleId : Nat} {form : RoleForm} (h : editRole roleId form rows = .ok rows') :
    ∃ role ∈ rows, role.id = roleId ∧ role.name ≠ superAdmin ∧
      rows' = rows.map fun row => if row.id = roleId then role.edited form else row := by
  unfold editRole at h
  split at h
  · cases h
  · rename_i role hfind
    split at h
    · cases h
    · rename_i hname
      cases h
      exact ⟨role, List.mem_of_find?_eq_some hfind, by simpa using List.find?_some hfind, hname, rfl⟩

/-- Rewriting rows one by one, with keys and names as they are and the `super_admin` row left alone. -/
theorem Valid.map (hvalid : Valid rows) {f : RoleRow → RoleRow} (hid : ∀ row ∈ rows, (f row).id = row.id)
    (hname : ∀ row ∈ rows, (f row).name = row.name) (hlevel : ∀ row ∈ rows, (f row).level ≤ 4)
    (hkept : ∀ row ∈ rows, row.name = superAdmin → f row = row) :
    Valid (rows.map f) ∧ KeepsSuperAdmin rows (rows.map f) := by
  have hmem : KeepsSuperAdmin rows (rows.map f) := by
    intro row hrow hsuper
    exact List.mem_map.2 ⟨row, hrow, hkept row hrow hsuper⟩
  refine ⟨⟨?_, ?_, ?_, fun row' hrow' => ?_⟩, hmem⟩
  · rw [List.map_map, List.map_congr_left (f := RoleRow.id ∘ f) (g := RoleRow.id) hid]
    exact hvalid.ids
  · rw [List.map_map, List.map_congr_left (f := (fun row : RoleRow => row.name) ∘ f) (g := fun row : RoleRow => row.name) hname]
    exact hvalid.names
  · obtain ⟨top, htop, hsuper, hrest⟩ := hvalid.seeded
    exact ⟨top, hmem top htop hsuper, hsuper, hrest⟩
  · obtain ⟨row, hrow, rfl⟩ := List.mem_map.1 hrow'
    exact hlevel row hrow

theorem editRole_valid {roleId : Nat} {form : RoleForm} (hvalid : Valid rows) (h : editRole roleId form rows = .ok rows') :
    Valid rows' ∧ KeepsSuperAdmin rows rows' := by
  obtain ⟨role, hrole, rfl, hother, rfl⟩ := editRole_ok h
  obtain ⟨hid, hname, -⟩ := edited_facts role form
  have heq : ∀ row ∈ rows, row.id = role.id → row = role := by
    intro row hrow hsame
    exact eq_of_id_eq RoleRow.id hvalid.ids hrow hrole hsame
  refine hvalid.map (fun row hrow => ?_) (fun row hrow => ?_) (fun row hrow => ?_) fun row hrow hsuper => ?_
  · split
    · rename_i hsame
      rw [hid, hsame]
    · rfl
  · split
    · rename_i hsame
      rw [hname, heq row hrow hsame]
    · rfl
  · split
    · exact edited_level_le (hvalid.bound role hrole) form
    · exact hvalid.bound row hrow
  · refine if_neg fun hsame => ?_
    rw [heq row hrow hsame] at hsuper
    exact hother hsuper

theorem deleteRole_ok {roleId : Nat} {users : List User} (h : deleteRole roleId users rows = .ok rows') :
    ∃ role ∈ rows, role.id = roleId ∧ role.isBuiltin = false ∧ (∀ u ∈ users, u.roleId ≠ roleId) ∧
      rows' = rows.filter fun row => !decide (row.id = roleId) := by
  unfold deleteRole at h
  split at h
  · cases h
  · rename_i role hfind
    dsimp only at h
    split at h
    · cases h
    · rename_i hcustom
      split at h
      · cases h
      · rename_i hnone
        rw [not_not, List.countP_eq_zero] at hnone
        cases h
        exact ⟨role, List.mem_of_find?_eq_some hfind, by simpa using List.find?_some hfind, by simpa using hcustom,
          by simpa using hnone, rfl⟩

theorem deleteRole_valid {roleId : Nat} {users : List User} (hvalid : Valid rows)
    (h : deleteRole roleId users rows = .ok rows') : Valid rows' ∧ KeepsSuperAdmin rows rows' := by
  obtain ⟨role, hrole, rfl, hcustom, -, rfl⟩ := deleteRole_ok h
  have hkeep : KeepsSuperAdmin rows (rows.filter fun row => !decide (row.id = role.id)) := by
    intro row hrow hsuper
    refine List.mem_filter.2 ⟨hrow, ?_⟩
    have hne : row.id ≠ role.id := by
      intro heq
      obtain rfl := eq_of_id_eq RoleRow.id hvalid.ids hrow hrole heq
      rw [(hvalid.of_superAdmin hrow hsuper).2] at hcustom
      cases hcustom
    simpa using hne
  refine ⟨⟨?_, ?_, ?_, fun row hrow => hvalid.bound row (List.mem_filter.1 hrow).1⟩, hkeep⟩
  · exact hvalid.ids.sublist (List.filter_sublist.map RoleRow.id)
  · exact hvalid.names.sublist (List.filter_sublist.map fun row : RoleRow => row.name)
  · obtain ⟨top, htop, hsuper, hrest⟩ := hvalid.seeded
    exact ⟨top, hkeep top htop hsuper, hsuper, hrest⟩

/-! ### Imports -/

/-- New rows get keys above the others. -/
theorem foldl_append_fresh (roles : List ConfigBackup.Role) (rows : List RoleRow) :
    ∃ new, roles.foldl (fun rows role => rows ++ [⟨role, freshId RoleRow.id rows⟩]) rows = rows ++ new ∧
      new.map RoleRow.toRole = roles ∧ ((rows.map RoleRow.id).Nodup → ((rows ++ new).map RoleRow.id).Nodup) := by
  induction roles generalizing rows with
  | nil => exact ⟨[], by simp, rfl, by simp⟩
  | cons role roles ih =>
    obtain ⟨new, hfold, hnew, hids⟩ := ih (rows ++ [⟨role, freshId RoleRow.id rows⟩])
    refine ⟨⟨role, freshId RoleRow.id rows⟩ :: new, ?_, ?_, fun hrows => ?_⟩
    · rw [List.foldl_cons, hfold, List.append_assoc, List.singleton_append]
    · rw [List.map_cons, hnew]
    · have hone : ((rows ++ [(⟨role, freshId RoleRow.id rows⟩ : RoleRow)]).map RoleRow.id).Nodup :=
        nodup_append_fresh RoleRow.id hrows rfl
      have hall := hids hone
      rwa [List.append_assoc, List.singleton_append] at hall

theorem zipWith_ids {rows : List RoleRow} {roles : List ConfigBackup.Role} (h : rows.length ≤ roles.length) :
    (List.zipWith (fun row role => (⟨role, row.id⟩ : RoleRow)) rows roles).map RoleRow.id = rows.map RoleRow.id ∧
      (List.zipWith (fun row role => (⟨role, row.id⟩ : RoleRow)) rows roles).map RoleRow.toRole = roles.take rows.length := by
  induction rows generalizing roles with
  | nil => exact ⟨rfl, rfl⟩
  | cons row rows ih =>
    cases roles with
    | nil => cases h
    | cons role roles =>
      obtain ⟨hids, hroles⟩ := ih (Nat.le_of_succ_le_succ h)
      refine ⟨?_, ?_⟩
      · rw [List.zipWith_cons_cons, List.map_cons, hids, List.map_cons]
      · rw [List.zipWith_cons_cons, List.map_cons, hroles, List.length_cons, List.take_succ_cons]

theorem renumber_facts {roles : List ConfigBackup.Role} (h : rows.length ≤ roles.length) :
    (renumber rows roles).map RoleRow.toRole = roles ∧
      ((rows.map RoleRow.id).Nodup → ((renumber rows roles).map RoleRow.id).Nodup) ∧
      ∃ new, renumber rows roles = List.zipWith (fun row role => ⟨role, row.id⟩) rows roles ++ new := by
  obtain ⟨hids, hroles⟩ := zipWith_ids h
  obtain ⟨new, hfold, hnew, hnodup⟩ :=
    foldl_append_fresh (roles.drop rows.length) (List.zipWith (fun row role => ⟨role, row.id⟩) rows roles)
  refine ⟨?_, fun hrows => ?_, new, hfold⟩
  · rw [renumber, hfold, List.map_append, hroles, hnew, List.take_append_drop]
  · rw [renumber, hfold]
    exact hnodup (hids ▸ hrows)

/-- A built-in row is where it was. -/
theorem mem_renumber_of_builtin {roles : List ConfigBackup.Role} (h : Imported (rows.map RoleRow.toRole) roles) {row : RoleRow}
    (hrow : row ∈ rows) (hbuiltin : row.isBuiltin = true) : row ∈ renumber rows roles := by
  have hlength := h.length
  rw [List.length_map] at hlength
  obtain ⟨i, hi, rfl⟩ := List.getElem_of_mem hrow
  have hold : (rows.map RoleRow.toRole)[i]? = some rows[i].toRole := by
    rw [List.getElem?_map, List.getElem?_eq_getElem hi]
    rfl
  obtain ⟨role, hnew⟩ : ∃ role, roles[i]? = some role := ⟨_, List.getElem?_eq_getElem (Nat.lt_of_lt_of_le hi hlength)⟩
  have hkept := (h.row i _ _ hold hnew).kept hbuiltin
  obtain ⟨-, -, new, hrenumber⟩ := renumber_facts hlength
  rw [hrenumber]
  refine List.mem_append_left _ (List.mem_iff_getElem?.2 ⟨i, ?_⟩)
  rw [List.getElem?_zipWith, List.getElem?_eq_getElem hi, hnew, hkept]

/-- A row after an import is the row of its key, or a new one. -/
theorem mem_renumber_cases {roles : List ConfigBackup.Role} (hids : (rows.map RoleRow.id).Nodup)
    (h : Imported (rows.map RoleRow.toRole) roles) {row' : RoleRow} (hrow' : row' ∈ renumber rows roles) :
    (∃ row ∈ rows, row.id = row'.id ∧ Updated row.toRole row'.toRole) ∨
      row'.id ∉ rows.map RoleRow.id ∧ Created row'.toRole := by
  have hlength := h.length
  rw [List.length_map] at hlength
  obtain ⟨hzip, -⟩ := zipWith_ids hlength
  obtain ⟨new, hfold, hnew, hnodup⟩ :=
    foldl_append_fresh (roles.drop rows.length) (List.zipWith (fun row role => ⟨role, row.id⟩) rows roles)
  rw [renumber, hfold] at hrow'
  rcases List.mem_append.1 hrow' with hold | hin
  · obtain ⟨i, hi⟩ := List.mem_iff_getElem?.1 hold
    rw [List.getElem?_zipWith] at hi
    cases hrow : rows[i]? with
    | none =>
      rw [hrow] at hi
      cases hi
    | some row =>
      cases hrole : roles[i]? with
      | none =>
        rw [hrow, hrole] at hi
        cases hi
      | some role =>
        rw [hrow, hrole] at hi
        cases hi
        have hat : (rows.map RoleRow.toRole)[i]? = some row.toRole := by rw [List.getElem?_map, hrow, Option.map_some]
        exact .inl ⟨row, List.mem_of_getElem? hrow, rfl, h.row i _ _ hat hrole⟩
  · refine .inr ⟨fun hmem => ?_, ?_⟩
    · have hdisjoint := hnodup (hzip ▸ hids)
      rw [List.map_append, List.nodup_append, hzip] at hdisjoint
      exact hdisjoint.2.2 _ hmem _ (List.mem_map_of_mem hin) rfl
    · have hrole : row'.toRole ∈ roles.drop rows.length := hnew ▸ List.mem_map_of_mem hin
      obtain ⟨i, hi⟩ := List.mem_iff_getElem?.1 hrole
      rw [List.getElem?_drop] at hi
      exact h.created _ _ (by rw [List.getElem?_eq_none_iff, List.length_map]; omega) hi

theorem renumber_valid {roles : List ConfigBackup.Role} (hvalid : Valid rows) (h : Imported (rows.map RoleRow.toRole) roles)
    (hnames : RoleNames roles) : Valid (renumber rows roles) ∧ KeepsSuperAdmin rows (renumber rows roles) := by
  have hlength := h.length
  rw [List.length_map] at hlength
  obtain ⟨hroles, hids, -⟩ := renumber_facts hlength
  have hkeep : KeepsSuperAdmin rows (renumber rows roles) := by
    intro row hrow hsuper
    exact mem_renumber_of_builtin h hrow (hvalid.of_superAdmin hrow hsuper).2
  refine ⟨⟨hids hvalid.ids, ?_, ?_, fun row hrow => ?_⟩, hkeep⟩
  · have hmap : (renumber rows roles).map (fun row => row.name) = roles.map ConfigBackup.Role.name := by
      rw [← hroles, List.map_map, hroles]
      rfl
    rw [hmap]
    exact hnames
  · obtain ⟨top, htop, hsuper, hrest⟩ := hvalid.seeded
    exact ⟨top, hkeep top htop hsuper, hsuper, hrest⟩
  · rcases mem_renumber_cases hvalid.ids h hrow with ⟨old, hold, -, hupdated⟩ | ⟨-, hcreated⟩
    · have hlevel := hupdated.level
      have hbound := hvalid.bound old hold
      unfold maxImportedRoleLevel at hlevel
      omega
    · have hlevel := hcreated.level
      unfold maxImportedRoleLevel at hlevel
      omega

/-! ### Runs -/

/-- The tables of users and sessions, the roles, and the others that an import writes. -/
structure Tables where
  roles : RoleStore
  users : List User
  sessions : List (Nat × Bool)
  tags : List ConfigBackup.Tag
  hosts : List ConfigBackup.Host
  guests : List ConfigBackup.Guest
  settings : List (String × Option Text)
  credentials : List ConfigBackup.Credential

/-- The tables that the users' requests see. -/
def Tables.accounts (t : Tables) : Users.Database := ⟨t.users, t.sessions, t.tags.map ConfigBackup.Tag.id⟩

/-- The tables that an import sees. -/
def Tables.config (t : Tables) : ConfigBackup.Db :=
  ⟨t.tags, t.hosts, t.guests, t.roles.rows.map RoleRow.toRole, t.settings, t.credentials⟩

inductive Request
  | users (request : Users.Request)
  | addRole (form : RoleForm)
  | editRole (roleId : Nat) (form : RoleForm)
  | deleteRole (roleId : Nat)
  | importConfig (flags : Flags) (upload : Option Upload)

section

variable (lower : Text → Text)

theorem applyImport_valid {flags : Flags} {upload : Option Upload} {config : ConfigBackup.Db} {summary : ConfigBackup.Summary}
    (hvalid : Valid rows) {db : ConfigBackup.Db} (hdb : db.roles = rows.map RoleRow.toRole)
    (h : ConfigBackup.applyImport flags db upload = .ok (config, summary)) :
    Valid (renumber rows config.roles) ∧ KeepsSuperAdmin rows (renumber rows config.roles) := by
  obtain ⟨doc, -, hrun⟩ := ConfigBackup.applyImport_ok h
  have hnames : RoleNames db.roles := by
    unfold RoleNames
    rw [hdb, List.map_map]
    exact hvalid.names
  obtain ⟨himported, hnames'⟩ := ConfigBackup.runSteps_imported hnames hrun
  exact renumber_valid hvalid (hdb ▸ himported) hnames'

/-- A request of an actor: the access checks of its blueprint, then the route. -/
def serve (actor : User) (now : Int) (t : Tables) : Request → Except Text Tables
  | .users request =>
    match Users.serve t.roles.table actor now t.accounts request with
    | .error message => .error message
    | .ok db => .ok { t with users := db.users, sessions := db.sessions }
  | .addRole form =>
    if actor.isSuperAdmin t.roles.table = false then .error "Super admin access required.".toList
    else match h : addRole lower form t.roles.rows with
      | .error message => .error message
      | .ok rows => .ok { t with roles := ⟨rows, (addRole_valid t.roles.valid h).1⟩ }
  | .editRole roleId form =>
    if actor.isSuperAdmin t.roles.table = false then .error "Super admin access required.".toList
    else match h : editRole roleId form t.roles.rows with
      | .error message => .error message
      | .ok rows => .ok { t with roles := ⟨rows, (editRole_valid t.roles.valid h).1⟩ }
  | .deleteRole roleId =>
    if actor.isSuperAdmin t.roles.table = false then .error "Super admin access required.".toList
    else match h : deleteRole roleId t.users t.roles.rows with
      | .error message => .error message
      | .ok rows => .ok { t with roles := ⟨rows, (deleteRole_valid t.roles.valid h).1⟩ }
  | .importConfig flags upload =>
    if actor.isSuperAdmin t.roles.table = false then .error "Super admin access required.".toList
    else match h : ConfigBackup.applyImport flags t.config upload with
      | .error (.rejected message) => .error ("Import rejected: ".toList ++ message.toList)
      | .error .raised => .error "Import failed due to an unexpected error. No changes were applied.".toList
      | .ok (config, _) => .ok { t with
        roles := ⟨renumber t.roles.rows config.roles, (applyImport_valid t.roles.valid rfl h).1⟩
        tags := config.tags, hosts := config.hosts, guests := config.guests, settings := config.settings }

structure Event where
  actor : Nat
  now : Int
  request : Request

structure Run where
  tables : Tables
  start : Tables

/-- The account of a session, if it is active (`login_required`). -/
def Tables.currentUser (t : Tables) (id : Nat) : Option User :=
  t.users.find? fun u => decide (u.id = id) && u.isActiveUser

def step (r : Run) (e : Event) : Option Run :=
  (r.tables.currentUser e.actor).map fun actor => { r with
    tables := match serve lower actor e.now r.tables e.request with
      | .ok tables => tables
      | .error _ => r.tables }

def system : System Run Event where
  init r := r.tables = r.start ∧ (r.start.users.map User.id).Nodup
  step := step lower

end

/-- There is an active user with the `super_admin` role. -/
def HasSuperAdmin (t : Tables) : Prop :=
  ∃ u ∈ t.users, u.isActiveUser = true ∧ ∃ row ∈ t.roles.rows, row.id = u.roleId ∧ row.name = superAdmin

/-! ### The lockout protection -/

section

variable {lower : Text → Text} {t t' : Tables} {actor : User} {now : Int}

theorem isSuperAdmin_iff (roles : RoleStore) (u : User) :
    u.isSuperAdmin roles.table = true ↔ ∃ row ∈ roles.rows, row.id = u.roleId ∧ row.name = superAdmin := by
  unfold User.isSuperAdmin Users.isSuperRole
  rw [Option.any_eq_true]
  constructor
  · rintro ⟨role, hrole, hname⟩
    obtain ⟨row, hrow, rfl⟩ := List.mem_map.1 (List.mem_of_find?_eq_some hrole)
    have hid := List.find?_some hrole
    exact ⟨row, hrow, of_decide_eq_true hid, of_decide_eq_true hname⟩
  · rintro ⟨row, hrow, hid, hname⟩
    have hmem : row.role ∈ roles.table.rows := List.mem_map_of_mem hrow
    refine ⟨row.role, hid ▸ Users.getRole_of_mem hmem, ?_⟩
    rw [decide_eq_true_eq]
    exact hname

theorem HasSuperAdmin.of_user {u : User} (hu : u ∈ t.users) (hactive : u.isActiveUser = true)
    (hsuper : u.isSuperAdmin t.roles.table = true) : HasSuperAdmin t :=
  ⟨u, hu, hactive, (isSuperAdmin_iff t.roles u).1 hsuper⟩

theorem HasSuperAdmin.of_roles (h : HasSuperAdmin t) (husers : t'.users = t.users)
    (hkeep : KeepsSuperAdmin t.roles.rows t'.roles.rows) : HasSuperAdmin t' := by
  obtain ⟨u, hu, hactive, row, hrow, hid, hname⟩ := h
  exact ⟨u, husers ▸ hu, hactive, row, hkeep row hrow hname, hid, hname⟩

/-- A request on users: a `super_admin` stays one, and others do not reach it. -/
theorem users_keep {request : Users.Request} {db : Users.Database} (hids : (t.users.map User.id).Nodup) (hactor : actor ∈ t.users)
    (hactive : actor.isActiveUser = true) (h : Users.serve t.roles.table actor now t.accounts request = .ok db)
    (hhas : HasSuperAdmin t) : HasSuperAdmin { t with users := db.users, sessions := db.sessions } := by
  cases hsuper : actor.isSuperAdmin t.roles.table with
  | true =>
    obtain ⟨u, hu, -, hrole, hstays⟩ := (Users.serve_standing (show (t.accounts.users.map User.id).Nodup from hids) hactor h).self
    refine HasSuperAdmin.of_user hu (hstays.trans hactive) ?_
    unfold User.isSuperAdmin at hsuper ⊢
    rw [hrole]
    exact hsuper
  | false =>
    obtain ⟨u, hu, huactive, hrow⟩ := hhas
    have husuper : u.isSuperAdmin t.roles.table = true := (isSuperAdmin_iff t.roles u).2 hrow
    have hne : u.id ≠ actor.id := by
      intro heq
      obtain rfl := eq_of_id_eq User.id hids hu hactor heq
      rw [hsuper] at husuper
      cases husuper
    have hlevel : actor.roleLevel t.roles.table ≤ u.roleLevel t.roles.table := by
      obtain ⟨row, hmem, hid, hname⟩ := hrow
      have htop := (t.roles.valid.of_superAdmin hmem hname).1
      have hrole : row.role ∈ t.roles.table.rows := List.mem_map_of_mem hmem
      have hfour : u.roleLevel t.roles.table = row.level := by
        rw [User.roleLevel, ← hid]
        exact Users.levelOf_of_mem hrole
      have hle : actor.roleLevel t.roles.table ≤ 4 := Users.levelOf_le _
      omega
    exact ⟨u, (Users.serve_below (show (t.accounts.users.map User.id).Nodup from hids) hactor hsuper h).kept u hu hne hlevel, huactive, hrow⟩

/-- What a request keeps, whoever the active actor is. -/
theorem serve_keeps {request : Request} (hids : (t.users.map User.id).Nodup) (hactor : actor ∈ t.users)
    (hactive : actor.isActiveUser = true) (h : serve lower actor now t request = .ok t') :
    (t'.users.map User.id).Nodup ∧ KeepsSuperAdmin t.roles.rows t'.roles.rows ∧ (HasSuperAdmin t → HasSuperAdmin t') := by
  have hroles : ∀ {t' : Tables}, t'.users = t.users → KeepsSuperAdmin t.roles.rows t'.roles.rows →
      (t'.users.map User.id).Nodup ∧ KeepsSuperAdmin t.roles.rows t'.roles.rows ∧ (HasSuperAdmin t → HasSuperAdmin t') := by
    intro t' husers hkeep
    exact ⟨husers ▸ hids, hkeep, fun hhas => hhas.of_roles husers hkeep⟩
  cases request with
  | users request =>
    simp only [serve] at h
    split at h
    · cases h
    · rename_i db hserve
      cases h
      exact ⟨(Users.serve_standing (show (t.accounts.users.map User.id).Nodup from hids) hactor hserve).ids, fun row hrow _ => hrow,
        users_keep hids hactor hactive hserve⟩
  | addRole form =>
    simp only [serve] at h
    split at h
    · cases h
    · split at h
      · cases h
      · rename_i rows hrows
        cases h
        exact hroles rfl (addRole_valid t.roles.valid hrows).2
  | editRole roleId form =>
    simp only [serve] at h
    split at h
    · cases h
    · split at h
      · cases h
      · rename_i rows hrows
        cases h
        exact hroles rfl (editRole_valid t.roles.valid hrows).2
  | deleteRole roleId =>
    simp only [serve] at h
    split at h
    · cases h
    · split at h
      · cases h
      · rename_i rows hrows
        cases h
        exact hroles rfl (deleteRole_valid t.roles.valid hrows).2
  | importConfig flags upload =>
    simp only [serve] at h
    split at h
    · cases h
    · split at h
      · cases h
      · cases h
      · rename_i config summary himport
        cases h
        exact hroles rfl (applyImport_valid t.roles.valid rfl himport).2

/-- What is kept from the beginning of a run. -/
structure Guarded (r : Run) : Prop where
  ids : (r.tables.users.map User.id).Nodup
  row : KeepsSuperAdmin r.start.roles.rows r.tables.roles.rows
  has : HasSuperAdmin r.start → HasSuperAdmin r.tables

theorem Guarded.step {r r' : Run} {e : Event} (h : Guarded r) (hs : step lower r e = some r') : Guarded r' := by
  obtain ⟨actor, hactor, rfl⟩ := Option.map_eq_some_iff.1 hs
  have hmem : actor ∈ r.tables.users := List.mem_of_find?_eq_some hactor
  have hactive : actor.isActiveUser = true := by
    have hfound := List.find?_some hactor
    rw [Bool.and_eq_true] at hfound
    exact hfound.2
  cases hserve : serve lower actor e.now r.tables e.request with
  | error message => exact ⟨h.ids, h.row, h.has⟩
  | ok t =>
    obtain ⟨hids, hrow, hhas⟩ := serve_keeps h.ids hmem hactive hserve
    exact ⟨hids, fun row hin hname => hrow row (h.row row hin hname) hname, fun hstart => hhas (h.has hstart)⟩

/-- In every run of requests on users and roles and of imports, by any actors: if there is an active user with the `super_admin` role
at the beginning, there is one at the end; and the `super_admin` row is the one of the beginning, built in and at level 4. -/
theorem superAdmin_remains {r : Run} (h : (system lower).Reachable r) (hstart : HasSuperAdmin r.start) :
    HasSuperAdmin r.tables ∧ ∃ top ∈ r.start.roles.rows, top.name = superAdmin ∧ top.level = 4 ∧ top.isBuiltin = true ∧
      ∀ row ∈ r.tables.roles.rows, row.name = superAdmin ↔ row = top := by
  have hguarded : Guarded r := by
    refine System.Reach.invariant (I := Guarded) ?_ (fun r e r' hr _ hs => hr.step hs) h
    rintro r ⟨hstart, hids⟩
    refine ⟨hstart ▸ hids, fun row hrow _ => hstart ▸ hrow, fun hhas => hstart ▸ hhas⟩
  obtain ⟨top, htop, hname, hlevel, hbuiltin⟩ := r.start.roles.valid.seeded
  have htop' := hguarded.row top htop hname
  refine ⟨hguarded.has hstart, top, htop, hname, hlevel, hbuiltin, fun row hrow => ⟨fun hrowname => ?_, fun heq => heq ▸ hname⟩⟩
  exact r.tables.roles.valid.eq_of_name hrow htop' (hrowname.trans hname.symm)

end

/-- The built-in roles `super_admin` and `viewer`, and a custom one that may manage users. -/
def exampleStore : RoleStore where
  rows := [⟨⟨superAdmin, .str "Super Admin".toList, 4, true, .null, fun _ => true⟩, 1⟩,
    ⟨⟨"viewer".toList, .str "Viewer".toList, 1, true, .null, fun _ => false⟩, 2⟩,
    ⟨⟨"helpdesk".toList, .str "Helpdesk".toList, 2, false, .str "operator".toList, fun _ => true⟩, 3⟩]
  valid := ⟨by decide, by decide, by decide, by decide⟩

def exampleTables : Tables :=
  ⟨exampleStore, [Users.exampleUser 1 "root".toList 1, Users.exampleUser 2 "bob".toList 3], [], [], [], [], [], []⟩

/-- A document with one role: `super_admin` at level 1. -/
def exampleUpload : Upload where
  version := some (.scalar (.int 1))
  tags := some (.list [])
  hosts := some (.list [])
  guests := some (.list [])
  roles := some (.list [some ⟨some (.scalar (.str superAdmin)), none, some (.scalar (.int 1)), none, none, fun _ => none⟩])
  settings := some (some [])

/-- The `super_admin` deactivates and deletes itself and imports the document, and the helpdesk user deletes it. -/
def exampleEvents : List Event :=
  [⟨1, 0, .users (.edit 1 ⟨none, false, "2".toList, [], []⟩)⟩, ⟨1, 0, .users (.delete 1)⟩,
    ⟨1, 0, .importConfig ⟨true, true⟩ (some exampleUpload)⟩, ⟨2, 0, .users (.delete 1)⟩]

theorem example_remains : ∃ r, (system id).exec ⟨exampleTables, exampleTables⟩ exampleEvents = some r ∧ HasSuperAdmin r.tables := by
  have hinit : (system id).init ⟨exampleTables, exampleTables⟩ := ⟨rfl, by decide +kernel⟩
  have hstart : HasSuperAdmin exampleTables :=
    ⟨Users.exampleUser 1 "root".toList 1, by decide +kernel, rfl, _, .head _, rfl, rfl⟩
  have hexec : (system id).exec ⟨exampleTables, exampleTables⟩ exampleEvents = some _ := rfl
  exact ⟨_, hexec, (superAdmin_remains (System.reachable_of_exec hinit hexec) hstart).1⟩

end ProxmoxTool.Roles
