import ProxmoxTool.Lib.Rows
import ProxmoxTool.Lib.System
import ProxmoxTool.Lib.Text

/-!
# Users and roles

The model of the user management in `routes/security.py`: `add_user`, `edit_user` and `delete_user`, with the properties of `User`
they go by.  The role table is a structure that says what its writers keep (`Roles.Valid`): the built-in `super_admin` is there
at level 4, and no role is above it.

`Below` is what an actor who is not `super_admin` can do, whatever the request (`serve_below`): it concerns users under
its level only.  Over a run, the users at or above the levels of all who have acted stay (`superiors_unchanged`).
-/

namespace ProxmoxTool.Users

structure Role where
  id : Nat
  name : Text
  level : Int
  isBuiltin : Bool
  canManageUsers : Bool
  canManageGuests : Bool
  canViewGuests : Bool

def superAdmin : Text := "super_admin".toList

structure RoleTable where
  rows : List Role
  ids : (rows.map Role.id).Nodup
  seeded : ∃ r ∈ rows, r.name = superAdmin
  top : ∀ r ∈ rows, r.name = superAdmin → r.level = 4
  bound : ∀ r ∈ rows, r.level ≤ 4

/-- `Role.BASE_TIER_LEVELS`. -/
def baseTierLevel (tier : Text) : Option Int :=
  if tier = "viewer".toList then some 1
  else if tier = "operator".toList then some 2
  else if tier = "admin".toList then some 3
  else none

structure User where
  id : Nat
  username : Text
  displayName : Text
  password : Text
  roleId : Nat
  createdVia : Text
  isActiveUser : Bool
  tokensValidAfter : Option Int
  mustChangePassword : Bool
  allowedTags : List Nat
  deriving DecidableEq

/-- The tables: users, sessions (the user and whether it is revoked) and tags. -/
structure Database where
  users : List User := []
  sessions : List (Nat × Bool) := []
  tags : List Nat := []

/-- `user.set_password`, in seconds: the stamp always advances. -/
def User.setPassword (now : Int) (password : Text) (user : User) : User :=
  { user with
    password := password
    tokensValidAfter := some (match user.tokensValidAfter with
      | some previous => if now ≤ previous then previous + 1 else now
      | none => now)
    mustChangePassword := false }

/-! ### Roles -/

theorem baseTierLevel_le (tier : Text) : (baseTierLevel tier).getD 1 ≤ 3 := by
  unfold baseTierLevel
  split
  · decide
  · split
    · decide
    · split
      · decide
      · decide

section

variable (roles : RoleTable)

/-- `Role.query.get`. -/
def getRole (id : Nat) : Option Role := roles.rows.find? fun r => decide (r.id = id)

/-- The level that a role id stands for; 1 for a missing role. -/
def levelOf (roleId : Nat) : Int := (getRole roles roleId).elim 1 Role.level

def isSuperRole (roleId : Nat) : Bool := (getRole roles roleId).any fun r => decide (r.name = superAdmin)

def User.roleLevel (user : User) : Int := levelOf roles user.roleId

def User.isSuperAdmin (user : User) : Bool := isSuperRole roles user.roleId

def User.isAdmin (user : User) : Bool := decide (3 ≤ user.roleLevel roles)

/-- A permission flag: `super_admin` has them all. -/
def User.can (user : User) (flag : Role → Bool) : Bool :=
  user.isSuperAdmin roles || (getRole roles user.roleId).any flag

def User.canManageUsers (user : User) : Bool := user.can roles Role.canManageUsers

def User.canManageGuests (user : User) : Bool := user.can roles Role.canManageGuests

def User.canViewGuests (user : User) : Bool := user.can roles Role.canViewGuests

def User.canEditUser (user other : User) : Bool :=
  decide (user.id = other.id) || user.isSuperAdmin roles || decide (other.roleLevel roles < user.roleLevel roles)

/-- The actor may not give a role. -/
def User.mayNotAssign (user : User) (role : Role) : Bool :=
  decide (user.roleLevel roles ≤ role.level) && !user.isSuperAdmin roles

/-! ### The requests -/

structure AddForm where
  username : Text
  displayName : Text
  password : Text
  roleId : Text
  tagIds : List Text

structure EditForm where
  displayName : Option Text
  isActive : Bool
  roleId : Text
  tagIds : List Text
  newPassword : Text

/-- `_safe_int_list`. -/
def safeIntList (values : List Text) : Option (List Int) := values.mapM parseInt

/-- The tags of a form; `none` if one is no number. -/
def formTags (tags : List Nat) (tagIds : List Text) : Option (List Nat) :=
  (safeIntList tagIds).map fun ids => tags.filter fun tag => decide ((tag : Int) ∈ ids)

/-- `Role.query.get` of the number in a form. -/
def formRole (n : Int) : Option Role := roles.rows.find? fun r => decide ((r.id : Int) = n)

/-- The key of a new row. -/
def nextId (db : Database) : Nat := (db.users.map User.id).foldr max 0 + 1

/-- The role of a new user: the one of the form, or the viewer role. -/
def addedRole (form : AddForm) : Except Text Role :=
  match if form.roleId = [] then some 0 else parseInt form.roleId with
  | none => .error "Invalid role selection.".toList
  | some n =>
    match if n = 0 then none else formRole roles n with
    | some role => .ok role
    | none => ((roles.rows.find? fun r => decide (r.name = "viewer".toList)).elim (.error "Server error".toList) .ok)

/-- The row `add_user` adds. -/
def newUser (role : Role) (form : AddForm) (tags : List Nat) (now : Int) (db : Database) : User :=
  let username := (strip form.username).map Char.toLower
  let displayName := strip form.displayName
  let user : User :=
    { id := nextId db, username := username, displayName := if displayName = [] then username else displayName
      password := [], roleId := role.id, createdVia := "local".toList, isActiveUser := true, tokensValidAfter := none
      mustChangePassword := false, allowedTags := tags }
  user.setPassword now form.password

/-- `add_user`. -/
def addUser (actor : User) (form : AddForm) (now : Int) (db : Database) : Except Text Database :=
  let username := (strip form.username).map Char.toLower
  if username = [] ∨ form.password = [] then .error "Username and password are required.".toList
  else if db.users.any fun u => decide (u.username = username) then
    .error ("Username '".toList ++ username ++ "' already exists.".toList)
  else if form.password.length < 8 then .error "Password must be at least 8 characters.".toList
  else match addedRole roles form with
    | .error message => .error message
    | .ok role =>
      if actor.mayNotAssign roles role then .error "You cannot create a user with an equal or higher role.".toList
      else match formTags db.tags form.tagIds with
        | none => .error "Invalid tag selection.".toList
        | some tags => .ok { db with users := db.users ++ [newUser role form tags now db] }

/-- The role of an edited user; that of the actor itself stays. -/
def editedRole (actor user : User) (form : EditForm) : Except Text Nat :=
  if form.roleId = [] ∨ user.id = actor.id then .ok user.roleId
  else match parseInt form.roleId with
    | none => .error "Invalid role selection.".toList
    | some n => match formRole roles n with
      | none => .ok user.roleId
      | some role =>
        if actor.mayNotAssign roles role then
          .error "You cannot assign a role equal to or higher than your own.".toList
        else .ok role.id

/-- The row `edit_user` leaves. -/
def User.edited (user actor : User) (roleId : Nat) (tags : List Nat) (form : EditForm) (now : Int) : User :=
  let edited : User := { user with
    displayName := strip (form.displayName.getD user.displayName)
    isActiveUser := if user.id = actor.id then user.isActiveUser else form.isActive
    roleId := roleId, allowedTags := tags }
  if strip form.newPassword = [] then edited else edited.setPassword now (strip form.newPassword)

/-- `edit_user`; what it has changed before it refuses is not committed. -/
def editUser (actor : User) (userId : Nat) (form : EditForm) (now : Int) (db : Database) : Except Text Database :=
  match db.users.find? fun u => decide (u.id = userId) with
  | none => .error "Not found".toList
  | some user =>
    if actor.canEditUser roles user = false then .error "You cannot edit a user with an equal or higher role.".toList
    else match editedRole roles actor user form with
      | .error message => .error message
      | .ok roleId => match formTags db.tags form.tagIds with
        | none => .error "Invalid tag selection.".toList
        | some tags =>
          let newPassword := strip form.newPassword
          if newPassword ≠ [] ∧ user.createdVia = "cloudflare".toList then
            .error "Cannot set a password for a Cloudflare-authenticated user.".toList
          else if newPassword ≠ [] ∧ newPassword.length < 8 then .error "Password must be at least 8 characters.".toList
          else .ok { db with
            users := db.users.map fun u => if u.id = userId then user.edited actor roleId tags form now else u
            sessions := if newPassword = [] then db.sessions
              else db.sessions.map fun s => if s.1 = userId then (s.1, true) else s }

/-- `delete_user`. -/
def deleteUser (actor : User) (userId : Nat) (db : Database) : Except Text Database :=
  if userId = actor.id then .error "You cannot delete your own account.".toList
  else match db.users.find? fun u => decide (u.id = userId) with
    | none => .error "Not found".toList
    | some user =>
      if actor.canEditUser roles user = false then .error "You cannot delete a user with an equal or higher role.".toList
      else .ok { db with
        users := db.users.filter fun u => !decide (u.id = userId)
        sessions := db.sessions.filter fun s => !decide (s.1 = userId) }

inductive Request
  | add (form : AddForm)
  | edit (userId : Nat) (form : EditForm)
  | delete (userId : Nat)

/-- A request of the users' pages: `_require_access`, then the route. -/
def serve (actor : User) (now : Int) (db : Database) (request : Request) : Except Text Database :=
  if actor.canManageUsers roles = false then .error "Admin access required.".toList
  else match request with
    | .add form => addUser roles actor form now db
    | .edit userId form => editUser roles actor userId form now db
    | .delete userId => deleteUser roles actor userId db

/-! ### Runs -/

structure Event where
  actor : Nat
  now : Int
  request : Request

/-- The tables now and at the beginning, and the levels of those who have acted. -/
structure Run where
  db : Database
  start : Database
  acted : List Int := []

def Run.actor (r : Run) (id : Nat) : Option User := r.db.users.find? fun u => decide (u.id = id)

def step (r : Run) (e : Event) : Option Run :=
  (r.actor e.actor).map fun actor => { r with
    db := match serve roles actor e.now r.db e.request with
      | .ok db => db
      | .error _ => r.db
    acted := r.acted ++ [actor.roleLevel roles] }

def system : System Run Event where
  init r := r.db = r.start ∧ r.acted = [] ∧ (r.db.users.map User.id).Nodup
  step := step roles

/-- The actor of an event is not `super_admin`. -/
def Event.byOthers (r : Run) (e : Event) : Prop := ∀ actor ∈ r.actor e.actor, actor.isSuperAdmin roles = false

/-! ### What an actor can do -/

/-- What a request of an actor may do: the other users at or above its level stay as they are, there are no new ones, and its
own role and active flag stay. -/
structure Below (actor : User) (db db' : Database) : Prop where
  ids : (db'.users.map User.id).Nodup
  kept : ∀ u ∈ db.users, u.id ≠ actor.id → actor.roleLevel roles ≤ u.roleLevel roles → u ∈ db'.users
  made : ∀ u ∈ db'.users, u.id ≠ actor.id → actor.roleLevel roles ≤ u.roleLevel roles → u ∈ db.users
  self : ∃ u ∈ db'.users, u.id = actor.id ∧ u.roleId = actor.roleId ∧ u.isActiveUser = actor.isActiveUser

end

section

variable {roles : RoleTable} {actor : User} {db db' : Database} {now : Int}

theorem getRole_of_mem {role : Role} (h : role ∈ roles.rows) : getRole roles role.id = some role :=
  find?_id_eq Role.id roles.ids h

theorem levelOf_of_mem {role : Role} (h : role ∈ roles.rows) : levelOf roles role.id = role.level := by
  rw [levelOf, getRole_of_mem h]
  rfl

/-- An assignable role is below the actor. -/
theorem level_lt_of_assigned {role : Role} (hmem : role ∈ roles.rows) (hsuper : actor.isSuperAdmin roles = false)
    (h : actor.mayNotAssign roles role = false) : levelOf roles role.id < actor.roleLevel roles := by
  rw [levelOf_of_mem hmem]
  simp only [User.mayNotAssign, hsuper, Bool.not_false, Bool.and_true, decide_eq_false_iff_not] at h
  omega

theorem addedRole_mem {form : AddForm} {role : Role} (h : addedRole roles form = .ok role) : role ∈ roles.rows := by
  unfold addedRole at h
  split at h
  · cases h
  · split at h
    · rename_i n _ role' hfind
      cases h
      split at hfind
      · cases hfind
      · exact List.mem_of_find?_eq_some hfind
    · cases hviewer : roles.rows.find? fun r => decide (r.name = "viewer".toList) with
      | none =>
        rw [hviewer] at h
        cases h
      | some viewer =>
        rw [hviewer] at h
        cases h
        exact List.mem_of_find?_eq_some hviewer

theorem formTags_subset {tags tags' : List Nat} {tagIds : List Text} (h : formTags tags tagIds = some tags') : tags' ⊆ tags := by
  obtain ⟨ids, -, rfl⟩ := Option.map_eq_some_iff.1 h
  exact fun tag htag => (List.mem_filter.1 htag).1

theorem addUser_ok {form : AddForm} (h : addUser roles actor form now db = .ok db') :
    ∃ role tags, role ∈ roles.rows ∧ actor.mayNotAssign roles role = false ∧ tags ⊆ db.tags ∧ db'.tags = db.tags ∧
      db'.users = db.users ++ [newUser role form tags now db] := by
  unfold addUser at h
  dsimp only at h
  split at h
  · cases h
  · split at h
    · cases h
    · split at h
      · cases h
      · split at h
        · cases h
        · rename_i role hrole
          split at h
          · cases h
          · rename_i hassign
            split at h
            · cases h
            · rename_i tags htags
              cases h
              exact ⟨role, tags, addedRole_mem hrole, by simpa using hassign, formTags_subset htags, rfl, rfl⟩

theorem editedRole_ok {user : User} {form : EditForm} {roleId : Nat} (h : editedRole roles actor user form = .ok roleId) :
    roleId = user.roleId ∨
      user.id ≠ actor.id ∧ ∃ role ∈ roles.rows, role.id = roleId ∧ actor.mayNotAssign roles role = false := by
  unfold editedRole at h
  split at h
  · cases h
    exact .inl rfl
  · rename_i hother
    split at h
    · cases h
    · split at h
      · cases h
        exact .inl rfl
      · rename_i role hfind
        split at h
        · cases h
        · rename_i hassign
          cases h
          exact .inr ⟨fun heq => hother (Or.inr heq), role, List.mem_of_find?_eq_some hfind, rfl, by simpa using hassign⟩

theorem editUser_ok {userId : Nat} {form : EditForm} (h : editUser roles actor userId form now db = .ok db') :
    ∃ user roleId tags, user ∈ db.users ∧ user.id = userId ∧ actor.canEditUser roles user = true ∧
      editedRole roles actor user form = .ok roleId ∧ tags ⊆ db.tags ∧ db'.tags = db.tags ∧
      db'.users = db.users.map fun u => if u.id = userId then user.edited actor roleId tags form now else u := by
  unfold editUser at h
  split at h
  · cases h
  · rename_i user hfind
    split at h
    · cases h
    · rename_i hcan
      split at h
      · cases h
      · rename_i roleId hrole
        split at h
        · cases h
        · rename_i tags htags
          dsimp only at h
          split at h
          · cases h
          · split at h
            · cases h
            · cases h
              exact ⟨user, roleId, tags, List.mem_of_find?_eq_some hfind, by simpa using List.find?_some hfind,
                by simpa using hcan, hrole, formTags_subset htags, rfl, rfl⟩

theorem deleteUser_ok {userId : Nat} (h : deleteUser roles actor userId db = .ok db') :
    userId ≠ actor.id ∧ ∃ user ∈ db.users, user.id = userId ∧ actor.canEditUser roles user = true ∧
      db'.users = db.users.filter fun u => !decide (u.id = userId) := by
  unfold deleteUser at h
  split at h
  · cases h
  · rename_i hself
    split at h
    · cases h
    · rename_i user hfind
      split at h
      · cases h
      · rename_i hcan
        cases h
        exact ⟨hself, user, List.mem_of_find?_eq_some hfind, by simpa using List.find?_some hfind, by simpa using hcan, rfl⟩

theorem edited_facts (user actor : User) (now : Int) (roleId : Nat) (tags : List Nat) (form : EditForm) :
    (user.edited actor roleId tags form now).id = user.id ∧ (user.edited actor roleId tags form now).roleId = roleId ∧
      (user.id = actor.id → (user.edited actor roleId tags form now).isActiveUser = user.isActiveUser) := by
  unfold User.edited
  dsimp only
  split
  · exact ⟨rfl, rfl, fun h => if_pos h⟩
  · exact ⟨rfl, rfl, fun h => if_pos h⟩

theorem canEditUser_of_other {user : User} (hsuper : actor.isSuperAdmin roles = false)
    (h : actor.canEditUser roles user = true) : user.id = actor.id ∨ user.roleLevel roles < actor.roleLevel roles := by
  simp only [User.canEditUser, hsuper, Bool.or_false, Bool.or_eq_true, decide_eq_true_eq] at h
  rcases h with h | h
  · exact .inl h.symm
  · exact .inr h

variable (hids : (db.users.map User.id).Nodup) (hactor : actor ∈ db.users)

/-- What a request of any actor keeps: the keys, and the actor's own role and active flag. -/
structure Standing (actor : User) (db' : Database) : Prop where
  ids : (db'.users.map User.id).Nodup
  self : ∃ u ∈ db'.users, u.id = actor.id ∧ u.roleId = actor.roleId ∧ u.isActiveUser = actor.isActiveUser

include hids hactor

theorem addUser_standing {form : AddForm} (h : addUser roles actor form now db = .ok db') : Standing actor db' := by
  obtain ⟨role, tags, -, -, -, -, husers⟩ := addUser_ok h
  have hid : (newUser role form tags now db).id = nextId db := rfl
  refine ⟨?_, actor, ?_, rfl, rfl, rfl⟩
  · rw [husers]
    exact nodup_append_fresh User.id hids hid
  · rw [husers]
    exact List.mem_append_left _ hactor

theorem editUser_standing {userId : Nat} {form : EditForm} (h : editUser roles actor userId form now db = .ok db') :
    Standing actor db' := by
  obtain ⟨user, roleId, tags, huser, rfl, -, hrole, -, -, husers⟩ := editUser_ok h
  obtain ⟨hid, hroleId, hactive⟩ := edited_facts user actor now roleId tags form
  refine ⟨?_, ?_⟩
  · have hsame : db'.users.map User.id = db.users.map User.id := by
      rw [husers, List.map_map]
      refine List.map_congr_left fun u _ => ?_
      rw [Function.comp_apply]
      split
      · rename_i heq
        exact hid.trans heq.symm
      · rfl
    rw [hsame]
    exact hids
  · by_cases hself : user.id = actor.id
    · obtain rfl := eq_of_id_eq User.id hids huser hactor hself
      refine ⟨_, ?_, hid, ?_, hactive rfl⟩
      · rw [husers]
        exact List.mem_map.2 ⟨user, huser, if_pos rfl⟩
      · rw [hroleId]
        rcases editedRole_ok hrole with hsame | ⟨hne, -⟩
        · exact hsame
        · exact absurd rfl hne
    · refine ⟨actor, ?_, rfl, rfl, rfl⟩
      rw [husers]
      exact List.mem_map.2 ⟨actor, hactor, if_neg fun heq => hself heq.symm⟩

theorem deleteUser_standing {userId : Nat} (h : deleteUser roles actor userId db = .ok db') : Standing actor db' := by
  obtain ⟨hself, user, -, rfl, -, husers⟩ := deleteUser_ok h
  refine ⟨?_, actor, ?_, rfl, rfl, rfl⟩
  · rw [husers]
    exact hids.sublist (List.filter_sublist.map User.id)
  · rw [husers]
    have hne : actor.id ≠ user.id := fun heq => hself heq.symm
    exact List.mem_filter.2 ⟨hactor, by simpa using hne⟩

theorem serve_standing {request : Request} (h : serve roles actor now db request = .ok db') : Standing actor db' := by
  unfold serve at h
  split at h
  · cases h
  · cases request with
    | add form => exact addUser_standing hids hactor h
    | edit userId form => exact editUser_standing hids hactor h
    | delete userId => exact deleteUser_standing hids hactor h

variable (hsuper : actor.isSuperAdmin roles = false)

include hsuper

theorem addUser_below {form : AddForm} (h : addUser roles actor form now db = .ok db') : Below roles actor db db' := by
  have hstanding := addUser_standing hids hactor h
  obtain ⟨role, tags, hrole, hassign, -, -, husers⟩ := addUser_ok h
  have hlevel : (newUser role form tags now db).roleLevel roles < actor.roleLevel roles :=
    level_lt_of_assigned hrole hsuper hassign
  refine ⟨hstanding.ids, fun u hu _ _ => ?_, fun u hu _ hle => ?_, hstanding.self⟩
  · rw [husers]
    exact List.mem_append_left _ hu
  · rw [husers] at hu
    rcases List.mem_append.1 hu with hu | hu
    · exact hu
    · obtain rfl := List.mem_singleton.1 hu
      omega

theorem editUser_below {userId : Nat} {form : EditForm} (h : editUser roles actor userId form now db = .ok db') :
    Below roles actor db db' := by
  have hstanding := editUser_standing hids hactor h
  obtain ⟨user, roleId, tags, huser, rfl, hcan, hrole, -, -, husers⟩ := editUser_ok h
  obtain ⟨hid, hroleId, -⟩ := edited_facts user actor now roleId tags form
  have hother := canEditUser_of_other hsuper hcan
  refine ⟨hstanding.ids, fun u hu hne hle => ?_, fun u hu hne hle => ?_, hstanding.self⟩
  · rw [husers]
    refine List.mem_map.2 ⟨u, hu, if_neg fun heq => ?_⟩
    obtain rfl := eq_of_id_eq User.id hids hu huser heq
    rcases hother with hself | hlt
    · exact hne hself
    · omega
  · rw [husers] at hu
    obtain ⟨v, hv, rfl⟩ := List.mem_map.1 hu
    split at hne
    · -- the edited user is below the actor, whichever role it has now
      rename_i heq
      rw [if_pos heq] at hle
      rw [hid] at hne
      have hlevel : levelOf roles roleId < actor.roleLevel roles := by
        rcases editedRole_ok hrole with hsame | ⟨-, role, hmem, hrid, hassign⟩
        · rcases hother with hself | hlt
          · exact absurd hself hne
          · rw [hsame]
            exact hlt
        · rw [← hrid]
          exact level_lt_of_assigned hmem hsuper hassign
      unfold User.roleLevel at hle hlevel
      rw [hroleId] at hle
      omega
    · rename_i heq
      rw [if_neg heq]
      exact hv

theorem deleteUser_below {userId : Nat} (h : deleteUser roles actor userId db = .ok db') : Below roles actor db db' := by
  have hstanding := deleteUser_standing hids hactor h
  obtain ⟨hself, user, huser, rfl, hcan, husers⟩ := deleteUser_ok h
  refine ⟨hstanding.ids, fun u hu hne hle => ?_, fun u hu _ _ => ?_, hstanding.self⟩
  · rw [husers]
    refine List.mem_filter.2 ⟨hu, ?_⟩
    have hother : u.id ≠ user.id := by
      intro heq
      obtain rfl := eq_of_id_eq User.id hids hu huser heq
      rcases canEditUser_of_other hsuper hcan with h | h
      · exact hself h
      · omega
    simpa using hother
  · rw [husers] at hu
    exact (List.mem_filter.1 hu).1

/-- An accepted request of an actor who is not `super_admin` concerns users below its level. -/
theorem serve_below {request : Request} (h : serve roles actor now db request = .ok db') : Below roles actor db db' := by
  unfold serve at h
  split at h
  · cases h
  · cases request with
    | add form => exact addUser_below hids hactor hsuper h
    | edit userId form => exact editUser_below hids hactor hsuper h
    | delete userId => exact deleteUser_below hids hactor hsuper h

end

/-! ### Who stays -/

section

variable {roles : RoleTable} {r : Run}

/-- A user at or above a level, with its role and whether it is active. -/
def AtOrAbove (roles : RoleTable) (db : Database) (level : Int) (standing : Nat × Nat × Bool) : Prop :=
  ∃ u ∈ db.users, (u.id, u.roleId, u.isActiveUser) = standing ∧ level ≤ u.roleLevel roles

def IsSuperAdminIn (roles : RoleTable) (db : Database) (id : Nat) : Prop :=
  ∃ u ∈ db.users, u.id = id ∧ u.isSuperAdmin roles = true

theorem Below.atOrAbove_iff {actor : User} {db db' : Database} (hids : (db.users.map User.id).Nodup) (hactor : actor ∈ db.users)
    (h : Below roles actor db db') {level : Int} (hlevel : actor.roleLevel roles ≤ level) (standing : Nat × Nat × Bool) :
    AtOrAbove roles db level standing ↔ AtOrAbove roles db' level standing := by
  obtain ⟨self, hself, hid, hrole, hactive⟩ := h.self
  have hsame : (self.id, self.roleId, self.isActiveUser) = (actor.id, actor.roleId, actor.isActiveUser) := by
    rw [hid, hrole, hactive]
  have hsameLevel : self.roleLevel roles = actor.roleLevel roles := by rw [User.roleLevel, hrole, User.roleLevel]
  constructor
  · rintro ⟨u, hu, rfl, hle⟩
    by_cases hua : u.id = actor.id
    · obtain rfl := eq_of_id_eq User.id hids hu hactor hua
      exact ⟨self, hself, hsame, hsameLevel ▸ hle⟩
    · exact ⟨u, h.kept u hu hua (by omega), rfl, hle⟩
  · rintro ⟨u, hu, rfl, hle⟩
    by_cases hua : u.id = actor.id
    · obtain rfl := eq_of_id_eq User.id h.ids hu hself (hua.trans hid.symm)
      exact ⟨actor, hactor, hsame.symm, hsameLevel ▸ hle⟩
    · exact ⟨u, h.made u hu hua (by omega), rfl, hle⟩

theorem levelOf_le (roleId : Nat) : levelOf roles roleId ≤ 4 := by
  unfold levelOf
  cases h : getRole roles roleId with
  | none => decide
  | some role => exact roles.bound role (List.mem_of_find?_eq_some h)

/-- The `super_admin` users are at level 4. -/
theorem isSuperAdminIn_iff {db : Database} {id : Nat} : IsSuperAdminIn roles db id ↔
    ∃ roleId active, isSuperRole roles roleId = true ∧ AtOrAbove roles db 4 (id, roleId, active) := by
  constructor
  · rintro ⟨u, hu, rfl, hsuper⟩
    refine ⟨u.roleId, u.isActiveUser, hsuper, u, hu, rfl, ?_⟩
    obtain ⟨role, hrole, hname⟩ := (Option.any_eq_true _ _).1 hsuper
    rw [User.roleLevel, levelOf, hrole]
    exact Int.le_of_eq (roles.top role (List.mem_of_find?_eq_some hrole) (by simpa using hname)).symm
  · rintro ⟨roleId, active, hsuper, u, hu, hstanding, -⟩
    obtain ⟨rfl, rfl, -⟩ := by simpa only [Prod.mk.injEq] using hstanding
    exact ⟨u, hu, rfl, hsuper⟩

/-- The users at or above the levels of all who have acted are those of the beginning. -/
structure Kept (roles : RoleTable) (r : Run) : Prop where
  ids : (r.db.users.map User.id).Nodup
  levels : ∀ level ∈ r.acted, level ≤ 4
  standing : ∀ level, (∀ acted ∈ r.acted, acted ≤ level) → ∀ standing,
    AtOrAbove roles r.start level standing ↔ AtOrAbove roles r.db level standing

/-- What an event does: nothing to the tables, or what its actor may do. -/
theorem step_cases {e : Event} {r' : Run} (hids : (r.db.users.map User.id).Nodup) (hby : e.byOthers roles r)
    (hs : step roles r e = some r') : ∃ actor ∈ r.db.users, r.actor e.actor = some actor ∧ r'.start = r.start ∧
      r'.acted = r.acted ++ [actor.roleLevel roles] ∧ (r'.db = r.db ∨ Below roles actor r.db r'.db) := by
  obtain ⟨actor, hactor, rfl⟩ := Option.map_eq_some_iff.1 hs
  have hmem := List.mem_of_find?_eq_some hactor
  refine ⟨actor, hmem, hactor, rfl, rfl, ?_⟩
  dsimp only
  split
  · rename_i db hserve
    exact .inr (serve_below hids hmem (hby actor hactor) hserve)
  · exact .inl rfl

theorem Kept.step {e : Event} {r' : Run} (h : Kept roles r) (hby : e.byOthers roles r) (hs : step roles r e = some r') :
    Kept roles r' := by
  obtain ⟨actor, hmem, -, hstart, hacted, hdb⟩ := step_cases h.ids hby hs
  refine ⟨?_, fun level hlevel => ?_, fun level hlevel standing => ?_⟩
  · rcases hdb with hdb | hbelow
    · rw [hdb]
      exact h.ids
    · exact hbelow.ids
  · rw [hacted] at hlevel
    rcases List.mem_append.1 hlevel with hlevel | hlevel
    · exact h.levels level hlevel
    · obtain rfl := List.mem_singleton.1 hlevel
      exact levelOf_le _
  · rw [hacted] at hlevel
    have hold := h.standing level (fun acted hin => hlevel acted (List.mem_append_left _ hin)) standing
    rw [hstart, hold]
    rcases hdb with hdb | hbelow
    · rw [hdb]
    · exact hbelow.atOrAbove_iff h.ids hmem (hlevel _ (List.mem_append_right _ List.mem_cons_self)) standing

/-- In every run of requests by actors who are not `super_admin`: an accepted request is as `Below` says, the `super_admin` users
stay the same, and so do the users at or above every level that none of those who have acted is above. -/
theorem superiors_unchanged (h : (system roles).Reach (Event.byOthers roles) r) :
    (∀ id, IsSuperAdminIn roles r.start id ↔ IsSuperAdminIn roles r.db id) ∧
    (∀ level, (∀ acted ∈ r.acted, acted ≤ level) → ∀ standing,
      AtOrAbove roles r.start level standing ↔ AtOrAbove roles r.db level standing) ∧
    ∀ (e : Event) (actor : User) (db : Database), e.byOthers roles r → r.actor e.actor = some actor →
      serve roles actor e.now r.db e.request = .ok db → Below roles actor r.db db := by
  have hkept : Kept roles r := by
    refine System.Reach.invariant (I := Kept roles) ?_ (fun r e r' hr hby hs => hr.step hby hs) h
    rintro r ⟨hdb, hacted, hids⟩
    refine ⟨hids, fun level hlevel => ?_, fun level _ standing => by rw [hdb]⟩
    rw [hacted] at hlevel
    cases hlevel
  refine ⟨fun id => ?_, hkept.standing, fun e actor db hby hactor hserve => ?_⟩
  · have hfour := hkept.standing 4 hkept.levels
    rw [isSuperAdminIn_iff, isSuperAdminIn_iff]
    simp only [hfour]
  · exact serve_below hkept.ids (List.mem_of_find?_eq_some hactor) (hby actor hactor) hserve

end

/-- The built-in roles and a custom one of the operator tier that may manage users. -/
def exampleRoles : RoleTable where
  rows := [⟨1, superAdmin, 4, true, true, true, true⟩, ⟨2, "admin".toList, 3, true, true, true, true⟩,
    ⟨3, "operator".toList, 2, true, false, false, true⟩, ⟨4, "viewer".toList, 1, true, false, false, true⟩,
    ⟨5, "moderator".toList, 2, true, false, false, false⟩, ⟨6, "helpdesk".toList, 2, false, true, false, true⟩]
  ids := by decide
  seeded := by decide
  top := by decide
  bound := by decide

def exampleUser (id : Nat) (name : Text) (roleId : Nat) : User :=
  ⟨id, name, name, "password".toList, roleId, "local".toList, true, none, false, []⟩

/-- A `super_admin`, an admin and a helpdesk user. -/
def exampleDatabase : Database :=
  ⟨[exampleUser 1 "root".toList 1, exampleUser 2 "alice".toList 2, exampleUser 3 "bob".toList 6], [], []⟩

/-- The helpdesk user renames itself, and the admin adds an operator. -/
def exampleEvents : List Event :=
  [⟨3, 0, .edit 3 ⟨some "Bob".toList, true, [], [], []⟩⟩,
    ⟨2, 0, .add ⟨"carol".toList, [], "password".toList, "3".toList, []⟩⟩]

theorem example_superiors : ∃ r : Run, r.acted = [2, 3] ∧
    (∀ id, IsSuperAdminIn exampleRoles r.start id ↔ IsSuperAdminIn exampleRoles r.db id) := by
  have h0 : (system exampleRoles).Reach (Event.byOthers exampleRoles) ⟨exampleDatabase, exampleDatabase, []⟩ :=
    System.Reach.init ⟨rfl, rfl, by decide⟩
  have h1 := h0.next ⟨3, 0, .edit 3 ⟨some "Bob".toList, true, [], [], []⟩⟩ (by
    intro actor hactor
    cases hactor
    decide +kernel) rfl
  have h2 := h1.next ⟨2, 0, .add ⟨"carol".toList, [], "password".toList, "3".toList, []⟩⟩ (by
    intro actor hactor
    cases hactor
    decide +kernel) rfl
  exact ⟨_, by decide +kernel, (superiors_unchanged h2).1⟩

/-- Two actors who are not `super_admin`, of levels 2 and 3: the users at or above level 2, the level of the first, are not the same
after the run. -/
theorem superiors_of_lower_actor :
    (exampleDatabase.users.tail.map fun u => u.isSuperAdmin exampleRoles) = [false, false] ∧
    ((system exampleRoles).exec ⟨exampleDatabase, exampleDatabase, []⟩ exampleEvents).map (fun r =>
      (r.acted, (r.start.users.filter fun u => decide (2 ≤ u.roleLevel exampleRoles)).map User.id,
        (r.db.users.filter fun u => decide (2 ≤ u.roleLevel exampleRoles)).map User.id)) =
      some ([2, 3], [1, 2, 3], [1, 2, 3, 4]) := by
  refine ⟨?_, ?_⟩
  · decide +kernel
  · decide +kernel

end ProxmoxTool.Users
