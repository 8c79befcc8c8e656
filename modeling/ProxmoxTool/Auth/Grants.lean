import ProxmoxTool.Guests.Routes

/-!
# What user management can grant

Runs of `add_user` and `edit_user` by actors who are not `super_admin`.  A role is compared with the actor's by its level alone, and
the tags of a form are any tags there are: an actor gives permission flags it does not hold itself, and gives itself access to guests
(`example_grants`).

What the comparison does keep is `grants_below`.  A user has the role it had at the beginning, or one below the level of an actor
other than itself; a user below the admin tier has the tags it had, or tags of the tag table that it or an actor above it has given.
-/

namespace ProxmoxTool.Grants

open Users (Role RoleTable User Database AddForm EditForm getRole)
open Guests (Guest mayAccessGuest canAccessGuest)

/-- The tables now and at the beginning, and those who have acted, as they were. -/
structure Run where
  db : Database
  start : Database
  actors : List User := []

def Run.actor (r : Run) (id : Nat) : Option User := r.db.users.find? fun u => decide (u.id = id)

section

variable (roles : RoleTable)

def step (r : Run) (e : Users.Event) : Option Run :=
  (r.actor e.actor).map fun actor => { r with
    db := match Users.serve roles actor e.now r.db e.request with
      | .ok db => db
      | .error _ => r.db
    actors := r.actors ++ [actor] }

def system : System Run Users.Event where
  init r := r.db = r.start ∧ r.actors = [] ∧ (r.db.users.map User.id).Nodup
  step := step roles

/-- The request is one of `add_user` or `edit_user`, and its actor is not `super_admin`. -/
def grants (r : Run) (e : Users.Event) : Prop :=
  (match e.request with
    | .delete _ => False
    | _ => True) ∧ ∀ actor ∈ r.actor e.actor, actor.isSuperAdmin roles = false

/-- An actor that may manage users and is above a user. -/
def Above (r : Run) (u : User) (a : User) : Prop :=
  a ∈ r.actors ∧ a.canManageUsers roles = true ∧ a.id ≠ u.id ∧ u.roleLevel roles < a.roleLevel roles

def RoleFrom (r : Run) (u : User) : Prop :=
  (∃ v ∈ r.start.users, v.id = u.id ∧ v.roleId = u.roleId) ∨ ∃ a, Above roles r u a

/-- An actor that may give a user tags: itself, or one above it. -/
def MayTag (r : Run) (u : User) (a : User) : Prop :=
  Above roles r u a ∨ a ∈ r.actors ∧ a.canManageUsers roles = true ∧ a.id = u.id

def TagsFrom (r : Run) (u : User) : Prop :=
  (∃ v ∈ r.start.users, v.id = u.id ∧ v.allowedTags = u.allowedTags) ∨
    u.allowedTags ⊆ r.start.tags ∧ ∃ a, MayTag roles r u a

/-- Where the roles and tags of a run come from. -/
structure Origins (r : Run) : Prop where
  ids : (r.db.users.map User.id).Nodup
  tags : r.db.tags = r.start.tags
  role : ∀ u ∈ r.db.users, RoleFrom roles r u
  tagged : ∀ u ∈ r.db.users, TagsFrom roles r u

end

/-! ### One request -/

section

variable {roles : RoleTable} {r r' : Run} {u u' actor : User}

theorem Above.mono (hactors : r.actors ⊆ r'.actors) (h : Above roles r u actor) : Above roles r' u actor :=
  ⟨hactors h.1, h.2⟩

theorem RoleFrom.mono (hstart : r'.start = r.start) (hactors : r.actors ⊆ r'.actors) (hid : u'.id = u.id)
    (hrole : u'.roleId = u.roleId) (h : RoleFrom roles r u) : RoleFrom roles r' u' := by
  unfold RoleFrom Above User.roleLevel at *
  rw [hstart, hid, hrole]
  rcases h with h | ⟨a, ha, hrest⟩
  · exact .inl h
  · exact .inr ⟨a, hactors ha, hrest⟩

theorem TagsFrom.mono (hstart : r'.start = r.start) (hactors : r.actors ⊆ r'.actors) (h : TagsFrom roles r u) :
    TagsFrom roles r' u := by
  rcases h with h | ⟨hsub, a, h | ⟨ha, hrest⟩⟩
  · exact .inl (hstart ▸ h)
  · exact .inr ⟨hstart ▸ hsub, a, .inl (h.mono hactors)⟩
  · exact .inr ⟨hstart ▸ hsub, a, .inr ⟨hactors ha, hrest⟩⟩

/-- The rows a request of an actor leaves: those there were, and those it has written. -/
inductive Row (roles : RoleTable) (actor : User) (db : Database) : User → Prop
  | kept {u : User} : u ∈ db.users → Row roles actor db u
  | self {u : User} : u.id = actor.id → u.roleId = actor.roleId → u.allowedTags ⊆ db.tags → Row roles actor db u
  | below {u : User} : u.id ≠ actor.id → u.roleLevel roles < actor.roleLevel roles → u.allowedTags ⊆ db.tags →
      Row roles actor db u

variable {db db' : Database} {now : Int}

theorem addUser_row {form : AddForm} (hactor : actor ∈ db.users) (hsuper : actor.isSuperAdmin roles = false)
    (h : Users.addUser roles actor form now db = .ok db') : db'.tags = db.tags ∧ ∀ u ∈ db'.users, Row roles actor db u := by
  obtain ⟨role, tags, hrole, hassign, hsub, htags, husers⟩ := Users.addUser_ok h
  refine ⟨htags, fun u hu => ?_⟩
  rw [husers] at hu
  rcases List.mem_append.1 hu with hu | hu
  · exact .kept hu
  · obtain rfl := List.mem_singleton.1 hu
    have hfresh : Users.nextId db ∉ db.users.map User.id := freshId_not_mem User.id db.users
    refine .below ?_ (Users.level_lt_of_assigned hrole hsuper hassign) hsub
    intro heq
    have hid : Users.nextId db = actor.id := heq
    rw [hid] at hfresh
    exact hfresh (List.mem_map_of_mem hactor)

theorem edited_allowedTags (user actor : User) (now : Int) (roleId : Nat) (tags : List Nat) (form : EditForm) :
    (user.edited actor roleId tags form now).allowedTags = tags := by
  unfold User.edited
  dsimp only
  split
  · rfl
  · rfl

theorem editUser_row {userId : Nat} {form : EditForm} (hids : (db.users.map User.id).Nodup) (hactor : actor ∈ db.users)
    (hsuper : actor.isSuperAdmin roles = false) (h : Users.editUser roles actor userId form now db = .ok db') :
    db'.tags = db.tags ∧ ∀ u ∈ db'.users, Row roles actor db u := by
  obtain ⟨user, roleId, tags, huser, rfl, hcan, hrole, hsub, htags, husers⟩ := Users.editUser_ok h
  obtain ⟨hid, hroleId, -⟩ := Users.edited_facts user actor now roleId tags form
  have hset : (user.edited actor roleId tags form now).allowedTags ⊆ db.tags := by
    rw [edited_allowedTags]
    exact hsub
  refine ⟨htags, fun u hu => ?_⟩
  rw [husers] at hu
  obtain ⟨v, hv, rfl⟩ := List.mem_map.1 hu
  split
  · by_cases hself : user.id = actor.id
    · -- the actor edits itself: its role stays, the tags are those of the form
      refine .self (hid.trans hself) ?_ hset
      obtain rfl := eq_of_id_eq User.id hids huser hactor hself
      rw [hroleId]
      rcases Users.editedRole_ok hrole with hsame | ⟨hne, -⟩
      · exact hsame
      · exact absurd rfl hne
    · refine .below (fun heq => hself (hid.symm.trans heq)) ?_ hset
      rw [User.roleLevel, hroleId]
      rcases Users.editedRole_ok hrole with hsame | ⟨-, role, hmem, hrid, hassign⟩
      · rcases Users.canEditUser_of_other hsuper hcan with heq | hlt
        · exact absurd heq hself
        · rw [hsame]
          exact hlt
      · rw [← hrid]
        exact Users.level_lt_of_assigned hmem hsuper hassign
  · exact .kept hv

/-- What an accepted request of `add_user` or `edit_user` leaves. -/
theorem serve_row {e : Users.Event} (hids : (r.db.users.map User.id).Nodup) (hgrants : grants roles r e)
    (hactor : r.actor e.actor = some actor) (h : Users.serve roles actor e.now r.db e.request = .ok db') :
    actor.canManageUsers roles = true ∧ db'.tags = r.db.tags ∧ ∀ u ∈ db'.users, Row roles actor r.db u := by
  have hmem : actor ∈ r.db.users := List.mem_of_find?_eq_some hactor
  have hsuper : actor.isSuperAdmin roles = false := hgrants.2 actor hactor
  have hrequest := hgrants.1
  unfold Users.serve at h
  split at h
  · cases h
  · rename_i hmanage
    have hmanage : actor.canManageUsers roles = true := by simpa using hmanage
    cases hreq : e.request with
    | add form =>
      rw [hreq] at h
      exact ⟨hmanage, addUser_row hmem hsuper h⟩
    | edit userId form =>
      rw [hreq] at h
      exact ⟨hmanage, editUser_row hids hmem hsuper h⟩
    | delete userId =>
      rw [hreq] at hrequest
      exact absurd hrequest id

/-! ### Runs -/

theorem Origins.step {e : Users.Event} (h : Origins roles r) (hgrants : grants roles r e) (hs : step roles r e = some r') :
    Origins roles r' := by
  obtain ⟨actor, hactor, rfl⟩ := Option.map_eq_some_iff.1 hs
  have hmem : actor ∈ r.db.users := List.mem_of_find?_eq_some hactor
  have hactors : r.actors ⊆ r.actors ++ [actor] := List.subset_append_left _ _
  have hin : actor ∈ r.actors ++ [actor] := List.mem_append_right _ List.mem_cons_self
  cases hserve : Users.serve roles actor e.now r.db e.request with
  | error message =>
    refine ⟨h.ids, h.tags, fun u hu => ?_, fun u hu => ?_⟩
    · exact RoleFrom.mono (r := r) rfl hactors rfl rfl (h.role u hu)
    · exact TagsFrom.mono (r := r) rfl hactors (h.tagged u hu)
  | ok db =>
    obtain ⟨hmanage, htags, hrows⟩ := serve_row h.ids hgrants hactor hserve
    have hids := (Users.serve_below h.ids hmem (hgrants.2 actor hactor) hserve).ids
    refine ⟨hids, htags.trans h.tags, fun u hu => ?_, fun u hu => ?_⟩
    · cases hrows u hu with
      | kept hold => exact RoleFrom.mono (r := r) rfl hactors rfl rfl (h.role u hold)
      | self hid hrole _ => exact RoleFrom.mono (r := r) rfl hactors hid hrole (h.role actor hmem)
      | below hne hlt _ => exact .inr ⟨actor, hin, hmanage, fun heq => hne heq.symm, hlt⟩
    · cases hrows u hu with
      | kept hold => exact TagsFrom.mono (r := r) rfl hactors (h.tagged u hold)
      | self hid _ hsub => exact .inr ⟨h.tags ▸ hsub, actor, .inr ⟨hin, hmanage, hid.symm⟩⟩
      | below hne hlt hsub => exact .inr ⟨h.tags ▸ hsub, actor, .inl ⟨hin, hmanage, fun heq => hne heq.symm, hlt⟩⟩

theorem origins (h : (system roles).Reach (grants roles) r) : Origins roles r := by
  refine System.Reach.invariant ?_ (fun r e r' hr hok hs => hr.step hok hs) h
  rintro r ⟨hdb, -, hids⟩
  refine ⟨hids, by rw [hdb], fun u hu => ?_, fun u hu => ?_⟩
  · exact .inl ⟨u, hdb ▸ hu, rfl, rfl⟩
  · exact .inl ⟨u, hdb ▸ hu, rfl, rfl⟩

theorem can_of_roleId {v : User} (h : v.roleId = u.roleId) (flag : Role → Bool) : v.can roles flag = u.can roles flag := by
  unfold User.can User.isSuperAdmin
  rw [h]

/-- A user below the admin tier has access by its tags. -/
theorem tag_of_mayAccessGuest {guest : Guest} (hadmin : u.isAdmin roles = false) (h : mayAccessGuest roles u guest = true) :
    ∃ tag ∈ guest.tags, tag.1 ∈ u.allowedTags := by
  unfold mayAccessGuest canAccessGuest at h
  have hsuper : u.isSuperAdmin roles = false := by
    by_contra hsuper
    have hlevel : (4 : Int) ≤ u.roleLevel roles := by
      obtain ⟨role, hrole, hname⟩ := (Option.any_eq_true _ _).1 (by simpa using hsuper : u.isSuperAdmin roles = true)
      have htop := roles.top role (List.mem_of_find?_eq_some hrole) (by simpa using hname)
      rw [User.roleLevel, Users.levelOf, hrole]
      exact Int.le_of_eq htop.symm
    have : u.isAdmin roles = true := by
      unfold User.isAdmin
      rw [decide_eq_true_eq]
      omega
    rw [this] at hadmin
    cases hadmin
  rw [hadmin, hsuper, Bool.false_or, Bool.false_or, List.any_eq_true] at h
  obtain ⟨tag, htag, hallowed⟩ := h
  exact ⟨tag, htag, by simpa using hallowed⟩

theorem mayAccessGuest_of_tag {guest : Guest} {tag : Nat × Text} (htag : tag ∈ guest.tags) (h : tag.1 ∈ u.allowedTags) :
    mayAccessGuest roles u guest = true := by
  unfold mayAccessGuest canAccessGuest
  rw [Bool.or_eq_true, Bool.or_eq_true, List.any_eq_true]
  exact .inr (.inr ⟨tag, htag, by simpa using h⟩)

/-- In every run of `add_user` and `edit_user` by actors who are not `super_admin`: a user has the role it had, or one below an actor
other than itself, so it gains no flag but those of roles below an actor; and a user below the admin tier gains access to a guest only
by a tag that it or an actor above it has given. -/
theorem grants_below (h : (system roles).Reach (grants roles) r) (u : User) (hu : u ∈ r.db.users) :
    RoleFrom roles r u ∧
    (∀ flag, u.can roles flag = true →
      (∃ v ∈ r.start.users, v.id = u.id ∧ v.can roles flag = true) ∨ ∃ a, Above roles r u a) ∧
    ∀ guest, u.isAdmin roles = false → mayAccessGuest roles u guest = true →
      (∃ v ∈ r.start.users, v.id = u.id ∧ mayAccessGuest roles v guest = true) ∨
        (∃ tag ∈ guest.tags, tag.1 ∈ u.allowedTags ∧ tag.1 ∈ r.start.tags) ∧ ∃ a, MayTag roles r u a := by
  have horigins := origins h
  refine ⟨horigins.role u hu, fun flag hflag => ?_, fun guest hadmin haccess => ?_⟩
  · rcases horigins.role u hu with ⟨v, hv, hid, hrole⟩ | habove
    · exact .inl ⟨v, hv, hid, (can_of_roleId hrole flag).trans hflag⟩
    · exact .inr habove
  · obtain ⟨tag, htag, hallowed⟩ := tag_of_mayAccessGuest hadmin haccess
    rcases horigins.tagged u hu with ⟨v, hv, hid, htags⟩ | ⟨hsub, hgiven⟩
    · exact .inl ⟨v, hv, hid, mayAccessGuest_of_tag htag (htags ▸ hallowed)⟩
    · exact .inr ⟨⟨tag, htag, hallowed, hsub hallowed⟩, hgiven⟩

end

/-! ### What is given -/

/-- The flags of `Role.PERMISSION_FIELDS` that the model keeps. -/
def permissionFields : List (Role → Bool) := [Role.canManageUsers, Role.canManageGuests, Role.canViewGuests]

/-- No user has a permission flag that neither it had nor any actor has. -/
def GrantsNoFlag (roles : RoleTable) (r : Run) : Prop :=
  ∀ u ∈ r.db.users, ∀ flag ∈ permissionFields, u.can roles flag = true →
    (∃ v ∈ r.start.users, v.id = u.id ∧ v.can roles flag = true) ∨ ∃ a ∈ r.actors, a.can roles flag = true

/-- No user below the admin tier may access a guest that neither it nor any actor could at the beginning. -/
def GrantsNoAccess (roles : RoleTable) (r : Run) : Prop :=
  ∀ u ∈ r.db.users, ∀ guest, u.isAdmin roles = false → mayAccessGuest roles u guest = true →
    ∃ v ∈ r.start.users, (v.id = u.id ∨ ∃ a ∈ r.actors, a.id = v.id) ∧ mayAccessGuest roles v guest = true

/-- A helpdesk role that manages users only, and a role of the viewer tier that manages guests. -/
def exampleRoles : RoleTable where
  rows := [⟨1, Users.superAdmin, 4, true, true, true, true⟩, ⟨4, "viewer".toList, 1, true, false, false, true⟩,
    ⟨5, "helpdesk".toList, 2, false, true, false, false⟩, ⟨6, "caretaker".toList, 1, false, false, true, false⟩]
  ids := by decide
  seeded := by decide
  top := by decide
  bound := by decide

/-- A `super_admin` and a helpdesk user without tags. -/
def exampleDatabase : Database :=
  ⟨[Users.exampleUser 1 "root".toList 1, Users.exampleUser 2 "bob".toList 5], [], [7]⟩

def exampleGuest : Guest := ⟨"db".toList, "ct".toList, some 100, none, [(7, "production".toList)], none, none, none⟩

/-- The tables after the two requests. -/
def exampleRun : Run where
  db := ⟨[Users.exampleUser 1 "root".toList 1, { Users.exampleUser 2 "bob".toList 5 with allowedTags := [7] },
    { Users.exampleUser 3 "carol".toList 6 with tokensValidAfter := some 0 }], [], [7]⟩
  start := exampleDatabase
  actors := [Users.exampleUser 2 "bob".toList 5, Users.exampleUser 2 "bob".toList 5]

theorem exampleRun_reached : (system exampleRoles).Reach (grants exampleRoles) exampleRun := by
  have h0 : (system exampleRoles).Reach (grants exampleRoles) ⟨exampleDatabase, exampleDatabase, []⟩ :=
    System.Reach.init ⟨rfl, rfl, by decide⟩
  have h1 := h0.next ⟨2, 0, .add ⟨"carol".toList, [], "password".toList, "6".toList, []⟩⟩ ⟨trivial, by
    intro actor hactor
    cases hactor
    decide⟩ rfl
  have h2 := h1.next ⟨2, 0, .edit 2 ⟨none, true, [], ["7".toList], []⟩⟩ ⟨trivial, by
    intro actor hactor
    cases hactor
    decide⟩ rfl
  exact h2

/-- The caretaker can manage guests, as the helpdesk user cannot; and the helpdesk user has access to a guest that it had not. -/
theorem example_grants : (system exampleRoles).Reach (grants exampleRoles) exampleRun ∧
    ¬ GrantsNoFlag exampleRoles exampleRun ∧ ¬ GrantsNoAccess exampleRoles exampleRun := by
  refine ⟨exampleRun_reached, fun hflag => ?_, fun haccess => ?_⟩
  · have hnot : ¬ ((∃ v ∈ exampleRun.start.users, v.id = 3 ∧ v.can exampleRoles Role.canManageGuests = true) ∨
        ∃ a ∈ exampleRun.actors, a.can exampleRoles Role.canManageGuests = true) := by decide +kernel
    exact hnot (hflag { Users.exampleUser 3 "carol".toList 6 with tokensValidAfter := some 0 }
      (by decide +kernel) Role.canManageGuests (.tail _ (.head _)) (by decide +kernel))
  · have hnot : ¬ ∃ v ∈ exampleRun.start.users, (v.id = 2 ∨ ∃ a ∈ exampleRun.actors, a.id = v.id) ∧
        mayAccessGuest exampleRoles v exampleGuest = true := by decide +kernel
    exact hnot (haccess { Users.exampleUser 2 "bob".toList 5 with allowedTags := [7] } (by decide +kernel) exampleGuest
      (by decide +kernel) (by decide +kernel))

theorem example_origin : ∃ a, Above exampleRoles exampleRun { Users.exampleUser 3 "carol".toList 6 with tokensValidAfter := some 0 } a := by
  rcases (grants_below exampleRun_reached _ (by decide +kernel : { Users.exampleUser 3 "carol".toList 6 with
    tokensValidAfter := some 0 } ∈ exampleRun.db.users)).1 with ⟨v, hv, hid, -⟩ | habove
  · have hnot : ¬ ∃ v ∈ exampleRun.start.users, v.id = 3 := by decide +kernel
    exact absurd ⟨v, hv, hid⟩ hnot
  · exact habove

end ProxmoxTool.Grants
