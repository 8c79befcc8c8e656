import ProxmoxTool.Lib.System
import Mathlib.Data.List.Basic
import Mathlib.Logic.Function.Basic

/-!
# One-time backfills of permissions

The migrations of the `roles` table at the start of the application (`create_app`), statement by statement: a statement completes or fails,
and the process may be killed before any of them.  A migration that fails is logged and the boot goes on.  SQLite commits an `ALTER TABLE` at
once, so a column may outlive the boot that was to fill it.

A row remembers what it was before the upgrade, how often a backfill has granted it each permission, and what an administrator has chosen.
The next boot takes a column that is there for one that has been filled: `backfilled_once`.
-/

namespace ProxmoxTool.Backfills

/-- The permission columns that a boot adds to `roles`. -/
inductive Permission
  | viewIpmi | manageIpmi | moderate | useAi | viewGuests | moderateStaff | maintainMastodonAccounts
deriving DecidableEq

def allPermissions : List Permission :=
  [.viewIpmi, .manageIpmi, .moderate, .useAi, .viewGuests, .moderateStaff, .maintainMastodonAccounts]

theorem mem_allPermissions (p : Permission) : p ∈ allPermissions := by
  cases p <;> decide

/-- The columns with an `UPDATE` of its own behind the `ALTER TABLE`. -/
def backfilled : List Permission := [.viewIpmi, .manageIpmi, .viewGuests, .moderateStaff, .maintainMastodonAccounts]

structure Role where
  name : String
  level : Int
  permissions : Permission → Bool

/-- The `WHERE` of the backfill; `can_use_ai` has none. -/
def condition (p : Permission) (role : Role) : Bool :=
  match p with
  | .viewIpmi | .manageIpmi | .moderate => role.name ∈ ["super_admin", "admin"]
  | .useAi => false
  | .viewGuests => true
  | .moderateStaff | .maintainMastodonAccounts => 3 ≤ role.level

/-- A row of `roles`. -/
structure Row where
  id : Nat
  role : Role
  origin : Option Role := none
  granted : Permission → Nat := fun _ => 0
  chosen : Permission → Option Bool := fun _ => none

/-- `ADD COLUMN … DEFAULT 0`. -/
def Row.alter (p : Permission) (row : Row) : Row :=
  { row with role := { row.role with permissions := Function.update row.role.permissions p false } }

/-- `UPDATE roles SET … = 1 WHERE …`, for each of the permissions. -/
def Row.grant (ps : List Permission) (row : Row) : Row :=
  { row with
    role := { row.role with permissions := fun p => row.role.permissions p || p ∈ ps && condition p row.role }
    granted := fun p => row.granted p + if p ∈ ps ∧ condition p row.role = true then 1 else 0 }

/-- An administrator saves the role. -/
def Row.save (role : Role) (row : Row) : Row := { row with role := role, chosen := fun p => some (role.permissions p) }

/-- The permissions of `DEFAULT_ROLES` that a boot adds. -/
def defaultRoles : List Role :=
  [⟨"super_admin", 4, fun _ => true⟩,
    ⟨"admin", 3, fun _ => true⟩,
    ⟨"operator", 2, fun p => p = .viewIpmi ∨ p = .viewGuests⟩,
    ⟨"viewer", 1, fun p => p = .viewGuests⟩,
    ⟨"moderator", 2, fun p => p = .moderate⟩]

def freshId (rows : List Row) : Nat := (rows.map Row.id).foldr max 0 + 1

/-- `db.session.add` of roles, in order. -/
def insertRoles (rows : List Row) (roles : List Role) : List Row :=
  roles.foldl (fun rows role => rows ++ [{ id := freshId rows, role := role }]) rows

/-! ### Boots -/

/-- The parts of `create_app` in order; `unrelated` is a migration that leaves `roles` alone. -/
inductive Task
  | createAll
  | addColumn (p : Permission)
  | backfill (ps : List Permission)
  | moderation
  | unrelated (name : String)
  | seedRoles
  | moderatorRole
  | defaultAdmin
deriving DecidableEq

def program : List Task :=
  [.createAll,
    .addColumn .viewIpmi, .addColumn .manageIpmi, .backfill [.viewIpmi, .manageIpmi], .unrelated "_migrate_ipmi_columns",
    .moderation,
    .addColumn .useAi,
    .unrelated "_migrate_smcipmi_to_ipmi_exporter", .unrelated "_migrate_guest_lock_column", .unrelated "_migrate_user_security_columns",
    .addColumn .viewGuests, .backfill [.viewGuests],
    .addColumn .moderateStaff, .backfill [.moderateStaff],
    .addColumn .maintainMastodonAccounts, .backfill [.maintainMastodonAccounts],
    .unrelated "_ensure_guest_vmid_unique_index",
    .seedRoles, .moderatorRole, .defaultAdmin]

inductive Stage
  | begin | alter | update | commit
deriving DecidableEq

/-- `added` are the columns for which `_add_column_if_missing` has returned `True`, `owed` those that this boot has added and not filled
yet; `clean` says that no statement has failed. -/
structure Boot where
  tasks : List Task
  stage : Stage := .begin
  added : List Permission := []
  owed : List Permission := []
  clean : Bool := true

inductive Process
  | down
  | booting (boot : Boot)
  | serving

/-- `missing` are the columns that were missing before the upgrade; `completed` is set once a boot has completed without a failure. -/
structure State where
  columns : List Permission
  roles : List Row
  missing : List Permission
  process : Process := .down
  completed : Bool := false

inductive Event
  | start
  | kill
  | go
  | fail
  | save (id : Nat) (role : Role)
  | add (role : Role)
  | delete (id : Nat)

/-- The task is done. -/
def State.finish (s : State) (boot : Boot) : State :=
  match boot.tasks.tail with
  | [] => { s with process := .serving, completed := s.completed || boot.clean }
  | task :: rest => { s with process := .booting { boot with tasks := task :: rest, stage := .begin } }

def State.goto (s : State) (boot : Boot) (stage : Stage) : State := { s with process := .booting { boot with stage := stage } }

def State.alter (s : State) (p : Permission) : State := { s with columns := p :: s.columns, roles := s.roles.map (Row.alter p) }

def State.grant (s : State) (ps : List Permission) : State := { s with roles := s.roles.map (Row.grant ps) }

/-- The columns that the model of a role has are all there, so a query for roles works. -/
def State.upToDate (s : State) : Bool := allPermissions.all (· ∈ s.columns)

/-- The next statement completes. -/
def State.go (s : State) (boot : Boot) (task : Task) : Option State :=
  match task, boot.stage with
  | .createAll, .begin => some (s.finish boot)
  -- `_add_column_if_missing`
  | .addColumn p, .begin => some (if p ∈ s.columns then s.finish boot else s.goto boot .alter)
  | .addColumn p, .alter =>
    some ((s.alter p).goto { boot with owed := if p ∈ backfilled then p :: boot.owed else boot.owed } .commit)
  | .addColumn p, .commit => some (s.finish { boot with added := p :: boot.added })
  -- the `UPDATE`s behind it
  | .backfill ps, .begin => some (if ps.any (· ∈ boot.added) then s.goto boot .update else s.finish boot)
  | .backfill _, .update => some (s.goto boot .commit)
  | .backfill ps, .commit =>
    some ((s.grant (ps.filter (· ∈ boot.added))).finish { boot with owed := boot.owed.filter (· ∉ ps) })
  -- `_migrate_moderation_columns`
  | .moderation, .begin => some (if .moderate ∈ s.columns then s.finish boot else s.goto boot .alter)
  | .moderation, .alter => some ((s.alter .moderate).goto boot .update)
  | .moderation, .update => some (s.goto boot .commit)
  | .moderation, .commit => some ((s.grant [.moderate]).finish boot)
  | .unrelated _, .begin => some (s.finish boot)
  | .seedRoles, .begin =>
    if s.upToDate then some (if s.roles = [] then s.goto boot .commit else s.finish boot) else none
  | .seedRoles, .commit => some ({ s with roles := insertRoles s.roles defaultRoles }.finish boot)
  | .moderatorRole, .begin =>
    if s.upToDate then some (if s.roles.any (·.role.name = "moderator") then s.finish boot else s.goto boot .commit) else none
  | .moderatorRole, .commit =>
    some ({ s with roles := insertRoles s.roles (defaultRoles.filter (·.name = "moderator")) }.finish boot)
  | .defaultAdmin, .begin => some (s.finish boot)
  | _, _ => none

/-- The next statement fails: the migrations catch it, the other parts of `create_app` do not. -/
def State.fail (s : State) (boot : Boot) (task : Task) : Option State :=
  match task, boot.stage with
  | .createAll, _ | .seedRoles, _ | .defaultAdmin, _ => some { s with process := .down }
  | .backfill _, .begin => none
  | .addColumn _, _ | .backfill _, _ | .moderation, _ | .unrelated _, _ | .moderatorRole, _ => some (s.finish { boot with clean := false })

def step (s : State) (e : Event) : Option State :=
  match e, s.process with
  | .start, .down => some { s with process := .booting { tasks := program } }
  | .kill, .booting _ | .kill, .serving => some { s with process := .down }
  | .go, .booting boot => boot.tasks.head?.bind (s.go boot)
  | .fail, .booting boot => boot.tasks.head?.bind (s.fail boot)
  | .save id role, .serving => some { s with roles := s.roles.map fun row => if row.id = id then row.save role else row }
  | .add role, .serving =>
    some { s with roles := s.roles ++ [{ id := freshId s.roles, role := role, chosen := fun p => some (role.permissions p) }] }
  | .delete id, .serving => some { s with roles := s.roles.filter (·.id ≠ id) }
  | _, _ => none

/-- The roles are those from before the upgrade. -/
def system : System State Event where
  init s := s.process = .down ∧ s.completed = false ∧ (∀ p, p ∈ s.missing ↔ p ∉ s.columns) ∧
    ∀ row ∈ s.roles, row.origin = some row.role ∧ (∀ p, row.granted p = 0) ∧ ∀ p, row.chosen p = none
  step := step

/-! ### Once and for all -/

structure BackfilledOnce (s : State) : Prop where
  /-- After a boot without failures every role from before the upgrade has been granted what it is entitled to, once. -/
  granted : s.completed = true → ∀ row ∈ s.roles, ∀ old, row.origin = some old → ∀ p ∈ s.missing, p ∈ backfilled →
    row.granted p = (condition p old).toNat
  held : s.completed = true → ∀ row ∈ s.roles, ∀ old, row.origin = some old → ∀ p ∈ s.missing, p ∈ backfilled →
    condition p old = true → row.chosen p = none → row.role.permissions p = true
  /-- A role that has been inserted is granted nothing; so the moderator role does not get `can_view_guests`. -/
  inserted : ∀ row ∈ s.roles, row.origin = none → ∀ p, row.granted p = 0
  chosen : ∀ row ∈ s.roles, ∀ p v, row.chosen p = some v → row.role.permissions p = v

/-- A failure or the end of the process here leaves a column that is never filled. -/
def Boot.dropsOnFailure (boot : Boot) : Bool :=
  match boot.tasks.head?, boot.stage with
  | some (.addColumn p), .commit => p ∈ boot.owed
  | some (.backfill _), _ => true
  | some .createAll, _ | some .seedRoles, _ | some .defaultAdmin, _ => boot.owed ≠ []
  | _, _ => false

/-- Nothing ends the migration between the `ALTER TABLE` that adds a column and the commit of its backfill. -/
def FillsColumns (s : State) : Event → Prop
  | .kill => ∀ boot, s.process = .booting boot → boot.owed = []
  | .fail => ∀ boot, s.process = .booting boot → boot.dropsOnFailure = false
  | _ => True

/-! ### Rows -/

/-- The row is from before the upgrade, and no administrator has saved it since. -/
def Row.Untouched (row : Row) : Prop := row.origin ≠ none ∧ ∀ p, row.chosen p = none

/-- What a row has been granted when the columns `filled` have been filled. -/
structure RowInv (missing : List Permission) (filled : Permission → Bool) (row : Row) : Prop where
  inserted : row.origin = none → ∀ p, row.granted p = 0
  chosen : ∀ p v, row.chosen p = some v → row.role.permissions p = v
  same : ∀ old, row.origin = some old → (∀ p, row.chosen p = none) → ∀ p, condition p row.role = condition p old
  granted : ∀ old, row.origin = some old → ∀ p ∈ missing, p ∈ backfilled → row.granted p = (filled p && condition p old).toNat
  held : ∀ old, row.origin = some old → ∀ p ∈ missing, p ∈ backfilled → filled p = true → condition p old = true →
    row.chosen p = none → row.role.permissions p = true

variable {missing : List Permission} {filled filled' : Permission → Bool} {row : Row}

theorem RowInv.congr (h : RowInv missing filled row) (heq : ∀ p ∈ missing, p ∈ backfilled → filled' p = filled p) :
    RowInv missing filled' row where
  inserted := h.inserted
  chosen := h.chosen
  same := h.same
  granted old ho p hp hb := by
    rw [heq p hp hb]
    exact h.granted old ho p hp hb
  held old ho p hp hb hf := by
    rw [heq p hp hb] at hf
    exact h.held old ho p hp hb hf

/-- The condition reads the name and the level. -/
theorem condition_congr {role role' : Role} (hname : role.name = role'.name) (hlevel : role.level = role'.level) (p : Permission) :
    condition p role = condition p role' := by
  unfold condition
  rw [hname, hlevel]

theorem RowInv.alter (h : RowInv missing filled row) (hrow : row.Untouched) {p : Permission} (hp : p ∈ backfilled → filled p = false) :
    RowInv missing filled (row.alter p) where
  inserted := h.inserted
  chosen q v hv := by
    rw [show (row.alter p).chosen q = none from hrow.2 q] at hv
    cases hv
  same old ho hc q := (condition_congr rfl rfl q).trans (h.same old ho hc q)
  granted := h.granted
  held old ho q hq hb hf hcond hc := by
    have hne : q ≠ p := by
      rintro rfl
      rw [hp hb] at hf
      cases hf
    change Function.update row.role.permissions p false q = true
    rw [Function.update_of_ne hne]
    exact h.held old ho q hq hb hf hcond hc

theorem RowInv.grant (h : RowInv missing filled row) (hrow : row.Untouched) {ps : List Permission}
    (hps : ∀ p ∈ ps, p ∈ backfilled → filled p = false) : RowInv missing (fun p => filled p || p ∈ ps) (row.grant ps) where
  inserted ho := absurd ho hrow.1
  chosen q v hv := by
    rw [show (row.grant ps).chosen q = none from hrow.2 q] at hv
    cases hv
  same old ho hc q := (condition_congr rfl rfl q).trans (h.same old ho hc q)
  granted old ho q hq hb := by
    have hsame := h.same old ho hrow.2 q
    have hbefore := h.granted old ho q hq hb
    change row.granted q + (if q ∈ ps ∧ condition q row.role = true then 1 else 0) = _
    rw [hbefore, hsame]
    by_cases hmem : q ∈ ps
    · rw [hps q hmem hb]
      cases condition q old <;> simp [hmem]
    · simp [hmem]
  held old ho q hq hb hf hcond hc := by
    change (row.role.permissions q || q ∈ ps && condition q row.role) = true
    by_cases hmem : q ∈ ps
    · rw [h.same old ho hrow.2 q, hcond]
      simp [hmem]
    · have hf : filled q = true := by simpa [hmem] using hf
      rw [h.held old ho q hq hb hf hcond hc]
      rfl

theorem RowInv.save (h : RowInv missing filled row) (role : Role) : RowInv missing filled (row.save role) where
  inserted := h.inserted
  chosen _ _ hv := Option.some.inj hv
  same old _ hc := by cases hc .viewIpmi
  granted := h.granted
  held old _ p _ _ _ _ hc := by cases hc

/-- A row that has been inserted. -/
theorem RowInv.insert (horigin : row.origin = none) (hgranted : ∀ p, row.granted p = 0)
    (hchosen : ∀ p v, row.chosen p = some v → row.role.permissions p = v) : RowInv missing filled row where
  inserted _ := hgranted
  chosen := hchosen
  same old ho := by
    rw [horigin] at ho
    cases ho
  granted old ho := by
    rw [horigin] at ho
    cases ho
  held old ho := by
    rw [horigin] at ho
    cases ho

theorem rowInv_insertRoles {rows : List Row} (h : ∀ row ∈ rows, RowInv missing filled row) (roles : List Role) :
    ∀ row ∈ insertRoles rows roles, RowInv missing filled row := by
  induction roles generalizing rows with
  | nil => exact h
  | cons role roles ih =>
    refine ih fun row hrow => ?_
    rcases List.mem_append.1 hrow with hrow | hrow
    · exact h row hrow
    · rw [List.mem_singleton.1 hrow]
      exact .insert rfl (fun _ => rfl) fun _ _ hv => (by cases hv)

/-! ### The order of the tasks -/

/-- A column that is added is filled later on, once, and nothing is filled behind the roles that are inserted. -/
def Task.before (rest : List Task) : Task → Bool
  | .addColumn p => p ∉ backfilled || rest.any fun | .backfill ps => p ∈ ps | _ => false
  | .backfill ps => (ps.all (· ∈ backfilled)) && rest.all fun | .backfill ps' => ps.all (· ∉ ps') | _ => true
  | .seedRoles | .moderatorRole => rest.all fun | .backfill _ => false | _ => true
  | _ => true

def planned : List Task → Bool
  | [] => true
  | task :: rest => planned rest && task.before rest

theorem planned_cons (task : Task) (rest : List Task) : planned (task :: rest) = (planned rest && task.before rest) := rfl

theorem planned_program : planned program = true := by decide

variable {task : Task} {rest : List Task} {p : Permission} {ps ps' : List Permission}

theorem planned_tail (h : planned (task :: rest) = true) : planned rest = true := by
  rw [planned_cons, Bool.and_eq_true] at h
  exact h.1

theorem planned_addColumn (h : planned (.addColumn p :: rest) = true) (hp : p ∈ backfilled) : ∃ ps, .backfill ps ∈ rest ∧ p ∈ ps := by
  rw [planned_cons, Bool.and_eq_true] at h
  have hany := h.2
  simp only [Task.before, hp, not_true_eq_false, decide_false, Bool.false_or, List.any_eq_true] at hany
  obtain ⟨task, htask, hmem⟩ := hany
  cases task with
  | backfill ps => exact ⟨ps, htask, of_decide_eq_true hmem⟩
  | _ => cases hmem

theorem planned_backfill (h : planned (.backfill ps :: rest) = true) (hp : p ∈ ps) :
    p ∈ backfilled ∧ ∀ ps', .backfill ps' ∈ rest → p ∉ ps' := by
  rw [planned_cons, Bool.and_eq_true, Task.before, Bool.and_eq_true, List.all_eq_true, List.all_eq_true] at h
  refine ⟨of_decide_eq_true (h.2.1 p hp), fun ps' hps' => ?_⟩
  have hall := h.2.2 _ hps'
  exact of_decide_eq_true (List.all_eq_true.1 hall p hp)

theorem planned_insert (h : planned (task :: rest) = true) (htask : task = .seedRoles ∨ task = .moderatorRole) : .backfill ps ∉ rest := by
  intro hmem
  rcases htask with rfl | rfl
  · rw [planned_cons, Bool.and_eq_true, Task.before, List.all_eq_true] at h
    cases h.2 _ hmem
  · rw [planned_cons, Bool.and_eq_true, Task.before, List.all_eq_true] at h
    cases h.2 _ hmem

theorem backfilled_of_planned {tasks : List Task} (h : planned tasks = true) (hmem : .backfill ps ∈ tasks) (hp : p ∈ ps) :
    p ∈ backfilled := by
  induction tasks with
  | nil => cases hmem
  | cons task rest ih =>
    rcases List.mem_cons.1 hmem with rfl | hmem
    · exact (planned_backfill h hp).1
    · exact ih (planned_tail h) hmem

/-! ### The invariant -/

/-- The columns that are there and have been filled. -/
def filledColumns (columns owed : List Permission) (p : Permission) : Bool := p ∈ columns && p ∉ owed

/-- All columns are there, and the rest of the boot grants nothing. -/
structure Settled (s : State) (boot : Boot) : Prop where
  columns : ∀ p, p ∈ s.columns
  nothing : ∀ ps, .backfill ps ∈ boot.tasks → ∀ p ∈ ps, p ∉ boot.added
  between : boot.stage = .begin ∨ boot.tasks.head? = some .seedRoles ∨ boot.tasks.head? = some .moderatorRole

/-- The invariant in a boot; what is owed has been added, or is just being added. -/
structure Going (s : State) (boot : Boot) : Prop where
  rows : ∀ row ∈ s.roles, RowInv s.missing (filledColumns s.columns boot.owed) row
  touched : Settled s boot ∨ ∀ row ∈ s.roles, row.Untouched
  planned : planned boot.tasks = true
  owed : ∀ p ∈ boot.owed, p ∈ s.columns ∧ (∃ ps, .backfill ps ∈ boot.tasks ∧ p ∈ ps) ∧
    (p ∈ boot.added ∨ boot.tasks.head? = some (.addColumn p) ∧ boot.stage = .commit)
  added : ∀ p ∈ boot.added, ∀ ps, .backfill ps ∈ boot.tasks → p ∈ ps → p ∈ boot.owed
  altering : ∀ p, boot.tasks.head? = some (.addColumn p) → boot.stage = .alter → p ∉ s.columns
  committing : ∀ p, boot.tasks.head? = some (.addColumn p) → boot.stage = .commit → p ∈ backfilled → p ∈ boot.owed
  inserting : boot.tasks.head? = some .seedRoles ∨ boot.tasks.head? = some .moderatorRole → boot.stage = .commit → ∀ p, p ∈ s.columns
  passed : .seedRoles ∈ boot.tasks ∨ ∀ p, p ∈ s.columns
  completed : s.completed = true → (∀ p, p ∈ s.columns) ∧ boot.owed = []

/-- The invariant between boots. -/
structure Resting (s : State) : Prop where
  rows : ∀ row ∈ s.roles, RowInv s.missing (filledColumns s.columns []) row
  touched : (∀ p, p ∈ s.columns) ∨ ∀ row ∈ s.roles, row.Untouched
  completed : s.completed = true → ∀ p, p ∈ s.columns

def Inv (s : State) : Prop :=
  match s.process with
  | .down => Resting s
  | .booting boot => Going s boot
  | .serving => Resting s ∧ ∀ p, p ∈ s.columns

variable {s s' : State} {boot : Boot} {e : Event}

/-- What a task leaves to the rest of the boot. -/
structure Done (s : State) (boot : Boot) (rest : List Task) : Prop where
  rows : ∀ row ∈ s.roles, RowInv s.missing (filledColumns s.columns boot.owed) row
  touched : ((∀ p, p ∈ s.columns) ∧ ∀ ps, .backfill ps ∈ rest → ∀ p ∈ ps, p ∉ boot.added) ∨ ∀ row ∈ s.roles, row.Untouched
  owed : ∀ p ∈ boot.owed, p ∈ s.columns ∧ (∃ ps, .backfill ps ∈ rest ∧ p ∈ ps) ∧ p ∈ boot.added
  added : ∀ p ∈ boot.added, ∀ ps, .backfill ps ∈ rest → p ∈ ps → p ∈ boot.owed
  passed : .seedRoles ∈ rest ∨ ∀ p, p ∈ s.columns
  completed : s.completed = true → (∀ p, p ∈ s.columns) ∧ boot.owed = []

theorem Done.finish (h : Done s boot rest) (hplanned : Backfills.planned rest = true) (htail : boot.tasks.tail = rest) :
    Inv (s.finish boot) := by
  unfold State.finish
  rw [htail]
  cases rest with
  | nil =>
    have howed : boot.owed = [] := by
      refine List.eq_nil_iff_forall_not_mem.2 fun p hp => ?_
      obtain ⟨ps, hps, -⟩ := (h.owed p hp).2.1
      cases hps
    have hcolumns : ∀ p, p ∈ s.columns := h.passed.resolve_left List.not_mem_nil
    refine ⟨⟨fun row hrow => ?_, .inl hcolumns, fun _ => hcolumns⟩, hcolumns⟩
    have hrow := h.rows row hrow
    rw [howed] at hrow
    exact hrow
  | cons task rest =>
    exact {
      rows := h.rows
      touched := h.touched.imp_left fun hq => ⟨hq.1, hq.2, .inl rfl⟩
      planned := hplanned
      owed := fun p hp => ⟨(h.owed p hp).1, (h.owed p hp).2.1, .inl (h.owed p hp).2.2⟩
      added := h.added
      altering := fun _ _ hs => by cases hs
      committing := fun _ _ hs => by cases hs
      inserting := fun _ hs => by cases hs
      passed := h.passed
      completed := h.completed }

/-- The task is not the one that has seeded the roles, or the columns are there. -/
theorem Going.passed_rest (h : Going s boot) (htasks : boot.tasks = task :: rest) (hpassed : task = .seedRoles → ∀ p, p ∈ s.columns) :
    .seedRoles ∈ rest ∨ ∀ p, p ∈ s.columns := by
  have hpass := h.passed
  rw [htasks] at hpass
  rcases hpass with hmem | hcolumns
  · rcases List.mem_cons.1 hmem with heq | hmem
    · exact .inr (hpassed heq.symm)
    · exact .inl hmem
  · exact .inr hcolumns

theorem mem_tasks (htasks : boot.tasks = task :: rest) {task' : Task} (h : task' ∈ rest) : task' ∈ boot.tasks := by
  rw [htasks]
  exact List.mem_cons_of_mem _ h

theorem untouched_map {rows : List Row} (hrows : ∀ row ∈ rows, row.Untouched) {f : Row → Row}
    (hf : ∀ row, row.Untouched → (f row).Untouched) : ∀ row ∈ rows.map f, row.Untouched := by
  intro row hrow
  obtain ⟨old, hold, rfl⟩ := List.mem_map.1 hrow
  exact hf old (hrows old hold)

/-- A task that leaves everything as it is, but has not been the one that is just adding a column. -/
theorem Going.done (h : Going s boot) (htasks : boot.tasks = task :: rest) (hbackfill : ∀ ps, task ≠ .backfill ps)
    (hadding : ∀ p, task = .addColumn p → boot.stage = .commit → p ∉ boot.owed)
    (hpassed : task = .seedRoles → ∀ p, p ∈ s.columns) (clean : Bool) : Done s { boot with clean := clean } rest where
  rows := h.rows
  touched := by
    exact h.touched.imp_left fun hq => ⟨hq.columns, fun ps hps => hq.nothing ps (mem_tasks htasks hps)⟩
  owed p hp := by
    obtain ⟨hcolumn, ⟨ps, hps, hmem⟩, hadded⟩ := h.owed p hp
    rw [htasks] at hps hadded
    refine ⟨hcolumn, ⟨ps, (List.mem_cons.1 hps).resolve_left (hbackfill ps).symm, hmem⟩, ?_⟩
    refine hadded.resolve_right fun hnow => ?_
    exact hadding p (Option.some.inj hnow.1) hnow.2 hp
  added p hp ps hps := h.added p hp ps (mem_tasks htasks hps)
  passed := h.passed_rest htasks hpassed
  completed := h.completed

theorem Going.planned_rest (h : Going s boot) (htasks : boot.tasks = task :: rest) : Backfills.planned rest = true := by
  have hplanned := h.planned
  rw [htasks] at hplanned
  exact planned_tail hplanned

/-- The task is done and has changed nothing. -/
theorem Going.skip (h : Going s boot) (htasks : boot.tasks = task :: rest) (hbackfill : ∀ ps, task ≠ .backfill ps)
    (hadding : ∀ p, task = .addColumn p → boot.stage = .commit → p ∉ boot.owed)
    (hpassed : task = .seedRoles → ∀ p, p ∈ s.columns) (clean : Bool) : Inv (s.finish { boot with clean := clean }) :=
  (h.done htasks hbackfill hadding hpassed clean).finish (h.planned_rest htasks) (by rw [htasks]; rfl)

/-! ### Statements -/

theorem Going.untouched (h : Going s boot) (hstage : boot.stage ≠ .begin) (htasks : boot.tasks = task :: rest)
    (hseed : task ≠ .seedRoles) (hmoderator : task ≠ .moderatorRole) : ∀ row ∈ s.roles, row.Untouched := by
  refine h.touched.resolve_left fun hq => ?_
  have hbetween := hq.between
  rw [htasks] at hbetween
  rcases hbetween with hb | hb | hb
  · exact hstage hb
  · exact hseed (Option.some.inj hb)
  · exact hmoderator (Option.some.inj hb)

/-- The next statement of a task that is no `addColumn` and does not insert. -/
theorem Going.goto (h : Going s boot) (htasks : boot.tasks = task :: rest) (hadd : ∀ p, task ≠ .addColumn p)
    (hinsert : task = .seedRoles ∨ task = .moderatorRole → ∀ p, p ∈ s.columns)
    (hrows : (task = .seedRoles ∨ task = .moderatorRole) ∨ ∀ row ∈ s.roles, row.Untouched) (stage : Stage) :
    Inv (s.goto boot stage) := by
  have hhead : ∀ p, boot.tasks.head? ≠ some (.addColumn p) := by
    intro p heq
    rw [htasks] at heq
    exact hadd p (Option.some.inj heq)
  have hplanned := h.planned
  rw [htasks] at hplanned
  exact {
    rows := h.rows
    touched := by
      refine hrows.imp_left fun htask => ⟨hinsert htask, fun ps hps => ?_, .inr ?_⟩
      · have hps : Task.backfill ps ∈ boot.tasks := hps
        rw [htasks] at hps
        rcases List.mem_cons.1 hps with rfl | hps
        · rcases htask with heq | heq <;> cases heq
        · exact absurd hps (planned_insert hplanned htask)
      · change boot.tasks.head? = _ ∨ boot.tasks.head? = _
        rw [htasks]
        exact htask.imp (congrArg some) (congrArg some)
    planned := h.planned
    owed := fun p hp => ⟨(h.owed p hp).1, (h.owed p hp).2.1, .inl ((h.owed p hp).2.2.resolve_right fun hnow => hhead p hnow.1)⟩
    added := h.added
    altering := fun p hp => absurd hp (hhead p)
    committing := fun p hp => absurd hp (hhead p)
    inserting := fun htask _ => hinsert (by
      have htask : boot.tasks.head? = _ ∨ boot.tasks.head? = _ := htask
      rw [htasks] at htask
      exact htask.imp Option.some.inj Option.some.inj)
    passed := h.passed
    completed := h.completed }

theorem filledColumns_cons {columns owed : List Permission} {q : Permission} (hne : q ≠ p) :
    filledColumns (p :: columns) owed q = filledColumns columns owed q := by
  simp [filledColumns, hne]

theorem Going.addColumn (h : Going s boot) (htasks : boot.tasks = .addColumn p :: rest) (hgo : s.go boot (.addColumn p) = some s') :
    Inv s' := by
  have hrest := h.planned_rest htasks
  have htail : boot.tasks.tail = rest := by rw [htasks]; rfl
  have hback : ∀ ps, Task.backfill ps ∈ boot.tasks → Task.backfill ps ∈ rest := by
    intro ps hps
    rw [htasks] at hps
    exact (List.mem_cons.1 hps).resolve_left (fun heq => by cases heq)
  unfold State.go at hgo
  cases hstage : boot.stage with
  | begin =>
    rw [hstage] at hgo
    obtain rfl := Option.some.inj hgo
    by_cases hcolumn : p ∈ s.columns
    · rw [if_pos hcolumn]
      refine h.skip htasks (fun _ heq => by cases heq) (fun q _ hcommit => ?_) (fun heq => by cases heq) boot.clean
      rw [hstage] at hcommit
      cases hcommit
    · rw [if_neg hcolumn]
      exact {
        rows := h.rows
        touched := .inr (h.touched.resolve_left fun hq => hcolumn (hq.columns p))
        planned := h.planned
        owed := fun q hq => ⟨(h.owed q hq).1, (h.owed q hq).2.1, .inl ((h.owed q hq).2.2.resolve_right fun hnow => by
          rw [hstage] at hnow
          cases hnow.2)⟩
        added := h.added
        altering := fun q hq _ => by
          have hq : boot.tasks.head? = some (.addColumn q) := hq
          rw [htasks] at hq
          cases hq
          exact hcolumn
        committing := fun _ _ hs => by cases hs
        inserting := fun _ hs => by cases hs
        passed := h.passed
        completed := h.completed }
  | alter =>
    rw [hstage] at hgo
    obtain rfl := Option.some.inj hgo
    have hrows := h.untouched (by rw [hstage]; simp) htasks (by simp) (by simp)
    have hmissing : p ∉ s.columns := h.altering p (by rw [htasks]; rfl) hstage
    have hplanned := h.planned
    rw [htasks] at hplanned
    exact {
      rows := fun row hrow => by
        obtain ⟨old, hold, rfl⟩ := List.mem_map.1 hrow
        refine ((h.rows old hold).alter (hrows old hold) fun _ => by simp [filledColumns, hmissing]).congr fun q _ hb => ?_
        change filledColumns (p :: s.columns) (if p ∈ backfilled then p :: boot.owed else boot.owed) q = _
        by_cases hqp : q = p
        · subst hqp
          simp [filledColumns, hb, hmissing]
        · rw [filledColumns_cons hqp]
          split
          · simp [filledColumns, hqp]
          · rfl
      touched := .inr (untouched_map hrows fun _ hrow => hrow)
      planned := h.planned
      owed := fun q hq => by
        have hq : q ∈ (if p ∈ backfilled then p :: boot.owed else boot.owed) := hq
        have hcases : q ∈ boot.owed ∨ q = p ∧ p ∈ backfilled := by
          split at hq
          · rename_i hb
            exact (List.mem_cons.1 hq).symm.imp_right fun heq => ⟨heq, hb⟩
          · exact .inl hq
        rcases hcases with hq | ⟨rfl, hb⟩
        · refine ⟨List.mem_cons_of_mem _ (h.owed q hq).1, (h.owed q hq).2.1, .inl ((h.owed q hq).2.2.resolve_right fun hnow => ?_)⟩
          rw [hstage] at hnow
          cases hnow.2
        · obtain ⟨ps, hps, hmem⟩ := planned_addColumn hplanned hb
          refine ⟨List.mem_cons_self, ⟨ps, ?_, hmem⟩, .inr ⟨?_, rfl⟩⟩
          · exact mem_tasks htasks hps
          · change boot.tasks.head? = _
            rw [htasks]
            rfl
      added := fun q hq ps hps hmem => by
        have howed := h.added q hq ps hps hmem
        change q ∈ (if p ∈ backfilled then p :: boot.owed else boot.owed)
        split
        · exact List.mem_cons_of_mem _ howed
        · exact howed
      altering := fun _ _ hs => by cases hs
      committing := fun q hq _ hb => by
        have hq : boot.tasks.head? = some (.addColumn q) := hq
        rw [htasks] at hq
        cases hq
        change p ∈ (if p ∈ backfilled then p :: boot.owed else boot.owed)
        rw [if_pos hb]
        exact List.mem_cons_self
      inserting := fun htask _ => by
        have htask : boot.tasks.head? = _ ∨ boot.tasks.head? = _ := htask
        rw [htasks] at htask
        rcases htask with heq | heq <;> cases heq
      passed := h.passed.imp_right fun hall q => List.mem_cons_of_mem _ (hall q)
      completed := fun hc => absurd ((h.completed hc).1 p) hmissing }
  | update =>
    rw [hstage] at hgo
    cases hgo
  | commit =>
    rw [hstage] at hgo
    obtain rfl := Option.some.inj hgo
    have hrows := h.untouched (by rw [hstage]; simp) htasks (by simp) (by simp)
    refine Done.finish ?_ hrest htail
    exact {
      rows := h.rows
      touched := .inr hrows
      owed := fun q hq => by
        obtain ⟨hcolumn, ⟨ps, hps, hmem⟩, hadded⟩ := h.owed q hq
        refine ⟨hcolumn, ⟨ps, hback ps hps, hmem⟩, ?_⟩
        rcases hadded with hadded | ⟨hnow, -⟩
        · exact List.mem_cons_of_mem _ hadded
        · rw [htasks] at hnow
          cases hnow
          exact List.mem_cons_self
      added := fun q hq ps hps hmem => by
        have hps' : Task.backfill ps ∈ boot.tasks := mem_tasks htasks hps
        rcases List.mem_cons.1 hq with rfl | hq
        · exact h.committing q (by rw [htasks]; rfl) hstage (backfilled_of_planned h.planned hps' hmem)
        · exact h.added q hq ps hps' hmem
      passed := h.passed_rest htasks (by simp)
      completed := h.completed }

theorem Going.backfill (h : Going s boot) (htasks : boot.tasks = .backfill ps :: rest) (hgo : s.go boot (.backfill ps) = some s') :
    Inv s' := by
  have hrest := h.planned_rest htasks
  have htail : boot.tasks.tail = rest := by rw [htasks]; rfl
  have hhere : Task.backfill ps ∈ boot.tasks := by
    rw [htasks]
    exact List.mem_cons_self
  have hthere : ∀ ps', Task.backfill ps' ∈ rest → Task.backfill ps' ∈ boot.tasks := fun _ hps' => mem_tasks htasks hps'
  have hadded : ∀ p ∈ boot.owed, p ∈ boot.added := by
    intro p hp
    refine (h.owed p hp).2.2.resolve_right fun hnow => ?_
    rw [htasks] at hnow
    cases hnow.1
  have hplanned := h.planned
  rw [htasks] at hplanned
  unfold State.go at hgo
  cases hstage : boot.stage with
  | begin =>
    rw [hstage] at hgo
    obtain rfl := Option.some.inj hgo
    by_cases hany : ps.any (· ∈ boot.added) = true
    · rw [if_pos hany]
      obtain ⟨p, hp, hpa⟩ := List.any_eq_true.1 hany
      refine h.goto htasks (by simp) (by simp) (.inr (h.touched.resolve_left fun hq => ?_)) _
      exact hq.nothing ps hhere p hp (of_decide_eq_true hpa)
    · rw [if_neg hany]
      have hnone : ∀ p ∈ ps, p ∉ boot.added := fun p hp hpa => hany (List.any_eq_true.2 ⟨p, hp, decide_eq_true hpa⟩)
      refine Done.finish ?_ hrest htail
      exact {
        rows := h.rows
        touched := h.touched.imp_left fun hq => ⟨hq.columns, fun ps' hps' => hq.nothing ps' (hthere ps' hps')⟩
        owed := fun p hp => by
          obtain ⟨hcolumn, ⟨ps', hps', hmem⟩, -⟩ := h.owed p hp
          rw [htasks] at hps'
          refine ⟨hcolumn, ⟨ps', (List.mem_cons.1 hps').resolve_left fun heq => ?_, hmem⟩, hadded p hp⟩
          cases heq
          exact hnone p hmem (hadded p hp)
        added := fun p hp ps' hps' => h.added p hp ps' (hthere ps' hps')
        passed := h.passed_rest htasks (by simp)
        completed := h.completed }
  | alter =>
    rw [hstage] at hgo
    cases hgo
  | update =>
    rw [hstage] at hgo
    obtain rfl := Option.some.inj hgo
    exact h.goto htasks (by simp) (by simp) (.inr (h.untouched (by rw [hstage]; simp) htasks (by simp) (by simp))) _
  | commit =>
    rw [hstage] at hgo
    obtain rfl := Option.some.inj hgo
    have hrows := h.untouched (by rw [hstage]; simp) htasks (by simp) (by simp)
    have hpaid : ∀ p ∈ ps.filter (· ∈ boot.added), p ∈ boot.owed := by
      intro p hp
      obtain ⟨hmem, hpa⟩ := List.mem_filter.1 hp
      exact h.added p (of_decide_eq_true hpa) ps hhere hmem
    have howed : ∀ p, p ∈ boot.owed.filter (· ∉ ps) ↔ p ∈ boot.owed ∧ p ∉ ps := by
      intro p
      rw [List.mem_filter, decide_eq_true_eq]
    refine Done.finish ?_ hrest htail
    exact {
      rows := fun row hrow => by
        obtain ⟨old, hold, rfl⟩ := List.mem_map.1 hrow
        have hfree : ∀ p ∈ ps.filter (· ∈ boot.added), p ∈ backfilled → filledColumns s.columns boot.owed p = false := by
          intro p hp _
          simp [filledColumns, hpaid p hp]
        refine ((h.rows old hold).grant (hrows old hold) hfree).congr fun p _ _ => ?_
        change filledColumns s.columns (boot.owed.filter (· ∉ ps)) p = _
        by_cases hp : p ∈ ps.filter (· ∈ boot.added)
        · -- the column has been owed, and is filled now
          have hcolumn := (h.owed p (hpaid p hp)).1
          have hmem := (List.mem_filter.1 hp).1
          simp [filledColumns, hcolumn, hmem, hp]
        · have hsame : p ∈ boot.owed.filter (· ∉ ps) ↔ p ∈ boot.owed := by
            rw [howed]
            refine ⟨And.left, fun ho => ⟨ho, fun hmem => hp ?_⟩⟩
            exact List.mem_filter.2 ⟨hmem, decide_eq_true (hadded p ho)⟩
          simp only [filledColumns, hsame, hp, decide_false, Bool.or_false]
      touched := .inr (untouched_map hrows fun _ hrow => hrow)
      owed := fun p hp => by
        obtain ⟨ho, hnot⟩ := (howed p).1 hp
        obtain ⟨hcolumn, ⟨ps', hps', hmem⟩, -⟩ := h.owed p ho
        rw [htasks] at hps'
        refine ⟨hcolumn, ⟨ps', (List.mem_cons.1 hps').resolve_left fun heq => ?_, hmem⟩, hadded p ho⟩
        cases heq
        exact hnot hmem
      added := fun p hp ps' hps' hmem => by
        refine (howed p).2 ⟨h.added p hp ps' (hthere ps' hps') hmem, fun hin => ?_⟩
        exact (planned_backfill hplanned hin).2 ps' hps' hmem
      passed := h.passed_rest htasks (by simp)
      completed := fun hc => by
        refine ⟨(h.completed hc).1, ?_⟩
        change boot.owed.filter (· ∉ ps) = []
        rw [(h.completed hc).2]
        rfl }

theorem moderate_not_backfilled : Permission.moderate ∉ backfilled := by decide

theorem Going.moderation (h : Going s boot) (htasks : boot.tasks = .moderation :: rest) (hgo : s.go boot .moderation = some s') :
    Inv s' := by
  have hrest := h.planned_rest htasks
  have htail : boot.tasks.tail = rest := by rw [htasks]; rfl
  have hne : ∀ p ∈ backfilled, p ≠ .moderate := fun p hp heq => moderate_not_backfilled (heq ▸ hp)
  unfold State.go at hgo
  cases hstage : boot.stage with
  | begin =>
    rw [hstage] at hgo
    obtain rfl := Option.some.inj hgo
    by_cases hcolumn : Permission.moderate ∈ s.columns
    · rw [if_pos hcolumn]
      exact h.skip htasks (by simp) (by simp) (by simp) boot.clean
    · rw [if_neg hcolumn]
      exact h.goto htasks (by simp) (by simp) (.inr (h.touched.resolve_left fun hq => hcolumn (hq.columns _))) _
  | alter =>
    rw [hstage] at hgo
    obtain rfl := Option.some.inj hgo
    have hrows := h.untouched (by rw [hstage]; simp) htasks (by simp) (by simp)
    have haltered : Going (s.alter .moderate) boot := {
      rows := fun row hrow => by
        obtain ⟨old, hold, rfl⟩ := List.mem_map.1 hrow
        refine ((h.rows old hold).alter (hrows old hold) fun hb => absurd hb moderate_not_backfilled).congr fun p _ hb => ?_
        exact filledColumns_cons (hne p hb)
      touched := .inr (untouched_map hrows fun _ hrow => hrow)
      planned := h.planned
      owed := fun p hp => ⟨List.mem_cons_of_mem _ (h.owed p hp).1, (h.owed p hp).2⟩
      added := h.added
      altering := fun p hp => by
        rw [htasks] at hp
        cases hp
      committing := h.committing
      inserting := fun _ hc => by
        rw [hstage] at hc
        cases hc
      passed := h.passed.imp_right fun hall p => List.mem_cons_of_mem _ (hall p)
      completed := fun hc => ⟨fun p => List.mem_cons_of_mem _ ((h.completed hc).1 p), (h.completed hc).2⟩ }
    exact haltered.goto htasks (by simp) (by simp) (.inr (untouched_map hrows fun _ hrow => hrow)) _
  | update =>
    rw [hstage] at hgo
    obtain rfl := Option.some.inj hgo
    exact h.goto htasks (by simp) (by simp) (.inr (h.untouched (by rw [hstage]; simp) htasks (by simp) (by simp))) _
  | commit =>
    rw [hstage] at hgo
    obtain rfl := Option.some.inj hgo
    have hrows := h.untouched (by rw [hstage]; simp) htasks (by simp) (by simp)
    have hdone := h.done htasks (by simp) (by simp) (by simp) boot.clean
    refine Done.finish ?_ hrest htail
    exact {
      rows := fun row hrow => by
        obtain ⟨old, hold, rfl⟩ := List.mem_map.1 hrow
        have hfree : ∀ p ∈ [Permission.moderate], p ∈ backfilled → filledColumns s.columns boot.owed p = false :=
          fun p hp hb => absurd (List.mem_singleton.1 hp) (hne p hb)
        refine ((h.rows old hold).grant (hrows old hold) hfree).congr fun p _ hb => ?_
        change filledColumns s.columns boot.owed p = _
        simp [hne p hb]
      touched := .inr (untouched_map hrows fun _ hrow => hrow)
      owed := hdone.owed
      added := hdone.added
      passed := hdone.passed
      completed := hdone.completed }

theorem mem_columns_of_upToDate (h : s.upToDate = true) (p : Permission) : p ∈ s.columns :=
  of_decide_eq_true (List.all_eq_true.1 h p (mem_allPermissions p))

/-- Roles are inserted, behind all backfills. -/
theorem Going.insert (h : Going s boot) (htasks : boot.tasks = task :: rest) (htask : task = .seedRoles ∨ task = .moderatorRole)
    (hcolumns : ∀ p, p ∈ s.columns) (roles : List Role) : Inv ({ s with roles := insertRoles s.roles roles }.finish boot) := by
  have hplanned := h.planned
  rw [htasks] at hplanned
  have hdone := h.done htasks (fun ps heq => by rcases htask with rfl | rfl <;> cases heq)
    (fun p heq => by rcases htask with rfl | rfl <;> cases heq) (fun _ => hcolumns) boot.clean
  refine Done.finish ?_ (h.planned_rest htasks) (by rw [htasks]; rfl)
  exact {
    rows := rowInv_insertRoles h.rows roles
    touched := .inl ⟨hcolumns, fun ps hps => absurd hps (planned_insert hplanned htask)⟩
    owed := hdone.owed
    added := hdone.added
    passed := .inr hcolumns
    completed := fun hc => ⟨hcolumns, (h.completed hc).2⟩ }

/-- A statement completes. -/
theorem Going.go (h : Going s boot) (htasks : boot.tasks = task :: rest) (hgo : s.go boot task = some s') : Inv s' := by
  cases task with
  | addColumn p => exact h.addColumn htasks hgo
  | backfill ps => exact h.backfill htasks hgo
  | moderation => exact h.moderation htasks hgo
  | createAll | unrelated _ | defaultAdmin =>
    unfold State.go at hgo
    cases hstage : boot.stage <;> rw [hstage] at hgo <;> cases hgo
    exact h.skip htasks (by simp) (by simp) (by simp) boot.clean
  | seedRoles =>
    unfold State.go at hgo
    cases hstage : boot.stage with
    | begin =>
      rw [hstage] at hgo
      obtain ⟨hup, rfl⟩ := System.of_guard hgo
      have hcolumns := mem_columns_of_upToDate hup
      by_cases hempty : s.roles = []
      · rw [if_pos hempty]
        exact h.goto htasks (by simp) (fun _ => hcolumns) (.inl (.inl rfl)) _
      · rw [if_neg hempty]
        exact h.skip htasks (by simp) (by simp) (fun _ => hcolumns) boot.clean
    | commit =>
      rw [hstage] at hgo
      obtain rfl := Option.some.inj hgo
      exact h.insert htasks (.inl rfl) (h.inserting (.inl (by rw [htasks]; rfl)) hstage) _
    | alter | update =>
      rw [hstage] at hgo
      cases hgo
  | moderatorRole =>
    unfold State.go at hgo
    cases hstage : boot.stage with
    | begin =>
      rw [hstage] at hgo
      obtain ⟨hup, rfl⟩ := System.of_guard hgo
      have hcolumns := mem_columns_of_upToDate hup
      split
      · exact h.skip htasks (by simp) (by simp) (by simp) boot.clean
      · exact h.goto htasks (by simp) (fun _ => hcolumns) (.inl (.inr rfl)) _
    | commit =>
      rw [hstage] at hgo
      obtain rfl := Option.some.inj hgo
      exact h.insert htasks (.inr rfl) (h.inserting (.inr (by rw [htasks]; rfl)) hstage) _
    | alter | update =>
      rw [hstage] at hgo
      cases hgo

/-- The process ends while nothing is owed. -/
theorem Going.resting (h : Going s boot) (howed : boot.owed = []) : Resting { s with process := .down } where
  rows row hrow := by
    have hinv := h.rows row hrow
    rw [howed] at hinv
    exact hinv
  touched := Or.imp_left (fun hq : Settled s boot => hq.columns) h.touched
  completed hc := (h.completed hc).1

/-- A statement fails. -/
theorem Going.fail (h : Going s boot) (htasks : boot.tasks = task :: rest) (hok : boot.dropsOnFailure = false)
    (hfail : s.fail boot task = some s') : Inv s' := by
  unfold Boot.dropsOnFailure at hok
  rw [htasks] at hok
  cases task with
  | createAll | seedRoles | defaultAdmin =>
    have howed : boot.owed = [] := by simpa using hok
    cases hfail
    exact h.resting howed
  | backfill ps => cases hok
  | addColumn p =>
    cases hfail
    refine h.skip htasks (by simp) (fun q hq hcommit => ?_) (by simp) false
    cases hq
    rw [hcommit] at hok
    exact of_decide_eq_false hok
  | moderation | unrelated _ | moderatorRole =>
    cases hfail
    exact h.skip htasks (by simp) (by simp) (by simp) false

/-! ### Runs -/

theorem Resting.start (h : Resting s) (process : Process) : Going { s with process := process } { tasks := program } where
  rows := h.rows
  touched := h.touched.imp_left fun hcolumns => ⟨hcolumns, fun _ _ _ _ => List.not_mem_nil, .inl rfl⟩
  planned := planned_program
  owed p hp := by cases hp
  added p hp := by cases hp
  altering _ _ hs := by cases hs
  committing _ _ hs := by cases hs
  inserting _ hs := by cases hs
  passed := .inl (by decide)
  completed hc := ⟨h.completed hc, rfl⟩

/-- An administrator changes the roles, with all columns there. -/
theorem Resting.edit (h : Resting s) (hcolumns : ∀ p, p ∈ s.columns) {rows : List Row}
    (hrows : ∀ row ∈ rows, RowInv s.missing (filledColumns s.columns []) row) (process : Process) :
    Resting { s with roles := rows, process := process } where
  rows := hrows
  touched := .inl hcolumns
  completed := h.completed

theorem Inv.next (h : Inv s) (hok : FillsColumns s e) (hstep : step s e = some s') : Inv s' := by
  unfold Inv at h
  cases hp : s.process with
  | down =>
    rw [hp] at h
    cases e with
    | start =>
      simp only [step, hp, Option.some_inj] at hstep
      rw [← hstep]
      exact Resting.start h _
    | kill | go | fail | save _ _ | add _ | delete _ => simp [step, hp] at hstep
  | booting boot =>
    rw [hp] at h
    cases e with
    | kill =>
      simp only [step, hp, Option.some_inj] at hstep
      rw [← hstep]
      exact Going.resting h (hok boot hp)
    | go =>
      simp only [step, hp] at hstep
      obtain ⟨task, hhead, hgo⟩ := Option.bind_eq_some_iff.1 hstep
      obtain ⟨rest, htasks⟩ := List.head?_eq_some_iff.1 hhead
      exact Going.go h htasks hgo
    | fail =>
      simp only [step, hp] at hstep
      obtain ⟨task, hhead, hfail⟩ := Option.bind_eq_some_iff.1 hstep
      obtain ⟨rest, htasks⟩ := List.head?_eq_some_iff.1 hhead
      exact Going.fail h htasks (hok boot hp) hfail
    | start | save _ _ | add _ | delete _ => simp [step, hp] at hstep
  | serving =>
    rw [hp] at h
    obtain ⟨hrest, hcolumns⟩ := h
    cases e with
    | kill =>
      simp only [step, hp, Option.some_inj] at hstep
      rw [← hstep]
      exact ⟨hrest.rows, hrest.touched, hrest.completed⟩
    | save id role =>
      simp only [step, hp, Option.some_inj] at hstep
      subst hstep
      unfold Inv
      simp only
      refine ⟨hrest.edit hcolumns (fun row hrow => ?_) _, hcolumns⟩
      obtain ⟨old, hold, rfl⟩ := List.mem_map.1 hrow
      split
      · exact (hrest.rows old hold).save role
      · exact hrest.rows old hold
    | add role =>
      simp only [step, hp, Option.some_inj] at hstep
      subst hstep
      unfold Inv
      simp only
      refine ⟨hrest.edit hcolumns (fun row hrow => ?_) _, hcolumns⟩
      rcases List.mem_append.1 hrow with hrow | hrow
      · exact hrest.rows row hrow
      · rw [List.mem_singleton.1 hrow]
        exact .insert rfl (fun _ => rfl) fun _ _ hv => Option.some.inj hv
    | delete id =>
      simp only [step, hp, Option.some_inj] at hstep
      subst hstep
      unfold Inv
      simp only
      exact ⟨hrest.edit hcolumns (fun row hrow => hrest.rows row (List.mem_filter.1 hrow).1) _, hcolumns⟩
    | start | go | fail => simp [step, hp] at hstep

/-- What the rows say once all columns are there and nothing is owed, or before. -/
theorem backfilledOnce_of_rows {owed : List Permission} (hrows : ∀ row ∈ s.roles, RowInv s.missing (filledColumns s.columns owed) row)
    (hcompleted : s.completed = true → ∀ p, filledColumns s.columns owed p = true) : BackfilledOnce s where
  granted hc row hrow old ho p hp hb := by
    have hgranted := (hrows row hrow).granted old ho p hp hb
    rw [hcompleted hc p] at hgranted
    exact hgranted
  held hc row hrow old ho p hp hb hcond hch := (hrows row hrow).held old ho p hp hb (hcompleted hc p) hcond hch
  inserted row hrow := (hrows row hrow).inserted
  chosen row hrow := (hrows row hrow).chosen

theorem filledColumns_of_all {columns : List Permission} (h : ∀ p, p ∈ columns) (p : Permission) : filledColumns columns [] p = true := by
  simp [filledColumns, h p]

theorem Inv.backfilledOnce (h : Inv s) : BackfilledOnce s := by
  unfold Inv at h
  cases hp : s.process with
  | down =>
    rw [hp] at h
    have hrest : Resting s := h
    exact backfilledOnce_of_rows hrest.rows fun hc => filledColumns_of_all (hrest.completed hc)
  | booting boot =>
    rw [hp] at h
    have hgoing : Going s boot := h
    refine backfilledOnce_of_rows hgoing.rows fun hc => ?_
    obtain ⟨hcolumns, howed⟩ := hgoing.completed hc
    rw [howed]
    exact filledColumns_of_all hcolumns
  | serving =>
    rw [hp] at h
    obtain ⟨hrest, hcolumns⟩ := h
    exact backfilledOnce_of_rows hrest.rows fun _ => filledColumns_of_all hcolumns

theorem inv_init (h : system.init s) : Inv s := by
  obtain ⟨hdown, hcompleted, hmissing, hrows⟩ := h
  unfold Inv
  rw [hdown]
  refine ⟨fun row hrow => ?_, .inr fun row hrow => ?_, fun hc => ?_⟩
  · obtain ⟨horigin, hgranted, hchosen⟩ := hrows row hrow
    have hnone : ∀ p ∈ s.missing, filledColumns s.columns [] p = false := by
      intro p hp
      simp [filledColumns, (hmissing p).1 hp]
    refine ⟨fun _ => hgranted, fun p v hv => ?_, fun old ho _ p => ?_, fun old _ p hp _ => ?_, fun old _ p hp _ hf => ?_⟩
    · rw [hchosen p] at hv
      cases hv
    · rw [horigin, Option.some_inj] at ho
      rw [ho]
    · rw [hgranted p, hnone p hp]
      rfl
    · rw [hnone p hp] at hf
      cases hf
  · obtain ⟨horigin, -, hchosen⟩ := hrows row hrow
    refine ⟨?_, hchosen⟩
    rw [horigin]
    simp
  · rw [hcompleted] at hc
    cases hc

/-- Over any boots and edits in which nothing comes between a column and its backfill, the backfills happen once. -/
theorem backfilled_once {s : State} (h : system.Reach FillsColumns s) : BackfilledOnce s :=
  (System.Reach.invariant (fun _ => inv_init) (fun _ _ _ hI hok hstep => Inv.next hI hok hstep) h).backfilledOnce

/-! ### One role from before the upgrade -/

/-- A table without the column `can_view_guests`. -/
def oldTable : State where
  columns := [.viewIpmi, .manageIpmi, .moderate, .useAi, .moderateStaff, .maintainMastodonAccounts]
  roles := [{ id := 1, role := ⟨"viewer", 1, fun _ => false⟩, origin := some ⟨"viewer", 1, fun _ => false⟩ }]
  missing := [.viewGuests]

theorem oldTable_init : system.init oldTable := by
  refine ⟨rfl, rfl, fun p => ?_, fun row hrow => ?_⟩
  · cases p <;> decide
  · cases List.mem_singleton.1 hrow
    exact ⟨rfl, fun _ => rfl, fun _ => rfl⟩

instance (s : State) (e : Event) : Decidable (FillsColumns s e) :=
  match e with
  | .kill => match hp : s.process with
    | .booting boot => decidable_of_iff (boot.owed = []) ⟨fun h b hb => by
        cases hp.symm.trans hb
        exact h, fun h => h boot hp⟩
    | .down => isTrue fun b hb => by cases hp.symm.trans hb
    | .serving => isTrue fun b hb => by cases hp.symm.trans hb
  | .fail => match hp : s.process with
    | .booting boot => decidable_of_iff (boot.dropsOnFailure = false) ⟨fun h b hb => by
        cases hp.symm.trans hb
        exact h, fun h => h boot hp⟩
    | .down => isTrue fun b hb => by cases hp.symm.trans hb
    | .serving => isTrue fun b hb => by cases hp.symm.trans hb
  | .start | .go | .save _ _ | .add _ | .delete _ => isTrue trivial

/-- A boot, in which the role of the moderator is inserted. -/
def cleanBoot : List Event := .start :: List.replicate 25 .go

theorem cleanBoot_backfilled : ∃ s, (system.guarded FillsColumns).exec oldTable cleanBoot = some s ∧ s.completed = true ∧
    BackfilledOnce s := by
  have hexec : ∃ s, (system.guarded FillsColumns).exec oldTable cleanBoot = some s ∧ s.completed = true := ⟨_, rfl, rfl⟩
  obtain ⟨s, hs, hc⟩ := hexec
  exact ⟨s, hs, hc, backfilled_once ((System.Reach.init oldTable_init).guarded_exec hs)⟩

/-- The process is killed behind the `ALTER TABLE`, and the next boot completes. -/
def killedBoot : List Event := .start :: (List.replicate 12 .go ++ [.kill, .start] ++ List.replicate 21 .go)

theorem killed_boot_forgets : ∃ s, system.Reachable s ∧ ¬ BackfilledOnce s := by
  have hexec : ∃ s, system.exec oldTable killedBoot = some s ∧ s.completed = true ∧
      ∃ row ∈ s.roles, row.origin = some ⟨"viewer", 1, fun _ => false⟩ ∧ .viewGuests ∈ s.missing ∧ row.granted .viewGuests = 0 :=
    ⟨_, rfl, rfl, _, List.mem_cons_self, rfl, List.mem_cons_self, rfl⟩
  obtain ⟨s, hs, hc, row, hrow, ho, hmissing, hgranted⟩ := hexec
  refine ⟨s, System.reachable_of_exec oldTable_init hs, fun h => ?_⟩
  have hone := h.granted hc row hrow _ ho .viewGuests hmissing (by decide)
  rw [hgranted] at hone
  cases hone

end ProxmoxTool.Backfills
