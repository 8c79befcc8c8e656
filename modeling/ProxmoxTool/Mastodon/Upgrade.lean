import ProxmoxTool.Mastodon.EnvFile
import ProxmoxTool.Mastodon.Runtime

/-!
# The upgrade of Mastodon

`run_mastodon_upgrade`: the checks and the protection of step 1, then step 3 over one SSH connection.  The file
`.env.production` is switched to the direct database twice, for the deployment with its first migrations and for the
post-deployment migrations, and is switched back after each.  A step that fails calls `_abort`, which pops the stash and
switches back over the same connection; only a `ValueError` reaches the `except` branch with its second connection.

`runMastodonUpgrade_holds_iff` says for every outcome of every command when the file ends on PGBouncer's values.
The git, Ruby and Rails commands do not touch the file, which is not under version control.
-/

namespace ProxmoxTool.Mastodon

open Stateful

/-! ### Before the connection -/

/-- `_get_mastodon_config`, the entries the upgrade reads. -/
structure Config where
  guestId : Text
  dbGuestId : Text
  guestId2 : Text
  dbName : Text
  user : Text
  appDir : Text
  branch : Text
  pgbouncer : Target
  direct : Target
  protectionType : Text
  backupStorage : Text

structure GuestRow where
  id : Int
  ipAddress : Bool
  credential : Bool
deriving DecidableEq

/-- What the run finds outside.  `memory` is `_check_memory_headroom`, `none` when it could not be read; `protects` is
whether `snapshot_guest` or `backup_guest` reports success; `connects` and `reconnects` are the two connections of step 3;
`engines` is the JSON look-up in `package.json`. -/
structure View where
  guest : Int → Option GuestRow
  defaultCredential : Bool
  memory : Option Bool
  protects : GuestRow → Bool
  connects : Bool
  reconnects : Bool
  engines : Text → Option Text

inductive Early
  | raised | refused
deriving DecidableEq

/-- `Guest.query.get(int(id))`. -/
def lookupGuest (view : View) (id : Text) : Except Early (Option GuestRow) :=
  match parseInt id with
  | none => .error .raised
  | some i => .ok (view.guest i)

def secondGuest (view : View) (cfg : Config) (primary : GuestRow) : Except Early (Option GuestRow) :=
  if cfg.guestId2.isEmpty then .ok none
  else do
    match ← lookupGuest view cfg.guestId2 with
    | none => return none
    | some g => return if g.id = primary.id then none else some g

variable (u : CharTable) (view : View) (cfg : Config)

/-- Step 1. -/
def protect (skipProtection : Bool) (primary db : GuestRow) (second : Option GuestRow) : Except Early Unit := do
  if skipProtection then return
  if cfg.protectionType = ['b', 'a', 'c', 'k', 'u', 'p'] ∧ cfg.backupStorage = [] then throw .refused
  if !view.protects primary then throw .refused
  match second with
  | some g => if !view.protects g then throw .refused
  | none => pure ()
  if !view.protects db then throw .refused

/-- What is read and checked before the first command: the primary guest, that of the database, and the second one. -/
def prepare : Except Early (GuestRow × GuestRow × Option GuestRow) := do
  if cfg.guestId.isEmpty || cfg.dbGuestId.isEmpty then throw .refused
  if cfg.pgbouncer.host.isEmpty || cfg.direct.host.isEmpty then throw .refused
  let primary ← lookupGuest view cfg.guestId
  let db ← lookupGuest view cfg.dbGuestId
  match primary, db with
  | some primary, some db =>
    let second ← secondGuest view cfg primary
    let branch := strip cfg.branch
    if !(validateUsername cfg.user && u.validateAbsPath cfg.appDir && validateDbName cfg.dbName &&
        (branch.isEmpty || u.validateGitBranch branch)) then throw .refused
    if !(primary.credential || view.defaultCredential) then throw .refused
    return (primary, db, second)
  | _, _ => throw .refused

/-- Everything before step 3 that can end the run. -/
def beforeConnect (skipProtection : Bool) : Except Early Unit := do
  let (primary, db, second) ← prepare u view cfg
  if primary.ipAddress ∧ view.memory = some false then throw .refused
  protect view cfg skipProtection primary db second

/-! ### The stash -/

/-- `not t.strip("\x00 \t\r\n")`. -/
def blankList (t : Text) : Bool := t.all fun c => c ∈ [Char.ofNat 0, ' ', '\t', '\r', '\n']

/-- `t.strip("\r\n")`. -/
def stripNewlines (t : Text) : Text :=
  let nl := fun c => c == '\r' || c == '\n'
  ((t.dropWhile nl).reverse.dropWhile nl).reverse

/-- The file names of a NUL-separated list, each once. -/
def fileNames (t : Text) : List Text :=
  (((t.splitOn (Char.ofNat 0)).map stripNewlines).filter (· ≠ [])).eraseDups

def noLocalChanges : Text :=
  ['N', 'o', ' ', 'l', 'o', 'c', 'a', 'l', ' ', 'c', 'h', 'a', 'n', 'g', 'e', 's']

section

variable {m : Type → Type} [Monad m] (execute : Site → m Reply)

/-- `_git_stash`: `(ok, stashed)`. -/
def gitStash : m (Bool × Bool) := do
  let r ← execute .stash
  return if r.ok then (true, !hasSub noLocalChanges r.out) else (false, false)

/-- `_git_stash_pop`. -/
def gitStashPop (site : Site) : m Bool := do
  let r ← execute site
  return r.ok

/-- One file of `_resolve_stash_conflicts`. -/
def keepLocal (f : Text) : m Unit := do
  let _ ← execute (.checkoutTheirs f)
  let _ ← execute (.add f)

/-- `_resolve_stash_conflicts`. -/
def resolveStashConflicts : m Bool := do
  let r ← execute .conflicts
  if blankList r.out then return false
  (fileNames r.out).forM (keepLocal execute)
  let _ ← execute .stashDrop
  return true

/-- 2d: the new value of `stash_pending`. -/
def popAfterPull (pending : Bool) : m Bool := do
  if !pending then return false
  let r ← execute .pop
  if r.ok then return false
  return !(← resolveStashConflicts execute)

/-- 2c to 2i, between the switch to the direct database and the switch back: whether every checked command succeeded, and
`stash_pending`. -/
def deploy (pending : Bool) : m (Bool × Bool) := do
  if !(← execute .pull).ok then return (false, pending)
  let pending ← popAfterPull execute pending
  if !(← remediateEnvironment execute view.engines) then return (false, pending)
  if !(← execute .bundle).ok then return (false, pending)
  if !(← execute .yarn).ok then return (false, pending)
  if !(← execute .preMigrate).ok then return (false, pending)
  return ((← execute .assets).ok, pending)

end

/-! ### Step 3 -/

variable (σ : Outcomes)

/-- The commands of step 3 over the first connection. -/
@[reducible]
def command (site : Site) : Ssh Reply := execute (σ site)

/-- `_restore_env`. -/
def restoreEnv (w : Swap) : Run Bool := do
  let ok ← swapEnvDb u σ w cfg.appDir cfg.pgbouncer
  if ok then modify fun s => { s with envSwapped := false }
  return ok

/-- `_abort`; `site` and `w` are the places of its commands. -/
def abort (site : Site) (w : Swap) (restore : Bool) : Run Bool := do
  if (← get).stashPending then
    let _ ← onSsh (gitStashPop (command σ) site)
    modify fun s => { s with stashPending := false }
  -- over the same connection, which may be the one that has just dropped
  if restore && (← get).envSwapped then
    let _ ← restoreEnv u cfg σ w
  return false

/-- 2m to 2p. -/
def postDeploy : Run Bool := do
  if !(← swapEnvDb u σ .toDirectAgain cfg.appDir cfg.direct) then
    return ← abort u cfg σ .abortPop .abort false
  modify fun s => { s with envSwapped := true }
  if !(← onSsh (execute (σ .postMigrate))).ok then
    return ← abort u cfg σ .abortPop .abort true
  -- a swap that has failed half-way is not tried again
  if !(← restoreEnv u cfg σ .final) then
    return ← abort u cfg σ .abortPop .abort false
  let _ ← onSsh (execute (σ .finalRestart))
  let _ ← onSsh (execute (σ .version))
  return true

/-- 2j to 2p. -/
def restart : Run Bool := do
  if !(← restoreEnv u cfg σ .preRestart) then
    return ← abort u cfg σ .abortPop .abort false
  let _ ← onSsh (execute (σ .restart))
  let _ ← onSsh (execute (σ .cacheClear))
  postDeploy u cfg σ

/-- 2b to 2p. -/
def switchAndDeploy : Run Bool := do
  if !(← swapEnvDb u σ .toDirect cfg.appDir cfg.direct) then
    return ← abort u cfg σ .abortPop .abort false
  modify fun s => { s with envSwapped := true }
  let (ok, pending) ← onSsh (deploy view (command σ) (← get).stashPending)
  modify fun s => { s with stashPending := pending }
  if !ok then
    return ← abort u cfg σ .abortPop .abort true
  restart u cfg σ

/-- The body of the `with` block. -/
def stepThree : Run Bool := do
  let r ← onSsh (execute (σ .unmerged))
  if !blankList r.out then return false
  let (ok, stashed) ← onSsh (gitStash (command σ))
  if !ok then return false
  modify fun s => { s with stashPending := stashed }
  switchAndDeploy u view cfg σ

/-- The `except` branch: `_abort` over a second connection if something is owed; what that raises is swallowed. -/
def rescue (s : State) : State :=
  if (s.envSwapped || s.stashPending) && view.reconnects then
    match abort u cfg σ .retryPop .retry true { s with live := true } with
    | .ok _ s' => s'
    | .error _ s' => s'
  else s

/-- What step 3 leaves: whether it succeeded, and the file. -/
def leave : EStateM.Result Raised State Bool → Bool × EnvFile
  -- only an exception reaches the second connection
  | .ok b s => (b, s.env)
  | .error _ s => (false, (rescue u view cfg σ s).env)

/-- The end of a run; an `int()` of a guest id that is no number escapes before anything is touched. -/
structure Ending where
  result : Except Early Bool
  env : EnvFile

/-- `run_mastodon_upgrade`. -/
def runMastodonUpgrade (skipProtection : Bool) (env : EnvFile) : Ending :=
  match beforeConnect u view cfg skipProtection with
  | .error .raised => ⟨.error .raised, env⟩
  | .error .refused => ⟨.ok false, env⟩
  | .ok () =>
    if view.connects then
      let r := leave u view cfg σ (stepThree u view cfg σ ⟨true, env, false, false⟩)
      ⟨.ok r.1, r.2⟩
    else ⟨.ok false, env⟩

/-! ### Which outcomes lead back to PGBouncer -/

/-- The connection still accepts commands when `_abort` comes to `_restore_env`. -/
def abortReaches (pending live : Bool) : Bool := live && (!pending || (σ .abortPop).keeps)

/-- From 2m on, the field is not left on the direct database: a switch that does not complete has not written it, and after
one that does, it is written back. -/
def postDeployReturns (pending : Bool) (f : Field) : Bool :=
  if completes u σ .toDirectAgain cfg.direct then
    if (σ .postMigrate).ok then writes u σ .final cfg.pgbouncer f
    else abortReaches σ pending (σ .postMigrate).keeps && writes u σ .abort cfg.pgbouncer f
  else !writes u σ .toDirectAgain cfg.direct f

/-- From 2b on, in the same way.  2m is only carried out if the switch back before the restart completes and the
connection is still up. -/
def deployReturns (pending : Bool) (f : Field) : Bool :=
  if completes u σ .toDirect cfg.direct then
    match deploy view (command σ) pending true with
    | ((true, pending), _) => writes u σ .preRestart cfg.pgbouncer f &&
        (!(completes u σ .preRestart cfg.pgbouncer && (σ .restart).keeps && (σ .cacheClear).keeps) ||
          postDeployReturns u cfg σ pending f)
    | ((false, pending), live) => abortReaches σ pending live && writes u σ .abort cfg.pgbouncer f
  else !writes u σ .toDirect cfg.direct f

/-- The run comes to the first switch. -/
def reachesSwitch (skipProtection : Bool) : Bool :=
  beforeConnect u view cfg skipProtection matches .ok () && view.connects && blankList (σ .unmerged).out &&
    (σ .unmerged).keeps && (σ .stash).ok

def returns (skipProtection : Bool) (f : Field) : Bool :=
  !reachesSwitch u view cfg σ skipProtection ||
    deployReturns u view cfg σ (!hasSub noLocalChanges (σ .stash).out) f

variable {u cfg σ} {s : State} {f : Field} {v : Text}

theorem not_writes_of_badHost {w : Swap} {t : Target} (h : u.validateShellParam t.host = false) :
    writes u σ w t f = false := by
  cases f <;> simp [writes, accepted, h]

theorem restoreEnv_raises {w : Swap} (ha : u.validateAbsPath cfg.appDir = true)
    (hh : u.validateShellParam cfg.pgbouncer.host = false) : restoreEnv u cfg σ w s = .error .badHost s := by
  simp [restoreEnv, swapEnvDb_raises ha hh]

/-- The state in which `_abort` comes to `_restore_env`. -/
private def popped (σ : Outcomes) (site : Site) (s : State) : State :=
  if s.stashPending then { s with live := (gitStashPop (command σ) site s.live).2, stashPending := false } else s

private theorem popped_env (site : Site) : (popped σ site s).env = s.env := by
  unfold popped; split <;> rfl

private theorem popped_live : (popped σ .abortPop s).live = abortReaches σ s.stashPending s.live := by
  unfold popped abortReaches
  cases s.stashPending with
  | false => simp
  | true => cases s.live <;> rfl

private theorem abort_keeps {site : Site} {w : Swap} {restore : Bool} (h : (restore && s.envSwapped) = false) :
    abort u cfg σ site w restore s = .ok false (popped σ site s) := by
  have h' : ¬ (restore = true ∧ s.envSwapped = true) := by simpa using h
  cases hp : s.stashPending <;> simp [abort, popped, hp, onSsh, h']

private theorem abort_restores {site : Site} {w : Swap} (h : s.envSwapped = true) {b : Bool} {s' : State}
    (hr : restoreEnv u cfg σ w (popped σ site s) = .ok b s') : abort u cfg σ site w true s = .ok false s' := by
  unfold popped at hr
  cases hp : s.stashPending <;> simp [hp, h] at hr <;> simp [abort, hp, onSsh, h, hr]

private theorem abort_raises {site : Site} {w : Swap} (ha : u.validateAbsPath cfg.appDir = true)
    (hh : u.validateShellParam cfg.pgbouncer.host = false) (h : s.envSwapped = true) :
    abort u cfg σ site w true s = .error .badHost (popped σ site s) := by
  cases hp : s.stashPending <;> simp [abort, popped, hp, onSsh, h, restoreEnv_raises ha hh]

/-- The `except` branch does not change the file: it is entered with the swap pending only if PGBouncer's host is refused,
and then it is refused again. -/
theorem rescue_env (ha : u.validateAbsPath cfg.appDir = true)
    (h : u.validateShellParam cfg.pgbouncer.host = false ∨ s.envSwapped = false) :
    (rescue u view cfg σ s).env = s.env := by
  unfold rescue
  split
  · by_cases hs : s.envSwapped = true
    · have hh : u.validateShellParam cfg.pgbouncer.host = false := by simpa [hs] using h
      rw [abort_raises (s := { s with live := true }) ha hh hs]
      exact popped_env _
    · rw [abort_keeps (s := { s with live := true }) (by simp [hs])]
      exact popped_env _
  · rfl

/-- `_restore_env` over values it accepts. -/
theorem restoreEnv_spec {w : Swap} (ha : u.validateAbsPath cfg.appDir = true)
    (hh : u.validateShellParam cfg.pgbouncer.host = true) (h : HasLines s.env) :
    ∃ live env swapped, restoreEnv u cfg σ w s = .ok (s.live && completes u σ w cfg.pgbouncer)
        { s with live := live, env := env, envSwapped := swapped } ∧
      HasLines env ∧ ((s.live && completes u σ w cfg.pgbouncer) = true → live = true ∧ swapped = false) ∧
      ∀ f v, Is f v s.env → Is f (if s.live && writes u σ w cfg.pgbouncer f then cfg.pgbouncer.get f else v) env := by
  obtain ⟨live, env, hrun, hlines, hlive, his⟩ := swapEnvDb_spec (σ := σ) (w := w) ha hh h
  cases hc : s.live && completes u σ w cfg.pgbouncer with
  | false =>
    refine ⟨live, env, s.envSwapped, ?_, hlines, by simp, his⟩
    simp [restoreEnv, hrun, hc]
  | true =>
    refine ⟨live, env, false, ?_, hlines, fun _ => ⟨hlive hc, rfl⟩, his⟩
    simp [restoreEnv, hrun, hc]

/-- After a failed step behind a switch, a field ends on PGBouncer's value if `_abort` still writes it. -/
theorem abort_leaves (ha : u.validateAbsPath cfg.appDir = true) (hs : s.envSwapped = true) (h : HasLines s.env)
    (hv : Is f v s.env) :
    Is f (if abortReaches σ s.stashPending s.live && writes u σ .abort cfg.pgbouncer f then cfg.pgbouncer.get f else v)
      (leave u view cfg σ (abort u cfg σ .abortPop .abort true s)).2 := by
  cases hh : u.validateShellParam cfg.pgbouncer.host with
  | false =>
    rw [abort_raises ha hh hs, not_writes_of_badHost hh, Bool.and_false]
    show Is f v (rescue u view cfg σ (popped σ .abortPop s)).env
    rw [rescue_env view ha (Or.inl hh), popped_env]
    exact hv
  | true =>
    obtain ⟨live, env, swapped, hrun, -, -, his⟩ := restoreEnv_spec (σ := σ) (w := .abort) (s := popped σ .abortPop s)
      ha hh ((popped_env .abortPop).symm ▸ h)
    rw [abort_restores hs hrun]
    have := his f v ((popped_env .abortPop).symm ▸ hv)
    rwa [popped_live] at this

private theorem abort_false_leaves : (leave u view cfg σ (abort u cfg σ .abortPop .abort false s)).2 = s.env := by
  rw [abort_keeps (by rfl)]
  exact popped_env _

theorem writes_of_completes {w : Swap} {t : Target} (h : completes u σ w t = true) : writes u σ w t f = true := by
  simp only [completes, Bool.and_eq_true] at h
  cases f with
  | host => simp [writes, h]
  | port => simp [writes, h]

/-- 2m to 2p, from a state in which the field is on PGBouncer's value. -/
theorem postDeploy_leaves (ha : u.validateAbsPath cfg.appDir = true)
    (hd : u.validateShellParam cfg.direct.host = true) (hp : u.validateShellParam cfg.pgbouncer.host = true)
    (h : HasLines s.env) (hv : Is f (cfg.pgbouncer.get f) s.env) :
    Is f (if !s.live || postDeployReturns u cfg σ s.stashPending f then cfg.pgbouncer.get f else cfg.direct.get f)
      (leave u view cfg σ (postDeploy u cfg σ s)).2 := by
  obtain ⟨live, env, hrun, hlines, hlive, his⟩ := swapEnvDb_spec (σ := σ) (w := .toDirectAgain) ha hd h
  have hv1 := his f _ hv
  cases hc : s.live && completes u σ .toDirectAgain cfg.direct with
  | false =>
    have hstop : postDeploy u cfg σ s = abort u cfg σ .abortPop .abort false { s with live := live, env := env } := by
      simp [postDeploy, hrun, hc]
    rw [hstop, abort_false_leaves view]
    cases hl : s.live with
    | false => simpa [hl] using hv1
    | true =>
      rw [hl, Bool.true_and] at hc hv1
      cases hw : writes u σ .toDirectAgain cfg.direct f <;> simpa [postDeployReturns, hc, hw] using hv1
  | true =>
    obtain ⟨hl, hcomp⟩ := Bool.and_eq_true_iff.1 hc
    rw [hl, Bool.true_and, writes_of_completes hcomp, if_pos rfl] at hv1
    rw [hlive hc, hc] at hrun
    rw [hl, Bool.not_true, Bool.false_or]
    cases hm : (σ .postMigrate).ok with
    | false =>
      have hstop : postDeploy u cfg σ s = abort u cfg σ .abortPop .abort true
          { s with live := (σ .postMigrate).keeps, env := env, envSwapped := true } := by
        simp [postDeploy, hrun, onSsh, hm]
      rw [hstop]
      have := abort_leaves view (σ := σ)
        (s := { s with live := (σ .postMigrate).keeps, env := env, envSwapped := true }) ha rfl hlines hv1
      simpa [postDeployReturns, hcomp, hm] using this
    | true =>
      obtain ⟨live', env', swapped, hrun', -, -, his'⟩ := restoreEnv_spec (σ := σ) (w := .final)
        (s := { s with live := true, env := env, envSwapped := true }) ha hp hlines
      have hv2 := his' f _ hv1
      have henv : (leave u view cfg σ (postDeploy u cfg σ s)).2 = env' := by
        cases hb : completes u σ .final cfg.pgbouncer with
        | false =>
          have hstop : postDeploy u cfg σ s = abort u cfg σ .abortPop .abort false
              { s with live := live', env := env', envSwapped := swapped } := by
            simp [postDeploy, hrun, onSsh, hm, hrun', hb]
          rw [hstop, abort_false_leaves view]
        | true => simp [postDeploy, hrun, onSsh, hm, hrun', hb, leave]
      rw [henv]
      simpa [postDeployReturns, hcomp, hm] using hv2

/-- A deployment that reports success leaves the connection up: its last command did. -/
private theorem deploy_ok_live (pending : Bool) (h : (deploy view (command σ) pending true).1.1 = true) :
    (deploy view (command σ) pending true).2 = true := by
  simp only [deploy, stateM_bind_run, stateM_ite_run, stateM_pure_run] at h ⊢
  split_ifs at h ⊢
  exact execute_ok h

/-- The switch back before the restart and everything after it, from a state in which the field is on the direct value. -/
private theorem restart_leaves (ha : u.validateAbsPath cfg.appDir = true)
    (hd : u.validateShellParam cfg.direct.host = true) (hs : s.live = true) (h : HasLines s.env)
    (hv : Is f (cfg.direct.get f) s.env) :
    Is f (if writes u σ .preRestart cfg.pgbouncer f &&
          (!(completes u σ .preRestart cfg.pgbouncer && (σ .restart).keeps && (σ .cacheClear).keeps) ||
            postDeployReturns u cfg σ s.stashPending f) then cfg.pgbouncer.get f else cfg.direct.get f)
      (leave u view cfg σ (restart u cfg σ s)).2 := by
  cases hh : u.validateShellParam cfg.pgbouncer.host with
  | false =>
    have hstop : restart u cfg σ s = .error .badHost s := by
      simp [restart, restoreEnv_raises ha hh]
    rw [hstop, not_writes_of_badHost hh, Bool.false_and]
    show Is f (cfg.direct.get f) (rescue u view cfg σ s).env
    rw [rescue_env view ha (Or.inl hh)]
    exact hv
  | true =>
    obtain ⟨live, env, swapped, hrun, hlines, hlive, his⟩ := restoreEnv_spec (σ := σ) (w := .preRestart) ha hh h
    have hv1 := his f _ hv
    rw [hs, Bool.true_and] at hrun hlive hv1
    cases hc : completes u σ .preRestart cfg.pgbouncer with
    | false =>
      have hstop : restart u cfg σ s = abort u cfg σ .abortPop .abort false
          { s with live := live, env := env, envSwapped := swapped } := by
        simp [restart, hrun, hc]
      rw [hstop, abort_false_leaves view]
      simpa using hv1
    | true =>
      rw [hc, (hlive hc).1] at hrun
      rw [writes_of_completes hc, if_pos rfl] at hv1
      have hgo : restart u cfg σ s = postDeploy u cfg σ
          { s with
            live := (execute (σ .cacheClear) (σ .restart).keeps).2, env := env, envSwapped := swapped } := by
        simp [restart, hrun, onSsh]
      rw [hgo]
      have := postDeploy_leaves view (σ := σ) (s := { s with
        live := (execute (σ .cacheClear) (σ .restart).keeps).2, env := env, envSwapped := swapped }) ha hd hh hlines hv1
      cases hk : (σ .restart).keeps <;> simpa [hk, writes_of_completes hc] using this

/-- 2b to 2p, from a state in which the field is on PGBouncer's value. -/
theorem switchAndDeploy_leaves (ha : u.validateAbsPath cfg.appDir = true) (hs : s.live = true)
    (hsw : s.envSwapped = false) (h : HasLines s.env) (hv : Is f (cfg.pgbouncer.get f) s.env) :
    Is f (if deployReturns u view cfg σ s.stashPending f then cfg.pgbouncer.get f else cfg.direct.get f)
      (leave u view cfg σ (switchAndDeploy u view cfg σ s)).2 := by
  cases hd : u.validateShellParam cfg.direct.host with
  | false =>
    have hstop : switchAndDeploy u view cfg σ s = .error .badHost s := by
      simp [switchAndDeploy, swapEnvDb_raises ha hd]
    have hret : deployReturns u view cfg σ s.stashPending f = true := by
      simp [deployReturns, completes, accepted, hd, not_writes_of_badHost hd]
    rw [hstop, hret]
    show Is f (cfg.pgbouncer.get f) (rescue u view cfg σ s).env
    rw [rescue_env view ha (Or.inr hsw)]
    exact hv
  | true =>
    obtain ⟨live, env, hrun, hlines, hlive, his⟩ := swapEnvDb_spec (σ := σ) (w := .toDirect) ha hd h
    have hv1 := his f _ hv
    rw [hs, Bool.true_and] at hrun hlive hv1
    cases hc : completes u σ .toDirect cfg.direct with
    | false =>
      have hstop : switchAndDeploy u view cfg σ s = abort u cfg σ .abortPop .abort false
          { s with live := live, env := env } := by
        simp [switchAndDeploy, hrun, hc]
      rw [hstop, abort_false_leaves view]
      cases hw : writes u σ .toDirect cfg.direct f <;> simpa [deployReturns, hc, hw] using hv1
    | true =>
      rw [hc, hlive hc] at hrun
      rw [writes_of_completes hc, if_pos rfl] at hv1
      rcases hdep : deploy view (command σ) s.stashPending true with ⟨⟨ok, pending⟩, up⟩
      cases ok with
      | false =>
        have hstop : switchAndDeploy u view cfg σ s = abort u cfg σ .abortPop .abort true
            ⟨up, env, true, pending⟩ := by
          simp [switchAndDeploy, hrun, onSsh, hdep]
        rw [hstop]
        have := abort_leaves view (σ := σ) (s := ⟨up, env, true, pending⟩) ha rfl hlines hv1
        simpa [deployReturns, hc, hdep] using this
      | true =>
        have hup : up = true := by
          have := deploy_ok_live view (σ := σ) s.stashPending (by rw [hdep])
          rwa [hdep] at this
        have hgo : switchAndDeploy u view cfg σ s = restart u cfg σ ⟨up, env, true, pending⟩ := by
          simp [switchAndDeploy, hrun, onSsh, hdep]
        rw [hgo]
        have := restart_leaves view (σ := σ) (s := ⟨up, env, true, pending⟩) ha hd hup hlines hv1
        simpa [deployReturns, hc, hdep] using this

/-! ### The whole run -/

/-- The checks before the connection include that of the directory. -/
private theorem validateAbsPath_of_beforeConnect {skip : Bool} (h : beforeConnect u view cfg skip = .ok ()) :
    u.validateAbsPath cfg.appDir = true := by
  cases hp : prepare u view cfg with
  | error e =>
    unfold beforeConnect at h
    rw [hp] at h
    cases h
  | ok rows =>
    by_contra hne
    rw [Bool.not_eq_true] at hne
    simp only [prepare, bind, Except.bind, throw, throwThe, MonadExceptOf.throw, hne,
      Bool.and_false, Bool.false_and, Bool.not_false, if_true] at hp
    repeat' split at hp
    all_goals cases hp

private theorem stepThree_leaves (ha : u.validateAbsPath cfg.appDir = true) {env : EnvFile}
    (h : Holds cfg.pgbouncer env) :
    Is f (if !(blankList (σ .unmerged).out && (σ .unmerged).keeps && (σ .stash).ok) ||
          deployReturns u view cfg σ (!hasSub noLocalChanges (σ .stash).out) f
        then cfg.pgbouncer.get f else cfg.direct.get f)
      (leave u view cfg σ (stepThree u view cfg σ ⟨true, env, false, false⟩)).2 := by
  cases hb : blankList (σ .unmerged).out with
  | false => simpa [stepThree, onSsh, hb, leave] using h f
  | true =>
    cases hk : (σ .unmerged).keeps with
    | false => simpa [stepThree, onSsh, gitStash, hb, hk, leave] using h f
    | true =>
      cases hst : (σ .stash).ok with
      | false => simpa [stepThree, onSsh, gitStash, hb, hk, hst, leave] using h f
      | true =>
        have hgo : stepThree u view cfg σ ⟨true, env, false, false⟩ = switchAndDeploy u view cfg σ
            ⟨true, env, false, !hasSub noLocalChanges (σ .stash).out⟩ := by
          simp [stepThree, onSsh, gitStash, hb, hk, hst]
        rw [hgo]
        have := switchAndDeploy_leaves view (σ := σ)
          (s := ⟨true, env, false, !hasSub noLocalChanges (σ .stash).out⟩) ha rfl rfl h.hasLines (h f)
        simpa using this

/-- Every field ends on PGBouncer's value or on the direct one, and `returns` tells which. -/
private theorem runMastodonUpgrade_is (skip : Bool) {env : EnvFile} (h : Holds cfg.pgbouncer env) (f : Field) :
    Is f (if returns u view cfg σ skip f then cfg.pgbouncer.get f else cfg.direct.get f)
      (runMastodonUpgrade u view cfg σ skip env).env := by
  rcases hb : beforeConnect u view cfg skip with e | ⟨⟩
  · cases e <;> simpa [returns, reachesSwitch, runMastodonUpgrade, hb] using h f
  · cases hc : view.connects with
    | false => simpa [returns, reachesSwitch, runMastodonUpgrade, hb, hc] using h f
    | true =>
      have := stepThree_leaves view (σ := σ) (f := f) (validateAbsPath_of_beforeConnect view hb) h
      simpa [returns, reachesSwitch, runMastodonUpgrade, hb, hc] using this

/-- From a file on PGBouncer's values, the run leaves the file on them exactly when each field is brought back (or is the
same for both databases): for every outcome of every command. -/
theorem runMastodonUpgrade_holds_iff (u : CharTable) (view : View) (cfg : Config) (σ : Outcomes) (skip : Bool)
    (env : EnvFile) (h : Holds cfg.pgbouncer env) :
    Holds cfg.pgbouncer (runMastodonUpgrade u view cfg σ skip env).env ↔
      ∀ f, cfg.direct.get f = cfg.pgbouncer.get f ∨ returns u view cfg σ skip f = true := by
  refine forall_congr' fun f => ?_
  have hend := runMastodonUpgrade_is view (u := u) (σ := σ) skip h f
  constructor
  · intro hp
    cases hr : returns u view cfg σ skip f with
    | true => exact Or.inr rfl
    | false =>
      rw [hr] at hend
      exact Or.inl (hend.unique hp)
  · rintro (heq | hr)
    · rwa [heq, ite_self] at hend
    · rwa [hr] at hend

private def asciiOnly : CharTable := ⟨fun _ => false, fun _ => false⟩

/-- Guests 1 and 2, memory and protection in order, both connections accepted. -/
private def plainView : View :=
  ⟨fun i => some ⟨i, true, true⟩, true, some true, fun _ => true, true, true, fun _ => none⟩

private def plainConfig : Config where
  guestId := ['1']
  dbGuestId := ['2']
  guestId2 := []
  dbName := ['m']
  user := ['m']
  appDir := ['/', 'm']
  branch := []
  pgbouncer := ⟨['p'], ['6']⟩
  direct := ⟨['d'], ['5']⟩
  protectionType := []
  backupStorage := []

private def pgbouncerEnv : EnvFile := [Field.host.key ++ ['p'], Field.port.key ++ ['6']]

/-- Every command succeeds with empty output but the one at `site`. -/
private def allBut (site : Site) (o : Outcome) : Outcomes := fun x => if x = site then o else .done []

/-- A pull that exits non-zero: `_abort` switches back over the same connection. -/
theorem failed_pull_restored :
    Holds plainConfig.pgbouncer
      (runMastodonUpgrade asciiOnly plainView plainConfig (allBut .pull (.failed [] false)) false pgbouncerEnv).env :=
  (runMastodonUpgrade_holds_iff asciiOnly plainView plainConfig (allBut .pull (.failed [] false)) false pgbouncerEnv
    (by decide)).2 fun f => Or.inr (by cases f <;> decide)

/-- A pull during which the connection drops: `_abort` issues its commands over the dead connection, and the file stays on
the direct database although a new connection would have accepted them. -/
theorem dropped_pull_left_direct :
    ¬ ∀ (u : CharTable) (view : View) (cfg : Config) (σ : Outcomes) (skip : Bool) (env : EnvFile),
      view.reconnects = true → (σ .retryPop).ok = true → (∀ f, (σ (.sed .retry f)).ok = true) →
      (σ (.grep .retry)).ok = true → Holds cfg.pgbouncer env →
      Holds cfg.pgbouncer (runMastodonUpgrade u view cfg σ skip env).env := by
  intro h
  have hend := h asciiOnly plainView plainConfig (allBut .pull (.dropped false)) false pgbouncerEnv rfl (by decide)
    (fun f => by cases f <;> decide) (by decide) (by decide)
  exact absurd hend (by decide)

end ProxmoxTool.Mastodon
