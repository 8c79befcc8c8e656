import Mathlib
import ProxmoxTool.Lib.Script
import ProxmoxTool.Mastodon.Upgrade

/-!
# The commands of the upgrade

`run_mastodon_upgrade` once more, as a script: what it asks of the guests and of Proxmox, in which order, whatever the answers are.
`Mastodon/Upgrade` says what comes of its step 3 on one connection, with the outcome of every command given in advance.  The stash, the
deployment and the runtime versions are its functions, run with other commands; where `.env.production` is edited, the tie is
`follows_swapEnvDb`: with the commands carried out by `onGuest`, the script is the program over there.

The script goes further at both ends: the check of the environment, the protection of step 1 with its polling, the dump of step 2, the
second connection, and the second guest of step 4.
-/

namespace ProxmoxTool.Mastodon.Commands

open Stateful

inductive Connection
  | check | database | upgrade | again | second
deriving DecidableEq

inductive Machine
  | primary | second
deriving DecidableEq

/-- The commands of the check before step 1. -/
inductive CheckSite
  | fetch | rubyVersion | packageJson | ruby (rbenv : Bool) | node | bundler (rbenv : Bool) | meminfo
deriving DecidableEq

/-- The task that protects a guest: a snapshot, or a backup to a storage in a mode. -/
inductive Task
  | snapshot | backup (storage mode : Text)
deriving DecidableEq

inductive Command
  | connect (c : Connection)
  | check (c : CheckSite)
  | findNode (g : GuestRow)
  | create (task : Task) (g : GuestRow) (node : Text)
  | taskStatus (g : GuestRow) (node upid : Text)
  | pgDump
  | run (machine : Machine) (site : Site)
  | sed (w : Swap) (f : Field) (value : Text)
  | grep (w : Swap)
deriving DecidableEq

/-- The two entries of a task status that are read. -/
structure TaskStatus where
  status : Option Text
  exitstatus : Option Text
deriving DecidableEq

/-- Whether a connection is made; `(stdout, code == 0)`; the lines read back, `none` for an exit code other than 0.  A call to Proxmox
that fails or raises answers `none`. -/
@[reducible]
def Answer : Command → Type
  | .connect _ => Bool
  | .check _ | .pgDump | .run _ _ => Reply
  | .findNode _ | .create _ _ _ => Option Text
  | .taskStatus _ _ _ => Option TaskStatus
  | .sed _ _ _ => Bool
  | .grep _ => Option EnvFile

abbrev Remote := Script Command Answer

def issue (c : Command) : Remote (Answer c) := Script.send c

/-- `ssh.execute` on a guest. -/
def execute (machine : Machine) (site : Site) : Remote Reply := issue (.run machine site)

/-! ### Step 3 -/

/-- `env_swapped` and `stash_pending`. -/
structure Vars where
  envSwapped : Bool := false
  stashPending : Bool := false

/-- A part of step 3; a `ValueError` keeps the variables it was raised with. -/
abbrev Step := ExceptT Raised (StateT Vars Remote)

def remote {α : Type} (x : Remote α) : Step α := ExceptT.lift (StateT.lift x)

theorem remote_apply {α : Type} (x : Remote α) (vars : Vars) : remote x vars = x >>= fun a => pure (.ok a, vars) := by
  show (x >>= fun a => pure (a, vars)) >>= (fun p => pure (Except.ok p.1, p.2)) = _
  rw [bind_assoc]
  rfl

variable (u : CharTable) (view : View) (cfg : Config)

/-- The commands of `_swap_env_db`. -/
def editEnv (w : Swap) (t : Target) : Step Bool := do
  if !(← remote (issue (.sed w .host t.host))) then return false
  if !(← remote (issue (.sed w .port t.port))) then return false
  match ← remote (issue (.grep w)) with
  | none => return false
  | some out => return verified t out

/-- `_swap_env_db`. -/
def swapEnvDb (w : Swap) (appDir : Text) (t : Target) : Step Bool := do
  if !u.validateAbsPath appDir then throw .badAppDir
  if !u.validateShellParam t.host then throw .badHost
  if !u.portPattern t.port then return false
  editEnv w t

/-- 2e to 2i. -/
def build : Remote Bool := do
  if !(← remediateEnvironment (execute .primary) view.engines) then return false
  if !(← execute .primary .bundle).ok then return false
  if !(← execute .primary .yarn).ok then return false
  if !(← execute .primary .preMigrate).ok then return false
  return (← execute .primary .assets).ok

theorem deploy_eq (pending : Bool) : deploy view (execute .primary) pending = (do
    if !(← execute .primary .pull).ok then return (false, pending)
    let pending ← popAfterPull (execute .primary) pending
    let ok ← build view
    return (ok, pending)) := by
  have hite : ∀ {c : Prop} [Decidable c] (x y : Remote Bool) (f : Bool → Remote (Bool × Bool)),
      (if c then x else y) >>= f = if c then x >>= f else y >>= f := by
    intro c _ x y f
    split <;> rfl
  unfold deploy build
  simp only [bind_assoc, hite, pure_bind]

/-- `_restore_env`. -/
def restoreEnv (w : Swap) : Step Bool := do
  let ok ← swapEnvDb u w cfg.appDir cfg.pgbouncer
  if ok then modify fun vars => { vars with envSwapped := false }
  return ok

/-- `_abort`. -/
def abort (site : Site) (w : Swap) (restore : Bool) : Step Bool := do
  if (← get).stashPending then
    let _ ← remote (gitStashPop (execute .primary) site)
    modify fun vars => { vars with stashPending := false }
  if restore && (← get).envSwapped then
    let _ ← restoreEnv u cfg w
  return false

/-- 2m to 2p. -/
def postDeploy : Step Bool := do
  if !(← swapEnvDb u .toDirectAgain cfg.appDir cfg.direct) then
    return ← abort u cfg .abortPop .abort false
  modify fun vars => { vars with envSwapped := true }
  if !(← remote (execute .primary .postMigrate)).ok then
    return ← abort u cfg .abortPop .abort true
  if !(← restoreEnv u cfg .final) then
    return ← abort u cfg .abortPop .abort false
  let _ ← remote (execute .primary .finalRestart)
  let _ ← remote (execute .primary .version)
  return true

/-- 2j to 2p. -/
def restart : Step Bool := do
  if !(← restoreEnv u cfg .preRestart) then
    return ← abort u cfg .abortPop .abort false
  let _ ← remote (execute .primary .restart)
  let _ ← remote (execute .primary .cacheClear)
  postDeploy u cfg

/-- 2b to 2p. -/
def switchAndDeploy : Step Bool := do
  if !(← swapEnvDb u .toDirect cfg.appDir cfg.direct) then
    return ← abort u cfg .abortPop .abort false
  modify fun vars => { vars with envSwapped := true }
  let (ok, pending) ← remote (deploy view (execute .primary) (← get).stashPending)
  modify fun vars => { vars with stashPending := pending }
  if !ok then
    return ← abort u cfg .abortPop .abort true
  restart u cfg

/-- The body of the `with` block. -/
def stepThree : Step Bool := do
  let r ← remote (execute .primary .unmerged)
  if !blankList r.out then return false
  let (ok, stashed) ← remote (gitStash (execute .primary))
  if !ok then return false
  modify fun vars => { vars with stashPending := stashed }
  switchAndDeploy u view cfg

/-! ### The commands for the runtime versions -/

/-- The commands of `_remediate_environment`. -/
def runtime : Site → Bool
  | .rubyVersionFile | .ruby _ | .rubyInstall | .rubyVerify | .gemfileLock | .bundler _ | .gemInstall => true
  | .packageJson | .node | .nodeSetup | .nodeVerify => true
  | _ => false

section

variable {p : Command → Prop} {machine : Machine}

theorem only_execute {site : Site} (h : p (.run machine site)) : Script.Only p (execute machine site) := .send h

variable (hp : ∀ site, runtime site = true → p (.run machine site))

include hp

theorem only_installedVersion {site : Bool → Site} (hsite : ∀ rbenv, runtime (site rbenv) = true) (pattern : Text → Option Text) :
    Script.Only p (installedVersion (execute machine) site pattern) := by
  refine (only_execute (hp _ (hsite false))).bind fun r => ?_
  cases if r.ok then search pattern r.out else none with
  | some v => exact .pure _
  | none => exact (only_execute (hp _ (hsite true))).bind fun _ => .pure _

theorem only_remediateRuby : Script.Only p (remediateRuby (execute machine)) := by
  refine (only_execute (hp _ rfl)).bind fun r => .ite (.pure _) ?_
  refine (only_installedVersion hp (fun _ => rfl) _).bind fun installed => .ite (.pure _) ?_
  refine (only_execute (hp _ rfl)).bind fun r => .ite (.pure _) ?_
  exact (only_execute (hp _ rfl)).bind fun _ => .pure _

theorem only_remediateBundler : Script.Only p (remediateBundler (execute machine)) := by
  have hinstall : Script.Only p (do let r ← execute machine .gemInstall; return r.ok) :=
    (only_execute (hp _ rfl)).bind fun _ => .pure _
  refine (only_execute (hp _ rfl)).bind fun r => ?_
  dsimp only
  cases bundlerFromLock r.out with
  | none => exact (Script.Only.pure false).bind fun matched => .ite (.pure _) hinstall
  | some v =>
    refine (only_installedVersion hp (fun _ => rfl) _).bind fun installed => ?_
    exact (Script.Only.pure (decide (installed = some v))).bind fun matched => .ite (.pure _) hinstall

theorem only_remediateNode (requiredMajor : Option Nat) (installedNode : Option Text) :
    Script.Only p (remediateNode (execute machine) requiredMajor installedNode) := by
  cases requiredMajor with
  | none => exact .pure _
  | some major =>
    refine .ite (.pure _) ((only_execute (hp _ rfl)).bind fun r => .ite (.pure _) ?_)
    exact (only_execute (hp _ rfl)).bind fun _ => .pure _

theorem only_remediateEnvironment (engines : Text → Option Text) : Script.Only p (remediateEnvironment (execute machine) engines) := by
  refine (only_remediateRuby hp).bind fun ok => .ite (.pure _) ?_
  refine (only_remediateBundler hp).bind fun ok => .ite (.pure _) ?_
  refine (only_execute (hp _ rfl)).bind fun r => (only_execute (hp _ rfl)).bind fun r' => ?_
  exact only_remediateNode hp _ _

end

/-! ### The primary guest -/

/-- The connection to the primary guest, `.env.production` and the repository there; `asked` counts the commands to all others. -/
structure World (Repo : Type) where
  asked : Nat
  live : Bool
  env : EnvFile
  repo : Repo

section

variable {Repo : Type}

/-- The commands of step 3 are carried out with their outcomes, and `effect` says what an applied one makes of the repository; `answers`
are those of everything else.  A new connection is up. -/
def onGuest (effect : Site → Repo → Repo) (σ : Outcomes) (answers : Nat → ∀ c, Answer c) : ∀ c, StateM (World Repo) (Answer c)
  | .run .primary site => fun w =>
    if w.live then
      (⟨(σ site).out, (σ site).ok⟩,
        { w with live := (σ site).keeps, repo := if (σ site).applied then effect site w.repo else w.repo })
    else (⟨[], false⟩, w)
  | .sed s f value => fun w =>
    if w.live then
      let o := sedOutcome σ s f value
      (o.ok, { w with live := o.keeps, env := if o.applied then sedLines f value w.env else w.env })
    else (false, w)
  | .grep s => fun w =>
    if w.live then
      let o := σ (.grep s)
      (if o.ok && !(grepLines w.env).isEmpty then some (grepLines w.env) else none, { w with live := o.keeps })
    else (none, w)
  | c => fun w =>
    let live := match c with
      | .connect .upgrade | .connect .again => true
      | _ => w.live
    (answers w.asked c, { w with asked := w.asked + 1, live := live })

variable {effect : Site → Repo → Repo} {σ : Outcomes} {answers : Nat → ∀ c, Answer c} {α β : Type}

/-! ### Step 3 on the primary guest -/

def stateOf (vars : Vars) (w : World Repo) : State := ⟨w.live, w.env, vars.envSwapped, vars.stashPending⟩

def resultOf : (Except Raised α × Vars) × World Repo → EStateM.Result Raised State α
  | ((.ok a, vars), w) => .ok a (stateOf vars w)
  | ((.error e, vars), w) => .error e (stateOf vars w)

/-- What `Mastodon/Upgrade` computes is what becomes of the script. -/
def Follows (effect : Site → Repo → Repo) (σ : Outcomes) (answers : Nat → ∀ c, Answer c) (x : Step α) (y : Run α) : Prop :=
  ∀ vars w, resultOf (Script.run (onGuest effect σ answers) (x vars) w) = y (stateOf vars w)

theorem Follows.pure (a : α) : Follows effect σ answers (pure a) (pure a) := fun _ _ => rfl

theorem Follows.throw (e : Raised) : Follows effect σ answers (throw e : Step α) (throw e) := fun _ _ => rfl

theorem run_step_bind {S : Type} (handler : ∀ c, StateM S (Answer c)) (x : Step α) (f : α → Step β) (vars : Vars) (s : S) :
    Script.run handler ((x >>= f) vars) s = match Script.run handler (x vars) s with
      | ((.ok a, vars'), s') => Script.run handler (f a vars') s'
      | ((.error e, vars'), s') => ((.error e, vars'), s') := by
  show Script.run handler (x vars >>= _) s = _
  rw [Script.run_bind, stateM_bind_run]
  rcases Script.run handler (x vars) s with ⟨⟨⟨e⟩ | ⟨a⟩, vars'⟩, s'⟩
  · rfl
  · rfl

theorem run_get_bind {S : Type} (handler : ∀ c, StateM S (Answer c)) (f : Vars → Step α) (vars : Vars) (s : S) :
    Script.run handler ((get >>= f) vars) s = Script.run handler (f vars vars) s := rfl

theorem Follows.bind {x : Step α} {y : Run α} {f : α → Step β} {g : α → Run β} (hx : Follows effect σ answers x y)
    (hf : ∀ a, Follows effect σ answers (f a) (g a)) : Follows effect σ answers (x >>= f) (y >>= g) := by
  intro vars w
  have hfirst := hx vars w
  rw [run_step_bind, bind_run, ← hfirst]
  rcases Script.run (onGuest effect σ answers) (x vars) w with ⟨⟨⟨e⟩ | ⟨a⟩, vars'⟩, w'⟩
  · rfl
  · exact hf a vars' w'

theorem Follows.ite {c : Prop} [Decidable c] {x x' : Step α} {y y' : Run α} (hx : Follows effect σ answers x y)
    (hx' : Follows effect σ answers x' y') : Follows effect σ answers (if c then x else x') (if c then y else y') := by
  split
  · exact hx
  · exact hx'

theorem run_remote {S : Type} (handler : ∀ c, StateM S (Answer c)) (x : Remote α) (vars : Vars) (s : S) :
    Script.run handler (remote x vars) s = ((.ok (Script.run handler x s).1, vars), (Script.run handler x s).2) := by
  rw [remote_apply, Script.run_bind, stateM_bind_run]
  rfl

variable (u : CharTable) (view : View) (cfg : Config)

theorem follows_editEnv {w : Swap} (hsed : ∀ f v, Follows effect σ answers (remote (issue (.sed w f v))) (Mastodon.sed σ w f v))
    (hgrep : Follows effect σ answers (remote (issue (.grep w))) (Mastodon.grep σ w)) (t : Target) :
    Follows effect σ answers (editEnv w t)
      (do
        if !(← Mastodon.sed σ w .host t.host) then return false
        if !(← Mastodon.sed σ w .port t.port) then return false
        match ← Mastodon.grep σ w with
        | none => return false
        | some out => return verified t out) := by
  refine (hsed .host t.host).bind fun ok => .ite (.pure _) ?_
  refine (hsed .port t.port).bind fun ok => .ite (.pure _) (hgrep.bind fun out => ?_)
  cases out with
  | none => exact .pure _
  | some out => exact .pure _

theorem follows_swapEnvDb (w : Swap) (appDir : Text) (t : Target) :
    Follows effect σ answers (swapEnvDb u w appDir t) (Mastodon.swapEnvDb u σ w appDir t) := by
  have hsed : ∀ f v, Follows effect σ answers (remote (issue (.sed w f v))) (Mastodon.sed σ w f v) := by
    intro f v vars world
    rw [run_remote, issue, Script.run_send]
    cases hlive : world.live with
    | false => simp [onGuest, resultOf, stateOf, Mastodon.sed, hlive]
    | true => simp [onGuest, resultOf, stateOf, Mastodon.sed, hlive]
  have hgrep : Follows effect σ answers (remote (issue (.grep w))) (Mastodon.grep σ w) := by
    intro vars world
    rw [run_remote, issue, Script.run_send]
    cases hlive : world.live with
    | false => simp [onGuest, resultOf, stateOf, Mastodon.grep, hlive]
    | true => simp [onGuest, resultOf, stateOf, Mastodon.grep, hlive]
  have hedit := follows_editEnv hsed hgrep t
  refine .ite ((Follows.throw _).bind fun _ => ?_) ?_
  · exact .ite ((Follows.throw _).bind fun _ => .ite (.pure _) hedit) (.ite (.pure _) hedit)
  · exact .ite ((Follows.throw _).bind fun _ => .ite (.pure _) hedit) (.ite (.pure _) hedit)

end

end ProxmoxTool.Mastodon.Commands
