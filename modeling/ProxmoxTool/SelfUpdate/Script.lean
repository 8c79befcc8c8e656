import ProxmoxTool.Lib.Bash

/-!
# The self-update script

`update.sh` from its second step on, statement by statement.  What comes before, the arguments, the log, the search for the directory
and the backup, touches neither the code nor the service.

The exit statuses of all commands are inputs: every command stands at a place of its own and runs at most once there, but for the probes
of the health check, which are numbered.  A `git checkout` or `git reset` that fails leaves the working tree as it is.
-/

namespace ProxmoxTool.SelfUpdate

/-! ### Commands -/

/-- The external commands, `cd` and `source`; a filter is named after the command that it filters. -/
inductive Site
  -- step 2
  | dirname | cdGitDir | revParse | base64 | tokenTr | fetch | fetchSed | aheadLog | aheadWc | aheadTr | incomingLog | incomingSed
  | checkout | checkoutSed | reset | resetSed | cdAppDir | versionCat | versionTr
  -- step 3
  | activate | pipUpgrade | pipUpgradeGrep | pipUpgradeSed | pipInstall | pipInstallGrep | pipInstallSed
  -- steps 4 and 5
  | restart | restartSleep | isActive | status | statusSed | seq | curl (i : Nat) | curlSleep (i : Nat)
  -- `rollback_to_previous`
  | backCd | backCheckout | backSed | backCdAppDir | backActivate | backPip | backPipGrep | backPipSed
  | backRestart | backSleep | backIsActive
deriving DecidableEq

/-- What a run finds: the statuses, the directories with a `.git`, the commits, and the tests on files and output. -/
structure Env (Commit : Type) where
  exits : Site → Nat
  /-- `.git` in `APP_DIR`, in its parent, and in the `GIT_DIR` that the script begins with. -/
  appGit : Bool
  parentGit : Bool
  rootGit : Bool
  githubToken : Bool
  /-- The commit of `HEAD`, that of the branch, and that of `origin/$BRANCH` after the fetch. -/
  head : Commit
  branch : Commit
  origin : Commit
  /-- Tracked files differ from `HEAD`. -/
  dirty : Bool
  ahead : Nat
  versionFile : Bool

structure World (Commit : Type) where
  /-- `PREV_COMMIT`, where nothing is the empty string. -/
  prevCommit : Option Commit
  head : Commit
  dirty : Bool
  /-- A checkout or reset has changed the working tree. -/
  changed : Bool
  /-- A restart was attempted since the working tree changed last. -/
  restarted : Bool
  /-- The status of the checkout of the rollback. -/
  rollbackCheckout : Option Nat
deriving DecidableEq

variable {Commit : Type} [DecidableEq Commit]

namespace World

/-- `git checkout`: changes of tracked files stay. -/
def switch (c : Commit) (w : World Commit) : World Commit :=
  if c = w.head then w else { w with head := c, changed := true, restarted := false }

/-- `git reset --hard`: changes of tracked files are lost. -/
def resetHard (c : Commit) (w : World Commit) : World Commit :=
  if c = w.head ∧ w.dirty = false then w else { w with head := c, dirty := false, changed := true, restarted := false }

end World

def Env.start (env : Env Commit) : World Commit := ⟨none, env.head, env.dirty, false, false, none⟩

/-- `[ -d "$GIT_DIR/.git" ]`, where `GIT_DIR` is the parent if only that has a `.git`. -/
def Env.repository (env : Env Commit) : Bool := if !env.appGit && env.parentGit then true else env.rootGit

section

variable (env : Env Commit)

/-- A command that leaves code and service alone. -/
abbrev plain (site : Site) : Command (World Commit) := .exits (env.exits site)

/-- `PREV_COMMIT=$(git rev-parse HEAD)`. -/
def revParse : Command (World Commit) := .succeeds (env.exits .revParse) fun w => { w with prevCommit := some w.head }

def systemctlRestart (site : Site) : Command (World Commit) := fun w => (env.exits site, { w with restarted := true })

/-- `git checkout --quiet "$PREV_COMMIT"`. -/
def checkoutPrevious (prev : Commit) : Command (World Commit) := fun w =>
  (env.exits .backCheckout, { if env.exits .backCheckout = 0 then w.switch prev else w with
    rollbackCheckout := some (env.exits .backCheckout) })

/-! ### `rollback_to_previous` -/

/-- Code and requirements; without a recorded commit there is nothing to revert. -/
def revert : Bash (World Commit) Unit := do
  let w ← Bash.world
  match w.prevCommit with
  | none => pure ()
  | some prev => do
    let checkoutStatus ← .guarded [(plain env .backCd).andThen (checkoutPrevious env prev), plain env .backSed]
    if checkoutStatus ≠ 0 then
      pure ()
    else do
      .simple (plain env .backCdAppDir)
      .simple (plain env .backActivate)
      let _ ← .pipe ([.backPip, .backPipGrep, .backPipSed].map (plain env))

def rollbackToPrevious : Bash (World Commit) Unit := do
  revert env
  .ignore [systemctlRestart env .backRestart]
  .simple (plain env .backSleep)
  let _ ← .condition (plain env .backIsActive)

/-! ### Step 2 -/

/-- `git fetch origin`, with an ephemeral header if there is a token. -/
def fetch : Bash (World Commit) Nat := do
  .setErrexit false
  .when env.githubToken do
    let _ ← .pipe ([.base64, .tokenTr].map (plain env))
  let statuses ← .pipe [plain env .fetch, plain env .fetchSed]
  .setErrexit true
  pure (statuses.headD 0)

def showIncoming : Bash (World Commit) Unit := do
  let _ ← .pipe ([.aheadLog, .aheadWc, .aheadTr].map (plain env))
  .when (0 < env.ahead) do
    let _ ← .pipe ([.incomingLog, .incomingSed].map (plain env))

/-- `git checkout "$BRANCH"`. -/
def checkout : Bash (World Commit) Nat :=
  .guarded [.succeeds (env.exits .checkout) (World.switch env.branch), plain env .checkoutSed]

/-- `git reset --hard "origin/$BRANCH"`. -/
def reset : Bash (World Commit) Nat :=
  .guarded [.succeeds (env.exits .reset) (World.resetHard env.origin), plain env .resetSed]

def apply : Bash (World Commit) Unit := do
  let checkoutStatus ← checkout env
  if checkoutStatus ≠ 0 then
    .exit 1
  else do
    let resetStatus ← reset env
    if resetStatus ≠ 0 then
      .exit 1
    else
      .simple (plain env .cdAppDir)

def pull : Bash (World Commit) Unit := do
  .when (!env.appGit) (.simple (plain env .dirname))
  .when env.repository do
    .simple (plain env .cdGitDir)
    .simple (revParse env)
    let fetchStatus ← fetch env
    if fetchStatus ≠ 0 then
      .exit 1
    else do
      showIncoming env
      apply env

def readVersion : Bash (World Commit) Unit :=
  .when env.versionFile do
    let _ ← .pipe ([.versionCat, .versionTr].map (plain env))

/-! ### Steps 3 to 5 -/

def installRequirements : Bash (World Commit) Unit := do
  .simple (plain env .activate)
  .ignore ([.pipUpgrade, .pipUpgradeGrep, .pipUpgradeSed].map (plain env))
  let pipStatus ← .guarded ([.pipInstall, .pipInstallGrep, .pipInstallSed].map (plain env))
  .when (pipStatus ≠ 0) do
    rollbackToPrevious env
    .exit 1

def restartService : Bash (World Commit) Unit := do
  .simple (systemctlRestart env .restart)
  .simple (plain env .restartSleep)
  let active ← .condition (plain env .isActive)
  .when (active = 0) do
    let _ ← .pipe ([.status, .statusSed].map (plain env))

/-- The words of `$(seq 1 30)`; a `seq` that fails writes none, and `for` does not look at its status. -/
def attempts : List Nat := if env.exits .seq = 0 then List.range' 1 30 else []

/-- The loop of the health check, with the value of `HEALTH_OK`. -/
def probeHealth : List Nat → Bash (World Commit) Bool
  | [] => pure false
  | i :: is => do
    let answer ← .condition (plain env (.curl i))
    if answer = 0 then
      pure true
    else do
      .simple (plain env (.curlSleep i))
      probeHealth is

def verifyHealth : Bash (World Commit) Unit := do
  let healthOk ← probeHealth env (attempts env)
  .when (!healthOk) do
    rollbackToPrevious env
    .exit 1

/-- `update.sh`; its last command is an `echo`. -/
def update : Bash (World Commit) Nat := do
  .setErrexit true
  .setPipefail true
  pull env
  readVersion env
  installRequirements env
  restartService env
  verifyHealth env
  pure 0

end

end ProxmoxTool.SelfUpdate
