import ProxmoxTool.SelfUpdate.Script

/-!
# Which updates finish or roll back

Once the code has changed, the script must finish, or put the old commit back and restart the service.  Where the code has not changed,
no statement changes it (`rest_keeps`); otherwise the rules of `wp` compute, from the end of the script backwards, which statuses leave
the new code behind or the service without a restart.

Only a failed installation and a failed health check call the rollback.  A failed `reset` after the checkout of another commit, a failed
`systemctl restart` and a failed `systemctl status` stop the script on the new code, and within the rollback a pipeline whose `grep`
finds nothing stops it before the restart.
-/

namespace ProxmoxTool.SelfUpdate

variable {Commit : Type}

/-- A run that fails after the code has changed, and whose rollback checkout, if any, succeeds, ends on the previous commit with a
restart after the last change. -/
def FinishedOrRolledBack (status : Nat) (w : World Commit) : Prop :=
  status ≠ 0 → w.changed = true → (∀ n, w.rollbackCheckout = some n → n = 0) →
    w.prevCommit = some w.head ∧ w.restarted = true

variable (env : Env Commit)

/-- All of these commands succeed. -/
def Env.Succeed (sites : List Site) : Prop := ∀ site ∈ sites, env.exits site = 0

instance (sites : List Site) : Decidable (env.Succeed sites) := inferInstanceAs (Decidable (∀ site ∈ sites, env.exits site = 0))

theorem succeed_nil : env.Succeed [] := List.forall_mem_nil _

theorem succeed_cons {site : Site} {sites : List Site} : env.Succeed (site :: sites) ↔ env.exits site = 0 ∧ env.Succeed sites :=
  List.forall_mem_cons

/-! ### Where the code has not changed -/

/-- The working tree is as it was found. -/
def Unchanged (w : World Commit) : Prop :=
  w.changed = false ∧ w.head = env.head ∧ ∀ prev, w.prevCommit = some prev → prev = env.head

variable {env} in
theorem Unchanged.finished {w : World Commit} (h : Unchanged env w) (status : Nat) : FinishedOrRolledBack status w := by
  intro _ hchanged
  simp [h.1] at hchanged

theorem plain_keeps {I : World Commit → Prop} (site : Site) : (plain env site).Keeps I := Command.Keeps.exits

theorem map_plain_keeps {I : World Commit → Prop} (sites : List Site) : ∀ c ∈ sites.map (plain env), c.Keeps I := by
  intro c hc
  obtain ⟨site, -, rfl⟩ := List.mem_map.1 hc
  exact plain_keeps env site

theorem restart_keeps (site : Site) : (systemctlRestart env site).Keeps (Unchanged env) := fun _ h => h

theorem probeHealth_keeps (is : List Nat) : (probeHealth env is).Keeps (Unchanged env) := by
  induction is with
  | nil => exact Bash.Keeps.pure
  | cons i is ih =>
    apply (Bash.Keeps.condition (plain_keeps env _)).bind
    intro answer
    split
    · exact Bash.Keeps.pure
    · exact (Bash.Keeps.simple (plain_keeps env _)).bind fun _ => ih

variable [DecidableEq Commit]

/-- The rollback checks out the commit that is checked out. -/
theorem checkoutPrevious_keeps : (checkoutPrevious env env.head).Keeps (Unchanged env) := by
  intro w hw
  have hsame : w.switch env.head = w := by rw [World.switch, if_pos hw.2.1.symm]
  simp only [checkoutPrevious, hsame, ite_self]
  exact hw

theorem revert_keeps : (revert env).Keeps (Unchanged env) := by
  apply Bash.Keeps.world_bind
  intro w hw
  cases hprev : w.prevCommit with
  | none => exact Bash.Keeps.pure
  | some prev =>
    obtain rfl : prev = env.head := hw.2.2 prev hprev
    apply Bash.Keeps.bind
    · apply Bash.Keeps.guarded
      intro c hc
      rcases List.mem_cons.1 hc with rfl | hc
      · exact (plain_keeps env _).andThen (checkoutPrevious_keeps env)
      · rw [List.mem_singleton.1 hc]
        exact plain_keeps env _
    · intro checkoutStatus
      split
      · exact Bash.Keeps.pure
      · exact (Bash.Keeps.simple (plain_keeps env _)).bind fun _ => (Bash.Keeps.simple (plain_keeps env _)).bind fun _ =>
          (Bash.Keeps.pipe (map_plain_keeps env _)).bind fun _ => Bash.Keeps.pure

theorem rollbackToPrevious_keeps : (rollbackToPrevious env).Keeps (Unchanged env) := by
  apply (revert_keeps env).bind
  intro _
  apply Bash.Keeps.bind
  · apply Bash.Keeps.ignore
    intro c hc
    rw [List.mem_singleton.1 hc]
    exact restart_keeps env _
  · intro _
    exact (Bash.Keeps.simple (plain_keeps env _)).bind fun _ =>
      (Bash.Keeps.condition (plain_keeps env _)).bind fun _ => Bash.Keeps.pure

/-- The script after its second step. -/
def rest : Bash (World Commit) Nat := do
  readVersion env
  installRequirements env
  restartService env
  verifyHealth env
  pure 0

theorem rest_keeps : (rest env).Keeps (Unchanged env) := by
  have hversion : (readVersion env).Keeps (Unchanged env) :=
    Bash.Keeps.when ((Bash.Keeps.pipe (map_plain_keeps env _)).bind fun _ => Bash.Keeps.pure)
  have hfailed : (rollbackToPrevious env >>= fun _ => Bash.exit 1 : Bash (World Commit) Unit).Keeps (Unchanged env) :=
    (rollbackToPrevious_keeps env).bind fun _ => Bash.Keeps.exit
  have hinstall : (installRequirements env).Keeps (Unchanged env) :=
    (Bash.Keeps.simple (plain_keeps env _)).bind fun _ => (Bash.Keeps.ignore (map_plain_keeps env _)).bind fun _ =>
      (Bash.Keeps.guarded (map_plain_keeps env _)).bind fun _ => Bash.Keeps.when hfailed
  have hrestart : (restartService env).Keeps (Unchanged env) :=
    (Bash.Keeps.simple (restart_keeps env _)).bind fun _ => (Bash.Keeps.simple (plain_keeps env _)).bind fun _ =>
      (Bash.Keeps.condition (plain_keeps env _)).bind fun _ =>
        Bash.Keeps.when ((Bash.Keeps.pipe (map_plain_keeps env _)).bind fun _ => Bash.Keeps.pure)
  have hverify : (verifyHealth env).Keeps (Unchanged env) :=
    (probeHealth_keeps env _).bind fun _ => Bash.Keeps.when hfailed
  exact hversion.bind fun _ => hinstall.bind fun _ => hrestart.bind fun _ => hverify.bind fun _ => Bash.Keeps.pure

/-! ### Where the code has changed -/

/-- The world after a reset that changed the code; `restarted` says whether the new code was started. -/
def updated (restarted : Bool) : World Commit := ⟨some env.head, env.origin, false, true, restarted, none⟩

/-- The world after the checkout of the rollback. -/
def reverted (restarted : Bool) : World Commit := ⟨some env.head, env.head, false, true, restarted && env.origin = env.head, some 0⟩

omit [DecidableEq Commit] in
/-- Which status a failing script exits with does not matter. -/
theorem finished_iff {status : Nat} (hstatus : status ≠ 0) (w : World Commit) :
    FinishedOrRolledBack status w ↔ FinishedOrRolledBack 1 w := by
  simp [FinishedOrRolledBack, hstatus]

omit [DecidableEq Commit] in
theorem finished_updated (restarted : Bool) :
    FinishedOrRolledBack 1 (updated env restarted) ↔ restarted = true ∧ env.origin = env.head := by
  simp [FinishedOrRolledBack, updated, and_comm, eq_comm]

theorem finished_reverted (restarted : Bool) :
    FinishedOrRolledBack 1 (reverted env restarted) ↔ restarted = true ∧ env.origin = env.head := by
  simp [FinishedOrRolledBack, reverted]

omit [DecidableEq Commit] in
theorem pipeline_plain (sites : List Site) (w : World Commit) :
    Command.pipeline (sites.map (plain env)) w = (sites.map env.exits, w) := by
  have hmap : sites.map (plain env) = (sites.map env.exits).map .exits := by simp
  rw [hmap, Command.pipeline_exits]

omit [DecidableEq Commit] in
theorem wp_pipe_plain {Q : List Nat → Shell (World Commit) → Prop} {w : World Commit} (sites : List Site) :
    (Bash.pipe (sites.map (plain env))).wp Q FinishedOrRolledBack ⟨w, true, true⟩ ↔
      if env.Succeed sites then Q (sites.map env.exits) ⟨w, true, true⟩ else FinishedOrRolledBack 1 w := by
  have hmap : sites.map (plain env) = (sites.map env.exits).map .exits := by simp
  have hsucceed : (∀ n ∈ sites.map env.exits, n = 0) ↔ env.Succeed sites := List.forall_mem_map
  rw [hmap, Bash.wp_pipe_exits]
  by_cases h : env.Succeed sites
  · rw [if_pos h, if_pos (hsucceed.2 h)]
  · have hstatus : pipeStatus true (sites.map env.exits) ≠ 0 := fun hzero => h (hsucceed.1 (pipeStatus_eq_zero.1 hzero))
    rw [if_neg h, if_neg (fun hall => h (hsucceed.1 hall)), finished_iff hstatus]

omit [DecidableEq Commit] in
theorem wp_simple_plain {Q : Unit → Shell (World Commit) → Prop} {w : World Commit} (site : Site) :
    (Bash.simple (plain env site)).wp Q FinishedOrRolledBack ⟨w, true, true⟩ ↔
      if env.exits site = 0 then Q () ⟨w, true, true⟩ else FinishedOrRolledBack 1 w := by
  rw [Bash.wp_simple_exits]
  by_cases h : env.exits site = 0
  · rw [if_pos h, if_pos h]
  · rw [if_neg h, if_neg h, finished_iff h]

/-! ### The rollback -/

theorem switch_updated (restarted : Bool) :
    (updated env restarted).switch env.head = { reverted env restarted with rollbackCheckout := none } := by
  by_cases horigin : env.origin = env.head
  · simp [World.switch, updated, reverted, horigin]
  · simp [World.switch, updated, reverted, horigin, Ne.symm horigin]

/-- Where the rollback goes on, and with which world; where it stops, the service has not been started again. -/
theorem wp_revert (restarted : Bool) {Q : Unit → Shell (World Commit) → Prop} :
    (revert env).wp Q FinishedOrRolledBack ⟨updated env restarted, true, true⟩ ↔
      if env.exits .backCd ≠ 0 then Q () ⟨updated env restarted, true, true⟩
      else if env.exits .backCheckout ≠ 0 then
        Q () ⟨{ updated env restarted with rollbackCheckout := some (env.exits .backCheckout) }, true, true⟩
      else if env.Succeed [.backCdAppDir, .backActivate, .backPip, .backPipGrep, .backPipSed] then
        Q () ⟨reverted env restarted, true, true⟩
      else restarted = true ∧ env.origin = env.head := by
  have hrevert : (revert env).wp Q FinishedOrRolledBack ⟨updated env restarted, true, true⟩ ↔
      let (status, w) := (plain env .backCd).andThen (checkoutPrevious env env.head) (updated env restarted)
      if status ≠ 0 then Q () ⟨w, true, true⟩
      else if env.exits .backCdAppDir = 0 then
        if env.exits .backActivate = 0 then
          if env.Succeed [.backPip, .backPipGrep, .backPipSed] then Q () ⟨w, true, true⟩ else FinishedOrRolledBack 1 w
        else FinishedOrRolledBack 1 w
      else FinishedOrRolledBack 1 w := by
    simp only [revert, Bash.wp_bind, Bash.wp_world, updated, Bash.wp_guarded, Command.pipeline, List.headD_cons, Bash.wp_ite,
      Bash.wp_pure, wp_simple_plain, wp_pipe_plain]
    rfl
  rw [hrevert]
  by_cases hcd : env.exits .backCd = 0
  · by_cases hcheckout : env.exits .backCheckout = 0
    · have hw : (plain env .backCd).andThen (checkoutPrevious env env.head) (updated env restarted) = (0, reverted env restarted) := by
        simp only [Command.andThen, Command.exits, checkoutPrevious, hcd, hcheckout, if_true, switch_updated]
        rfl
      rw [hw]
      simp only [hcd, hcheckout, ne_eq, not_true_eq_false, if_false, succeed_cons, finished_reverted]
      by_cases happ : env.exits .backCdAppDir = 0 <;> by_cases hactivate : env.exits .backActivate = 0 <;>
        simp [happ, hactivate]
    · simp [Command.andThen, Command.exits, checkoutPrevious, hcd, hcheckout]
  · simp [Command.andThen, Command.exits, hcd]

/-- When a rollback from the new code ends as wanted. -/
def RollsBack (restarted : Bool) : Prop :=
  if env.exits .backCd ≠ 0 then env.origin = env.head
  else env.exits .backCheckout ≠ 0 ∨ env.Succeed [.backCdAppDir, .backActivate, .backPip, .backPipGrep, .backPipSed] ∨
    (restarted = true ∧ env.origin = env.head)

/-- After the revert a restart is attempted, and the script fails. -/
theorem wp_rollback (restarted : Bool) :
    (rollbackToPrevious env).wp (fun _ s => FinishedOrRolledBack 1 s.world) FinishedOrRolledBack
      ⟨updated env restarted, true, true⟩ ↔ RollsBack env restarted := by
  simp only [Bash.wp_bind, rollbackToPrevious, wp_revert, Bash.wp_ignore, Command.pipeline, systemctlRestart, wp_simple_plain,
    Bash.wp_condition, Command.exits, Bash.wp_pure, ite_self]
  unfold RollsBack
  by_cases hcd : env.exits .backCd = 0
  · by_cases hcheckout : env.exits .backCheckout = 0
    · have hrestarted : FinishedOrRolledBack 1 { reverted env restarted with restarted := true } := fun _ _ _ => ⟨rfl, rfl⟩
      simp only [hcd, hcheckout, ne_eq, not_true_eq_false, if_false, false_or, hrestarted]
      by_cases hsucceed : env.Succeed [.backCdAppDir, .backActivate, .backPip, .backPipGrep, .backPipSed]
      · rw [if_pos hsucceed]
        exact ⟨fun _ => .inl hsucceed, fun _ => trivial⟩
      · rw [if_neg hsucceed, or_iff_right hsucceed]
    · simp [hcd, hcheckout, FinishedOrRolledBack]
  · simp [hcd, FinishedOrRolledBack, updated, eq_comm]

/-! ### The health check -/

/-- A probe succeeds, and so does every pause before it. -/
def Env.answers : List Nat → Bool
  | [] => false
  | i :: is => env.exits (.curl i) = 0 || (env.exits (.curlSleep i) = 0 && Env.answers is)

/-- Every probe fails, and every pause succeeds. -/
def Env.Silent (is : List Nat) : Prop := ∀ i ∈ is, env.exits (.curl i) ≠ 0 ∧ env.exits (.curlSleep i) = 0

instance (is : List Nat) : Decidable (env.Silent is) :=
  inferInstanceAs (Decidable (∀ i ∈ is, env.exits (.curl i) ≠ 0 ∧ env.exits (.curlSleep i) = 0))

omit [DecidableEq Commit] in
theorem silent_cons {i : Nat} {is : List Nat} :
    env.Silent (i :: is) ↔ (env.exits (.curl i) ≠ 0 ∧ env.exits (.curlSleep i) = 0) ∧ env.Silent is :=
  List.forall_mem_cons

omit [DecidableEq Commit] in
theorem wp_probeHealth {Q : Bool → Shell (World Commit) → Prop} {w : World Commit} (is : List Nat) :
    (probeHealth env is).wp Q FinishedOrRolledBack ⟨w, true, true⟩ ↔
      if env.answers is then Q true ⟨w, true, true⟩
      else if env.Silent is then Q false ⟨w, true, true⟩
      else FinishedOrRolledBack 1 w := by
  induction is with
  | nil => simp [probeHealth, Env.answers, Env.Silent]
  | cons i is ih =>
    simp only [probeHealth, Bash.wp_bind, Bash.wp_condition, Command.exits, Bash.wp_ite, Bash.wp_pure, wp_simple_plain, ih]
    by_cases hcurl : env.exits (.curl i) = 0
    · simp [hcurl, Env.answers]
    · by_cases hsleep : env.exits (.curlSleep i) = 0
      · have hsilent : env.Silent (i :: is) ↔ env.Silent is := by simp [silent_cons, hcurl, hsleep]
        simp [hcurl, hsleep, Env.answers, hsilent]
      · have hsilent : ¬env.Silent (i :: is) := by simp [silent_cons, hsleep]
        simp [hcurl, hsleep, Env.answers, hsilent]

/-- When the health check of the new code ends as wanted. -/
def Env.Verified : Prop :=
  env.answers (attempts env) = true ∨ if env.Silent (attempts env) then RollsBack env true else env.origin = env.head

theorem wp_verifyHealth :
    (verifyHealth env).wp (fun _ s => FinishedOrRolledBack 0 s.world) FinishedOrRolledBack ⟨updated env true, true, true⟩ ↔
      env.Verified := by
  have hdone : ∀ w : World Commit, FinishedOrRolledBack 0 w := fun w h => absurd rfl h
  simp only [verifyHealth, hdone, Bash.wp_bind, wp_probeHealth, Bash.wp_when, Bash.wp_exit]
  unfold Env.Verified
  by_cases hanswers : env.answers (attempts env) = true
  · simp [hanswers]
  · rw [if_neg hanswers, or_iff_right hanswers]
    by_cases hsilent : env.Silent (attempts env)
    · simp [hsilent, wp_rollback]
    · simp [hsilent, finished_updated]

/-! ### Requirements and restart -/

omit [DecidableEq Commit] in
theorem wp_restartService {Q : Unit → Shell (World Commit) → Prop} :
    (restartService env).wp Q FinishedOrRolledBack ⟨updated env false, true, true⟩ ↔
      if env.Succeed [.restart, .restartSleep] ∧ (env.exits .isActive = 0 → env.Succeed [.status, .statusSed]) then
        Q () ⟨updated env true, true, true⟩
      else env.origin = env.head := by
  have hrestart : ∀ {Q : Unit → Shell (World Commit) → Prop},
      (Bash.simple (systemctlRestart env .restart)).wp Q FinishedOrRolledBack ⟨updated env false, true, true⟩ ↔
        if env.exits .restart = 0 then Q () ⟨updated env true, true, true⟩ else env.origin = env.head := by
    intro Q
    by_cases h : env.exits .restart = 0
    · simp [Bash.wp_simple, systemctlRestart, h, updated]
    · have hfinished := (finished_iff h (updated env true)).trans (finished_updated env true)
      simpa [Bash.wp_simple, systemctlRestart, h, updated] using hfinished
  simp only [restartService, Bash.wp_bind, hrestart, wp_simple_plain, Bash.wp_condition, Command.exits, Bash.wp_when, wp_pipe_plain,
    Bash.wp_pure, finished_updated, succeed_cons, true_and]
  by_cases hstarted : env.exits .restart = 0
  · by_cases hsleep : env.exits .restartSleep = 0
    · by_cases hactive : env.exits .isActive = 0
      · simp [hstarted, hsleep, hactive, succeed_nil]
      · simp [hstarted, hsleep, hactive, succeed_nil]
    · simp [hstarted, hsleep]
  · simp [hstarted]

theorem wp_installRequirements {Q : Unit → Shell (World Commit) → Prop} :
    (installRequirements env).wp Q FinishedOrRolledBack ⟨updated env false, true, true⟩ ↔
      env.exits .activate = 0 ∧ if env.exits .pipInstall = 0 then Q () ⟨updated env false, true, true⟩ else RollsBack env false := by
  simp only [installRequirements, Bash.wp_bind, wp_simple_plain, Bash.wp_ignore, Bash.wp_guarded, pipeline_plain, Bash.wp_when,
    Bash.wp_exit, wp_rollback, finished_updated]
  by_cases hactivate : env.exits .activate = 0
  · by_cases hpip : env.exits .pipInstall = 0
    · simp [hactivate, hpip]
    · simp [hactivate, hpip]
  · simp [hactivate]

/-- When the script ends as wanted once the code has changed. -/
def Env.Recovers : Prop :=
  (env.versionFile = true → env.Succeed [.versionCat, .versionTr]) ∧ env.exits .activate = 0 ∧
    if env.exits .pipInstall ≠ 0 then RollsBack env false
    else if env.Succeed [.restart, .restartSleep] ∧ (env.exits .isActive = 0 → env.Succeed [.status, .statusSed]) then env.Verified
    else env.origin = env.head

theorem wp_rest :
    (rest env).wp (fun n s => FinishedOrRolledBack n s.world) FinishedOrRolledBack ⟨updated env false, true, true⟩ ↔ env.Recovers := by
  simp only [rest, readVersion, Bash.wp_bind, Bash.wp_when, Bash.wp_pure, wp_pipe_plain, wp_installRequirements, wp_restartService,
    wp_verifyHealth, finished_updated]
  unfold Env.Recovers
  by_cases hversion : env.versionFile = true → env.Succeed [.versionCat, .versionTr]
  · by_cases hfile : env.versionFile = true
    · simp [hfile, hversion hfile]
    · simp [hfile]
  · obtain ⟨hfile, hfails⟩ := Classical.not_imp.1 hversion
    simp [hfile, hfails]

/-! ### The whole script -/

/-- All that stands between the choice of the directory and the checkout succeeds. -/
def Env.Fetches : Prop :=
  env.Succeed [.cdGitDir, .revParse, .fetch, .aheadLog, .aheadWc, .aheadTr] ∧
    (0 < env.ahead → env.Succeed [.incomingLog, .incomingSed])

/-- The script gets as far as the branch. -/
def Env.ChecksOut : Prop :=
  (env.appGit = false → env.exits .dirname = 0) ∧ env.repository = true ∧ env.Fetches ∧ env.exits .checkout = 0

/-- Neither the checkout nor the reset changes the working tree. -/
def Env.UpToDate : Prop := env.branch = env.head ∧ env.origin = env.head ∧ env.dirty = false

instance : Decidable env.UpToDate := inferInstanceAs (Decidable (_ ∧ _ ∧ _))

/-- What must be so of the statuses and the commits. -/
def Env.Covered : Prop :=
  env.ChecksOut →
    if env.exits .reset ≠ 0 then env.branch = env.head
    else env.UpToDate ∨ (env.exits .cdAppDir = 0 ∧ env.Recovers)

/-- The world with `PREV_COMMIT`. -/
def recorded : World Commit := { env.start with prevCommit := some env.head }

omit [DecidableEq Commit] in
theorem start_unchanged : Unchanged env env.start := ⟨rfl, rfl, by simp [Env.start]⟩

omit [DecidableEq Commit] in
theorem recorded_unchanged : Unchanged env (recorded env) := ⟨rfl, rfl, by simp [recorded, eq_comm]⟩

theorem resetHard_switch :
    ((recorded env).switch env.branch).resetHard env.origin = if env.UpToDate then recorded env else updated env false := by
  by_cases hbranch : env.branch = env.head
  · have hswitch : (recorded env).switch env.branch = recorded env := if_pos hbranch
    rw [hswitch]
    by_cases horigin : env.origin = env.head ∧ env.dirty = false
    · rw [if_pos ⟨hbranch, horigin⟩]
      exact if_pos horigin
    · rw [if_neg (fun h => horigin h.2)]
      exact if_neg horigin
  · have hswitch : (recorded env).switch env.branch = ⟨some env.head, env.branch, env.dirty, true, false, none⟩ := if_neg hbranch
    rw [hswitch, if_neg (fun h => hbranch h.1)]
    by_cases horigin : env.origin = env.branch ∧ env.dirty = false
    · simp [World.resetHard, updated, horigin]
    · exact if_neg horigin

/-- A script that fails between the checkout and the reset leaves the branch behind. -/
theorem finished_switch : FinishedOrRolledBack 1 ((recorded env).switch env.branch) ↔ env.branch = env.head := by
  by_cases hbranch : env.branch = env.head
  · have hswitch : (recorded env).switch env.branch = recorded env := if_pos hbranch
    rw [hswitch]
    exact ⟨fun _ => hbranch, fun _ => (recorded_unchanged env).finished 1⟩
  · have hswitch : (recorded env).switch env.branch = ⟨some env.head, env.branch, env.dirty, true, false, none⟩ := if_neg hbranch
    rw [hswitch]
    simp [FinishedOrRolledBack, hbranch]

theorem wp_apply {Q : Unit → Shell (World Commit) → Prop} :
    (apply env).wp Q FinishedOrRolledBack ⟨recorded env, true, true⟩ ↔
      (env.exits .checkout = 0 →
        if env.exits .reset ≠ 0 then env.branch = env.head
        else if env.UpToDate then env.exits .cdAppDir = 0 → Q () ⟨recorded env, true, true⟩
        else env.exits .cdAppDir = 0 ∧ Q () ⟨updated env false, true, true⟩) := by
  simp only [apply, checkout, reset, Bash.wp_bind, Bash.wp_guarded, Command.pipeline, Command.succeeds, Command.exits,
    List.headD_cons, Bash.wp_ite, Bash.wp_exit, wp_simple_plain]
  by_cases hcheckout : env.exits .checkout = 0
  · by_cases hreset : env.exits .reset = 0
    · simp only [hcheckout, hreset, if_true, resetHard_switch, ne_eq, not_true_eq_false, if_false, true_imp_iff]
      have hrecorded := (recorded_unchanged env).finished 1
      by_cases hup : env.UpToDate
      · simp [hup, hrecorded]
      · simp [hup, finished_updated]
    · simp [hcheckout, hreset, finished_switch]
  · have hrecorded := (recorded_unchanged env).finished 1
    simp [hcheckout, hrecorded]

omit [DecidableEq Commit] in
/-- The fetch is guarded, with or without a token. -/
theorem wp_fetch {Q : Nat → Shell (World Commit) → Prop} {E : Nat → World Commit → Prop} {w : World Commit} :
    (fetch env).wp Q E ⟨w, true, true⟩ ↔ Q (env.exits .fetch) ⟨w, true, true⟩ := by
  simp [fetch, Bash.wp_pipe, Command.pipeline, Command.exits]

omit [DecidableEq Commit] in
variable {env} in
/-- A script that stops before the checkout leaves everything as it was. -/
theorem wp_simple_unchanged {Q : Unit → Shell (World Commit) → Prop} {w : World Commit} (hw : Unchanged env w) (site : Site) :
    (Bash.simple (plain env site)).wp Q FinishedOrRolledBack ⟨w, true, true⟩ ↔ (env.exits site = 0 → Q () ⟨w, true, true⟩) := by
  rw [wp_simple_plain]
  by_cases h : env.exits site = 0
  · simp [h]
  · simp [h, hw.finished 1]

omit [DecidableEq Commit] in
variable {env} in
theorem wp_pipe_unchanged {Q : List Nat → Shell (World Commit) → Prop} {w : World Commit} (hw : Unchanged env w) (sites : List Site) :
    (Bash.pipe (sites.map (plain env))).wp Q FinishedOrRolledBack ⟨w, true, true⟩ ↔
      (env.Succeed sites → Q (sites.map env.exits) ⟨w, true, true⟩) := by
  rw [wp_pipe_plain]
  by_cases h : env.Succeed sites
  · simp [h]
  · simp [h, hw.finished 1]

omit [DecidableEq Commit] in
theorem wp_revParse {Q : Unit → Shell (World Commit) → Prop} :
    (Bash.simple (revParse env)).wp Q FinishedOrRolledBack ⟨env.start, true, true⟩ ↔
      (env.exits .revParse = 0 → Q () ⟨recorded env, true, true⟩) := by
  by_cases h : env.exits .revParse = 0
  · simp [Bash.wp_simple, revParse, Command.succeeds, h, recorded, Env.start]
  · have hstart := (start_unchanged env).finished (env.exits .revParse)
    simp [Bash.wp_simple, revParse, Command.succeeds, h, hstart]

omit [DecidableEq Commit] in
theorem wp_showIncoming {Q : Unit → Shell (World Commit) → Prop} :
    (showIncoming env).wp Q FinishedOrRolledBack ⟨recorded env, true, true⟩ ↔
      (env.Succeed [.aheadLog, .aheadWc, .aheadTr] → (0 < env.ahead → env.Succeed [.incomingLog, .incomingSed]) →
        Q () ⟨recorded env, true, true⟩) := by
  simp only [showIncoming, Bash.wp_bind, Bash.wp_when, Bash.wp_pure, wp_pipe_unchanged (recorded_unchanged env), decide_eq_true_eq]
  by_cases hahead : 0 < env.ahead
  · simp only [hahead, if_true, true_imp_iff]
  · simp only [hahead, if_false, false_imp_iff, true_imp_iff]

theorem wp_pull {Q : Unit → Shell (World Commit) → Prop} :
    (pull env).wp Q FinishedOrRolledBack ⟨env.start, true, true⟩ ↔
      ((env.appGit = false → env.exits .dirname = 0) →
        if env.repository then env.Fetches → (apply env).wp Q FinishedOrRolledBack ⟨recorded env, true, true⟩
        else Q () ⟨env.start, true, true⟩) := by
  have hfetched : ∀ {P : Prop}, (if env.exits .fetch ≠ 0 then FinishedOrRolledBack 1 (recorded env) else P) ↔
      (env.exits .fetch = 0 → P) := by
    intro P
    by_cases h : env.exits .fetch = 0
    · simp [h]
    · simp [h, (recorded_unchanged env).finished 1]
  have hfetches : ∀ {P : Prop}, (env.exits .cdGitDir = 0 → env.exits .revParse = 0 → env.exits .fetch = 0 →
      env.Succeed [.aheadLog, .aheadWc, .aheadTr] → (0 < env.ahead → env.Succeed [.incomingLog, .incomingSed]) → P) ↔
        (env.Fetches → P) := by
    intro P
    simp only [Env.Fetches, succeed_cons, and_imp]
  simp only [pull, Bash.wp_bind, Bash.wp_when, Bash.wp_ite, Bash.wp_exit, wp_simple_unchanged (start_unchanged env), wp_revParse,
    wp_fetch, hfetched, wp_showIncoming, hfetches]
  cases happ : env.appGit with
  | false => simp
  | true => simp

theorem finished_or_rolled_back_iff :
    FinishedOrRolledBack ((update env).run env.start).1 ((update env).run env.start).2 ↔ env.Covered := by
  have hrest : ∀ w, Unchanged env w → (rest env).wp (fun n s => FinishedOrRolledBack n s.world) FinishedOrRolledBack ⟨w, true, true⟩ :=
    fun w hw => Bash.wp_mono (rest_keeps env ⟨w, true, true⟩ hw) (fun n _ h => h.finished n) (fun n _ h => h.finished n)
  have hupdate : update env = (do Bash.setErrexit true; Bash.setPipefail true; pull env; rest env) := rfl
  rw [Bash.wp_run (P := FinishedOrRolledBack), hupdate]
  simp only [Bash.wp_bind, Bash.wp_setErrexit, Bash.wp_setPipefail, wp_pull, wp_apply, hrest _ (start_unchanged env),
    hrest _ (recorded_unchanged env), wp_rest]
  unfold Env.Covered Env.ChecksOut
  cases hrepository : env.repository with
  | false => simp
  | true =>
    have hreset : (if env.exits .reset ≠ 0 then env.branch = env.head
        else if env.UpToDate then env.exits .cdAppDir = 0 → True else env.exits .cdAppDir = 0 ∧ env.Recovers) ↔
        if env.exits .reset ≠ 0 then env.branch = env.head else env.UpToDate ∨ env.exits .cdAppDir = 0 ∧ env.Recovers := by
      by_cases hup : env.UpToDate
      · simp only [hup, if_true, implies_true, true_or]
      · simp only [hup, if_false, false_or]
    simp only [if_true, hreset, true_and, and_imp]

/-- The remote has a new commit, and `systemctl restart` fails. -/
def failedRestart : Env Nat where
  exits site := if site = .restart then 1 else 0
  appGit := true
  parentGit := false
  rootGit := true
  githubToken := false
  head := 0
  branch := 0
  origin := 1
  dirty := false
  ahead := 1
  versionFile := true

/-- `set -e` stops the script at the restart, and the new code stays. -/
theorem failed_restart_keeps_new_code :
    ((update failedRestart).run failedRestart.start).1 = 1 ∧
      ((update failedRestart).run failedRestart.start).2.rollbackCheckout = none ∧
      ¬FinishedOrRolledBack ((update failedRestart).run failedRestart.start).1 ((update failedRestart).run failedRestart.start).2 := by
  have hrun : (update failedRestart).run failedRestart.start = (1, ⟨some 0, 1, false, true, true, none⟩) := by decide
  rw [hrun]
  refine ⟨rfl, rfl, ?_⟩
  intro h
  have hhead := (h Nat.one_ne_zero rfl (by intro n hn; cases hn)).1
  exact absurd hhead (by decide)

end ProxmoxTool.SelfUpdate
