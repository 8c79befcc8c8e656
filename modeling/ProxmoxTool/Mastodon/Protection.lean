import ProxmoxTool.Mastodon.Commands

/-!
# Protection and restarts

The rest of `run_mastodon_upgrade` as a script (`Mastodon/Commands` has its step 3), with `snapshot_guest` and `backup_guest` of
`apps/backup.py` down to their polling, and two orders of events in every transcript of it: Mastodon is restarted on the primary guest
only while `.env.production` reads PGBouncer's lines, and nothing that may change the tree, the file or the database is issued before
every configured guest has its snapshot or backup.
-/

namespace ProxmoxTool.Mastodon.Commands

/-- What else the run depends on: `proxmoxHost` is whether the guest has a host, `polls` how often a task is asked for before the
deadline, and `nodeRange` is `engines.node` of `package.json`, `some none` where it is truthy and no string. -/
structure Surroundings where
  view : View
  proxmoxHost : GuestRow → Bool
  polls : GuestRow → Nat
  backupMode : Text
  nodeRange : Text → Option (Option Text)

variable (u : CharTable) (sur : Surroundings) (cfg : Config)

/-! ### The check of the environment -/

/-- `_check_env_compliance`: whether it returns; the comparison at its end raises on a range that is no string. -/
def checkEnvCompliance : Remote Bool := do
  let installed (site : Bool → CheckSite) (pattern : Text → Option Text) : Remote Unit := do
    let r ← issue (.check (site false))
    match if r.ok then search pattern r.out else none with
    | some _ => return
    | none => let _ ← issue (.check (site true))
  let _ ← issue (.check .fetch)
  let _ ← issue (.check .rubyVersion)
  let r ← issue (.check .packageJson)
  let requiredNode := if r.ok && !(strip r.out).isEmpty then sur.nodeRange r.out else none
  installed .ruby (afterLead ['r', 'u', 'b', 'y'] version3)
  let r ← issue (.check .node)
  let installedNode := if r.ok then search version3 (strip r.out) else none
  installed .bundler version2
  return !(requiredNode = some none && installedNode.isSome)

/-- A line of `/proc/meminfo`: `^(\w+):\s+(\d+)\s+kB`, in MiB. -/
def meminfoLine (line : Text) : Option (Text × Nat) := do
  let name := line.takeWhile u.isWord
  guard (name ≠ [])
  match line.drop name.length with
  | ':' :: rest =>
    let blank := rest.takeWhile isSpace
    let ds ← digits (rest.drop blank.length)
    let rest := rest.drop (blank.length + ds.length)
    guard (blank ≠ [] ∧ rest.takeWhile isSpace ≠ [] ∧ ['k', 'B'].isPrefixOf (rest.dropWhile isSpace))
    return (name, number ds / 1024)
  | _ => none

/-- `_parse_meminfo_mb`; of two lines with one name, the later counts. -/
def parseMeminfoMb (text : Text) : List (Text × Nat) := ((splitLines text).filterMap (meminfoLine u)).reverse

def minAvailableMemoryMb : Nat := 3072

/-- `_check_memory_headroom`. -/
def checkMemoryHeadroom : Remote (Option Bool) := do
  let r ← issue (.check .meminfo)
  let info := if r.ok then parseMeminfoMb u r.out else []
  return (info.lookup ['M', 'e', 'm', 'A', 'v', 'a', 'i', 'l', 'a', 'b', 'l', 'e']).map fun mb => decide (minAvailableMemoryMb ≤ mb)

/-- The check before step 1: whether the run goes on. -/
def checkEnvironment (primary : GuestRow) : Remote Bool := do
  if !primary.ipAddress then return true
  if !(← issue (.connect .check)) then return true
  if !(← checkEnvCompliance sur) then return true
  return (← checkMemoryHeadroom u) != some false

/-! ### Step 1 -/

def stopped : Text := ['s', 't', 'o', 'p', 'p', 'e', 'd']

/-- The polling loop; the deadline ends it after `n` rounds. -/
def pollTask (g : GuestRow) (node upid : Text) : Nat → Remote Bool
  | 0 => return false
  | n + 1 => do
    match ← issue (.taskStatus g node upid) with
    | none => pollTask g node upid n
    | some task =>
      if task.status = some stopped then return task.exitstatus = some ['O', 'K']
      else pollTask g node upid n

/-- What `snapshot_guest` and `backup_guest` have in common. -/
def protectGuest (task : Task) (g : GuestRow) : Remote Bool := do
  if !sur.proxmoxHost g then return false
  match ← issue (.findNode g) with
  | none => return false
  | some node =>
    if node = [] then return false
    match ← issue (.create task g node) with
    | none => return false
    | some upid => pollTask g node upid (sur.polls g)

/-- `snapshot_guest`. -/
def snapshotGuest (g : GuestRow) : Remote Bool := protectGuest sur .snapshot g

/-- `backup_guest`. -/
def backupGuest (g : GuestRow) (storage mode : Text) : Remote Bool := protectGuest sur (.backup storage mode) g

/-- Step 1. -/
def protect (skipProtection : Bool) (primary db : GuestRow) (second : Option GuestRow) : Remote Bool := do
  if skipProtection then return true
  let isBackup := decide (cfg.protectionType = ['b', 'a', 'c', 'k', 'u', 'p'])
  if isBackup && cfg.backupStorage.isEmpty then return false
  let one (g : GuestRow) := if isBackup then backupGuest sur g cfg.backupStorage sur.backupMode else snapshotGuest sur g
  if !(← one primary) then return false
  match second with
  | some g => if !(← one g) then return false
  | none => pure ()
  one db

/-! ### The run -/

/-- Step 2. -/
def dumpDatabase (skipProtection : Bool) (db : GuestRow) : Remote Unit := do
  if !skipProtection && db.ipAddress && (db.credential || sur.view.defaultCredential) then
    if ← issue (.connect .database) then
      let _ ← issue .pgDump

/-- Step 3, with the `except` branch. -/
def upgradePrimary : Remote Bool := do
  if !(← issue (.connect .upgrade)) then return false
  match ← stepThree u sur.view cfg {} with
  | (.ok ok, _) => return ok
  | (.error _, vars) =>
    if vars.envSwapped || vars.stashPending then
      if ← issue (.connect .again) then
        let _ ← abort u cfg .retryPop .retry true vars
    return false

/-- `_run_second_guest_sync`, from the connection on. -/
def syncOver : Remote Bool := do
  let (ok, stashed) ← gitStash (execute .second)
  if !ok then return false
  if !(← execute .second .pull).ok then
    if stashed then
      let _ ← gitStashPop (execute .second) .abortPop
    return false
  if stashed then
    let _ ← gitStashPop (execute .second) .pop
  if !(← remediateEnvironment (execute .second) sur.view.engines) then return false
  if !(← execute .second .bundle).ok then return false
  if !(← execute .second .yarn).ok then return false
  if !(← execute .second .assets).ok then return false
  let _ ← execute .second .restart
  return true

/-- `_run_second_guest_sync`. -/
def runSecondGuestSync (g : GuestRow) : Remote Bool := do
  if !(g.credential || sur.view.defaultCredential) then return false
  if !g.ipAddress then return false
  if !(← issue (.connect .second)) then return false
  syncOver sur

/-- All that comes before step 3: the second guest, if the run goes on. -/
def beforeStepThree (skipProtection : Bool) : Remote (Except Early (Option GuestRow)) :=
  match prepare u sur.view cfg with
  | .error e => return .error e
  | .ok (primary, db, second) => do
    if !(← checkEnvironment u sur primary) then return .error .refused
    if !(← protect sur cfg skipProtection primary db second) then return .error .refused
    dumpDatabase sur skipProtection db
    return .ok second

/-- `run_mastodon_upgrade`. -/
def runMastodonUpgrade (skipProtection : Bool) : Remote (Except Early Bool) := do
  match ← beforeStepThree u sur cfg skipProtection with
  | .error .raised => return .error .raised
  | .error .refused => return .ok false
  | .ok second =>
    if !(← upgradePrimary u sur cfg) then return .ok false
    if let some g := second then
      let _ ← runSecondGuestSync sur g
    return .ok true

/-! ### What a history shows -/

abbrev Log := Script.History Command Answer

/-- What was last read back of `.env.production`, if nothing has been written to it since. -/
def lastReadBack : Log → Option EnvFile
  | [] => none
  | ⟨.grep _, lines⟩ :: _ => lines
  | ⟨.sed _ _ _, _⟩ :: _ => none
  | _ :: h => lastReadBack h

/-- The last content read back contains the lines of `t`, up to white space around them. -/
def OnTarget (t : Target) (h : Log) : Prop := ∃ lines ∈ lastReadBack h, ∀ f : Field, f.key ++ t.get f ∈ lines.map strip

/-- A snapshot or backup was started for the guest, and Proxmox has reported that the task succeeded. -/
def Protected (id : Int) (h : Log) : Prop :=
  ∃ (g : GuestRow) (kind : Task) (node upid : Text) (task : TaskStatus), g.id = id ∧ ⟨.create kind g node, some upid⟩ ∈ h ∧
    ⟨.taskStatus g node upid, some task⟩ ∈ h ∧ task.status = some stopped ∧ task.exitstatus = some ['O', 'K']

/-- The guests that the configuration names. -/
def configuredGuests (view : View) (cfg : Config) : List GuestRow :=
  [cfg.guestId, cfg.guestId2, cfg.dbGuestId].filterMap fun id => (parseInt id).bind view.guest

/-- `systemctl restart mastodon-*` on the primary guest. -/
def restarts : Command → Bool
  | .run .primary .restart | .run .primary .finalRestart => true
  | _ => false

/-- The commands of step 3 and step 4 that only read. -/
def reads : Site → Bool
  | .unmerged | .conflicts | .rubyVersionFile | .ruby _ | .rubyVerify | .gemfileLock | .bundler _ | .packageJson => true
  | .node | .nodeVerify | .version => true
  | _ => false

/-- The command may change the working tree, the environment file or the database of one of the guests. -/
def changes : Command → Bool
  | .run _ site => !reads site
  | .sed _ _ _ => true
  | _ => false

/-- Every configured guest is protected, unless that was to be skipped. -/
def Sheltered (view : View) (cfg : Config) (skip : Bool) (h : Log) : Prop :=
  skip = true ∨ ∀ g ∈ configuredGuests view cfg, Protected g.id h

/-- What must have happened before a command. -/
structure Allowed (view : View) (cfg : Config) (skip : Bool) (before : Log) (c : Command) : Prop where
  restart : restarts c = true → OnTarget cfg.pgbouncer before
  change : changes c = true → Sheltered view cfg skip before

/-- Every command was issued when it was allowed. -/
def Careful (view : View) (cfg : Config) (skip : Bool) (h : Log) : Prop :=
  ∀ c r before, (⟨c, r⟩ :: before) <:+ h → Allowed view cfg skip before c

section

variable {view : View} {cfg : Config} {skip : Bool} {h : Log} {id : Int} {α β : Type}

theorem Protected.cons (hp : Protected id h) (e : (c : Command) × Answer c) : Protected id (e :: h) := by
  obtain ⟨g, kind, node, upid, task, hid, hcreate, htask, hstatus⟩ := hp
  exact ⟨g, kind, node, upid, task, hid, List.mem_cons_of_mem _ hcreate, List.mem_cons_of_mem _ htask, hstatus⟩

theorem Sheltered.cons (hs : Sheltered view cfg skip h) (e : (c : Command) × Answer c) : Sheltered view cfg skip (e :: h) :=
  hs.imp_right fun hall g hg => (hall g hg).cons e

theorem Sheltered.allowed (hs : Sheltered view cfg skip h) {c : Command} (hc : restarts c = false) : Allowed view cfg skip h c :=
  ⟨fun hr => absurd (hc.symm.trans hr) Bool.false_ne_true, fun _ => hs⟩

/-- No restart of the primary guest. -/
def quiet (c : Command) : Prop := restarts c = false

theorem quiet_execute {machine : Machine} {site : Site} (hc : restarts (.run machine site) = false := by rfl) :
    Script.Only quiet (execute machine site) :=
  .send hc

theorem checks_of_sheltered {x : Remote α} (hs : Sheltered view cfg skip h) (hx : Script.Only quiet x) :
    Script.Checks (Allowed view cfg skip) (fun h _ => Sheltered view cfg skip h) h x :=
  hx.checks hs (fun _ _ hs hc => hs.allowed hc) fun _ _ _ hs _ => hs.cons _

/-! ### Before step 3 -/

/-- A command that goes neither to a tree nor to the environment file. -/
def harmless : Command → Prop
  | .run _ _ | .sed _ _ _ | .grep _ => False
  | _ => True

theorem checks_of_harmless {x : Remote α} (hx : Script.Only harmless x) :
    Script.Checks (Allowed view cfg skip) (fun _ _ => True) h x := by
  refine hx.checks (I := fun _ => True) trivial (fun h c _ hc => ?_) fun _ _ _ _ _ => trivial
  cases c with
  | run machine site => exact hc.elim
  | sed w f value => exact hc.elim
  | grep w => exact hc.elim
  | _ => exact ⟨nofun, nofun⟩

theorem harmless_check (site : CheckSite) : Script.Only harmless (issue (.check site)) := .send trivial

theorem harmless_checkEnvCompliance (sur : Surroundings) : Script.Only harmless (checkEnvCompliance sur) := by
  have hinstalled : ∀ (site : Bool → CheckSite) (pattern : Text → Option Text), Script.Only harmless
      (do
        let r ← issue (.check (site false))
        match if r.ok then search pattern r.out else none with
        | some _ => return
        | none => let _ ← issue (.check (site true))) := by
    intro site pattern
    refine (harmless_check _).bind fun r => ?_
    cases if r.ok then search pattern r.out else none with
    | some v => exact .pure _
    | none => exact (harmless_check _).bind fun _ => .pure _
  refine (harmless_check _).bind fun _ => (harmless_check _).bind fun _ => (harmless_check _).bind fun r => ?_
  refine (hinstalled _ _).bind fun _ => (harmless_check _).bind fun r' => (hinstalled _ _).bind fun _ => ?_
  exact .pure _

theorem harmless_checkEnvironment (u : CharTable) (sur : Surroundings) (primary : GuestRow) :
    Script.Only harmless (checkEnvironment u sur primary) := by
  have hconnect : Script.Only harmless (issue (.connect .check)) := .send trivial
  refine .ite (.pure _) (hconnect.bind fun up => .ite (.pure _) ?_)
  refine (harmless_checkEnvCompliance sur).bind fun ok => .ite (.pure _) (Script.Only.bind ?_ fun mem => .pure _)
  exact (harmless_check _).bind fun r => .pure _

theorem harmless_dumpDatabase (sur : Surroundings) (skip : Bool) (db : GuestRow) : Script.Only harmless (dumpDatabase sur skip db) := by
  have hconnect : Script.Only harmless (issue (.connect .database)) := .send trivial
  have hpgDump : Script.Only harmless (issue .pgDump) := .send trivial
  exact .ite (hconnect.bind fun up => .ite (hpgDump.bind fun _ => .pure _) (.pure _)) (.pure _)

/-- The polls of a task that was started for the guest. -/
theorem checks_pollTask {g : GuestRow} {kind : Task} {node upid : Text} (n : Nat)
    (hcreate : ⟨.create kind g node, some upid⟩ ∈ h) :
    Script.Checks (Allowed view cfg skip) (fun h ok => ok = true → Protected g.id h) h (pollTask g node upid n) := by
  induction n generalizing h with
  | zero => exact .pure fun hok => absurd hok Bool.false_ne_true
  | succ n ih =>
    have hpoll : ∀ h, Allowed view cfg skip h (.taskStatus g node upid) := fun h => ⟨nofun, nofun⟩
    refine Script.Checks.send_bind (hpoll h) fun answer => ?_
    have hcreate' := List.mem_cons_of_mem ⟨.taskStatus g node upid, answer⟩ hcreate
    cases answer with
    | none => exact ih hcreate'
    | some task =>
      dsimp only
      split
      · rename_i hstopped
        exact .pure fun hok => ⟨g, kind, node, upid, task, rfl, hcreate', List.mem_cons_self, hstopped, of_decide_eq_true hok⟩
      · exact ih hcreate'

theorem checks_protectGuest (sur : Surroundings) (kind : Task) (g : GuestRow) :
    Script.Checks (Allowed view cfg skip) (fun h ok => ok = true → Protected g.id h) h (protectGuest sur kind g) := by
  have hstop : ∀ h, Script.Checks (Allowed view cfg skip) (fun h ok => ok = true → Protected g.id h) h (pure false) :=
    fun h => .pure fun hok => absurd hok Bool.false_ne_true
  unfold protectGuest
  split
  · exact hstop h
  · refine Script.Checks.send_bind ⟨nofun, nofun⟩ fun node => ?_
    cases node with
    | none => exact hstop _
    | some node =>
      dsimp only
      split
      · exact hstop _
      · refine Script.Checks.send_bind ⟨nofun, nofun⟩ fun upid => ?_
        cases upid with
        | none => exact hstop _
        | some upid => exact checks_pollTask (sur.polls g) List.mem_cons_self

/-- Step 1 goes on once each of the guests is protected. -/
theorem checks_protect (sur : Surroundings) (primary db : GuestRow) (second : Option GuestRow) :
    Script.Checks (Allowed view cfg skip)
      (fun h ok => ok = true → skip = true ∨ Protected primary.id h ∧ (∀ g ∈ second, Protected g.id h) ∧ Protected db.id h) h
      (protect sur cfg skip primary db second) := by
  have hone : ∀ (isBackup : Bool) (g : GuestRow) (h : Log), Script.Checks (Allowed view cfg skip)
      (fun h ok => ok = true → Protected g.id h) h
      (if isBackup then backupGuest sur g cfg.backupStorage sur.backupMode else snapshotGuest sur g) := by
    intro isBackup g h
    split
    · exact checks_protectGuest sur _ g
    · exact checks_protectGuest sur _ g
  have hstop : ∀ h, Script.Checks (Allowed view cfg skip)
      (fun h ok => ok = true → skip = true ∨ Protected primary.id h ∧ (∀ g ∈ second, Protected g.id h) ∧ Protected db.id h) h
      (pure false) :=
    fun h => .pure fun hok => absurd hok Bool.false_ne_true
  unfold protect
  split
  · rename_i hskip
    exact .pure fun _ => .inl hskip
  · dsimp only
    split
    · exact hstop h
    · refine (hone _ primary h).bind fun h ok hprimary => ?_
      split
      · exact hstop h
      · rename_i hok
        have hprimary : Protected primary.id h := hprimary (by simpa using hok)
        have hlast : ∀ (isBackup : Bool) h, Protected primary.id h ∧ (∀ g ∈ second, Protected g.id h) →
            Script.Checks (Allowed view cfg skip) (fun h ok => ok = true →
              skip = true ∨ Protected primary.id h ∧ (∀ g ∈ second, Protected g.id h) ∧ Protected db.id h) h
            (if isBackup then backupGuest sur db cfg.backupStorage sur.backupMode else snapshotGuest sur db) := by
          intro isBackup h hbefore
          have hkept := (hone isBackup db h).and_kept (I := fun h => Protected primary.id h ∧ ∀ g ∈ second, Protected g.id h)
            hbefore fun _ _ _ hp => ⟨hp.1.cons _, fun g hg => (hp.2 g hg).cons _⟩
          exact hkept.mono fun h ok hend hok => .inr ⟨hend.2.1, hend.2.2, hend.1 hok⟩
        cases second with
        | none => exact hlast _ h ⟨hprimary, nofun⟩
        | some g =>
          refine ((hone _ g h).and_kept hprimary fun _ _ _ hp => hp.cons _).bind fun h ok hend => ?_
          split
          · exact hstop h
          · rename_i hok
            refine hlast _ h ⟨hend.2, fun g' hg' => ?_⟩
            obtain rfl := Option.mem_some_iff.1 hg'
            exact hend.1 (by simpa using hok)

/-! ### Step 3 -/

variable (view cfg skip)

/-- From a history with `pre`, where every guest is protected, every command of the step comes when it is allowed, and `post` holds if
the step does not raise. -/
def Triple (pre : Log → Prop) (x : Step α) (post : Log → α → Prop) : Prop :=
  ∀ vars h, Sheltered view cfg skip h → pre h → Script.Checks (Allowed view cfg skip)
    (fun h r => Sheltered view cfg skip h ∧ ∀ a, r.1 = .ok a → post h a) h (x vars)

variable {view cfg skip} {pre pre' : Log → Prop} {post : Log → α → Prop}

theorem Triple.pure {a : α} (ha : ∀ h, pre h → post h a) : Triple view cfg skip pre (pure a) post := by
  intro vars h hs hpre
  refine ⟨hs, fun b hb => ?_⟩
  obtain rfl := Except.ok.inj hb
  exact ha h hpre

theorem Triple.bind {mid : Log → α → Prop} {post : Log → β → Prop} {x : Step α} {f : α → Step β}
    (hx : Triple view cfg skip pre x mid) (hf : ∀ a, Triple view cfg skip (fun h => mid h a) (f a) post) :
    Triple view cfg skip pre (x >>= f) post := by
  intro vars h hs hpre
  refine (hx vars h hs hpre).bind fun h r hmid => ?_
  rcases r with ⟨⟨e⟩ | ⟨a⟩, vars'⟩
  · exact ⟨hmid.1, fun b hb => by cases hb⟩
  · exact hf a vars' h hmid.1 (hmid.2 a rfl)

theorem Triple.ite {c : Prop} [Decidable c] {x y : Step α} (hx : c → Triple view cfg skip pre x post)
    (hy : ¬ c → Triple view cfg skip pre y post) : Triple view cfg skip pre (if c then x else y) post := by
  split
  · exact hx ‹_›
  · exact hy ‹_›

theorem Triple.weaken {x : Step α} (hx : Triple view cfg skip pre x post) (himp : ∀ h, pre' h → pre h) :
    Triple view cfg skip pre' x post :=
  fun vars h hs hpre => hx vars h hs (himp h hpre)

theorem Triple.forget {x : Step α} (hx : Triple view cfg skip pre x post) : Triple view cfg skip pre x fun _ _ => True :=
  fun vars h hs hpre => (hx vars h hs hpre).mono fun _ _ hpost => ⟨hpost.1, fun _ _ => trivial⟩

theorem Triple.get_bind {f : Vars → Step α} (hf : ∀ vars, Triple view cfg skip pre (f vars) post) :
    Triple view cfg skip pre (get >>= f) post :=
  fun vars h hs hpre => hf vars vars h hs hpre

theorem Triple.modify (f : Vars → Vars) : Triple view cfg skip pre (modify f) fun h _ => pre h :=
  fun _ _ hs hpre => ⟨hs, fun _ _ => hpre⟩

theorem Triple.remote {x : Remote α} (hx : Script.Only quiet x) :
    Triple view cfg skip pre (remote x) fun _ _ => True := by
  intro vars h hs hpre
  rw [remote_apply]
  exact (checks_of_sheltered hs hx).bind fun h a hs => ⟨hs, fun _ _ => trivial⟩

/-- A command that leaves the file alone. -/
theorem Triple.execute {site : Site} (hc : ∀ h, pre h → restarts (.run .primary site) = true → OnTarget cfg.pgbouncer h) :
    Triple view cfg skip pre (Commands.remote (Commands.execute .primary site)) fun _ _ => True := by
  intro vars h hs hpre
  rw [remote_apply]
  exact Script.Checks.send_bind ⟨hc h hpre, fun _ => hs⟩ fun r => ⟨hs.cons _, fun _ _ => trivial⟩

theorem Triple.quiet {site : Site} (hc : restarts (.run .primary site) = false := by rfl) :
    Triple view cfg skip pre (Commands.remote (Commands.execute .primary site)) fun _ _ => True :=
  .execute fun _ _ hr => absurd (hc.symm.trans hr) Bool.false_ne_true

theorem Triple.throw_bind {e : Raised} {f : β → Step α} : Triple view cfg skip pre (throw e >>= f) post :=
  fun _ _ hs _ => ⟨hs, fun _ ha => by cases ha⟩

/-- A swap that reports success has read the lines of its target back. -/
theorem triple_swapEnvDb (u : CharTable) (w : Swap) (appDir : Text) (t : Target) :
    Triple view cfg skip (fun _ => True) (swapEnvDb u w appDir t) fun h ok => ok = true → OnTarget t h := by
  have hstop : ∀ {pre : Log → Prop}, Triple view cfg skip pre (pure false) fun h ok => ok = true → OnTarget t h :=
    .pure fun h _ hok => absurd hok Bool.false_ne_true
  have hsed : ∀ f v, Triple view cfg skip (fun _ => True) (remote (issue (.sed w f v))) fun _ _ => True :=
    fun f v => .remote (.send rfl)
  have hgrep : Triple view cfg skip (fun _ => True) (remote (issue (.grep w))) fun h lines => lastReadBack h = lines := by
    intro vars h hs _
    rw [remote_apply]
    refine Script.Checks.send_bind ⟨nofun, nofun⟩ fun lines => ⟨hs.cons _, fun lines' hlines => ?_⟩
    exact Except.ok.inj hlines
  have hedit : Triple view cfg skip (fun _ => True) (editEnv w t) fun h ok => ok = true → OnTarget t h := by
    refine (hsed .host t.host).bind fun ok => .ite (fun _ => hstop) fun _ => ?_
    refine (hsed .port t.port).bind fun ok => .ite (fun _ => hstop) fun _ => hgrep.bind fun out => ?_
    cases out with
    | none => exact hstop
    | some out =>
      refine .pure fun h hread hok => ⟨out, hread, fun f => ?_⟩
      unfold verified at hok
      rw [Bool.and_eq_true, List.contains_iff_mem, List.contains_iff_mem] at hok
      cases f with
      | host => exact (List.mem_filter.1 hok.1).1
      | port => exact (List.mem_filter.1 hok.2).1
  exact .ite (fun _ => .throw_bind) fun _ => .ite (fun _ => .throw_bind) fun _ => .ite (fun _ => hstop) fun _ => hedit

theorem triple_restoreEnv (u : CharTable) (w : Swap) :
    Triple view cfg skip (fun _ => True) (restoreEnv u cfg w) fun h ok => ok = true → OnTarget cfg.pgbouncer h := by
  refine (triple_swapEnvDb u w _ _).bind fun ok => .ite (fun _ => ?_) fun _ => .pure fun h hpost => hpost
  exact (Triple.modify _).bind fun _ => .pure fun h hpost => hpost

theorem triple_abort (u : CharTable) (site : Site) (w : Swap) (restore : Bool) (hsite : restarts (.run .primary site) = false) :
    Triple view cfg skip (fun _ => True) (abort u cfg site w restore) fun _ _ => True := by
  have hrestore : Triple view cfg skip (fun _ => True)
      (do
        if restore && (← get).envSwapped then
          let _ ← restoreEnv u cfg w
        return false) fun _ _ => True := by
    refine .get_bind fun vars => .ite (fun _ => ?_) fun _ => .pure fun _ _ => trivial
    exact (triple_restoreEnv u w).forget.bind fun _ => .pure fun _ _ => trivial
  refine .get_bind fun vars => .ite (fun _ => ?_) fun _ => hrestore
  refine (Triple.remote ((quiet_execute hsite).bind fun _ => .pure _)).bind fun _ => ?_
  exact (Triple.modify _).bind fun _ => hrestore

theorem triple_aborts {pre : Log → Prop} (u : CharTable) (restore : Bool) :
    Triple view cfg skip pre (abort u cfg .abortPop .abort restore) fun _ _ => True :=
  (triple_abort u .abortPop .abort restore rfl).weaken fun _ _ => trivial

theorem triple_postDeploy (u : CharTable) : Triple view cfg skip (fun _ => True) (postDeploy u cfg) fun _ _ => True := by
  refine (triple_swapEnvDb u _ _ _).forget.bind fun ok => .ite (fun _ => triple_aborts u false) fun _ => ?_
  refine (Triple.modify _).bind fun _ => (Triple.quiet).bind fun r => .ite (fun _ => triple_aborts u true) fun _ => ?_
  refine (triple_restoreEnv u .final).bind fun ok => .ite (fun _ => triple_aborts u false) fun hok => ?_
  refine (Triple.execute fun h hread _ => hread (by simpa using hok)).bind fun _ => ?_
  exact (Triple.quiet).bind fun _ => .pure fun _ _ => trivial

theorem triple_restart (u : CharTable) : Triple view cfg skip (fun _ => True) (restart u cfg) fun _ _ => True := by
  refine (triple_restoreEnv u .preRestart).bind fun ok => .ite (fun _ => triple_aborts u false) fun hok => ?_
  refine (Triple.execute fun h hread _ => hread (by simpa using hok)).bind fun _ => ?_
  exact (Triple.quiet).bind fun _ => triple_postDeploy u

theorem only_deploy (view : View) (pending : Bool) : Script.Only quiet (deploy view (execute .primary) pending) := by
  have hresolve : Script.Only quiet (resolveStashConflicts (execute .primary)) := by
    refine (quiet_execute).bind fun r => .ite (.pure _) (Script.Only.bind (.forM _ fun f _ => ?_) fun _ => ?_)
    · exact (quiet_execute).bind fun _ => (quiet_execute).bind fun _ => .pure _
    · exact (quiet_execute).bind fun _ => .pure _
  have hpop : Script.Only quiet (popAfterPull (execute .primary) pending) :=
    .ite (.pure _) ((quiet_execute).bind fun _ => .ite (.pure _) (hresolve.bind fun _ => .pure _))
  have hruntime : ∀ site, runtime site = true → quiet (.run .primary site) := by
    intro site hsite
    cases site <;> first | rfl | cases hsite
  refine (quiet_execute).bind fun r => .ite (.pure _) (hpop.bind fun pending => ?_)
  refine (only_remediateEnvironment hruntime view.engines).bind fun ok => .ite (.pure _) ?_
  refine (quiet_execute).bind fun r => .ite (.pure _) ((quiet_execute).bind fun r => .ite (.pure _) ?_)
  exact (quiet_execute).bind fun r => .ite (.pure _) ((quiet_execute).bind fun r => .pure _)

theorem triple_stepThree (u : CharTable) : Triple view cfg skip (fun _ => True) (stepThree u view cfg) fun _ _ => True := by
  have hstash : Script.Only quiet (gitStash (execute .primary)) := (quiet_execute).bind fun _ => .pure _
  have hswitch : Triple view cfg skip (fun _ => True) (switchAndDeploy u view cfg) fun _ _ => True := by
    refine (triple_swapEnvDb u _ _ _).forget.bind fun ok => .ite (fun _ => triple_aborts u false) fun _ => ?_
    refine (Triple.modify _).bind fun _ => .get_bind fun vars => (Triple.remote (only_deploy view _)).bind fun p => ?_
    exact (Triple.modify _).bind fun _ => .ite (fun _ => triple_aborts u true) fun _ => triple_restart u
  refine (Triple.quiet).bind fun r => .ite (fun _ => .pure fun _ _ => trivial) fun _ => ?_
  refine (Triple.remote hstash).bind fun p => .ite (fun _ => .pure fun _ _ => trivial) fun _ => ?_
  exact (Triple.modify _).bind fun _ => hswitch

/-! ### The run -/

theorem checks_upgradePrimary (u : CharTable) (sur : Surroundings) (hs : Sheltered sur.view cfg skip h) :
    Script.Checks (Allowed sur.view cfg skip) (fun h _ => Sheltered sur.view cfg skip h) h (upgradePrimary u sur cfg) := by
  refine Script.Checks.send_bind ⟨nofun, nofun⟩ fun up => ?_
  split
  · exact hs.cons _
  · refine (triple_stepThree u {} _ (hs.cons _) trivial).bind fun h r hend => ?_
    rcases r with ⟨⟨e⟩ | ⟨ok⟩, vars⟩
    · dsimp only
      split
      · refine Script.Checks.send_bind ⟨nofun, nofun⟩ fun up => ?_
        split
        · refine (triple_abort u .retryPop .retry true rfl vars _ (hend.1.cons _) trivial).bind fun h r hend => ?_
          exact .pure hend.1
        · exact hend.1.cons _
      · exact hend.1
    · exact hend.1

theorem only_runSecondGuestSync {p : Command → Prop} (hp : ∀ site, p (.run .second site)) (hconnect : p (.connect .second))
    (sur : Surroundings) (g : GuestRow) : Script.Only p (runSecondGuestSync sur g) := by
  have hexecute : ∀ site, Script.Only p (execute .second site) := fun site => only_execute (hp site)
  have hpop : ∀ site, Script.Only p (gitStashPop (execute .second) site) := fun site => (hexecute site).bind fun _ => .pure _
  have hrest : Script.Only p
      (do
        if !(← remediateEnvironment (execute .second) sur.view.engines) then return false
        if !(← execute .second .bundle).ok then return false
        if !(← execute .second .yarn).ok then return false
        if !(← execute .second .assets).ok then return false
        let _ ← execute .second .restart
        return true) := by
    refine (only_remediateEnvironment (fun site _ => hp site) sur.view.engines).bind fun ok => .ite (.pure _) ?_
    refine (hexecute _).bind fun r => .ite (.pure _) ((hexecute _).bind fun r => .ite (.pure _) ?_)
    exact (hexecute _).bind fun r => .ite (.pure _) ((hexecute _).bind fun r => .pure _)
  have hstash : Script.Only p (gitStash (execute .second)) := (hexecute _).bind fun _ => .pure _
  have hissue : Script.Only p (issue (.connect .second)) := .send hconnect
  refine .ite (.pure _) (.ite (.pure _) (hissue.bind fun up => .ite (.pure _) (hstash.bind fun p => .ite (.pure _) ?_)))
  refine (hexecute _).bind fun r => .ite (.ite ((hpop _).bind fun _ => .pure _) (.pure _)) ?_
  exact .ite ((hpop _).bind fun _ => hrest) hrest

theorem lookupGuest_ok {text : Text} {found : Option GuestRow} (hok : lookupGuest view text = .ok found) :
    (parseInt text).bind view.guest = found := by
  unfold lookupGuest at hok
  split at hok
  · cases hok
  · rename_i i hparse
    rw [hparse]
    exact Except.ok.inj hok

/-- What `prepare` has looked up. -/
theorem prepare_ok {u : CharTable} {primary db : GuestRow} {second : Option GuestRow}
    (hok : prepare u view cfg = .ok (primary, db, second)) :
    lookupGuest view cfg.guestId = .ok (some primary) ∧ lookupGuest view cfg.dbGuestId = .ok (some db) ∧
      secondGuest view cfg primary = .ok second := by
  simp only [prepare, bind, Except.bind, throw, throwThe, MonadExceptOf.throw, pure, Except.pure] at hok
  repeat' split at hok
  all_goals cases hok
  exact ⟨‹_›, ‹_›, ‹_›⟩

/-- The rows that `prepare` returns are those the configuration names; a second guest that is the primary one is left out. -/
theorem configuredGuests_of_prepare {u : CharTable} {sur : Surroundings} {primary db : GuestRow} {second : Option GuestRow}
    (hok : prepare u sur.view cfg = .ok (primary, db, second)) :
    ∀ g ∈ configuredGuests sur.view cfg, g.id = primary.id ∨ second = some g ∨ g = db := by
  obtain ⟨hprimary, hdb, hsecond⟩ := prepare_ok hok
  intro g hg
  unfold configuredGuests at hg
  obtain ⟨text, htext, hfound⟩ := List.mem_filterMap.1 hg
  simp only [List.mem_cons, List.not_mem_nil, or_false] at htext
  rcases htext with rfl | rfl | rfl
  · rw [lookupGuest_ok hprimary] at hfound
    exact .inl (congrArg GuestRow.id (Option.some.inj hfound.symm))
  · unfold secondGuest at hsecond
    split at hsecond
    · rename_i hempty
      rw [List.isEmpty_iff.1 hempty] at hfound
      cases hfound
    · cases hlookup : lookupGuest sur.view cfg.guestId2 with
      | error e =>
        rw [hlookup] at hsecond
        cases hsecond
      | ok found =>
        rw [lookupGuest_ok hlookup] at hfound
        rw [hlookup, hfound] at hsecond
        have hite : (if g.id = primary.id then none else some g) = second := Except.ok.inj hsecond
        split at hite
        · rename_i heq
          exact .inl heq
        · exact .inr (.inl hite.symm)
  · rw [lookupGuest_ok hdb] at hfound
    exact .inr (.inr (Option.some.inj hfound.symm))

/-- If step 3 is reached, every guest is protected. -/
theorem checks_beforeStepThree (u : CharTable) (sur : Surroundings) :
    Script.Checks (Allowed sur.view cfg skip) (fun h r => ∀ second, r = .ok second → Sheltered sur.view cfg skip h) h
      (beforeStepThree u sur cfg skip) := by
  have hstop : ∀ h e, Script.Checks (Allowed sur.view cfg skip)
      (fun h (r : Except Early (Option GuestRow)) => ∀ second, r = .ok second → Sheltered sur.view cfg skip h) h (pure (.error e)) :=
    fun h e => .pure fun second heq => by cases heq
  unfold beforeStepThree
  split
  · exact hstop h _
  · rename_i primary db second hprepare
    refine (checks_of_harmless (harmless_checkEnvironment u sur primary)).bind fun h ok _ => ?_
    split
    · exact hstop h _
    · refine (checks_protect sur primary db second).bind fun h ok hprotected => ?_
      split
      · exact hstop h _
      · rename_i hok
        have hs : Sheltered sur.view cfg skip h := by
          refine (hprotected (by simpa using hok)).imp_right fun hall g hg => ?_
          rcases configuredGuests_of_prepare hprepare g hg with heq | hsecond | rfl
          · exact heq ▸ hall.1
          · exact hall.2.1 g hsecond
          · exact hall.2.2
        have hdump : Script.Only quiet (dumpDatabase sur skip db) :=
          (harmless_dumpDatabase sur skip db).mono fun c hc => by cases c <;> first | rfl | exact hc.elim
        exact (checks_of_sheltered hs hdump).bind fun h _ hs => .pure fun _ _ => hs

/-- Whatever the commands answer: on the primary guest Mastodon is restarted only after PGBouncer's lines were read back, and nothing that
may change the tree, the environment file or the database comes before every configured guest is protected. -/
theorem upgrade_careful (u : CharTable) (sur : Surroundings) (cfg : Config) (skip : Bool) (answer : Log → ∀ c, Answer c) :
    Careful sur.view cfg skip ((runMastodonUpgrade u sur cfg skip).transcript answer []).1 := by
  have hchecks : Script.Checks (Allowed sur.view cfg skip) (fun _ _ => True) [] (runMastodonUpgrade u sur cfg skip) := by
    refine (checks_beforeStepThree u sur).bind fun h r hs => ?_
    split
    · trivial
    · trivial
    · rename_i second
      refine (checks_upgradePrimary u sur (hs second rfl)).bind fun h ok hend => ?_
      split
      · trivial
      · cases second with
        | none => trivial
        | some g =>
          have hquiet : Script.Only quiet (runSecondGuestSync sur g) := only_runSecondGuestSync (p := quiet) (fun _ => rfl) rfl sur g
          exact (checks_of_sheltered hend hquiet).bind fun _ _ _ => trivial
  intro c r before hbefore
  rcases (hchecks.transcript answer).2.2 c r before hbefore with hnil | hok
  · exact absurd (List.suffix_nil.1 hnil) (List.cons_ne_nil _ _)
  · exact hok

end

/-! ### A run -/

def exampleSurroundings : Surroundings where
  view := ⟨fun i => some ⟨i, true, true⟩, true, none, fun _ => false, true, true, fun _ => none⟩
  proxmoxHost _ := true
  polls _ := 2
  backupMode := []
  nodeRange _ := none

def exampleConfig : Config where
  guestId := ['1']
  dbGuestId := ['2']
  guestId2 := ['3']
  dbName := ['m']
  user := ['m']
  appDir := ['/', 'm']
  branch := []
  pgbouncer := ⟨['p'], ['6']⟩
  direct := ⟨['d'], ['5']⟩
  protectionType := []
  backupStorage := []

/-- The lines of a target. -/
def linesOf (t : Target) : EnvFile := [Field.host.key ++ t.host, Field.port.key ++ t.port]

/-- Everything succeeds; a task has to be asked for twice if the guest is the first one. -/
def exampleAnswer (h : Log) : ∀ c, Answer c
  | .connect _ | .sed _ _ _ => true
  | .findNode _ | .create _ _ _ => some ['n']
  | .taskStatus g _ _ => if g.id = 1 ∧ h.length < 13 then none else some ⟨some stopped, some ['O', 'K']⟩
  | .run _ .rubyVersionFile => ⟨['3', '.', '4', '.', '1'], true⟩
  | .run _ (.ruby _) => ⟨['r', 'u', 'b', 'y', ' ', '3', '.', '4', '.', '1'], true⟩
  | .grep .toDirect | .grep .toDirectAgain => some (linesOf exampleConfig.direct)
  | .grep _ => some (linesOf exampleConfig.pgbouncer)
  | .check _ | .pgDump | .run _ _ => ⟨[], true⟩

def exampleLog : Log :=
  ((runMastodonUpgrade ⟨fun _ => false, fun _ => false⟩ exampleSurroundings exampleConfig false).transcript exampleAnswer []).1

/-- The run comes to its final restart, and the second guest after it. -/
theorem example_careful : ∃ r before, (⟨.run .primary .finalRestart, r⟩ :: before) <:+ exampleLog ∧
    OnTarget exampleConfig.pgbouncer before ∧ Sheltered exampleSurroundings.view exampleConfig false before := by
  have hdrop : exampleLog.drop 15 = ⟨.run .primary .finalRestart, ⟨[], true⟩⟩ :: exampleLog.drop 16 := rfl
  have hsuffix : (⟨.run .primary .finalRestart, ⟨[], true⟩⟩ :: exampleLog.drop 16) <:+ exampleLog :=
    hdrop ▸ List.drop_suffix 15 exampleLog
  have hallowed := upgrade_careful _ exampleSurroundings exampleConfig false exampleAnswer _ _ _ hsuffix
  exact ⟨_, _, hsuffix, hallowed.restart rfl, hallowed.change rfl⟩

end ProxmoxTool.Mastodon.Commands
