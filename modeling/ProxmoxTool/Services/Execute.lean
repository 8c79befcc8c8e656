import ProxmoxTool.GuestAgent.Exec
import ProxmoxTool.Services.Alerts
import ProxmoxTool.Ssh.Capture

/-!
# One command on a guest

`_execute_command` runs a command over SSH or through the QEMU guest agent, as the guest's connection method says.  With
`auto` a command that exits non-zero over SSH is taken for one that did not run: it is run again through the agent, or there is
no output at all.  So `auto` agrees with `ssh` exactly on the commands that exit 0 (`auto_agrees_with_ssh_iff`), and
`systemctl is-active` exits non-zero as soon as one unit is not active.
-/

namespace ProxmoxTool.Services

open Ssh

structure Credential where
  username : Text
  sudoPassword : Option Text

/-- `guest.connection_method`. -/
inductive Method
  | ssh
  | agent
  | auto
  | other
  deriving DecidableEq

structure Guest where
  id : Nat
  vmid : Nat
  isVm : Bool
  ipAddress : Option Text
  method : Method
  credential : Option Credential
  /-- Whether the guest has a Proxmox host. -/
  proxmoxHost : Bool

/-- What becomes of a command over SSH: connecting raises, or the command is run. -/
inductive SshRun
  | raises (message : Text)
  | runs (exec : Exec)

/-- How the guest and its Proxmox host answer. -/
structure Network where
  defaultCredential : Option Credential
  ssh : Credential → Text → SshRun
  /-- `find_guest_node`; it may raise. -/
  node : Except Text (Option Text)
  agent : Text → Text → GuestAgent.AgentCall

inductive Transport
  | ssh
  | agent
  deriving DecidableEq

/-- What `_execute_command` returns, and over what the command was run on the guest. -/
structure Executed where
  output : Output
  runs : List Transport

/-- `_has_valid_ip`. -/
def hasValidIp (ip : Option Text) : Bool :=
  isSet ip && decide ((ip.getD []).map Char.toLower ∉ ["dhcp".toList, "dhcp6".toList, "auto".toList])

/-- `t.replace("'", new)`. -/
def replaceQuote (new : Text) (t : Text) : Text := t.flatMap fun c => if c = '\'' then new else [c]

/-- `sudo_wrap`. -/
def Credential.sudoWrap (credential : Credential) (command : Text) : Text :=
  if credential.username = "root".toList then command
  else
    let escaped := replaceQuote ['\'', '\\', '\'', '\''] command
    if isSet credential.sudoPassword then "sudo -S -p '' sh -c '".toList ++ escaped ++ ['\'']
    else "sudo -n sh -c '".toList ++ escaped ++ ['\'']

/-- `shlex.quote`. -/
def shlexQuote (t : Text) : Text :=
  if t = [] then ['\'', '\'']
  else if t.all (fun c => c.isAlphanum || c ∈ "_@%+=:,./-".toList) then t
  else '\'' :: replaceQuote ['\'', '"', '\'', '"', '\''] t ++ ['\'']

/-- The command as it is given to SSH: `execute_sudo` or `execute`. -/
def sshCommand (credential : Credential) (command : Text) (useSudo : Bool) : Text :=
  if useSudo then credential.sudoWrap command else command

/-- The first part of `_execute_command`: `none` if it goes on to the agent. -/
def overSsh (net : Network) (method : Method) (credential : Credential) (command : Text) (timeout : Nat) (useSudo : Bool) :
    Option Output × List Transport :=
  match net.ssh credential (sshCommand credential command useSudo) with
  | .raises message =>
    (if method = .ssh then some ⟨none, some ("SSH failed: ".toList ++ message)⟩ else none, [])
  | .runs exec =>
    let (stdout, stderr, code) := execute timeout exec
    let ran := match exec with
      | .failed _ => []
      | _ => [Transport.ssh]
    (if code = 0 then some ⟨some stdout, none⟩
      else if method = .ssh then
        some ⟨some stdout, some (if stderr = [] then "Exit code ".toList ++ intText code else stderr)⟩
      else none, ran)

/-- The agent has started the command. -/
def started (call : GuestAgent.AgentCall) : Bool :=
  match call.post, call.retry with
  | .ok pid, _ => pid.getD 0 ≠ 0
  | .error _, .ok pid => pid.getD 0 ≠ 0
  | .error _, .error _ => false

/-- The second part of `_execute_command`. -/
def throughAgent (net : Network) (guest : Guest) (command : Text) : Executed :=
  if (guest.method = .agent ∨ guest.method = .auto) ∧ guest.proxmoxHost ∧ guest.isVm then
    match net.node with
    | .error message => ⟨⟨none, some ("Agent failed: ".toList ++ message)⟩, []⟩
    | .ok none => ⟨⟨none, some ("Could not find VM ".toList ++ natText guest.vmid ++ " on any node".toList)⟩, []⟩
    | .ok (some node) =>
      let call := net.agent node ("sh -c ".toList ++ shlexQuote command)
      let (stdout, error) := GuestAgent.execGuestAgent call 120
      ⟨⟨stdout, error⟩, if started call then [.agent] else []⟩
  else ⟨⟨none, some "No viable connection method available".toList⟩, []⟩

/-- `guest.credential`, or the default one. -/
def Guest.usable (guest : Guest) (net : Network) : Option Credential :=
  if hasValidIp guest.ipAddress then guest.credential.or net.defaultCredential else none

/-- `_execute_command`. -/
def executeCommand (net : Network) (guest : Guest) (command : Text) (timeout : Nat) (useSudo : Bool) : Executed :=
  match if guest.method = .ssh ∨ guest.method = .auto then guest.usable net else none with
  | none => throughAgent net guest command
  | some credential =>
    match overSsh net guest.method credential command timeout useSudo with
    | (some output, ran) => ⟨output, ran⟩
    | (none, ran) =>
      let executed := throughAgent net guest command
      { executed with runs := ran ++ executed.runs }

/-- The guest with another connection method. -/
def Guest.by (guest : Guest) (method : Method) : Guest := { guest with method }

/-! ### The statuses that are recorded -/

def units (names : List Text) : Text := (names.map fun name => ' ' :: name).flatten

/-- `systemctl is-active` on some units. -/
def isActive (names : List Text) : Text := "systemctl is-active".toList ++ units names ++ " 2>/dev/null".toList

/-- The command of `check_service_statuses`. -/
def checkCommand (guest : Nat) (s : State) : Text :=
  isActive ((s.rows.filter fun e => decide (e.1.1 = guest)).map fun e => e.1.2)

/-- `KNOWN_SERVICES` without the names and the ports. -/
def knownServices : List (Text × Text) :=
  [("elasticsearch".toList, "elasticsearch.service".toList), ("postgresql".toList, "postgresql.service".toList),
    ("redis".toList, "redis-server.service".toList), ("libretranslate".toList, "libretranslate.service".toList),
    ("puma".toList, "mastodon-web.service".toList), ("sidekiq".toList, "mastodon-sidekiq*.service".toList),
    ("jitsi-videobridge2".toList, "jitsi-videobridge2.service".toList), ("jicofo".toList, "jicofo.service".toList),
    ("prosody".toList, "prosody.service".toList), ("prometheus".toList, "prometheus.service".toList)]

def fixedServices : List (Text × Text) := knownServices.filter fun e => !e.2.contains '*'

def globServices : List (Text × Text) := knownServices.filter fun e => e.2.contains '*'

def fixedCommand : Text := isActive (fixedServices.map Prod.snd)

def globCommand (pattern : Text) : Text :=
  "systemctl list-units '".toList ++ pattern ++ "' --no-legend --plain 2>/dev/null".toList

section

variable (u : CharTable) (matchesTags : Nat → Bool)

/-- `check_service_statuses` of a guest. -/
def checkGuest (net : Network) (guest : Guest) (s : State) : State :=
  checkServiceStatuses u matchesTags guest.id (executeCommand net guest (checkCommand guest.id s) 60 false).output s

/-- The loop of `detect_services` over the services with a fixed unit. -/
def detectFixed (guest : Nat) (out : Output) (s : State) : State :=
  if isSet out.stdout || !isSet out.error then
    fixedServices.zipIdx.foldl (fun s e =>
      upsertService u matchesTags (guest, e.1.2) e.1.1
        (mapSystemctlStatus ((out.lines[e.2]?).elim "unknown".toList strip)) s) s
  else s

/-- The loop of `detect_services` over the units of one pattern. -/
def detectGlob (guest : Nat) (key : Text) (out : Output) (s : State) : State :=
  if isSet out.stdout then
    out.lines.foldl (fun s line => match words line with
      | unit :: _ :: active :: _ => upsertService u matchesTags (guest, unit) key (mapSystemctlStatus active) s
      | _ => s) s
  else s

/-- `detect_services`. -/
def detectServices (net : Network) (guest : Guest) (s : State) : State :=
  globServices.foldl (fun s e =>
      detectGlob u matchesTags guest.id e.1 (executeCommand net guest (globCommand e.2) 60 false).output s)
    (detectFixed u matchesTags guest.id (executeCommand net guest fixedCommand 60 false).output s)

end

/-! ### `auto` against `ssh` -/

/-- The guest has a usable address and credential, and the command over SSH ends with an exit code. -/
structure Completes (net : Network) (guest : Guest) (command : Text) (useSudo : Bool) (code : Int) : Prop where
  completed : ∃ credential out err, guest.usable net = some credential ∧
    net.ssh credential (sshCommand credential command useSudo) = .runs (.finished out err code)

/-- The command gives the same with `auto` as with `ssh`, and is run once. -/
structure Agrees (net : Network) (guest : Guest) (command : Text) (timeout : Nat) (useSudo : Bool) : Prop where
  output : (executeCommand net (guest.by .auto) command timeout useSudo).output =
    (executeCommand net (guest.by .ssh) command timeout useSudo).output
  once : (executeCommand net (guest.by .auto) command timeout useSudo).runs.length = 1

/-- An output of the agent comes from a command that it started. -/
theorem started_of_stdout {call : GuestAgent.AgentCall} {timeout : Nat} {stdout : Text}
    (h : (GuestAgent.execGuestAgent call timeout).1 = some stdout) : started call = true := by
  have hpid : ∀ {pid : Option Nat}, ¬ pid.getD 0 = 0 → decide (pid.getD 0 ≠ 0) = true := fun hne => decide_eq_true hne
  unfold GuestAgent.execGuestAgent at h
  unfold started
  cases hpost : call.post with
  | ok pid =>
    rw [hpost] at h
    dsimp only at h ⊢
    split at h
    · cases h
    · rename_i hne
      exact hpid hne
  | error e =>
    rw [hpost] at h
    cases hretry : call.retry with
    | ok pid =>
      rw [hretry] at h
      dsimp only at h ⊢
      split at h
      · cases h
      · rename_i hne
        exact hpid hne
    | error e' =>
      rw [hretry] at h
      cases h

/-- The agent runs a command at most once, and it does if there is an output. -/
theorem throughAgent_runs (net : Network) (guest : Guest) (command : Text) :
    (throughAgent net guest command).output.stdout.isSome = true → (throughAgent net guest command).runs = [.agent] := by
  intro h
  unfold throughAgent at h ⊢
  split at h
  · rename_i hagent
    rw [if_pos hagent]
    cases hnode : net.node with
    | error message =>
      rw [hnode] at h
      cases h
    | ok node =>
      cases node with
      | none =>
        rw [hnode] at h
        cases h
      | some node =>
        rw [hnode] at h
        dsimp only at h ⊢
        obtain ⟨stdout, hstdout⟩ := Option.isSome_iff_exists.1 h
        rw [if_pos (started_of_stdout hstdout)]
  · cases h

section

variable {net : Network} {guest : Guest} {command : Text} {timeout : Nat} {useSudo : Bool} {code : Int}

/-- The first part for a command that ends with an exit code. -/
theorem overSsh_finished {credential : Credential} {out err : List Utf8.Bytes} (method : Method)
    (h : net.ssh credential (sshCommand credential command useSudo) = .runs (.finished out err code)) :
    overSsh net method credential command timeout useSudo =
      (if code = 0 then some ⟨some (capture maxOutputBytes out).text, none⟩
        else if method = .ssh then some ⟨some (capture maxOutputBytes out).text,
          some (if (capture maxOutputBytes err).text = [] then "Exit code ".toList ++ intText code
            else (capture maxOutputBytes err).text)⟩
        else none, [.ssh]) := by
  unfold overSsh
  rw [h]
  rfl

/-- A guest with a usable address and credential is tried over SSH first. -/
theorem executeCommand_by {credential : Credential} (husable : guest.usable net = some credential) {method : Method}
    (hmethod : method = .ssh ∨ method = .auto) : executeCommand net (guest.by method) command timeout useSudo =
      match overSsh net method credential command timeout useSudo with
      | (some output, ran) => ⟨output, ran⟩
      | (none, ran) =>
        { throughAgent net (guest.by method) command with runs := ran ++ (throughAgent net (guest.by method) command).runs } := by
  have hmethod' : (guest.by method).method = .ssh ∨ (guest.by method).method = .auto := hmethod
  have husable' : (guest.by method).usable net = some credential := husable
  unfold executeCommand
  rw [if_pos hmethod', husable']
  rfl

/-- A command that exits 0 over SSH is run once, and gives its output, with both methods. -/
theorem executeCommand_zero (h : Completes net guest command useSudo 0) : Agrees net guest command timeout useSudo := by
  obtain ⟨credential, out, err, husable, hssh⟩ := h.completed
  have heq : ∀ method : Method, method = .ssh ∨ method = .auto →
      executeCommand net (guest.by method) command timeout useSudo = ⟨⟨some (capture maxOutputBytes out).text, none⟩, [.ssh]⟩ := by
    intro method hmethod
    rw [executeCommand_by husable hmethod, overSsh_finished _ hssh, if_pos rfl]
  constructor
  · rw [heq .auto (Or.inr rfl), heq .ssh (Or.inl rfl)]
  · rw [heq .auto (Or.inr rfl)]
    rfl

/-- One that exits non-zero is run a second time with `auto`, or has no output. -/
theorem not_agrees_of_nonzero (h : Completes net guest command useSudo code) (hcode : code ≠ 0) :
    ¬ Agrees net guest command timeout useSudo := by
  obtain ⟨credential, out, err, husable, hssh⟩ := h.completed
  have hwith : (executeCommand net (guest.by .ssh) command timeout useSudo).output.stdout = some (capture maxOutputBytes out).text := by
    rw [executeCommand_by husable (Or.inl rfl), overSsh_finished _ hssh, if_neg hcode, if_pos rfl]
  have hauto : executeCommand net (guest.by .auto) command timeout useSudo =
      { throughAgent net (guest.by .auto) command with runs := [.ssh] ++ (throughAgent net (guest.by .auto) command).runs } := by
    rw [executeCommand_by husable (Or.inr rfl), overSsh_finished _ hssh, if_neg hcode, if_neg (fun hno => nomatch hno)]
  intro hagrees
  have houtput := congrArg Output.stdout hagrees.output
  have honce := hagrees.once
  rw [hauto, hwith] at houtput
  rw [hauto] at honce
  dsimp only at houtput honce
  rw [throughAgent_runs net (guest.by .auto) command (by rw [houtput]; rfl)] at honce
  exact absurd honce (by decide)

theorem agrees_iff (h : Completes net guest command useSudo code) : Agrees net guest command timeout useSudo ↔ code = 0 := by
  constructor
  · intro hagrees
    by_contra hcode
    exact not_agrees_of_nonzero h hcode hagrees
  · rintro rfl
    exact executeCommand_zero h

end

/-! ### The statuses with both methods -/

section

variable (u : CharTable) (matchesTags : Nat → Bool) {net : Network} {guest : Guest}

theorem checkGuest_of_zero {s : State} (h : Completes net guest (checkCommand guest.id s) false 0) :
    checkGuest u matchesTags net (guest.by .auto) s = checkGuest u matchesTags net (guest.by .ssh) s := by
  have hagrees : Agrees net guest (checkCommand guest.id s) 60 false := executeCommand_zero h
  unfold checkGuest
  exact congrArg (fun out => checkServiceStatuses u matchesTags guest.id out s) hagrees.output

/-- The commands of `detect_services`. -/
def detectCommands : List Text := fixedCommand :: globServices.map fun e => globCommand e.2

theorem detectServices_of_zero (h : ∀ command ∈ detectCommands, Completes net guest command false 0) (s : State) :
    detectServices u matchesTags net (guest.by .auto) s = detectServices u matchesTags net (guest.by .ssh) s := by
  have hfixed : Agrees net guest fixedCommand 60 false := executeCommand_zero (h _ List.mem_cons_self)
  have hglob : ∀ e ∈ globServices, Agrees net guest (globCommand e.2) 60 false := fun e he =>
    executeCommand_zero (h _ (List.mem_cons_of_mem _ (List.mem_map_of_mem he)))
  unfold detectServices
  rw [hfixed.output]
  refine List.foldl_ext _ _ _ fun s e he => ?_
  exact congrArg (fun out => detectGlob u matchesTags guest.id e.1 out s) (hglob e he).output

end

/-- A command that ends with an exit code over SSH gives the same with `auto` as with `ssh`, and is run once, exactly if it exits 0; so
the health check and the scan record the same statuses with both methods if their commands exit 0. -/
theorem auto_agrees_with_ssh_iff (u : CharTable) (matchesTags : Nat → Bool) (net : Network) (guest : Guest) :
    (∀ command timeout useSudo code, Completes net guest command useSudo code →
      (Agrees net guest command timeout useSudo ↔ code = 0)) ∧
    (∀ s, Completes net guest (checkCommand guest.id s) false 0 →
      checkGuest u matchesTags net (guest.by .auto) s = checkGuest u matchesTags net (guest.by .ssh) s) ∧
    ((∀ command ∈ detectCommands, Completes net guest command false 0) →
      ∀ s, detectServices u matchesTags net (guest.by .auto) s = detectServices u matchesTags net (guest.by .ssh) s) :=
  ⟨fun _ _ _ _ h => agrees_iff h, fun _ h => checkGuest_of_zero u matchesTags h, detectServices_of_zero u matchesTags⟩

/-! ### A container with a unit that is not active -/

/-- A container with an address and a credential. -/
def container : Guest where
  id := 1
  vmid := 101
  isVm := false
  ipAddress := some "10.0.0.5".toList
  method := .auto
  credential := some ⟨"root".toList, none⟩
  proxmoxHost := true

/-- Every command prints the same text and exits with the same code. -/
def answering (out : Text) (code : Int) : Network where
  defaultCredential := none
  ssh _ _ := .runs (.finished [Utf8.encode out] [] code)
  node := .ok none
  agent _ _ := ⟨.error [], .error [], fun _ => .error []⟩

def asciiWords : CharTable := ⟨fun _ => false, fun _ => false⟩

/-- Two services, both stored as running. -/
def twoServices : State where
  rows := [((1, "redis.service".toList), ⟨"redis".toList, .running⟩), ((1, "puma.service".toList), ⟨"puma".toList, .running⟩)]

/-- `systemctl is-active` finds one unit inactive and exits 3. -/
def oneInactive : Network := answering "active\ninactive\n".toList 3

/-- With `ssh` the second service is recorded as stopped, with `auto` nothing is recorded. -/
theorem inactive_unit_disagrees :
    ¬ Agrees oneInactive container (checkCommand 1 twoServices) 60 false ∧
      checkGuest asciiWords (fun _ => false) oneInactive (container.by .auto) twoServices ≠
        checkGuest asciiWords (fun _ => false) oneInactive (container.by .ssh) twoServices := by
  constructor
  · intro hagrees
    exact absurd (congrArg Output.stdout hagrees.output) (by decide)
  · intro hsame
    exact absurd (congrArg (fun s => s.rows.map fun e => e.2.status) hsame) (by decide)

theorem all_active_agrees : Agrees (answering "active\nactive\n".toList 0) container (checkCommand 1 twoServices) 60 false :=
  ((auto_agrees_with_ssh_iff asciiWords (fun _ => false) (answering "active\nactive\n".toList 0) container).1
    _ 60 false 0 ⟨⟨_, _, _, rfl, rfl⟩⟩).2 rfl

end ProxmoxTool.Services
