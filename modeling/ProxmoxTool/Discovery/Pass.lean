import ProxmoxTool.Discovery.Links

/-!
# Discovery passes

A pass processes hosts one after the other in one database session.  `discover` is the manual discovery of one host,
`discoverAll` the manual discovery of all hosts, `runDiscovery` the scheduled one.  They share the merge loop up to its
`Rules` and differ in what they do when a host's processing raises: the scheduled pass rolls the session back, `discover`
ends, and `discoverAll` only flashes a message and goes on.

Exceptions are an input.  The listing of a host fails as the API's answers say; any other exception is a `Raise`, which says
how many of the host's writes had been made, and whether a flush failed.  After a failed flush the session has rolled back
by itself and refuses every statement until it is told to roll back, so nothing of the rest of the pass is committed.
-/

namespace ProxmoxTool.Discovery

inductive RaiseKind
  | statement
  | flush
  deriving DecidableEq, Repr

/-- An exception after the given number of the host's writes. -/
structure Raise where
  after : Nat
  kind : RaiseKind
  deriving DecidableEq, Repr

/-- A row of `proxmox_hosts`, with the answers and the failures its processing meets. -/
structure Host where
  id : HostId
  hostname : Text
  isPbs : Bool
  api : Api
  raises : Option Raise

def Host.listing (h : Host) : Answer (List Listed × Bool) := nodeGuests h.api h.hostname

/-- The guests a host lists. -/
def Host.guests (h : Host) : List Listed :=
  match h.listing with
  | .ok (guests, _) => guests
  | .error _ => []

/-- A host with one node, the given VMs and no containers. -/
def vmHost (id : HostId) (vms : List ApiGuest) : Host where
  id := id
  hostname := ['n']
  isPbs := false
  api := {
    clusterStatus := .ok [{ isNode := true, isLocal := true, name := ['n'] }]
    nodesForName := .ok [['n']]
    nodesForListing := .ok [['n']]
    qemu := fun _ => .ok vms
    lxc := fun _ => .ok []
    replication := .ok []
    agentInterfaces := fun _ _ => .ok []
    qemuNet0 := fun _ _ => .ok []
    lxcNet0 := fun _ _ => .ok []
    lxcInterfaces := fun _ _ => .ok [] }
  raises := none

/-- How the processing of one host ends, with the writes it has made. -/
inductive Outcome
  | done (ws : List Write)
  | raised (ws : List Write)
  | flushFailed

def processHost (rules : Rules) (now : Nat) (h : Host) (db : Db) : Outcome :=
  match h.listing with
  | .error _ => .raised []
  | .ok (guests, complete) =>
    let ws := hostWrites rules now h.id h.api guests complete db
    match h.raises with
    | none => .done ws
    | some ⟨after, .statement⟩ => .raised (ws.take after)
    | some ⟨_, .flush⟩ => .flushFailed

/-- A database session: the committed tables, and what has been written since. -/
structure Session where
  db : Db
  pending : List Write := []

namespace Session

/-- The tables as the session's queries see them. -/
def tables (s : Session) : Db := applyAll s.pending s.db

def write (s : Session) (ws : List Write) : Session := { s with pending := s.pending ++ ws }

def commit (s : Session) : Session := { db := s.tables }

def rollback (s : Session) : Session := { s with pending := [] }

@[simp] theorem tables_write (s : Session) (ws : List Write) : (s.write ws).tables = applyAll ws s.tables :=
  applyAll_append s.pending ws s.db

@[simp] theorem tables_commit (s : Session) : s.commit.tables = s.tables := rfl

@[simp] theorem tables_rollback (s : Session) : s.rollback.tables = s.db := rfl

end Session

/-- `discover`: after an exception the request ends and its session is dropped. -/
def discover (now : Nat) (h : Host) (s : Session) : Session :=
  if h.isPbs then s
  else match processHost manualRules now h s.tables with
    | .done ws => (s.write ws).commit
    | .raised ws => (s.write ws).rollback
    | .flushFailed => s.rollback

/-- The loop of `discover_all`: its session, and whether an exception has ended the request. -/
structure Loop where
  session : Session
  aborted : Bool := false

/-- One round of the loop of `discover_all`: a host that raised is reported and the loop goes on with the session as it is. -/
def discoverAllHost (now : Nat) (l : Loop) (h : Host) : Loop :=
  if l.aborted || h.isPbs then l
  else match processHost manualRules now h l.session.tables with
    | .done ws => { session := (l.session.write ws).commit }
    | .raised ws => { session := l.session.write ws }
    -- the handler reads `host.name` from a session that refuses to load it
    | .flushFailed => { session := l.session.rollback, aborted := true }

/-- `discover_all`. -/
def discoverAll (now : Nat) (hs : List Host) (s : Session) : Session :=
  let l := hs.foldl (discoverAllHost now) { session := s }
  if l.aborted then l.session else l.session.commit

def runDiscoveryHost (now : Nat) (s : Session) (h : Host) : Session :=
  match processHost scheduledRules now h s.tables with
  | .done ws => (s.write ws).commit
  | .raised ws => (s.write ws).rollback
  | .flushFailed => s.rollback

/-- `_run_discovery`; `enabled` is the setting `discovery_enabled`. -/
def runDiscovery (enabled : Bool) (now : Nat) (hs : List Host) (s : Session) : Session :=
  if enabled then hs.foldl (runDiscoveryHost now) s else s

/-! ### Passes in which every host lists its guests -/

/-- A Proxmox VE host with a complete listing and no failure. -/
structure Host.Lists (h : Host) (guests : List Listed) : Prop where
  pve : h.isPbs = false
  calm : h.raises = none
  listing : h.listing = .ok (guests, true)

theorem Host.Lists.processHost {h : Host} {guests : List Listed} (hl : h.Lists guests) (rules : Rules) (now : Nat)
    (db : Db) : processHost rules now h db = .done (hostWrites rules now h.id h.api guests true db) := by
  simp only [Discovery.processHost, hl.listing, hl.calm]

/-- The two ways to discover all hosts. -/
inductive Pass
  | manual
  | scheduled
  deriving DecidableEq, Repr

def Pass.rules : Pass → Rules
  | .manual => manualRules
  | .scheduled => scheduledRules

/-- The tables after a pass over all hosts. -/
def Pass.run (p : Pass) (now : Nat) (hs : List Host) (db : Db) : Db :=
  match p with
  | .manual => (discoverAll now hs { db := db }).db
  | .scheduled => (runDiscovery true now hs { db := db }).db

/-- Each host's writes made on the tables the hosts before it have left. -/
def syncAll (rules : Rules) (now : Nat) (listing : Host → List Listed) (hs : List Host) (db : Db) : Db :=
  hs.foldl (fun db h => applyAll (hostWrites rules now h.id h.api (listing h) true db) db) db

private theorem foldl_discoverAllHost {now : Nat} {listing : Host → List Listed} {hs : List Host}
    (hl : ∀ h ∈ hs, h.Lists (listing h)) {s : Session} (hs0 : s.pending = []) :
    ∃ s', hs.foldl (discoverAllHost now) { session := s } = { session := s' } ∧ s'.pending = [] ∧
      s'.db = syncAll manualRules now listing hs s.db := by
  induction hs generalizing s with
  | nil => exact ⟨s, rfl, hs0, rfl⟩
  | cons h hs ih =>
    have hh := hl h (by simp)
    have htab : s.tables = s.db := by simp [Session.tables, hs0]
    have hstep : discoverAllHost now { session := s } h =
        { session := (s.write (hostWrites manualRules now h.id h.api (listing h) true s.tables)).commit } := by
      simp [discoverAllHost, hh.pve, hh.processHost]
    obtain ⟨s', hfold, hpending, hdb⟩ := ih (fun h' hh' => hl h' (List.mem_cons_of_mem _ hh'))
      (s := (s.write (hostWrites manualRules now h.id h.api (listing h) true s.tables)).commit) rfl
    refine ⟨s', by rw [List.foldl_cons, hstep, hfold], hpending, ?_⟩
    rw [hdb, show (s.write _).commit.db = (s.write _).tables from rfl, Session.tables_write, htab]
    rfl

private theorem discoverAll_db {now : Nat} {listing : Host → List Listed} {hs : List Host}
    (hl : ∀ h ∈ hs, h.Lists (listing h)) {s : Session} (hs0 : s.pending = []) :
    (discoverAll now hs s).db = syncAll manualRules now listing hs s.db := by
  obtain ⟨s', hfold, hpending, hdb⟩ := foldl_discoverAllHost hl hs0
  unfold discoverAll
  rw [hfold]
  show s'.commit.db = _
  rw [← hdb]
  simp [Session.commit, Session.tables, hpending]

private theorem runDiscovery_db {now : Nat} {listing : Host → List Listed} {hs : List Host}
    (hl : ∀ h ∈ hs, h.Lists (listing h)) {s : Session} (hs0 : s.pending = []) :
    (hs.foldl (runDiscoveryHost now) s).db = syncAll scheduledRules now listing hs s.db := by
  induction hs generalizing s with
  | nil => rfl
  | cons h hs ih =>
    have hh := hl h (by simp)
    have htab : s.tables = s.db := by simp [Session.tables, hs0]
    have hstep : runDiscoveryHost now s h =
        (s.write (hostWrites scheduledRules now h.id h.api (listing h) true s.tables)).commit := by
      simp only [runDiscoveryHost, hh.processHost]
    rw [List.foldl_cons, hstep, ih (fun h' hh' => hl h' (List.mem_cons_of_mem _ hh')) rfl, show
      (s.write _).commit.db = (s.write _).tables from rfl, Session.tables_write, htab]
    rfl

/-- With complete listings and no failure, both passes process each host on what the hosts before it have left. -/
theorem Pass.run_eq (p : Pass) (now : Nat) {listing : Host → List Listed} {hs : List Host}
    (hl : ∀ h ∈ hs, h.Lists (listing h)) (db : Db) : p.run now hs db = syncAll p.rules now listing hs db := by
  cases p with
  | manual => exact discoverAll_db hl rfl
  | scheduled => exact runDiscovery_db hl rfl

end ProxmoxTool.Discovery
