import ProxmoxTool.Discovery.Pass

/-!
# Failed hosts in `discover_all`

All hosts of `discover_all` share one session, and a host that raises is only reported: what it has written so far stays in
the session and goes into the next commit, that of the next host that succeeds or the one at the end of the request.
`_run_discovery` rolls back instead.

The committed tables hold nothing of a failed host if they are what they would be had it raised before its first write.
`failed_hosts_leave_nothing_iff` says when that is so, whatever the later hosts do: the session showed the same rows when the
host raised as when its turn began.
-/

namespace ProxmoxTool.Discovery

/-- The processing of the host raises. -/
def Host.Fails (h : Host) : Prop := (∃ e, h.listing = .error e) ∨ h.raises.isSome

/-- The host as it would be had it raised before its first write. -/
def Host.atOnce (h : Host) : Host := { h with raises := h.raises.map fun raise => { raise with after := 0 } }

/-- However the pass goes on behind a failed host, the committed rows at its end hold nothing of that host. -/
def FailedHostsLeaveNothing (now : Nat) (hs : List Host) (db : Db) : Prop :=
  ∀ pre h, pre ++ [h] <+: hs → h.Fails → ∀ post,
    (discoverAll now (pre ++ h :: post) { db := db }).db = (discoverAll now (pre ++ h.atOnce :: post) { db := db }).db

/-- The loop when the hosts of `pre` have had their turns. -/
def loopAt (now : Nat) (pre : List Host) (db : Db) : Loop := pre.foldl (discoverAllHost now) { session := { db := db } }

/-- The tables a host meets when the hosts of `pre` have had their turns. -/
def tablesAt (now : Nat) (pre : List Host) (db : Db) : Db := (loopAt now pre db).session.tables

/-! ### The rest of the loop -/

section

variable {now : Nat} {l l' : Loop}

/-- The end of the request. -/
def Loop.finish (l : Loop) : Session := if l.aborted then l.session else l.session.commit

theorem discoverAll_split (pre post : List Host) (h : Host) (db : Db) : discoverAll now (pre ++ h :: post) { db := db } =
    (post.foldl (discoverAllHost now) (discoverAllHost now (loopAt now pre db) h)).finish := by
  show (List.foldl (discoverAllHost now) _ _).finish = _
  rw [List.foldl_append, List.foldl_cons]
  rfl

/-- Two loops that a later host cannot tell apart. -/
structure Loop.Alike (l l' : Loop) : Prop where
  aborted : l.aborted = l'.aborted
  db : l.session.db = l'.session.db
  tables : l.session.tables = l'.session.tables

theorem Loop.Alike.round (h : l.Alike l') (host : Host) : (discoverAllHost now l host).Alike (discoverAllHost now l' host) := by
  unfold discoverAllHost
  rw [← h.aborted, ← h.tables]
  split
  · exact h
  · cases processHost manualRules now host l.session.tables with
    | done ws =>
      have htables : (l.session.write ws).tables = (l'.session.write ws).tables := by
        rw [Session.tables_write, Session.tables_write, h.tables]
      exact ⟨rfl, htables, htables⟩
    | raised ws => exact ⟨rfl, h.db, by rw [Session.tables_write, Session.tables_write, h.tables]⟩
    | flushFailed => exact ⟨rfl, h.db, h.db⟩

theorem Loop.Alike.finish_db (h : l.Alike l') (hs : List Host) :
    (hs.foldl (discoverAllHost now) l).finish.db = (hs.foldl (discoverAllHost now) l').finish.db := by
  induction hs generalizing l l' with
  | nil =>
    show l.finish.db = l'.finish.db
    unfold Loop.finish
    rw [← h.aborted]
    split
    · exact h.db
    · exact h.tables
  | cons host hs ih => exact ih (h.round host)

end

/-! ### The turn of a failed host -/

section

variable {now : Nat} {l : Loop} {h : Host}

/-- The turn takes place, and ends in an exception outside a flush after some writes. -/
def Host.Stops (h : Host) (l : Loop) (guests : List Listed) (complete : Bool) (after : Nat) : Prop :=
  l.aborted = false ∧ h.isPbs = false ∧ h.listing = .ok (guests, complete) ∧ h.raises = some ⟨after, .statement⟩

/-- What has been written when the host raises stays in the session. -/
theorem discoverAllHost_stops {guests : List Listed} {complete : Bool} {after : Nat} (hs : h.Stops l guests complete after) :
    discoverAllHost now l h =
      ⟨l.session.write ((hostWrites manualRules now h.id h.api guests complete l.session.tables).take after), false⟩ := by
  obtain ⟨hab, hpbs, hlist, hraise⟩ := hs
  simp [discoverAllHost, processHost, hab, hpbs, hlist, hraise]

/-- A failed host that does not stop half-way makes no writes. -/
theorem discoverAllHost_atOnce (hfails : h.Fails) (hstops : ∀ guests complete after, ¬ h.Stops l guests complete after) :
    discoverAllHost now l h.atOnce = discoverAllHost now l h := by
  have hlisting : h.atOnce.listing = h.listing := rfl
  unfold discoverAllHost
  rw [show h.atOnce.isPbs = h.isPbs from rfl]
  by_cases hskip : (l.aborted || h.isPbs) = true
  · rw [if_pos hskip, if_pos hskip]
  · rw [if_neg hskip, if_neg hskip]
    obtain ⟨hab, hpbs⟩ : l.aborted = false ∧ h.isPbs = false := by simpa using hskip
    unfold processHost
    rw [hlisting]
    cases hl : h.listing with
    | error e => rfl
    | ok answer =>
      obtain ⟨guests, complete⟩ := answer
      rcases hr : h.raises with _ | ⟨after, kind⟩
      · rcases hfails with ⟨e, he⟩ | hsome
        · rw [hl] at he
          cases he
        · rw [hr] at hsome
          cases hsome
      · cases kind with
        | statement => exact absurd ⟨hab, hpbs, hl, hr⟩ (hstops guests complete after)
        | flush => simp [Host.atOnce, hr]

end

/-- The committed rows hold nothing of the failed hosts, whatever comes after them, exactly if each of them that raised outside a
flush had changed no row by then. -/
theorem failed_hosts_leave_nothing_iff (now : Nat) (hs : List Host) (db : Db) :
    FailedHostsLeaveNothing now hs db ↔
      ∀ pre h, pre ++ [h] <+: hs → ∀ guests complete after, h.Stops (loopAt now pre db) guests complete after →
        applyAll ((hostWrites manualRules now h.id h.api guests complete (tablesAt now pre db)).take after)
          (tablesAt now pre db) = tablesAt now pre db := by
  have hearly : ∀ {l : Loop} {h : Host} {guests complete after}, h.Stops l guests complete after →
      discoverAllHost now l h.atOnce = { session := l.session.write [] } := by
    intro l h guests complete after hstop
    have hstop' : h.atOnce.Stops l guests complete 0 := ⟨hstop.1, hstop.2.1, hstop.2.2.1, by simp [Host.atOnce, hstop.2.2.2]⟩
    rw [discoverAllHost_stops hstop', List.take_zero]
  constructor
  · intro hleave pre h hpre guests complete after hstop
    -- with no later host, the commit at the end shows the rows of the session
    have hsame := hleave pre h hpre (Or.inr (by rw [hstop.2.2.2]; rfl)) []
    rw [discoverAll_split, discoverAll_split, discoverAllHost_stops hstop, hearly hstop] at hsame
    have htables : ∀ ws, (Loop.finish { session := (loopAt now pre db).session.write ws }).db =
        applyAll ws (tablesAt now pre db) := fun ws => Session.tables_write _ _
    exact (htables _).symm.trans (hsame.trans (htables _))
  · intro hcond pre h hpre hfails post
    rw [discoverAll_split, discoverAll_split]
    by_cases hstop : ∃ guests complete after, h.Stops (loopAt now pre db) guests complete after
    · obtain ⟨guests, complete, after, hstop⟩ := hstop
      rw [discoverAllHost_stops hstop, hearly hstop]
      have halike : Loop.Alike ⟨(loopAt now pre db).session.write ((hostWrites manualRules now h.id h.api guests complete
          (tablesAt now pre db)).take after), false⟩ ⟨(loopAt now pre db).session.write [], false⟩ := by
        refine ⟨rfl, rfl, ?_⟩
        rw [Session.tables_write, Session.tables_write]
        exact hcond pre h hpre guests complete after hstop
      exact halike.finish_db post
    · rw [discoverAllHost_atOnce hfails fun guests complete after hs => hstop ⟨guests, complete, after, hs⟩]

/-- A host whose guest 101 is gone, and a query for its guest 100 that raises after the cleanup. -/
def failingHost : Host :=
  { vmHost 1 [{ vmid := 100, name := some ['a'], status := .running }] with raises := some ⟨1, .statement⟩ }

def goneGuest : Guest where
  id := 1
  proxmoxHostId := some 1
  vmid := some 101
  name := ['b']
  guestType := .vm
  credentialId := some 7
  createdAt := 1

/-- The row is deleted although the host failed. -/
theorem failed_host_deletes :
    ¬ FailedHostsLeaveNothing 5 [failingHost] ⟨[goneGuest], []⟩ ∧
      (discoverAll 5 [failingHost] { db := ⟨[goneGuest], []⟩ }).db.guests = [] ∧
      (runDiscovery true 5 [failingHost] { db := ⟨[goneGuest], []⟩ }).db.guests = [goneGuest] := by
  refine ⟨fun h => ?_, by decide, by decide⟩
  have hsame := h [] failingHost (List.prefix_refl _) (Or.inr rfl) []
  exact absurd (congrArg Db.guests hsame) (by decide)

end ProxmoxTool.Discovery
