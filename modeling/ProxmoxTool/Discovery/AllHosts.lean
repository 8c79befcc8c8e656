import ProxmoxTool.Discovery.Tracking

/-!
# Passes over all hosts

The results on links carried over to the two passes that process all hosts: when every listed guest gets a row and no row
changes to an unrelated guest (`every_guest_tracked_iff`), and when the row of a migrated guest goes with it
(`migrated_guest_keeps_row_iff`).  Both ask for hosts with complete listings and for tables that keep their constraints.
-/

namespace ProxmoxTool.Discovery

/-- The constraints of the `guests` table, with all rows created before `now`: ids are keys, and a host carries a VMID at most
once (`uq_guest_host_vmid`). -/
structure Db.Sound (now : Nat) (db : Db) : Prop where
  ids : (db.guests.map Guest.id).Nodup
  unique : ∀ g ∈ db.guests, ∀ g' ∈ db.guests, g.proxmoxHostId.isSome → g.vmid.isSome →
    g.proxmoxHostId = g'.proxmoxHostId → g.vmid = g'.vmid → g = g'
  past : ∀ g ∈ db.guests, g.createdAt < now

section

variable (listing : Host → List Listed)

def reports (hs : List Host) : Reports := hs.map fun h => (h.id, report (listing h))

variable {listing}

theorem map_fst_reports (hs : List Host) : (reports listing hs).map Prod.fst = hs.map Host.id := by
  simp [reports, Function.comp_def]

theorem mem_map_fst_report {guests : List Listed} {v : Vmid} :
    v ∈ (report guests).map Prod.fst ↔ ∃ g ∈ guests, g.vmid = v := by
  simp [report]

theorem running_mem_report {guests : List Listed} {v : Vmid} :
    (v, true) ∈ report guests ↔ ∃ g ∈ guests, g.vmid = v ∧ g.status = .running := by
  simp [report]

theorem listedBy_reports {hs : List Host} {a : HostId} {v : Vmid} :
    ListedBy (reports listing hs) a v ↔ ∃ h ∈ hs, h.id = a ∧ ∃ g ∈ listing h, g.vmid = v := by
  constructor
  · rintro ⟨r, hr, hv⟩
    obtain ⟨h, hh, heq⟩ := List.mem_map.1 hr
    cases heq
    exact ⟨h, hh, rfl, mem_map_fst_report.1 hv⟩
  · rintro ⟨h, hh, rfl, hv⟩
    exact ⟨_, List.mem_map_of_mem hh, mem_map_fst_report.2 hv⟩

theorem map_id_links (db : Db) : db.links.map Link.id = db.guests.map Guest.id := by
  simp [Db.links, Guest.link, Function.comp_def]

theorem hasOwn_links {db : Db} {host : HostId} {v : Vmid} :
    HasOwn host (atVmid v db.links) ↔ ∃ g ∈ db.guests, g.proxmoxHostId = some host ∧ g.vmid = some v := by
  constructor
  · rintro ⟨l, hl, hhost⟩
    obtain ⟨hl, hv⟩ := mem_atVmid.1 hl
    obtain ⟨g, hg, rfl⟩ := List.mem_map.1 hl
    exact ⟨g, hg, hhost, hv⟩
  · rintro ⟨g, hg, hhost, hv⟩
    exact ⟨g.link, mem_atVmid.2 ⟨List.mem_map_of_mem hg, hv⟩, hhost⟩

theorem firstOther_links (db : Db) (host : HostId) (v : Vmid) :
    firstOther host (atVmid v db.links) = (otherRow host v db.guests).map Guest.link := by
  rw [← find?_isOther]
  exact find?_links _ _

theorem links_syncAll (rules : Rules) (now : Nat) (hs : List Host) {db : Db} (hids : (db.guests.map Guest.id).Nodup) :
    (syncAll rules now listing hs db).links = passLinks now (reports listing hs) db.links := by
  induction hs generalizing db with
  | nil => rfl
  | cons h hs ih =>
    have hlinks := links_host rules now h.id h.api (listing h) hids
    have hids' : ((applyAll (hostWrites rules now h.id h.api (listing h) true db) db).guests.map Guest.id).Nodup := by
      rw [← map_id_links, hlinks]
      exact nodup_hostLinks _ (by rw [map_id_links]; exact hids)
    have := ih hids'
    rw [hlinks] at this
    exact this

theorem links_pass (p : Pass) (now : Nat) {hs : List Host} (hl : ∀ h ∈ hs, h.Lists (listing h)) {db : Db}
    (hids : (db.guests.map Guest.id).Nodup) :
    (p.run now hs db).links = passLinks now (reports listing hs) db.links := by
  rw [p.run_eq now hl, links_syncAll _ _ _ hids]

theorem Db.Sound.links {now : Nat} {db : Db} (h : db.Sound now) :
    (db.links.map Link.id).Nodup ∧ (∀ v, OneEach (atVmid v db.links)) ∧ ∀ l ∈ db.links, l.createdAt < now := by
  refine ⟨by rw [map_id_links]; exact h.ids, ?_, ?_⟩
  · intro v l hl l' hl' hsome heq
    obtain ⟨hl, hv⟩ := mem_atVmid.1 hl
    obtain ⟨hl', hv'⟩ := mem_atVmid.1 hl'
    obtain ⟨g, hg, rfl⟩ := List.mem_map.1 hl
    obtain ⟨g', hg', rfl⟩ := List.mem_map.1 hl'
    exact congrArg Guest.link (h.unique g hg g' hg' hsome (by rw [show g.vmid = some v from hv]; rfl) heq (hv.trans hv'.symm))
  · intro l hl
    obtain ⟨g, hg, rfl⟩ := List.mem_map.1 hl
    exact h.past g hg

/-! ### No guest is lost -/

section

variable (listing) (cluster : HostId → Nat) (hs : List Host)

/-- Each guest of each listing has a row of its own, linked to the host that lists it. -/
def AllTracked (db' : Db) : Prop :=
  ∀ h ∈ hs, ∀ g ∈ listing h, ∃ r ∈ db'.guests, r.proxmoxHostId = some h.id ∧ r.vmid = some g.vmid

/-- The guest of a row has moved from host `a` to host `b`: they are in one cluster, where a VMID names one guest, and `a`
does not list it any more. -/
def Migrated (a b : HostId) (v : Vmid) : Prop :=
  cluster a = cluster b ∧ ∀ h ∈ hs, h.id = a → ∀ g ∈ listing h, g.vmid ≠ v

/-- A row is new, or what is attached to it was attached to the same row before, and the row is linked as before unless its
guest has migrated. -/
def Untangled (now : Nat) (db db' : Db) : Prop :=
  ∀ r' ∈ db'.guests, r'.createdAt = now ∨ ∃ r ∈ db.guests,
    (r'.id = r.id ∧ r'.createdAt = r.createdAt ∧ r'.vmid = r.vmid) ∧
    (r'.credentialId = r.credentialId ∧ r'.updateHistory = r.updateHistory ∧
      r'.maintenanceWindowId = r.maintenanceWindowId) ∧
    (r'.proxmoxHostId = r.proxmoxHostId ∨
      ∃ a b v, r.proxmoxHostId = some a ∧ r'.proxmoxHostId = some b ∧ r.vmid = some v ∧ Migrated listing cluster hs a b v)

/-- At the turn of host `h`, a VMID it lists: the host has its row, or no other host has one, or it runs here and the first row
of another host is that of a migrated guest. -/
def Matched (db : Db) (h : Host) (v : Vmid) : Prop :=
  (∃ r ∈ db.guests, r.proxmoxHostId = some h.id ∧ r.vmid = some v) ∨ otherRow h.id v db.guests = none ∨
    ((∃ g ∈ listing h, g.vmid = v ∧ g.status = .running) ∧
      ∃ o a, otherRow h.id v db.guests = some o ∧ o.proxmoxHostId = some a ∧ Migrated listing cluster hs a h.id v)

end

variable {cluster : HostId → Nat} {hs : List Host}

theorem allTracked_iff {db' : Db} : AllTracked listing hs db' ↔ Represented (reports listing hs) db'.links := by
  constructor
  · intro h x hx v hv
    obtain ⟨host, hhost, rfl⟩ := List.mem_map.1 hx
    obtain ⟨g, hg, rfl⟩ := mem_map_fst_report.1 hv
    exact hasOwn_links.2 (h host hhost g hg)
  · intro h host hhost g hg
    exact hasOwn_links.1 (h _ (List.mem_map_of_mem hhost) g.vmid (mem_map_fst_report.2 ⟨g, hg, rfl⟩))

theorem migrated_iff {a b : HostId} {v : Vmid} :
    Migrated listing cluster hs a b v ↔ cluster a = cluster b ∧ ¬ ListedBy (reports listing hs) a v := by
  rw [listedBy_reports]
  refine and_congr_right fun _ => ?_
  constructor
  · rintro h ⟨host, hhost, hid, g, hg, hv⟩
    exact h host hhost hid g hg hv
  · intro h host hhost hid g hg hv
    exact h ⟨host, hhost, hid, g, hg, hv⟩

theorem untangled_iff {now : Nat} {db db' : Db} (hids : (db.guests.map Guest.id).Nodup)
    (hpast : ∀ g ∈ db.guests, g.createdAt < now) (hdesc : Descends now db.links db'.links) :
    Untangled listing cluster hs now db db' ↔ KeptApart cluster (reports listing hs) db.links db'.links := by
  constructor
  · rintro h l hl l' hl' hid hcreated hhost
    obtain ⟨r, hr, rfl⟩ := List.mem_map.1 hl
    obtain ⟨r', hr', rfl⟩ := List.mem_map.1 hl'
    rcases h r' hr' with hnow | ⟨r₁, hr₁, ⟨hid₁, -, -⟩, -, hlink⟩
    · have := hpast r hr
      have hc : r'.createdAt = r.createdAt := hcreated
      omega
    · obtain rfl : r₁ = r := eq_of_id_eq Guest.id hids hr₁ hr (hid₁.symm.trans hid)
      rcases hlink with heq | ⟨a, b, v, ha, hb, hv, hm⟩
      · exact absurd heq hhost
      · exact ⟨a, b, v, ha, hb, hv, migrated_iff.1 hm⟩
  · intro h r' hr'
    rcases hdesc r'.link (List.mem_map_of_mem hr') with hnow | ⟨l0, hl0, heq⟩
    · exact Or.inl hnow
    · obtain ⟨r, hr, rfl⟩ := List.mem_map.1 hl0
      have hf : ∀ {β : Type} (f : Link → β), (∀ (l : Link) (o : Option HostId), f { l with host := o } = f l) →
          f r'.link = f r.link := by
        intro β f hf
        rw [heq]
        exact hf _ _
      refine Or.inr ⟨r, hr, ⟨hf Link.id fun _ _ => rfl, hf Link.createdAt fun _ _ => rfl, hf Link.vmid fun _ _ => rfl⟩,
        ⟨hf Link.credentialId fun _ _ => rfl, hf Link.updateHistory fun _ _ => rfl,
          hf Link.maintenanceWindowId fun _ _ => rfl⟩, ?_⟩
      by_cases hhost : r'.proxmoxHostId = r.proxmoxHostId
      · exact Or.inl hhost
      · obtain ⟨a, b, v, ha, hb, hv, hm⟩ := h r.link (List.mem_map_of_mem hr) r'.link (List.mem_map_of_mem hr')
          (hf Link.id fun _ _ => rfl) (hf Link.createdAt fun _ _ => rfl) hhost
        exact Or.inr ⟨a, b, v, ha, hb, hv, migrated_iff.2 hm⟩

theorem matched_iff {db : Db} {h : Host} {v : Vmid} :
    Matched listing cluster hs db h v ↔
      Unambiguous cluster (reports listing hs) (h.id, report (listing h)) v (atVmid v db.links) := by
  unfold Matched Unambiguous
  rw [hasOwn_links, firstOther_links, running_mem_report, Option.map_eq_none_iff]
  refine or_congr_right (or_congr_right (and_congr_right fun _ => ?_))
  constructor
  · rintro ⟨o, a, ho, ha, hm⟩
    exact ⟨o.link, a, by rw [ho]; rfl, ha, migrated_iff.1 hm⟩
  · rintro ⟨l, a, hl, ha, hm⟩
    obtain ⟨o, ho, rfl⟩ := Option.map_eq_some_iff.1 hl
    exact ⟨o, a, ho, ha, migrated_iff.2 hm⟩

/-- A pass over hosts with complete listings tracks every listed guest in a row of its own, and leaves the rows of unrelated
guests alone, exactly if at each host's turn each VMID it lists is matched without ambiguity. -/
theorem every_guest_tracked_iff (p : Pass) {now : Nat} (hl : ∀ h ∈ hs, h.Lists (listing h))
    (hhosts : (hs.map Host.id).Nodup) {db : Db} (hdb : db.Sound now) :
    (AllTracked listing hs (p.run now hs db) ∧ Untangled listing cluster hs now db (p.run now hs db)) ↔
      ∀ pre h post, hs = pre ++ h :: post → ∀ g ∈ listing h,
        Matched listing cluster hs (p.run now pre db) h g.vmid := by
  obtain ⟨hids, hone, hpast⟩ := hdb.links
  have hlinks : (p.run now hs db).links = passLinks now (reports listing hs) db.links := links_pass p now hl hdb.ids
  have hpre : ∀ pre post, hs = pre ++ post → (p.run now pre db).links = passLinks now (reports listing pre) db.links :=
    fun pre post hsplit => links_pass p now (fun h hh => hl h (by rw [hsplit]; exact List.mem_append_left _ hh)) hdb.ids
  rw [allTracked_iff, untangled_iff hdb.ids hdb.past (by rw [hlinks]; exact descends_passLinks _), hlinks,
    represented_and_keptApart_iff hids hone hpast (by rw [map_fst_reports]; exact hhosts)]
  constructor
  · intro h pre host post hsplit g hg
    rw [matched_iff, hpre pre _ hsplit]
    refine h _ _ (reports listing post) ?_ g.vmid (mem_map_fst_report.2 ⟨g, hg, rfl⟩)
    rw [hsplit]
    simp [reports]
  · intro h pre' x post' hsplit v hv
    obtain ⟨pre, rest, hpr, hpre', hrest⟩ := List.map_eq_append_iff.1 hsplit
    obtain ⟨host, post, rfl, rfl, -⟩ := List.map_eq_cons_iff.1 hrest
    obtain ⟨g, hg, rfl⟩ := mem_map_fst_report.1 hv
    have hm := h pre host post hpr g hg
    rw [matched_iff, hpre pre _ hpr] at hm
    rw [← hpre']
    exact hm

end

/-- Two standalone hosts that have given the VMID 100 to different guests. -/
def sameVmidHosts : List Host :=
  [vmHost 1 [{ vmid := 100, name := some ['a'], status := .running }],
    vmHost 2 [{ vmid := 100, name := some ['b'], status := .stopped }]]

/-- The guest of the second host is not tracked. -/
theorem same_vmid_lost :
    ¬ (AllTracked Host.guests sameVmidHosts (Pass.scheduled.run 5 sameVmidHosts ⟨[], []⟩) ∧
        Untangled Host.guests id sameVmidHosts 5 ⟨[], []⟩ (Pass.scheduled.run 5 sameVmidHosts ⟨[], []⟩)) ∧
      ¬ (AllTracked Host.guests sameVmidHosts (Pass.manual.run 5 sameVmidHosts ⟨[], []⟩) ∧
        Untangled Host.guests id sameVmidHosts 5 ⟨[], []⟩ (Pass.manual.run 5 sameVmidHosts ⟨[], []⟩)) := by
  constructor
  · rintro ⟨h, -⟩
    revert h
    unfold AllTracked
    decide
  · rintro ⟨h, -⟩
    revert h
    unfold AllTracked
    decide

/-- A guest with a credential, an update history and a maintenance window, on host 1. -/
def trackedGuest : Guest where
  id := 1
  proxmoxHostId := some 1
  vmid := some 100
  name := ['a']
  guestType := .vm
  credentialId := some 7
  maintenanceWindowId := some 3
  updateHistory := [1]
  createdAt := 1

/-- The host the guest was on. -/
def oldHost : Host := vmHost 1 [{ vmid := 101, name := some ['c'], status := .stopped }]

/-- The host the guest has migrated to. -/
def newHost : Host := vmHost 2 [{ vmid := 100, name := some ['a'], status := .running }]

private theorem vmHost_lists (id : HostId) (vms : List ApiGuest) : (vmHost id vms).Lists (vmHost id vms).guests := by
  have h : (vmHost id vms).listing = .ok (vms.map (fun g => { toApiGuest := g, node := ['n'], type := .vm }) ++ [], true) := by
    show finishListing _ _ _ = _
    unfold finishListing
    rw [if_neg fun hand => hand.2 rfl]
    rfl
  refine ⟨rfl, rfl, ?_⟩
  rw [h, Host.guests, h]

private theorem trackedGuest_sound : Db.Sound 5 ⟨[trackedGuest], []⟩ := by
  refine ⟨by decide, ?_, ?_⟩
  · intro g hg g' hg' _ _ _ _
    rw [List.mem_singleton.1 hg, List.mem_singleton.1 hg']
  · intro g hg
    rw [List.mem_singleton.1 hg]
    decide

/-- The new host first: the row goes along and the old host's other guest gets a row. -/
theorem migrated_guest_tracked :
    AllTracked Host.guests [newHost, oldHost] (Pass.scheduled.run 5 [newHost, oldHost] ⟨[trackedGuest], []⟩) ∧
      Untangled Host.guests (fun _ => 0) [newHost, oldHost] 5 ⟨[trackedGuest], []⟩
        (Pass.scheduled.run 5 [newHost, oldHost] ⟨[trackedGuest], []⟩) := by
  refine (every_guest_tracked_iff .scheduled ?_ (by decide) trackedGuest_sound).2 ?_
  · intro h hh
    rcases List.mem_cons.1 hh with rfl | hh
    · exact vmHost_lists _ _
    · rw [List.mem_singleton.1 hh]
      exact vmHost_lists _ _
  · intro pre h post hsplit g hg
    match pre with
    | [] =>
      cases hsplit
      rw [List.mem_singleton.1 hg]
      refine Or.inr (Or.inr ⟨by decide, trackedGuest, 1, by decide, rfl, rfl, ?_⟩)
      unfold oldHost newHost
      decide
    | [x] =>
      cases hsplit
      rw [List.mem_singleton.1 hg]
      exact Or.inr (Or.inl (by decide))
    | x :: y :: pre => simp at hsplit

/-! ### The row of a migrated guest -/

/-- The row of `g` is linked to `host`, with everything that is attached to it. -/
def KeepsRow (g : Guest) (host : HostId) (db' : Db) : Prop :=
  ∃ g' ∈ db'.guests, (g'.id = g.id ∧ g'.createdAt = g.createdAt) ∧
    (g'.credentialId = g.credentialId ∧ g'.updateHistory = g.updateHistory ∧
      g'.maintenanceWindowId = g.maintenanceWindowId) ∧
    g'.proxmoxHostId = some host

theorem keepsRow_iff {now : Nat} {db db' : Db} {g : Guest} {host : HostId} (hids : (db.guests.map Guest.id).Nodup)
    (hpast : ∀ g ∈ db.guests, g.createdAt < now) (hg : g ∈ db.guests) (hdesc : Descends now db.links db'.links) :
    KeepsRow g host db' ↔ ∃ l' ∈ db'.links, l' = { g.link with host := some host } := by
  constructor
  · rintro ⟨g', hg', ⟨hid, hcreated⟩, -, hhost⟩
    refine ⟨g'.link, List.mem_map_of_mem hg', ?_⟩
    rcases hdesc g'.link (List.mem_map_of_mem hg') with hnow | ⟨l0, hl0, heq⟩
    · have := hpast g hg
      have hnow : g'.createdAt = now := hnow
      omega
    · obtain ⟨g0, hg0, rfl⟩ := List.mem_map.1 hl0
      have hid0 : g'.id = g0.id := congrArg Link.id heq
      obtain rfl : g0 = g := eq_of_id_eq Guest.id hids hg0 hg (hid0.symm.trans hid)
      rw [heq, show g'.link.host = some host from hhost]
  · rintro ⟨l', hl', heq⟩
    obtain ⟨g', hg', rfl⟩ := List.mem_map.1 hl'
    exact ⟨g', hg', ⟨congrArg Link.id heq, congrArg Link.createdAt heq⟩, ⟨congrArg Link.credentialId heq,
      congrArg Link.updateHistory heq, congrArg Link.maintenanceWindowId heq⟩, congrArg Link.host heq⟩

/-- A guest that host `a` does not list any more and that `b` alone lists as running keeps its row exactly if `b` comes before
`a` in the pass, has no row for the VMID yet, and every row of the VMID that stands before it in the table belongs to `b` or to
a host that comes before `b` and does not list the VMID. -/
theorem migrated_guest_keeps_row_iff (p : Pass) {now : Nat} (listing : Host → List Listed) (pre post : List Host) {b : Host}
    (hl : ∀ h ∈ pre ++ b :: post, h.Lists (listing h)) (hhosts : ((pre ++ b :: post).map Host.id).Nodup)
    (hfull : ∀ h ∈ pre ++ b :: post, listing h ≠ []) {db : Db} (hdb : db.Sound now) {g : Guest} (before after : List Guest)
    (hrows : db.guests = before ++ g :: after) {v : Vmid} {a : HostId} (hv : g.vmid = some v) (ha : g.proxmoxHostId = some a)
    (hab : a ≠ b.id) (hgone : ∀ h ∈ pre ++ b :: post, h.id = a → ∀ x ∈ listing h, x.vmid ≠ v)
    (hrun : ∃ x ∈ listing b, x.vmid = v ∧ x.status = .running)
    (honly : ∀ h ∈ pre ++ b :: post, (∃ x ∈ listing h, x.vmid = v ∧ x.status = .running) → h.id = b.id) :
    KeepsRow g b.id (p.run now (pre ++ b :: post) db) ↔
      a ∉ pre.map Host.id ∧ (∀ r ∈ db.guests, r.vmid = some v → r.proxmoxHostId ≠ some b.id) ∧
        ∀ r ∈ before, r.vmid = some v → ∀ c, r.proxmoxHostId = some c →
          c = b.id ∨ ∃ h ∈ pre, h.id = c ∧ ∀ x ∈ listing h, x.vmid ≠ v := by
  obtain ⟨hids, -, hpast⟩ := hdb.links
  have hlinks : (p.run now (pre ++ b :: post) db).links = passLinks now (reports listing (pre ++ b :: post)) db.links :=
    links_pass p now hl hdb.ids
  have hreports : reports listing (pre ++ b :: post) =
      reports listing pre ++ (b.id, report (listing b)) :: reports listing post := by
    simp [reports]
  have hall : ∀ {P : HostId × Report → Prop}, (∀ h ∈ pre ++ b :: post, P (h.id, report (listing h))) →
      ∀ x ∈ reports listing pre ++ (b.id, report (listing b)) :: reports listing post, P x := by
    intro P hP x hx
    rw [← hreports] at hx
    obtain ⟨h, hh, rfl⟩ := List.mem_map.1 hx
    exact hP h hh
  have hsplit : db.links = before.map Guest.link ++ g.link :: after.map Guest.link := by
    rw [Db.links, hrows, List.map_append, List.map_cons]
  have hdrops : ∀ c, Drops (reports listing pre) v c ↔ ∃ h ∈ pre, h.id = c ∧ ∀ x ∈ listing h, x.vmid ≠ v := by
    intro c
    constructor
    · rintro ⟨r, hr, hnv⟩
      obtain ⟨h, hh, heq⟩ := List.mem_map.1 hr
      cases heq
      exact ⟨h, hh, rfl, fun x hx hxv => hnv (mem_map_fst_report.2 ⟨x, hx, hxv⟩)⟩
    · rintro ⟨h, hh, rfl, hnv⟩
      refine ⟨_, List.mem_map_of_mem hh, fun hmem => ?_⟩
      obtain ⟨x, hx, hxv⟩ := mem_map_fst_report.1 hmem
      exact hnv x hx hxv
  rw [keepsRow_iff hdb.ids hdb.past (by rw [hrows]; simp) (by rw [hlinks]; exact descends_passLinks _), hlinks, hreports,
    relinked_iff hids hpast (by rw [← hreports, map_fst_reports]; exact hhosts)
      (hall fun h hh => by simpa [report] using hfull h hh)
      (hall fun h hh hm => honly h hh (running_mem_report.1 hm)) (running_mem_report.2 hrun)
      (hall fun h hh hid hm => ?_) hsplit hv ha hab, map_fst_reports, hasOwn_links]
  · refine and_congr_right fun _ => and_congr ?_ ?_
    · constructor
      · intro h r hr hrv hrb
        exact h ⟨r, hr, hrb, hrv⟩
      · rintro h ⟨r, hr, hrb, hrv⟩
        exact h r hr hrv hrb
    · simp only [hdrops]
      constructor
      · intro h r hr
        exact h r.link (List.mem_map_of_mem hr)
      · intro h l hl'
        obtain ⟨r, hr, rfl⟩ := List.mem_map.1 hl'
        exact h r hr
  · obtain ⟨x, hx, hxv⟩ := mem_map_fst_report.1 hm
    exact hgone h hh hid x hx hxv

/-- The old host first: its cleanup deletes the row, and the new host creates another one. -/
theorem migrated_guest_loses_row :
    ¬ KeepsRow trackedGuest 2 (Pass.scheduled.run 5 [oldHost, newHost] ⟨[trackedGuest], []⟩) ∧
      ¬ KeepsRow trackedGuest 2 (Pass.manual.run 5 [oldHost, newHost] ⟨[trackedGuest], []⟩) := by
  unfold KeepsRow
  decide

/-- The new host first. -/
theorem migrated_guest_keeps_row :
    KeepsRow trackedGuest 2 (Pass.scheduled.run 5 [newHost, oldHost] ⟨[trackedGuest], []⟩) := by
  refine (migrated_guest_keeps_row_iff .scheduled Host.guests [] [oldHost] ?_ (by decide) (by decide) trackedGuest_sound [] []
    rfl rfl rfl (by decide) (by decide) (by decide) (by decide)).2 (by decide)
  intro h hh
  rcases List.mem_cons.1 hh with rfl | hh
  · exact vmHost_lists _ _
  · rw [List.mem_singleton.1 hh]
    exact vmHost_lists _ _

end ProxmoxTool.Discovery
