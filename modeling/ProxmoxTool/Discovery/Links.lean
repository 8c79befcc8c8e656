import ProxmoxTool.Discovery.Merge

/-!
# Which row stands for which guest

An abstract view of the guest table: a row is its `Link`, that is its identity, the host and the VMID it is linked to, and
what an administrator has attached to it.  One listed guest does one of four things to the links (`claimLink`), and only
the VMID and the power state of the listed guest matter.  `links_entry` and `links_host` connect the view with the merge
loop: the links after a host's processing are computed from the links before it.

The rows of different VMIDs do not interact.  `atVmid_hostLinks` says what a host's processing does to the links of one
VMID; all later results on links rest on it.
-/

namespace ProxmoxTool.Discovery

structure Link where
  id : Nat
  host : Option HostId
  vmid : Option Vmid
  credentialId : Option Nat
  maintenanceWindowId : Option Nat
  autoUpdate : Bool
  updateHistory : List Nat
  createdAt : Nat
  deriving DecidableEq, Repr

def Guest.link (g : Guest) : Link where
  id := g.id
  host := g.proxmoxHostId
  vmid := g.vmid
  credentialId := g.credentialId
  maintenanceWindowId := g.maintenanceWindowId
  autoUpdate := g.autoUpdate
  updateHistory := g.updateHistory
  createdAt := g.createdAt

def Db.links (db : Db) : List Link := db.guests.map Guest.link

/-! ### The abstract operations -/

section

variable (now : Nat) (host : HostId)

def isOwn (vmid : Vmid) (l : Link) : Bool := l.host = some host && l.vmid = some vmid

/-- A link to another host; a row that is linked to none does not count. -/
def isOther (vmid : Vmid) (l : Link) : Bool := l.vmid = some vmid && (l.host.isSome && l.host ≠ some host)

/-- The link moved to the host, if it has the id. -/
def relink (id : Nat) (l : Link) : Link := if l.id = id then { l with host := some host } else l

/-- The link of a new row. -/
def newLink (vmid : Vmid) (id : Nat) : Link where
  id := id
  host := some host
  vmid := some vmid
  credentialId := none
  maintenanceWindowId := none
  autoUpdate := false
  updateHistory := []
  createdAt := now

/-- What one listed guest does to the links. -/
def claimLink (L : List Link) (vmid : Vmid) (running : Bool) : List Link :=
  match L.find? (isOwn host vmid) with
  | some _ => L
  | none => match L.find? (isOther host vmid) with
    | some o => if running then L.map (relink host o.id) else L
    | none => L ++ [newLink now host vmid (freshId Link.id L)]

/-- The links of the host whose VMID is not listed are dropped. -/
def cleanLinks (vmids : List Vmid) (L : List Link) : List Link :=
  L.filter fun l => !(l.host = some host && unlisted vmids l.vmid)

/-- A complete listing as far as the links are concerned. -/
abbrev Report := List (Vmid × Bool)

/-- One host's processing of a complete listing. -/
def hostLinks (r : Report) (L : List Link) : List Link :=
  r.foldl (fun L e => claimLink now host L e.1 e.2) (if r = [] then L else cleanLinks host (r.map Prod.fst) L)

end

/-- The report of a listing. -/
def report (guests : List Listed) : Report := guests.map fun g => (g.vmid, g.status = .running)

/-! ### The merge loop refines the abstract operations -/

/-- A write that changes no link. -/
def Write.Quiet : Write → Prop
  | .change _ (.link _) => False
  | .change _ _ => True
  | .insertTag _ => True
  | .delete _ => False
  | .insert _ => False

theorem Change.apply_link {c : Change} (h : ∀ host, c ≠ .link host) (g : Guest) : (c.apply g).link = g.link := by
  cases c with
  | link host => exact absurd rfl (h host)
  | _ => rfl

theorem Write.links_of_quiet {w : Write} (h : w.Quiet) (db : Db) : (w.apply db).links = db.links := by
  cases w with
  | delete id => exact h.elim
  | insert g => exact h.elim
  | insertTag t => rfl
  | change id c =>
    have hc : ∀ host, c ≠ .link host := by
      rintro host rfl
      exact h
    show (db.guests.map fun g => if g.id = id then c.apply g else g).map Guest.link = db.guests.map Guest.link
    rw [List.map_map]
    refine List.map_congr_left fun g _ => ?_
    by_cases hid : g.id = id
    · simp [hid, Change.apply_link hc]
    · simp [hid]

theorem links_applyAll_of_quiet {ws : List Write} (h : ∀ w ∈ ws, w.Quiet) (db : Db) :
    (applyAll ws db).links = db.links := by
  induction ws generalizing db with
  | nil => rfl
  | cons w ws ih =>
    rw [applyAll_cons, ih (fun w' hw' => h w' (List.mem_cons_of_mem _ hw')), Write.links_of_quiet (h w (by simp))]

theorem tagWrites_quiet (id : Nat) (names : List Text) (tags : List Tag) : ∀ w ∈ tagWrites id names tags, w.Quiet := by
  induction names generalizing tags with
  | nil => simp [tagWrites]
  | cons name names ih =>
    unfold tagWrites
    split
    · intro w hw
      rcases List.mem_cons.1 hw with rfl | hw
      · trivial
      · exact ih _ w hw
    · intro w hw
      rcases List.mem_cons.1 hw with rfl | hw
      · trivial
      · rcases List.mem_cons.1 hw with rfl | hw
        · trivial
        · exact ih _ w hw

theorem refreshChanges_ne_link (rules : Rules) (api : Api) (existing : Guest) (g : Listed) (host : HostId) :
    Change.link host ∉ refreshChanges rules api existing g := by
  unfold refreshChanges
  have := rules.reuse_ne_link existing g (getGuestMac api g.node g.vmid g.type) host
  simp [this]

/-- Refreshing a row changes no link. -/
theorem refresh_quiet (rules : Rules) (api : Api) (existing : Guest) (g : Listed) (id : Nat) (tags : List Tag) :
    ∀ w ∈ (refreshChanges rules api existing g).map (.change id) ++ tagWrites id (parseGuestTags g.tags) tags,
      w.Quiet := by
  intro w hw
  rcases List.mem_append.1 hw with hw | hw
  · obtain ⟨c, hc, rfl⟩ := List.mem_map.1 hw
    cases c with
    | link host => exact absurd hc (refreshChanges_ne_link rules api existing g host)
    | _ => trivial
  · exact tagWrites_quiet _ _ _ w hw

theorem find?_links (p : Link → Bool) (guests : List Guest) :
    (guests.map Guest.link).find? p = (guests.find? fun g => p g.link).map Guest.link :=
  List.find?_map ..

theorem freshId_links (guests : List Guest) : freshId Link.id (guests.map Guest.link) = freshId Guest.id guests := by
  unfold freshId
  rw [List.map_map]
  rfl

/-- One listed guest acts on the links as `claimLink`. -/
theorem links_entry (rules : Rules) (now : Nat) (host : HostId) (api : Api) (db : Db) (g : Listed) :
    (applyAll (entryWrites rules now host api db g) db).links =
      claimLink now host db.links g.vmid (g.status = .running) := by
  have hown : db.links.find? (isOwn host g.vmid) = (ownRow host g.vmid db.guests).map Guest.link := find?_links _ _
  have hother : db.links.find? (isOther host g.vmid) = (otherRow host g.vmid db.guests).map Guest.link := find?_links _ _
  unfold entryWrites claimLink
  rw [hown, hother]
  cases ownRow host g.vmid db.guests with
  | some existing => exact links_applyAll_of_quiet (refresh_quiet _ _ _ _ _ _) db
  | none =>
    cases otherRow host g.vmid db.guests with
    | some other =>
      by_cases hrun : g.status = .running
      · -- the take-over is the one write that is not quiet
        simp only [hrun, ↓reduceIte, Option.map_none, Option.map_some, applyAll_cons, decide_true]
        rw [links_applyAll_of_quiet (refresh_quiet _ _ _ _ _ _)]
        show (db.guests.map fun r => if r.id = other.id then (Change.link host).apply r else r).map Guest.link =
          (db.guests.map Guest.link).map (relink host other.id)
        rw [List.map_map, List.map_map]
        refine List.map_congr_left fun r _ => ?_
        by_cases hid : r.id = other.id
        · simp [relink, hid, Change.apply, Guest.link]
        · simp [relink, hid, Guest.link]
      · simp [hrun]
    | none =>
      simp only [Option.map_none, applyAll_cons]
      rw [links_applyAll_of_quiet (tagWrites_quiet _ _ _)]
      show (db.guests ++ [newGuest rules now host api db.guests g]).map Guest.link = _
      rw [List.map_append, show db.links = db.guests.map Guest.link from rfl, freshId_links]
      rfl

theorem links_mergeAll (rules : Rules) (now : Nat) (host : HostId) (api : Api) (db : Db) (guests : List Listed) :
    (mergeAll rules now host api db guests).links =
      (report guests).foldl (fun L e => claimLink now host L e.1 e.2) db.links := by
  induction guests generalizing db with
  | nil => rfl
  | cons g gs ih =>
    have := ih (applyAll (entryWrites rules now host api db g) db)
    rw [links_entry] at this
    exact this

/-- Cleanup after a complete listing drops the links of the host whose VMID is not listed. -/
theorem links_cleanup (host : HostId) (guests : List Listed) {db : Db} (hids : (db.guests.map Guest.id).Nodup) :
    (applyAll (cleanupWrites host guests true db) db).links =
      if report guests = [] then db.links else cleanLinks host ((report guests).map Prod.fst) db.links := by
  have hvmids : (report guests).map Prod.fst = guests.map fun g => g.vmid := by simp [report]
  by_cases hg : guests = []
  · simp [cleanupWrites, hg, report]
  · have hr : report guests ≠ [] := by simpa [report] using hg
    rw [if_neg hr, hvmids]
    have hmap : ((staleRows host guests db.guests).map fun r => Write.delete r.id) =
        ((staleRows host guests db.guests).map Guest.id).map Write.delete := by
      rw [List.map_map]
      rfl
    unfold cleanupWrites
    rw [if_neg (by simpa using hg), hmap, applyAll_deletes, staleRows, filter_ids_of_filter hids]
    show (db.guests.filter _).map Guest.link = (db.guests.map Guest.link).filter _
    rw [List.filter_map]
    rfl

/-- One host's processing of a complete listing acts on the links as `hostLinks`. -/
theorem links_host (rules : Rules) (now : Nat) (host : HostId) (api : Api) (guests : List Listed) {db : Db}
    (hids : (db.guests.map Guest.id).Nodup) :
    (applyAll (hostWrites rules now host api guests true db) db).links = hostLinks now host (report guests) db.links := by
  rw [applyAll_hostWrites, links_mergeAll, links_cleanup host guests hids]
  rfl

/-! ### The links of one VMID -/

def atVmid (vmid : Vmid) (L : List Link) : List Link := L.filter fun l => l.vmid = some vmid

theorem mem_atVmid {vmid : Vmid} {L : List Link} {l : Link} : l ∈ atVmid vmid L ↔ l ∈ L ∧ l.vmid = some vmid := by
  simp [atVmid]

section

variable {now : Nat} {host : HostId} {vmid : Vmid} {L : List Link}

@[simp] theorem relink_id (id : Nat) (l : Link) : (relink host id l).id = l.id := by
  unfold relink
  split <;> rfl

@[simp] theorem relink_vmid (id : Nat) (l : Link) : (relink host id l).vmid = l.vmid := by
  unfold relink
  split <;> rfl

@[simp] theorem relink_createdAt (id : Nat) (l : Link) : (relink host id l).createdAt = l.createdAt := by
  unfold relink
  split <;> rfl

theorem relink_host {id : Nat} {l : Link} (h : l.id = id) : (relink host id l).host = some host := by
  rw [relink, if_pos h]

theorem relink_of_ne {id : Nat} {l : Link} (h : l.id ≠ id) : relink host id l = l := if_neg h

theorem atVmid_map_relink (id : Nat) : atVmid vmid (L.map (relink host id)) = (atVmid vmid L).map (relink host id) := by
  unfold atVmid
  rw [List.filter_map]
  refine congrArg _ (List.filter_congr fun l _ => ?_)
  simp

/-- Ids stay distinct. -/
theorem nodup_claimLink (hids : (L.map Link.id).Nodup) (running : Bool) :
    ((claimLink now host L vmid running).map Link.id).Nodup := by
  unfold claimLink
  split
  · exact hids
  · split
    · split
      · rw [List.map_map, show Link.id ∘ relink host _ = Link.id from funext fun l => relink_id _ l]
        exact hids
      · exact hids
    · exact nodup_append_fresh Link.id hids rfl

/-- A listed guest does not touch the links of other VMIDs. -/
theorem atVmid_claimLink_of_ne {vmid' : Vmid} (hne : vmid' ≠ vmid) (hids : (L.map Link.id).Nodup) (running : Bool) :
    atVmid vmid (claimLink now host L vmid' running) = atVmid vmid L := by
  unfold claimLink
  split
  · rfl
  · split
    · rename_i o ho
      split
      · rw [atVmid_map_relink]
        have hmem := List.mem_of_find?_eq_some ho
        have hvo : o.vmid = some vmid' := by
          have hp := List.find?_some ho
          simp only [isOther, Bool.and_eq_true, decide_eq_true_eq] at hp
          exact hp.1
        refine List.map_congr_left (g := fun l => l) (fun l hl => relink_of_ne fun hid => ?_) |>.trans (List.map_id' _)
        rw [mem_atVmid] at hl
        have := eq_of_id_eq Link.id hids hl.1 hmem hid
        rw [this, hvo] at hl
        exact hne (Option.some.inj hl.2)
      · rfl
    · unfold atVmid
      rw [List.filter_append]
      simp [newLink, hne]

/-- The VMID's links: does one belong to the host, and which is the first of another host. -/
def HasOwn (host : HostId) (ls : List Link) : Prop := ∃ l ∈ ls, l.host = some host

def firstOther (host : HostId) (ls : List Link) : Option Link := ls.find? fun l => l.host.isSome && l.host ≠ some host

theorem find?_isOwn : L.find? (isOwn host vmid) = none ↔ ¬ HasOwn host (atVmid vmid L) := by
  rw [List.find?_eq_none]
  simp only [isOwn, HasOwn, mem_atVmid, Bool.and_eq_true, decide_eq_true_eq]
  constructor
  · rintro h ⟨l, ⟨hl, hv⟩, hh⟩
    exact h l hl ⟨hh, hv⟩
  · rintro h l hl ⟨hh, hv⟩
    exact h ⟨l, ⟨hl, hv⟩, hh⟩

theorem find?_isOther : L.find? (isOther host vmid) = firstOther host (atVmid vmid L) := by
  unfold firstOther atVmid
  rw [List.find?_filter]
  refine congrArg (fun p => List.find? p L) (funext fun l => ?_)
  rw [Bool.eq_iff_iff]
  simp [isOther]

/-- What a host that lists a VMID does to the VMID's links. -/
inductive Claimed (now : Nat) (host : HostId) (vmid : Vmid) (r : Report) : List Link → List Link → Prop
  | own {ls : List Link} : HasOwn host ls → Claimed now host vmid r ls ls
  | new {ls : List Link} (id : Nat) : ¬ HasOwn host ls → firstOther host ls = none →
      Claimed now host vmid r ls (ls ++ [newLink now host vmid id])
  | taken {ls : List Link} {o : Link} : ¬ HasOwn host ls → firstOther host ls = some o → (vmid, true) ∈ r →
      Claimed now host vmid r ls (ls.map (relink host o.id))
  | skipped {ls : List Link} {o : Link} : ¬ HasOwn host ls → firstOther host ls = some o → (vmid, true) ∉ r →
      Claimed now host vmid r ls ls

theorem hasOwn_new (ls : List Link) (id : Nat) : HasOwn host (ls ++ [newLink now host vmid id]) :=
  ⟨_, List.mem_append_right _ (List.mem_singleton_self _), rfl⟩

theorem firstOther_mem {ls : List Link} {o : Link} (h : firstOther host ls = some o) :
    o ∈ ls ∧ ∃ h', o.host = some h' ∧ h' ≠ host := by
  have hp := List.find?_some h
  rw [Bool.and_eq_true, Option.isSome_iff_exists, decide_eq_true_eq] at hp
  obtain ⟨⟨h', hh'⟩, hne⟩ := hp
  exact ⟨List.mem_of_find?_eq_some h, h', hh', fun he => hne (he ▸ hh')⟩

theorem hasOwn_map_relink {ls : List Link} {o : Link} (h : o ∈ ls) : HasOwn host (ls.map (relink host o.id)) :=
  ⟨_, List.mem_map_of_mem h, relink_host rfl⟩

theorem Claimed.eq_of_hasOwn {r : Report} {ls ls' : List Link} (h : Claimed now host vmid r ls ls')
    (hown : HasOwn host ls) : ls' = ls := by
  cases h with
  | own => rfl
  | new id hno => exact absurd hown hno
  | taken hno => exact absurd hown hno
  | skipped hno => exact absurd hown hno

/-- A further listed guest of another VMID, or a power state that does not matter, changes nothing. -/
theorem Claimed.cons {r : Report} {ls ls' : List Link} (h : Claimed now host vmid r ls ls') {e : Vmid × Bool}
    (he : e ≠ (vmid, true)) : Claimed now host vmid (e :: r) ls ls' := by
  cases h with
  | own h => exact .own h
  | new id hno hfirst => exact .new id hno hfirst
  | taken hno hfirst hrun => exact .taken hno hfirst (List.mem_cons_of_mem _ hrun)
  | skipped hno hfirst hrun => exact .skipped hno hfirst (by simpa [Ne.symm he] using hrun)

variable (now host vmid) in
/-- The loop over a report, seen at one VMID. -/
theorem atVmid_foldl_claimLink (r : Report) (hids : (L.map Link.id).Nodup) :
    (vmid ∉ r.map Prod.fst ∧ atVmid vmid (r.foldl (fun L e => claimLink now host L e.1 e.2) L) = atVmid vmid L) ∨
      (vmid ∈ r.map Prod.fst ∧
        Claimed now host vmid r (atVmid vmid L)
          (atVmid vmid (r.foldl (fun L e => claimLink now host L e.1 e.2) L))) := by
  induction r generalizing L with
  | nil => exact Or.inl ⟨List.not_mem_nil, rfl⟩
  | cons e r ih =>
    obtain ⟨v, running⟩ := e
    rw [List.foldl_cons]
    have hnodup : ((claimLink now host L v running).map Link.id).Nodup := nodup_claimLink hids running
    have ih := ih hnodup
    by_cases hv : v = vmid
    swap
    · rw [atVmid_claimLink_of_ne hv hids] at ih
      rcases ih with ⟨hnot, heq⟩ | ⟨hmem, hcl⟩
      · exact Or.inl ⟨by simpa [Ne.symm hv] using hnot, heq⟩
      · exact Or.inr ⟨List.mem_cons_of_mem _ hmem, hcl.cons fun he => hv (congrArg Prod.fst he)⟩
    · subst hv
      right
      refine ⟨by simp, ?_⟩
      -- once the host has a link of the VMID, the rest of the loop leaves the links alone
      have hrest : HasOwn host (atVmid v (claimLink now host L v running)) →
          atVmid v (r.foldl (fun L e => claimLink now host L e.1 e.2) (claimLink now host L v running)) =
            atVmid v (claimLink now host L v running) := by
        intro hown
        rcases ih with ⟨-, heq⟩ | ⟨-, hcl⟩
        · exact heq
        · exact hcl.eq_of_hasOwn hown
      by_cases hown : HasOwn host (atVmid v L)
      · have hclaim : claimLink now host L v running = L := by
          unfold claimLink
          split
          · rfl
          · rename_i hnone
            exact absurd hown (find?_isOwn.1 hnone)
        rw [hclaim] at hrest ⊢
        rw [hrest hown]
        exact .own hown
      · have hnone := find?_isOwn.2 hown
        cases hfirst : firstOther host (atVmid v L) with
        | none =>
          have hclaim : claimLink now host L v running = L ++ [newLink now host v (freshId Link.id L)] := by
            unfold claimLink
            rw [hnone, find?_isOther, hfirst]
          have hat : atVmid v (claimLink now host L v running) =
              atVmid v L ++ [newLink now host v (freshId Link.id L)] := by
            rw [hclaim]
            simp [atVmid, newLink]
          rw [hrest (by rw [hat]; exact hasOwn_new _ _), hat]
          exact .new _ hown hfirst
        | some o =>
          cases running with
          | true =>
            have hclaim : claimLink now host L v true = L.map (relink host o.id) := by
              unfold claimLink
              rw [hnone, find?_isOther, hfirst]
              rfl
            have hat : atVmid v (claimLink now host L v true) = (atVmid v L).map (relink host o.id) := by
              rw [hclaim, atVmid_map_relink]
            rw [hrest (by rw [hat]; exact hasOwn_map_relink (firstOther_mem hfirst).1), hat]
            exact .taken hown hfirst (by simp)
          | false =>
            have hclaim : claimLink now host L v false = L := by
              unfold claimLink
              rw [hnone, find?_isOther, hfirst]
              rfl
            rw [hclaim] at ih ⊢
            rcases ih with ⟨hnot, heq⟩ | ⟨-, hcl⟩
            · rw [heq]
              refine .skipped hown hfirst ?_
              intro hmem
              rcases List.mem_cons.1 hmem with h | h
              · exact absurd h (by simp)
              · exact hnot (List.mem_map_of_mem h)
            · exact hcl.cons (by simp)

theorem atVmid_cleanLinks (vmids : List Vmid) : atVmid vmid (cleanLinks host vmids L) =
    if vmid ∈ vmids then atVmid vmid L else (atVmid vmid L).filter fun l => l.host ≠ some host := by
  unfold atVmid cleanLinks
  rw [List.filter_filter]
  split
  · rename_i hv
    refine List.filter_congr fun l _ => ?_
    by_cases hl : l.vmid = some vmid
    · simp [hl, unlisted, hv]
    · simp [hl]
  · rename_i hv
    rw [List.filter_filter]
    refine List.filter_congr fun l _ => ?_
    by_cases hl : l.vmid = some vmid
    · simp [hl, unlisted, hv]
    · simp [hl]

theorem nodup_cleanLinks (vmids : List Vmid) (hids : (L.map Link.id).Nodup) :
    ((cleanLinks host vmids L).map Link.id).Nodup :=
  hids.sublist (List.filter_sublist.map _)

theorem nodup_foldl_claimLink (r : Report) (hids : (L.map Link.id).Nodup) :
    ((r.foldl (fun L e => claimLink now host L e.1 e.2) L).map Link.id).Nodup := by
  induction r generalizing L with
  | nil => exact hids
  | cons e r ih => exact ih (nodup_claimLink hids e.2)

theorem nodup_hostLinks (r : Report) (hids : (L.map Link.id).Nodup) : ((hostLinks now host r L).map Link.id).Nodup := by
  unfold hostLinks
  apply nodup_foldl_claimLink
  split
  · exact hids
  · exact nodup_cleanLinks _ hids

/-- What one host's processing does to the links of a VMID: if the VMID is not listed, the host's own links go, unless the
listing is empty; if it is listed, they are claimed. -/
theorem atVmid_hostLinks (r : Report) (hids : (L.map Link.id).Nodup) :
    (vmid ∉ r.map Prod.fst ∧ atVmid vmid (hostLinks now host r L) =
        if r = [] then atVmid vmid L else (atVmid vmid L).filter fun l => l.host ≠ some host) ∨
      (vmid ∈ r.map Prod.fst ∧ Claimed now host vmid r (atVmid vmid L) (atVmid vmid (hostLinks now host r L))) := by
  unfold hostLinks
  by_cases hr : r = []
  · subst hr
    exact Or.inl ⟨List.not_mem_nil, rfl⟩
  · rw [if_neg hr, if_neg hr]
    have hclean : ((cleanLinks host (r.map Prod.fst) L).map Link.id).Nodup := nodup_cleanLinks _ hids
    have h := atVmid_foldl_claimLink now host vmid r hclean
    rw [atVmid_cleanLinks] at h
    rcases h with ⟨hnot, heq⟩ | ⟨hmem, hcl⟩
    · rw [if_neg hnot] at heq
      exact Or.inl ⟨hnot, heq⟩
    · rw [if_pos hmem] at hcl
      exact Or.inr ⟨hmem, hcl⟩

end

end ProxmoxTool.Discovery
