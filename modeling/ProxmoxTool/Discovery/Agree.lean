import ProxmoxTool.Discovery.Cleanup

/-!
# Do the three implementations agree?

The copies of the merge loop have drifted apart in the two points of `Rules`.  For one host, one listing and the same tables,
`discover`, `discoverAll` and `runDiscovery` leave the same guest and tag rows exactly if no listed guest meets the difference
(`implementations_agree_iff`): no row with scan data whose guest has another MAC but the same type, and no running guest whose
reported address is a placeholder, unless that placeholder is the stored address already.
-/

namespace ProxmoxTool.Discovery

/-! ### The rows of one VMID -/

def rowsAt (vmid : Vmid) (db : Db) : List Guest := db.guests.filter fun r => r.vmid = some vmid

theorem mem_rowsAt {vmid : Vmid} {db : Db} {r : Guest} : r ∈ rowsAt vmid db ↔ r ∈ db.guests ∧ r.vmid = some vmid := by
  simp [rowsAt]

theorem ownRow_eq (host : HostId) (vmid : Vmid) (db : Db) :
    ownRow host vmid db.guests = (rowsAt vmid db).find? fun r => r.proxmoxHostId = some host := by
  unfold ownRow rowsAt
  rw [List.find?_filter]
  refine congrArg (fun p => List.find? p db.guests) (funext fun r => ?_)
  rw [Bool.eq_iff_iff]
  simp [and_comm]

theorem otherRow_eq (host : HostId) (vmid : Vmid) (db : Db) : otherRow host vmid db.guests =
    (rowsAt vmid db).find? fun r => r.proxmoxHostId.isSome && r.proxmoxHostId ≠ some host := by
  unfold otherRow rowsAt
  rw [List.find?_filter]
  refine congrArg (fun p => List.find? p db.guests) (funext fun r => ?_)
  rw [Bool.eq_iff_iff]
  simp

theorem ownRow_mem {host : HostId} {vmid : Vmid} {db : Db} {r : Guest} (h : ownRow host vmid db.guests = some r) :
    r ∈ rowsAt vmid db ∧ r.proxmoxHostId = some host := by
  rw [ownRow_eq] at h
  have hhost := List.find?_some h
  exact ⟨List.mem_of_find?_eq_some h, by simpa using hhost⟩

theorem otherRow_mem {host : HostId} {vmid : Vmid} {db : Db} {r : Guest} (h : otherRow host vmid db.guests = some r) :
    r ∈ rowsAt vmid db := by
  rw [otherRow_eq] at h
  exact List.mem_of_find?_eq_some h

/-! ### What an entry does -/

section

variable (rules : Rules) (now : Nat) (host : HostId) (api : Api)

/-- The row that a listed guest is matched with: its own, or one of another host if it runs here. -/
def matchedRow (db : Db) (g : Listed) : Option Guest :=
  match ownRow host g.vmid db.guests with
  | some r => some r
  | none => if g.status = .running then (otherRow host g.vmid db.guests).map (Change.link host).apply else none

/-- The listed guest is not known on any host. -/
def Unknown (db : Db) (g : Listed) : Prop :=
  ownRow host g.vmid db.guests = none ∧ otherRow host g.vmid db.guests = none

/-- The fields of a refreshed row. -/
theorem changeAll_refreshChanges (e r : Guest) (g : Listed) :
    changeAll (refreshChanges rules api e g) r =
      let mac := getGuestMac api g.node g.vmid g.type
      let r' := changeAll (rules.reuse e g mac) r
      { r' with
        ipAddress := (truthy (reportedIp rules api g)).or r'.ipAddress
        name := g.name.getD e.name
        replicationTarget := Discovery.replicationTarget api g.vmid
        powerState := Discovery.powerState g.status
        lockReason := truthy g.lock
        macAddress := (truthy mac).or r'.macAddress
        tags := [] } := by
  unfold refreshChanges
  simp only [changeAll_append]
  generalize changeAll (rules.reuse e g (getGuestMac api g.node g.vmid g.type)) r = r'
  generalize truthy (reportedIp rules api g) = ip
  generalize truthy (getGuestMac api g.node g.vmid g.type) = mac
  generalize Discovery.replicationTarget api g.vmid = target
  cases ip <;> cases mac <;> simp [changeAll, Change.apply]

/-- The tables after one listed guest. -/
def entry (db : Db) (g : Listed) : Db := applyAll (entryWrites rules now host api db g) db

/-- A refreshed row, with the tags of the listed guest. -/
def refreshed (e : Guest) (g : Listed) (tags : List Tag) (r : Guest) : Guest :=
  let r' := changeAll (refreshChanges rules api e g) r
  { r' with tags := r'.tags ++ (resolveTags (parseGuestTags g.tags) tags).2 }

variable {rules now host api}

theorem applyAll_refresh (e : Guest) (g : Listed) (db : Db) :
    applyAll ((refreshChanges rules api e g).map (.change e.id) ++ tagWrites e.id (parseGuestTags g.tags) db.tags) db =
      { guests := (db.modify e.id (refreshed rules api e g db.tags)).guests
        tags := (resolveTags (parseGuestTags g.tags) db.tags).1 } := by
  have htags : (db.modify e.id (changeAll (refreshChanges rules api e g))).tags = db.tags := rfl
  rw [applyAll_append, applyAll_changes, ← htags, applyAll_tagWrites, Db.modify_modify _ _ _ _ (changeAll_id _)]
  rfl

theorem entry_of_own {db : Db} {g : Listed} {e : Guest} (h : ownRow host g.vmid db.guests = some e) :
    entry rules now host api db g =
      { guests := (db.modify e.id (refreshed rules api e g db.tags)).guests
        tags := (resolveTags (parseGuestTags g.tags) db.tags).1 } := by
  unfold entry entryWrites
  rw [h]
  exact applyAll_refresh e g db

theorem entry_of_taken {db : Db} {g : Listed} {o : Guest} (hown : ownRow host g.vmid db.guests = none)
    (h : otherRow host g.vmid db.guests = some o) (hrun : g.status = .running) :
    entry rules now host api db g =
      { guests := ((db.modify o.id (Change.link host).apply).modify o.id
          (refreshed rules api ((Change.link host).apply o) g db.tags)).guests
        tags := (resolveTags (parseGuestTags g.tags) db.tags).1 } := by
  unfold entry entryWrites
  rw [hown, h]
  simp only [hrun, ↓reduceIte, applyAll_cons]
  exact applyAll_refresh ((Change.link host).apply o) g (db.modify o.id (Change.link host).apply)

theorem entry_of_skipped {db : Db} {g : Listed} {o : Guest} (hown : ownRow host g.vmid db.guests = none)
    (h : otherRow host g.vmid db.guests = some o) (hrun : g.status ≠ .running) : entry rules now host api db g = db := by
  unfold entry entryWrites
  rw [hown, h]
  simp [hrun]

theorem entry_of_unknown {db : Db} {g : Listed} (h : Unknown host db g) :
    entry rules now host api db g =
      let new := newGuest rules now host api db.guests g
      { guests := (Db.modify { db with guests := db.guests ++ [new] } new.id
          fun r => { r with tags := r.tags ++ (resolveTags (parseGuestTags g.tags) db.tags).2 }).guests
        tags := (resolveTags (parseGuestTags g.tags) db.tags).1 } := by
  unfold entry entryWrites
  rw [h.1, h.2]
  exact applyAll_tagWrites _ _ { db with guests := db.guests ++ [newGuest rules now host api db.guests g] }

/-! ### Rows of other VMIDs -/

theorem refreshed_link (e r : Guest) (g : Listed) (tags : List Tag) : (refreshed rules api e g tags r).link = r.link := by
  have hquiet : ∀ (cs : List Change) (r : Guest), (∀ h, Change.link h ∉ cs) → (changeAll cs r).link = r.link := by
    intro cs
    induction cs with
    | nil => exact fun _ _ => rfl
    | cons c cs ih =>
      intro r hcs
      have hc : ∀ h, c ≠ .link h := fun h heq => hcs h (heq ▸ List.mem_cons_self)
      exact (ih (c.apply r) fun h hmem => hcs h (List.mem_cons_of_mem _ hmem)).trans (Change.apply_link hc r)
  exact hquiet (refreshChanges rules api e g) r (refreshChanges_ne_link rules api e g)

theorem refreshed_vmid (e r : Guest) (g : Listed) (tags : List Tag) : (refreshed rules api e g tags r).vmid = r.vmid :=
  congrArg Link.vmid (refreshed_link e r g tags)

/-- Changing a row of one VMID leaves the rows of the others. -/
theorem rowsAt_modify_of_ne {db : Db} {id : Nat} {f : Guest → Guest} {vmid : Vmid} (hf : ∀ r, (f r).vmid = r.vmid)
    (hne : ∀ r ∈ db.guests, r.id = id → r.vmid ≠ some vmid) : rowsAt vmid (db.modify id f) = rowsAt vmid db := by
  unfold rowsAt Db.modify
  simp only
  rw [List.filter_map]
  have hfilter : (db.guests.filter ((fun r => decide (r.vmid = some vmid)) ∘ fun r => if r.id = id then f r else r)) =
      db.guests.filter fun r => r.vmid = some vmid := by
    refine List.filter_congr fun r _ => ?_
    by_cases hid : r.id = id
    · simp [hid, hf]
    · simp [hid]
  rw [hfilter]
  refine (List.map_congr_left fun r hr => ?_).trans (List.map_id' _)
  obtain ⟨hr, hv⟩ := List.mem_filter.1 hr
  rw [if_neg fun hid => hne r hr hid (of_decide_eq_true hv)]

theorem rowsAt_entry_of_ne {db : Db} {g : Listed} {vmid : Vmid} (hids : (db.guests.map Guest.id).Nodup)
    (hne : g.vmid ≠ vmid) : rowsAt vmid (entry rules now host api db g) = rowsAt vmid db := by
  have hother : ∀ {e : Guest}, e ∈ rowsAt g.vmid db → ∀ r ∈ db.guests, r.id = e.id → r.vmid ≠ some vmid := by
    intro e he r hr hid hv
    obtain ⟨he, hev⟩ := mem_rowsAt.1 he
    rw [eq_of_id_eq Guest.id hids hr he hid, hev] at hv
    exact hne (Option.some.inj hv)
  cases hown : ownRow host g.vmid db.guests with
  | some e =>
    rw [entry_of_own hown]
    exact rowsAt_modify_of_ne (refreshed_vmid _ · _ _) (hother (ownRow_mem hown).1)
  | none =>
    cases ho : otherRow host g.vmid db.guests with
    | some o =>
      by_cases hrun : g.status = .running
      · rw [entry_of_taken hown ho hrun]
        have hlinked : rowsAt vmid (db.modify o.id (Change.link host).apply) = rowsAt vmid db :=
          rowsAt_modify_of_ne (Change.apply_vmid _) (hother (otherRow_mem ho))
        rw [← hlinked]
        refine rowsAt_modify_of_ne (refreshed_vmid _ · _ _) fun r hr hid => ?_
        obtain ⟨r0, hr0, rfl⟩ := List.mem_map.1 hr
        by_cases h0 : r0.id = o.id
        · rw [if_pos h0, Change.apply_vmid]
          exact hother (otherRow_mem ho) r0 hr0 h0
        · rw [if_neg h0] at hid
          exact absurd hid h0
      · rw [entry_of_skipped hown ho hrun]
    | none =>
      rw [entry_of_unknown ⟨hown, ho⟩]
      have hadded : rowsAt vmid { db with guests := db.guests ++ [newGuest rules now host api db.guests g] } =
          rowsAt vmid db := by
        simp [rowsAt, newGuest, hne]
      rw [← hadded]
      refine rowsAt_modify_of_ne (fun _ => rfl) fun r hr hid => ?_
      rcases List.mem_append.1 hr with hr | hr
      · have hmem : r.id ∈ db.guests.map Guest.id := List.mem_map_of_mem hr
        rw [hid] at hmem
        exact absurd hmem (freshId_not_mem Guest.id db.guests)
      · rw [List.mem_singleton.1 hr]
        simpa [newGuest] using hne

theorem nodup_entry {db : Db} (hids : (db.guests.map Guest.id).Nodup) (g : Listed) :
    ((entry rules now host api db g).guests.map Guest.id).Nodup :=
  nodup_applyAll (freshInserts_entryWrites rules now host api db g) hids

theorem rowsAt_mergeAll_of_not_mem {db : Db} {gs : List Listed} {vmid : Vmid} (hids : (db.guests.map Guest.id).Nodup)
    (hnot : vmid ∉ gs.map fun g => g.vmid) : rowsAt vmid (mergeAll rules now host api db gs) = rowsAt vmid db := by
  induction gs generalizing db with
  | nil => rfl
  | cons g gs ih =>
    rw [List.map_cons, List.mem_cons, not_or] at hnot
    exact (ih (nodup_entry hids g) hnot.2).trans (rowsAt_entry_of_ne hids (Ne.symm hnot.1))

/-- Changing one row, seen at its VMID. -/
theorem rowsAt_modify {db : Db} {id : Nat} {f : Guest → Guest} (hf : ∀ r, (f r).vmid = r.vmid) (vmid : Vmid) :
    rowsAt vmid (db.modify id f) = (rowsAt vmid db).map fun r => if r.id = id then f r else r := by
  unfold rowsAt Db.modify
  simp only
  rw [List.filter_map]
  refine congrArg (List.map _) (List.filter_congr fun r _ => ?_)
  by_cases hid : r.id = id
  · simp [hid, hf]
  · simp [hid]

end

/-! ### The difference between the rules -/

section

variable {host : HostId} {api : Api}

/-- The two rules for a known guest come to the same: the row has no scan data if the MAC says that the guest is another one,
and a reported placeholder is the address it has already. -/
def SameRefresh (api : Api) (e : Guest) (g : Listed) : Prop :=
  (e.guestType = g.type → macChanged e.macAddress (getGuestMac api g.node g.vmid g.type) = true → e.scan = {}) ∧
    (g.status = .running → ∀ ip, getGuestIp api g.node g.vmid g.type = some ip → lower ip ∈ placeholders →
      e.ipAddress = some ip)

/-- The two rules for a new guest come to the same: no placeholder is reported for it. -/
def SameNew (api : Api) (g : Listed) : Prop :=
  g.status = .running → ∀ ip, getGuestIp api g.node g.vmid g.type = some ip → lower ip ∉ placeholders

/-- A listed guest does not meet the difference between the rules. -/
def SameEffect (host : HostId) (api : Api) (db : Db) (g : Listed) : Prop :=
  (∀ e, matchedRow host db g = some e → SameRefresh api e g) ∧ (Unknown host db g → SameNew api g)

theorem truthy_of_placeholder {ip : Text} (h : lower ip ∈ placeholders) : truthy (some ip) = some ip := by
  cases ip with
  | nil => exact absurd h (by decide)
  | cons c cs => rfl

theorem dropPlaceholder_of_mem {ip : Text} (h : lower ip ∈ placeholders) : dropPlaceholder (some ip) = none := by
  simp [dropPlaceholder, h]

theorem dropPlaceholder_of_not_mem {ip : Text} (h : lower ip ∉ placeholders) : dropPlaceholder (some ip) = some ip := by
  simp [dropPlaceholder, h]

/-- The reported addresses differ exactly for a placeholder. -/
theorem reportedIp_eq_iff (g : Listed) : reportedIp manualRules api g = reportedIp scheduledRules api g ↔ SameNew api g := by
  unfold reportedIp SameNew
  by_cases hrun : g.status = .running
  · simp only [hrun, ↓reduceIte, true_imp_iff]
    show dropPlaceholder _ = _ ↔ _
    cases getGuestIp api g.node g.vmid g.type with
    | none => exact ⟨fun _ ip h => (Option.some_ne_none ip h.symm).elim, fun _ => rfl⟩
    | some ip =>
      constructor
      · rintro heq _ ⟨⟩ hmem
        rw [dropPlaceholder_of_mem hmem] at heq
        cases heq
      · exact fun h => dropPlaceholder_of_not_mem (h ip rfl)
  · simp [hrun]

/-- The addresses after a refresh agree exactly if a reported placeholder is the stored address. -/
theorem refreshedIp_eq_iff (old : Option Text) (g : Listed) :
    (truthy (reportedIp manualRules api g)).or old = (truthy (reportedIp scheduledRules api g)).or old ↔
      (g.status = .running → ∀ ip, getGuestIp api g.node g.vmid g.type = some ip → lower ip ∈ placeholders →
        old = some ip) := by
  unfold reportedIp
  by_cases hrun : g.status = .running
  · simp only [hrun, ↓reduceIte, true_imp_iff]
    show (truthy (dropPlaceholder _)).or old = (truthy (getGuestIp api g.node g.vmid g.type)).or old ↔ _
    cases getGuestIp api g.node g.vmid g.type with
    | none => exact ⟨fun _ ip h => (Option.some_ne_none ip h.symm).elim, fun _ => rfl⟩
    | some ip =>
      by_cases hmem : lower ip ∈ placeholders
      · rw [dropPlaceholder_of_mem hmem, truthy_of_placeholder hmem]
        constructor
        · rintro heq _ ⟨⟩ -
          exact heq
        · exact fun h => h ip rfl hmem
      · rw [dropPlaceholder_of_not_mem hmem]
        exact ⟨fun _ _ h hmem' => absurd hmem' (Option.some.inj h ▸ hmem), fun _ => rfl⟩
  · simp [hrun]

theorem changeAll_clearStaleData (r : Guest) : changeAll clearStaleData r = { r with scan := {} } := by
  simp only [changeAll, clearStaleData, List.foldl_cons, List.foldl_nil, Change.apply]

theorem changeAll_retype (type : GuestType) (r : Guest) :
    changeAll (.setType type :: clearStaleData) r = { r with guestType := type, scan := {} } :=
  changeAll_clearStaleData { r with guestType := type }

/-- What is left of a row after the manual reuse detection. -/
theorem changeAll_manual (e : Guest) (g : Listed) (mac : Option Text) : changeAll (manualRules.reuse e g mac) e =
    { e with guestType := g.type, scan := if e.guestType = g.type then e.scan else {} } := by
  show changeAll (handleVmidReuse e g mac) e = _
  unfold handleVmidReuse
  by_cases ht : e.guestType = g.type
  · rw [if_pos ht, if_pos ht, ← ht]
    rfl
  · rw [if_neg ht, if_neg ht]
    exact changeAll_retype g.type e

/-- What is left of a row after the scheduled reuse detection. -/
theorem changeAll_scheduled (e : Guest) (g : Listed) (mac : Option Text) : changeAll (scheduledRules.reuse e g mac) e =
    { e with
      guestType := g.type
      scan := if e.guestType = g.type ∧ macChanged e.macAddress mac = false then e.scan else {} } := by
  show changeAll (detectReuse e g mac) e = _
  unfold detectReuse
  by_cases ht : e.guestType = g.type
  · rw [if_neg (not_not.2 ht)]
    by_cases hmac : macChanged e.macAddress mac = true
    · rw [if_pos hmac, if_neg (by simp [hmac]), ← ht]
      exact changeAll_clearStaleData e
    · rw [if_neg hmac, if_pos ⟨ht, by simpa using hmac⟩, ← ht]
      rfl
  · rw [if_pos ht, if_neg fun h => ht h.1]
    exact changeAll_retype g.type e

/-- Refreshing a row gives the same under both rules exactly if the difference is not met. -/
theorem refreshed_eq_iff (e : Guest) (g : Listed) (tags : List Tag) :
    refreshed manualRules api e g tags e = refreshed scheduledRules api e g tags e ↔ SameRefresh api e g := by
  unfold refreshed SameRefresh
  simp only [changeAll_refreshChanges, changeAll_manual, changeAll_scheduled]
  rw [← refreshedIp_eq_iff]
  generalize (truthy (reportedIp manualRules api g)).or e.ipAddress = ip
  generalize (truthy (reportedIp scheduledRules api g)).or e.ipAddress = ip'
  generalize getGuestMac api g.node g.vmid g.type = mac
  simp only [Guest.mk.injEq, true_and, and_true]
  rw [and_comm]
  refine and_congr_left fun _ => ?_
  by_cases ht : e.guestType = g.type
  · cases hmac : macChanged e.macAddress mac
    · simp [ht]
    · simp [ht]
  · simp [ht]

theorem refreshed_eq_of_same {e : Guest} {g : Listed} (h : SameRefresh api e g) (tags : List Tag) :
    refreshed manualRules api e g tags e = refreshed scheduledRules api e g tags e :=
  (refreshed_eq_iff e g tags).2 h

theorem newGuest_eq_iff (now : Nat) (guests : List Guest) (g : Listed) :
    newGuest manualRules now host api guests g = newGuest scheduledRules now host api guests g ↔ SameNew api g := by
  rw [← reportedIp_eq_iff]
  unfold newGuest
  simp

/-! ### One entry -/

theorem matchedRow_of_own {db : Db} {g : Listed} {e : Guest} (h : ownRow host g.vmid db.guests = some e) :
    matchedRow host db g = some e := by
  simp [matchedRow, h]

theorem matchedRow_of_other {db : Db} {g : Listed} {o : Guest} (hown : ownRow host g.vmid db.guests = none)
    (h : otherRow host g.vmid db.guests = some o) (hrun : g.status = .running) :
    matchedRow host db g = some ((Change.link host).apply o) := by
  simp [matchedRow, hown, h, hrun]

theorem modify_congr {db : Db} {id : Nat} {f f' : Guest → Guest} (h : ∀ r ∈ db.guests, r.id = id → f r = f' r) :
    db.modify id f = db.modify id f' := by
  unfold Db.modify
  simp only [Db.mk.injEq, and_true]
  refine List.map_congr_left fun r hr => ?_
  by_cases hid : r.id = id
  · simp only [hid, ↓reduceIte]
    exact h r hr hid
  · simp only [hid, ↓reduceIte]

/-- A listed guest that does not meet the difference leaves the same tables under both rules. -/
theorem entry_eq_of_same {now : Nat} {db : Db} {g : Listed} (hids : (db.guests.map Guest.id).Nodup)
    (h : SameEffect host api db g) : entry manualRules now host api db g = entry scheduledRules now host api db g := by
  cases hown : ownRow host g.vmid db.guests with
  | some e =>
    have hrow := refreshed_eq_of_same (h.1 e (matchedRow_of_own hown)) db.tags
    rw [entry_of_own hown, entry_of_own hown]
    refine congrArg (fun d : Db => Db.mk d.guests _) (modify_congr fun r hr hid => ?_)
    rw [eq_of_id_eq Guest.id hids hr (mem_rowsAt.1 (ownRow_mem hown).1).1 hid]
    exact hrow
  | none =>
    cases ho : otherRow host g.vmid db.guests with
    | some o =>
      by_cases hrun : g.status = .running
      · have hrow := refreshed_eq_of_same (h.1 _ (matchedRow_of_other hown ho hrun)) db.tags
        rw [entry_of_taken hown ho hrun, entry_of_taken hown ho hrun, Db.modify_modify _ _ _ _ (Change.apply_id _),
          Db.modify_modify _ _ _ _ (Change.apply_id _)]
        refine congrArg (fun d : Db => Db.mk d.guests _) (modify_congr fun r hr hid => ?_)
        rw [eq_of_id_eq Guest.id hids hr (mem_rowsAt.1 (otherRow_mem ho)).1 hid]
        exact hrow
      · rw [entry_of_skipped hown ho hrun, entry_of_skipped hown ho hrun]
    | none =>
      rw [entry_of_unknown ⟨hown, ho⟩, entry_of_unknown ⟨hown, ho⟩, (newGuest_eq_iff now db.guests g).2 (h.2 ⟨hown, ho⟩)]

/-- What an entry does to the row it matches shows in the rows of its VMID. -/
theorem refreshed_eq_of_rowsAt {db : Db} {vmid : Vmid} {e : Guest} {id : Nat} {f f' : Guest → Guest}
    (hf : ∀ r, (f r).vmid = r.vmid) (hf' : ∀ r, (f' r).vmid = r.vmid) (he : e ∈ rowsAt vmid db) (hid : e.id = id)
    (h : rowsAt vmid (db.modify id f) = rowsAt vmid (db.modify id f')) : f e = f' e := by
  rw [rowsAt_modify hf, rowsAt_modify hf', List.map_inj_left] at h
  simpa [hid] using h e he

/-- A new guest brings its reported address. -/
theorem ips_entry_of_unknown {rules : Rules} {now : Nat} {db : Db} {g : Listed} (h : Unknown host db g) :
    (rowsAt g.vmid (entry rules now host api db g)).map Guest.ipAddress =
      (rowsAt g.vmid db).map Guest.ipAddress ++ [reportedIp rules api g] := by
  have hkeep : ∀ (d : Db) (id : Nat) (tags : List Nat),
      (rowsAt g.vmid (d.modify id fun r => { r with tags := r.tags ++ tags })).map Guest.ipAddress =
        (rowsAt g.vmid d).map Guest.ipAddress := by
    intro d id tags
    rw [rowsAt_modify (f := fun r => { r with tags := r.tags ++ tags }) (fun _ => rfl), List.map_map]
    refine List.map_congr_left fun r _ => ?_
    by_cases hid : r.id = id
    · simp [hid]
    · simp [hid]
  rw [entry_of_unknown h]
  refine (hkeep _ _ _).trans ?_
  simp [rowsAt, newGuest]

/-- A listed guest that meets the difference leaves other rows of its VMID. -/
theorem same_of_rowsAt_entry_eq {now : Nat} {db : Db} {g : Listed}
    (h : rowsAt g.vmid (entry manualRules now host api db g) = rowsAt g.vmid (entry scheduledRules now host api db g)) :
    SameEffect host api db g := by
  cases hown : ownRow host g.vmid db.guests with
  | some e =>
    rw [entry_of_own hown, entry_of_own hown] at h
    have hrow := refreshed_eq_of_rowsAt (refreshed_vmid _ · _ _) (refreshed_vmid _ · _ _) (ownRow_mem hown).1 rfl h
    refine ⟨fun e' he' => ?_, fun hunknown => absurd hunknown.1 (by simp [hown])⟩
    rw [matchedRow_of_own hown] at he'
    rw [← Option.some.inj he']
    exact (refreshed_eq_iff e g db.tags).1 hrow
  | none =>
    cases ho : otherRow host g.vmid db.guests with
    | some o =>
      refine ⟨fun e' he' => ?_, fun hunknown => absurd hunknown.2 (by simp [ho])⟩
      by_cases hrun : g.status = .running
      · rw [entry_of_taken hown ho hrun, entry_of_taken hown ho hrun] at h
        have hmem : (Change.link host).apply o ∈ rowsAt g.vmid (db.modify o.id (Change.link host).apply) := by
          rw [rowsAt_modify (Change.apply_vmid _)]
          exact List.mem_map.2 ⟨o, otherRow_mem ho, by simp⟩
        have hrow := refreshed_eq_of_rowsAt (refreshed_vmid _ · _ _) (refreshed_vmid _ · _ _) hmem rfl h
        rw [matchedRow_of_other hown ho hrun] at he'
        rw [← Option.some.inj he']
        exact (refreshed_eq_iff _ g db.tags).1 hrow
      · simp [matchedRow, hown, hrun] at he'
    | none =>
      refine ⟨fun e' he' => by simp [matchedRow, hown, ho] at he', fun _ => ?_⟩
      have hips := congrArg (List.map Guest.ipAddress) h
      rw [ips_entry_of_unknown ⟨hown, ho⟩, ips_entry_of_unknown ⟨hown, ho⟩, List.append_cancel_left_eq,
        List.singleton_inj] at hips
      exact (reportedIp_eq_iff g).1 hips

/-! ### A listing -/

/-- Whether the difference is met depends on the rows of the VMID only. -/
theorem sameEffect_congr {db db' : Db} {g : Listed} (h : rowsAt g.vmid db = rowsAt g.vmid db') :
    SameEffect host api db g ↔ SameEffect host api db' g := by
  unfold SameEffect Unknown matchedRow
  simp only [ownRow_eq, otherRow_eq, h]

/-- Over a listing, the rules leave the same tables exactly if no guest meets the difference. -/
theorem mergeAll_eq_iff {now : Nat} {db : Db} {gs : List Listed} (hids : (db.guests.map Guest.id).Nodup)
    (hvmids : (gs.map fun g => g.vmid).Nodup) :
    mergeAll manualRules now host api db gs = mergeAll scheduledRules now host api db gs ↔
      ∀ g ∈ gs, SameEffect host api db g := by
  induction gs generalizing db with
  | nil => simp [mergeAll]
  | cons g gs ih =>
    rw [List.map_cons, List.nodup_cons] at hvmids
    rw [List.forall_mem_cons]
    by_cases hsame : SameEffect host api db g
    · have hentry : entry manualRules now host api db g = entry scheduledRules now host api db g :=
        entry_eq_of_same hids hsame
      have hids' : ((entry scheduledRules now host api db g).guests.map Guest.id).Nodup := nodup_entry hids g
      have hframe : ∀ g' ∈ gs, SameEffect host api (entry scheduledRules now host api db g) g' ↔
          SameEffect host api db g' := by
        intro g' hg'
        refine sameEffect_congr (rowsAt_entry_of_ne hids fun heq => hvmids.1 ?_)
        rw [heq]
        exact List.mem_map_of_mem hg'
      show mergeAll manualRules now host api (entry manualRules now host api db g) gs =
        mergeAll scheduledRules now host api (entry scheduledRules now host api db g) gs ↔ _
      rw [hentry, ih hids' hvmids.2]
      constructor
      · exact fun h => ⟨hsame, fun g' hg' => (hframe g' hg').1 (h g' hg')⟩
      · exact fun h g' hg' => (hframe g' hg').2 (h.2 g' hg')
    · -- the later guests have other VMIDs, so the rows this one has left stay different
      refine ⟨fun heq => absurd ?_ hsame, fun h => absurd h.1 hsame⟩
      have hrows := congrArg (rowsAt g.vmid) heq
      exact same_of_rowsAt_entry_eq ((rowsAt_mergeAll_of_not_mem (nodup_entry hids g) hvmids.1).symm.trans
        (hrows.trans (rowsAt_mergeAll_of_not_mem (nodup_entry hids g) hvmids.1)))

/-- The cleanup leaves the rows of the listed VMIDs. -/
theorem rowsAt_cleanup {db : Db} {gs : List Listed} {complete : Bool} {g : Listed} (hids : (db.guests.map Guest.id).Nodup)
    (hg : g ∈ gs) : rowsAt g.vmid (applyAll (cleanupWrites host gs complete db) db) = rowsAt g.vmid db := by
  unfold cleanupWrites
  split
  · rfl
  · have hdel := applyAll_deletes ((staleRows host gs db.guests).map Guest.id) db
    rw [List.map_map] at hdel
    show rowsAt g.vmid (applyAll ((staleRows host gs db.guests).map (Write.delete ∘ Guest.id)) db) = _
    rw [hdel, staleRows, filter_ids_of_filter hids]
    unfold rowsAt
    rw [List.filter_filter]
    refine List.filter_congr fun r _ => ?_
    by_cases hv : r.vmid = some g.vmid
    · have hlisted : unlisted (gs.map fun g => g.vmid) r.vmid = false := by
        rw [hv]
        simpa [unlisted] using ⟨g, hg, rfl⟩
      simp [hlisted]
    · simp [hv]

/-- One host's processing leaves the same tables under both rules exactly if no listed guest meets the difference. -/
theorem hostWrites_eq_iff {now : Nat} {db : Db} {gs : List Listed} {complete : Bool}
    (hids : (db.guests.map Guest.id).Nodup) (hvmids : (gs.map fun g => g.vmid).Nodup) :
    applyAll (hostWrites manualRules now host api gs complete db) db =
        applyAll (hostWrites scheduledRules now host api gs complete db) db ↔
      ∀ g ∈ gs, SameEffect host api db g := by
  have hfresh : FreshInserts (cleanupWrites host gs complete db) db :=
    (freshInserts_append.1 (freshInserts_hostWrites manualRules now host api gs complete db)).1
  rw [applyAll_hostWrites, applyAll_hostWrites, mergeAll_eq_iff (nodup_applyAll hfresh hids) hvmids]
  exact forall₂_congr fun g hg => sameEffect_congr (rowsAt_cleanup hids hg)

end

/-! ### The three implementations -/

/-- The tables after a host's processing without failures: none if its listing raises. -/
def Host.merged (rules : Rules) (now : Nat) (h : Host) (db : Db) : Db :=
  match h.listing with
  | .error _ => db
  | .ok (guests, complete) => applyAll (hostWrites rules now h.id h.api guests complete db) db

section

variable {now : Nat} {h : Host}

theorem processHost_of_calm (hcalm : h.raises = none) (rules : Rules) (now : Nat) (db : Db) :
    (∃ ws, processHost rules now h db = .done ws ∧ applyAll ws db = h.merged rules now db) ∨
      (processHost rules now h db = .raised [] ∧ h.merged rules now db = db) := by
  unfold processHost Host.merged
  cases h.listing with
  | error e => exact Or.inr ⟨rfl, rfl⟩
  | ok l =>
    refine Or.inl ⟨_, ?_, rfl⟩
    simp only [hcalm]

theorem discover_db (hcalm : h.raises = none) (hpve : h.isPbs = false) (db : Db) :
    (discover now h { db := db }).db = h.merged manualRules now db := by
  have htab : (Session.mk db []).tables = db := rfl
  unfold discover
  rw [hpve, htab]
  rcases processHost_of_calm hcalm manualRules now db with ⟨ws, hdone, hws⟩ | ⟨hraised, hdb⟩
  · simp only [hdone, Bool.false_eq_true, ↓reduceIte]
    exact (Session.tables_write _ _).trans hws
  · simp only [hraised, Bool.false_eq_true, ↓reduceIte]
    exact hdb.symm

theorem discoverAll_singleton_db (hcalm : h.raises = none) (hpve : h.isPbs = false) (db : Db) :
    (discoverAll now [h] { db := db }).db = h.merged manualRules now db := by
  have htab : (Session.mk db []).tables = db := rfl
  unfold discoverAll
  simp only [List.foldl_cons, List.foldl_nil, discoverAllHost, hpve, htab, Bool.or_self, Bool.false_eq_true, ↓reduceIte]
  rcases processHost_of_calm hcalm manualRules now db with ⟨ws, hdone, hws⟩ | ⟨hraised, hdb⟩
  · simp only [hdone, Bool.false_eq_true, ↓reduceIte]
    exact (Session.tables_write _ _).trans hws
  · simp only [hraised, Bool.false_eq_true, ↓reduceIte]
    exact hdb.symm

theorem runDiscovery_singleton_db (hcalm : h.raises = none) (db : Db) :
    (runDiscovery true now [h] { db := db }).db = h.merged scheduledRules now db := by
  have htab : (Session.mk db []).tables = db := rfl
  unfold runDiscovery
  simp only [List.foldl_cons, List.foldl_nil, runDiscoveryHost, htab, ↓reduceIte]
  rcases processHost_of_calm hcalm scheduledRules now db with ⟨ws, hdone, hws⟩ | ⟨hraised, hdb⟩
  · simp only [hdone]
    exact (Session.tables_write _ _).trans hws
  · simp only [hraised]
    exact hdb.symm

theorem merged_of_no_guests (hnone : h.guests = []) (rules : Rules) (db : Db) : h.merged rules now db = db := by
  unfold Host.merged
  unfold Host.guests at hnone
  cases hl : h.listing with
  | error e => rfl
  | ok l =>
    rw [hl] at hnone
    obtain ⟨guests, complete⟩ := l
    obtain rfl : guests = [] := hnone
    rfl

theorem merged_eq_iff {db : Db} (hids : (db.guests.map Guest.id).Nodup) (hvmids : (h.guests.map fun g => g.vmid).Nodup) :
    h.merged manualRules now db = h.merged scheduledRules now db ↔ ∀ g ∈ h.guests, SameEffect h.id h.api db g := by
  unfold Host.merged
  unfold Host.guests at hvmids ⊢
  cases hl : h.listing with
  | error e => simp
  | ok l =>
    rw [hl] at hvmids
    exact hostWrites_eq_iff hids hvmids

/-- One host, processed by each of the three implementations without a failure: they leave the same rows exactly if no listed
guest meets the difference between the rules.  A backup server lists no guests, and VMIDs are distinct on a node and in a
cluster. -/
theorem implementations_agree_iff {db : Db} (hcalm : h.raises = none) (hpbs : h.isPbs = true → h.guests = [])
    (hids : (db.guests.map Guest.id).Nodup) (hvmids : (h.guests.map fun g => g.vmid).Nodup) :
    ((discover now h { db := db }).db = (discoverAll now [h] { db := db }).db ∧
        (discoverAll now [h] { db := db }).db = (runDiscovery true now [h] { db := db }).db) ↔
      ∀ g ∈ h.guests, SameEffect h.id h.api db g := by
  cases hpve : h.isPbs with
  | false =>
    rw [discover_db hcalm hpve, discoverAll_singleton_db hcalm hpve, runDiscovery_singleton_db hcalm,
      ← merged_eq_iff hids hvmids]
    exact and_iff_right rfl
  | true =>
    have hnone := hpbs hpve
    have hdiscover : (discover now h { db := db }).db = db := by simp [discover, hpve]
    have hall : (discoverAll now [h] { db := db }).db = db := by
      simp [discoverAll, discoverAllHost, hpve, Session.commit, Session.tables]
    rw [hdiscover, hall, runDiscovery_singleton_db hcalm, merged_of_no_guests hnone, hnone]
    simp

end

/-! ### A rebuilt guest -/

/-- A host whose VM 100 has the given configuration of its first network card. -/
def cardHost (net0 : Text) : Host :=
  let h := vmHost 1 [{ vmid := 100, name := some ['a'], status := .running }]
  { h with api := { h.api with qemuNet0 := fun _ _ => .ok net0 } }

/-- A card `e=00:00:00:00:00:01` or `e=00:00:00:00:00:02`. -/
def card (last : Char) : Text :=
  ['e', '=', '0', '0', ':', '0', '0', ':', '0', '0', ':', '0', '0', ':', '0', '0', ':', '0', last]

/-- The row of a VM that has been scanned, with the MAC of the first card. -/
def scannedGuest : Guest where
  id := 1
  proxmoxHostId := some 1
  vmid := some 100
  name := ['a']
  guestType := .vm
  macAddress := some ((card '1').drop 2)
  scan := { lastScan := some 3, status := .upToDate }
  createdAt := 1

/-- A VM rebuilt under its VMID with another card: only the scheduled pass clears what the scans of the old VM have left. -/
theorem rebuilt_guest_disagrees :
    (discover 5 (cardHost (card '2')) { db := ⟨[scannedGuest], []⟩ }).db.guests.map Guest.scan = [scannedGuest.scan] ∧
      (discoverAll 5 [cardHost (card '2')] { db := ⟨[scannedGuest], []⟩ }).db.guests.map Guest.scan = [scannedGuest.scan] ∧
      (runDiscovery true 5 [cardHost (card '2')] { db := ⟨[scannedGuest], []⟩ }).db.guests.map Guest.scan = [{}] ∧
      (discoverAll 5 [cardHost (card '2')] { db := ⟨[scannedGuest], []⟩ }).db ≠
        (runDiscovery true 5 [cardHost (card '2')] { db := ⟨[scannedGuest], []⟩ }).db := by
  decide

/-- With the card it had, the three agree. -/
theorem scanned_guest_agrees :
    (discover 5 (cardHost (card '1')) { db := ⟨[scannedGuest], []⟩ }).db =
        (discoverAll 5 [cardHost (card '1')] { db := ⟨[scannedGuest], []⟩ }).db ∧
      (discoverAll 5 [cardHost (card '1')] { db := ⟨[scannedGuest], []⟩ }).db =
        (runDiscovery true 5 [cardHost (card '1')] { db := ⟨[scannedGuest], []⟩ }).db := by
  refine (implementations_agree_iff rfl (by decide) (by decide) (by decide)).2 fun g hg => ?_
  have hguests : (cardHost (card '1')).guests =
      [{ vmid := 100, name := some ['a'], status := .running, node := ['n'], type := .vm }] := by decide
  rw [hguests, List.mem_singleton] at hg
  subst hg
  have hmatch : matchedRow 1 ⟨[scannedGuest], []⟩
      { vmid := 100, name := some ['a'], status := .running, node := ['n'], type := .vm } = some scannedGuest := by decide
  refine ⟨fun e he => ?_, fun hunknown => absurd hunknown.1 (by decide)⟩
  rw [← Option.some.inj (hmatch.symm.trans he)]
  exact ⟨fun _ hmac => absurd hmac (by decide), fun _ ip hip => absurd hip.symm (Option.some_ne_none ip)⟩

end ProxmoxTool.Discovery
