import ProxmoxTool.Discovery.Pass

/-!
# What a pass deletes

The only deletions of a pass are those of the cleanup, and the cleanup takes rows of the processed host only, after a listing
that is complete, not empty and does not have the row's VMID (`processHost_delete`).  `deletes_only_gone_guests` says this of
whole passes, whatever the listings and the session do: each deletion, seen with the tables at that moment, and each row
that is missing from the committed tables in the end.
-/

namespace ProxmoxTool.Discovery

/-! ### The deletions of one host's processing -/

section

variable {rules : Rules} {now : Nat} {host : HostId} {api : Api} {id : Nat}

theorem delete_not_mem_of_quiet {ws : List Write} (h : ∀ w ∈ ws, w.Quiet) : Write.delete id ∉ ws :=
  fun hmem => h _ hmem

theorem delete_not_mem_entryWrites (db : Db) (g : Listed) : Write.delete id ∉ entryWrites rules now host api db g := by
  unfold entryWrites
  split
  · exact delete_not_mem_of_quiet (refresh_quiet _ _ _ _ _ _)
  · split
    · split
      · rw [List.mem_cons, not_or]
        exact ⟨by simp, delete_not_mem_of_quiet (refresh_quiet _ _ _ _ _ _)⟩
      · exact List.not_mem_nil
    · rw [List.mem_cons, not_or]
      exact ⟨by simp, delete_not_mem_of_quiet (tagWrites_quiet _ _ _)⟩

theorem delete_not_mem_mergeWrites (db : Db) (guests : List Listed) :
    Write.delete id ∉ mergeWrites rules now host api db guests := by
  induction guests generalizing db with
  | nil => exact List.not_mem_nil
  | cons g gs ih =>
    rw [mergeWrites, List.mem_append, not_or]
    exact ⟨delete_not_mem_entryWrites db g, ih _⟩

/-- A deletion comes from the cleanup. -/
theorem delete_mem_hostWrites {guests : List Listed} {complete : Bool} {db : Db}
    (h : Write.delete id ∈ hostWrites rules now host api guests complete db) :
    guests ≠ [] ∧ complete = true ∧ ∃ g ∈ db.guests, g.id = id ∧ g.proxmoxHostId = some host ∧
      ∃ v, g.vmid = some v ∧ ∀ x ∈ guests, x.vmid ≠ v := by
  rcases List.mem_append.1 h with h | h
  swap
  · exact absurd h (delete_not_mem_mergeWrites _ _)
  · unfold cleanupWrites at h
    split at h
    · cases h
    · rename_i hcond
      rw [not_or] at hcond
      obtain ⟨g, hg, hid⟩ := List.mem_map.1 h
      obtain ⟨hg, hstale⟩ := List.mem_filter.1 hg
      rw [Bool.and_eq_true, decide_eq_true_eq] at hstale
      refine ⟨hcond.1, by simpa using hcond.2, g, hg, Write.delete.inj hid, hstale.1, ?_⟩
      cases hv : g.vmid with
      | none =>
        rw [hv] at hstale
        exact absurd hstale.2 (by simp [unlisted])
      | some v =>
        rw [hv] at hstale
        refine ⟨v, rfl, fun x hx hxv => ?_⟩
        simp only [unlisted, decide_eq_true_eq] at hstale
        exact hstale.2 (List.mem_map.2 ⟨x, hx, hxv⟩)

end

/-- The writes a host's processing leaves in the session. -/
def Outcome.writes : Outcome → List Write
  | .done ws => ws
  | .raised ws => ws
  | .flushFailed => []

theorem processHost_writes {rules : Rules} {now : Nat} {h : Host} {db : Db} {w : Write}
    (hw : w ∈ (processHost rules now h db).writes) :
    ∃ guests complete, h.listing = .ok (guests, complete) ∧ w ∈ hostWrites rules now h.id h.api guests complete db := by
  unfold processHost at hw
  split at hw
  · cases hw
  · rename_i guests complete hl
    refine ⟨guests, complete, hl, ?_⟩
    split at hw
    · exact hw
    · exact List.mem_of_mem_take hw
    · cases hw

/-- The listing of a host has been asked for completely, is not empty, and does not have the row's VMID. -/
def Gone (h : Host) (g : Guest) : Prop :=
  g.proxmoxHostId = some h.id ∧
    ∃ guests v, h.listing = .ok (guests, true) ∧ guests ≠ [] ∧ g.vmid = some v ∧ ∀ x ∈ guests, x.vmid ≠ v

/-- Whatever the listing and the session do, a host's processing deletes only rows of guests that are gone from the host. -/
theorem processHost_delete {rules : Rules} {now : Nat} {h : Host} {db : Db} {id : Nat}
    (hw : Write.delete id ∈ (processHost rules now h db).writes) : ∃ g ∈ db.guests, g.id = id ∧ Gone h g := by
  obtain ⟨guests, complete, hl, hw⟩ := processHost_writes hw
  obtain ⟨hne, rfl, g, hg, hid, hhost, v, hv, hnot⟩ := delete_mem_hostWrites hw
  exact ⟨g, hg, hid, hhost, guests, v, hl, hne, hv, hnot⟩

/-- A host for which a request failed loses no row. -/
theorem processHost_delete_of_failed {rules : Rules} {now : Nat} {h : Host} {db : Db} {node : Text}
    (hq : node ∈ queriedNodes h.api h.hostname) (hf : RequestFailed h.api node) (id : Nat) :
    Write.delete id ∉ (processHost rules now h db).writes := by
  intro hw
  obtain ⟨-, -, -, -, guests, -, hl, -⟩ := processHost_delete hw
  have hl : nodeGuests h.api h.hostname = .ok (guests, true) := hl
  rcases nodeGuests_of_failed hq hf with ⟨e, he⟩ | ⟨guests', hg⟩
  · rw [hl] at he
    cases he
  · rw [hl] at hg
    cases hg

/-! ### Ids stay distinct -/

/-- Each inserted row has an id that is free at that moment. -/
def FreshInserts : List Write → Db → Prop
  | [], _ => True
  | w :: ws, db => (∀ g, w = .insert g → g.id ∉ db.guests.map Guest.id) ∧ FreshInserts ws (w.apply db)

theorem freshInserts_append {ws ws' : List Write} {db : Db} :
    FreshInserts (ws ++ ws') db ↔ FreshInserts ws db ∧ FreshInserts ws' (applyAll ws db) := by
  induction ws generalizing db with
  | nil => simp [FreshInserts]
  | cons w ws ih => simp [FreshInserts, ih, and_assoc]

theorem freshInserts_of_no_insert {ws : List Write} (h : ∀ g, Write.insert g ∉ ws) (db : Db) : FreshInserts ws db := by
  induction ws generalizing db with
  | nil => trivial
  | cons w ws ih =>
    refine ⟨fun g hg => absurd (hg ▸ List.mem_cons_self) (h g), ih (fun g hg => h g (List.mem_cons_of_mem _ hg)) _⟩

theorem freshInserts_of_quiet {ws : List Write} (h : ∀ w ∈ ws, w.Quiet) (db : Db) : FreshInserts ws db :=
  freshInserts_of_no_insert (fun _ hg => h _ hg) db

theorem freshInserts_entryWrites (rules : Rules) (now : Nat) (host : HostId) (api : Api) (db : Db) (g : Listed) :
    FreshInserts (entryWrites rules now host api db g) db := by
  unfold entryWrites
  split
  · exact freshInserts_of_quiet (refresh_quiet _ _ _ _ _ _) db
  · split
    · split
      · exact ⟨fun _ h => (Write.noConfusion h : False).elim, freshInserts_of_quiet (refresh_quiet _ _ _ _ _ _) _⟩
      · trivial
    · refine ⟨fun g' hg' => ?_, freshInserts_of_quiet (tagWrites_quiet _ _ _) _⟩
      rw [← Write.insert.inj hg']
      exact freshId_not_mem Guest.id db.guests

theorem freshInserts_hostWrites (rules : Rules) (now : Nat) (host : HostId) (api : Api) (guests : List Listed)
    (complete : Bool) (db : Db) : FreshInserts (hostWrites rules now host api guests complete db) db := by
  have hmerge : ∀ (gs : List Listed) (db : Db), FreshInserts (mergeWrites rules now host api db gs) db := by
    intro gs
    induction gs with
    | nil => exact fun _ => trivial
    | cons g gs ih => exact fun db => freshInserts_append.2 ⟨freshInserts_entryWrites .., ih _⟩
  refine freshInserts_append.2 ⟨freshInserts_of_no_insert ?_ db, hmerge guests _⟩
  intro g hg
  unfold cleanupWrites at hg
  split at hg
  · cases hg
  · obtain ⟨r, -, hr⟩ := List.mem_map.1 hg
    cases hr

theorem freshInserts_processHost (rules : Rules) (now : Nat) (h : Host) (db : Db) :
    FreshInserts (processHost rules now h db).writes db := by
  unfold processHost
  split
  · trivial
  · rename_i guests complete _
    have hall := freshInserts_hostWrites rules now h.id h.api guests complete db
    split
    · exact hall
    · rename_i after _
      rw [← List.take_append_drop after (hostWrites rules now h.id h.api guests complete db), freshInserts_append] at hall
      exact hall.1
    · trivial

theorem nodup_applyAll {ws : List Write} {db : Db} (hfresh : FreshInserts ws db) (hids : (db.guests.map Guest.id).Nodup) :
    ((applyAll ws db).guests.map Guest.id).Nodup := by
  induction ws generalizing db with
  | nil => exact hids
  | cons w ws ih =>
    refine ih hfresh.2 ?_
    cases w with
    | delete id => exact hids.sublist (List.filter_sublist.map _)
    | insertTag t => exact hids
    | change id c =>
      have : (db.guests.map fun g => if g.id = id then c.apply g else g).map Guest.id = db.guests.map Guest.id := by
        rw [List.map_map]
        refine List.map_congr_left fun g _ => ?_
        by_cases hg : g.id = id
        · simp [hg]
        · simp [hg]
      show ((db.guests.map fun g => if g.id = id then c.apply g else g).map Guest.id).Nodup
      rw [this]
      exact hids
    | insert g =>
      show ((db.guests ++ [g]).map Guest.id).Nodup
      rw [List.map_append, List.map_singleton, List.nodup_append]
      refine ⟨hids, List.nodup_singleton _, fun a ha b hb hab => ?_⟩
      rw [List.mem_singleton.1 hb] at hab
      exact hfresh.1 g rfl (hab ▸ ha)

/-- An id stays in the table unless it is deleted. -/
theorem mem_ids_applyAll {ws : List Write} {db : Db} {id : Nat} (hid : id ∈ db.guests.map Guest.id)
    (hno : Write.delete id ∉ ws) : id ∈ (applyAll ws db).guests.map Guest.id := by
  induction ws generalizing db with
  | nil => exact hid
  | cons w ws ih =>
    rw [List.mem_cons, not_or] at hno
    refine ih ?_ hno.2
    obtain ⟨g, hg, rfl⟩ := List.mem_map.1 hid
    cases w with
    | delete id' =>
      refine List.mem_map_of_mem (List.mem_filter.2 ⟨hg, ?_⟩)
      simpa using fun h : g.id = id' => hno.1 (by rw [h])
    | insertTag t => exact hid
    | change id' c =>
      refine List.mem_map.2 ⟨if g.id = id' then c.apply g else g, List.mem_map_of_mem hg, ?_⟩
      split <;> simp
    | insert g' => exact List.mem_map_of_mem (List.mem_append_left _ hg)

/-! ### Whole passes -/

/-- The loop of a pass when the hosts of `pre` have had their turns. -/
def Pass.loop (p : Pass) (now : Nat) (pre : List Host) (db : Db) : Loop :=
  match p with
  | .manual => pre.foldl (discoverAllHost now) { session := { db := db } }
  | .scheduled => { session := pre.foldl (runDiscoveryHost now) { db := db } }

/-- The writes that the turn of `h` leaves in the session; a turn that does not take place leaves none. -/
def Pass.writes (p : Pass) (now : Nat) (pre : List Host) (h : Host) (db : Db) : List Write :=
  if p = .manual ∧ ((p.loop now pre db).aborted ∨ h.isPbs) then []
  else (processHost p.rules now h (p.loop now pre db).session.tables).writes

/-- After a turn, the committed tables and the tables of the session are those before it or those with the turn's writes. -/
theorem Pass.loop_turn (p : Pass) (now : Nat) (pre : List Host) (h : Host) (db : Db) :
    let s := (p.loop now pre db).session
    let s' := (p.loop now (pre ++ [h]) db).session
    (s'.db = s.db ∨ s'.db = applyAll (p.writes now pre h db) s.tables) ∧
      (s'.tables = s.db ∨ s'.tables = s.tables ∨ s'.tables = applyAll (p.writes now pre h db) s.tables) := by
  intro s s'
  cases p with
  | manual =>
    have hs' : s' = (discoverAllHost now (Pass.manual.loop now pre db) h).session := by
      show ((pre ++ [h]).foldl (discoverAllHost now) _).session = _
      rw [List.foldl_append]
      rfl
    rw [hs']
    unfold discoverAllHost Pass.writes
    by_cases hskip : (Pass.manual.loop now pre db).aborted || h.isPbs
    · rw [if_pos hskip]
      exact ⟨Or.inl rfl, Or.inr (Or.inl rfl)⟩
    · rw [if_neg hskip, if_neg (by simpa using hskip)]
      show _ ∧ _
      cases hout : processHost manualRules now h (Pass.manual.loop now pre db).session.tables with
      | done ws =>
        simp only [Pass.rules, hout, Outcome.writes]
        exact ⟨Or.inr (Session.tables_write _ _), Or.inr (Or.inr (Session.tables_write _ _))⟩
      | raised ws =>
        simp only [Pass.rules, hout, Outcome.writes]
        exact ⟨Or.inl rfl, Or.inr (Or.inr (Session.tables_write _ _))⟩
      | flushFailed => exact ⟨Or.inl rfl, Or.inl rfl⟩
  | scheduled =>
    have hs' : s' = runDiscoveryHost now s h := by
      show (pre ++ [h]).foldl (runDiscoveryHost now) _ = _
      rw [List.foldl_append]
      rfl
    rw [hs']
    unfold runDiscoveryHost Pass.writes
    rw [if_neg (by simp)]
    show _ ∧ _
    cases hout : processHost scheduledRules now h s.tables with
    | done ws =>
      simp only [Pass.rules, show processHost scheduledRules now h (Pass.scheduled.loop now pre db).session.tables = _ from
        hout, Outcome.writes]
      exact ⟨Or.inr (Session.tables_write _ _), Or.inr (Or.inr (Session.tables_write _ _))⟩
    | raised ws => exact ⟨Or.inl rfl, Or.inl rfl⟩
    | flushFailed => exact ⟨Or.inl rfl, Or.inl rfl⟩

theorem Pass.freshInserts_writes (p : Pass) (now : Nat) (pre : List Host) (h : Host) (db : Db) :
    FreshInserts (p.writes now pre h db) (p.loop now pre db).session.tables := by
  unfold Pass.writes
  split
  · trivial
  · exact freshInserts_processHost ..

/-- What a turn keeps of the tables that it sees holds of the committed rows and of the tables. -/
theorem Pass.loop_induction (p : Pass) (now : Nat) (pre : List Host) {db : Db} {I : Db → Prop} (hI : I db)
    (hturn : ∀ pre' h post', pre = pre' ++ h :: post' → I (p.loop now pre' db).session.tables →
      I (applyAll (p.writes now pre' h db) (p.loop now pre' db).session.tables)) :
    I (p.loop now pre db).session.db ∧ I (p.loop now pre db).session.tables := by
  induction pre using List.reverseRecOn with
  | nil => cases p <;> exact ⟨hI, hI⟩
  | append_singleton pre h ih =>
    have hpre := ih fun pre' h' post' heq => hturn pre' h' (post' ++ [h]) (by rw [heq, List.append_assoc]; rfl)
    have hnew := hturn pre h [] rfl hpre.2
    obtain ⟨hdb, htab⟩ := p.loop_turn now pre h db
    constructor
    · rcases hdb with heq | heq <;> rw [heq]
      · exact hpre.1
      · exact hnew
    · rcases htab with heq | heq | heq <;> rw [heq]
      · exact hpre.1
      · exact hpre.2
      · exact hnew

theorem Pass.nodup_loop (p : Pass) (now : Nat) (pre : List Host) {db : Db} (hids : (db.guests.map Guest.id).Nodup) :
    ((p.loop now pre db).session.db.guests.map Guest.id).Nodup ∧
      ((p.loop now pre db).session.tables.guests.map Guest.id).Nodup :=
  p.loop_induction now pre (I := fun d => (d.guests.map Guest.id).Nodup) hids
    fun pre' h _ _ htab => nodup_applyAll (p.freshInserts_writes now pre' h db) htab

/-- An id is in the tables as long as no turn has deleted it. -/
theorem Pass.mem_ids_loop (p : Pass) (now : Nat) (pre : List Host) {db : Db} {id : Nat} (hid : id ∈ db.guests.map Guest.id)
    (hno : ∀ pre' h post', pre = pre' ++ h :: post' → Write.delete id ∉ p.writes now pre' h db) :
    id ∈ (p.loop now pre db).session.db.guests.map Guest.id ∧
      id ∈ (p.loop now pre db).session.tables.guests.map Guest.id :=
  p.loop_induction now pre (I := fun d => id ∈ d.guests.map Guest.id) hid
    fun pre' h post' heq htab => mem_ids_applyAll htab (hno pre' h post' heq)

theorem Pass.run_loop (p : Pass) (now : Nat) (hs : List Host) (db : Db) :
    p.run now hs db = (p.loop now hs db).session.db ∨ p.run now hs db = (p.loop now hs db).session.tables := by
  cases p with
  | scheduled => exact Or.inl rfl
  | manual =>
    have hrun : Pass.manual.run now hs db = (if (Pass.manual.loop now hs db).aborted then
        (Pass.manual.loop now hs db).session else (Pass.manual.loop now hs db).session.commit).db := rfl
    rw [hrun]
    split
    · exact Or.inl rfl
    · exact Or.inr rfl

/-- For all hosts and all outcomes of their listings: every deletion of a pass hits a row that is linked, at that moment, to a
host whose complete, non-empty listing does not have its VMID; a host for which some request failed reports it and loses no
row; and every row that is missing in the end was deleted so. -/
theorem deletes_only_gone_guests (p : Pass) (now : Nat) (hs : List Host) {db : Db} (hids : (db.guests.map Guest.id).Nodup) :
    (∀ pre h post, hs = pre ++ h :: post →
      (∀ g ∈ (p.loop now pre db).session.tables.guests, .delete g.id ∈ p.writes now pre h db → Gone h g) ∧
      ∀ node ∈ queriedNodes h.api h.hostname, RequestFailed h.api node →
        ((∃ e, h.listing = .error e) ∨ ∃ guests, h.listing = .ok (guests, false)) ∧
          ∀ id, .delete id ∉ p.writes now pre h db) ∧
    ∀ g ∈ db.guests, g.id ∉ (p.run now hs db).guests.map Guest.id →
      ∃ pre h post, hs = pre ++ h :: post ∧ .delete g.id ∈ p.writes now pre h db := by
  refine ⟨fun pre h post _ => ⟨fun g hg hdel => ?_, fun node hq hf => ⟨nodeGuests_of_failed hq hf, fun id hdel => ?_⟩⟩, ?_⟩
  · unfold Pass.writes at hdel
    split at hdel
    · cases hdel
    · obtain ⟨g', hg', hid, hgone⟩ := processHost_delete hdel
      rwa [eq_of_id_eq Guest.id (p.nodup_loop now pre hids).2 hg' hg hid] at hgone
  · unfold Pass.writes at hdel
    split at hdel
    · cases hdel
    · exact processHost_delete_of_failed hq hf id hdel
  · intro g hg hmiss
    by_contra hcon
    have hkept := p.mem_ids_loop now hs (List.mem_map_of_mem hg) fun pre h post heq hdel => hcon ⟨pre, h, post, heq, hdel⟩
    rcases p.run_loop now hs db with heq | heq <;> rw [heq] at hmiss
    · exact hmiss hkept.1
    · exact hmiss hkept.2

/-- A host that lists one of its two guests. -/
theorem deletes_only_gone_guests_sample :
    Write.delete 2 ∈ Pass.scheduled.writes 5 [] (vmHost 1 [{ vmid := 100, name := some ['a'], status := .running }])
        ⟨[{ id := 1, proxmoxHostId := some 1, vmid := some 100, name := ['a'], guestType := .vm, createdAt := 1 },
          { id := 2, proxmoxHostId := some 1, vmid := some 101, name := ['b'], guestType := .vm, createdAt := 1 }], []⟩ ∧
      Gone (vmHost 1 [{ vmid := 100, name := some ['a'], status := .running }])
        { id := 2, proxmoxHostId := some 1, vmid := some 101, name := ['b'], guestType := .vm, createdAt := 1 } := by
  have hdel : Write.delete 2 ∈ Pass.scheduled.writes 5 [] (vmHost 1 [{ vmid := 100, name := some ['a'], status := .running }])
      ⟨[{ id := 1, proxmoxHostId := some 1, vmid := some 100, name := ['a'], guestType := .vm, createdAt := 1 },
        { id := 2, proxmoxHostId := some 1, vmid := some 101, name := ['b'], guestType := .vm, createdAt := 1 }], []⟩ := by
    decide
  exact ⟨hdel, ((deletes_only_gone_guests .scheduled 5 _ (by decide)).1 [] _ [] rfl).1 _ (by decide) hdel⟩

end ProxmoxTool.Discovery
