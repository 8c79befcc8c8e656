import ProxmoxTool.Moderation.Queue
import ProxmoxTool.Moderation.Signups

/-!
# A poll is a run

The system has the steps of a poll as events of their own.  Here a whole `run_watch_poll`, with any client whose answers are
those of the instance or errors, is taken apart into events (`poll_is_run`): what holds in every state the system reaches
holds after every poll.
-/

namespace ProxmoxTool.Moderation

/-- Every answer of the client is the one of the instance, or an error. -/
structure Truthful (inst : Instance) (client : Client) : Prop where
  statuses : ∀ account since limit, (∃ e, client.accountStatuses account since limit = .error e) ∨
    client.accountStatuses account since limit = .ok (inst.accountStatuses account since limit)
  accounts : ∀ newerThan pages, (∃ e, client.localAccounts newerThan pages = .error e) ∨
    client.localAccounts newerThan pages = inst.localAccounts newerThan pages

/-- The trouble that explains an answer. -/
def troubleOf {α : Type} (reply : Except ApiError α) (interrupt : Option Nat) : Trouble where
  error := match reply with
    | .error e => some e
    | .ok _ => none
  interrupt := interrupt

theorem answer_troubleOf {α : Type} {reply x : Except ApiError α} (h : (∃ e, reply = .error e) ∨ reply = x)
    (interrupt : Option Nat) : (troubleOf reply interrupt).answer x = reply := by
  rcases h with ⟨e, rfl⟩ | rfl
  · rfl
  · cases reply with
    | error e => rfl
    | ok a => rfl

/-! ### Runs between tables -/

/-- A step of a poll at `now`, whose rows get `clock`. -/
def Event.OfPoll (now clock : Time) (e : Event) : Prop :=
  e = .prune now ∨ (∃ id t, e = .check id now clock t) ∨ (∃ t bot, e = .newAccounts now clock t bot) ∨ ∃ t, e = .scan now clock t

/-- Some run of steps of one poll leads to the tables, with the instance and the settings as they are. -/
def World.Gets (w : World) (now clock : Time) (db : Db) : Prop :=
  ∃ events w', (∀ e ∈ events, e.OfPoll now clock) ∧ system.exec w events = some w' ∧ w'.db = db ∧ w'.inst = w.inst ∧
    w'.settings = w.settings

theorem World.gets_refl (w : World) (now clock : Time) : w.Gets now clock w.db :=
  ⟨[], w, fun _ he => absurd he List.not_mem_nil, rfl, rfl, rfl, rfl⟩

theorem World.gets_step {w w' : World} {now clock : Time} {e : Event} (he : e.OfPoll now clock) (h : step w e = some w')
    (hinst : w'.inst = w.inst) (hsettings : w'.settings = w.settings) : w.Gets now clock w'.db := by
  refine ⟨[e], w', List.forall_mem_singleton.2 he, ?_, rfl, hinst, hsettings⟩
  show (step w e).bind _ = some w'
  rw [h]
  rfl

theorem World.Gets.trans {w : World} {now clock : Time} {db db' : Db} (h : w.Gets now clock db)
    (h' : ∀ w' : World, w'.db = db → w'.inst = w.inst → w'.settings = w.settings → w'.Gets now clock db') :
    w.Gets now clock db' := by
  obtain ⟨events, w', hof, hexec, hdb, hinst, hsettings⟩ := h
  obtain ⟨events', w'', hof', hexec', hdb', hinst', hsettings'⟩ := h' w' hdb hinst hsettings
  refine ⟨events ++ events', w'', List.forall_mem_append.2 ⟨hof, hof'⟩, ?_, hdb', hinst'.trans hinst, hsettings'.trans hsettings⟩
  rw [System.exec_append, hexec]
  exact hexec'

/-! ### The loop over the watches -/

theorem mem_saveWatch_of_ne {db : Db} {w r : Watch} (hne : r.id ≠ w.id) (hr : r ∈ db.watches) :
    r ∈ (db.saveWatch w).watches :=
  List.mem_map.2 ⟨r, hr, if_neg hne⟩

/-- The check of a watch leaves the rows of the others. -/
theorem checkWatch_other (now clock : Time) (reply : Except ApiError (List Status)) (interrupt : Option Nat) {w r : Watch}
    {db : Db} (hne : r.id ≠ w.id) (hr : r ∈ db.watches) : r ∈ (checkWatch now clock reply interrupt w db).1.watches := by
  have hall : ∀ statuses : List Status, (statuses.foldl (alertStatus clock) (db, w)).2.id = w.id ∧
      r ∈ (statuses.foldl (alertStatus clock) (db, w)).1.watches := fun statuses =>
    List.foldlRecOn (motive := fun st : Db × Watch => st.2.id = w.id ∧ r ∈ st.1.watches) statuses (alertStatus clock)
      ⟨rfl, hr⟩ fun st hst s _ => by
        obtain ⟨d, v⟩ := st
        obtain ⟨hid, hmem⟩ := hst
        have hrec := recordAlert_watches true clock .watchedPost ⟨v.account, (truthy s.accountAcct).getD v.acct, none⟩ (some s) d
        rcases alertStatus_cases clock d v s with h | h
        · exact h ▸ ⟨hid, hrec.symm ▸ hmem⟩
        · exact h ▸ ⟨hid, mem_saveWatch_of_ne (fun heq => hne (heq.trans hid)) (hrec.symm ▸ hmem)⟩
  unfold checkWatch
  cases reply with
  | error e =>
    dsimp only
    split
    · exact hr
    · split
      · exact List.mem_filter.2 ⟨hr, decide_eq_true hne⟩
      · exact mem_saveWatch_of_ne hne hr
  | ok statuses => cases interrupt with
    | some handled =>
      unfold pollWatchInterrupted
      dsimp only
      split
      · exact hr
      · exact (hall _).2
    | none =>
      unfold pollWatch
      dsimp only
      split
      · exact mem_saveWatch_of_ne hne hr
      · exact mem_saveWatch_of_ne hne hr
      · exact mem_saveWatch_of_ne (fun heq => hne (heq.trans (hall _).1)) (hall _).2

theorem checkWatch_ids (now clock : Time) (reply : Except ApiError (List Status)) (interrupt : Option Nat) {w : Watch}
    {db : Db} (hids : (db.watches.map Watch.id).Nodup) (hw : w ∈ db.watches) :
    ((checkWatch now clock reply interrupt w db).1.watches.map Watch.id).Nodup := by
  have hrow : ∀ s ∈ db.stamps, s.1 = w.id → s = w.stamp := by
    intro s hs hid
    obtain ⟨r, hr, rfl⟩ := List.mem_map.1 hs
    rw [eq_of_id_eq Watch.id hids hr hw hid]
  have hstamps := checkWatch_stamps now clock reply interrupt hrow
  rw [← map_fst_stamps] at hids ⊢
  rw [hstamps]
  split
  · rw [List.map_map]
    refine (List.map_congr_left fun s _ => ?_) ▸ hids
    by_cases hid : s.1 = w.id
    · simp [hid]
    · simp [hid]
  · exact hids.sublist (List.filter_sublist.map _)
  · exact hids

/-- One round of the loop is one event. -/
theorem gets_check {w : World} {client : Client} (h : Truthful w.inst client) (hids : (w.db.watches.map Watch.id).Nodup)
    (now clock : Time) {watch : Watch} (hw : watch ∈ w.db.watches) :
    w.Gets now clock (checkWatch now clock (client.accountStatuses watch.account watch.request.1 watch.request.2)
      (client.interrupts (.check watch.id)) watch w.db).1 := by
  have hanswer := answer_troubleOf (h.statuses watch.account watch.request.1 watch.request.2)
    (client.interrupts (.check watch.id))
  generalize client.accountStatuses watch.account watch.request.1 watch.request.2 = reply at *
  have hstep : ∃ w', step w (.check watch.id now clock (troubleOf reply (client.interrupts (.check watch.id)))) = some w' ∧
      w'.db = (checkWatch now clock reply (client.interrupts (.check watch.id)) watch w.db).1 ∧ w'.inst = w.inst ∧
      w'.settings = w.settings := by
    unfold step
    dsimp only
    rw [find?_id_eq Watch.id hids hw]
    refine ⟨_, rfl, ?_⟩
    dsimp only [Instance.client]
    rw [hanswer]
    split
    · exact ⟨rfl, rfl, rfl⟩
    · exact ⟨rfl, rfl, rfl⟩
  obtain ⟨w', hstep, hdb, hinst, hsettings⟩ := hstep
  exact hdb ▸ World.gets_step (.inr (.inl ⟨_, _, rfl⟩)) hstep hinst hsettings

/-- The loop over watches of the table is a run. -/
theorem gets_checkWatches {client : Client} (now clock : Time) {ws : List Watch} {w : World} (h : Truthful w.inst client)
    (hids : (w.db.watches.map Watch.id).Nodup) (hws : (ws.map Watch.id).Nodup) (hmem : ∀ x ∈ ws, x ∈ w.db.watches) :
    w.Gets now clock (checkWatches now clock client ws w.db).1 := by
  induction ws generalizing w with
  | nil => exact w.gets_refl now clock
  | cons x ws ih =>
    obtain ⟨hnot, hws⟩ := List.nodup_cons.1 hws
    have hx := hmem x List.mem_cons_self
    have hround := gets_check h hids now clock hx
    have hids' := checkWatch_ids now clock (client.accountStatuses x.account x.request.1 x.request.2)
      (client.interrupts (.check x.id)) hids hx
    have hrest : ∀ y ∈ ws, y ∈ (checkWatch now clock (client.accountStatuses x.account x.request.1 x.request.2)
        (client.interrupts (.check x.id)) x w.db).1.watches := fun y hy =>
      checkWatch_other now clock _ _ (fun heq => hnot (heq ▸ List.mem_map_of_mem hy)) (hmem y (List.mem_cons_of_mem _ hy))
    unfold checkWatches
    split
    · exact w.gets_refl now clock
    · dsimp only
      generalize checkWatch now clock (client.accountStatuses x.account x.request.1 x.request.2)
        (client.interrupts (.check x.id)) x w.db = r at *
      obtain ⟨db, outcome⟩ := r
      have hnext : w.Gets now clock (checkWatches now clock client ws db).1 := by
        refine hround.trans fun w' hdb hinst _ => ?_
        obtain rfl : w'.db = db := hdb
        exact ih (hinst.symm ▸ h) hids' hws hrest
      cases outcome with
      | aborted => exact hround
      | removed => exact hnext
      | checked => exact hnext

/-! ### The other steps -/

/-- The steps about new accounts are one event, if there is budget for them. -/
theorem gets_newAccounts {w : World} {client : Client} (h : Truthful w.inst client) (now clock : Time) (bot : Option Bot) :
    w.Gets now clock (newAccountsStep now clock client bot w.settings w.db).1 := by
  cases hbudget : client.budgetOk .newAccounts with
  | false =>
    have hidle : discoverNewAccounts now clock client w.settings w.db = { db := w.db } := by
      unfold discoverNewAccounts
      rw [hbudget]
      rfl
    have hsame : (newAccountsStep now clock client bot w.settings w.db).1 = w.db := by
      unfold newAccountsStep
      dsimp only
      rw [hidle]
      cases bot with
      | none => rfl
      | some bot => rfl
    rw [hsame]
    exact w.gets_refl now clock
  | true =>
    -- the answer that the discovery gets decides which trouble there is
    obtain ⟨t, ht⟩ : ∃ t, discoverNewAccounts now clock client w.settings w.db =
        discoverNewAccounts now clock (w.inst.client t) w.settings w.db := by
      cases hc : w.db.newAccountCursor with
      | none =>
        refine ⟨troubleOf (client.localAccounts none 1) none, ?_⟩
        rw [discoverNewAccounts_first now clock _ w.settings w.inst hc, answer_troubleOf (h.accounts none 1)]
        unfold discoverNewAccounts
        rw [hbudget, hc]
        rfl
      | some c =>
        refine ⟨troubleOf (client.localAccounts (some c) 2) (client.interrupts .newAccounts), ?_⟩
        rw [discoverNewAccounts_since now clock _ w.settings w.inst hc, answer_troubleOf (h.accounts (some c) 2)]
        unfold discoverNewAccounts
        rw [hbudget, hc]
        rfl
    have hsame : newAccountsStep now clock client bot w.settings w.db =
        newAccountsStep now clock (w.inst.client t) bot w.settings w.db := by
      unfold newAccountsStep
      rw [ht]
    have hstep : ∃ w', step w (.newAccounts now clock t bot) = some w' ∧
        w'.db = (newAccountsStep now clock (w.inst.client t) bot w.settings w.db).1 ∧ w'.inst = w.inst ∧
        w'.settings = w.settings := by
      refine ⟨_, rfl, ?_⟩
      split
      · exact ⟨rfl, rfl, rfl⟩
      · exact ⟨rfl, rfl, rfl⟩
    obtain ⟨w', hstep, hdb, hinst, hsettings⟩ := hstep
    rw [hsame, ← hdb]
    exact World.gets_step (.inr (.inr (.inl ⟨_, _, rfl⟩))) hstep hinst hsettings

theorem gets_scan {w : World} {client : Client} (h : Truthful w.inst client) (now clock : Time) :
    w.Gets now clock (scanSilentLogins now clock client w.settings w.db) := by
  unfold scanSilentLogins
  split
  · exact w.gets_refl now clock
  · rename_i hgoes
    have hdue : w.db.scannedLately now = false := by
      simp only [Bool.or_eq_true, not_or, Bool.not_eq_true] at hgoes
      exact hgoes.1
    have hanswer := answer_troubleOf (h.accounts (some (now - days w.settings.silentScanWindowDays)) 10)
      (client.interrupts .silentScan)
    generalize client.localAccounts (some (now - days w.settings.silentScanWindowDays)) 10 = reply at *
    have hscan : scanSilentLogins now clock (w.inst.client (troubleOf reply (client.interrupts .silentScan))) w.settings w.db =
        scanAccounts now clock w.settings reply (client.interrupts .silentScan) w.db := by
      unfold scanSilentLogins
      dsimp only [Instance.client]
      rw [hdue, hanswer]
      rfl
    rw [← hscan]
    exact World.gets_step (e := .scan now clock (troubleOf reply (client.interrupts .silentScan))) (.inr (.inr (.inr ⟨_, rfl⟩))) rfl rfl rfl

/-- A whole poll is a run of the system. -/
theorem poll_is_run {w : World} (hids : (w.db.watches.map Watch.id).Nodup) {client : Client} (h : Truthful w.inst client)
    (now clock : Time) (bot : Option Bot) : w.Gets now clock (runWatchPoll now clock client bot w.settings w.db) := by
  have hprune : w.Gets now clock (prune now w.settings w.db) := World.gets_step (e := .prune now) (.inl rfl) rfl rfl rfl
  have hchecked : w.Gets now clock (checkWatched now clock client (prune now w.settings w.db)).1 := by
    refine hprune.trans fun w' hdb hinst _ => ?_
    rw [← hdb]
    have hids' : (w'.db.watches.map Watch.id).Nodup := hdb ▸ hids.sublist (List.filter_sublist.map _)
    have hperm : w'.db.lineup.Perm w'.db.watches := List.perm_insertionSort _ _
    refine gets_checkWatches now clock (hinst.symm ▸ h) hids' ?_ fun x hx => mem_lineup.1 ((queue_front w'.db).subset hx)
    exact ((hperm.map Watch.id).nodup_iff.2 hids').sublist ((queue_front w'.db).sublist.map Watch.id)
  unfold runWatchPoll
  generalize checkWatched now clock client (prune now w.settings w.db) = r at *
  obtain ⟨db, aborted, ids⟩ := r
  dsimp only
  split
  · exact hchecked
  · have hnew : w.Gets now clock (newAccountsStep now clock client bot w.settings db).1 := by
      refine hchecked.trans fun w' hdb hinst hsettings => ?_
      obtain rfl : w'.db = db := hdb
      rw [← hsettings]
      exact gets_newAccounts (hinst.symm ▸ h) now clock bot
    generalize newAccountsStep now clock client bot w.settings db = r at *
    obtain ⟨db', goes⟩ := r
    cases goes with
    | false => exact hnew
    | true =>
      refine hnew.trans fun w' hdb hinst hsettings => ?_
      obtain rfl : w'.db = db' := hdb
      rw [← hsettings]
      exact gets_scan (hinst.symm ▸ h) now clock

/-! ### A poll of one watch -/

def oneWatch : World where
  db := { watches := [{ id := 1, account := 1, acct := [] }] }

/-- A client that is always answered. -/
def answering (inst : Instance) : Client where
  accountStatuses account since limit := .ok (inst.accountStatuses account since limit)
  localAccounts := inst.localAccounts
  budgetOk _ := true
  interrupts _ := none

theorem poll_is_run_oneWatch : oneWatch.Gets 1 1 (runWatchPoll 1 1 (answering oneWatch.inst) none oneWatch.settings oneWatch.db) :=
  poll_is_run (w := oneWatch) (List.nodup_singleton _) ⟨fun _ _ _ => .inr rfl, fun _ _ => .inr rfl⟩ 1 1 none

end ProxmoxTool.Moderation
