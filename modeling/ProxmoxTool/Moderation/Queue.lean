import Mathlib
import ProxmoxTool.Lib.System
import ProxmoxTool.Lib.Turns
import ProxmoxTool.Moderation.Effects

/-!
# The queue of watches

`_check_watched` takes the watches in the order of their latest check, those never checked first, and puts each one it has
checked to the back by writing the time of the call into its row.  All watches of one call get the same time, so the next
call takes them in the order of their ids and not in the order in which they were checked.

The watches take turns (`ProxmoxTool.Turns`).  As long as no call goes on from watches that have been checked less often to
one with a smaller id that has been checked more often (`InTurn`), the numbers of completed checks of any two watches differ
by at most one, also in the middle of a call (`watches_balanced`).  Otherwise one watch may be checked twice as often as
another (`watch_overtakes`).
-/

namespace ProxmoxTool.Moderation

/-! ### The order -/

/-- The key of the order: the latest check, if there is one, and the id. -/
def Watch.turn (w : Watch) : WithBot Time ×ₗ WatchId :=
  toLex (match w.lastCheckedAt with | none => ⊥ | some t => (t : WithBot Time), w.id)

theorem before_iff {a b : Watch} : a.before b = true ↔ a.turn ≤ b.turn := by
  rw [Prod.Lex.le_iff]
  unfold Watch.before Watch.turn
  cases a.lastCheckedAt with
  | none => cases b.lastCheckedAt with
    | none => simp
    | some t => simp
  | some s => cases b.lastCheckedAt with
    | none => simp
    | some t => simp

instance : Std.Total fun a b : Watch => a.before b = true :=
  ⟨fun a b => (le_total a.turn b.turn).imp before_iff.2 before_iff.2⟩

instance : IsTrans Watch fun a b => a.before b = true :=
  ⟨fun _ _ _ hab hbc => before_iff.2 (le_trans (before_iff.1 hab) (before_iff.1 hbc))⟩

/-- Two watches that are before each other have the same id. -/
theorem id_eq_of_before {a b : Watch} (hab : a.before b = true) (hba : b.before a = true) : a.id = b.id :=
  congrArg (fun turn => (ofLex turn).2) (le_antisymm (before_iff.1 hab) (before_iff.1 hba))

/-- The watches in the order in which a call takes them. -/
def Db.lineup (db : Db) : List Watch := db.watches.insertionSort fun a b => a.before b

theorem mem_lineup {db : Db} {w : Watch} : w ∈ db.lineup ↔ w ∈ db.watches := List.mem_insertionSort _

/-- A watch that is before one of the first comes earlier among the first. -/
theorem mem_front_of_before {db : Db} {ws : List Watch} (hws : ws <+: db.lineup) {a b : Watch} (ha : a ∈ db.watches)
    (hb : b ∈ ws) (hne : a.id ≠ b.id) (hab : a.before b = true) : a ∈ ws := by
  obtain ⟨rest, hrest⟩ := hws
  have hsorted : db.lineup.Pairwise fun a b => a.before b = true := List.pairwise_insertionSort _ _
  rw [← hrest] at hsorted
  rcases List.mem_append.1 (hrest ▸ mem_lineup.2 ha) with ha | ha
  · exact ha
  · exact absurd (id_eq_of_before hab ((List.pairwise_append.1 hsorted).2.2 b hb a ha)) hne

/-- In the order of the queue, a relation that goes with the order holds of a watch and any later one. -/
theorem rel_of_before {R : Watch → Watch → Prop} {ws : List Watch} (hsorted : ws.Pairwise fun a b => a.before b = true)
    (hR : ws.Pairwise R) {a b : Watch} (ha : a ∈ ws) (hb : b ∈ ws) (hne : a.id ≠ b.id) (hab : a.before b = true) : R a b := by
  refine List.Pairwise.forall_of_forall_of_flip (R := fun a b => a.id ≠ b.id → a.before b = true → R a b)
    (fun x _ hne => absurd rfl hne) (hR.imp fun h _ _ => h) (hsorted.imp fun huv hne hvu => ?_) ha hb hne hab
  exact absurd (id_eq_of_before hvu huv) hne

/-! ### What a call does to the rows -/

/-- What the order reads of a row. -/
def Watch.stamp (w : Watch) : WatchId × Option Time := (w.id, w.lastCheckedAt)

def Db.stamps (db : Db) : List (WatchId × Option Time) := db.watches.map Watch.stamp

theorem stamps_saveWatch (db : Db) (w : Watch) :
    (db.saveWatch w).stamps = db.stamps.map fun s => if s.1 = w.id then w.stamp else s := by
  unfold Db.stamps Db.saveWatch replaceRow
  simp only [List.map_map]
  refine List.map_congr_left fun r _ => ?_
  by_cases hid : r.id = w.id
  · simp [hid, Watch.stamp]
  · simp [hid, Watch.stamp]

theorem stamps_saveWatch_of_eq {db : Db} {w : Watch} (hw : ∀ s ∈ db.stamps, s.1 = w.id → s = w.stamp) :
    (db.saveWatch w).stamps = db.stamps := by
  rw [stamps_saveWatch]
  refine (List.map_congr_left fun s hs => ?_).trans (List.map_id' _)
  by_cases hid : s.1 = w.id
  · rw [if_pos hid, hw s hs hid]
  · rw [if_neg hid]

theorem stamps_removeWatch (db : Db) (id : WatchId) :
    (db.removeWatch id).stamps = db.stamps.filter fun s => s.1 ≠ id := by
  unfold Db.stamps Db.removeWatch
  rw [List.filter_map]
  rfl

/-- The loop over the statuses leaves the stamps. -/
theorem alertStatuses_stamps (clock : Time) (statuses : List Status) {db : Db} {w : Watch}
    (hw : ∀ s ∈ db.stamps, s.1 = w.id → s = w.stamp) :
    let st := statuses.foldl (alertStatus clock) (db, w)
    st.1.stamps = db.stamps ∧ st.2.stamp = w.stamp := by
  induction statuses generalizing db w with
  | nil => exact ⟨rfl, rfl⟩
  | cons s statuses ih =>
    have hone : (alertStatus clock (db, w) s).1.stamps = db.stamps ∧ (alertStatus clock (db, w) s).2 = w.named s := by
      have hstamps := congrArg (List.map Watch.stamp) (recordAlert_watches true clock .watchedPost
        ⟨w.account, (truthy s.accountAcct).getD w.acct, none⟩ (some s) db)
      rcases alertStatus_cases clock db w s with h | h
      · exact h ▸ ⟨hstamps, rfl⟩
      · exact h ▸ ⟨(stamps_saveWatch_of_eq fun x hx => hw x ((congrArg (x ∈ ·) hstamps).mp hx)).trans hstamps, rfl⟩
    have hstep : alertStatus clock (db, w) s = ((alertStatus clock (db, w) s).1, w.named s) := Prod.ext rfl hone.2
    obtain ⟨h1, h2⟩ := ih (w := w.named s) (hone.1.symm ▸ hw)
    rw [List.foldl_cons, hstep]
    exact ⟨h1.trans hone.1, h2⟩

/-- How the check of a watch ends, if the call gets to it. -/
def Client.outcome (client : Client) (w : Watch) : Checked :=
  match client.accountStatuses w.account w.request.1 w.request.2, client.interrupts (.check w.id) with
  | .error e, _ => if rateLimited e then .aborted else if e.isGone then .removed else .checked
  | .ok _, some _ => .aborted
  | .ok _, none => .checked

/-- The call goes on after the watch. -/
def Client.goes (client : Client) (w : Watch) : Bool :=
  client.budgetOk (.check w.id) && decide (client.outcome w ≠ .aborted)

/-- The watches whose checks a call over the list completes. -/
def Client.completed (client : Client) (ws : List Watch) : List Watch :=
  (ws.takeWhile client.goes).filter fun w => client.outcome w = .checked

section

variable (now clock : Time) (client : Client)

theorem checkWatch_outcome (w : Watch) (db : Db) :
    (checkWatch now clock (client.accountStatuses w.account w.request.1 w.request.2) (client.interrupts (.check w.id)) w db).2 =
      client.outcome w := by
  unfold checkWatch Client.outcome
  cases client.accountStatuses w.account w.request.1 w.request.2 with
  | error e =>
    dsimp only
    split
    · rfl
    · split <;> rfl
  | ok statuses => cases client.interrupts (.check w.id) with
    | some handled => rfl
    | none => rfl

/-- The stamps after one round, by its outcome. -/
theorem checkWatch_stamps (reply : Except ApiError (List Status)) (interrupt : Option Nat) {w : Watch} {db : Db}
    (hw : ∀ s ∈ db.stamps, s.1 = w.id → s = w.stamp) :
    (checkWatch now clock reply interrupt w db).1.stamps = match (checkWatch now clock reply interrupt w db).2 with
      | .checked => db.stamps.map fun s => if s.1 = w.id then (w.id, some now) else s
      | .removed => db.stamps.filter fun s => s.1 ≠ w.id
      | .aborted => db.stamps := by
  have hpoll : ∀ statuses, (pollWatch clock statuses w db).1.stamps = db.stamps ∧
      (pollWatch clock statuses w db).2.id = w.id := by
    intro statuses
    unfold pollWatch
    split
    · exact ⟨rfl, rfl⟩
    · exact ⟨rfl, rfl⟩
    · exact ⟨(alertStatuses_stamps clock _ hw).1, (Prod.mk.inj (alertStatuses_stamps clock _ hw).2).1⟩
  unfold checkWatch
  cases reply with
  | error e =>
    dsimp only
    split
    · rfl
    · split
      · exact stamps_removeWatch db w.id
      · exact stamps_saveWatch db _
  | ok statuses => cases interrupt with
    | some handled =>
      show (pollWatchInterrupted clock handled statuses w db).stamps = db.stamps
      unfold pollWatchInterrupted
      split
      · rfl
      · exact (alertStatuses_stamps clock _ hw).1
    | none =>
      obtain ⟨h1, h2⟩ := hpoll statuses
      show (Db.saveWatch _ _).stamps = db.stamps.map _
      rw [stamps_saveWatch, h1]
      exact List.map_congr_left fun s _ => by simp [Watch.stamp, h2]

/-- What the loop leaves: the watches it completed have the time of the call, the others keep theirs, and what was taken
before a completed one is completed or gone. -/
structure Rounds (ws : List Watch) (db db' : Db) : Prop where
  ids : (db'.stamps.map Prod.fst).Sublist (db.stamps.map Prod.fst)
  stamp : ∀ s' ∈ db'.stamps, ∃ s ∈ db.stamps, s.1 = s'.1 ∧
    s'.2 = if s'.1 ∈ (client.completed ws).map Watch.id then some now else s.2
  inTurn : ws.Pairwise fun u v => v.id ∈ (client.completed ws).map Watch.id →
    u.id ∈ (client.completed ws).map Watch.id ∨ u.id ∉ db'.stamps.map Prod.fst

variable {client} in
theorem completed_cons_stop {w : Watch} {ws : List Watch} (h : client.goes w = false) : client.completed (w :: ws) = [] := by
  unfold Client.completed
  rw [List.takeWhile_cons_of_neg (by simp [h]), List.filter_nil]

variable {client} in
theorem completed_cons_go {w : Watch} {ws : List Watch} (h : client.goes w = true) :
    client.completed (w :: ws) = if client.outcome w = .checked then w :: client.completed ws else client.completed ws := by
  unfold Client.completed
  rw [List.takeWhile_cons_of_pos h, List.filter_cons]
  simp

/-- A loop that stops at once. -/
theorem rounds_stop {w : Watch} {ws : List Watch} {db db' : Db} (hgo : client.goes w = false) (hdb : db'.stamps = db.stamps) :
    Rounds now client (w :: ws) db db' := by
  have hnil : (client.completed (w :: ws)).map Watch.id = [] := by rw [completed_cons_stop hgo, List.map_nil]
  refine ⟨hdb ▸ List.Sublist.refl _, fun s hs => ⟨s, hdb ▸ hs, rfl, ?_⟩, List.Pairwise.imp (fun _ hv => ?_)
    (List.pairwise_of_forall fun _ _ => trivial)⟩
  · rw [hnil, if_neg List.not_mem_nil]
  · rw [hnil] at hv
    exact absurd hv List.not_mem_nil

variable {now client}

/-- A round that removes its watch, and the rounds after it. -/
theorem Rounds.removed {w : Watch} {ws : List Watch} {db db₁ db' : Db} (hgo : client.goes w = true)
    (hout : client.outcome w = .removed) (hdb : db₁.stamps = db.stamps.filter fun s => s.1 ≠ w.id)
    (h : Rounds now client ws db₁ db') : Rounds now client (w :: ws) db db' := by
  have hdone : client.completed (w :: ws) = client.completed ws := by
    rw [completed_cons_go hgo, if_neg (by rw [hout]; decide)]
  have hgone : w.id ∉ db'.stamps.map Prod.fst := by
    intro hmem
    obtain ⟨s, hs, heq⟩ := List.mem_map.1 (h.ids.subset hmem)
    rw [hdb] at hs
    exact of_decide_eq_true (List.mem_filter.1 hs).2 heq
  refine ⟨h.ids.trans (hdb ▸ List.filter_sublist.map _), fun s' hs' => ?_, ?_⟩
  · obtain ⟨s, hs, hid, htime⟩ := h.stamp s' hs'
    rw [hdb] at hs
    rw [hdone]
    exact ⟨s, (List.mem_filter.1 hs).1, hid, htime⟩
  · rw [hdone]
    exact List.pairwise_cons.2 ⟨fun _ _ _ => Or.inr hgone, h.inTurn⟩

/-- A round that completes its check, and the rounds after it. -/
theorem Rounds.checked {w : Watch} {ws : List Watch} {db db₁ db' : Db} (hgo : client.goes w = true)
    (hout : client.outcome w = .checked) (hne : ∀ v ∈ ws, v.id ≠ w.id)
    (hdb : db₁.stamps = db.stamps.map fun s => if s.1 = w.id then (w.id, some now) else s)
    (h : Rounds now client ws db₁ db') : Rounds now client (w :: ws) db db' := by
  have hdone : (client.completed (w :: ws)).map Watch.id = w.id :: (client.completed ws).map Watch.id := by
    rw [completed_cons_go hgo, if_pos hout, List.map_cons]
  have hids : db₁.stamps.map Prod.fst = db.stamps.map Prod.fst := by
    rw [hdb, List.map_map]
    refine List.map_congr_left fun s _ => ?_
    by_cases hid : s.1 = w.id
    · simp [hid]
    · simp [hid]
  refine ⟨hids ▸ h.ids, fun s' hs' => ?_, ?_⟩
  · obtain ⟨s₁, hs₁, hid, htime⟩ := h.stamp s' hs'
    rw [hdb] at hs₁
    obtain ⟨s, hs, rfl⟩ := List.mem_map.1 hs₁
    rw [hdone, htime]
    by_cases hw : s.1 = w.id
    · rw [if_pos hw] at hid ⊢
      have hself : s'.1 = w.id := hid.symm
      refine ⟨s, hs, hw.trans hid, ?_⟩
      rw [if_pos (List.mem_cons.2 (Or.inl hself))]
      split <;> rfl
    · rw [if_neg hw] at hid ⊢
      have hother : s'.1 ≠ w.id := fun heq => hw (hid.trans heq)
      refine ⟨s, hs, hid, ?_⟩
      simp [hother]
  · rw [hdone]
    refine List.pairwise_cons.2 ⟨fun _ _ _ => Or.inl List.mem_cons_self, h.inTurn.imp_of_mem fun _ hv hturn hmem => ?_⟩
    have hmem := (List.mem_cons.1 hmem).resolve_left (hne _ hv)
    exact (hturn hmem).imp_left (List.mem_cons_of_mem _)

variable (now client)

/-- The loop of a call over watches of the table. -/
theorem checkWatches_rounds {ws : List Watch} {db : Db} (hids : (ws.map Watch.id).Nodup)
    (hrows : ∀ w ∈ ws, ∀ s ∈ db.stamps, s.1 = w.id → s = w.stamp) :
    (checkWatches now clock client ws db).2.2 = (client.completed ws).map Watch.id ∧
      Rounds now client ws db (checkWatches now clock client ws db).1 := by
  induction ws generalizing db with
  | nil => exact ⟨rfl, List.Sublist.refl _, fun s hs => ⟨s, hs, rfl, rfl⟩, List.Pairwise.nil⟩
  | cons w ws ih =>
    obtain ⟨hnot, hids⟩ := List.nodup_cons.1 hids
    have hne : ∀ v ∈ ws, v.id ≠ w.id := fun v hv heq => hnot (heq ▸ List.mem_map_of_mem hv)
    have hout := checkWatch_outcome now clock client w db
    have hstamps := checkWatch_stamps now clock (client.accountStatuses w.account w.request.1 w.request.2)
      (client.interrupts (.check w.id)) (hrows w List.mem_cons_self)
    rw [hout] at hstamps
    unfold checkWatches
    cases hbudget : client.budgetOk (.check w.id) with
    | false =>
      have hgo : client.goes w = false := by simp [Client.goes, hbudget]
      exact ⟨by simp [completed_cons_stop hgo], rounds_stop now client hgo rfl⟩
    | true =>
      simp only [Bool.not_true, Bool.false_eq_true, if_false]
      generalize checkWatch now clock (client.accountStatuses w.account w.request.1 w.request.2)
        (client.interrupts (.check w.id)) w db = r at *
      obtain ⟨db₁, outcome⟩ := r
      obtain rfl : outcome = client.outcome w := hout
      cases hcase : client.outcome w with
      | aborted =>
        have hgo : client.goes w = false := by simp [Client.goes, hcase]
        rw [hcase] at hstamps
        exact ⟨by simp [completed_cons_stop hgo], rounds_stop now client hgo hstamps⟩
      | removed =>
        have hgo : client.goes w = true := by simp [Client.goes, hcase, hbudget]
        rw [hcase] at hstamps
        have hsub : ∀ s ∈ db₁.stamps, s ∈ db.stamps := by
          intro s hs
          rw [hstamps] at hs
          exact (List.mem_filter.1 hs).1
        obtain ⟨hlist, hrounds⟩ := ih hids fun v hv s hs => hrows v (List.mem_cons_of_mem _ hv) s (hsub s hs)
        refine ⟨?_, hrounds.removed hgo hcase hstamps⟩
        rw [completed_cons_go hgo, hcase, if_neg (by decide)]
        exact hlist
      | checked =>
        have hgo : client.goes w = true := by simp [Client.goes, hcase, hbudget]
        rw [hcase] at hstamps
        obtain ⟨hlist, hrounds⟩ := ih hids fun v hv s hs hid => by
          rw [hstamps] at hs
          obtain ⟨s₀, hs₀, rfl⟩ := List.mem_map.1 hs
          by_cases hw : s₀.1 = w.id
          · rw [if_pos hw] at hid
            exact absurd hid.symm (hne v hv)
          · rw [if_neg hw] at hid ⊢
            exact hrows v (List.mem_cons_of_mem _ hv) s₀ hs₀ hid
        refine ⟨?_, hrounds.checked hgo hcase hne hstamps⟩
        rw [completed_cons_go hgo, if_pos hcase, List.map_cons, ← hlist]

end

/-! ### Runs of calls -/

/-- The tables, the time of the latest call, and the number of completed checks of each watch. -/
structure Polling where
  db : Db
  now : Time
  checks : WatchId → Nat := fun _ => 0

/-- The state after the rounds of a call, given what they leave. -/
def Polling.after (s : Polling) (now : Time) (call : Db × Bool × List WatchId) : Polling where
  db := call.1
  now := now
  checks id := s.checks id + call.2.2.count id

inductive Call
  | prune (now : Time) (settings : WatchSettings)
  | check (now clock : Time) (client : Client)

/-- Calls with strictly increasing times on the watches of a table; in between, watches may expire. -/
def polling : System Polling Call where
  init s := (s.db.watches.map Watch.id).Nodup ∧ (∀ w ∈ s.db.watches, ∀ t, w.lastCheckedAt = some t → t ≤ s.now) ∧
    ∀ id, s.checks id = 0
  step s
    | .prune now settings => some { s with db := prune now settings s.db }
    | .check now clock client => if s.now < now then some (s.after now (checkWatched now clock client s.db)) else none

/-- The condition under which the numbers stay balanced: of two watches whose checks a call completes, the one checked less
often so far has the smaller id. -/
def InTurn (s : Polling) : Call → Prop
  | .check _ _ client => ∀ u ∈ client.completed s.db.queue, ∀ v ∈ client.completed s.db.queue,
      s.checks u.id < s.checks v.id → u.id < v.id
  | .prune _ _ => True

/-- The watches take turns. -/
def Polling.turns (s : Polling) : Turns WatchId where
  present := { i | i ∈ s.db.watches.map Watch.id }
  ahead u v := ∃ a ∈ s.db.watches, ∃ b ∈ s.db.watches, a.id = u ∧ b.id = v ∧ u ≠ v ∧ a.before b = true
  served := s.checks

structure Polling.Ok (s : Polling) : Prop where
  ids : (s.db.watches.map Watch.id).Nodup
  past : ∀ w ∈ s.db.watches, ∀ t, w.lastCheckedAt = some t → t ≤ s.now
  fair : s.turns.Fair

theorem before_congr {a a' b b' : Watch} (ha : a'.stamp = a.stamp) (hb : b'.stamp = b.stamp) : a'.before b' = a.before b := by
  obtain ⟨haid, halast⟩ := Prod.mk.inj ha
  obtain ⟨hbid, hblast⟩ := Prod.mk.inj hb
  unfold Watch.before
  rw [haid, halast, hbid, hblast]

theorem map_fst_stamps (db : Db) : db.stamps.map Prod.fst = db.watches.map Watch.id := by
  simp [Db.stamps, Watch.stamp, Function.comp_def]

section

variable {now : Time} {client : Client} {ws : List Watch} {db db' : Db}

/-- A row after the rounds of a call. -/
theorem Rounds.row (h : Rounds now client ws db db') {r : Watch} (hr : r ∈ db'.watches) :
    (r.id ∈ (client.completed ws).map Watch.id → r.lastCheckedAt = some now) ∧
      (r.id ∉ (client.completed ws).map Watch.id → ∃ q ∈ db.watches, r.stamp = q.stamp) := by
  obtain ⟨s, hs, hid, htime⟩ := h.stamp r.stamp (List.mem_map_of_mem hr)
  obtain ⟨q, hq, rfl⟩ := List.mem_map.1 hs
  refine ⟨fun hmem => ?_, fun hnot => ⟨q, hq, ?_⟩⟩
  · exact htime.trans (if_pos hmem)
  · exact Prod.ext hid.symm (htime.trans (if_neg hnot))

/-- Whoever stays and is before a watch that was completed was completed too. -/
theorem Rounds.front (h : Rounds now client ws db db') (hids : (db.watches.map Watch.id).Nodup) (hws : ws <+: db.lineup)
    {a b : Watch} (ha : a ∈ db.watches) (hb : b ∈ db.watches) (hne : a.id ≠ b.id) (hab : a.before b = true)
    (hdone : b.id ∈ (client.completed ws).map Watch.id) (hstays : a.id ∈ db'.watches.map Watch.id) :
    a.id ∈ (client.completed ws).map Watch.id := by
  have hsorted : ws.Pairwise fun a b => a.before b = true :=
    List.Pairwise.sublist hws.sublist (List.pairwise_insertionSort _ _)
  have hbws : b ∈ ws := by
    obtain ⟨c, hc, hid⟩ := List.mem_map.1 hdone
    have hcws : c ∈ ws := (List.takeWhile_sublist _).subset (List.mem_filter.1 hc).1
    rwa [← eq_of_id_eq Watch.id hids (mem_lineup.1 (hws.subset hcws)) hb hid]
  have haws : a ∈ ws := mem_front_of_before hws ha hbws hne hab
  refine (rel_of_before hsorted h.inTurn haws hbws hne hab hdone).resolve_right fun hgone => hgone ?_
  rw [map_fst_stamps]
  exact hstays

end

/-- The rounds of a call over the first watches are a round of turns. -/
theorem Polling.Ok.round {s : Polling} (h : s.Ok) {now clock : Time} {client : Client} (hnow : s.now < now) {ws : List Watch}
    (hws : ws <+: s.db.lineup) :
    let s' := s.after now (checkWatches now clock client ws s.db)
    Rounds now client ws s.db s'.db ∧ Turns.Round s.turns { i | i ∈ (client.completed ws).map Watch.id } s'.turns := by
  have hperm : s.db.lineup.Perm s.db.watches := List.perm_insertionSort _ _
  have hwsids : (ws.map Watch.id).Nodup :=
    ((hperm.map Watch.id).nodup_iff.2 h.ids).sublist (hws.sublist.map Watch.id)
  have hrows : ∀ w ∈ ws, ∀ x ∈ s.db.stamps, x.1 = w.id → x = w.stamp := by
    intro w hw x hx hid
    obtain ⟨r, hr, rfl⟩ := List.mem_map.1 hx
    rw [eq_of_id_eq Watch.id h.ids hr (mem_lineup.1 (hws.subset hw)) hid]
  obtain ⟨hlist, hrounds⟩ := checkWatches_rounds now clock client hwsids hrows
  have hcount : ∀ i, (s.after now (checkWatches now clock client ws s.db)).checks i =
      s.checks i + ((client.completed ws).map Watch.id).count i := fun i => by rw [← hlist]; rfl
  have hsub : ((client.completed ws).map Watch.id).Nodup :=
    hwsids.sublist ((List.filter_sublist.trans (List.takeWhile_sublist _)).map Watch.id)
  refine ⟨hrounds, ⟨fun i hi => ?_, ?_, fun i hi => ?_, fun i hi => ?_, ?_, ?_⟩⟩
  · have hi : i ∈ (s.after now (checkWatches now clock client ws s.db)).db.stamps.map Prod.fst := by
      rw [map_fst_stamps]
      exact hi
    have hold := hrounds.ids.subset hi
    rw [map_fst_stamps] at hold
    exact hold
  · rintro u hu v hv ⟨a, ha, b, hb, rfl, rfl, hne, hab⟩
    exact hrounds.front h.ids hws ha hb hne hab hv hu
  · exact (hcount i).trans (congrArg (s.checks i + ·) (List.count_eq_one_of_mem hsub hi))
  · exact (hcount i).trans (congrArg (s.checks i + ·) (List.count_eq_zero_of_not_mem hi))
  · rintro u hu v hv hup hvp
    obtain ⟨a, ha, rfl⟩ := List.mem_map.1 hu
    obtain ⟨b, hb, rfl⟩ := List.mem_map.1 hv
    refine ⟨a, ha, b, hb, rfl, rfl, fun heq => hup (heq ▸ hvp), ?_⟩
    obtain ⟨q, hq, hstamp⟩ := (hrounds.row ha).2 hup
    have hblast := (hrounds.row hb).1 hvp
    have halast : a.lastCheckedAt = q.lastCheckedAt := (Prod.mk.inj hstamp).2
    unfold Watch.before
    rw [halast, hblast]
    cases hq' : q.lastCheckedAt with
    | none => rfl
    | some t => simp [Int.lt_of_le_of_lt (h.past q hq t hq') hnow]
  · rintro u hu v hv hup hvp ⟨a, ha, b, hb, rfl, rfl, hne, hab⟩
    obtain ⟨a', ha', haid⟩ := List.mem_map.1 hu
    obtain ⟨b', hb', hbid⟩ := List.mem_map.1 hv
    obtain ⟨q, hq, hastamp⟩ := (hrounds.row ha').2 (haid ▸ hup)
    obtain ⟨r, hr, hbstamp⟩ := (hrounds.row hb').2 (hbid ▸ hvp)
    obtain rfl := eq_of_id_eq Watch.id h.ids hq ha ((Prod.mk.inj hastamp).1.symm.trans haid)
    obtain rfl := eq_of_id_eq Watch.id h.ids hr hb ((Prod.mk.inj hbstamp).1.symm.trans hbid)
    exact ⟨a', ha', b', hb', haid, hbid, hne, (before_congr hastamp hbstamp).trans hab⟩

theorem queue_front (db : Db) : db.queue <+: db.lineup := List.take_prefix _ _

theorem Polling.Ok.check {s : Polling} (h : s.Ok) {now clock : Time} {client : Client} (hnow : s.now < now)
    (hturn : InTurn s (.check now clock client)) : (s.after now (checkWatched now clock client s.db)).Ok := by
  obtain ⟨hrounds, hround⟩ := h.round hnow (queue_front s.db)
  refine ⟨?_, fun w hw t ht => ?_, h.fair.round hround fun u hu v hv hup hvp hlt => ?_⟩
  · have hids := h.ids.sublist (map_fst_stamps s.db ▸ hrounds.ids)
    rwa [map_fst_stamps] at hids
  · by_cases hdone : w.id ∈ (client.completed s.db.queue).map Watch.id
    · obtain rfl : now = t := Option.some.inj (((hrounds.row hw).1 hdone).symm.trans ht)
      exact Int.le_refl _
    · obtain ⟨q, hq, hstamp⟩ := (hrounds.row hw).2 hdone
      exact Int.le_trans (h.past q hq t ((Prod.mk.inj hstamp).2.symm.trans ht)) (Int.le_of_lt hnow)
  · obtain ⟨a, ha, rfl⟩ := List.mem_map.1 hu
    obtain ⟨b, hb, rfl⟩ := List.mem_map.1 hv
    obtain ⟨x, hx, hxid⟩ := List.mem_map.1 hup
    obtain ⟨y, hy, hyid⟩ := List.mem_map.1 hvp
    have hid : a.id < b.id := by
      rw [← hxid, ← hyid] at hlt ⊢
      exact hturn x hx y hy hlt
    refine ⟨a, ha, b, hb, rfl, rfl, Nat.ne_of_lt hid, ?_⟩
    unfold Watch.before
    rw [(hrounds.row ha).1 hup, (hrounds.row hb).1 hvp]
    simp [Nat.le_of_lt hid]

/-- Watches that expire leave the others as they are. -/
theorem Polling.Ok.prune {s : Polling} (h : s.Ok) (now : Time) (settings : WatchSettings) :
    Polling.Ok { s with db := prune now settings s.db } := by
  have hsub : ∀ w ∈ (Moderation.prune now settings s.db).watches, w ∈ s.db.watches := fun w hw => (List.mem_filter.1 hw).1
  refine ⟨h.ids.sublist (List.filter_sublist.map _), fun w hw => h.past w (hsub w hw), ?_⟩
  refine h.fair.round (P := ∅) ⟨fun i hi => ?_, fun _ _ v hv => hv.elim, fun u hu => hu.elim, fun _ _ => rfl,
    fun _ _ v _ _ hv => hv.elim, ?_⟩ fun u _ v _ hup => hup.elim
  · obtain ⟨w, hw, rfl⟩ := List.mem_map.1 hi
    exact List.mem_map_of_mem (hsub w hw)
  · rintro u hu v hv - - ⟨a, ha, b, hb, rfl, rfl, hne, hab⟩
    obtain ⟨a', ha', haid⟩ := List.mem_map.1 hu
    obtain ⟨b', hb', hbid⟩ := List.mem_map.1 hv
    obtain rfl := eq_of_id_eq Watch.id h.ids (hsub a' ha') ha haid
    obtain rfl := eq_of_id_eq Watch.id h.ids (hsub b' hb') hb hbid
    exact ⟨a', ha', b', hb', rfl, rfl, hne, hab⟩

theorem ok_step {s s' : Polling} {e : Call} (h : s.Ok) (hturn : InTurn s e) (hstep : polling.step s e = some s') : s'.Ok := by
  cases e with
  | prune now settings =>
    obtain rfl := Option.some.inj hstep
    exact h.prune now settings
  | check now clock client =>
    obtain ⟨hnow, rfl⟩ := System.of_guard hstep
    exact h.check hnow hturn

/-- In every run of calls that meet `InTurn`, the numbers of completed checks of any two watches differ by at most one; and
also in the middle of the next call, after any number of its rounds. -/
theorem watches_balanced {s : Polling} (h : polling.Reach InTurn s) :
    (∀ u ∈ s.db.watches, ∀ v ∈ s.db.watches, s.checks u.id ≤ s.checks v.id + 1) ∧
      ∀ now clock client k, s.now < now →
        let s' := s.after now (checkWatches now clock client (s.db.queue.take k) s.db)
        ∀ u ∈ s'.db.watches, ∀ v ∈ s'.db.watches, s'.checks u.id ≤ s'.checks v.id + 1 := by
  have hok : s.Ok := h.invariant
    (fun s hs => ⟨hs.1, hs.2.1, Turns.fair_of_served_eq fun u v => (hs.2.2 u).trans (hs.2.2 v).symm⟩)
    fun s e s' hi hturn hst => ok_step hi hturn hst
  refine ⟨fun u hu v hv => hok.fair.balanced _ (List.mem_map_of_mem hu) _ (List.mem_map_of_mem hv), ?_⟩
  intro now clock client k hnow s' u hu v hv
  have htake : s.db.queue.take k <+: s.db.queue := List.take_prefix k _
  exact hok.fair.balanced_round (hok.round hnow (htake.trans (queue_front s.db))).2 _ (List.mem_map_of_mem hu) _ (List.mem_map_of_mem hv)

/-! ### Watches that overtake others -/

/-- A client for accounts without new statuses, whose budget holds for the given watches. -/
def quiet (budget : WatchId → Bool) : Client where
  accountStatuses _ _ _ := .ok []
  localAccounts _ _ := .ok []
  budgetOk
    | .check id => budget id
    | _ => true
  interrupts _ := none

/-- Two watches that have never been checked. -/
def twoWatches : Polling where
  db := { watches := [{ id := 1, account := 1, acct := [] }, { id := 2, account := 2, acct := [] }] }
  now := 0

theorem twoWatches_init : polling.init twoWatches := by
  refine ⟨by decide, fun w hw t ht => ?_, fun _ => rfl⟩
  rcases List.mem_cons.1 hw with rfl | hw
  · cases ht
  · rw [List.mem_singleton.1 hw] at ht
    cases ht

/-- A call that stops after the first watch, one that checks both, and one that stops after the first again. -/
def overtakingRun : List Call :=
  [.check 1 1 (quiet fun id => id = 1), .check 2 2 (quiet fun _ => true), .check 3 3 (quiet fun id => id = 1)]

/-- The second call checks the second watch and then the first, and the third call takes the first one again. -/
theorem watch_overtakes : ∃ s, polling.Reachable s ∧ s.db.watches.map Watch.id = [1, 2] ∧ s.checks 1 = 3 ∧ s.checks 2 = 1 := by
  have hrun : (polling.exec twoWatches overtakingRun).map
      (fun s => (s.db.watches.map Watch.id, s.checks 1, s.checks 2)) = some ([1, 2], 3, 1) := by
    decide +kernel
  obtain ⟨s, hs, h⟩ := Option.map_eq_some_iff.1 hrun
  simp only [Prod.mk.injEq] at h
  exact ⟨s, System.reachable_of_exec twoWatches_init hs, h⟩

/-- A call that stops after the first watch. -/
theorem stopped_call_balanced : ∃ s, polling.Reach InTurn s ∧ s.checks 1 = 1 ∧ s.checks 2 = 0 ∧
    ∀ u ∈ s.db.watches, ∀ v ∈ s.db.watches, s.checks u.id ≤ s.checks v.id + 1 := by
  have r0 : polling.Reach InTurn twoWatches := .init twoWatches_init
  have r1 := r0.next (.check 1 1 (quiet fun id => id = 1)) (fun _ _ _ _ hlt => absurd hlt (Nat.lt_irrefl 0)) rfl
  exact ⟨_, r1, by decide +kernel, by decide +kernel, (watches_balanced r1).1⟩

end ProxmoxTool.Moderation
