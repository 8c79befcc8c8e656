import ProxmoxTool.Moderation.Poll

/-!
# What the steps of a poll do

Of a watch only its place matters for the alerts: its id, its account and its cursor.  The lemmas say what each step of a
poll does to the places and to the marks of the alerts; all of them come down to `Marks.raiseAll` on the subjects of the
loop's items, and to one cursor written afterwards.
-/

namespace ProxmoxTool.Moderation

/-- The account a watch is on and how far it has read. -/
structure Place where
  id : WatchId
  account : AccountId
  cursor : Option StatusId
  deriving DecidableEq, Repr

def Watch.place (w : Watch) : Place := ⟨w.id, w.account, w.lastStatusId⟩

def Db.places (db : Db) : List Place := db.watches.map Watch.place

/-- The places with the one of a watch replaced. -/
def setPlace (p : Place) (places : List Place) : List Place := places.map fun q => if q.id = p.id then p else q

theorem setPlace_of_mem {p : Place} {places : List Place} (hids : (places.map Place.id).Nodup) (hp : p ∈ places) :
    setPlace p places = places := by
  unfold setPlace
  refine (List.map_congr_left fun q hq => ?_).trans (List.map_id' _)
  by_cases hid : q.id = p.id
  · rw [if_pos hid, eq_of_id_eq Place.id hids hq hp hid]
  · rw [if_neg hid]

theorem map_id_setPlace (p : Place) (places : List Place) : (setPlace p places).map Place.id = places.map Place.id := by
  unfold setPlace
  rw [List.map_map]
  refine List.map_congr_left fun q _ => ?_
  by_cases hid : q.id = p.id
  · simp [hid]
  · simp [hid]

theorem mem_setPlace {p q : Place} {places : List Place} (hp : ∃ r ∈ places, r.id = p.id) :
    q ∈ setPlace p places ↔ q = p ∨ (q ∈ places ∧ q.id ≠ p.id) := by
  unfold setPlace
  rw [List.mem_map]
  constructor
  · rintro ⟨r, hr, rfl⟩
    by_cases hid : r.id = p.id
    · exact Or.inl (if_pos hid)
    · rw [if_neg hid]
      exact Or.inr ⟨hr, hid⟩
  · rintro (rfl | ⟨hq, hne⟩)
    · obtain ⟨r, hr, hid⟩ := hp
      exact ⟨r, hr, if_pos hid⟩
    · exact ⟨q, hq, if_neg hne⟩

@[simp] theorem places_saveWatch (db : Db) (w : Watch) : (db.saveWatch w).places = setPlace w.place db.places := by
  unfold Db.places Db.saveWatch replaceRow setPlace
  simp only [List.map_map]
  refine List.map_congr_left fun r _ => ?_
  by_cases hid : r.id = w.id
  · simp [hid, Watch.place]
  · simp [hid, Watch.place]

@[simp] theorem places_removeWatch (db : Db) (id : WatchId) :
    (db.removeWatch id).places = db.places.filter fun p => p.id ≠ id := by
  unfold Db.places Db.removeWatch
  rw [List.filter_map]
  rfl

@[simp] theorem places_recordAlert (notify : Bool) (clock : Time) (kind : AlertKind) (account : Account)
    (status : Option Status) (db : Db) : (recordAlert notify clock kind account status db).1.places = db.places := by
  unfold Db.places
  rw [recordAlert_watches]

/-! ### Watched accounts -/

def posts (account : AccountId) (statuses : List Status) : List Subject := statuses.map fun s => .post account s.id

/-- A round of the loop records an alert; with a new one the row of the watch is written as it is. -/
theorem alertStatus_cases (clock : Time) (db : Db) (w : Watch) (s : Status) :
    let db' := (recordAlert true clock .watchedPost ⟨w.account, (truthy s.accountAcct).getD w.acct, none⟩ (some s) db).1
    alertStatus clock (db, w) s = (db', w.named s) ∨ alertStatus clock (db, w) s = (db'.saveWatch w, w.named s) := by
  unfold alertStatus
  dsimp only
  generalize recordAlert true clock .watchedPost ⟨w.account, (truthy s.accountAcct).getD w.acct, none⟩ (some s) db = r
  obtain ⟨db', alert⟩ := r
  cases alert with
  | none => exact .inl rfl
  | some a => exact .inr rfl

theorem alertStatus_eq (clock : Time) (db : Db) (w : Watch) (s : Status) :
    ((alertStatus clock (db, w) s).1.marks = db.marks.raise (.post w.account s.id)) ∧
      (alertStatus clock (db, w) s).2 = w.named s ∧
      ((alertStatus clock (db, w) s).1.places = db.places ∨
        (alertStatus clock (db, w) s).1.places = setPlace w.place db.places) := by
  have hmarks := marks_recordAlert true clock .watchedPost ⟨w.account, (truthy s.accountAcct).getD w.acct, none⟩ (some s) db
  have hplaces := places_recordAlert true clock .watchedPost ⟨w.account, (truthy s.accountAcct).getD w.acct, none⟩ (some s) db
  rcases alertStatus_cases clock db w s with h | h
  · exact h ▸ ⟨hmarks, rfl, .inl hplaces⟩
  · exact h ▸ ⟨hmarks, rfl, .inr ((places_saveWatch _ w).trans (congrArg _ hplaces))⟩

/-- The loop over the statuses raises them and leaves the place of the watch. -/
theorem alertStatuses_eq (clock : Time) (statuses : List Status) {db : Db} {w : Watch}
    (hids : (db.places.map Place.id).Nodup) (hw : w.place ∈ db.places) :
    let st := statuses.foldl (alertStatus clock) (db, w)
    st.1.marks = db.marks.raiseAll (posts w.account statuses) ∧ st.2.place = w.place ∧ st.1.places = db.places := by
  induction statuses generalizing db w with
  | nil => exact ⟨rfl, rfl, rfl⟩
  | cons s statuses ih =>
    obtain ⟨hmarks, hw', hplaces⟩ := alertStatus_eq clock db w s
    have hsame : (alertStatus clock (db, w) s).1.places = db.places :=
      hplaces.elim id fun h => h.trans (setPlace_of_mem hids hw)
    have hstep : alertStatus clock (db, w) s = ((alertStatus clock (db, w) s).1, w.named s) := Prod.ext rfl hw'
    obtain ⟨h1, h2, h3⟩ := ih (w := w.named s) (by rw [hsame]; exact hids) (by rw [hsame]; exact hw)
    rw [List.foldl_cons, hstep]
    exact ⟨h1.trans (congrArg (fun m => Marks.raiseAll m (posts w.account statuses)) hmarks), h2, h3.trans hsame⟩

/-- The cursor after a completed check. -/
def cursorAfter (cursor : Option StatusId) (statuses : List Status) : Option StatusId :=
  match statuses with
  | [] => cursor
  | newest :: _ => some newest.id

/-- A completed check raises the statuses it gets, the first look excepted, and moves the cursor to the newest. -/
theorem checkWatch_ok (now clock : Time) (statuses : List Status) {db : Db} {w : Watch}
    (hids : (db.places.map Place.id).Nodup) (hw : w.place ∈ db.places) :
    let db' := (checkWatch now clock (.ok statuses) none w db).1
    db'.marks = db.marks.raiseAll (if w.lastStatusId.isSome then posts w.account statuses.reverse else []) ∧
      db'.places = setPlace { w.place with cursor := cursorAfter w.lastStatusId statuses } db.places := by
  unfold checkWatch pollWatch
  dsimp only
  cases hlast : w.lastStatusId with
  | none =>
    cases statuses with
    | nil => exact ⟨rfl, by rw [places_saveWatch]; simp [Watch.place, hlast, cursorAfter]⟩
    | cons newest older => exact ⟨rfl, by rw [places_saveWatch]; rfl⟩
  | some c =>
    cases statuses with
    | nil => exact ⟨rfl, by rw [places_saveWatch]; simp [Watch.place, hlast, cursorAfter]⟩
    | cons newest older =>
      obtain ⟨h1, h2, h3⟩ := alertStatuses_eq clock (newest :: older).reverse hids hw
      refine ⟨h1, ?_⟩
      rw [places_saveWatch, h3]
      refine congrArg (fun p => setPlace p db.places) ?_
      generalize (newest :: older).reverse.foldl (alertStatus clock) (db, w) = st at h2
      simp only [Watch.place, Place.mk.injEq] at h2 ⊢
      exact ⟨h2.1, h2.2.1, rfl⟩

/-- An interrupted check raises the oldest statuses it got and leaves the cursor. -/
theorem checkWatch_interrupted (now clock : Time) (statuses : List Status) (handled : Nat) {db : Db} {w : Watch}
    (hids : (db.places.map Place.id).Nodup) (hw : w.place ∈ db.places) :
    let db' := (checkWatch now clock (.ok statuses) (some handled) w db).1
    db'.marks = db.marks.raiseAll
        (if w.lastStatusId.isSome then posts w.account (statuses.reverse.take handled) else []) ∧
      db'.places = db.places := by
  unfold checkWatch pollWatchInterrupted
  dsimp only
  cases hlast : w.lastStatusId with
  | none => exact ⟨rfl, rfl⟩
  | some c =>
    obtain ⟨h1, -, h3⟩ := alertStatuses_eq clock (statuses.reverse.take handled) hids hw
    exact ⟨h1, h3⟩

/-- A failed check raises nothing; the watch may be removed. -/
theorem checkWatch_error (now clock : Time) (e : ApiError) (interrupt : Option Nat) {db : Db} {w : Watch}
    (hids : (db.places.map Place.id).Nodup) (hw : w.place ∈ db.places) :
    let db' := (checkWatch now clock (.error e) interrupt w db).1
    db'.marks = db.marks ∧ (db'.places = db.places ∨ db'.places = db.places.filter fun p => p.id ≠ w.id) := by
  unfold checkWatch
  dsimp only
  split
  · exact ⟨rfl, Or.inl rfl⟩
  · split
    · exact ⟨rfl, Or.inr (places_removeWatch db w.id)⟩
    · refine ⟨rfl, Or.inl ?_⟩
      rw [places_saveWatch]
      exact setPlace_of_mem hids hw

theorem alertStatuses_raises (clock : Time) (statuses : List Status) (db : Db) (w : Watch) :
    let db' := (statuses.foldl (alertStatus clock) (db, w)).1
    db'.marks = db.marks.raiseAll (posts w.account statuses) ∧ db'.newAccountCursor = db.newAccountCursor := by
  induction statuses generalizing db w with
  | nil => exact ⟨rfl, rfl⟩
  | cons s statuses ih =>
    obtain ⟨hmarks, hw', -⟩ := alertStatus_eq clock db w s
    have hcursor : (alertStatus clock (db, w) s).1.newAccountCursor = db.newAccountCursor := by
      have hrec := recordAlert_newAccountCursor true clock .watchedPost
        ⟨w.account, (truthy s.accountAcct).getD w.acct, none⟩ (some s) db
      rcases alertStatus_cases clock db w s with h | h
      · exact h ▸ hrec
      · exact h ▸ hrec
    have hstep : alertStatus clock (db, w) s = ((alertStatus clock (db, w) s).1, w.named s) := Prod.ext rfl hw'
    obtain ⟨h1, h2⟩ := ih (alertStatus clock (db, w) s).1 (w.named s)
    rw [List.foldl_cons, hstep]
    exact ⟨h1.trans (congrArg (fun m => Marks.raiseAll m (posts w.account statuses)) hmarks), h2.trans hcursor⟩

/-- Whatever happens to a check, it raises posts only and leaves the cursor of the discovery. -/
theorem checkWatch_raises (now clock : Time) (reply : Except ApiError (List Status)) (interrupt : Option Nat) (w : Watch)
    (db : Db) :
    let db' := (checkWatch now clock reply interrupt w db).1
    ∃ statuses, db'.marks = db.marks.raiseAll (posts w.account statuses) ∧ db'.newAccountCursor = db.newAccountCursor := by
  unfold checkWatch
  cases reply with
  | error e =>
    dsimp only
    split
    · exact ⟨[], rfl, rfl⟩
    · split
      · exact ⟨[], rfl, rfl⟩
      · exact ⟨[], rfl, rfl⟩
  | ok statuses => cases interrupt with
    | some handled =>
      unfold pollWatchInterrupted
      dsimp only
      split
      · exact ⟨[], rfl, rfl⟩
      · exact ⟨_, alertStatuses_raises clock _ db w⟩
    | none =>
      unfold pollWatch
      dsimp only
      split
      · exact ⟨[], rfl, rfl⟩
      · exact ⟨[], rfl, rfl⟩
      · exact ⟨_, alertStatuses_raises clock _ db w⟩

/-! ### Pruning -/

/-- Pruning only removes places and standing alerts. -/
theorem places_prune_sublist (now : Time) (settings : WatchSettings) (db : Db) :
    (prune now settings db).places.Sublist db.places :=
  List.filter_sublist.map _

theorem standing_prune_subset (now : Time) (settings : WatchSettings) (db : Db) :
    (prune now settings db).marks.standing ⊆ db.marks.standing :=
  List.map_subset _ (List.filter_subset_self _)

/-! ### New accounts -/

def signups (accounts : List AdminAccount) : List Subject := accounts.map fun a => .signup a.id

theorem discoverAccounts_marks (now clock : Time) (settings : WatchSettings) (accounts : List AdminAccount) (db : Db) :
    (accounts.foldl (discoverAccount now clock settings) db).marks = db.marks.raiseAll (signups accounts) := by
  induction accounts generalizing db with
  | nil => rfl
  | cons a accounts ih =>
    have hauto : ∀ d : Db, (autoWatch now settings a d).marks = d.marks := by
      intro d
      unfold autoWatch
      split <;> rfl
    rw [List.foldl_cons, ih]
    refine congrArg (fun m => Marks.raiseAll m (signups accounts)) ?_
    exact (hauto _).trans (marks_recordAlert true clock .newAccount ⟨a.id, a.acct, none⟩ none db)

/-- The loop over new accounts adds places without a cursor, one for an account that had none. -/
inductive AddsPlaces : List Place → List Place → Prop
  | refl {places : List Place} : AddsPlaces places places
  | add {places places' : List Place} {p : Place} : AddsPlaces places places' → p.cursor = none →
      p.id ∉ places'.map Place.id → p.account ∉ places'.map Place.account → AddsPlaces places (places' ++ [p])

theorem AddsPlaces.trans {P Q R : List Place} (h : AddsPlaces P Q) (h' : AddsPlaces Q R) : AddsPlaces P R := by
  induction h' with
  | refl => exact h
  | add _ hc hid hacc ih => exact ih.add hc hid hacc

theorem map_id_places (db : Db) : db.places.map Place.id = db.watches.map Watch.id := by
  simp [Db.places, Watch.place, Function.comp_def]

theorem map_account_places (db : Db) : db.places.map Place.account = db.watches.map Watch.account := by
  simp [Db.places, Watch.place, Function.comp_def]

theorem discoverAccounts_places (now clock : Time) (settings : WatchSettings) (accounts : List AdminAccount) (db : Db) :
    AddsPlaces db.places (accounts.foldl (discoverAccount now clock settings) db).places := by
  induction accounts generalizing db with
  | nil => exact .refl
  | cons a accounts ih =>
    refine AddsPlaces.trans ?_ (ih _)
    have hrec := places_recordAlert true clock .newAccount ⟨a.id, a.acct, none⟩ none db
    unfold discoverAccount
    generalize (recordAlert true clock .newAccount ⟨a.id, a.acct, none⟩ none db).1 = d at hrec
    rw [← hrec]
    unfold autoWatch
    split
    · rename_i hnew
      have happ : ∀ w : Watch, Db.places { d with watches := d.watches ++ [w] } = d.places ++ [w.place] := by
        intro w
        simp [Db.places]
      rw [happ]
      refine AddsPlaces.refl.add rfl ?_ ?_
      · rw [map_id_places]
        exact freshId_not_mem Watch.id d.watches
      · rw [map_account_places]
        exact hnew.2
    · exact .refl

/-- Discovery raises new accounts only, and adds watches only. -/
theorem discoverNewAccounts_raises (now clock : Time) (client : Client) (settings : WatchSettings) (db : Db) :
    let db' := (discoverNewAccounts now clock client settings db).db
    ∃ accounts, db'.marks = db.marks.raiseAll (signups accounts) ∧ AddsPlaces db.places db'.places := by
  have hraises : ∀ accounts : List AdminAccount, (accounts.foldl (discoverAccount now clock settings) db).marks =
      db.marks.raiseAll (signups accounts) ∧
        AddsPlaces db.places (accounts.foldl (discoverAccount now clock settings) db).places :=
    fun accounts => ⟨discoverAccounts_marks now clock settings accounts db,
      discoverAccounts_places now clock settings accounts db⟩
  unfold discoverNewAccounts
  dsimp only
  split
  · exact ⟨[], rfl, .refl⟩
  · split
    · unfold bootstrap
      split
      · exact ⟨[], rfl, .refl⟩
      · dsimp only
        split
        · exact ⟨[], rfl, .refl⟩
        · exact ⟨[], rfl, .refl⟩
    · unfold discoverSince
      split
      · exact ⟨[], rfl, .refl⟩
      · exact ⟨[], rfl, .refl⟩
      · dsimp only
        split
        · exact ⟨_, hraises _⟩
        · exact ⟨_, hraises _⟩

/-! ### Welcomes and silent logins -/

/-- Welcomes touch neither alerts nor watches nor cursors. -/
theorem welcomeLoop_frame (bot : Bot) (accounts : List AdminAccount) (welcomed : Nat) (db : Db) :
    let db' := (welcomeLoop bot accounts welcomed db).1
    db'.watches = db.watches ∧ db'.alerts = db.alerts ∧ db'.log = db.log ∧ db'.outbox = db.outbox ∧
      db'.newAccountCursor = db.newAccountCursor ∧ db'.silentLastScanAt = db.silentLastScanAt := by
  induction accounts generalizing welcomed db with
  | nil => exact ⟨rfl, rfl, rfl, rfl, rfl, rfl⟩
  | cons a accounts ih =>
    unfold welcomeLoop
    split
    · exact ⟨rfl, rfl, rfl, rfl, rfl, rfl⟩
    · split
      · exact ih _ _
      · split
        · exact ih _ _
        · cases bot.sending a.id with
          | noBudget => exact ⟨rfl, rfl, rfl, rfl, rfl, rfl⟩
          | failed => exact ih _ _
          | sent => exact ih (welcomed + 1) _
          | interrupted posted => cases posted <;> exact ⟨rfl, rfl, rfl, rfl, rfl, rfl⟩

theorem sendWelcomes_frame (bot : Bot) (d : Discovery) :
    let db' := (sendWelcomes bot d).1
    db'.watches = d.db.watches ∧ db'.alerts = d.db.alerts ∧ db'.log = d.db.log ∧ db'.outbox = d.db.outbox ∧
      db'.newAccountCursor = d.db.newAccountCursor ∧ db'.silentLastScanAt = d.db.silentLastScanAt := by
  unfold sendWelcomes
  dsimp only
  split
  · exact ⟨rfl, rfl, rfl, rfl, rfl, rfl⟩
  · exact welcomeLoop_frame _ _ _ _

/-- The two steps about new accounts leave alerts, watches and cursor as discovery does. -/
theorem newAccountsStep_frame (now clock : Time) (client : Client) (bot : Option Bot) (settings : WatchSettings) (db : Db) :
    let db' := (newAccountsStep now clock client bot settings db).1
    let d := (discoverNewAccounts now clock client settings db).db
    db'.watches = d.watches ∧ db'.alerts = d.alerts ∧ db'.log = d.log ∧ db'.outbox = d.outbox ∧
      db'.newAccountCursor = d.newAccountCursor ∧ db'.silentLastScanAt = d.silentLastScanAt := by
  unfold newAccountsStep
  dsimp only
  split
  · exact ⟨rfl, rfl, rfl, rfl, rfl, rfl⟩
  · cases bot with
    | none => exact ⟨rfl, rfl, rfl, rfl, rfl, rfl⟩
    | some bot => exact sendWelcomes_frame bot _

theorem newAccountsStep_raises (now clock : Time) (client : Client) (bot : Option Bot) (settings : WatchSettings) (db : Db) :
    let db' := (newAccountsStep now clock client bot settings db).1
    ∃ accounts, db'.marks = db.marks.raiseAll (signups accounts) ∧ AddsPlaces db.places db'.places := by
  obtain ⟨hw, ha, hl, -⟩ := newAccountsStep_frame now clock client bot settings db
  obtain ⟨accounts, hm, hp⟩ := discoverNewAccounts_raises now clock client settings db
  refine ⟨accounts, ?_, ?_⟩
  · rw [← hm]
    unfold Db.marks
    rw [ha, hl]
  · unfold Db.places at hp ⊢
    rw [hw]
    exact hp

def silents (accounts : List AdminAccount) : List Subject := accounts.map fun a => .silent a.id

theorem recordSilents_eq (clock : Time) (accounts : List AdminAccount) (db : Db) :
    let db' := accounts.foldl (recordSilent clock) db
    db'.marks = db.marks.raiseAll (silents accounts) ∧ db'.places = db.places ∧
      db'.newAccountCursor = db.newAccountCursor := by
  induction accounts generalizing db with
  | nil => exact ⟨rfl, rfl, rfl⟩
  | cons a accounts ih =>
    obtain ⟨h1, h2, h3⟩ := ih (recordSilent clock db a)
    refine ⟨h1.trans (congrArg (fun m => Marks.raiseAll m (silents accounts)) ?_), h2.trans ?_, h3.trans ?_⟩
    · exact marks_recordAlert false clock .silentLogin ⟨a.id, a.acct, some a.silentExcerpt⟩ none db
    · exact places_recordAlert false clock .silentLogin ⟨a.id, a.acct, some a.silentExcerpt⟩ none db
    · exact recordAlert_newAccountCursor false clock .silentLogin ⟨a.id, a.acct, some a.silentExcerpt⟩ none db

/-- A scan raises silent logins only. -/
theorem scanSilentLogins_raises (now clock : Time) (client : Client) (settings : WatchSettings) (db : Db) :
    let db' := scanSilentLogins now clock client settings db
    ∃ accounts, db'.marks = db.marks.raiseAll (silents accounts) ∧ db'.places = db.places ∧
      db'.newAccountCursor = db.newAccountCursor := by
  unfold scanSilentLogins scanAccounts
  dsimp only
  split
  · exact ⟨[], rfl, rfl, rfl⟩
  · split
    · exact ⟨[], rfl, rfl, rfl⟩
    · split
      · exact ⟨_, recordSilents_eq clock _ db⟩
      · exact ⟨_, recordSilents_eq clock _ db⟩

/-! ### What recording keeps -/

/-- A property of the tables that is kept by recording alerts and by writing watches and cursors. -/
structure Kept (P : Db → Prop) : Prop where
  record : ∀ {db : Db} (notify : Bool) (clock : Time) (kind : AlertKind) (account : Account) (status : Option Status),
    P db → P (recordAlert notify clock kind account status db).1
  watches : ∀ {db : Db} (watches : List Watch), P db → P { db with watches := watches }
  newAccountCursor : ∀ {db : Db} (cursor : Option Time), P db → P { db with newAccountCursor := cursor }
  silentLastScanAt : ∀ {db : Db} (time : Option Time), P db → P { db with silentLastScanAt := time }

namespace Kept

variable {P : Db → Prop} {db : Db}

theorem alertStatuses (hP : Kept P) (h : P db) (clock : Time) (statuses : List Status) (w : Watch) :
    P (statuses.foldl (alertStatus clock) (db, w)).1 := by
  induction statuses generalizing db w with
  | nil => exact h
  | cons s statuses ih =>
    have hrec := hP.record true clock .watchedPost ⟨w.account, (truthy s.accountAcct).getD w.acct, none⟩ (some s) h
    have hone : P (alertStatus clock (db, w) s).1 := by
      rcases alertStatus_cases clock db w s with hs | hs
      · exact hs ▸ hrec
      · exact hs ▸ hP.watches _ hrec
    exact ih hone (alertStatus clock (db, w) s).2

theorem checkWatch (hP : Kept P) (h : P db) (now clock : Time) (reply : Except ApiError (List Status))
    (interrupt : Option Nat) (w : Watch) : P (checkWatch now clock reply interrupt w db).1 := by
  unfold Moderation.checkWatch
  cases reply with
  | error e =>
    dsimp only
    split
    · exact h
    · split
      · exact hP.watches _ h
      · exact hP.watches _ h
  | ok statuses => cases interrupt with
    | some handled =>
      unfold pollWatchInterrupted
      dsimp only
      split
      · exact h
      · exact hP.alertStatuses h clock _ w
    | none =>
      unfold pollWatch
      dsimp only
      split
      · exact hP.watches _ h
      · exact hP.watches _ h
      · exact hP.watches _ (hP.alertStatuses h clock _ w)

theorem discoverAccounts (hP : Kept P) (h : P db) (now clock : Time) (settings : WatchSettings)
    (accounts : List AdminAccount) : P (accounts.foldl (discoverAccount now clock settings) db) := by
  induction accounts generalizing db with
  | nil => exact h
  | cons a accounts ih =>
    refine ih ?_
    have hrec := hP.record true clock .newAccount ⟨a.id, a.acct, none⟩ none h
    unfold discoverAccount autoWatch
    split
    · exact hP.watches _ hrec
    · exact hrec

theorem discoverNewAccounts (hP : Kept P) (h : P db) (now clock : Time) (client : Client) (settings : WatchSettings) :
    P (discoverNewAccounts now clock client settings db).db := by
  unfold Moderation.discoverNewAccounts
  split
  · exact h
  · split
    · unfold bootstrap
      split
      · exact h
      · dsimp only
        split
        · exact hP.newAccountCursor _ h
        · exact h
    · unfold discoverSince
      split
      · exact h
      · exact h
      · dsimp only
        split
        · exact hP.discoverAccounts h now clock settings _
        · exact hP.newAccountCursor _ (hP.discoverAccounts h now clock settings _)

theorem scanSilentLogins (hP : Kept P) (h : P db) (now clock : Time) (client : Client) (settings : WatchSettings) :
    P (scanSilentLogins now clock client settings db) := by
  have hall : ∀ accounts : List AdminAccount, P (accounts.foldl (recordSilent clock) db) := fun accounts =>
    List.foldlRecOn accounts (recordSilent clock) h
      fun d hd a _ => hP.record false clock .silentLogin ⟨a.id, a.acct, some a.silentExcerpt⟩ none hd
  unfold Moderation.scanSilentLogins scanAccounts
  split
  · exact h
  · split
    · exact h
    · dsimp only
      split
      · exact hall _
      · exact hP.silentLastScanAt _ (hall _)

end Kept

/-- The accounts with a record and those that got a message. -/
def Db.sent (db : Db) : List AccountId × List AccountId := (db.welcomes, db.welcomed)

theorem sent_recordAlert (notify : Bool) (clock : Time) (kind : AlertKind) (account : Account) (status : Option Status)
    (db : Db) : (recordAlert notify clock kind account status db).1.sent = db.sent := by
  unfold Db.sent
  rw [recordAlert_welcomes, recordAlert_welcomed]

theorem kept_sent (x : List AccountId × List AccountId) : Kept fun db => db.sent = x where
  record notify clock kind account status h := (sent_recordAlert notify clock kind account status _).trans h
  watches _ h := h
  newAccountCursor _ h := h
  silentLastScanAt _ h := h

end ProxmoxTool.Moderation
