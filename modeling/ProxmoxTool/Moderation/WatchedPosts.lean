import ProxmoxTool.Moderation.Overlap
import ProxmoxTool.Moderation.Posts

/-!
# Watched posts

Every status that a watched account posts after the watch's first successful check gets exactly one alert by the next
successful check, no status that was there at the first one gets any, and the cursor passes no status without an alert
(`watched_posts_alerted_once`).  This holds in runs that meet `PostsAnswered`: the first successful check finds a status and
nothing newer than the seed of the watch, every later one finds at most forty new statuses, pruning keeps the alerts above the
cursors, and between a check's request and its answer no other poll has got further with the watch.

Without it a status is lost: a check asks for the newest forty statuses and moves the cursor to the first of them, a watch
that finds no status looks for the first time again, and of two polls that look for the first time at once the later one
passes over what the earlier one left to be alerted on.
-/

namespace ProxmoxTool.Moderation

/-- The most statuses one check gets. -/
def statusLimit : Nat := 40

/-- A successful check meets the condition: the first one finds a status, and none newer than the cursor the watch was added
with; a later one finds at most as many new statuses as it asks for. -/
def PostsSeen (w : World) : Event → Prop
  | .check id _ _ t => t.completes = true → ∀ watch ∈ w.db.watches, watch.id = id →
    match (w.history id).seen with
    | none => ∃ newest older, w.inst.timeline watch.account = newest :: older ∧
        ∀ c, watch.lastStatusId = some c → c = newest.id
    | some _ => ∀ c, watch.lastStatusId = some c →
        ((w.inst.timeline watch.account).filter fun s => c < s.id).length ≤ statusLimit
  | _ => True

def PostsOk (w : World) (e : Event) : Prop := PostsKept w e ∧ PostsSeen w e

/-- What has become of the statuses of a watch's account. -/
structure Tracked (timeline : List Status) (raised : List Subject) (p : Place) (h : History) : Prop where
  unseen : h.seen = none → ∀ s, raised.count (.post p.account s) = h.base.count (.post p.account s) ∨
    ∃ c, p.cursor = some c ∧ c < s
  seen : ∀ first latest, h.seen = some (first, latest) →
    (∃ newest older newer, latest = newest :: older ∧ p.cursor = some newest.id ∧ timeline = newer ++ latest) ∧
      first ⊆ latest ∧
      (∀ x ∈ latest, x ∉ first → raised.count (.post p.account x.id) = 1) ∧
      ∀ x ∈ first, raised.count (.post p.account x.id) = h.base.count (.post p.account x.id)

def World.Tracks (w : World) : Prop :=
  ∀ p ∈ w.db.places, Tracked (w.inst.timeline p.account) w.db.marks.raised p (w.history p.id)

/-! ### Steps that raise no alert on a post of the account -/

theorem Tracked.congr {timeline : List Status} {raised raised' : List Subject} {p : Place} {h : History}
    (ht : Tracked timeline raised p h)
    (hcount : ∀ s, raised'.count (.post p.account s) = raised.count (.post p.account s)) : Tracked timeline raised' p h := by
  refine ⟨fun hnone s => ?_, fun first latest hseen => ?_⟩
  · rw [hcount]
    exact ht.unseen hnone s
  · obtain ⟨hcur, hsub, hone, hold⟩ := ht.seen first latest hseen
    exact ⟨hcur, hsub, fun x hx hnot => (hcount _).trans (hone x hx hnot), fun x hx => (hcount _).trans (hold x hx)⟩

/-- A watch that has just been added. -/
theorem tracked_new (timeline : List Status) {raised base : List Subject} {p : Place}
    (hcount : ∀ s, raised.count (.post p.account s) = base.count (.post p.account s)) :
    Tracked timeline raised p { base := base } :=
  ⟨fun _ s => Or.inl (hcount s), fun _ _ h => by cases h⟩

theorem Tracked.post {timeline : List Status} {raised : List Subject} {p : Place} {h : History}
    (ht : Tracked timeline raised p h) (s : Status) : Tracked (s :: timeline) raised p h := by
  refine ⟨ht.unseen, fun first latest hseen => ?_⟩
  obtain ⟨⟨newest, older, newer, hl, hc, htl⟩, hrest⟩ := ht.seen first latest hseen
  exact ⟨⟨newest, older, s :: newer, hl, hc, by rw [htl]; rfl⟩, hrest⟩

/-- The tables change without an alert on a post, and every place is an old one or a new one. -/
theorem World.Tracks.update {w : World} (h : w.Tracks) (db : Db)
    (hcount : ∀ a s, db.marks.raised.count (.post a s) = w.db.marks.raised.count (.post a s))
    (hplaces : ∀ p ∈ db.places, p ∈ w.db.places ∨ p.id ∉ w.db.places.map Place.id) : (w.update db).Tracks := by
  intro p hp
  show Tracked (w.inst.timeline p.account) db.marks.raised p
    (if p.id ∈ w.db.watches.map Watch.id then w.history p.id else { base := w.db.marks.raised })
  rw [← map_id_places]
  rcases hplaces p hp with hold | hnew
  · rw [if_pos (List.mem_map_of_mem hold)]
    exact (h p hold).congr fun s => hcount p.account s
  · rw [if_neg hnew]
    exact tracked_new _ fun s => hcount p.account s

theorem count_raiseAll_of_not_mem {m : Marks Subject} {xs : List Subject} {x : Subject} (h : x ∉ xs) :
    (m.raiseAll xs).raised.count x = m.raised.count x := by
  rw [Marks.count_raiseAll, if_neg fun hx => h hx.1, Nat.add_zero]

theorem mem_of_addsPlaces {places places' : List Place} (h : AddsPlaces places places') :
    places ⊆ places' ∧ ∀ p ∈ places', p ∈ places ∨ p.id ∉ places.map Place.id := by
  induction h with
  | refl => exact ⟨List.Subset.refl _, fun p hp => Or.inl hp⟩
  | add _ hcur hid hacc ih =>
    refine ⟨fun p hp => List.mem_append_left _ (ih.1 hp), fun p hp => ?_⟩
    rcases List.mem_append.1 hp with hp | hp
    · exact ih.2 p hp
    · rw [List.mem_singleton.1 hp]
      exact Or.inr fun hmem => hid (List.map_subset Place.id ih.1 hmem)

/-! ### Checks -/

section

variable {w : World} {watch : Watch}

theorem mem_raisedBy {s : StatusId} {a : AccountId} (h : Subject.post a s ∈ w.raisedBy watch) :
    a = watch.account ∧ ∃ x ∈ w.statusesFor watch, x.id = s ∧ ∃ c, watch.lastStatusId = some c ∧ c < s := by
  unfold World.raisedBy at h
  split at h
  · rename_i hsome
    obtain ⟨x, hx, heq⟩ := List.mem_map.1 h
    injection heq with _ ha hs
    obtain ⟨c, hc⟩ := Option.isSome_iff_exists.1 hsome
    have hx := List.mem_reverse.1 hx
    refine ⟨ha.symm, x, hx, Option.some.inj hs, c, hc, ?_⟩
    rw [← Option.some.inj hs]
    exact (mem_statusesFor hx).2 c hc
  · cases h

/-- An interrupted check only raises statuses after the cursor. -/
theorem Tracked.interrupted {raised : List Subject} {h : History} {timeline : List Status}
    (hsorted : timeline.Pairwise fun x y => y.id < x.id) (ht : Tracked timeline raised watch.place h)
    {raised' : List Subject}
    (hcount : ∀ s, raised'.count (.post watch.account s) = raised.count (.post watch.account s) ∨
      ∃ c, watch.lastStatusId = some c ∧ c < s) : Tracked timeline raised' watch.place h := by
  refine ⟨fun hnone s => ?_, fun first latest hseen => ?_⟩
  · rcases hcount s with heq | hc
    · exact (ht.unseen hnone s).imp_left fun hold => heq.trans hold
    · exact Or.inr hc
  · obtain ⟨⟨newest, older, newer, hl, hc, htl⟩, hsub, hone, hold⟩ := ht.seen first latest hseen
    -- what was there at the latest check is not after the cursor
    have hkeep : ∀ x ∈ latest, raised'.count (.post watch.account x.id) = raised.count (.post watch.account x.id) := by
      intro x hx
      refine (hcount x.id).resolve_right ?_
      rintro ⟨c, hc', hlt⟩
      obtain rfl : newest.id = c := Option.some.inj (hc.symm.trans hc')
      rw [htl, hl] at hsorted
      rw [hl] at hx
      have hsorted := (List.pairwise_append.1 hsorted).2.1
      rcases List.mem_cons.1 hx with rfl | hx
      · exact Nat.lt_irrefl _ hlt
      · exact Nat.lt_asymm hlt ((List.pairwise_cons.1 hsorted).1 x hx)
    exact ⟨⟨newest, older, newer, hl, hc, htl⟩, hsub, fun x hx hnot => (hkeep x hx).trans (hone x hx hnot),
      fun x hx => (hkeep x (hsub hx)).trans (hold x hx)⟩

/-- The new statuses of a watch that has been checked before. -/
theorem filter_newer {newer older : List Status} {newest : Status}
    (hsorted : (newer ++ newest :: older).Pairwise fun x y => y.id < x.id) :
    (newer ++ newest :: older).filter (fun s => newest.id < s.id) = newer := by
  obtain ⟨-, hlatest, hcross⟩ := List.pairwise_append.1 hsorted
  have hnone : (newest :: older).filter (fun s => newest.id < s.id) = [] := by
    rw [List.filter_eq_nil_iff]
    intro x hx hlt
    have hlt : newest.id < x.id := of_decide_eq_true hlt
    rcases List.mem_cons.1 hx with rfl | hx
    · exact Nat.lt_irrefl _ hlt
    · exact Nat.lt_asymm hlt ((List.pairwise_cons.1 hlatest).1 x hx)
  rw [List.filter_append, hnone, List.append_nil, List.filter_eq_self]
  exact fun x hx => decide_eq_true (hcross x hx newest List.mem_cons_self)

/-- The first successful check. -/
theorem Tracked.first {h : History} {newest : Status} {older : List Status} (hsound : w.postView.Sound)
    (ht : Tracked (w.inst.timeline watch.account) w.db.marks.raised watch.place h) (hnone : h.seen = none)
    (htl : w.inst.timeline watch.account = newest :: older) (hseed : ∀ c, watch.lastStatusId = some c → c = newest.id) :
    cursorAfter watch.lastStatusId (w.statusesFor watch) = some newest.id ∧ w.raisedBy watch = [] ∧
      ∀ x ∈ w.inst.timeline watch.account,
        w.db.marks.raised.count (.post watch.account x.id) = h.base.count (.post watch.account x.id) := by
  have hle : ∀ x ∈ w.inst.timeline watch.account, x.id ≤ newest.id := fun x hx => hsound.le_newest htl hx
  unfold World.raisedBy
  cases hlast : watch.lastStatusId with
  | none =>
    have hstatuses : w.statusesFor watch = [newest] := by
      simp [World.statusesFor, Watch.request, hlast, Instance.accountStatuses, htl]
    refine ⟨by rw [hstatuses]; rfl, rfl, fun x _ => (ht.unseen hnone x.id).resolve_right ?_⟩
    rintro ⟨c, hc, -⟩
    exact absurd (hlast.symm.trans hc) (by simp)
  | some c =>
    obtain rfl := hseed c hlast
    have hstatuses : w.statusesFor watch = [] := by
      rw [List.eq_nil_iff_forall_not_mem]
      intro x hx
      obtain ⟨hmem, hafter⟩ := mem_statusesFor hx
      exact Nat.not_lt.2 (hle x hmem) (hafter _ hlast)
    refine ⟨by rw [hstatuses]; rfl, by rw [hstatuses]; rfl, fun x hx => (ht.unseen hnone x.id).resolve_right ?_⟩
    rintro ⟨c, hc, hlt⟩
    obtain rfl : newest.id = c := Option.some.inj (hlast.symm.trans hc)
    exact Nat.not_lt.2 (hle x hx) hlt

/-- A later successful check gets all new statuses. -/
theorem statusesFor_later {newer older : List Status} {newest : Status} (hsound : w.postView.Sound)
    (htl : w.inst.timeline watch.account = newer ++ newest :: older) (hlast : watch.lastStatusId = some newest.id)
    (hlimit : ((w.inst.timeline watch.account).filter fun s => newest.id < s.id).length ≤ statusLimit) :
    w.statusesFor watch = newer := by
  have hsorted := hsound.sorted watch.account
  simp only [World.postView, htl] at hsorted
  unfold World.statusesFor Watch.request Instance.accountStatuses
  rw [hlast]
  simp only [Option.all_some]
  rw [htl, filter_newer hsorted] at *
  exact List.take_of_length_le hlimit

/-- A completed check that meets the condition. -/
theorem Tracked.completed {h : History} (hsound : w.postView.Sound) (hw : watch.place ∈ w.db.places)
    (ht : Tracked (w.inst.timeline watch.account) w.db.marks.raised watch.place h)
    (hok : match h.seen with
      | none => ∃ newest older, w.inst.timeline watch.account = newest :: older ∧
          ∀ c, watch.lastStatusId = some c → c = newest.id
      | some _ => ∀ c, watch.lastStatusId = some c →
          ((w.inst.timeline watch.account).filter fun s => c < s.id).length ≤ statusLimit) :
    Tracked (w.inst.timeline watch.account) (w.db.marks.raiseAll (w.raisedBy watch)).raised
      { watch.place with cursor := cursorAfter watch.lastStatusId (w.statusesFor watch) }
      (h.look (w.inst.timeline watch.account)) := by
  have hnotnone : (h.look (w.inst.timeline watch.account)).seen ≠ none := by
    unfold History.look
    dsimp only
    split <;> simp
  refine ⟨fun hnone => absurd hnone hnotnone, fun first latest hseen => ?_⟩
  cases hs : h.seen with
  | none =>
    rw [hs] at hok
    obtain ⟨newest, older, htl, hseed⟩ := hok
    obtain ⟨hcur, hraised, hcount⟩ := ht.first hsound hs htl hseed
    simp only [History.look, hs, Option.some.injEq, Prod.mk.injEq] at hseen
    obtain ⟨rfl, rfl⟩ := hseen
    rw [hraised, Marks.raiseAll_nil]
    exact ⟨⟨newest, older, [], htl, hcur, rfl⟩, List.Subset.refl _, fun x hx hnot => absurd hx hnot, hcount⟩
  | some seen =>
    obtain ⟨first', latest'⟩ := seen
    rw [hs] at hok
    simp only [History.look, hs, Option.some.injEq, Prod.mk.injEq] at hseen
    obtain ⟨rfl, rfl⟩ := hseen
    obtain ⟨⟨newest, older, newer, rfl, hc, htl⟩, hsub, hone, hold⟩ := ht.seen first' latest' hs
    have hlast : watch.lastStatusId = some newest.id := hc
    have hstatuses := statusesFor_later hsound htl hlast (hok newest.id hlast)
    have hraised : w.raisedBy watch = posts watch.account newer.reverse := by
      simp [World.raisedBy, hlast, hstatuses]
    have hsorted := hsound.sorted watch.account
    simp only [World.postView, htl] at hsorted
    obtain ⟨-, hlatest, hcross⟩ := List.pairwise_append.1 hsorted
    -- the statuses seen before are not raised again
    have hkeep : ∀ x ∈ newest :: older, (w.db.marks.raiseAll (w.raisedBy watch)).raised.count (.post watch.account x.id) =
        w.db.marks.raised.count (.post watch.account x.id) := by
      intro x hx
      refine count_raiseAll_of_not_mem fun hmem => ?_
      obtain ⟨-, y, -, -, c, hc', hlt⟩ := mem_raisedBy hmem
      obtain rfl : newest.id = c := Option.some.inj (hlast.symm.trans hc')
      rcases List.mem_cons.1 hx with rfl | hx
      · exact Nat.lt_irrefl _ hlt
      · exact Nat.lt_asymm hlt ((List.pairwise_cons.1 hlatest).1 x hx)
    refine ⟨?_, fun x hx => ?_, fun x hx hnot => ?_, fun x hx => (hkeep x (hsub hx)).trans (hold x hx)⟩
    · rw [htl, hstatuses, hlast]
      cases newer with
      | nil => exact ⟨newest, older, [], rfl, rfl, rfl⟩
      | cons y ys => exact ⟨y, ys ++ newest :: older, [], rfl, rfl, rfl⟩
    · rw [htl]
      exact List.mem_append_right _ (hsub hx)
    · rw [htl] at hx
      rcases List.mem_append.1 hx with hx | hx
      · refine (hsound.once watch.account x.id).count_eq_one ?_ (hsound.marked watch.account x.id) fun hb => ?_
        · rw [hraised]
          exact List.mem_map.2 ⟨x, List.mem_reverse.2 hx, rfl⟩
        · exact Nat.not_lt.2 (hb watch.place hw rfl newest.id hlast) (hcross x hx newest List.mem_cons_self)
      · exact (hkeep x hx).trans (hone x hx hnot)

end

/-! ### Runs -/

/-- A check of a watch that meets `PostsOk` keeps the account of the posts. -/
theorem tracks_check {w w' : World} (hsound : w.postView.Sound) (h : w.Tracks) {id : WatchId} {now clock : Time} {t : Trouble}
    (hok : PostsOk w (.check id now clock t)) (hstep : step w (.check id now clock t) = some w') : w'.Tracks := by
  obtain ⟨watch, hw, rfl, hinst, -, hcase⟩ := step_check hsound.ids hstep
  have hplace : watch.place ∈ w.db.places := List.mem_map_of_mem hw
  -- the alerts are about posts of the watch's account
  have hother : ∀ p ∈ w.db.places, p.id ≠ watch.id → ∀ xs : List Subject, (∀ x ∈ xs, x ∈ w.raisedBy watch) → ∀ s,
      (w.db.marks.raiseAll xs).raised.count (.post p.account s) = w.db.marks.raised.count (.post p.account s) := by
    intro p hp hne xs hxs s
    refine count_raiseAll_of_not_mem fun hmem => hne ?_
    exact congrArg Place.id (hsound.eq_of_account hp hplace (mem_raisedBy (hxs _ hmem)).1)
  have hhistory : ∀ p ∈ w.db.places, (w.update w'.db).history p.id = w.history p.id := by
    intro p hp
    show (if p.id ∈ w.db.watches.map Watch.id then w.history p.id else _) = _
    rw [← map_id_places, if_pos (List.mem_map_of_mem hp)]
  rcases hcase with ⟨-, hhist, ⟨hm, hp⟩ | ⟨handled, hm, hp⟩⟩ | ⟨hc, hhist, hm, hp⟩
  · have hsub : ∀ p ∈ w'.db.places, p ∈ w.db.places := by
      intro p hp'
      rcases hp with hp | hp
      · rwa [hp] at hp'
      · rw [hp] at hp'
        exact (List.mem_filter.1 hp').1
    intro p hp'
    rw [hinst, hhist, hhistory p (hsub p hp'), hm]
    exact h p (hsub p hp')
  · intro p hp'
    rw [hp] at hp'
    rw [hinst, hhist, hhistory p hp', hm]
    by_cases hne : p.id = watch.id
    · obtain rfl := hsound.eq_of_id hp' hplace hne
      refine (h _ hplace).interrupted (hsound.sorted _) fun s => ?_
      by_cases hmem : Subject.post watch.account s ∈ w.raisedBy watch
      · obtain ⟨-, x, -, -, hc⟩ := mem_raisedBy hmem
        exact Or.inr hc
      · exact Or.inl (count_raiseAll_of_not_mem fun hx => hmem (List.mem_of_mem_take hx))
    · exact (h p hp').congr (hother p hp' hne _ fun x hx => List.mem_of_mem_take hx)
  · intro p hp'
    rw [hp] at hp'
    have hmemset := (mem_setPlace (p := { watch.place with cursor := cursorAfter watch.lastStatusId (w.statusesFor watch) })
      ⟨watch.place, hplace, rfl⟩).1 hp'
    rw [hinst, hhist, hm]
    show Tracked _ _ _ (if p.id = watch.id then ((w.update w'.db).history p.id).look (w.inst.timeline watch.account) else
      (w.update w'.db).history p.id)
    rcases hmemset with rfl | ⟨hpold, hne⟩
    · have hsame : (w.update w'.db).history watch.id = w.history watch.id := hhistory watch.place hplace
      show Tracked _ _ _ (if watch.id = watch.id then ((w.update w'.db).history watch.id).look _ else _)
      rw [if_pos rfl, hsame]
      exact (h _ hplace).completed hsound hplace (hok.2 hc watch hw rfl)
    · have hne : p.id ≠ watch.id := hne
      rw [if_neg hne, hhistory p hpold]
      exact (h p hpold).congr (hother p hpold hne _ fun x hx => hx)

/-- One step that meets the condition keeps the histories true. -/
theorem tracks_step {w w' : World} {e : Event} (hsound : w.postView.Sound) (h : w.Tracks) (hok : PostsOk w e)
    (hstep : step w e = some w') : w'.Tracks := by
  cases e with
  | post account s =>
    obtain ⟨-, rfl⟩ := System.of_guard hstep
    intro p hp
    show Tracked (if p.account = account then s :: w.inst.timeline p.account else w.inst.timeline p.account) _ _ _
    split
    · exact (h p hp).post s
    · exact h p hp
  | register m =>
    obtain ⟨-, rfl⟩ := System.of_guard hstep
    exact h
  | approve | activity =>
    obtain rfl := Option.some.inj hstep
    exact h
  | addWatch account acct expiresAt =>
    simp only [step, Option.ite_none_left_eq_some, Option.some.injEq] at hstep
    obtain ⟨-, rfl⟩ := hstep
    refine h.update _ (fun _ _ => rfl) fun p hp => ?_
    rw [places_addWatch] at hp
    rcases List.mem_append.1 hp with hp | hp
    · exact Or.inl hp
    · rw [List.mem_singleton.1 hp, map_id_places]
      exact Or.inr (freshId_not_mem Watch.id w.db.watches)
  | removeWatch id =>
    obtain rfl := Option.some.inj hstep
    refine h.update _ (fun _ _ => rfl) fun p hp => Or.inl ?_
    rw [places_removeWatch] at hp
    exact (List.mem_filter.1 hp).1
  | acknowledge which time =>
    obtain rfl := Option.some.inj hstep
    exact h.update _ (fun _ _ => by rw [marks_acknowledge]) fun p hp => Or.inl hp
  | configure settings =>
    obtain rfl := Option.some.inj hstep
    exact h
  | prune now =>
    obtain rfl := Option.some.inj hstep
    exact h.update _ (fun _ _ => rfl) fun p hp => Or.inl ((places_prune_sublist now w.settings w.db).subset hp)
  | newAccounts now clock t bot =>
    obtain ⟨accounts, hm, hp⟩ := newAccountsStep_raises now clock (w.inst.client t) bot w.settings w.db
    have hupdate := h.update (newAccountsStep now clock (w.inst.client t) bot w.settings w.db).1
      (fun a s => by rw [hm]; exact count_raiseAll_of_not_mem (post_not_mem_signups a s)) (mem_of_addsPlaces hp).2
    rw [← Option.some.inj hstep]
    split
    · exact hupdate
    · exact hupdate
  | scan now clock t =>
    obtain rfl := Option.some.inj hstep
    obtain ⟨accounts, hm, hp, -⟩ := scanSilentLogins_raises now clock (w.inst.client t) w.settings w.db
    exact h.update _ (fun a s => by rw [hm]; exact count_raiseAll_of_not_mem (post_not_mem_silents a s))
      fun p hp' => Or.inl (by rwa [hp] at hp')
  | check id now clock t =>
    exact tracks_check hsound h hok hstep

/-- Of the statuses a watched account had at the latest successful check, each one posted after the first has got exactly one
alert, none that was there at the first has got any since the watch was added, and every status up to the cursor was there at
the first or has its alert. -/
theorem World.Tracks.alertedOnce {w : World} (hsound : w.postView.Sound) (htracks : w.Tracks) {watch : Watch}
    (hw : watch ∈ w.db.watches) {first latest : List Status} (hseen : (w.history watch.id).seen = some (first, latest)) :
    (∀ x ∈ latest, x ∉ first → w.db.marks.raised.count (.post watch.account x.id) = 1) ∧
      (∀ x ∈ first, w.db.marks.raised.count (.post watch.account x.id) =
        (w.history watch.id).base.count (.post watch.account x.id)) ∧
      ∀ c, watch.lastStatusId = some c → ∀ x ∈ w.inst.timeline watch.account, x.id ≤ c →
        x ∈ first ∨ w.db.marks.raised.count (.post watch.account x.id) = 1 := by
  obtain ⟨⟨newest, older, newer, rfl, hc, htl⟩, hsub, hone, hold⟩ :=
    (htracks watch.place (List.mem_map_of_mem hw)).seen first latest hseen
  refine ⟨hone, hold, fun c hlast x hx hle => ?_⟩
  by_cases hfirst : x ∈ first
  · exact Or.inl hfirst
  · -- a status up to the cursor was there at the latest check
    obtain rfl : newest.id = c := Option.some.inj (hc.symm.trans hlast)
    have htl : w.inst.timeline watch.account = newer ++ newest :: older := htl
    have hsorted := hsound.sorted watch.account
    simp only [World.postView, htl] at hsorted
    rw [htl] at hx
    rcases List.mem_append.1 hx with hx | hx
    · exact absurd hle (Nat.not_le.2 ((List.pairwise_append.1 hsorted).2.2 x hx newest List.mem_cons_self))
    · exact Or.inr (hone x hx hfirst)

/-! ### Polls that overlap -/

/-- An earlier moment of the account's timeline that has all its alerts and the cursor. -/
theorem PostView.Sound.earlier {v : PostView} (h : v.Sound) {p : Place} (hp : p ∈ v.places) {timeline : List Status}
    (hsuffix : timeline <:+ v.timeline p.account) (hknown : ∀ i, .post p.account i ∈ v.marks.raised → ∃ x ∈ timeline, x.id = i)
    (hread : ∀ c, p.cursor = some c → ∃ x ∈ timeline, x.id = c) :
    Sound { v with timeline := fun a => if a = p.account then timeline else v.timeline a } := by
  refine ⟨h.ids, h.accounts, fun a => ?_, fun a i hi => ?_, h.marked, fun q hq c hc => ?_, h.once⟩
  · dsimp only
    split
    · exact (h.sorted p.account).sublist hsuffix.sublist
    · exact h.sorted a
  · dsimp only
    split_ifs with ha
    · rw [ha] at hi
      exact hknown i hi
    · exact h.known a i hi
  · dsimp only
    split_ifs with ha
    · rw [h.eq_of_account hq hp ha] at hc
      exact hread c hc
    · exact h.read q hq c hc

theorem PostView.Sound.later {v : PostView} (h : v.Sound) {timeline : AccountId → List Status}
    (hsuffix : ∀ a, v.timeline a <:+ timeline a) (hsorted : ∀ a, (timeline a).Pairwise fun x y => y.id < x.id) :
    Sound { v with timeline := timeline } := by
  refine ⟨h.ids, h.accounts, hsorted, fun a i hi => ?_, h.marked, fun p hp c hc => ?_, h.once⟩
  · obtain ⟨x, hx, hid⟩ := h.known a i hi
    exact ⟨x, (hsuffix a).subset hx, hid⟩
  · obtain ⟨x, hx, hid⟩ := h.read p hp c hc
    exact ⟨x, (hsuffix _).subset hx, hid⟩

theorem Tracked.earlier {timeline earlier : List Status} {raised : List Subject} {p : Place} {h : History}
    (hsorted : timeline.Pairwise fun x y => y.id < x.id) (ht : Tracked timeline raised p h) (hsuffix : earlier <:+ timeline)
    (hread : ∀ c, p.cursor = some c → ∃ x ∈ earlier, x.id = c) : Tracked earlier raised p h := by
  refine ⟨ht.unseen, fun first latest hseen => ?_⟩
  obtain ⟨⟨newest, older, newer, hl, hc, htl⟩, hrest⟩ := ht.seen first latest hseen
  have hlatest : latest <:+ timeline := ⟨newer, htl.symm⟩
  obtain ⟨x, hx, hid⟩ := hread newest.id hc
  -- the timeline has the status of the cursor, so it reaches back at least as far as the latest check
  have hsuf : latest <:+ earlier := by
    rcases List.suffix_or_suffix_of_suffix hlatest hsuffix with hle | hle
    · exact hle
    · rw [hl] at hle hlatest ⊢
      rcases List.suffix_cons_iff.1 hle with rfl | hle
      · exact List.suffix_refl _
      · have hlt := (List.pairwise_cons.1 (hsorted.sublist hlatest.sublist)).1 x (hle.subset hx)
        rw [hid] at hlt
        exact absurd hlt (Nat.lt_irrefl _)
  obtain ⟨newer', hnewer⟩ := hsuf
  exact ⟨⟨newest, older, newer', hl, hc, hnewer.symm⟩, hrest⟩

theorem Tracked.later {timeline later : List Status} {raised : List Subject} {p : Place} {h : History}
    (ht : Tracked timeline raised p h) (hsuffix : timeline <:+ later) : Tracked later raised p h := by
  refine ⟨ht.unseen, fun first latest hseen => ?_⟩
  obtain ⟨⟨newest, older, newer, hl, hc, htl⟩, hrest⟩ := ht.seen first latest hseen
  obtain ⟨added, rfl⟩ := hsuffix
  exact ⟨⟨newest, older, added ++ newer, hl, hc, by rw [htl, List.append_assoc]⟩, hrest⟩

/-- Timelines only grow. -/
theorem step_timeline {w w' : World} {e : Event} (hstep : step w e = some w') (a : AccountId) :
    w.inst.timeline a <:+ w'.inst.timeline a := by
  cases e with
  | post account s =>
    obtain ⟨-, rfl⟩ := System.of_guard hstep
    dsimp only
    split
    · exact List.suffix_cons _ _
    · exact List.suffix_refl _
  | register m =>
    obtain ⟨-, rfl⟩ := System.of_guard hstep
    exact List.suffix_refl _
  | addWatch account acct expiresAt =>
    obtain ⟨-, hsome⟩ := Option.ite_none_left_eq_some.1 hstep
    obtain rfl := Option.some.inj hsome
    exact List.suffix_refl _
  | check id now clock t =>
    obtain ⟨watch, -, rfl⟩ := Option.map_eq_some_iff.1 hstep
    dsimp only
    split
    · exact List.suffix_refl _
    · exact List.suffix_refl _
  | newAccounts now clock t bot =>
    rw [← Option.some.inj hstep]
    split
    · exact List.suffix_refl _
    · exact List.suffix_refl _
  | _ =>
    obtain rfl := Option.some.inj hstep
    exact List.suffix_refl _

/-- No other poll has got further with the watch, and all alerts on the account's posts are on those the request has seen. -/
def UpToDate (w : World) (p : Place) (timeline : List Status) : Prop :=
  p ∈ w.db.places ∧ ∀ i, .post p.account i ∈ w.db.marks.raised → ∃ x ∈ timeline, x.id = i

def PostsAnswered (s : Polls) : Move → Prop
  | .act e => PostsOk s.world e
  | .ask _ _ => True
  | .answer poll now clock t _ => ∀ p timeline, s.held poll = some (.check p timeline) →
    UpToDate s.world p timeline ∧ PostsOk ((Held.check p timeline).view s.world) (.check p.id now clock t)

/-- What a check was answered is an earlier moment of the timeline, with the status of the cursor. -/
def Asked (w : World) : Held → Prop
  | .check p timeline => timeline <:+ w.inst.timeline p.account ∧ ∀ c, p.cursor = some c → ∃ x ∈ timeline, x.id = c
  | .discovery _ _ => True

theorem Asked.later {w w' : World} (hgrows : ∀ a, w.inst.timeline a <:+ w'.inst.timeline a) (x : Held) (h : Asked w x) : Asked w' x := by
  cases x with
  | check p timeline => exact ⟨h.1.trans (hgrows _), h.2⟩
  | discovery cursor members => trivial

/-- A check goes on with an answer that is up to date: as if it had been asked and answered at the request, and the statuses posted since
came afterwards. -/
theorem tracks_answer {w w' : World} (hsound : w.postView.Sound) (h : w.Tracks) {p : Place} {timeline : List Status}
    (hsuffix : timeline <:+ w.inst.timeline p.account) (hread : ∀ c, p.cursor = some c → ∃ x ∈ timeline, x.id = c)
    (hdate : UpToDate w p timeline) {now clock : Time} {t : Trouble}
    (hok : PostsOk ((Held.check p timeline).view w) (.check p.id now clock t))
    (hstep : step ((Held.check p timeline).view w) (.check p.id now clock t) = some w') :
    ((Held.check p timeline).leave w w').postView.Sound ∧ ((Held.check p timeline).leave w w').Tracks := by
  obtain ⟨hp, hknown⟩ := hdate
  rw [Held.view_check hsound.ids hp] at hok hstep
  rw [Held.leave_check hsound.ids hp]
  generalize hview : { w with inst := { w.inst with timeline := fun a => if a = p.account then timeline else w.inst.timeline a } } = v
    at hok hstep
  have hvsound : v.postView.Sound := hview ▸ hsound.earlier hp hsuffix hknown hread
  have hvtracks : v.Tracks := by
    rw [← hview]
    intro q hq
    dsimp only
    split_ifs with ha
    · obtain rfl := hsound.eq_of_account hq hp ha
      exact (h q hq).earlier (hsound.sorted _) hsuffix hread
    · exact h q hq
  have hgrows : ∀ a, w'.inst.timeline a <:+ w.inst.timeline a := by
    obtain ⟨-, -, -, hinst, -⟩ := step_check hvsound.ids hstep
    intro a
    rw [hinst, ← hview]
    dsimp only
    split_ifs with ha
    · rw [ha]
      exact hsuffix
    · exact List.suffix_refl _
  have hw' := tracks_check hvsound hvtracks hok hstep
  exact ⟨(sound_check hvsound hstep).later hgrows hsound.sorted, fun q hq => (hw' q hq).later (hgrows q.account)⟩

/-- What a poll makes of a discovery does not matter to the posts. -/
theorem tracks_discovery {w w' : World} (hsound : w.postView.Sound) (h : w.Tracks) {cursor : Option Time} {members : List Member}
    {now clock : Time} {t : Trouble} {bot : Option Bot}
    (hstep : step ((Held.discovery cursor members).view w) (.newAccounts now clock t bot) = some w') :
    ((Held.discovery cursor members).leave w w').postView.Sound ∧ ((Held.discovery cursor members).leave w w').Tracks := by
  have hleave : ((Held.discovery cursor members).leave w w').db.places = w'.db.places ∧
      ((Held.discovery cursor members).leave w w').db.marks = w'.db.marks := by
    unfold Held.leave
    dsimp only
    split
    · exact ⟨rfl, rfl⟩
    · exact ⟨rfl, rfl⟩
  have hvsound : ((Held.discovery cursor members).view w).postView.Sound := hsound
  have hvtracks : ((Held.discovery cursor members).view w).Tracks := h
  have hsound' := sound_step (e := .newAccounts now clock t bot) hvsound trivial hstep
  have htracks' := tracks_step (e := .newAccounts now clock t bot) hvsound hvtracks ⟨trivial, trivial⟩ hstep
  have hinst : w'.inst.timeline = w.inst.timeline := by
    rw [← Option.some.inj hstep]
    split
    · rfl
    · rfl
  obtain ⟨hp, hm⟩ := hleave
  generalize hleft : (Held.discovery cursor members).leave w w' = left at *
  have hkept : left.inst = w.inst ∧ left.history = w'.history := by
    rw [← hleft]
    exact ⟨rfl, rfl⟩
  constructor
  · unfold World.postView
    rw [hp, hm, hkept.1, ← hinst]
    exact hsound'
  · intro q hq
    rw [hp] at hq
    rw [hm, hkept.1, hkept.2, ← hinst]
    exact htracks' q hq

/-- One step of polls that overlap. -/
theorem tracks_move {s s' : Polls} {m : Move} (hsound : s.world.postView.Sound) (htracks : s.world.Tracks) (hasked : s.Holds Asked)
    (hok : PostsAnswered s m) (hstep : polls.step s m = some s') :
    s'.world.postView.Sound ∧ s'.world.Tracks ∧ s'.Holds Asked := by
  have hheld : (∀ a, s.world.inst.timeline a <:+ s'.world.inst.timeline a) → s'.Holds Asked := fun hgrows =>
    hasked.step hstep (fun p hp => ⟨List.suffix_refl _, hsound.read p hp⟩) trivial (Asked.later hgrows)
  rcases Polls.step_cases hstep with ⟨e, rfl, hw⟩ | ⟨poll, watch, rfl, hw⟩ | ⟨poll, now, clock, t, bot, x, w', rfl, hx, hw', hw⟩
  · exact ⟨sound_step hsound hok.1 hw, tracks_step hsound htracks hok hw, hheld (step_timeline hw)⟩
  · rw [hw] at hheld ⊢
    exact ⟨hsound, htracks, hheld fun a => List.suffix_refl _⟩
  · have hposts : (x.leave s.world w').postView.Sound ∧ (x.leave s.world w').Tracks := by
      cases x with
      | check p timeline =>
        obtain ⟨hsuffix, hread⟩ := hasked poll _ hx
        obtain ⟨hdate, hposts⟩ := hok p timeline hx
        exact tracks_answer hsound htracks hsuffix hread hdate hposts hw'
      | discovery cursor members => exact tracks_discovery hsound htracks hw'
    have hinst : (x.leave s.world w').inst = s.world.inst := by
      cases x with
      | check p timeline => rfl
      | discovery cursor members => rfl
    rw [hw] at hheld ⊢
    rw [hinst] at hheld
    exact ⟨hposts.1, hposts.2, hheld fun a => List.suffix_refl _⟩

/-- In every run that meets `PostsAnswered`, of polls that may overlap: of the statuses a watched account had at the latest
successful check, each one posted after the first has got exactly one alert, none that was there at the first has got any
since the watch was added, and every status up to the cursor was there at the first or has its alert. -/
theorem watched_posts_alerted_once {s : Polls} (h : polls.Reach PostsAnswered s) {watch : Watch} (hw : watch ∈ s.world.db.watches)
    {first latest : List Status} (hseen : (s.world.history watch.id).seen = some (first, latest)) :
    (∀ x ∈ latest, x ∉ first → s.world.db.marks.raised.count (.post watch.account x.id) = 1) ∧
      (∀ x ∈ first, s.world.db.marks.raised.count (.post watch.account x.id) =
        (s.world.history watch.id).base.count (.post watch.account x.id)) ∧
      ∀ c, watch.lastStatusId = some c → ∀ x ∈ s.world.inst.timeline watch.account, x.id ≤ c →
        x ∈ first ∨ s.world.db.marks.raised.count (.post watch.account x.id) = 1 := by
  have hinv : s.world.postView.Sound ∧ s.world.Tracks ∧ s.Holds Asked := by
    refine h.invariant (I := fun s => s.world.postView.Sound ∧ s.world.Tracks ∧ s.Holds Asked)
      (fun s hs => ?_) fun s m s' hi hok hst => tracks_move hi.1 hi.2.1 hi.2.2 hok hst
    obtain ⟨hinit, hnone⟩ := hs
    refine ⟨sound_init hinit, fun p hp => ?_, fun poll x hheld => ?_⟩
    · rw [hinit.1] at hp
      cases hp
    · rw [hnone poll] at hheld
      cases hheld
  exact hinv.2.1.alertedOnce hinv.1 hw hseen

/-- A watch that is added after the first post, a successful check, the given posts, and another successful check. -/
def watchedRun (posts : List Status) : List Event :=
  [.post 7 { id := 1 }, .addWatch 7 [] none, .check 1 0 0 {}] ++ posts.map (Event.post 7) ++ [.check 1 1 1 {}]

/-- A watch that finds no post at its first successful check, one post, and two more successful checks. -/
def firstPostRun : List Event :=
  [.addWatch 7 [] none, .check 1 0 0 {}, .post 7 { id := 1 }, .check 1 1 1 {}, .check 1 2 2 {}]

/-- Two polls look for the first time, one of them after a second post. -/
def seedingRun : List Move :=
  [.act (.addWatch 7 [] none), .act (.post 7 { id := 1 }), .ask 0 (some 1), .act (.post 7 { id := 2 }), .ask 1 (some 1), .answer 0 0 0 {} none,
    .answer 1 1 1 {} none]

def burst : List Status := (List.range 41).map fun i => { id := i + 2 }

/-- After the run the cursor of watch 1 is past a post without an alert that was not there at its first successful check. -/
def PassesOver (moves : List Move) (i cursor : StatusId) : Prop :=
  ∃ s, polls.Reachable s ∧ polls.exec {} moves = some s ∧
    (∃ first latest, (s.world.history 1).seen = some (first, latest) ∧ i ∈ latest.map Status.id ∧ i ∉ first.map Status.id) ∧
    i ≤ cursor ∧ s.world.db.watches.map Watch.lastStatusId = [some cursor] ∧ s.world.db.marks.raised.count (.post 7 i) = 0

theorem passesOver_of_exec {moves : List Move} {i cursor : StatusId} (first latest : List Status) (hnew : i ∈ latest.map Status.id ∧
    i ∉ first.map Status.id ∧ i ≤ cursor) (h : (polls.exec {} moves).map (fun s => ((s.world.history 1).seen,
      s.world.db.watches.map Watch.lastStatusId, s.world.db.marks.raised.count (.post 7 i))) = some (some (first, latest), [some cursor], 0)) :
    PassesOver moves i cursor := by
  obtain ⟨s, hs, heq⟩ := Option.map_eq_some_iff.1 h
  simp only [Prod.mk.injEq] at heq
  exact ⟨s, System.reachable_of_exec polls_init hs, hs, ⟨first, latest, heq.1, hnew.1, hnew.2.1⟩, hnew.2.2, heq.2⟩

/-- Of forty-one posts between two checks the oldest is lost; so is the first post of an account that had none, and a post between the requests
of two polls that look for the first time. -/
theorem burst_and_first_post_lost : PassesOver ((watchedRun burst).map .act) 2 42 ∧ PassesOver (firstPostRun.map .act) 1 1 ∧
    PassesOver seedingRun 2 2 := by
  refine ⟨passesOver_of_exec [{ id := 1 }] (burst.reverse ++ [{ id := 1 }]) (by decide) ?_,
    passesOver_of_exec [] [{ id := 1 }] (by decide) ?_,
    passesOver_of_exec [{ id := 1 }] [{ id := 2 }, { id := 1 }] (by decide) ?_⟩
  · decide +kernel
  · decide +kernel
  · decide +kernel

/-- One post between two checks, and one while the second of them is under way. -/
theorem watched_post_alerted : ∃ s, polls.Reach PostsAnswered s ∧ s.world.db.marks.raised.count (.post 7 2) = 1 := by
  have r0 : polls.Reach PostsAnswered {} := .init polls_init
  have r1 := (r0.next (.act (.post 7 { id := 1 })) ⟨trivial, trivial⟩ rfl).next (.act (.addWatch 7 [] none)) ⟨trivial, trivial⟩ rfl
  have r2 := r1.next (.act (.check 1 0 0 {})) ⟨trivial, fun _ watch hw _ => by
    rw [List.mem_singleton.1 hw]
    exact ⟨{ id := 1 }, [], rfl, fun c hc => (Option.some.inj hc).symm⟩⟩ rfl
  have r3 := (r2.next (.act (.post 7 { id := 2 })) ⟨trivial, trivial⟩ rfl).next (.ask 0 (some 1)) trivial rfl
  have r4 := (r3.next (.act (.post 7 { id := 3 })) ⟨trivial, trivial⟩ rfl).next (.answer 0 1 1 {} none) (fun p timeline hheld => by
    obtain ⟨rfl, rfl⟩ := Held.check.inj (Option.some.inj hheld)
    refine ⟨⟨List.mem_singleton.2 rfl, fun i hi => absurd hi List.not_mem_nil⟩, trivial, fun _ watch hw _ => ?_⟩
    rw [List.mem_singleton.1 hw]
    intro c hc
    obtain rfl : 1 = c := Option.some.inj hc
    decide) rfl
  have hw := @watched_posts_alerted_once _ r4 _ (List.mem_singleton.2 rfl) [{ id := 1 }] [{ id := 2 }, { id := 1 }] rfl
  exact ⟨_, r4, hw.1 { id := 2 } (by decide) (by decide)⟩

end ProxmoxTool.Moderation
