import Mathlib
import ProxmoxTool.Lib.Sha256
import ProxmoxTool.Lib.System
import ProxmoxTool.Scans.Scan

/-!
# Update notifications

The model of `send_update_notification` in `core/notifier.py`: what it reports of the results of a job, the fingerprint it
stores when Discord has taken the notification, and what it sends.  A run has jobs (a scheduled scan, a bulk scan) that scan
guests in any order and notify at their end, with operators who edit guests and settings in between.

The fingerprint is of the names and the numbers of updates.  `skips_unchanged` says when that is enough: a report with the
parts of the last one sent must be of the same guests with the same packages (`TellsApart`).
-/

namespace ProxmoxTool.Scans

/-- The settings that are read; `none` for a missing one. -/
structure Settings where
  discordNotifyUpdates : Option Text := none
  discordNotifyUpdatesSecurityOnly : Option Text := none
  discordNotifyTags : Option Text := none
  guestUpdatesLastNotifiedHash : Option Text := none

/-- `_get_notify_tag_ids`, where a digit is an ASCII one. -/
def notifyTagIds (settings : Settings) : List Nat :=
  ((settings.discordNotifyTags.getD []).splitOn ',').filterMap fun t =>
    if strip t ≠ [] ∧ (strip t).all Char.isDigit then (parseInt t).map Int.toNat else none

def guestMatchesNotifyTags (settings : Settings) (guest : Guest) : Bool :=
  let wanted := notifyTagIds settings
  wanted.isEmpty || guest.tags.any (· ∈ wanted)

/-- A result with the rows of its scan. -/
structure Found where
  result : ScanResult
  packages : List Package

def foundBy (guest : Nat) (now : Int) (out : Output) : Found where
  result := scanResult guest now out
  packages := if out.failed then [] else found guest now out

/-- A result that is reported, with its guest as it is now. -/
structure Reported where
  guest : Guest
  result : ScanResult
  packages : List Package

/-- `guests_with_updates`; `none` if the guest of a result is gone. -/
def guestsWithUpdates (settings : Settings) (guests : List Guest) : List Found → Option (List Reported)
  | [] => some []
  | f :: rest =>
    let others := guestsWithUpdates settings guests rest
    if f.result.status = .success ∧ f.result.totalUpdates > 0 then
      if settings.discordNotifyUpdatesSecurityOnly = some "true".toList ∧ f.result.securityUpdates = 0 then others
      else
        (guests.find? fun g => decide (g.id = f.result.guest)).bind fun guest =>
          if guestMatchesNotifyTags settings guest then others.map (⟨guest, f.result, f.packages⟩ :: ·) else others
    else others

/-- The order of Python's strings. -/
def textLE : Text → Text → Bool
  | [], _ => true
  | _ :: _, [] => false
  | a :: s, b :: t => a.toNat < b.toNat || (a = b && textLE s t)

def Reported.part (r : Reported) : Text :=
  r.guest.name ++ ':' :: (natText r.result.totalUpdates ++ ':' :: natText r.result.securityUpdates)

def fingerprintParts (report : List Reported) : List Text :=
  (report.map Reported.part).insertionSort fun s t => textLE s t

def fingerprint (report : List Reported) : Text :=
  Sha256.hexdigest (Utf8.encode (joinText "|".toList (fingerprintParts report)))

inductive Color
  | yellow | red
  deriving DecidableEq

/-- The embed; a field has a name and a value, and is not inline. -/
structure Embed where
  title : Text
  description : Text
  color : Color
  fields : List (Text × Text)
  footer : Text

def Reported.field (r : Reported) : Text × Text :=
  let security := natText r.result.securityUpdates ++ if r.result.securityUpdates > 0 then " 🔴".toList else []
  (r.guest.name ++ " (".toList ++ r.guest.guestType.map Char.toUpper ++ ")".toList,
    "Updates: **".toList ++ natText r.result.totalUpdates ++ "** | Security: **".toList ++ security ++ "**".toList)

def embedOf (report : List Reported) : Embed :=
  let totalUpdates := (report.map fun r => r.result.totalUpdates).sum
  let totalSecurity := (report.map fun r => r.result.securityUpdates).sum
  { title := if totalSecurity > 0 then "🚨 CRITICAL: ".toList ++ natText totalSecurity ++ " security update(s) available".toList
      else "📦 ".toList ++ natText totalUpdates ++ " update(s) available".toList
    description := "**".toList ++ natText totalUpdates ++ "** update(s) across **".toList ++ natText report.length ++
      "** guest(s).".toList
    color := if totalSecurity > 0 then .red else .yellow
    fields := report.map Reported.field
    footer := "Log in to MCAT to review and apply updates.".toList }

/-- What `send_update_notification` does: nothing, skip, or send an embed. -/
inductive Decision
  | quiet
  | skip (report : List Reported)
  | send (report : List Reported) (embed : Embed)

def notifyUpdatesEnabled (settings : Settings) : Bool :=
  settings.discordNotifyUpdates.getD "true".toList = "true".toList

/-- `send_update_notification` up to the sending; `none` if it raises. -/
def sendUpdateNotification (settings : Settings) (guests : List Guest) (results : List Found) : Option Decision :=
  if notifyUpdatesEnabled settings = false then some .quiet
  else (guestsWithUpdates settings guests results).map fun report =>
    if report.isEmpty then .quiet
    else if fingerprint report = settings.guestUpdatesLastNotifiedHash.getD [] then .skip report
    else .send report (embedOf report)

/-! ### Runs -/

/-- The tables, the settings and the results of the jobs under way; the last report sent and, for every report that was
skipped, the report and the last one sent before it. -/
structure World where
  db : Database := {}
  settings : Settings := {}
  jobs : Nat → List Found := fun _ => []
  last : Option (List Reported) := none
  skips : List (List Reported × Option (List Reported)) := []

inductive Activity
  | scan (job guest : Nat) (now : Int) (out : Option Output)
  | notify (job : Nat) (sent : Bool)
  | configure (updates securityOnly tags : Option Text)
  | edit (guest : Nat) (name guestType : Text) (tags : List Nat)

/-- The end of a job; `sent` is whether Discord takes what is sent. -/
def World.decided (w : World) (sent : Bool) : Decision → World
  | .quiet => w
  | .skip report => { w with skips := w.skips ++ [(report, w.last)] }
  | .send report _ =>
    if sent then { w with
      settings := { w.settings with guestUpdatesLastNotifiedHash := some (fingerprint report) }
      last := some report }
    else w

def World.step (w : World) : Activity → Option World
  | .scan _ _ _ none => some w
  | .scan job guest now (some out) => some { w with
    db := scanGuest guest now out w.db
    jobs := fun j => if j = job then w.jobs j ++ [foundBy guest now out] else w.jobs j }
  | .notify job sent =>
    let rest := fun j => if j = job then [] else w.jobs j
    some <| match sendUpdateNotification w.settings w.db.guests (w.jobs job) with
      | none => { w with jobs := rest }
      | some decision => World.decided { w with jobs := rest } sent decision
  | .configure updates securityOnly tags => some { w with
    settings := { w.settings with
      discordNotifyUpdates := updates, discordNotifyUpdatesSecurityOnly := securityOnly, discordNotifyTags := tags } }
  | .edit guest name guestType tags => some { w with
    db := { w.db with guests := w.db.guests.map fun g =>
      if g.id = guest then { g with name := name, guestType := guestType, tags := tags } else g } }

/-- At the start nothing has been sent. -/
def notifying : System World Activity where
  init w := w.settings.guestUpdatesLastNotifiedHash = none ∧ w.last = none ∧ w.skips = []
  step := World.step

/-- A pending package with the version to come. -/
def Package.version (row : Package) : Text × Text := (row.packageName, row.availableVersion)

/-- The pending packages a report is about. -/
def triples (report : List Reported) : List (Nat × Text × Text) :=
  report.flatMap fun r => r.packages.map fun row => (r.guest.id, row.version)

/-- Two reports are told apart by their fingerprints: different parts have different digests, and if the parts are the same
then guests of the same name and numbers are one guest with the same packages. -/
structure TellsApart (report sent : List Reported) : Prop where
  digest : fingerprint report = fingerprint sent → fingerprintParts report = fingerprintParts sent
  numbers : fingerprintParts report = fingerprintParts sent → ∀ r ∈ report, ∀ l ∈ sent, r.guest.name = l.guest.name →
    r.result.totalUpdates = l.result.totalUpdates → r.result.securityUpdates = l.result.securityUpdates →
      r.guest.id = l.guest.id ∧ ∀ version, version ∈ r.packages.map Package.version ↔ version ∈ l.packages.map Package.version

/-- A notification tells what it reports apart from what the last one reported. -/
def Activity.tells (w : World) : Activity → Prop
  | .notify job _ => notifyUpdatesEnabled w.settings = true →
    ∀ report ∈ guestsWithUpdates w.settings w.db.guests (w.jobs job), ∀ sent ∈ w.last, TellsApart report sent
  | _ => True

/-! ### Parts -/

/-- A text is read back up to the last separator. -/
theorem append_cons_inj {c : Char} {s s' t t' : Text} (ht : c ∉ t) (ht' : c ∉ t') (h : s ++ c :: t = s' ++ c :: t') :
    s = s' ∧ t = t' := by
  induction s generalizing s' with
  | nil =>
    cases s' with
    | nil => exact ⟨rfl, (List.cons.inj h).2⟩
    | cons d s' =>
      obtain ⟨-, htail⟩ := List.cons.inj h
      exact absurd (htail ▸ List.mem_append_right s' List.mem_cons_self) ht
  | cons d s ih =>
    cases s' with
    | nil =>
      obtain ⟨-, htail⟩ := List.cons.inj h
      exact absurd (htail ▸ List.mem_append_right s List.mem_cons_self) ht'
    | cons d' s' =>
      obtain ⟨rfl, htail⟩ := List.cons.inj h
      obtain ⟨rfl, rfl⟩ := ih htail
      exact ⟨rfl, rfl⟩

theorem natText_inj {m n : Nat} (h : natText m = natText n) : m = n := by
  have := congrArg parseNat h
  rw [parseNat_natText, parseNat_natText] at this
  exact Option.some.inj this

/-- The part of a guest says its name and its numbers, whatever the name. -/
theorem part_inj {r l : Reported} (h : r.part = l.part) : r.guest.name = l.guest.name ∧
    r.result.totalUpdates = l.result.totalUpdates ∧ r.result.securityUpdates = l.result.securityUpdates := by
  have hcolon : ∀ n, ':' ∉ natText n := fun n => not_mem_natText (by decide)
  unfold Reported.part at h
  rw [← List.cons_append, ← List.append_assoc, ← List.cons_append, ← List.append_assoc] at h
  obtain ⟨hfront, hsecurity⟩ := append_cons_inj (hcolon _) (hcolon _) h
  obtain ⟨hname, htotal⟩ := append_cons_inj (hcolon _) (hcolon _) hfront
  exact ⟨hname, natText_inj htotal, natText_inj hsecurity⟩

theorem exists_of_parts_eq {report sent : List Reported} (h : fingerprintParts report = fingerprintParts sent)
    {r : Reported} (hr : r ∈ report) : ∃ l ∈ sent, r.part = l.part := by
  have hmem : r.part ∈ fingerprintParts report := (List.mem_insertionSort _).2 (List.mem_map_of_mem hr)
  rw [h] at hmem
  obtain ⟨l, hl, heq⟩ := List.mem_map.1 ((List.mem_insertionSort _).1 hmem)
  exact ⟨l, hl, heq.symm⟩

theorem mem_triples {report : List Reported} {id : Nat} {version : Text × Text} :
    (id, version) ∈ triples report ↔ ∃ r ∈ report, r.guest.id = id ∧ version ∈ r.packages.map Package.version := by
  simp only [triples, List.mem_flatMap, List.mem_map, Prod.mk.injEq]
  constructor
  · rintro ⟨r, hr, row, hrow, hid, hversion⟩
    exact ⟨r, hr, hid, row, hrow, hversion⟩
  · rintro ⟨r, hr, hid, row, hrow, hversion⟩
    exact ⟨r, hr, row, hrow, hid, hversion⟩

/-- Reports that are told apart and have the same fingerprint are about the same packages. -/
theorem TellsApart.triples_iff {report sent : List Reported} (h : TellsApart report sent)
    (heq : fingerprint report = fingerprint sent) (triple : Nat × Text × Text) :
    triple ∈ triples report ↔ triple ∈ triples sent := by
  have hparts := h.digest heq
  obtain ⟨id, version⟩ := triple
  rw [mem_triples, mem_triples]
  constructor
  · rintro ⟨r, hr, rfl, hversion⟩
    obtain ⟨l, hl, hpart⟩ := exists_of_parts_eq hparts hr
    obtain ⟨hname, htotal, hsecurity⟩ := part_inj hpart
    obtain ⟨hid, hversions⟩ := h.numbers hparts r hr l hl hname htotal hsecurity
    exact ⟨l, hl, hid.symm, (hversions version).1 hversion⟩
  · rintro ⟨l, hl, rfl, hversion⟩
    obtain ⟨r, hr, hpart⟩ := exists_of_parts_eq hparts.symm hl
    obtain ⟨hname, htotal, hsecurity⟩ := part_inj hpart.symm
    obtain ⟨hid, hversions⟩ := h.numbers hparts r hr l hl hname htotal hsecurity
    exact ⟨r, hr, hid, (hversions version).2 hversion⟩

/-! ### Skips -/

/-- The stored fingerprint is that of the last report sent, and every skip was of a report about the same packages. -/
structure Remembered (w : World) : Prop where
  stored : w.settings.guestUpdatesLastNotifiedHash = w.last.map fingerprint
  skips : ∀ skip ∈ w.skips, ∃ sent, skip.2 = some sent ∧ ∀ triple, triple ∈ triples skip.1 ↔ triple ∈ triples sent

theorem fingerprint_ne_nil (report : List Reported) : fingerprint report ≠ [] := by
  have := Sha256.length_hexdigest (Utf8.encode (joinText "|".toList (fingerprintParts report)))
  intro h
  rw [← fingerprint, h] at this
  cases this

theorem decision_skip {settings : Settings} {guests : List Guest} {results : List Found} {report : List Reported}
    (h : sendUpdateNotification settings guests results = some (.skip report)) :
    notifyUpdatesEnabled settings = true ∧ guestsWithUpdates settings guests results = some report ∧
      settings.guestUpdatesLastNotifiedHash = some (fingerprint report) := by
  unfold sendUpdateNotification at h
  split at h
  · cases h
  · rename_i hon
    obtain ⟨report', hreport, hdecision⟩ := Option.map_eq_some_iff.1 h
    split at hdecision
    · cases hdecision
    · split at hdecision
      · rename_i hhash
        cases hdecision
        refine ⟨by simpa using hon, hreport, ?_⟩
        cases hstored : settings.guestUpdatesLastNotifiedHash with
        | none =>
          rw [hstored] at hhash
          exact absurd hhash (fingerprint_ne_nil report)
        | some stored =>
          rw [hstored] at hhash
          exact congrArg some hhash.symm
      · cases hdecision

theorem Remembered.decided {w : World} (h : Remembered w) (jobs : Nat → List Found) (sent : Bool) {decision : Decision}
    (hskip : ∀ report, decision = .skip report →
      ∃ last, w.last = some last ∧ ∀ triple, triple ∈ triples report ↔ triple ∈ triples last) :
    Remembered (World.decided { w with jobs := jobs } sent decision) := by
  cases decision with
  | quiet => exact ⟨h.stored, h.skips⟩
  | skip report =>
    refine ⟨h.stored, fun skip hmem => ?_⟩
    rcases List.mem_append.1 hmem with hmem | hmem
    · exact h.skips skip hmem
    · obtain rfl := List.mem_singleton.1 hmem
      exact hskip report rfl
  | send report embed =>
    cases sent with
    | false => exact ⟨h.stored, h.skips⟩
    | true => exact ⟨rfl, h.skips⟩

theorem Remembered.step {w w' : World} {a : Activity} (h : Remembered w) (htells : a.tells w)
    (hs : w.step a = some w') : Remembered w' := by
  cases a with
  | scan job guest now out =>
    cases out with
    | none =>
      obtain rfl := Option.some.inj hs
      exact h
    | some out =>
      obtain rfl := Option.some.inj hs
      exact ⟨h.stored, h.skips⟩
  | notify job sent =>
    obtain rfl := Option.some.inj hs
    cases hdecision : sendUpdateNotification w.settings w.db.guests (w.jobs job) with
    | none => exact ⟨h.stored, h.skips⟩
    | some decision =>
      refine h.decided _ sent fun report hskip => ?_
      subst hskip
      obtain ⟨hon, hreport, hhash⟩ := decision_skip hdecision
      -- what is stored is the fingerprint of the last report sent
      obtain ⟨last, hlast, hfingerprint⟩ := Option.map_eq_some_iff.1 (h.stored.symm.trans hhash)
      exact ⟨last, hlast, (htells hon report hreport last hlast).triples_iff hfingerprint.symm⟩
  | configure | edit =>
    obtain rfl := Option.some.inj hs
    exact ⟨h.stored, h.skips⟩

/-- In every run whose notifications are told apart from the last one sent, a notification is skipped only when the pending
packages it reports are those of the last one sent. -/
theorem skips_unchanged {w : World} (h : notifying.Reach (fun w a => a.tells w) w)
    {report : List Reported} {last : Option (List Reported)} (hskip : (report, last) ∈ w.skips) :
    ∃ sent, last = some sent ∧ ∀ triple, triple ∈ triples report ↔ triple ∈ triples sent := by
  have hremembered : Remembered w := by
    refine System.Reach.invariant (I := Remembered) ?_ ?_ h
    · rintro w ⟨hhash, hlast, hskips⟩
      refine ⟨by rw [hhash, hlast]; rfl, fun skip hmem => ?_⟩
      rw [hskips] at hmem
      cases hmem
    · intro w a w' hw htells hs
      exact hw.step htells hs
  exact hremembered.skips _ hskip

/-- For concrete runs: a report of the same guests with the same packages. -/
theorem tells_of_same {w : World} {job : Nat} {sent : Bool}
    (h : (guestsWithUpdates w.settings w.db.guests (w.jobs job)).all (fun report => w.last.all fun last =>
      decide (fingerprintParts report = fingerprintParts last) && report.all fun r => last.all fun l =>
        decide (r.guest.id = l.guest.id) &&
          decide (r.packages.map Package.version = l.packages.map Package.version)) = true) :
    (Activity.notify job sent).tells w := by
  intro _ report hreport last hlast
  rw [Option.mem_def.1 hreport, Option.all_some, Option.mem_def.1 hlast, Option.all_some, Bool.and_eq_true,
    decide_eq_true_eq] at h
  refine ⟨fun _ => h.1, fun _ r hr l hl _ _ _ => ?_⟩
  have hsame := List.all_eq_true.1 (List.all_eq_true.1 h.2 r hr) l hl
  rw [Bool.and_eq_true, decide_eq_true_eq, decide_eq_true_eq] at hsame
  refine ⟨hsame.1, fun version => ?_⟩
  rw [hsame.2]

def webWorld : World := { db := { guests := [⟨1, "web".toList, "lxc".toList, [], .unknown, none⟩] } }

def curlListed : Output := ⟨some "curl/stable 8.5-1 amd64 [upgradable from: 8.4-1]".toList, none, none⟩

def opensslListed : Output := ⟨some "openssl/stable 3.0-2 amd64 [upgradable from: 3.0-1]".toList, none, none⟩

/-- The same package found again is skipped. -/
theorem same_package_skipped : ∃ w : World, w.skips.length = 1 ∧ ∀ skip ∈ w.skips,
    ∃ sent, skip.2 = some sent ∧ ∀ triple, triple ∈ triples skip.1 ↔ triple ∈ triples sent := by
  have h0 : notifying.Reach (fun w a => a.tells w) webWorld := System.Reach.init ⟨rfl, rfl, rfl⟩
  have h1 := h0.next (.scan 1 1 0 (some curlListed)) trivial rfl
  have h2 := h1.next (.notify 1 true) (tells_of_same (by decide +kernel)) rfl
  have h3 := h2.next (.scan 1 1 1 (some curlListed)) trivial rfl
  have h4 := h3.next (.notify 1 true) (tells_of_same (by decide +kernel)) rfl
  exact ⟨_, by decide +kernel, fun skip hskip => skips_unchanged h4 hskip⟩

/-- One package exchanged for another is not notified, with or without a scan between that finds the guest up to date. -/
theorem exchanged_package_skipped :
    ((notifying.exec webWorld [.scan 1 1 0 (some curlListed), .notify 1 true, .scan 1 1 1 (some opensslListed),
        .notify 1 true]).map fun w => w.skips.flatMap fun skip => [triples skip.1, skip.2.elim [] triples]) =
      some [[(1, "openssl".toList, "3.0-2".toList)], [(1, "curl".toList, "8.5-1".toList)]] ∧
    ((notifying.exec webWorld [.scan 1 1 0 (some curlListed), .notify 1 true, .scan 1 1 1 (some ⟨none, none, none⟩),
        .notify 1 true, .scan 1 1 2 (some opensslListed), .notify 1 true]).map fun w =>
          w.skips.flatMap fun skip => [triples skip.1, skip.2.elim [] triples]) =
      some [[(1, "openssl".toList, "3.0-2".toList)], [(1, "curl".toList, "8.5-1".toList)]] := by
  refine ⟨?_, ?_⟩
  · decide +kernel
  · decide +kernel

end ProxmoxTool.Scans
