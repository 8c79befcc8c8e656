import ProxmoxTool.Apps.Validate
import ProxmoxTool.Lib.System
import Mathlib.Data.List.Lex

/-!
# Unattended updates of the tool

`_check_app_update` of `core/scheduler.py` starts `update.sh` when the tag of the latest release is another text than the running
version; `_version_gt` of `apps/utils.py`, which the other applications ask, is not asked.  The running version is what the `VERSION`
file had at the last start of the service.

In a run, checks come in any number with any tags.  What an update does to the checked-out code, and when it restarts the service, is
left open: it may change `VERSION` to anything, any number of times, and end with any status.  `forward_run` says which versions keep
the tool from going back and from updating again and again.
-/

namespace ProxmoxTool.SelfUpdate

/-! ### Versions -/

section

variable (u : CharTable)

/-- `_validate_release_tag` raises nothing; what follows the second number may be anything of the last class. -/
def validReleaseTag (tag : Text) : Bool :=
  let version := if tag.head? = some 'v' then tag.tail else tag
  let inLast := fun c => u.isWord c || c = '-' || c = '.'
  tag.length ≤ 64 && !(version.takeWhile u.isDecimal).isEmpty &&
    match version.dropWhile u.isDecimal with
    | '.' :: c :: rest => u.isDecimal c && rest.all inLast
    | _ => false

/-- The pattern of `_version_gt`, with `int` of its three numbers; `.` matches no end of a line, and `$` matches before a last one. -/
def parseVersion (int : Text → ℕ) (version : Text) : Option ((ℕ × ℕ × ℕ) × Option Text) :=
  let v := ((version.dropWhile (· = 'v')).splitOn '+').headD []
  let major := v.takeWhile u.isDecimal
  match v.dropWhile u.isDecimal with
  | '.' :: v =>
    let minor := v.takeWhile u.isDecimal
    match v.dropWhile u.isDecimal with
    | '.' :: v =>
      let patch := v.takeWhile u.isDecimal
      let rest := v.dropWhile u.isDecimal
      let rest := if rest.getLast? = some '\n' then rest.dropLast else rest
      if major.isEmpty || minor.isEmpty || patch.isEmpty then none
      else match rest with
        | [] => some ((int major, int minor, int patch), none)
        | '-' :: pre => if pre.isEmpty || pre.contains '\n' then none else some ((int major, int minor, int patch), some pre)
        | _ => none
    | _ => none
  | _ => none

/-- `_version_gt(candidate, current)`. -/
def versionGt (int : Text → ℕ) (candidate current : Text) : Bool :=
  match parseVersion u int candidate, parseVersion u int current with
  | some ((a, b, c), pre), some ((a', b', c'), pre') =>
    if (a, b, c) ≠ (a', b', c') then a' < a || a' = a && (b' < b || b' = b && c' < c)
    else match pre, pre' with
      | none, none => false
      | none, some _ => true
      | some _, none => false
      | some pre, some pre' => decide (pre' < pre)
  | _, _ => false

end

/-! ### `_check_app_update` -/

structure Settings where
  repo : Text
  autoUpdate : Text
  branch : Text

/-- Letters, digits and four other characters up to a `$`, with no dash in front. -/
def validBranch (branch : Text) : Bool :=
  let name := if branch.getLast? = some '\n' then branch.dropLast else branch
  !name.isEmpty && name.all (fun c => c.isAlphanum || c ∈ ['.', '_', '-', '/']) && branch.head? ≠ some '-'

/-- The latest release by its tag, where there is a repository, and the request and the check of the tag raise nothing. -/
def latestRelease (u : CharTable) (repo : Text) (tag : Option Text) : Option Text :=
  if repo = [] then none
  else match tag with
    | none => none
    | some tag => if tag ≠ [] ∧ validReleaseTag u tag = false then none else some (tag.dropWhile (· = 'v'))

/-- The arguments with which `_check_app_update` starts `update.sh`, if it does; `tag` is the answer for the latest release. -/
def checkAppUpdate (u : CharTable) (settings : Settings) (scriptExists : Bool) (running : Text) (tag : Option Text) :
    Option (List Text) :=
  match latestRelease u settings.repo tag with
  | none => none
  | some latest =>
    if settings.autoUpdate ≠ "true".toList then none
    else if settings.branch ≠ [] then
      if validBranch settings.branch && scriptExists then some ["--branch".toList, settings.branch] else none
    else if running = "unknown".toList then none
    else if latest = [] ∨ latest = running then none
    else if scriptExists then some [] else none

/-- `APP_VERSION` of a service that starts with this `VERSION` file. -/
def appVersion : Option Text → Text
  | none => "unknown".toList
  | some content => strip content

/-! ### Runs -/

inductive Entry
  | checked (latest : Text)
  | started (latest running : Text)
  | succeeded (target : Text)
deriving DecidableEq

/-- `updates` has the release for which each running `update.sh` was started; the log has the latest entry first. -/
structure State where
  running : Text
  version : Option Text
  updates : List Text := []
  log : List Entry := []
deriving DecidableEq

inductive Event
  | check (scriptExists : Bool) (tag : Option Text)
  /-- Update `i` leaves other code checked out. -/
  | checkout (i : ℕ) (version : Option Text)
  | restart
  | finish (i : ℕ) (status : ℕ)

section

variable (u : CharTable) (settings : Settings)

def State.check (s : State) (scriptExists : Bool) (tag : Option Text) : State :=
  match latestRelease u settings.repo tag with
  | none => s
  | some latest =>
    let s := { s with log := .checked latest :: s.log }
    if (checkAppUpdate u settings scriptExists s.running tag).isSome then
      { s with updates := s.updates ++ [latest], log := .started latest s.running :: s.log }
    else s

def State.finish (s : State) (i : ℕ) (status : ℕ) : Option State :=
  (s.updates[i]?).map fun target =>
    { s with updates := s.updates.eraseIdx i, log := if status = 0 then .succeeded target :: s.log else s.log }

def step (s : State) : Event → Option State
  | .check scriptExists tag => some (s.check u settings scriptExists tag)
  | .checkout i version => (s.updates[i]?).map fun _ => { s with version }
  | .restart => some { s with running := appVersion s.version }
  | .finish i status => s.finish i status

/-- A service that has just started. -/
def system : System State Event where
  init s := ∃ version, s = { running := appVersion version, version }
  step := step u settings

end

section

variable (Newer : Text → Text → Prop)

/-- An update to this release has succeeded, and no check has seen a newer one since. -/
def Open (target : Text) : List Entry → Prop
  | [] => False
  | .checked latest :: log => Open target log ∧ ¬Newer latest target
  | .started _ _ :: log => Open target log
  | .succeeded target' :: log => target' = target ∨ Open target log

/-- Every update was started for a release newer than the running version, and not while an earlier success was the newest release. -/
def Lawful : List Entry → Prop
  | [] => True
  | .checked _ :: log => Lawful log
  | .started latest running :: log => Newer latest running ∧ (∀ target, ¬Open Newer target log) ∧ Lawful log
  | .succeeded _ :: log => Lawful log

variable (u : CharTable) (settings : Settings)

/-- The release is one to update to, by the settings and the running version. -/
def Due (scriptExists : Bool) (running latest : Text) : Prop :=
  scriptExists = true ∧ settings.autoUpdate = "true".toList ∧
    if settings.branch = [] then latest ≠ [] ∧ latest ≠ running ∧ running ≠ "unknown".toList else validBranch settings.branch = true

instance (scriptExists : Bool) (running latest : Text) : Decidable (Due settings scriptExists running latest) :=
  inferInstanceAs (Decidable (_ ∧ _ ∧ ite _ _ _))

/-- At a check, a release that is due is newer than the running version, and no update is running; and an update that succeeds has left the
release it was started for checked out and running. -/
def MovesForward (s : State) : Event → Prop
  | .check scriptExists tag => ∀ latest ∈ latestRelease u settings.repo tag, Due settings scriptExists s.running latest →
      s.updates = [] ∧ Newer latest s.running
  | .finish i status => status = 0 → ∀ target ∈ s.updates[i]?, appVersion s.version = target ∧ s.running = target
  | _ => True

instance decidableMovesForward [∀ a b, Decidable (Newer a b)] (s : State) : (e : Event) → Decidable (MovesForward Newer u settings s e)
  | .check _ tag => inferInstanceAs (Decidable (∀ latest ∈ latestRelease u settings.repo tag, _ → _))
  | .checkout _ _ => isTrue trivial
  | .restart => isTrue trivial
  | .finish _ _ => inferInstanceAs (Decidable (_ → _))

/-- The release of the last success is checked out and running until a newer one is seen. -/
structure Inv (s : State) : Prop where
  lawful : Lawful Newer s.log
  settled : ∀ target, Open Newer target s.log → s.updates = [] ∧ appVersion s.version = target ∧ s.running = target
  single : s.updates.length ≤ 1

variable {Newer u settings} {s : State}

theorem due_of_checkAppUpdate {scriptExists : Bool} {running latest : Text} {tag : Option Text}
    (htag : latestRelease u settings.repo tag = some latest) (h : (checkAppUpdate u settings scriptExists running tag).isSome = true) :
    Due settings scriptExists running latest := by
  unfold checkAppUpdate at h
  rw [htag] at h
  dsimp only at h
  split_ifs at h with hauto hbranch hvalid hunknown hsame hscript
  · cases h
  · obtain ⟨hname, hscript⟩ := Bool.and_eq_true_iff.1 hvalid
    exact ⟨hscript, not_not.1 hauto, by rwa [if_neg hbranch]⟩
  · cases h
  · cases h
  · cases h
  · obtain ⟨hne, hdiffers⟩ := not_or.1 hsame
    exact ⟨hscript, not_not.1 hauto, by rw [if_pos (not_not.1 hbranch)]; exact ⟨hne, hdiffers, hunknown⟩⟩
  · cases h

theorem Inv.check (hI : Inv Newer s) {scriptExists : Bool} {tag : Option Text}
    (hok : MovesForward Newer u settings s (.check scriptExists tag)) : Inv Newer (s.check u settings scriptExists tag) := by
  unfold State.check
  cases htag : latestRelease u settings.repo tag with
  | none => exact hI
  | some latest =>
    dsimp only
    split
    · rename_i hstart
      obtain ⟨hidle, hnew⟩ := hok latest htag (due_of_checkAppUpdate htag hstart)
      -- what has succeeded is running, so the new release is newer than that
      have hclosed : ∀ target, ¬Open Newer target (.checked latest :: s.log) := by
        rintro target ⟨hopen, hnot⟩
        rw [← (hI.settled target hopen).2.2] at hnot
        exact hnot hnew
      exact ⟨⟨hnew, hclosed, hI.lawful⟩, fun target hopen => absurd hopen (hclosed target), by simp [hidle]⟩
    · exact ⟨hI.lawful, fun target hopen => hI.settled target hopen.1, hI.single⟩

theorem Inv.finish (hI : Inv Newer s) {i status : ℕ} (hok : MovesForward Newer u settings s (.finish i status)) {s' : State}
    (hstep : s.finish i status = some s') : Inv Newer s' := by
  obtain ⟨target, htarget, rfl⟩ := Option.map_eq_some_iff.1 hstep
  have hsome := List.getElem?_eq_some_iff.1 htarget
  have hidle : s.updates.eraseIdx i = [] := by
    apply List.eq_nil_of_length_eq_zero
    rw [List.length_eraseIdx_of_lt hsome.1]
    have := hI.single
    omega
  -- while an update runs, no success waits for a newer release
  have hclosed : ∀ target, ¬Open Newer target s.log := by
    intro target' hopen
    have hnone := (hI.settled target' hopen).1
    rw [hnone] at htarget
    cases htarget
  by_cases hstatus : status = 0
  · rw [if_pos hstatus]
    refine ⟨hI.lawful, ?_, by simp [hidle]⟩
    rintro target' (rfl | hopen)
    · exact ⟨hidle, hok hstatus target htarget⟩
    · exact absurd hopen (hclosed target')
  · rw [if_neg hstatus]
    exact ⟨hI.lawful, fun target' hopen => absurd hopen (hclosed target'), by simp [hidle]⟩

theorem Inv.step (hI : Inv Newer s) {e : Event} (hok : MovesForward Newer u settings s e) {s' : State}
    (hstep : step u settings s e = some s') : Inv Newer s' := by
  cases e with
  | check scriptExists tag =>
    cases hstep
    exact hI.check hok
  | checkout i version =>
    obtain ⟨target, htarget, rfl⟩ := Option.map_eq_some_iff.1 hstep
    refine ⟨hI.lawful, fun target' hopen => ?_, hI.single⟩
    have hnone := (hI.settled target' hopen).1
    rw [hnone] at htarget
    cases htarget
  | restart =>
    cases hstep
    refine ⟨hI.lawful, fun target hopen => ?_, hI.single⟩
    obtain ⟨hidle, hversion, -⟩ := hI.settled target hopen
    exact ⟨hidle, hversion, hversion⟩
  | finish i status => exact hI.finish hok hstep

/-- For any order of versions: a run whose steps move forward starts only updates to newer releases, and stops after a success. -/
theorem forward_run (h : (system u settings).Reach (MovesForward Newer u settings) s) : Lawful Newer s.log := by
  have hI : Inv Newer s := by
    refine h.invariant ?_ fun s e s' hI hok hstep => hI.step hok hstep
    rintro s ⟨version, rfl⟩
    exact ⟨trivial, fun target hopen => hopen.elim, Nat.zero_le 1⟩
  exact hI.lawful

end

/-! ### A release behind `main` -/

def asciiChars : CharTable where
  alnum _ := false
  decimal _ := false

def asciiInt (t : Text) : ℕ := Nat.ofDigitChars 10 t 0

/-- The order of versions that the other applications ask. -/
def NewerVersion (candidate current : Text) : Prop := versionGt asciiChars asciiInt candidate current = true

instance (candidate current : Text) : Decidable (NewerVersion candidate current) := inferInstanceAs (Decidable (_ = true))

def autoSettings : Settings where
  repo := "owner/mcat".toList
  autoUpdate := "true".toList
  branch := []

def v021 : Option Text := some "v0.2.1".toList

def oneUpdate : List Event :=
  [.check true v021, .checkout 0 (some "0.2.1\n".toList), .restart, .finish 0 0, .check true v021]

theorem forward_run_once :
    Lawful NewerVersion
      [.checked "0.2.1".toList, .succeeded "0.2.1".toList, .started "0.2.1".toList "0.2.0".toList, .checked "0.2.1".toList] := by
  have hinit : (system asciiChars autoSettings).Reach (MovesForward NewerVersion asciiChars autoSettings)
      { running := "0.2.0".toList, version := some "0.2.0\n".toList } := .init ⟨some "0.2.0\n".toList, by decide⟩
  have hrun : ((system asciiChars autoSettings).guarded (MovesForward NewerVersion asciiChars autoSettings)).exec
      { running := "0.2.0".toList, version := some "0.2.0\n".toList } oneUpdate = some
        { running := "0.2.1".toList, version := some "0.2.1\n".toList
          log := [.checked "0.2.1".toList, .succeeded "0.2.1".toList, .started "0.2.1".toList "0.2.0".toList, .checked "0.2.1".toList] } := by
    decide
  exact forward_run (hinit.guarded_exec hrun)

/-- `main` is at 0.3.0 and the latest release is 0.2.1: the update that a service of 0.3.0 starts succeeds, and the next check starts it
again. -/
theorem release_behind_main :
    ∃ s, (system asciiChars autoSettings).Reachable s ∧
      s.log = [.started "0.2.1".toList "0.3.0".toList, .checked "0.2.1".toList, .succeeded "0.2.1".toList,
        .started "0.2.1".toList "0.3.0".toList, .checked "0.2.1".toList] ∧ ¬Lawful NewerVersion s.log := by
  have hinit : (system asciiChars autoSettings).Reachable { running := "0.3.0".toList, version := some "0.3.0\n".toList } :=
    .init ⟨some "0.3.0\n".toList, by decide⟩
  have hstart := hinit.next (.check true v021) trivial rfl
  have hpull := hstart.next (.checkout 0 (some "0.3.0\n".toList)) trivial rfl
  have hrestart := hpull.next .restart trivial rfl
  have hdone := hrestart.next (.finish 0 0) trivial rfl
  have hagain := hdone.next (.check true v021) trivial rfl
  refine ⟨_, hagain, by decide, fun hlawful => ?_⟩
  exact absurd hlawful.1 (by decide)

end ProxmoxTool.SelfUpdate
