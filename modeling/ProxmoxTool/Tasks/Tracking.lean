import Mathlib.Data.List.Flatten
import ProxmoxTool.Lib.System
import ProxmoxTool.Lib.Text

/-!
# Proxmox task tracking

The model of `ProxmoxJob` and `_poll_proxmox_task` in `routes/api.py` and of `get_task_log` and `get_task_status` in
`clients/proxmox_api.py`.  A task writes the lines of its log and stops at some point; the poller reads the log page by page
and asks for the status in between, and a user may ask for the task to be cancelled at any time.

The poller keeps the number of the next line in `lastLogLine` and uses it as the number of lines to skip, which is one less:
the line after the first page is never read (`whole_log_shown_iff`).
-/

namespace ProxmoxTool.Tasks

structure ProxmoxJob where
  log : Text := []
  running : Bool := true
  success : Option Bool := none
  cancelRequested : Bool := false
  cancelled : Bool := false
  lastLogLine : Nat := 0

def ProxmoxJob.append (job : ProxmoxJob) (text : Text) : ProxmoxJob := { job with log := job.log ++ text }

def ProxmoxJob.finish (job : ProxmoxJob) (success : Bool) : ProxmoxJob :=
  { job with
    running := false
    success := some success
    cancelled := job.cancelled || (!success && job.cancelRequested) }

/-- A line as Proxmox returns it: its number, counted from 1, and its text. -/
structure LogLine where
  n : Nat
  t : Text

/-- The page Proxmox returns: at most `limit` lines of the log, after the first `start`. -/
def getTaskLog (taskLog : List Text) (start limit : Nat) : List LogLine :=
  (((taskLog.drop start).take limit).zipIdx (start + 1)).map fun e => ⟨e.2, e.1⟩

/-- The `limit` of `get_task_log` when none is given. -/
def taskLogLimit : Nat := 1000

def proxmoxTaskPollMaxStatusErrors : Nat := 30

inductive Phase
  | starting | sleeping | asking | done
  deriving DecidableEq

/-- How the poller ended: whether the task had stopped, and what it has appended last. -/
structure Ending where
  stopped : Bool
  text : Text

/-- `taskLog` and `exit` are the task's own; the rest is the poller's.  Two fields are for the statements only: whether a log
request has failed, and `seenAt`, the length of the task's log at the first log request that returned a line. -/
structure State where
  taskLog : List Text := []
  exit : Option Text := none
  job : ProxmoxJob := {}
  phase : Phase := .starting
  statusErrors : Nat := 0
  ended : Option Ending := none
  logFailed : Bool := false
  seenAt : Option Nat := none

/-- What the poller finds before its loop. -/
inductive Beginning
  | client
  | noHost
  | raised (e : Text)

/-- A step of the task, of a user or of the poller. -/
inductive Event
  | write (line : Text)
  | stop (exitStatus : Text)
  | cancel
  | start (beginning : Beginning)
  | deadline
  | log
  | logFails
  | status
  | statusFails (e : Text)

/-- The poller ends: it appends `text` and finishes the job. -/
def conclude (s : State) (stopped : Bool) (text : Text) (success : Bool) : State :=
  { s with phase := .done, job := (s.job.append text).finish success, ended := some ⟨stopped, text⟩ }

def readLine (job : ProxmoxJob) (line : LogLine) : ProxmoxJob :=
  let job := if line.t ≠ [] then job.append (line.t ++ ['\n']) else job
  if job.lastLogLine ≤ line.n then { job with lastLogLine := line.n + 1 } else job

/-- The log request of an iteration that succeeds. -/
def readLog (s : State) : State :=
  let page := getTaskLog s.taskLog s.job.lastLogLine taskLogLimit
  { s with
    job := page.foldl readLine s.job
    phase := .asking
    seenAt := s.seenAt.or (if page.isEmpty then none else some s.taskLog.length) }

/-- The status request of an iteration that succeeds. -/
def readStatus (s : State) : State :=
  match s.exit with
  | none => { s with phase := .sleeping, statusErrors := 0 }
  | some exitStatus =>
    if exitStatus = "OK".toList then conclude s true [] true
    else if s.job.cancelRequested then conclude s true "\n[Cancelled by user]\n".toList false
    else conclude s true ("\nTask failed: ".toList ++ exitStatus ++ ['\n']) false

/-- The status request of an iteration that raises `e`. -/
def statusError (s : State) (e : Text) : State :=
  if proxmoxTaskPollMaxStatusErrors ≤ s.statusErrors + 1 then
    conclude s false ("\n[Error] Lost contact with the Proxmox task: ".toList ++ e ++ ['\n']) false
  else { s with phase := .sleeping, statusErrors := s.statusErrors + 1 }

/-- What precedes the loop of `_poll_proxmox_task`. -/
def startPolling (s : State) : Beginning → State
  | .client => { s with phase := .sleeping }
  | .noHost => conclude s false "\n[Error] Proxmox host is no longer available\n".toList false
  | .raised e => conclude s false ("\n[Error] ".toList ++ e ++ ['\n']) false

def step (s : State) : Event → Option State
  | .write line => if s.exit = none then some { s with taskLog := s.taskLog ++ [line] } else none
  | .stop exitStatus => if s.exit = none then some { s with exit := some exitStatus } else none
  | .cancel => some (if s.job.running then { s with job := { s.job with cancelRequested := true } } else s)
  | .start beginning => if s.phase = .starting then some (startPolling s beginning) else none
  | .deadline =>
    if s.phase = .sleeping then
      some (conclude s false "\n[Error] Timed out waiting for the Proxmox task to finish.\n".toList false)
    else none
  | .log => if s.phase = .sleeping then some (readLog s) else none
  | .logFails => if s.phase = .sleeping then some { s with phase := .asking, logFailed := true } else none
  | .status => if s.phase = .asking then some (readStatus s) else none
  | .statusFails e => if s.phase = .asking then some (statusError s e) else none

/-- A job that has just been started. -/
def system : System State Event where
  init s := s = {}
  step := step

/-- Lines as the job shows them. -/
def render (lines : List Text) : Text := lines.flatMap (· ++ ['\n'])

/-- What the poller has appended at its end, nothing before. -/
def closing (s : State) : Text := (s.ended.map Ending.text).getD []

/-- The job shows the whole log of the task: every line of it once and in order, and then only what the poller itself says
at its end. -/
def WholeLog (s : State) : Prop := s.job.log = render s.taskLog ++ closing s

instance (s : State) : Decidable (WholeLog s) := inferInstanceAs (Decidable (_ = _))

/-! ### Rendered lines -/

@[simp] theorem render_append (lines lines' : List Text) : render (lines ++ lines') = render lines ++ render lines' :=
  List.flatMap_append

theorem length_render (lines : List Text) : (render lines).length = lines.flatten.length + lines.length := by
  induction lines with
  | nil => rfl
  | cons line lines ih =>
    have h : render (line :: lines) = line ++ ['\n'] ++ render lines := rfl
    simp only [h, List.length_append, ih, List.flatten_cons, List.length_cons, List.length_nil]
    omega

/-- A text tells how many of the lines it shows. -/
theorem eq_of_render_eq {lines lines' : List Text} (h : List.Sublist lines lines') (hr : render lines = render lines') :
    lines = lines' := by
  have hflat : lines.flatten.length ≤ lines'.flatten.length := h.flatten.length_le
  have hlen := congrArg List.length hr
  rw [length_render, length_render] at hlen
  exact h.eq_of_length (Nat.le_antisymm h.length_le (by omega))

/-! ### One page -/

/-- Reading the lines numbered from `m` on shows those with a text, and moves on to the number after them. -/
theorem foldl_readLine (lines : List Text) {job : ProxmoxJob} {m : Nat} (hm : job.lastLogLine ≤ m) :
    ((lines.zipIdx m).map fun e => (⟨e.2, e.1⟩ : LogLine)).foldl readLine job =
      { job with
        log := job.log ++ render (lines.filter (· ≠ []))
        lastLogLine := if lines = [] then job.lastLogLine else m + lines.length } := by
  induction lines generalizing job m with
  | nil => simp [render]
  | cons line lines ih =>
    have hread : readLine job ⟨m, line⟩ =
        { job with log := job.log ++ render ([line].filter (· ≠ [])), lastLogLine := m + 1 } := by
      by_cases ht : line = [] <;> simp [readLine, ProxmoxJob.append, render, ht, hm]
    rw [List.zipIdx_cons, List.map_cons, List.foldl_cons, hread, ih (Nat.le_refl _)]
    have hfilter : (line :: lines).filter (· ≠ []) = [line].filter (· ≠ []) ++ lines.filter (· ≠ []) := by
      rw [← List.filter_append]; rfl
    rw [hfilter, render_append, List.append_assoc]
    cases lines with
    | nil => simp
    | cons l ls => simp; omega

/-- What one log request shows, and where it leaves the cursor. -/
theorem readLog_job (s : State) :
    (readLog s).job = { s.job with
      log := s.job.log ++ render (((s.taskLog.drop s.job.lastLogLine).take taskLogLimit).filter (· ≠ []))
      lastLogLine := if (s.taskLog.drop s.job.lastLogLine).take taskLogLimit = [] then s.job.lastLogLine
        else s.job.lastLogLine + 1 + ((s.taskLog.drop s.job.lastLogLine).take taskLogLimit).length } :=
  foldl_readLine _ (Nat.le_succ _)

theorem readLog_seenAt (s : State) :
    (readLog s).seenAt = s.seenAt.or
      (if (s.taskLog.drop s.job.lastLogLine).take taskLogLimit = [] then none else some s.taskLog.length) := by
  have h : (getTaskLog s.taskLog s.job.lastLogLine taskLogLimit).isEmpty =
      decide ((s.taskLog.drop s.job.lastLogLine).take taskLogLimit = []) := by
    unfold getTaskLog
    cases (s.taskLog.drop s.job.lastLogLine).take taskLogLimit <;> rfl
  simp only [readLog, h, decide_eq_true_eq]

/-! ### The lines shown -/

/-- The lines `shown` when the cursor is at `cursor` and the first page was read from a log of `seenAt` lines: of the first
page all with a text, of the log after it some, in order, but never its first line. -/
def Shown (taskLog : List Text) (cursor : Nat) (shown : List Text) : Option Nat → Prop
  | none => cursor = 0 ∧ shown = []
  | some seenAt => 0 < seenAt ∧ seenAt ≤ taskLog.length ∧ min seenAt taskLogLimit < cursor ∧
      ∃ rest, shown = (taskLog.take (min seenAt taskLogLimit)).filter (· ≠ []) ++ rest ∧
        List.Sublist rest ((taskLog.take cursor).drop (min seenAt taskLogLimit + 1))

theorem Shown.write {taskLog : List Text} {cursor : Nat} {shown : List Text} {seenAt : Option Nat}
    (h : Shown taskLog cursor shown seenAt) (line : Text) : Shown (taskLog ++ [line]) cursor shown seenAt := by
  cases seenAt with
  | none => exact h
  | some k =>
    obtain ⟨hpos, hle, hcur, rest, hshown, hrest⟩ := h
    have hle' : k ≤ (taskLog ++ [line]).length := by rw [List.length_append]; omega
    refine ⟨hpos, hle', hcur, rest, ?_, hrest.trans (List.Sublist.drop ?_ _)⟩
    · rw [List.take_append_of_le_length (Nat.le_trans (Nat.min_le_left _ _) hle)]
      exact hshown
    · rw [List.take_append]
      exact List.sublist_append_left _ _

/-- A page read at the cursor follows what is shown. -/
theorem Shown.read {taskLog : List Text} {cursor : Nat} {shown page : List Text} {seenAt : Option Nat}
    (h : Shown taskLog cursor shown seenAt) (hpage : page = (taskLog.drop cursor).take taskLogLimit) (hne : page ≠ []) :
    Shown taskLog (cursor + 1 + page.length) (shown ++ page.filter (· ≠ [])) (seenAt.or (some taskLog.length)) := by
  have hcursor : cursor < taskLog.length := by
    by_contra hge
    exact hne (by rw [hpage, List.drop_eq_nil_of_le (by omega), List.take_nil])
  cases seenAt with
  | none =>
    obtain ⟨rfl, rfl⟩ := h
    rw [List.drop_zero] at hpage
    have hlen : page.length = min taskLogLimit taskLog.length := by rw [hpage, List.length_take]
    refine ⟨by omega, Nat.le_refl _, by omega, [], ?_, List.nil_sublist _⟩
    rw [List.append_nil, List.nil_append, hpage, Nat.min_comm, ← List.take_take, List.take_length]
  | some k =>
    obtain ⟨hpos, hle, hcur, rest, rfl, hrest⟩ := h
    refine ⟨hpos, hle, by omega, _, List.append_assoc _ _ _, ?_⟩
    -- what is before the cursor and the page are at the front of the log
    have hfront : taskLog.take cursor ++ page <+: taskLog.take (cursor + 1 + page.length) := by
      refine List.prefix_take_iff.2 ⟨?_, by rw [List.length_append, List.length_take]; omega⟩
      conv_rhs => rw [← List.take_append_drop cursor taskLog]
      exact (List.prefix_append_right_inj _).2 (hpage ▸ List.take_prefix _ _)
    have hdrop : (taskLog.take cursor).drop (min k taskLogLimit + 1) ++ page =
        (taskLog.take cursor ++ page).drop (min k taskLogLimit + 1) := by
      rw [List.drop_append_of_le_length (by rw [List.length_take]; omega)]
    have hsub : List.Sublist (rest ++ page.filter (· ≠ [])) ((taskLog.take cursor).drop (min k taskLogLimit + 1) ++ page) :=
      hrest.append List.filter_sublist
    rw [hdrop] at hsub
    exact hsub.trans (hfront.sublist.drop _)

/-- Nothing is shown twice, out of order or that the task has not written. -/
theorem Shown.sublist {taskLog : List Text} {cursor : Nat} {shown : List Text} {seenAt : Option Nat}
    (h : Shown taskLog cursor shown seenAt) : List.Sublist shown taskLog := by
  cases seenAt with
  | none => rw [h.2]; exact List.nil_sublist _
  | some k =>
    obtain ⟨-, -, -, rest, rfl, hrest⟩ := h
    have hrest' : List.Sublist rest (taskLog.drop (min k taskLogLimit)) :=
      (hrest.trans ((List.take_sublist _ _).drop _)).trans (List.drop_sublist_drop_left _ (Nat.le_succ _))
    have hfirst : List.Sublist ((taskLog.take (min k taskLogLimit)).filter (· ≠ [])) (taskLog.take (min k taskLogLimit)) :=
      List.filter_sublist
    have hboth := hfirst.append hrest'
    rwa [List.take_append_drop] at hboth

/-- All of the log is shown if every line of it has a text and the first page was all of it, and only then. -/
theorem Shown.eq_iff {taskLog : List Text} {cursor : Nat} {shown : List Text} {seenAt : Option Nat}
    (h : Shown taskLog cursor shown seenAt) :
    shown = taskLog ↔ (∀ line ∈ taskLog, line ≠ []) ∧
      (taskLog = [] ∨ taskLog.length ≤ taskLogLimit ∧ seenAt = some taskLog.length) := by
  cases seenAt with
  | none =>
    obtain ⟨-, rfl⟩ := h
    constructor
    · rintro rfl
      exact ⟨by simp, .inl rfl⟩
    · rintro ⟨-, h | h⟩
      · exact h.symm
      · exact absurd h.2 (by simp)
  | some k =>
    obtain ⟨hpos, hle, -, rest, rfl, hrest⟩ := h
    have hrestlen : rest.length ≤ taskLog.length - (min k taskLogLimit + 1) := by
      have := hrest.length_le
      rw [List.length_drop, List.length_take] at this
      omega
    have hfirst : ((taskLog.take (min k taskLogLimit)).filter (· ≠ [])).length ≤ min k taskLogLimit :=
      Nat.le_trans (List.length_filter_le _ _) (by rw [List.length_take]; omega)
    constructor
    · intro hall
      have hlen := congrArg List.length hall
      rw [List.length_append] at hlen
      have hk : taskLog.length ≤ min k taskLogLimit := by omega
      refine ⟨?_, .inr ⟨by omega, by rw [show k = taskLog.length by omega]⟩⟩
      have hnil : rest = [] := List.eq_nil_of_length_eq_zero (by omega)
      rw [hnil, List.append_nil, List.take_of_length_le hk] at hall
      exact fun line hl => by simpa using List.filter_eq_self.1 hall line hl
    · rintro ⟨htext, rfl | ⟨hlimit, hk⟩⟩
      · exact absurd hle (by simp; omega)
      · obtain rfl : k = taskLog.length := Option.some.inj hk
        have hnil : rest = [] := List.eq_nil_of_length_eq_zero (by omega)
        rw [hnil, List.append_nil, List.take_of_length_le (by omega)]
        exact List.filter_eq_self.2 fun line hl => by simpa using htext line hl

/-! ### Whole runs -/

/-- The job shows lines of the task's log and nothing else, until the poller ends. -/
structure Tracked (s : State) : Prop where
  shown : ∃ shown, Shown s.taskLog s.job.lastLogLine shown s.seenAt ∧ s.job.log = render shown ++ closing s
  ended : s.phase ≠ .done → s.ended = none

theorem Tracked.conclude {s : State} (h : Tracked s) (hp : s.phase ≠ .done) (stopped : Bool) (text : Text) (success : Bool) :
    Tracked (conclude s stopped text success) := by
  obtain ⟨shown, hshown, hlog⟩ := h.shown
  refine ⟨⟨shown, hshown, ?_⟩, fun hd => absurd rfl hd⟩
  have hclosing : closing s = [] := by rw [closing, h.ended hp]; rfl
  calc s.job.log ++ text = render shown ++ closing s ++ text := by rw [hlog]
    _ = render shown ++ text := by rw [hclosing, List.append_nil]

theorem Tracked.readLog {s : State} (h : Tracked s) (hp : s.phase = .sleeping) : Tracked (readLog s) := by
  obtain ⟨shown, hshown, hlog⟩ := h.shown
  have hnone : s.ended = none := h.ended (by rw [hp]; decide)
  refine ⟨?_, fun _ => hnone⟩
  have hclosing : closing (Tasks.readLog s) = [] := by
    rw [closing, show (Tasks.readLog s).ended = none from hnone]; rfl
  rw [closing, hnone] at hlog
  simp only [hclosing, readLog_job, readLog_seenAt, List.append_nil]
  rw [show s.job.log = render shown by simpa using hlog]
  by_cases hpage : (s.taskLog.drop s.job.lastLogLine).take taskLogLimit = []
  · rw [if_pos hpage, if_pos hpage, Option.or_none, hpage]
    exact ⟨shown, hshown, by simp [render]⟩
  · rw [if_neg hpage, if_neg hpage]
    exact ⟨_, hshown.read rfl hpage, (render_append _ _).symm⟩

theorem Tracked.step {s s' : State} {e : Event} (h : Tracked s) (hs : step s e = some s') : Tracked s' := by
  obtain ⟨shown, hshown, hlog⟩ := h.shown
  cases e with
  | write line =>
    obtain ⟨-, rfl⟩ := System.of_guard hs
    exact ⟨⟨shown, hshown.write line, hlog⟩, h.ended⟩
  | stop exitStatus =>
    obtain ⟨-, rfl⟩ := System.of_guard hs
    exact ⟨⟨shown, hshown, hlog⟩, h.ended⟩
  | cancel =>
    simp only [Tasks.step, Option.some.injEq] at hs
    subst hs
    split
    · exact ⟨⟨shown, hshown, hlog⟩, h.ended⟩
    · exact h
  | start beginning =>
    obtain ⟨hp, rfl⟩ := System.of_guard hs
    have hdone : s.phase ≠ .done := by rw [hp]; decide
    cases beginning with
    | client => exact ⟨⟨shown, hshown, hlog⟩, fun _ => h.ended hdone⟩
    | noHost => exact h.conclude hdone _ _ _
    | raised e => exact h.conclude hdone _ _ _
  | deadline =>
    obtain ⟨hp, rfl⟩ := System.of_guard hs
    exact h.conclude (by rw [hp]; decide) _ _ _
  | log =>
    obtain ⟨hp, rfl⟩ := System.of_guard hs
    exact h.readLog hp
  | logFails =>
    obtain ⟨hp, rfl⟩ := System.of_guard hs
    exact ⟨⟨shown, hshown, hlog⟩, fun _ => h.ended (by rw [hp]; decide)⟩
  | status =>
    obtain ⟨hp, rfl⟩ := System.of_guard hs
    have hdone : s.phase ≠ .done := by rw [hp]; decide
    unfold readStatus
    split
    · exact ⟨⟨shown, hshown, hlog⟩, fun _ => h.ended hdone⟩
    · split
      · exact h.conclude hdone _ _ _
      · split <;> exact h.conclude hdone _ _ _
  | statusFails e =>
    obtain ⟨hp, rfl⟩ := System.of_guard hs
    have hdone : s.phase ≠ .done := by rw [hp]; decide
    unfold statusError
    split
    · exact h.conclude hdone _ _ _
    · exact ⟨⟨shown, hshown, hlog⟩, fun _ => h.ended hdone⟩

theorem tracked_of_reachable {s : State} (h : system.Reachable s) : Tracked s := by
  refine System.Reach.invariant (I := Tracked) ?_ (fun _ _ _ ht _ hs => ht.step hs) h
  rintro _ rfl
  exact ⟨⟨[], ⟨rfl, rfl⟩, rfl⟩, fun _ => rfl⟩

/-- Whatever happens, the job shows lines of the task's log in their order, none of them twice. -/
theorem shown_sublist {s : State} (h : system.Reachable s) :
    ∃ shown, List.Sublist shown s.taskLog ∧ s.job.log = render shown ++ closing s := by
  obtain ⟨shown, hshown, hlog⟩ := (tracked_of_reachable h).shown
  exact ⟨shown, hshown.sublist, hlog⟩

/-- A line that has been read, and one that has not. -/
theorem shown_sublist_started : ∃ s : State, s.taskLog = ["starting".toList, "done".toList] ∧
    ∃ shown, List.Sublist shown s.taskLog ∧ s.job.log = render shown ++ closing s := by
  have h : system.Reachable {} := System.Reach.init rfl
  have h1 := h.next (.start .client) trivial rfl
  have h2 := h1.next (.write "starting".toList) trivial rfl
  have h3 := h2.next .log trivial rfl
  have h4 := h3.next (.write "done".toList) trivial rfl
  exact ⟨_, rfl, shown_sublist h4⟩

/-- **The task's log is shown whole** if every line of it has a text and the first page that is not empty is all of it:
when it was read, the log was complete and no longer than a page.  In every other run a line is missing. -/
theorem whole_log_shown_iff {s : State} (h : system.Reachable s) :
    WholeLog s ↔ (∀ line ∈ s.taskLog, line ≠ []) ∧
      (s.taskLog = [] ∨ s.taskLog.length ≤ taskLogLimit ∧ s.seenAt = some s.taskLog.length) := by
  obtain ⟨shown, hshown, hlog⟩ := (tracked_of_reachable h).shown
  unfold WholeLog
  rw [hlog, List.append_left_inj, ← hshown.eq_iff]
  exact ⟨eq_of_render_eq hshown.sublist, congrArg render⟩

/-- A log that is complete when it is read first. -/
theorem short_log_shown : ∃ s : State, s.taskLog = ["starting".toList, "done".toList] ∧ WholeLog s := by
  have h : system.Reachable {} := System.Reach.init rfl
  have h1 := h.next (.start .client) trivial rfl
  have h2 := h1.next (.write "starting".toList) trivial rfl
  have h3 := h2.next (.write "done".toList) trivial rfl
  have h4 := h3.next (.stop "OK".toList) trivial rfl
  have h5 := h4.next .log trivial rfl
  have h6 := h5.next .status trivial rfl
  exact ⟨_, rfl, (whole_log_shown_iff h6).2 ⟨by decide +kernel, .inr ⟨by decide +kernel, by decide +kernel⟩⟩⟩

/-- The second line is written after the first has been read, and is lost, though the poller asks for the log again before
it learns that the task has stopped. -/
theorem second_line_lost :
    ((system.exec {} [.start .client, .write "starting".toList, .log, .status, .write "done".toList, .stop "OK".toList, .log,
      .status]).map fun s => (s.ended.map Ending.stopped, s.logFailed, s.job.log, decide (WholeLog s))) =
      some (some true, false, "starting\n".toList, false) := by
  decide +kernel

end ProxmoxTool.Tasks
