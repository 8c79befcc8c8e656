import ProxmoxTool.Lib.Text

/-!
# One command through the QEMU guest agent

`ProxmoxClient.exec_guest_agent` posts a command, retries the post once after an exception, and asks for the status
of the started process until it has exited.  What the Proxmox API answers is an input (`AgentCall`).  The result is
the pair `(stdout, error)` of the source: a command that ran and exited non-zero gives its output *and* an error.
-/

namespace ProxmoxTool.GuestAgent

/-- An `exec-status` answer with the defaults of the `get` calls that read it. -/
structure ExecStatus where
  exited : Bool
  outData : Text := []
  errData : Text := []
  exitcode : Int := -1

/-- The API's answers to one `exec_guest_agent`: the first post, the post after the reconnect, and the `k`-th status
request.  An error is the description of the exception. -/
structure AgentCall where
  post : Except Text (Option Nat)
  retry : Except Text (Option Nat)
  status : Nat → Except Text ExecStatus

def pollInterval : Nat := 2

/-- The first of `maxPolls` status requests that finds the process exited; a raising request is skipped. -/
def firstExited (status : Nat → Except Text ExecStatus) (maxPolls : Nat) : Option ExecStatus :=
  (List.range maxPolls).findSome? fun k =>
    match status k with
    | .ok st => if st.exited then some st else none
    | .error _ => none

def exitError (st : ExecStatus) : Text :=
  if st.errData = [] then "Exit code ".toList ++ intText st.exitcode else st.errData

def execGuestAgent (call : AgentCall) (timeout : Nat) : Option Text × Option Text :=
  let posted : Except Text (Option Nat) := match call.post with
    | .ok r => .ok r
    | .error _ => call.retry
  match posted with
  | .error e => (none, some ("Guest agent exec failed: ".toList ++ e))
  | .ok pid =>
    -- a missing pid and pid 0 are both falsy
    if pid.getD 0 = 0 then (none, some "No PID returned".toList)
    else
      match firstExited call.status (max (timeout / pollInterval) 1) with
      | none => (none, some "Timeout waiting for command".toList)
      | some st => (some st.outData, if st.exitcode = 0 then none else some (exitError st))

/-- The command was delivered and answered: it was started, and a status request within the allowed number reports
that it exited with output `out` and exit status `code`. -/
def Answered (call : AgentCall) (timeout : Nat) (out : Text) (code : Int) : Prop :=
  (∃ pid, pid ≠ 0 ∧ (call.post = .ok (some pid) ∨ ∃ e, call.post = .error e ∧ call.retry = .ok (some pid))) ∧
    ∃ st, firstExited call.status (max (timeout / pollInterval) 1) = some st ∧ st.outData = out ∧ st.exitcode = code

theorem execGuestAgent_of_answered {call : AgentCall} {timeout : Nat} {out : Text} {code : Int}
    (h : Answered call timeout out code) :
    ∃ e, execGuestAgent call timeout = (some out, if code = 0 then none else some e) := by
  obtain ⟨⟨pid, hpid, hpost⟩, st, hst, rfl, rfl⟩ := h
  refine ⟨exitError st, ?_⟩
  unfold execGuestAgent
  rcases hpost with hpost | ⟨e, hpost, hretry⟩
  · simp only [hpost, Option.getD_some, if_neg hpid, hst]
  · simp only [hpost, hretry, Option.getD_some, if_neg hpid, hst]

/-! ### The poll's output -/

def rcTag : Text := "LAMBNET_RC=".toList

def sizeTag : Text := "LAMBNET_SIZE=".toList

/-- `_parse_guest_exec_poll`: the exit code if there is one, the log size and the new chunk; `none` if malformed. -/
def parseGuestExecPoll (out : Option Text) : Option (Option Int × Int × Text) :=
  match out with
  | none => none
  | some out =>
    if ¬ rcTag <+: out then none
    else
      let (rcLine, sep, rest) := partition '\n' out
      if !sep || ¬ sizeTag <+: rest then none
      else
        let (sizeLine, _, chunk) := partition '\n' rest
        let sizeText := strip (sizeLine.drop sizeTag.length)
        let rcText := strip (rcLine.drop rcTag.length)
        match if sizeText = [] then some 0 else parseInt sizeText,
            if rcText = [] then some none else (parseInt rcText).map some with
        | some size, some rc => some (rc, size, chunk)
        | _, _ => none

/-- The two header lines of a poll: the content of the rc file (empty while it does not exist) and the log size. -/
def pollHeader (rc : Option Nat) (size : Nat) : Text :=
  rcTag ++ (rc.elim [] natText) ++ '\n' :: (sizeTag ++ natText size ++ ['\n'])

private theorem newline_not_mem_rcLine (rc : Option Nat) : '\n' ∉ rcTag ++ rc.elim [] natText := by
  rw [List.mem_append, not_or]
  refine ⟨by decide, ?_⟩
  cases rc with
  | none => simp
  | some n => exact not_mem_natText (by decide)

/-- What the snippet prints is read back: exit code, size and chunk. -/
theorem parseGuestExecPoll_header (rc : Option Nat) (size : Nat) (chunk : Text) :
    parseGuestExecPoll (some (pollHeader rc size ++ chunk)) =
      some (rc.map Int.ofNat, (size : Int), chunk) := by
  have e : pollHeader rc size ++ chunk =
      (rcTag ++ rc.elim [] natText) ++ '\n' :: ((sizeTag ++ natText size) ++ '\n' :: chunk) := by
    simp [pollHeader]
  have h1 : partition '\n' (pollHeader rc size ++ chunk) =
      (rcTag ++ rc.elim [] natText, true, (sizeTag ++ natText size) ++ '\n' :: chunk) := by
    rw [e]; exact partition_append (newline_not_mem_rcLine rc) _
  have h2 : partition '\n' ((sizeTag ++ natText size) ++ '\n' :: chunk) =
      (sizeTag ++ natText size, true, chunk) := by
    apply partition_append
    rw [List.mem_append, not_or]
    exact ⟨by decide, not_mem_natText (by decide)⟩
  have p1 : rcTag <+: pollHeader rc size ++ chunk := by
    rw [e, List.append_assoc]; exact List.prefix_append _ _
  have p2 : sizeTag <+: (sizeTag ++ natText size) ++ '\n' :: chunk := by
    rw [List.append_assoc]; exact List.prefix_append _ _
  unfold parseGuestExecPoll
  simp only [p1, p2, not_true_eq_false, if_false, h1, h2, decide_false, Bool.not_true, Bool.or_self,
    Bool.false_eq_true, List.drop_left, strip_natText, natText_ne_nil, parseInt_natText]
  cases rc with
  | none => rfl
  | some n => simp [strip_natText, natText_ne_nil, parseInt_natText]

example : parseGuestExecPoll (some "LAMBNET_RC=\nLAMBNET_SIZE=5\nhello".toList) = some (none, 5, "hello".toList) := by
  decide

example : parseGuestExecPoll (some "LAMBNET_RC=x\nLAMBNET_SIZE=1\n".toList) = none := by decide

end ProxmoxTool.GuestAgent
