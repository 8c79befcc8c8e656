import ProxmoxTool.AiTools.Handlers
import Mathlib.Data.List.Basic

/-!
# Tool calls in a chat

The loop `generate` of a chat request: up to `maxIterations` rounds, each a stream of events chosen by the model, with
every tool call executed when it arrives.  A run is a sequence of chat requests; each stores a user message before its
first round, so a message arrives between two calls exactly when they belong to different requests.

The gate of the handlers reads `confirm` from the tool input and nothing is stored about a proposal, so the handlers
wait for a human only as far as the model does (`gatedByUser_iff`).
-/

namespace ProxmoxTool.AiTools

/-- A call of a state-changing tool, with what it finds when it is executed. -/
structure Call where
  tool : Tool
  input : ToolInput
  view : View

/-- What the model's stream yields.  `readTool` is a call of a tool that changes nothing, or of an unknown one; `raise`
is an exception out of the stream. -/
inductive Event
  | text (s : String)
  | toolUse (call : Call)
  | readTool (name : String)
  | refusal
  | done
  | error
  | raise

def maxIterations : Nat := 5

/-- How a round ends: the request is over, or the tool results go back to the model. -/
inductive RoundEnd
  | stop
  | again

/-- One round: the calls it executes and how it ends. -/
def runRound : List Event → (anyTool refused : Bool) → List Call × RoundEnd
  | [], anyTool, refused => ([], if anyTool && !refused then .again else .stop)
  | .text _ :: es, anyTool, refused => runRound es anyTool refused
  | .toolUse c :: es, _, refused => ((c :: (runRound es true refused).1), (runRound es true refused).2)
  | .readTool _ :: es, _, refused => runRound es true refused
  | .refusal :: es, anyTool, _ => runRound es anyTool true
  | .done :: es, anyTool, refused => runRound es anyTool refused
  | .error :: _, _, _ => ([], .stop)
  | .raise :: _, _, _ => ([], .stop)

/-- The calls that `generate` executes, in order. -/
def generate : Nat → List (List Event) → List Call
  | 0, _ => []
  | _ + 1, [] => []
  | n + 1, round :: rounds => match runRound round false false with
    | (calls, .stop) => calls
    | (calls, .again) => calls ++ generate n rounds

/-- A chat request.  `admitted` is false when it is answered before the loop (no message, over the limit, no client). -/
structure Request where
  user : User
  admitted : Bool
  rounds : List (List Event)

def Request.executed (req : Request) : List Call := if req.admitted then generate maxIterations req.rounds else []

/-- What a call of the request does. -/
def Request.outcome (req : Request) (c : Call) : Outcome := executeTool c.tool c.input c.view req.user

/-- The action for which a reply asks a confirmation. -/
def Reply.proposal : Reply → Option Key
  | .confirmationRequired _ key _ => some key
  | _ => none

/-- Every action is performed only after a call in an earlier request had proposed it. -/
def GatedByUser (run : List Request) : Prop :=
  ∀ (r : Nat) (req : Request), run[r]? = some req → ∀ c ∈ req.executed, ∀ key, (req.outcome c).command = some key →
    ∃ (r' : Nat) (req' : Request), r' < r ∧ run[r']? = some req' ∧ ∃ c' ∈ req'.executed, (req'.outcome c').reply.proposal = some key

/-! ### The calls of the model -/

/-- The user has the permissions of the tool and the call passes the handler's checks before the gate. -/
def Call.accepted (c : Call) (user : User) : Option Prepared :=
  if c.tool.required.all user then (c.tool.check c.input c.view).toOption else none

/-- The checks after the gate let the call through as well. -/
def Prepared.passesLate (p : Prepared) : Bool := p.late.toBool

/-- The model confirms an action, by a call that passes the handler's checks, only when it has made an unconfirmed,
accepted call for the same action in an earlier request. -/
def ConfirmsLater (run : List Request) : Prop :=
  ∀ (r : Nat) (req : Request), run[r]? = some req → ∀ c ∈ req.executed, confirmed c.input = true →
    ∀ p, c.accepted req.user = some p → p.passesLate = true →
      ∃ (r' : Nat) (req' : Request), r' < r ∧ run[r']? = some req' ∧ ∃ c' ∈ req'.executed, confirmed c'.input = false ∧
        ∃ p', c'.accepted req'.user = some p' ∧ p'.key = p.key

private theorem required_missing (tool : Tool) (user : User) :
    (tool.required.filter fun p => !user p) = [] ↔ tool.required.all user = true := by
  simp [List.filter_eq_nil_iff]

/-- `execute_tool` for a call that passes the permissions and the checks before the gate. -/
private theorem outcome_of_accepted {req : Request} {c : Call} {p : Prepared} (h : c.accepted req.user = some p) :
    req.outcome c = twoPhase (.ok p) c.input := by
  unfold Call.accepted at h
  split at h
  · rename_i hall
    have hcheck : c.tool.check c.input c.view = .ok p := by
      cases hc : c.tool.check c.input c.view with
      | error a => simp [hc, Except.toOption] at h
      | ok q => simpa [hc, Except.toOption] using h
    simp only [Request.outcome, executeTool, (required_missing c.tool req.user).mpr hall, if_true, hcheck]
  · cases h

/-- `execute_tool` for any other call: an answer, no command and no proposal. -/
private theorem outcome_of_not_accepted {req : Request} {c : Call} (h : c.accepted req.user = none) :
    (req.outcome c).command = none ∧ (req.outcome c).reply.proposal = none := by
  unfold Call.accepted at h
  unfold Request.outcome executeTool
  by_cases hall : c.tool.required.all req.user = true
  · simp only [(required_missing c.tool req.user).mpr hall, if_true]
    rw [if_pos hall] at h
    cases hc : c.tool.check c.input c.view with
    | ok q => simp [hc, Except.toOption] at h
    | error a => cases a <;> exact ⟨rfl, rfl⟩
  · rw [if_neg (fun hm => hall ((required_missing c.tool req.user).mp hm))]
    exact ⟨rfl, rfl⟩

/-- A call sends a command exactly when it is confirmed and passes the checks before and after the gate. -/
theorem command_eq_some_iff (req : Request) (c : Call) (key : Key) :
    (req.outcome c).command = some key ↔
      confirmed c.input = true ∧ ∃ p, c.accepted req.user = some p ∧ p.passesLate = true ∧ p.key = key := by
  cases hacc : c.accepted req.user with
  | none => simp [(outcome_of_not_accepted hacc).1]
  | some p =>
    rw [outcome_of_accepted hacc]
    cases hconf : confirmed c.input with
    | false => simp [twoPhase, hconf]
    | true => cases hlate : p.late <;> simp [twoPhase, hconf, hlate, Prepared.passesLate, Except.toBool]

/-- A call asks for a confirmation exactly when it is not confirmed and passes the checks before the gate. -/
theorem proposal_eq_some_iff (req : Request) (c : Call) (key : Key) :
    (req.outcome c).reply.proposal = some key ↔
      confirmed c.input = false ∧ ∃ p, c.accepted req.user = some p ∧ p.key = key := by
  cases hacc : c.accepted req.user with
  | none => simp [(outcome_of_not_accepted hacc).2]
  | some p =>
    rw [outcome_of_accepted hacc]
    cases hconf : confirmed c.input with
    | false => simp [twoPhase, hconf, Reply.proposal]
    | true => cases hlate : p.late <;> simp [twoPhase, hconf, hlate, Reply.proposal]

/-- The tools wait for a human exactly in the runs in which the model does. -/
theorem gatedByUser_iff (run : List Request) : GatedByUser run ↔ ConfirmsLater run := by
  constructor
  · intro h r req hr c hc hconf p hp hlate
    obtain ⟨r', req', hlt, hr', c', hc', hprop⟩ :=
      h r req hr c hc p.key ((command_eq_some_iff req c p.key).mpr ⟨hconf, p, hp, hlate, rfl⟩)
    obtain ⟨hconf', p', hp', hkey⟩ := (proposal_eq_some_iff req' c' p.key).mp hprop
    exact ⟨r', req', hlt, hr', c', hc', hconf', p', hp', hkey⟩
  · intro h r req hr c hc key hcmd
    obtain ⟨hconf, p, hp, hlate, rfl⟩ := (command_eq_some_iff req c key).mp hcmd
    obtain ⟨r', req', hlt, hr', c', hc', hconf', p', hp', hkey⟩ := h r req hr c hc hconf p hp hlate
    exact ⟨r', req', hlt, hr', c', hc', (proposal_eq_some_iff req' c' p.key).mpr ⟨hconf', p', hp', hkey⟩⟩

/-- A call `control_guest_power` of guest 1 with `confirm` set and no proposal before it. -/
def eagerCall : Call :=
  { tool := .controlGuestPower
    input := fun k => if k = "action" then some (.str "stop") else if k = "guest_id" then some (.num 1)
      else if k = "confirm" then some (.bool true) else none
    view :=
      { services := fun _ => none
        guests := fun _ => some
          { id := 1, name := "web", guestType := "vm", vmid := 100, host := some "pve1", powerState := "running"
            lockReason := "", accessible := true, backupStorage := "", backupMode := "snapshot"
            backupCompress := "zstd" }
        hosts := fun _ => none, timestamp := "", node := some (some "pve1"), supportsSnapshot := true
        backupArchive := none, running := false, runningAtReserve := false, redfish := false, bmcPowerState := none
        answer := some (true, "") } }

/-- The first call of a chat stops a guest when the model sets `confirm` in it. -/
theorem eager_confirm_performs : ¬ ∀ run, GatedByUser run := by
  intro h
  let req : Request := { user := fun _ => true, admitted := true, rounds := [[.toolUse eagerCall, .done]] }
  have hcmd : (req.outcome eagerCall).command =
      some { tool := .controlGuestPower, target := .guest 1, action := "stop" } := by decide
  obtain ⟨r', -, hlt, -⟩ := h [req] 0 req rfl eagerCall (by simp [Request.executed, req, generate, maxIterations,
    runRound]) _ hcmd
  exact Nat.not_lt_zero r' hlt

end ProxmoxTool.AiTools
