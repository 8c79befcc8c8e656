import ProxmoxTool.Lib.Text

/-!
# Commands on the Mastodon guest

`SSHClient.execute` as the upgrade sees it.  A command succeeds, exits non-zero (a time-out is reported in the same way),
or the connection drops while it runs; only standard output and whether the exit code is 0 are read by the callers.  After
a drop `_client` stays set, so the client never reconnects and every later command of that connection answers `("", -1)`
without reaching the guest.

Every command of `run_mastodon_upgrade` is issued at most once in a run, so the outcomes of a run are a function on
`Site`, the places of the source that issue one.
-/

namespace ProxmoxTool.Mastodon

/-- What becomes of a command.  A command that fails or loses its connection may have had its effect. -/
inductive Outcome
  | done (out : Text)
  | failed (out : Text) (applied : Bool)
  | dropped (applied : Bool)
deriving DecidableEq

namespace Outcome

def ok : Outcome → Bool
  | .done _ => true
  | _ => false

/-- The command had its effect on the guest. -/
def applied : Outcome → Bool
  | .done _ => true
  | .failed _ a => a
  | .dropped a => a

/-- The connection outlives the command. -/
def keeps : Outcome → Bool
  | .dropped _ => false
  | _ => true

def out : Outcome → Text
  | .done o => o
  | .failed o _ => o
  | .dropped _ => []

@[simp] theorem applied_of_ok {o : Outcome} (h : o.ok = true) : o.applied = true := by
  cases o <;> simp_all [ok, applied]

@[simp] theorem keeps_of_ok {o : Outcome} (h : o.ok = true) : o.keeps = true := by
  cases o <;> simp_all [ok, keeps]

end Outcome

/-- The calls of `_swap_env_db` in the order of the source; `retry` is the one of `_abort` over the second connection. -/
inductive Swap
  | toDirect | preRestart | toDirectAgain | final | abort | retry
deriving DecidableEq

inductive Field
  | host | port
deriving DecidableEq

/-- The commands of step 3, by what they run.  `rbenv` tells the two ways of asking for a version apart. -/
inductive Site
  | unmerged | stash | pull | pop | conflicts | checkoutTheirs (file : Text) | add (file : Text) | stashDrop
  | rubyVersionFile | ruby (rbenv : Bool) | rubyInstall | rubyVerify
  | gemfileLock | bundler (rbenv : Bool) | gemInstall
  | packageJson | node | nodeSetup | nodeVerify
  | bundle | yarn | preMigrate | assets | restart | cacheClear | postMigrate | finalRestart | version
  | abortPop | retryPop
  | sed (s : Swap) (f : Field) | grep (s : Swap)
deriving DecidableEq

abbrev Outcomes := Site → Outcome

/-- `(stdout, code == 0)`. -/
structure Reply where
  out : Text
  ok : Bool

/-- A computation over one connection; the state says whether its transport is up. -/
abbrev Ssh := StateM Bool

def execute (o : Outcome) : Ssh Reply := fun live =>
  if live then (⟨o.out, o.ok⟩, o.keeps) else (⟨[], false⟩, false)

/-- A command that reports success leaves the connection up. -/
theorem execute_ok {o : Outcome} {live : Bool} (h : (execute o live).1.ok = true) : (execute o live).2 = true := by
  cases live with
  | false => simp [execute] at h
  | true => exact Outcome.keeps_of_ok h

@[simp] theorem execute_true (o : Outcome) : execute o true = (⟨o.out, o.ok⟩, o.keeps) := rfl

@[simp] theorem execute_false (o : Outcome) : execute o false = (⟨[], false⟩, false) := rfl

end ProxmoxTool.Mastodon
