import Mathlib.Data.Nat.Basic

/-!
# Credential epochs

`credential_epoch` is the stamp of a user's last password change, `none` before the first.  JWTs and remember markers carry
the epoch under which they were issued.  `set_password` forces the stamp to advance, whatever the clock shows.
-/

namespace ProxmoxTool

abbrev Epoch := Option Nat

/-- The stamp `set_password` writes at time `now`. -/
def nextEpoch (now : Nat) : Epoch → Nat
  | none => now
  | some previous => if now ≤ previous then previous + 1 else now

namespace Epoch

/-- Epochs in order: no password change, then the stamps. -/
def rank : Epoch → Nat
  | none => 0
  | some e => e + 1

theorem rank_lt_nextEpoch (now : Nat) (e : Epoch) : rank e < rank (some (nextEpoch now e)) := by
  cases e with
  | none => simp [rank]
  | some previous => simp only [rank, nextEpoch]; split <;> omega

end Epoch

end ProxmoxTool
