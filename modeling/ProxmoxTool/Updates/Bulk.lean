import ProxmoxTool.Lib.Text

/-!
# The record of a bulk run

`_bulk_apply` (hosts) and `_bulk_update` (guests) have the same shape: a running flag, a counter with its total and one
item for each target.  `batch` numbers the bulk runs, so that the items an orchestrator has copied can be told from
those of a later run.
-/

namespace ProxmoxTool

inductive ItemState
  | pending | running | skipped | success | failed

structure Item where
  target : Nat
  state : ItemState
  reason : Option Text

structure Bulk where
  running : Bool
  total : Nat
  done : Nat
  items : List Item
  batch : Nat

namespace Bulk

def empty : Bulk := { running := false, total := 0, done := 0, items := [], batch := 0 }

/-- The section that takes the bulk slot. -/
def fill (k : Bulk) (targets : List Nat) : Bulk :=
  { running := true, total := targets.length, done := 0
    items := targets.map fun t => { target := t, state := .pending, reason := none }, batch := k.batch + 1 }

def Item.set (st : ItemState) (reason : Option Text) (it : Item) : Item :=
  { it with state := st, reason := reason <|> it.reason }

/-- Change item `i` of batch `b`; the items of an older batch are no longer in the record. -/
def setItem (k : Bulk) (b i : Nat) (st : ItemState) (reason : Option Text := none) : Bulk :=
  if k.batch = b then { k with items := k.items.modify i (Item.set st reason) } else k

/-- Change the first item of target `t`. -/
def setItemOf (k : Bulk) (t : Nat) (st : ItemState) (reason : Option Text := none) : Bulk :=
  { k with items := k.items.modify (k.items.findIdx fun it => it.target == t) (Item.set st reason) }

def countDone (k : Bulk) : Bulk := { k with done := k.done + 1 }

def close (k : Bulk) : Bulk := { k with running := false }

variable (k : Bulk) (b i : Nat) (st : ItemState) (r : Option Text)

@[simp] theorem setItem_running : (k.setItem b i st r).running = k.running := by
  simp only [setItem]; split <;> rfl

@[simp] theorem setItem_total : (k.setItem b i st r).total = k.total := by
  simp only [setItem]; split <;> rfl

@[simp] theorem setItem_done : (k.setItem b i st r).done = k.done := by
  simp only [setItem]; split <;> rfl

end Bulk

end ProxmoxTool
