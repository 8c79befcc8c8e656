import ProxmoxTool.Auth.Epoch
import ProxmoxTool.Lib.System
import Mathlib.Logic.Function.Basic

/-!
# Refresh rotation

The `/api/v1` requests `refresh` and `logout`, password changes and the scheduler's token prune, each as its separate
database steps.  A request holds the user as it loaded it until its own commit expires the row: `revoke_token` commits
only when it inserts, so a refresh that finds the row already there goes on with the user it has compared, and one that
inserts it mints from a user loaded anew.

Refresh tokens are named by the number of their `jti`; the pair minted with it carries the parent token.  `changes`
counts the committed password changes of a user and is not in the source.  Users stay active and are not deleted.
-/

namespace ProxmoxTool.Refresh

open Epoch (rank rank_lt_nextEpoch)

abbrev UserId := Nat

/-- An access token and the refresh token minted with it. -/
structure Pair where
  sub : UserId
  pwd : Epoch
  accessExp : Nat
  refreshExp : Nat
  parent : Option Nat
  changes : Nat

def accessTokenExpires : Nat := 15 * 60
def refreshTokenExpires : Nat := 30 * 24 * 60 * 60

/-- Where a request stands.  `j` is the presented refresh token and `e` the epoch of the user as it was loaded. -/
inductive Proc
  | idle
  | refresh (j : Nat)
  | decoded (j : Nat)
  | checked (j : Nat)
  | loaded (j : Nat) (e : Epoch)
  | cleared (j : Nat) (e : Epoch)
  | burned (j : Nat) (e : Epoch)
  | skipped (j : Nat) (e : Epoch)
  | logout (j : Nat)
  | logoutDecoded (j : Nat)
  | logoutCleared (j : Nat)
  | change (u : UserId)
  | changing (u : UserId) (e : Epoch)
  | finished

structure State where
  issued : Nat → Option Pair
  nextJti : Nat
  revoked : Nat → Bool
  users : UserId → Epoch
  changes : UserId → Nat
  clock : Nat
  procs : Nat → Proc

structure Initial (s : State) : Prop where
  issued : ∀ j, s.issued j = none
  revoked : ∀ j, s.revoked j = false
  changes : ∀ u, s.changes u = 0
  procs : ∀ p, s.procs p = .idle

def State.setProc (s : State) (p : Nat) (x : Proc) : State := { s with procs := Function.update s.procs p x }

/-- `token_predates_password_change`. -/
def predates (epoch pwd : Epoch) : Bool := epoch.isSome && pwd != epoch

/-- `create_access_token` and `create_refresh_token` for a user whose epoch was read as `e`. -/
def State.mint (s : State) (u : UserId) (e : Epoch) (parent : Option Nat) : State :=
  { s with
    issued := Function.update s.issued s.nextJti (some
      { sub := u, pwd := e, accessExp := s.clock + accessTokenExpires, refreshExp := s.clock + refreshTokenExpires
        parent := parent, changes := s.changes u })
    nextJti := s.nextJti + 1 }

def State.insertRow (s : State) (j : Nat) : State := { s with revoked := Function.update s.revoked j true }

/-- `_prune_revoked_tokens`: the rows whose token has expired. -/
def State.prune (s : State) : State :=
  { s with revoked := fun j => s.revoked j && (s.issued j).any fun pair => s.clock ≤ pair.refreshExp }

def State.changePassword (s : State) (u : UserId) (e : Epoch) : State :=
  { s with
    users := Function.update s.users u (some (nextEpoch s.clock e))
    changes := Function.update s.changes u (s.changes u + 1) }

inductive Label
  | arrive (p : Nat) (x : Proc)
  | login (u : UserId)
  | decode (p : Nat)
  | check (p : Nat)
  | load (p : Nat)
  | lookup (p : Nat)
  | insert (p : Nat)
  | mint (p : Nat)
  | changeLoad (p : Nat)
  | changeCommit (p : Nat)
  | prune
  | tick

def Proc.isRequest : Proc → Bool
  | .refresh _ => true
  | .logout _ => true
  | .change _ => true
  | _ => false

/-- A step of request `p`.  `decode` refuses a token that was not issued or has expired, and `insert` ends in an
integrity error when the row has come in since the look-up. -/
def step (s : State) : Label → Option State
  | .arrive p x => match s.procs p with
    | .idle => if x.isRequest then some (s.setProc p x) else none
    | _ => none
  | .login u => some (s.mint u (s.users u) none)
  | .decode p => match s.procs p with
    | .refresh j =>
      some (s.setProc p (if (s.issued j).any fun pair => s.clock < pair.refreshExp then .decoded j else .finished))
    | .logout j =>
      some (s.setProc p (if (s.issued j).any fun pair => s.clock < pair.refreshExp then .logoutDecoded j else .finished))
    | _ => none
  | .check p => match s.procs p with
    | .decoded j => some (s.setProc p (if s.revoked j then .finished else .checked j))
    | _ => none
  | .load p => match s.procs p with
    | .checked j => (s.issued j).map fun pair =>
        s.setProc p (if predates (s.users pair.sub) pair.pwd then .finished else .loaded j (s.users pair.sub))
    | _ => none
  | .lookup p => match s.procs p with
    | .loaded j e => some (s.setProc p (if s.revoked j then .skipped j e else .cleared j e))
    | .logoutDecoded j => some (s.setProc p (if s.revoked j then .finished else .logoutCleared j))
    | _ => none
  | .insert p => match s.procs p with
    | .cleared j e => some (if s.revoked j then s.setProc p .finished else (s.insertRow j).setProc p (.burned j e))
    | .logoutCleared j => some (if s.revoked j then s.setProc p .finished else (s.insertRow j).setProc p .finished)
    | _ => none
  | .mint p => match s.procs p with
    -- the commit of the row has expired the user, which is loaded again
    | .burned j _ => (s.issued j).map fun pair => (s.mint pair.sub (s.users pair.sub) (some j)).setProc p .finished
    -- nothing was committed: the user is still the one that was compared
    | .skipped j e => (s.issued j).map fun pair => (s.mint pair.sub e (some j)).setProc p .finished
    | _ => none
  | .changeLoad p => match s.procs p with
    | .change u => some (s.setProc p (.changing u (s.users u)))
    | _ => none
  | .changeCommit p => match s.procs p with
    | .changing u e => some ((s.changePassword u e).setProc p .finished)
    | _ => none
  | .prune => some s.prune
  | .tick => some { s with clock := s.clock + 1 }

def system : System State Label := { init := Initial, step := step }

/-! ### The properties -/

/-- `jwt_required` lets the access token of the pair through. -/
def State.acceptsAccess (s : State) (pair : Pair) : Bool :=
  s.clock < pair.accessExp && !predates (s.users pair.sub) pair.pwd

/-- `refresh` lets the refresh token `j` of the pair through. -/
def State.acceptsRefresh (s : State) (j : Nat) (pair : Pair) : Bool :=
  s.clock < pair.refreshExp && !s.revoked j && !predates (s.users pair.sub) pair.pwd

/-- A refresh token has at most one successor pair. -/
def AtMostOneSuccessor (s : State) : Prop :=
  ∀ j a b pa pb, s.issued a = some pa → s.issued b = some pb → pa.parent = some j → pb.parent = some j → a = b

/-- A successor is not accepted if a password change was committed after its parent was minted and before it was. -/
def NoStaleSuccessor (s : State) : Prop :=
  ∀ a pa j pj, s.issued a = some pa → pa.parent = some j → s.issued j = some pj → pj.changes < pa.changes →
    s.acceptsAccess pa = false ∧ s.acceptsRefresh a pa = false

def OneShot (s : State) : Prop := AtMostOneSuccessor s ∧ NoStaleSuccessor s

/-- The refresh token of a refresh that may still insert its row. -/
def Proc.pending : Proc → Option Nat
  | .decoded j => some j
  | .checked j => some j
  | .loaded j _ => some j
  | .cleared j _ => some j
  | _ => none

/-- The step does not take a branch that goes wrong: a refresh does not find its token's row at the look-up, it mints
for the epoch it has compared, a password change overwrites the epoch it has loaded, and a prune removes no row of a
token with which a refresh may still insert one. -/
def Clear (s : State) : Label → Prop
  | .lookup p => ∀ j e, s.procs p = .loaded j e → s.revoked j = false
  | .mint p => ∀ j e pair, s.procs p = .burned j e → s.issued j = some pair → s.users pair.sub = e
  | .changeCommit p => ∀ u e, s.procs p = .changing u e → s.users u = e
  | .prune => ∀ p j pair, (s.procs p).pending = some j → s.issued j = some pair → s.revoked j = true →
      s.clock ≤ pair.refreshExp
  | _ => True

/-! ### Epochs -/

private theorem eq_of_not_predates {epoch pwd : Epoch} (h : predates epoch pwd = false) : epoch = none ∨ pwd = epoch := by
  cases epoch with
  | none => exact .inl rfl
  | some e => exact .inr (by simpa [predates] using h)

/-! ### The invariant -/

/-- The token and the compared epoch of a refresh between its epoch check and its mint. -/
def Proc.compared : Proc → Option (Nat × Epoch)
  | .loaded j e => some (j, e)
  | .cleared j e => some (j, e)
  | .burned j e => some (j, e)
  | _ => none

/-- The token whose row a refresh has inserted and for which it has still to mint. -/
def Proc.spending : Proc → Option Nat
  | .burned j _ => some j
  | _ => none

def Proc.isSkipped : Proc → Bool
  | .skipped _ _ => true
  | _ => false

/-- No refresh can insert the row of token `j` any more: the row is there, or the token has expired and no refresh of
it is under way. -/
def State.Spent (s : State) (j : Nat) : Prop :=
  s.revoked j = true ∨ (∃ pair, s.issued j = some pair ∧ pair.refreshExp < s.clock) ∧ ∀ p, (s.procs p).pending ≠ some j

/-- Tokens and threads fit together. -/
structure Base (s : State) : Prop where
  lt : ∀ j pair, s.issued j = some pair → j < s.nextJti
  known : ∀ p j, (s.procs p).pending = some j ∨ (s.procs p).spending = some j → ∃ pair, s.issued j = some pair
  noSkip : ∀ p, (s.procs p).isSkipped = false

/-- What is minted or compared falls behind the user's epoch with each password change. -/
structure EpochInv (s : State) : Prop where
  zero : ∀ u, s.users u = none → s.changes u = 0
  pair : ∀ j pair, s.issued j = some pair → pair.changes ≤ s.changes pair.sub ∧ rank pair.pwd ≤ rank (s.users pair.sub) ∧
    (pair.changes < s.changes pair.sub → rank pair.pwd < rank (s.users pair.sub))
  proc : ∀ p j e pair, (s.procs p).compared = some (j, e) → s.issued j = some pair → rank e ≤ rank (s.users pair.sub) ∧
    (pair.changes < s.changes pair.sub → rank e < rank (s.users pair.sub))
  parent : ∀ a pa j pj, s.issued a = some pa → pa.parent = some j → s.issued j = some pj → pj.changes = pa.changes

/-- A token is spent once. -/
structure SpendInv (s : State) : Prop where
  spending : ∀ p j, (s.procs p).spending = some j → s.Spent j
  child : ∀ a pa j, s.issued a = some pa → pa.parent = some j → s.Spent j ∧ ∃ pj, s.issued j = some pj
  sole : ∀ p q j, (s.procs p).spending = some j → (s.procs q).spending = some j → p = q
  childless : ∀ p a pa j, (s.procs p).spending = some j → s.issued a = some pa → pa.parent ≠ some j
  once : AtMostOneSuccessor s

private theorem setProc_procs (s : State) (p q : Nat) (x : Proc) :
    (s.setProc p x).procs q = if q = p then x else s.procs q := by
  simp [State.setProc, Function.update_apply]

section Moves

variable {s : State} {p : Nat} {x : Proc}

/-- What `view` shows of a thread was there before a move that shows nothing new. -/
private theorem view_back {β : Type} {view : Proc → Option β} (h : view x = none ∨ view x = view (s.procs p)) {q : Nat}
    {y : β} (hy : view ((s.setProc p x).procs q) = some y) : view (s.procs q) = some y := by
  rw [setProc_procs] at hy
  split at hy
  · subst q
    rcases h with h | h
    · simp [h] at hy
    · rw [← h]; exact hy
  · exact hy

private theorem Base.move (hI : Base s) (hpend : x.pending = none ∨ x.pending = (s.procs p).pending)
    (hsp : x.spending = none ∨ x.spending = (s.procs p).spending) (hskip : x.isSkipped = false) :
    Base (s.setProc p x) := by
  refine ⟨hI.lt, ?_, ?_⟩
  · rintro q j (hq | hq)
    · exact hI.known q j (.inl (view_back hpend hq))
    · exact hI.known q j (.inr (view_back hsp hq))
  · intro q
    rw [setProc_procs]
    split
    · exact hskip
    · exact hI.noSkip q

private theorem EpochInv.move (hI : EpochInv s) (hcomp : x.compared = none ∨ x.compared = (s.procs p).compared) :
    EpochInv (s.setProc p x) :=
  ⟨hI.zero, hI.pair, fun q j e pair hq => hI.proc q j e pair (view_back hcomp hq), hI.parent⟩

private theorem spent_move {j : Nat} (h : s.Spent j) (hpend : x.pending = none ∨ x.pending = (s.procs p).pending) :
    (s.setProc p x).Spent j := by
  rcases h with h | ⟨hexp, hno⟩
  · exact .inl h
  · exact .inr ⟨hexp, fun q hq => hno q (view_back hpend hq)⟩

private theorem SpendInv.move (hI : SpendInv s) (hpend : x.pending = none ∨ x.pending = (s.procs p).pending)
    (hsp : x.spending = none ∨ x.spending = (s.procs p).spending) : SpendInv (s.setProc p x) := by
  refine ⟨fun q j hq => spent_move (hI.spending q j (view_back hsp hq)) hpend, fun a pa j ha hj => ?_,
    fun q r j hq hr => hI.sole q r j (view_back hsp hq) (view_back hsp hr),
    fun q a pa j hq => hI.childless q a pa j (view_back hsp hq), hI.once⟩
  exact ⟨spent_move (hI.child a pa j ha hj).1 hpend, (hI.child a pa j ha hj).2⟩

end Moves

structure Inv (s : State) : Prop where
  base : Base s
  epoch : EpochInv s
  spend : SpendInv s

private theorem Inv.move {s : State} {p : Nat} {x : Proc} (hI : Inv s)
    (hpend : x.pending = none ∨ x.pending = (s.procs p).pending)
    (hcomp : x.compared = none ∨ x.compared = (s.procs p).compared)
    (hsp : x.spending = none ∨ x.spending = (s.procs p).spending) (hskip : x.isSkipped = false) :
    Inv (s.setProc p x) :=
  ⟨hI.base.move hpend hsp hskip, hI.epoch.move hcomp, hI.spend.move hpend hsp⟩

private theorem Inv.finish {s : State} {p : Nat} (hI : Inv s) : Inv (s.setProc p .finished) :=
  hI.move (.inl rfl) (.inl rfl) (.inl rfl) rfl

/-! ### The steps -/

/-- A refresh decodes a token that has not expired, so the token is not spent unless its row is there. -/
private theorem Inv.decode {s : State} {p j : Nat} {pair : Pair} (hI : Inv s) (hj : s.issued j = some pair)
    (hlive : s.clock < pair.refreshExp) : Inv (s.setProc p (.decoded j)) := by
  have spent : ∀ k, s.Spent k → (s.setProc p (.decoded j)).Spent k := by
    rintro k (hk | ⟨⟨pk, hpk, hexp⟩, hno⟩)
    · exact .inl hk
    · refine .inr ⟨⟨pk, hpk, hexp⟩, fun q hq => ?_⟩
      rw [setProc_procs] at hq
      split at hq
      · obtain rfl : j = k := by simpa [Proc.pending] using hq
        obtain rfl : pair = pk := by simpa [hj] using hpk
        omega
      · exact hno q hq
  have back : ∀ q k, ((s.setProc p (.decoded j)).procs q).spending = some k → (s.procs q).spending = some k :=
    fun q k hq => view_back (.inl rfl) hq
  refine ⟨⟨hI.base.lt, ?_, ?_⟩, hI.epoch.move (.inl rfl), ⟨fun q k hq => spent k (hI.spend.spending q k (back q k hq)),
    fun a pa k ha hk => ⟨spent k (hI.spend.child a pa k ha hk).1, (hI.spend.child a pa k ha hk).2⟩,
    fun q r k hq hr => hI.spend.sole q r k (back q k hq) (back r k hr),
    fun q a pa k hq => hI.spend.childless q a pa k (back q k hq), hI.spend.once⟩⟩
  · rintro q k (hq | hq)
    · rw [setProc_procs] at hq
      split at hq
      · obtain rfl : j = k := by simpa [Proc.pending] using hq
        exact ⟨pair, hj⟩
      · exact hI.base.known q k (.inl hq)
    · exact hI.base.known q k (.inr (back q k hq))
  · intro q
    rw [setProc_procs]
    split
    · rfl
    · exact hI.base.noSkip q

/-- A refresh compares its token with the user's epoch: the token was minted after the last password change. -/
private theorem Inv.load {s : State} {p j : Nat} {pair : Pair} (hI : Inv s) (hp : s.procs p = .checked j)
    (hj : s.issued j = some pair) (hok : predates (s.users pair.sub) pair.pwd = false) :
    Inv (s.setProc p (.loaded j (s.users pair.sub))) := by
  refine ⟨hI.base.move (.inr (by rw [hp]; rfl)) (.inl rfl) rfl, ⟨hI.epoch.zero, hI.epoch.pair, ?_, hI.epoch.parent⟩,
    hI.spend.move (.inr (by rw [hp]; rfl)) (.inl rfl)⟩
  intro q k e pk hq hk
  rw [setProc_procs] at hq
  split at hq
  · obtain ⟨rfl, rfl⟩ : j = k ∧ s.users pair.sub = e := by simpa [Proc.compared] using hq
    obtain rfl : pair = pk := Option.some.inj (hj.symm.trans hk)
    obtain ⟨-, -, hlt⟩ := hI.epoch.pair j pair hj
    refine ⟨Nat.le_refl _, fun h => ?_⟩
    change pair.changes < s.changes pair.sub at h
    rcases eq_of_not_predates hok with hnone | heq
    · have hz : s.changes pair.sub = 0 := hI.epoch.zero _ hnone
      omega
    · have := hlt h
      rw [heq] at this
      exact absurd this (Nat.lt_irrefl _)
  · exact hI.epoch.proc q k e pk hq hk

/-- The row of a token is inserted while it is not there. -/
private theorem Inv.insertRow {s : State} (hI : Inv s) (j : Nat) : Inv (s.insertRow j) := by
  have spent : ∀ k, s.Spent k → (s.insertRow j).Spent k := by
    rintro k (hk | h)
    · refine .inl ?_
      by_cases hkj : k = j
      · simp [State.insertRow, hkj]
      · simpa [State.insertRow, hkj] using hk
    · exact .inr h
  exact ⟨⟨hI.base.lt, hI.base.known, hI.base.noSkip⟩, ⟨hI.epoch.zero, hI.epoch.pair, hI.epoch.proc, hI.epoch.parent⟩,
    ⟨fun q k hq => spent k (hI.spend.spending q k hq),
      fun a pa k ha hk => ⟨spent k (hI.spend.child a pa k ha hk).1, (hI.spend.child a pa k ha hk).2⟩,
      hI.spend.sole, hI.spend.childless, hI.spend.once⟩⟩

/-- A refresh inserts the row of its token: nobody has spent the token before. -/
private theorem Inv.burn {s : State} {p j : Nat} {e : Epoch} (hI : Inv s) (hp : s.procs p = .cleared j e)
    (hrow : s.revoked j = false) : Inv ((s.insertRow j).setProc p (.burned j e)) := by
  have fresh : ¬ s.Spent j := by
    rintro (h | ⟨-, h⟩)
    · simp [hrow] at h
    · exact h p (by rw [hp]; rfl)
  have hR : Inv (s.insertRow j) := hI.insertRow j
  have hpend : (Proc.burned j e).pending = none ∨ (Proc.burned j e).pending = ((s.insertRow j).procs p).pending := .inl rfl
  refine ⟨⟨hI.base.lt, ?_, ?_⟩, hR.epoch.move (.inr (by simp [State.insertRow, hp, Proc.compared])), ⟨?_, ?_, ?_, ?_, hI.spend.once⟩⟩
  · rintro q k (hq | hq)
    · exact hI.base.known q k (.inl (view_back hpend hq))
    · rw [setProc_procs] at hq
      split at hq
      · obtain rfl : j = k := by simpa [Proc.spending] using hq
        exact hI.base.known p j (.inl (by rw [hp]; rfl))
      · exact hI.base.known q k (.inr hq)
  · intro q
    rw [setProc_procs]
    split
    · rfl
    · exact hI.base.noSkip q
  · intro q k hq
    rw [setProc_procs] at hq
    split at hq
    · obtain rfl : j = k := by simpa [Proc.spending] using hq
      exact .inl (by simp [State.insertRow, State.setProc])
    · exact spent_move (hR.spend.spending q k hq) hpend
  · intro a pa k ha hk
    exact ⟨spent_move (hR.spend.child a pa k ha hk).1 hpend, (hR.spend.child a pa k ha hk).2⟩
  · intro q r k hq hr
    rw [setProc_procs] at hq hr
    split at hq <;> split at hr
    · simp_all
    · obtain rfl : j = k := by simpa [Proc.spending] using hq
      exact absurd (hI.spend.spending r j hr) fresh
    · obtain rfl : j = k := by simpa [Proc.spending] using hr
      exact absurd (hI.spend.spending q j hq) fresh
    · exact hI.spend.sole q r k hq hr
  · intro q a pa k hq ha hk
    rw [setProc_procs] at hq
    split at hq
    · obtain rfl : j = k := by simpa [Proc.spending] using hq
      exact fresh (hI.spend.child a pa j ha hk).1
    · exact hI.spend.childless q a pa k hq ha hk

private theorem mint_issued {s : State} {u : UserId} {e : Epoch} {parent : Option Nat} {a : Nat} {pa : Pair}
    (h : (s.mint u e parent).issued a = some pa) :
    (a = s.nextJti ∧ pa.sub = u ∧ pa.pwd = e ∧ pa.parent = parent ∧ pa.changes = s.changes u) ∨
      (a ≠ s.nextJti ∧ s.issued a = some pa) := by
  by_cases ha : a = s.nextJti
  · subst ha
    simp only [State.mint, Function.update_self, Option.some.injEq] at h
    subst h
    exact .inl ⟨rfl, rfl, rfl, rfl, rfl⟩
  · exact .inr ⟨ha, by simpa [State.mint, ha] using h⟩

private theorem issued_mint {s : State} (hI : Base s) {u : UserId} {e : Epoch} {parent : Option Nat} {a : Nat} {pa : Pair}
    (h : s.issued a = some pa) : (s.mint u e parent).issued a = some pa := by
  have : a ≠ s.nextJti := Nat.ne_of_lt (hI.lt a pa h)
  simpa [State.mint, this] using h

private theorem compared_known {s : State} (hI : Base s) {p j : Nat} {e : Epoch} (h : (s.procs p).compared = some (j, e)) :
    ∃ pair, s.issued j = some pair := by
  refine hI.known p j ?_
  cases hp : s.procs p <;> simp_all [Proc.compared, Proc.pending, Proc.spending]

/-- A pair is minted from the user's present epoch: after a login, or for a token that is spent, has no successor and
was minted after the last password change. -/
private theorem Inv.mint {s : State} (hI : Inv s) (u : UserId) (parent : Option Nat)
    (hpar : ∀ j, parent = some j → s.Spent j ∧ (∀ p, (s.procs p).spending ≠ some j) ∧
      (∀ a pa, s.issued a = some pa → pa.parent ≠ some j) ∧ ∃ pj, s.issued j = some pj ∧ pj.changes = s.changes u) :
    Inv (s.mint u (s.users u) parent) := by
  have keep : ∀ {a pa}, s.issued a = some pa → (s.mint u (s.users u) parent).issued a = some pa := issued_mint hI.base
  have spent : ∀ k, s.Spent k → (s.mint u (s.users u) parent).Spent k := by
    rintro k (hk | ⟨⟨pk, hpk, hexp⟩, hno⟩)
    · exact .inl hk
    · exact .inr ⟨⟨pk, keep hpk, hexp⟩, hno⟩
  -- an issued token keeps its pair, so whatever was there before is found unchanged
  have old : ∀ {a pa}, (∃ pb, s.issued a = some pb) → (s.mint u (s.users u) parent).issued a = some pa →
      s.issued a = some pa := by
    rintro a pa ⟨pb, hb⟩ h
    rcases mint_issued h with ⟨ha, -⟩ | ⟨-, h⟩
    · exact absurd ha (Nat.ne_of_lt (hI.base.lt a pb hb))
    · exact h
  refine ⟨⟨?_, ?_, hI.base.noSkip⟩, ⟨hI.epoch.zero, ?_, ?_, ?_⟩, ⟨?_, ?_, hI.spend.sole, ?_, ?_⟩⟩
  · intro a pa ha
    rcases mint_issued ha with ⟨rfl, -⟩ | ⟨-, ha⟩
    · exact Nat.lt_succ_self _
    · exact Nat.lt_succ_of_lt (hI.base.lt a pa ha)
  · intro p j hp
    obtain ⟨pair, hpair⟩ := hI.base.known p j hp
    exact ⟨pair, keep hpair⟩
  · intro a pa ha
    rcases mint_issued ha with ⟨-, hsub, hpwd, -, hch⟩ | ⟨-, ha⟩
    · rw [hsub, hpwd, hch]
      exact ⟨Nat.le_refl _, Nat.le_refl _, fun h => absurd h (Nat.lt_irrefl _)⟩
    · exact hI.epoch.pair a pa ha
  · intro p j e pair hp hj
    exact hI.epoch.proc p j e pair hp (old (compared_known hI.base hp) hj)
  · intro a pa j pj ha hj hpj
    rcases mint_issued ha with ⟨-, -, -, hpa, hch⟩ | ⟨-, ha⟩
    · obtain ⟨-, -, -, pk, hk, hkch⟩ := hpar j (hpa ▸ hj)
      obtain rfl : pk = pj := Option.some.inj (hk.symm.trans (old ⟨pk, hk⟩ hpj))
      rw [hkch, hch]
    · exact hI.epoch.parent a pa j pj ha hj (old (hI.spend.child a pa j ha hj).2 hpj)
  · exact fun p j hp => spent j (hI.spend.spending p j hp)
  · intro a pa j ha hj
    rcases mint_issued ha with ⟨-, -, -, hpa, -⟩ | ⟨-, ha⟩
    · obtain ⟨hs, -, -, pk, hk, -⟩ := hpar j (hpa ▸ hj)
      exact ⟨spent j hs, pk, keep hk⟩
    · obtain ⟨hs, pk, hk⟩ := hI.spend.child a pa j ha hj
      exact ⟨spent j hs, pk, keep hk⟩
  · intro p a pa j hp ha hj
    rcases mint_issued ha with ⟨-, -, -, hpa, -⟩ | ⟨-, ha⟩
    · exact (hpar j (hpa ▸ hj)).2.1 p hp
    · exact hI.spend.childless p a pa j hp ha hj
  · intro j a b pa pb ha hb hpa hpb
    rcases mint_issued ha with ⟨ha', -, -, hpa', -⟩ | ⟨-, ha⟩ <;> rcases mint_issued hb with ⟨hb', -, -, hpb', -⟩ | ⟨-, hb⟩
    · rw [ha', hb']
    · exact absurd hpb ((hpar j (hpa' ▸ hpa)).2.2.1 b pb hb)
    · exact absurd hpa ((hpar j (hpb' ▸ hpb)).2.2.1 a pa ha)
    · exact hI.spend.once j a b pa pb ha hb hpa hpb

/-- A refresh that has inserted the row mints while the user's epoch is the one it has compared. -/
private theorem Inv.mintBurned {s : State} {p j : Nat} {e : Epoch} {pair : Pair} (hI : Inv s) (hp : s.procs p = .burned j e)
    (hj : s.issued j = some pair) (he : s.users pair.sub = e) :
    Inv ((s.mint pair.sub (s.users pair.sub) (some j)).setProc p .finished) := by
  have hsp : (s.procs p).spending = some j := by rw [hp]; rfl
  have hF : Inv (s.setProc p .finished) := hI.finish
  refine Inv.mint (s := s.setProc p .finished) hF pair.sub (some j) ?_
  rintro k hk
  obtain rfl : j = k := Option.some.inj hk
  refine ⟨spent_move (hI.spend.spending p j hsp) (.inl rfl), ?_, fun a pa ha => hI.spend.childless p a pa j hsp ha,
    pair, hj, ?_⟩
  · intro q hq
    rw [setProc_procs] at hq
    split at hq
    · cases hq
    · rename_i hqp
      exact hqp (hI.spend.sole q p j hq hsp)
  · obtain ⟨-, hlt⟩ := hI.epoch.proc p j e pair (by rw [hp]; rfl) hj
    obtain ⟨hle, -, -⟩ := hI.epoch.pair j pair hj
    change pair.changes = s.changes pair.sub
    by_contra hne
    have := hlt (by omega)
    rw [he] at this
    exact Nat.lt_irrefl _ this

/-- A password change overwrites the epoch it has loaded: the user's epoch advances. -/
private theorem Inv.changePassword {s : State} (hI : Inv s) (u : UserId) : Inv (s.changePassword u (s.users u)) := by
  have adv := rank_lt_nextEpoch s.clock (s.users u)
  refine ⟨⟨hI.base.lt, hI.base.known, hI.base.noSkip⟩, ⟨?_, ?_, ?_, hI.epoch.parent⟩, ⟨hI.spend.spending, hI.spend.child,
    hI.spend.sole, hI.spend.childless, hI.spend.once⟩⟩
  · intro v hv
    by_cases hvu : v = u
    · simp [State.changePassword, hvu] at hv
    · simpa [State.changePassword, hvu] using hI.epoch.zero v (by simpa [State.changePassword, hvu] using hv)
  · intro j pair hj
    obtain ⟨hle, hrank, hlt⟩ := hI.epoch.pair j pair hj
    by_cases hsu : pair.sub = u
    · rw [hsu] at hle hrank
      simp only [State.changePassword, hsu, Function.update_self]
      exact ⟨by omega, by omega, fun _ => by omega⟩
    · simpa [State.changePassword, hsu] using ⟨hle, hrank, hlt⟩
  · intro p j e pair hp hj
    obtain ⟨hrank, hlt⟩ := hI.epoch.proc p j e pair hp hj
    by_cases hsu : pair.sub = u
    · rw [hsu] at hrank
      simp only [State.changePassword, hsu, Function.update_self]
      exact ⟨by omega, fun _ => by omega⟩
    · simpa [State.changePassword, hsu] using ⟨hrank, hlt⟩

private theorem Inv.prune {s : State} (hI : Inv s) (hc : Clear s .prune) : Inv s.prune := by
  have spent : ∀ k, s.Spent k → (∃ pk, s.issued k = some pk) → s.prune.Spent k := by
    rintro k (hk | h) ⟨pk, hpk⟩
    · by_cases hexp : s.clock ≤ pk.refreshExp
      · exact .inl (by simp [State.prune, hk, hpk, hexp])
      · exact .inr ⟨⟨pk, hpk, Nat.lt_of_not_le hexp⟩, fun p hp => hexp (hc p k pk hp hpk hk)⟩
    · exact .inr h
  refine ⟨⟨hI.base.lt, hI.base.known, hI.base.noSkip⟩, ⟨hI.epoch.zero, hI.epoch.pair, hI.epoch.proc, hI.epoch.parent⟩,
    ⟨fun p j hp => spent j (hI.spend.spending p j hp) (hI.base.known p j (.inr hp)), ?_, hI.spend.sole,
    hI.spend.childless, hI.spend.once⟩⟩
  intro a pa j ha hj
  obtain ⟨hs, hex⟩ := hI.spend.child a pa j ha hj
  exact ⟨spent j hs hex, hex⟩

private theorem Inv.tick {s : State} (hI : Inv s) : Inv { s with clock := s.clock + 1 } := by
  have spent : ∀ k, s.Spent k → State.Spent { s with clock := s.clock + 1 } k := by
    rintro k (hk | ⟨⟨pk, hpk, hexp⟩, hno⟩)
    · exact .inl hk
    · exact .inr ⟨⟨pk, hpk, Nat.lt_succ_of_lt hexp⟩, hno⟩
  exact ⟨⟨hI.base.lt, hI.base.known, hI.base.noSkip⟩, ⟨hI.epoch.zero, hI.epoch.pair, hI.epoch.proc, hI.epoch.parent⟩,
    ⟨fun p j hp => spent j (hI.spend.spending p j hp),
      fun a pa j ha hj => ⟨spent j (hI.spend.child a pa j ha hj).1, (hI.spend.child a pa j ha hj).2⟩,
      hI.spend.sole, hI.spend.childless, hI.spend.once⟩⟩

private theorem Inv.step {s s' : State} {e : Label} (hI : Inv s) (hc : Clear s e) (hs : step s e = some s') : Inv s' := by
  cases e with
  | arrive p x =>
    simp only [Refresh.step] at hs
    split at hs
    · split at hs
      · obtain rfl := Option.some.inj hs
        cases x <;> first | exact hI.move (.inl rfl) (.inl rfl) (.inl rfl) rfl | simp_all [Proc.isRequest]
      · cases hs
    · cases hs
  | login u =>
    obtain rfl := Option.some.inj hs
    exact hI.mint u none (by simp)
  | decode p =>
    simp only [Refresh.step] at hs
    split at hs
    · rename_i j hp
      obtain rfl := Option.some.inj hs
      split
      · rename_i hlive
        obtain ⟨pair, hj, hlt⟩ := (Option.any_eq_true _ _).mp hlive
        exact hI.decode hj (by simpa using hlt)
      · exact hI.finish
    · obtain rfl := Option.some.inj hs
      split
      · exact hI.move (.inl rfl) (.inl rfl) (.inl rfl) rfl
      · exact hI.finish
    · cases hs
  | check p =>
    simp only [Refresh.step] at hs
    split at hs
    · rename_i j hp
      obtain rfl := Option.some.inj hs
      split
      · exact hI.finish
      · exact hI.move (.inr (by rw [hp]; rfl)) (.inl rfl) (.inl rfl) rfl
    · cases hs
  | load p =>
    simp only [Refresh.step] at hs
    split at hs
    · rename_i j hp
      obtain ⟨pair, hj, rfl⟩ := Option.map_eq_some_iff.mp hs
      split
      · exact hI.finish
      · exact hI.load hp hj (by simp_all)
    · cases hs
  | lookup p =>
    simp only [Refresh.step] at hs
    split at hs
    · rename_i j e hp
      have hrow : s.revoked j = false := hc j e hp
      obtain rfl := Option.some.inj hs
      rw [hrow]
      exact hI.move (.inr (by rw [hp]; rfl)) (.inr (by rw [hp]; rfl)) (.inl rfl) rfl
    · obtain rfl := Option.some.inj hs
      split
      · exact hI.finish
      · exact hI.move (.inl rfl) (.inl rfl) (.inl rfl) rfl
    · cases hs
  | insert p =>
    simp only [Refresh.step] at hs
    split at hs
    · rename_i j e hp
      obtain rfl := Option.some.inj hs
      split
      · exact hI.finish
      · exact hI.burn hp (by simp_all)
    · obtain rfl := Option.some.inj hs
      split
      · exact hI.finish
      · exact (hI.insertRow _).finish
    · cases hs
  | mint p =>
    simp only [Refresh.step] at hs
    split at hs
    · rename_i j e hp
      obtain ⟨pair, hj, rfl⟩ := Option.map_eq_some_iff.mp hs
      exact hI.mintBurned hp hj (hc j e pair hp hj)
    · rename_i j e hp
      have := hI.base.noSkip p
      simp [hp, Proc.isSkipped] at this
    · cases hs
  | changeLoad p =>
    simp only [Refresh.step] at hs
    split at hs
    · obtain rfl := Option.some.inj hs
      exact hI.move (.inl rfl) (.inl rfl) (.inl rfl) rfl
    · cases hs
  | changeCommit p =>
    simp only [Refresh.step] at hs
    split at hs
    · rename_i u e hp
      obtain rfl := hc u e hp
      obtain rfl := Option.some.inj hs
      exact (hI.changePassword u).finish
    · cases hs
  | prune =>
    obtain rfl := Option.some.inj hs
    exact hI.prune hc
  | tick =>
    obtain rfl := Option.some.inj hs
    exact hI.tick

private theorem Inv.initial {s : State} (h : Initial s) : Inv s := by
  obtain ⟨hi, hr, hc, hp⟩ := h
  refine ⟨⟨by simp [hi], by simp [hp, Proc.pending, Proc.spending], by simp [hp, Proc.isSkipped]⟩,
    ⟨fun u _ => hc u, by simp [hi], by simp [hi], by simp [hi]⟩,
    ⟨by simp [hp, Proc.spending], by simp [hi], by simp [hp, Proc.spending], by simp [hi], by simp [AtMostOneSuccessor, hi]⟩⟩

/-- In every run in which no refresh finds its token's row at the look-up or mints for another epoch than the one it has
compared, password changes of one user do not overlap, and no row is pruned under a refresh of its token, refresh
rotation is one-shot. -/
theorem oneShot_of_clear {s : State} (h : system.Reach Clear s) : OneShot s := by
  have hI : Inv s := h.invariant (I := Inv) (fun _ => Inv.initial) fun _ _ _ hI hc hs => hI.step hc hs
  refine ⟨hI.spend.once, ?_⟩
  intro a pa j pj ha hj hpj hlt
  have := hI.epoch.parent a pa j pj ha hj hpj
  omega

/-- No tokens yet, and nobody has changed a password. -/
def State.start : State :=
  { issued := fun _ => none, nextJti := 0, revoked := fun _ => false, users := fun _ => none, changes := fun _ => 0
    clock := 0, procs := fun _ => .idle }

private theorem initial_start : Initial State.start := ⟨fun _ => rfl, fun _ => rfl, fun _ => rfl, fun _ => rfl⟩

/-- One refresh after a login: the second pair succeeds the first. -/
theorem refresh_after_login_oneShot : ∃ s pair, system.Reach Clear s ∧ OneShot s ∧ s.issued 1 = some pair ∧
    pair.parent = some 0 ∧ s.acceptsAccess pair = true := by
  have r0 : system.Reach Clear State.start := .init initial_start
  have r1 := (r0.next (.login 7) trivial rfl).next (.arrive 0 (.refresh 0)) trivial rfl
  have r2 := ((r1.next (.decode 0) trivial rfl).next (.check 0) trivial rfl).next (.load 0) trivial rfl
  have r3 := (r2.next (.lookup 0) (by rintro j e h; cases h; rfl) rfl).next (.insert 0) trivial rfl
  have r4 := r3.next (.mint 0) (by rintro j e pair h hj; cases h; cases hj; rfl) rfl
  exact ⟨_, _, r4, oneShot_of_clear r4, rfl, rfl, by decide⟩

/-- Two refreshes of one token pass the check together, and both mint; and a refresh whose user changes the password
between its epoch check and its commit mints a pair for the new epoch, which is accepted. -/
theorem refresh_not_oneShot : (∃ s, system.Reachable s ∧ ¬ AtMostOneSuccessor s) ∧
    ∃ s, system.Reachable s ∧ ¬ NoStaleSuccessor s := by
  constructor
  · have r : system.exec State.start [.login 7, .arrive 0 (.refresh 0), .arrive 1 (.refresh 0), .decode 0, .decode 1,
        .check 0, .check 1, .load 0, .load 1, .lookup 0, .insert 0, .lookup 1, .mint 0, .mint 1] = some _ := rfl
    refine ⟨_, System.reachable_of_exec initial_start r, fun h => ?_⟩
    exact absurd (h 0 1 2 _ _ rfl rfl rfl rfl) (by decide)
  · have r : system.exec State.start [.login 7, .arrive 0 (.refresh 0), .arrive 1 (.change 7), .decode 0, .check 0, .load 0,
        .changeLoad 1, .changeCommit 1, .lookup 0, .insert 0, .mint 0] = some _ := rfl
    refine ⟨_, System.reachable_of_exec initial_start r, fun h => ?_⟩
    exact absurd (h 1 _ 0 _ rfl rfl rfl (by decide)).1 (by decide)

end ProxmoxTool.Refresh
