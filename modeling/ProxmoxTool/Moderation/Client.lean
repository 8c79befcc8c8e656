import Mathlib.Data.List.Basic
import ProxmoxTool.Moderation.Alerts

/-!
# The Mastodon client

What the poll asks a Mastodon instance: the statuses of an account after a given one (`account_statuses`), and the active local
accounts, page by page (`list_local_accounts`).  Both answer newest first and are cut off, the first at a limit, the second
at a number of pages.  `Instance` is the instance itself: the statuses each account has posted and its local accounts.
What it answers is Mastodon's documented behaviour: since `since_id`, the newest statuses up to the limit; the accounts that
are active, the latest first, a hundred to a page.
-/

namespace ProxmoxTool.Moderation

/-- A text the code takes as present. -/
def truthy (t : Option Text) : Option Text := t.filter (· ≠ [])

/-- A `MastodonAPIError`. -/
structure ApiError where
  httpStatus : Option Nat
  deriving DecidableEq, Repr

/-- An account of the admin listing, with what `summarize_account_activity` takes from it. -/
structure AdminAccount where
  id : AccountId
  acct : Text
  domain : Option Text := none
  createdAt : Option Time
  lastLoginAt : Option Time := none
  statusesCount : Option Nat := none
  deriving DecidableEq, Repr

/-- A page of a listing, and whether it links to a next one. -/
structure Page where
  accounts : List AdminAccount
  next : Bool

def pageSize : Nat := 100

def AdminAccount.isLocal (a : AdminAccount) : Bool := (truthy a.domain).isNone

/-- Whether `list_local_accounts` takes an account of a page. -/
def AdminAccount.kept (newerThan : Option Time) (a : AdminAccount) : Bool :=
  a.isLocal && match newerThan, a.createdAt with
    | some t, some created => t < created
    | _, _ => true

/-- The oldest row of the page is at or before the cutoff. -/
def Page.reaches (newerThan : Option Time) (p : Page) : Bool :=
  match newerThan, ((p.accounts.filter AdminAccount.isLocal).filterMap AdminAccount.createdAt).min? with
  | some t, some oldest => oldest ≤ t
  | _, _ => false

/-- `list_local_accounts`, from page `i` on. -/
def listLocalAccounts (newerThan : Option Time) (page : Nat → Except ApiError Page) :
    (maxPages i : Nat) → Except ApiError (List AdminAccount)
  | 0, _ => .ok []
  | n + 1, i => match page i with
    | .error e => .error e
    | .ok p =>
      let kept := p.accounts.filter (AdminAccount.kept newerThan)
      if p.reaches newerThan || !p.next || p.accounts.isEmpty then .ok kept
      else match listLocalAccounts newerThan page n (i + 1) with
        | .error e => .error e
        | .ok rest => .ok (kept ++ rest)

/-! ### The instance -/

/-- A local account of the instance; only active ones are listed. -/
structure Member where
  id : AccountId
  acct : Text
  created : Time
  active : Bool
  lastLoginAt : Option Time := none
  statusesCount : Nat := 0
  deriving DecidableEq, Repr

def Member.toAdmin (m : Member) : AdminAccount where
  id := m.id
  acct := m.acct
  createdAt := some m.created
  lastLoginAt := m.lastLoginAt
  statusesCount := some m.statusesCount

/-- The statuses of each account and the local accounts, both newest first. -/
structure Instance where
  timeline : AccountId → List Status := fun _ => []
  members : List Member := []

/-- The statuses after `since`, newest first, at most `limit`. -/
def Instance.accountStatuses (inst : Instance) (account : AccountId) (since : Option StatusId) (limit : Nat) :
    List Status :=
  ((inst.timeline account).filter fun s => since.all fun c => c < s.id).take limit

/-- The accounts that are listed. -/
def Instance.listed (inst : Instance) : List AdminAccount := (inst.members.filter Member.active).map Member.toAdmin

/-- A page of the given accounts. -/
def pageOf (accounts : List AdminAccount) (i : Nat) : Page where
  accounts := (accounts.drop (pageSize * i)).take pageSize
  next := accounts.drop (pageSize * (i + 1)) ≠ []

def Instance.localAccounts (inst : Instance) (newerThan : Option Time) (maxPages : Nat) :
    Except ApiError (List AdminAccount) :=
  listLocalAccounts newerThan (fun i => .ok (pageOf inst.listed i)) maxPages 0

/-! ### What a listing has -/

/-- Local accounts with a date, the latest first. -/
structure Listing (accounts : List AdminAccount) : Prop where
  isLocal : ∀ a ∈ accounts, a.isLocal = true
  dated : ∀ a ∈ accounts, ∃ t, a.createdAt = some t
  sorted : accounts.Pairwise fun a b => ∀ s t, a.createdAt = some s → b.createdAt = some t → t ≤ s

theorem kept_none {a : AdminAccount} (h : a.isLocal = true) : a.kept none = true := by
  simp [AdminAccount.kept, h]

theorem kept_some_iff {a : AdminAccount} {t created : Time} (h : a.isLocal = true) (hc : a.createdAt = some created) :
    a.kept (some t) = true ↔ t < created := by
  simp [AdminAccount.kept, h, hc]

/-- A page that reaches the cutoff: nothing after it is kept. -/
theorem Listing.not_kept_of_reaches {front back : List AdminAccount} (h : Listing (front ++ back)) {newerThan : Option Time}
    {next : Bool} (hr : (Page.mk front next).reaches newerThan = true) : ∀ a ∈ back, a.kept newerThan = false := by
  unfold Page.reaches at hr
  split at hr
  swap
  · cases hr
  · rename_i t oldest hold
    intro a ha
    have hmem := List.min?_mem hold
    obtain ⟨b, hb, hbc⟩ := List.mem_filterMap.1 hmem
    have hb := (List.mem_filter.1 hb).1
    obtain ⟨created, hc⟩ := h.dated a (List.mem_append_right _ ha)
    have hle : created ≤ oldest := (List.pairwise_append.1 h.sorted).2.2 b hb a ha _ _ hbc hc
    have hot : oldest ≤ t := of_decide_eq_true hr
    rw [← Bool.not_eq_true, kept_some_iff (h.isLocal a (List.mem_append_right _ ha)) hc]
    exact Int.not_lt.2 (Int.le_trans hle hot)

/-- A listing in pages has the first accounts, as many as the pages hold, that are newer than the cutoff. -/
theorem Listing.listLocalAccounts_eq {accounts : List AdminAccount} (h : Listing accounts) (newerThan : Option Time)
    (maxPages i : Nat) : listLocalAccounts newerThan (fun i => .ok (pageOf accounts i)) maxPages i =
      .ok (((accounts.drop (pageSize * i)).take (pageSize * maxPages)).filter (AdminAccount.kept newerThan)) := by
  induction maxPages generalizing i with
  | zero => simp [listLocalAccounts]
  | succ n ih =>
    have hsplit : (accounts.drop (pageSize * i)).take (pageSize * (n + 1)) = (accounts.drop (pageSize * i)).take pageSize ++
        (accounts.drop (pageSize * (i + 1))).take (pageSize * n) := by
      rw [Nat.mul_succ pageSize n, Nat.add_comm, List.take_add, List.drop_drop, ← Nat.mul_succ]
    unfold listLocalAccounts
    dsimp only
    rw [hsplit, List.filter_append]
    split
    · rename_i hstop
      have hrest : ((accounts.drop (pageSize * (i + 1))).take (pageSize * n)).filter (AdminAccount.kept newerThan) = [] := ?_
      · rw [hrest, List.append_nil]
        rfl
      rw [List.filter_eq_nil_iff]
      intro a ha
      have ha := List.mem_of_mem_take ha
      simp only [Bool.or_eq_true] at hstop
      rcases hstop with (hreach | hnext) | hempty
      · have hpage : Listing ((accounts.drop (pageSize * i)).take pageSize ++ accounts.drop (pageSize * (i + 1))) := by
          have hdrop : accounts.drop (pageSize * (i + 1)) = (accounts.drop (pageSize * i)).drop pageSize := by
            rw [List.drop_drop, Nat.mul_succ]
          rw [hdrop, List.take_append_drop]
          exact ⟨fun a ha => h.isLocal a (List.mem_of_mem_drop ha), fun a ha => h.dated a (List.mem_of_mem_drop ha),
            h.sorted.drop⟩
        rw [hpage.not_kept_of_reaches hreach a ha]
        exact Bool.false_ne_true
      · simp only [pageOf, ne_eq, decide_not, Bool.not_not, decide_eq_true_eq] at hnext
        rw [hnext] at ha
        cases ha
      · have hnil : (accounts.drop (pageSize * i)).take pageSize = [] := List.isEmpty_iff.1 hempty
        rw [List.take_eq_nil_iff] at hnil
        rcases hnil with hz | hnil
        · exact absurd hz (by decide)
        · rw [Nat.mul_succ, ← List.drop_drop, hnil] at ha
          cases ha
    · rw [ih]
      rfl

/-- Filtering by a property that holds of a front part only sees that part. -/
theorem filter_take {α : Type} {p : α → Bool} {L : List α} (hp : L.Pairwise fun a b => p b = true → p a = true) {n : Nat}
    (hlen : (L.filter p).length ≤ n) : (L.take n).filter p = L.filter p := by
  induction L generalizing n with
  | nil => simp
  | cons a L ih =>
    rw [List.pairwise_cons] at hp
    by_cases ha : p a = true
    · rw [List.filter_cons_of_pos ha] at hlen ⊢
      cases n with
      | zero => simp at hlen
      | succ n =>
        rw [List.take_succ_cons, List.filter_cons_of_pos ha, ih hp.2 (by simpa using hlen)]
    · have hnone : ∀ b ∈ a :: L, ¬ p b = true := by
        intro b hb hpb
        rcases List.mem_cons.1 hb with rfl | hb
        · exact ha hpb
        · exact ha (hp.1 b hb hpb)
      rw [List.filter_eq_nil_iff.2 hnone, List.filter_eq_nil_iff]
      exact fun b hb => hnone b (List.mem_of_mem_take hb)

end ProxmoxTool.Moderation
