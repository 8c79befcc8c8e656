import Mathlib
import ProxmoxTool.Lib.Dict
import ProxmoxTool.Lib.System
import ProxmoxTool.Lib.Text

/-!
# The key of the credential store

`get_fernet` in any number of processes, cut into its steps: the test for the key file, the read, the test for stored ciphertext, the exclusive
create and the write.  Between the steps other processes take theirs, store and delete values, start and die; the key file is removed only while
no process runs.

The test for ciphertext takes an `OperationalError` for a database without tables, also where it is another failure; then a new key is written
over stored secrets (`key_replaced`).  In runs in which that error comes from a database that holds no ciphertext no key is replaced
(`key_kept`).
-/

namespace ProxmoxTool.KeyFile

/-- Fernet as an ideal cipher; the number stands for what is random in a token. -/
structure Fernet (K : Type) where
  encrypt : K → Nat → Text → Text
  decrypt : K → Text → Option Text
  decrypt_encrypt : ∀ k n t, decrypt k (encrypt k n t) = some t
  encrypt_prefix : ∀ k n t, (encrypt k n t).take 6 = "gAAAAA".toList

/-- The columns in which secrets are kept, of the rows that have a value there, and the settings. -/
inductive Place
  | credentialValue (id : Nat)
  | credentialSudoPassword (id : Nat)
  | hostPassword (id : Nat)
  | hostApiTokenSecret (id : Nat)
  | hostIpmiPassword (id : Nat)
  | setting (key : Text)
  deriving DecidableEq

section

variable {K : Type}

/-- A value, with the key under which it is encrypted. -/
inductive Stored (K : Type)
  | token (key : K) (n : Nat) (t : Text)
  | plain (value : Text)

def Stored.isToken : Stored K → Bool
  | .token _ _ _ => true
  | .plain _ => false

abbrev Db (K : Type) := Dict Place (Stored K)

/-- `created` is the file of an exclusive create without the key in it. -/
inductive File (K : Type)
  | absent
  | created
  | key (k : K)
  deriving DecidableEq

/-- `_get_or_create_key` between its steps. -/
inductive Call (K : Type)
  | idle
  | reads
  | tests
  | creates
  | writes (key : K)

/-- A process: `_fernet`, and the call that holds the lock. -/
structure Proc (K : Type) where
  fernet : Option K := none
  call : Call K := .idle

/-- `returned` are the keys that `get_fernet` has returned since the key file was removed last. -/
structure World (K : Type) where
  file : File K
  db : Db K
  procs : Dict Nat (Proc K) := []
  returned : List K := []

/-- How the queries of `_ciphertext_exists` end; `operationalError` is a `ProgrammingError`, too. -/
inductive Probe
  | answered
  | operationalError
  | otherException

inductive Event (K : Type)
  | start (p : Nat)
  | die (p : Nat)
  | removeKey
  | getFernet (p : Nat)
  | read (p : Nat)
  | test (p : Nat) (probe : Probe)
  | create (p : Nat) (key : K)
  | write (p : Nat)
  | save (p : Nat) (place : Place) (n : Nat) (t : Text)
  | saveSetting (p : Nat) (key value : Text)
  | erase (p : Nat) (place : Place)

variable (f : Fernet K)

def Stored.text : Stored K → Text
  | .token k n t => f.encrypt k n t
  | .plain value => value

/-- `LIKE 'gAAAAA%'`, which does not tell upper from lower case. -/
def like (value : Text) : Bool := (value.take 6).map Char.toLower = "gaaaaa".toList

/-- `_ciphertext_exists`. -/
def ciphertextExists (probe : Probe) (db : Db K) : Bool :=
  match probe with
  | .answered => db.any fun entry =>
    match entry.1 with
    | .setting _ => like (entry.2.text f)
    | _ => true
  | .operationalError => false
  | .otherException => true

def World.setProc (w : World K) (p : Nat) (proc : Proc K) : World K := { w with procs := w.procs.set p proc }

def step (w : World K) : Event K → Option (World K)
  | .start p => if w.procs.get? p |>.isNone then some (w.setProc p {}) else none
  | .die p => if w.procs.get? p |>.isSome then some { w with procs := w.procs.pop p } else none
  | .removeKey => if w.procs.isEmpty then some { w with file := .absent, returned := [] } else none
  | .getFernet p =>
    match w.procs.get? p with
    | some ⟨some k, .idle⟩ => some { w with returned := w.returned ++ [k] }
    | some ⟨none, .idle⟩ =>
      match w.file with
      | .absent => some (w.setProc p ⟨none, .tests⟩)
      | _ => some (w.setProc p ⟨none, .reads⟩)
    | _ => none
  | .read p =>
    match w.procs.get? p with
    | some ⟨fernet, .reads⟩ =>
      match w.file with
      | .key k => some ({ w with returned := w.returned ++ [k] }.setProc p ⟨some k, .idle⟩)
      | _ => some (w.setProc p ⟨fernet, .idle⟩)
    | _ => none
  | .test p probe =>
    match w.procs.get? p with
    | some ⟨fernet, .tests⟩ => some (w.setProc p ⟨fernet, if ciphertextExists f probe w.db then .idle else .creates⟩)
    | _ => none
  | .create p k =>
    match w.procs.get? p with
    | some ⟨fernet, .creates⟩ =>
      match w.file with
      | .absent => some ({ w with file := .created }.setProc p ⟨fernet, .writes k⟩)
      | _ => some (w.setProc p ⟨fernet, .idle⟩)
    | _ => none
  | .write p =>
    match w.procs.get? p with
    | some ⟨_, .writes k⟩ => some ({ w with file := .key k, returned := w.returned ++ [k] }.setProc p ⟨some k, .idle⟩)
    | _ => none
  | .save p place n t =>
    match w.procs.get? p with
    | some ⟨some k, .idle⟩ => some { w with db := w.db.set place (.token k n t) }
    | _ => none
  | .saveSetting p key value =>
    if w.procs.get? p |>.isSome then some { w with db := w.db.set (.setting key) (.plain value) } else none
  | .erase p place => if w.procs.get? p |>.isSome then some { w with db := w.db.pop place } else none

/-- What is encrypted in the database is encrypted under `key`. -/
def Under (db : Db K) (key : K) : Prop := ∀ entry ∈ db, ∀ k n t, entry.2 = .token k n t → k = key

def NoToken (db : Db K) : Prop := ∀ entry ∈ db, entry.2.isToken = false

instance (db : Db K) : Decidable (NoToken db) := inferInstanceAs (Decidable (∀ entry ∈ db, entry.2.isToken = false))

/-- No process runs at the beginning; the key file, if there is one, is that of the stored ciphertext. -/
def system : System (World K) (Event K) where
  init w := w.procs = [] ∧ w.returned = [] ∧ ∀ k, w.file = .key k → Under w.db k
  step := step f

def Event.findsNoTables : Event K → Bool
  | .test _ .operationalError => true
  | _ => false

/-- The queries end in an `OperationalError` or a `ProgrammingError` only where nothing encrypted is stored, as before there are tables. -/
def Probed (w : World K) (e : Event K) : Prop := e.findsNoTables = true → NoToken w.db

instance (w : World K) (e : Event K) : Decidable (Probed w e) := inferInstanceAs (Decidable (e.findsNoTables = true → NoToken w.db))

/-- A process that has lost the race, or that has met a key file without a key. -/
def Loses (w : World K) (p : Nat) : Event K → Prop
  | .read q => q = p ∧ w.file = .created
  | .create q _ => q = p ∧ w.file ≠ .absent
  | _ => False

/-- The key is not replaced under stored secrets. -/
structure Kept (w : World K) : Prop where
  unreplaced : ∀ e w' k, step f w e = some w' → w'.file = .key k → w.file = .key k ∨ NoToken w.db
  same : ∀ k ∈ w.returned, ∀ k' ∈ w.returned, k = k'
  decrypts : ∀ k ∈ w.returned, ∀ entry ∈ w.db, ∀ k' n t, entry.2 = .token k' n t → f.decrypt k (entry.2.text f) = some t
  loser : ∀ e w' p, Loses w p e → step f w e = some w' → ∃ proc, w.procs.get? p = some proc ∧ w' = w.setProc p { proc with call := .idle }

end

section

variable {K : Type} {f : Fernet K}

/-! ### The test for ciphertext -/

theorem like_encrypt (k : K) (n : Nat) (t : Text) : like (f.encrypt k n t) = true := by
  unfold like
  rw [f.encrypt_prefix]
  decide

theorem eq_token_of_isToken {value : Stored K} (h : value.isToken = true) : ∃ k n t, value = .token k n t := by
  cases value with
  | token k n t => exact ⟨k, n, t, rfl⟩
  | plain value => cases h

/-- Where the queries are answered, no stored token is missed. -/
theorem noToken_of_answered {db : Db K} (h : ciphertextExists f .answered db = false) : NoToken db := by
  intro entry hentry
  have hnot := List.any_eq_false.1 h entry hentry
  refine Bool.eq_false_iff.2 fun htoken => hnot ?_
  obtain ⟨k, n, t, heq⟩ := eq_token_of_isToken htoken
  split
  · rw [heq]
    exact like_encrypt k n t
  · rfl

theorem NoToken.under {db : Db K} (h : NoToken db) (key : K) : Under db key := by
  intro entry hentry k n t htoken
  have hnot := h entry hentry
  rw [htoken] at hnot
  cases hnot

theorem under_set {db : Db K} {key : K} (h : Under db key) (place : Place) {value : Stored K}
    (hvalue : ∀ k n t, value = .token k n t → k = key) : Under (db.set place value) key := by
  rintro ⟨place', value'⟩ hentry k n t htoken
  rcases Dict.mem_set hentry with heq | hentry
  · obtain ⟨-, rfl⟩ := Prod.mk.inj heq
    exact hvalue k n t htoken
  · exact h _ hentry k n t htoken

theorem noToken_set_plain {db : Db K} (h : NoToken db) (place : Place) (value : Text) : NoToken (db.set place (.plain value)) := by
  rintro ⟨place', value'⟩ hentry
  rcases Dict.mem_set hentry with heq | hentry
  · obtain ⟨-, rfl⟩ := Prod.mk.inj heq
    rfl
  · exact h _ hentry

theorem noToken_pop {db : Db K} (h : NoToken db) (place : Place) : NoToken (db.pop place) :=
  fun entry hentry => h entry (List.mem_of_mem_filter hentry)

theorem under_pop {db : Db K} {key : K} (h : Under db key) (place : Place) : Under (db.pop place) key :=
  fun entry hentry => h entry (List.mem_of_mem_filter hentry)

/-! ### What a run keeps -/

/-- What holds of a process: its key is in the file, and where it is about to create the file nothing encrypted is stored. -/
structure ProcInv (file : File K) (db : Db K) (proc : Proc K) : Prop where
  cached : ∀ k, proc.fernet = some k → file = .key k
  creates : proc.call = .creates → file = .absent → NoToken db
  writes : ∀ k, proc.call = .writes k → file = .created ∧ NoToken db

structure Inv (w : World K) : Prop where
  under : ∀ k, w.file = .key k → Under w.db k
  returned : ∀ k ∈ w.returned, w.file = .key k
  procs : ∀ p proc, w.procs.get? p = some proc → ProcInv w.file w.db proc
  one : ∀ p q proc proc' k k', w.procs.get? p = some proc → w.procs.get? q = some proc' → proc.call = .writes k → proc'.call = .writes k' → p = q

variable {w w' : World K} {p : Nat} {proc : Proc K}

theorem get?_setProc {q : Nat} {proc' : Proc K} (h : (w.setProc p proc).procs.get? q = some proc') :
    q = p ∧ proc' = proc ∨ q ≠ p ∧ w.procs.get? q = some proc' := by
  unfold World.setProc at h
  dsimp only at h
  by_cases hq : q = p
  · rw [hq, Dict.get?_set_self] at h
    exact .inl ⟨hq, (Option.some.inj h).symm⟩
  · rw [Dict.get?_set_of_ne hq] at h
    exact .inr ⟨hq, h⟩

/-- A process takes a step that is none of the file. -/
theorem Inv.setProc (h : Inv w) (hproc : ProcInv w.file w.db proc) (hwrites : ∀ k, proc.call ≠ .writes k) : Inv (w.setProc p proc) := by
  refine ⟨h.under, h.returned, fun q proc' hq => ?_, fun q r proc₁ proc₂ k k' hq hr hk hk' => ?_⟩
  · rcases get?_setProc hq with ⟨-, rfl⟩ | ⟨-, hq⟩
    · exact hproc
    · exact h.procs q proc' hq
  · rcases get?_setProc hq with ⟨-, rfl⟩ | ⟨-, hq⟩
    · exact absurd hk (hwrites k)
    · rcases get?_setProc hr with ⟨-, rfl⟩ | ⟨-, hr⟩
      · exact absurd hk' (hwrites k')
      · exact h.one q r proc₁ proc₂ k k' hq hr hk hk'

/-- A process that has no call under way any more. -/
theorem ProcInv.idle {file : File K} {db : Db K} (h : ProcInv file db proc) : ProcInv file db { proc with call := .idle } :=
  ⟨h.cached, fun hcall => (nomatch hcall), fun _ hcall => (nomatch hcall)⟩

theorem Inv.returns (h : Inv w) {k : K} (hk : w.file = .key k) : Inv { w with returned := w.returned ++ [k] } := by
  refine ⟨h.under, fun k' hk' => ?_, h.procs, h.one⟩
  rcases List.mem_append.1 hk' with hk' | hk'
  · exact h.returned k' hk'
  · rw [List.mem_singleton.1 hk']
    exact hk

/-- Values are stored and erased that leave what is known of the processes. -/
theorem Inv.setDb (h : Inv w) {db : Db K} (hunder : ∀ k, w.file = .key k → Under db k)
    (hnone : (∀ k, w.file ≠ .key k) → NoToken w.db → NoToken db) : Inv { w with db := db } := by
  refine ⟨hunder, h.returned, fun q proc hq => ?_, h.one⟩
  obtain ⟨hcached, hcreates, hwrites⟩ := h.procs q proc hq
  refine ⟨hcached, fun hcall hfile => hnone (fun k hk => ?_) (hcreates hcall hfile), fun k hk => ?_⟩
  · rw [hfile] at hk
    cases hk
  · obtain ⟨hfile, hdb⟩ := hwrites k hk
    refine ⟨hfile, hnone (fun k' hk' => ?_) hdb⟩
    rw [hfile] at hk'
    cases hk'

theorem Inv.die (h : Inv w) : Inv { w with procs := w.procs.pop p } := by
  have hget : ∀ {q proc}, (w.procs.pop p).get? q = some proc → w.procs.get? q = some proc := by
    intro q proc hq
    have hne : q ≠ p := by
      rintro rfl
      exact Dict.not_mem_keys_pop w.procs q (List.mem_map.2 ⟨_, Dict.mem_of_get? hq, rfl⟩)
    rwa [Dict.get?_pop_of_ne hne] at hq
  exact ⟨h.under, h.returned, fun q proc hq => h.procs q proc (hget hq),
    fun q r proc proc' k k' hq hr => h.one q r proc proc' k k' (hget hq) (hget hr)⟩

/-- The process that has created the file is the only one that may write it. -/
theorem Inv.create (h : Inv w) {fernet : Option K} (hp : w.procs.get? p = some ⟨fernet, .creates⟩) (hfile : w.file = .absent) (k : K) :
    Inv ({ w with file := .created }.setProc p ⟨fernet, .writes k⟩) := by
  have hothers : ∀ {q proc}, w.procs.get? q = some proc → proc.fernet = none ∧ ∀ k', proc.call ≠ .writes k' := by
    intro q proc hq
    obtain ⟨hcached, -, hwrites⟩ := h.procs q proc hq
    rw [hfile] at hcached hwrites
    exact ⟨Option.eq_none_iff_forall_not_mem.2 fun k' hk' => (nomatch hcached k' hk'), fun k' hk' => (nomatch (hwrites k' hk').1)⟩
  have hdb : NoToken w.db := (h.procs p _ hp).creates rfl hfile
  refine ⟨fun k' hk' => (nomatch hk'), fun k' hk' => ?_, fun q proc hq => ?_, fun q r proc proc' k₁ k₂ hq hr hk₁ hk₂ => ?_⟩
  · have hkey := h.returned k' hk'
    rw [hfile] at hkey
    cases hkey
  · rcases get?_setProc hq with ⟨-, rfl⟩ | ⟨-, hq⟩
    · refine ⟨fun k' hk' => ?_, fun hcall => (nomatch hcall), fun _ _ => ⟨rfl, hdb⟩⟩
      rw [(hothers hp).1] at hk'
      cases hk'
    · refine ⟨fun k' hk' => ?_, fun _ habsent => (nomatch habsent), fun k' hk' => absurd hk' ((hothers hq).2 k')⟩
      rw [(hothers hq).1] at hk'
      cases hk'
  · rcases get?_setProc hq with ⟨rfl, rfl⟩ | ⟨-, hq⟩
    · rcases get?_setProc hr with ⟨rfl, -⟩ | ⟨-, hr⟩
      · rfl
      · exact absurd hk₂ ((hothers hr).2 k₂)
    · exact absurd hk₁ ((hothers hq).2 k₁)

theorem Inv.write (h : Inv w) {fernet : Option K} {k : K} (hp : w.procs.get? p = some ⟨fernet, .writes k⟩) :
    Inv ({ w with file := .key k, returned := w.returned ++ [k] }.setProc p ⟨some k, .idle⟩) := by
  obtain ⟨hfile, hdb⟩ := (h.procs p _ hp).writes k rfl
  have hnone : w.returned = [] := by
    refine List.eq_nil_iff_forall_not_mem.2 fun k' hk' => ?_
    have hkey := h.returned k' hk'
    rw [hfile] at hkey
    cases hkey
  have hothers : ∀ {q proc}, q ≠ p → w.procs.get? q = some proc → proc.fernet = none ∧ ∀ k', proc.call ≠ .writes k' := by
    intro q proc hne hq
    have hcached := (h.procs q proc hq).cached
    rw [hfile] at hcached
    exact ⟨Option.eq_none_iff_forall_not_mem.2 fun k' hk' => (nomatch hcached k' hk'), fun k' hk' => hne (h.one q p _ _ k' k hq hp hk' rfl)⟩
  refine ⟨fun k' _ => hdb.under k', fun k' hk' => ?_, fun q proc hq => ?_, fun q r proc proc' k₁ k₂ hq hr hk₁ hk₂ => ?_⟩
  · have hk : k' ∈ w.returned ++ [k] := hk'
    rw [hnone, List.nil_append, List.mem_singleton] at hk
    rw [hk]
    rfl
  · rcases get?_setProc hq with ⟨-, rfl⟩ | ⟨hne, hq⟩
    · refine ⟨fun k' hk' => ?_, fun hcall => (nomatch hcall), fun _ hcall => (nomatch hcall)⟩
      rw [Option.some.inj hk']
      rfl
    · refine ⟨fun k' hk' => ?_, fun _ habsent => (nomatch habsent), fun k' hk' => absurd hk' ((hothers hne hq).2 k')⟩
      rw [(hothers hne hq).1] at hk'
      cases hk'
  · rcases get?_setProc hq with ⟨-, rfl⟩ | ⟨hne, hq⟩
    · cases hk₁
    · exact absurd hk₁ ((hothers hne hq).2 k₁)

/-! ### The steps -/

variable {e : Event K}

theorem probed_creates (hok : Probed w (.test p probe)) (htest : ciphertextExists f probe w.db = false) : NoToken w.db := by
  cases probe with
  | answered => exact noToken_of_answered htest
  | operationalError => exact hok rfl
  | otherException => cases htest

theorem inv_step (h : Inv w) (hok : Probed w e) (hstep : step f w e = some w') : Inv w' := by
  have hfresh : ∀ call : Call K, (call = .creates → w.file = .absent → NoToken w.db) → (∀ k, call ≠ .writes k) →
      ProcInv w.file w.db ⟨none, call⟩ :=
    fun call hcreates hwrites => ⟨fun _ hk => (by cases hk), hcreates, fun k hk => absurd hk (hwrites k)⟩
  cases e with
  | start p =>
    obtain ⟨-, rfl⟩ := System.of_guard hstep
    exact h.setProc (hfresh .idle (fun hcall => by cases hcall) fun _ hcall => by cases hcall) fun _ hcall => by cases hcall
  | die p =>
    obtain ⟨-, rfl⟩ := System.of_guard hstep
    exact h.die
  | removeKey =>
    obtain ⟨hnone, rfl⟩ := System.of_guard hstep
    have hprocs : w.procs = [] := List.isEmpty_iff.1 hnone
    refine ⟨fun _ hk => (by cases hk), fun _ hk => (by cases hk), fun q proc hq => ?_, fun q _ proc _ _ _ hq => ?_⟩
    · rw [hprocs] at hq
      cases hq
    · rw [hprocs] at hq
      cases hq
  | getFernet p =>
    simp only [step] at hstep
    split at hstep
    · rename_i k hp
      cases hstep
      exact h.returns ((h.procs p _ hp).cached k rfl)
    · split at hstep
      · cases hstep
        exact h.setProc (hfresh .tests (fun hcall => by cases hcall) fun _ hcall => by cases hcall) fun _ hcall => by cases hcall
      · cases hstep
        exact h.setProc (hfresh .reads (fun hcall => by cases hcall) fun _ hcall => by cases hcall) fun _ hcall => by cases hcall
    · cases hstep
  | read p =>
    simp only [step] at hstep
    split at hstep
    · rename_i fernet hp
      split at hstep
      · rename_i k hfile
        cases hstep
        have hproc : ProcInv w.file w.db ⟨some k, .idle⟩ :=
          ⟨fun k' hk' => Option.some.inj hk' ▸ hfile, fun hcall => (by cases hcall), fun _ hcall => (by cases hcall)⟩
        exact (h.returns hfile).setProc hproc fun _ hcall => by cases hcall
      · cases hstep
        exact h.setProc (h.procs p _ hp).idle fun _ hcall => by cases hcall
    · cases hstep
  | test p probe =>
    simp only [step] at hstep
    split at hstep
    · rename_i fernet hp
      cases hstep
      cases htest : ciphertextExists f probe w.db with
      | true => exact h.setProc (h.procs p _ hp).idle fun _ hcall => by cases hcall
      | false =>
        have hdb := probed_creates hok htest
        exact h.setProc ⟨(h.procs p _ hp).cached, fun _ _ => hdb, fun _ hcall => (by cases hcall)⟩ fun _ hcall => by cases hcall
    · cases hstep
  | create p k =>
    simp only [step] at hstep
    split at hstep
    · rename_i fernet hp
      split at hstep
      · rename_i hfile
        cases hstep
        exact h.create hp hfile k
      · cases hstep
        exact h.setProc (h.procs p _ hp).idle fun _ hcall => by cases hcall
    · cases hstep
  | write p =>
    simp only [step] at hstep
    split at hstep
    · rename_i fernet k hp
      cases hstep
      exact h.write hp
    · cases hstep
  | save p place n t =>
    simp only [step] at hstep
    split at hstep
    · rename_i k hp
      cases hstep
      have hfile := (h.procs p _ hp).cached k rfl
      refine h.setDb (fun k' hk' => under_set (h.under k' hk') place fun k₁ n₁ t₁ htoken => ?_) fun hnot => absurd hfile (hnot k)
      obtain ⟨rfl, -, -⟩ := Stored.token.inj htoken
      rw [hfile] at hk'
      exact File.key.inj hk'
    · cases hstep
  | saveSetting p key value =>
    obtain ⟨-, rfl⟩ := System.of_guard hstep
    exact h.setDb (fun k hk => under_set (h.under k hk) _ fun _ _ _ htoken => by cases htoken) fun _ hdb => noToken_set_plain hdb _ value
  | erase p place =>
    obtain ⟨-, rfl⟩ := System.of_guard hstep
    exact h.setDb (fun k hk => under_pop (h.under k hk) place) fun _ hdb => noToken_pop hdb place

/-- Only a write puts a key into the file. -/
theorem file_of_step (hstep : step f w e = some w') {k : K} (hkey : w'.file = .key k) :
    w.file = .key k ∨ ∃ p fernet, w.procs.get? p = some ⟨fernet, .writes k⟩ := by
  cases e with
  | write p =>
    simp only [step] at hstep
    split at hstep
    · rename_i fernet k' hp
      cases hstep
      obtain rfl := File.key.inj hkey
      exact .inr ⟨p, fernet, hp⟩
    · cases hstep
  | start | die =>
    obtain ⟨-, rfl⟩ := System.of_guard hstep
    exact .inl hkey
  | removeKey =>
    obtain ⟨-, rfl⟩ := System.of_guard hstep
    cases hkey
  | saveSetting | erase =>
    obtain ⟨-, rfl⟩ := System.of_guard hstep
    exact .inl hkey
  | getFernet p =>
    simp only [step] at hstep
    split at hstep
    · cases hstep
      exact .inl hkey
    · split at hstep
      · cases hstep
        exact .inl hkey
      · cases hstep
        exact .inl hkey
    · cases hstep
  | read p =>
    simp only [step] at hstep
    split at hstep
    · split at hstep
      · cases hstep
        exact .inl hkey
      · cases hstep
        exact .inl hkey
    · cases hstep
  | test p probe =>
    simp only [step] at hstep
    split at hstep
    · cases hstep
      exact .inl hkey
    · cases hstep
  | create p k' =>
    simp only [step] at hstep
    split at hstep
    · split at hstep
      · cases hstep
        cases hkey
      · cases hstep
        exact .inl hkey
    · cases hstep
  | save p place n t =>
    simp only [step] at hstep
    split at hstep
    · cases hstep
      exact .inl hkey
    · cases hstep

theorem loser_of_step (hloses : Loses w p e) (hstep : step f w e = some w') :
    ∃ proc, w.procs.get? p = some proc ∧ w' = w.setProc p { proc with call := .idle } := by
  cases e with
  | read q =>
    obtain ⟨rfl, hfile⟩ := hloses
    simp only [step, hfile] at hstep
    split at hstep
    · rename_i fernet hp
      cases hstep
      exact ⟨_, hp, rfl⟩
    · cases hstep
  | create q k =>
    obtain ⟨rfl, hfile⟩ := hloses
    simp only [step] at hstep
    split at hstep
    · rename_i fernet hp
      cases hstep
      exact ⟨_, hp, rfl⟩
    · cases hstep
  | start | die | removeKey | getFernet | test | write | save | saveSetting | erase => exact hloses.elim

theorem inv_init (h : (system f).init w) : Inv w := by
  obtain ⟨hprocs, hreturned, hunder⟩ := h
  refine ⟨hunder, fun k hk => ?_, fun p proc hp => ?_, fun p _ proc _ _ _ hp => ?_⟩
  · rw [hreturned] at hk
    cases hk
  · rw [hprocs] at hp
    cases hp
  · rw [hprocs] at hp
    cases hp

end

/-- Where the queries answer, or fail before anything is stored, the key is not replaced under stored secrets. -/
theorem key_kept {K : Type} (f : Fernet K) {w : World K} (h : (system f).Reach Probed w) : Kept f w := by
  have hinv : Inv w := h.invariant (fun _ => inv_init) fun _ _ _ hinv hok hstep => inv_step hinv hok hstep
  refine ⟨fun e w' k hstep hkey => ?_, fun k hk k' hk' => ?_, fun k hk entry hentry k' n t htoken => ?_,
    fun _ _ _ hloses hstep => loser_of_step hloses hstep⟩
  · refine (file_of_step hstep hkey).imp_right ?_
    rintro ⟨p, fernet, hp⟩
    exact ((hinv.procs p _ hp).writes k rfl).2
  · have hsame := hinv.returned k hk
    rw [hinv.returned k' hk'] at hsame
    exact (File.key.inj hsame).symm
  · rw [htoken, hinv.under k (hinv.returned k hk) entry hentry k' n t htoken]
    exact f.decrypt_encrypt k n t

/-! ### Runs -/

/-- A token of the right form that says what it is made of. -/
def labelled : Fernet Nat where
  encrypt k n t := "gAAAAA".toList ++ (natText k ++ '_' :: (natText n ++ '_' :: t))
  decrypt k token :=
    if (partition '_' (token.drop 6)).1 = natText k then some (partition '_' (partition '_' (token.drop 6)).2.2).2.2 else none
  decrypt_encrypt k n t := by
    have hbar : ∀ m : Nat, '_' ∉ natText m := fun m => not_mem_natText (by decide)
    have hdrop : ("gAAAAA".toList ++ (natText k ++ '_' :: (natText n ++ '_' :: t))).drop 6 = natText k ++ '_' :: (natText n ++ '_' :: t) :=
      List.drop_left' (by decide)
    rw [hdrop, partition_append (hbar k), if_pos rfl]
    dsimp only
    rw [partition_append (hbar n)]
  encrypt_prefix _ _ _ := List.take_left' (by decide)

/-- A new installation. -/
def empty : World Nat := { file := .absent, db := [] }

theorem empty_init : (system labelled).init empty := ⟨rfl, rfl, fun _ hk => nomatch hk⟩

/-- Two processes on the way to the first key, of which one gets it, and a third one behind the removal of the key. -/
def firstKey : List (Event Nat) :=
  [.start 0, .start 1, .getFernet 0, .getFernet 1, .test 0 .operationalError, .test 1 .answered, .create 0 7, .create 1 8, .getFernet 1,
    .read 1, .write 0, .getFernet 1, .read 1, .save 1 (.setting "github_token".toList) 0 "s".toList, .getFernet 0, .die 0, .die 1, .removeKey,
    .start 2, .getFernet 2, .test 2 .operationalError, .create 2 9]

theorem firstKey_kept : ∃ w, ((system labelled).guarded Probed).exec empty (firstKey.take 15) = some w ∧ w.returned = [7, 7, 7] ∧
    Kept labelled w := by
  have hrun : ∃ w, ((system labelled).guarded Probed).exec empty (firstKey.take 15) = some w ∧ w.returned = [7, 7, 7] := ⟨_, rfl, by decide⟩
  obtain ⟨w, hexec, hreturned⟩ := hrun
  exact ⟨w, hexec, hreturned, key_kept labelled ((System.Reach.init empty_init).guarded_exec hexec)⟩

/-- Behind the removal the test for ciphertext ends in an `OperationalError`, and the new key is written over the secret. -/
theorem key_replaced : ∃ w, (system labelled).Reachable w ∧ ¬Kept labelled w := by
  have hrun : ∃ w w', (system labelled).exec empty firstKey = some w ∧ step labelled w (.write 2) = some w' ∧ w'.file = .key 9 ∧
      w.file = .created ∧ ¬NoToken w.db := ⟨_, _, rfl, rfl, rfl, rfl, by decide⟩
  obtain ⟨w, w', hexec, hstep, hkey, hcreated, htoken⟩ := hrun
  refine ⟨w, (System.Reach.init empty_init).exec (fun _ _ => trivial) hexec, fun hkept => ?_⟩
  rcases hkept.unreplaced _ _ _ hstep hkey with hfile | hnone
  · rw [hcreated] at hfile
    cases hfile
  · exact htoken hnone

end ProxmoxTool.KeyFile
