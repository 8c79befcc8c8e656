import ProxmoxTool.ConfigBackup.HostsAgain

/-!
# A document twice: guests

A guest is looked up by host and VMID and then by name and type, and each item may change what the next one is looked up by.
`guestTrace` has what becomes of each item of the first import.  If the second one writes each item to the same row, the guests stay as they
are exactly if no default that was filled in for a new guest is asked to be `null` again: `guests_again_iff`.
-/

namespace ProxmoxTool.ConfigBackup

variable {flags : Flags} {db db' : Db} {note : Note}

/-! ### One item -/

def GuestItem.nameText (item : GuestItem) : Text := strip ((textArg item.name).getD [])

def GuestItem.typeText (item : GuestItem) : Text := strip ((textArg item.guestType).getD [])

def GuestItem.valid (item : GuestItem) : Bool := decide (item.nameText ≠ [] ∧ item.typeText ∈ guestTypes)

def GuestItem.host (db : Db) (item : GuestItem) : Option Host := (hostNamed db item.hostName).getD none

/-- The guest that the item is written to, if it is there. -/
def GuestItem.found (db : Db) (item : GuestItem) : Option Guest :=
  findGuest db (item.host db) ((store .integer (got (item.fields .vmid))).getD .null) item.nameText item.typeText

def GuestItem.write (flags : Flags) (db : Db) (item : GuestItem) (guest : Guest) : Guest :=
  updateGuest flags db guest item.nameText item.typeText (item.host db) item fun f =>
    (stored GuestField.kind (writtenFields flags false item) f).getD (guest.fields f)

def GuestItem.row (flags : Flags) (db : Db) (item : GuestItem) : Guest :=
  newGuest db item.nameText item.typeText (item.host db) item fun f => (stored GuestField.kind (writtenFields flags true item) f).getD .null

/-- What an item does to the guests. -/
def guestUpsert (flags : Flags) (db : Db) (item : GuestItem) : Twice Guest Nat GuestItem :=
  if item.valid then
    match item.found db with
    | none => .create (item.row flags db) item
    | some guest => .change guest.id item
  else .ignore

def GuestItem.Storable (flags : Flags) (item : GuestItem) : Prop :=
  ∀ f v, writtenFields flags false item f = some v → (store f.kind v).isSome = true

theorem writtenFields_sub {item : GuestItem} {f : GuestField} {v : Value} (h : writtenFields flags false item f = some v) :
    writtenFields flags true item f = some v := by
  unfold writtenFields at h ⊢
  split at h
  · cases h
  · rw [Bool.not_true, Bool.and_false, Bool.false_and, if_neg Bool.false_ne_true]
    exact h

theorem importGuest_upsert (hkeys : (db.guests.map Guest.id).Nodup) {item : GuestItem} (h : importGuest flags db item = some (db', note)) :
    db' = { db with guests := (guestUpsert flags db item).first.apply Guest.id (GuestItem.write flags db) db.guests } ∧
      (item.valid = true → item.Storable flags) := by
  have htexts : ∀ {name guestType}, textArg item.name = some name → textArg item.guestType = some guestType →
      item.nameText = strip name ∧ item.typeText = strip guestType := by
    intro name guestType hname htype
    rw [GuestItem.nameText, GuestItem.typeText, hname, htype]
    exact ⟨rfl, rfl⟩
  unfold guestUpsert
  rcases importGuest_cases h with ⟨rfl, name, guestType, hname, htype, hinvalid⟩ |
    ⟨name, guestType, host, vmid, fields, hname, htype, hne, hmem, hhost, hvmid, ⟨hfind, hassign, -, rfl⟩ | ⟨old, hfind, hassign, rfl⟩⟩
  · obtain ⟨htext, htext'⟩ := htexts hname htype
    have hvalid : item.valid = false := by
      unfold GuestItem.valid
      rw [htext, htext']
      exact decide_eq_false fun hboth => hinvalid.elim hboth.1 fun hnot => hnot hboth.2
    rw [hvalid]
    exact ⟨rfl, fun hvalid' => by cases hvalid'⟩
  · obtain ⟨htext, htext'⟩ := htexts hname htype
    obtain ⟨rfl, hstore⟩ := assign_eq hassign
    have hvalid : item.valid = true := by
      unfold GuestItem.valid
      rw [htext, htext']
      exact decide_eq_true ⟨hne, hmem⟩
    have hhost' : item.host db = host := by rw [GuestItem.host, hhost]; rfl
    have hfound : item.found db = none := by
      unfold GuestItem.found
      rw [hhost', hvmid, htext, htext']
      exact hfind
    rw [if_pos hvalid, hfound]
    refine ⟨?_, fun _ f v hv => hstore f v (writtenFields_sub hv)⟩
    rw [GuestItem.row, hhost', htext, htext']
    rfl
  · obtain ⟨htext, htext'⟩ := htexts hname htype
    obtain ⟨rfl, hstore⟩ := assign_eq hassign
    have hvalid : item.valid = true := by
      unfold GuestItem.valid
      rw [htext, htext']
      exact decide_eq_true ⟨hne, hmem⟩
    have hhost' : item.host db = host := by rw [GuestItem.host, hhost]; rfl
    have hfound : item.found db = some old := by
      unfold GuestItem.found
      rw [hhost', hvmid, htext, htext']
      exact hfind
    have hold : old ∈ db.guests := findGuest_mem hfind
    rw [if_pos hvalid, hfound]
    refine ⟨?_, fun _ => hstore⟩
    have hwrite : updateGuest flags db old (strip name) (strip guestType) host item
        (fun f => (stored GuestField.kind (writtenFields flags false item) f).getD (old.fields f)) = item.write flags db old := by
      rw [GuestItem.write, hhost', htext, htext']
    rw [hwrite, replaceRow_eq hkeys hold rfl]
    rfl

/-! ### The items of a document -/

/-- What becomes of each item, over the tags and hosts of `db`. -/
def guestTrace (flags : Flags) (db : Db) : List GuestItem → List Guest → List (Twice Guest Nat GuestItem)
  | [], _ => []
  | item :: items, guests =>
      let t := guestUpsert flags { db with guests := guests } item
      t :: guestTrace flags db items (t.first.apply Guest.id (GuestItem.write flags db) guests)

/-- The guests after the items. -/
def guestRun (flags : Flags) (db : Db) (items : List GuestItem) (guests : List Guest) : List Guest :=
  applyUpserts Guest.id (GuestItem.write flags db) ((guestTrace flags db items guests).map Twice.first) guests

/-- What is written depends on the tags and hosts only. -/
theorem write_guests (flags : Flags) (db : Db) (guests : List Guest) :
    GuestItem.write flags { db with guests := guests } = GuestItem.write flags db := by
  funext item guest
  have hhost : item.host { db with guests := guests } = item.host db := by
    unfold GuestItem.host hostNamed
    rfl
  unfold GuestItem.write updateGuest
  rw [hhost]
  rfl

/-- What an upsert for an item can be. -/
theorem guestUpsert_cases (flags : Flags) (db : Db) (item : GuestItem) :
    (item.valid = false ∧ guestUpsert flags db item = .ignore) ∨
      (item.valid = true ∧ guestUpsert flags db item = .create (item.row flags db) item ∧
        (item.row flags db).id ∉ db.guests.map Guest.id) ∨
      ∃ k, item.valid = true ∧ guestUpsert flags db item = .change k item ∧ k ∈ db.guests.map Guest.id := by
  unfold guestUpsert
  cases hvalid : item.valid with
  | false => exact .inl ⟨rfl, rfl⟩
  | true =>
    rw [if_pos rfl]
    cases hfound : item.found db with
    | none => exact .inr (.inl ⟨rfl, rfl, freshId_not_mem Guest.id db.guests⟩)
    | some guest =>
      exact .inr (.inr ⟨guest.id, rfl, rfl, List.mem_map_of_mem (findGuest_mem hfound)⟩)

theorem key_write (db : Db) (item : GuestItem) (guest : Guest) : (item.write flags db guest).id = guest.id := rfl

variable (flags db) in
theorem guestUpsert_keys {guests : List Guest} (hkeys : (guests.map Guest.id).Nodup) (item : GuestItem) :
    (((guestUpsert flags { db with guests := guests } item).first.apply Guest.id (GuestItem.write flags db) guests).map Guest.id).Nodup := by
  rcases guestUpsert_cases flags { db with guests := guests } item with ⟨-, ht⟩ | ⟨-, ht, hnew⟩ | ⟨k, -, ht, -⟩
  · rw [ht]
    exact hkeys
  · rw [ht]
    exact nodup_append_of_not_mem Guest.id hkeys hnew
  · rw [ht]
    rw [Twice.first, Upsert.map_key_change fun p row => key_write db p row]
    exact hkeys

theorem guestItems_run {items : List GuestItem} (hkeys : (db.guests.map Guest.id).Nodup)
    (h : runSteps flags db (items.map .guest) = some db') :
    db' = { db with guests := guestRun flags db items db.guests } ∧ ∀ item ∈ items, item.valid = true → item.Storable flags := by
  have hgen : ∀ {guests : List Guest}, (guests.map Guest.id).Nodup → runSteps flags { db with guests := guests } (items.map .guest) = some db' →
      db' = { db with guests := guestRun flags db items guests } ∧ ∀ item ∈ items, item.valid = true → item.Storable flags := by
    clear hkeys h
    induction items with
    | nil =>
      intro guests _ h
      rw [List.map_nil, runSteps_nil, Option.some_inj] at h
      exact ⟨h.symm, fun _ hitem => absurd hitem List.not_mem_nil⟩
    | cons item items ih =>
      intro guests hkeys h
      rw [List.map_cons, runSteps_cons, Option.bind_eq_some_iff] at h
      obtain ⟨⟨db₁, note⟩, hone, hrest⟩ := h
      obtain ⟨hdb₁, hstorable⟩ := @importGuest_upsert flags { db with guests := guests } db₁ note hkeys item hone
      rw [write_guests] at hdb₁
      dsimp only at hdb₁ hrest
      rw [hdb₁] at hrest
      obtain ⟨hrun, hall⟩ := ih (guestUpsert_keys flags db hkeys item) hrest
      refine ⟨?_, List.forall_mem_cons.2 ⟨hstorable, hall⟩⟩
      rw [hrun]
      rfl
  exact hgen hkeys h

theorem guestRun_keys {guests : List Guest} (hkeys : (guests.map Guest.id).Nodup) (items : List GuestItem) :
    ((guestRun flags db items guests).map Guest.id).Nodup := by
  induction items generalizing guests with
  | nil => exact hkeys
  | cons item items ih => exact ih (guestUpsert_keys flags db hkeys item)

variable (flags db) in
theorem freshKeys_guests {guests : List Guest} (hkeys : (guests.map Guest.id).Nodup) (items : List GuestItem) :
    FreshKeys Guest.id (guests.map Guest.id) (guestTrace flags db items guests) := by
  induction items generalizing guests with
  | nil => trivial
  | cons item items ih =>
    have hrest := ih (guestUpsert_keys flags db hkeys item)
    rw [guestTrace]
    revert hrest
    generalize guestTrace flags db items _ = ts
    rcases guestUpsert_cases flags { db with guests := guests } item with ⟨-, ht⟩ | ⟨-, ht, hnew⟩ | ⟨k, -, ht, hk⟩
    · rw [ht]
      exact fun hrest => hrest
    · rw [ht]
      intro hrest
      rw [Twice.first, Upsert.apply, List.map_append] at hrest
      exact ⟨hnew, hrest⟩
    · rw [ht]
      intro hrest
      rw [Twice.first, Upsert.map_key_change fun p row => key_write db p row] at hrest
      exact ⟨hk, hrest⟩

/-- If every item is written to the same row again, the second run changes the rows that the first has changed or created. -/
theorem guestTrace_again {guests guests' : List Guest} (items : List GuestItem)
    (hsame : (guestTrace flags db items guests').map (Twice.key? Guest.id) = (guestTrace flags db items guests).map (Twice.key? Guest.id))
    (hthere : ∀ t ∈ guestTrace flags db items guests, ∀ k, t.key? Guest.id = some k → k ∈ guests'.map Guest.id) :
    (guestTrace flags db items guests').map Twice.first = (guestTrace flags db items guests).map (Twice.second Guest.id) := by
  induction items generalizing guests guests' with
  | nil => rfl
  | cons item items ih =>
    rw [guestTrace, guestTrace, List.map_cons, List.map_cons, List.cons.injEq] at hsame
    obtain ⟨hhead, htail⟩ := hsame
    rw [guestTrace] at hthere
    have hfirst := hthere _ List.mem_cons_self
    have hlater := fun t ht => hthere t (List.mem_cons_of_mem _ ht)
    rw [guestTrace, guestTrace, List.map_cons, List.map_cons]
    have hsecond : (guestUpsert flags { db with guests := guests' } item).first =
        (guestUpsert flags { db with guests := guests } item).second Guest.id ∧
        ((guestUpsert flags { db with guests := guests' } item).first.apply Guest.id (GuestItem.write flags db) guests').map Guest.id =
          guests'.map Guest.id := by
      rcases guestUpsert_cases flags { db with guests := guests' } item with ⟨hvalid', ht'⟩ | ⟨-, ht', hnew⟩ | ⟨k, hvalid', ht', -⟩
      · rcases guestUpsert_cases flags { db with guests := guests } item with ⟨-, ht⟩ | ⟨hvalid, -, -⟩ | ⟨k, hvalid, -, -⟩
        · rw [ht, ht']
          exact ⟨rfl, rfl⟩
        · rw [hvalid'] at hvalid
          cases hvalid
        · rw [hvalid'] at hvalid
          cases hvalid
      · rw [ht'] at hhead
        exact absurd (hfirst _ hhead.symm) hnew
      · rw [ht', Twice.first, Upsert.map_key_change fun p row => key_write db p row]
        rw [ht'] at hhead
        refine ⟨?_, rfl⟩
        rcases guestUpsert_cases flags { db with guests := guests } item with ⟨-, ht⟩ | ⟨-, ht, -⟩ | ⟨k', -, ht, -⟩
        · rw [ht] at hhead
          cases hhead
        · rw [ht] at hhead ⊢
          rw [Twice.second, ← Option.some.inj hhead]
        · rw [ht] at hhead ⊢
          rw [Twice.second, ← Option.some.inj hhead]
    rw [ih htail fun t ht k hk => hsecond.2 ▸ hlater t ht k hk, hsecond.1]

/-! ### Rows that are written twice -/

section

variable (db) (item : GuestItem) (guest : Guest)

private theorem guest_id : (item.write flags db guest).id = (none : Option Nat).getD guest.id := rfl

private theorem guest_name : (item.write flags db guest).name = (some item.nameText).getD guest.name := rfl

private theorem guest_type : (item.write flags db guest).guestType = (some item.typeText).getD guest.guestType := rfl

private theorem guest_field (f : GuestField) : (item.write flags db guest).fields f =
    (stored GuestField.kind (writtenFields flags false item) f).getD (guest.fields f) := rfl

private theorem guest_host : (item.write flags db guest).host = ((item.host db).map fun h => some h.id).getD guest.host := by
  show ((item.host db).map Host.id).or guest.host = _
  cases item.host db with
  | none => rfl
  | some host => rfl

private theorem guest_tags : (item.write flags db guest).tags = (tagLinks db item.tags).getD guest.tags := rfl

end

/-- The columns that say how a guest is reached. -/
def Guest.connection (guest : Guest) : Scalar × Scalar := (guest.fields .ipAddress, guest.fields .connectionMethod)

theorem store_text_scalar {s : Scalar} (h : (store .text (.scalar s)).isSome = true) : store .text (.scalar s) = some s := by
  cases s with
  | int i =>
    have hint : store .text (.scalar (.int i)) = if bindable i then some (.int i) else none := by simp [store]
    rw [hint] at h ⊢
    split at h
    · rename_i hbind
      exact if_pos hbind
    · cases h
  | _ => rfl

variable (db) in
/-- An item drops the credential, or it leaves alone the credential and the connection of every guest with this connection. -/
theorem write_credential {item : GuestItem} (hstorable : item.Storable flags) (guest : Guest) :
    (item.write flags db guest).credential = none ∨ ∀ guest' : Guest, guest'.connection = guest.connection →
      (item.write flags db guest').credential = guest'.credential ∧ (item.write flags db guest').connection = guest'.connection := by
  have hcredential : ∀ guest : Guest, (item.write flags db guest).credential =
      if flags.importHosts && changesConnection guest item then none else guest.credential := fun _ => rfl
  by_cases hchanges : (flags.importHosts && changesConnection guest item) = true
  · exact .inl ((hcredential guest).trans (if_pos hchanges))
  · refine .inr fun guest' hsame => ?_
    obtain ⟨hip, hmethod⟩ := Prod.ext_iff.1 hsame
    have hchanges' : (flags.importHosts && changesConnection guest' item) = false := by
      rw [Bool.not_eq_true] at hchanges
      rw [← hchanges]
      unfold changesConnection
      rw [List.any_cons, List.any_cons, List.any_cons, List.any_cons]
      rw [show guest'.fields .ipAddress = guest.fields .ipAddress from hip,
        show guest'.fields .connectionMethod = guest.fields .connectionMethod from hmethod]
      rfl
    refine ⟨(hcredential guest').trans (by rw [hchanges', if_neg Bool.false_ne_true]), ?_⟩
    have hfield : ∀ f ∈ [GuestField.ipAddress, .connectionMethod], (item.write flags db guest').fields f = guest'.fields f := by
      intro f hf
      rw [guest_field]
      unfold stored
      cases hv : writtenFields flags false item f with
      | none => rfl
      | some v =>
        have hstore := hstorable f v hv
        have hkind : f.kind = .text ∧ f.isConnection = true := by
          simp only [List.mem_cons, List.not_mem_nil, or_false] at hf
          rcases hf with rfl | rfl <;> exact ⟨rfl, rfl⟩
        unfold writtenFields at hv
        rw [hkind.2, Bool.not_false, Bool.true_and, Bool.true_and] at hv
        split at hv
        · cases hv
        · rename_i hflag
          have hflag : flags.importHosts = true := by simpa using hflag
          rw [hflag, Bool.true_and] at hchanges'
          have hany := List.any_eq_false.1 hchanges' f hf
          rw [hv, Option.any_some, decide_eq_true_eq, not_not] at hany
          rw [hkind.1, hany] at hstore ⊢
          rw [Option.map_some, Option.getD_some, store_text_scalar hstore]
          rfl
    exact Prod.ext (hfield .ipAddress (.head _)) (hfield .connectionMethod (.tail _ (.head _)))

theorem credential_none (ps : List GuestItem) {guest : Guest} (h : guest.credential = none) :
    (throughAll (GuestItem.write flags db) ps guest).credential = none := by
  induction ps generalizing guest with
  | nil => exact h
  | cons p ps ih =>
    refine ih ?_
    show (if flags.importHosts && changesConnection guest p then none else guest.credential) = none
    rw [h]
    split
    · rfl
    · rfl

variable (db) in
theorem throughAll_credential {ps : List GuestItem} (hstorable : ∀ p ∈ ps, p.Storable flags) (guest : Guest) :
    (throughAll (GuestItem.write flags db) ps guest).credential = none ∨ ∀ guest' : Guest, guest'.connection = guest.connection →
      (throughAll (GuestItem.write flags db) ps guest').credential = guest'.credential ∧
        (throughAll (GuestItem.write flags db) ps guest').connection = guest'.connection := by
  induction ps generalizing guest with
  | nil => exact .inr fun _ _ => ⟨rfl, rfl⟩
  | cons p ps ih =>
    rcases write_credential db (hstorable p List.mem_cons_self) guest with hnone | hcalm
    · exact .inl (credential_none ps hnone)
    · rcases ih (fun q hq => hstorable q (List.mem_cons_of_mem _ hq)) (p.write flags db guest) with hnone | hrest
      · exact .inl hnone
      · refine .inr fun guest' hsame => ?_
        obtain ⟨hcredential, hconnection⟩ := hcalm guest' hsame
        obtain ⟨hcredential', hconnection'⟩ := hrest (p.write flags db guest')
          (hconnection.trans (hsame.trans (hcalm guest rfl).2.symm))
        exact ⟨hcredential'.trans hcredential, hconnection'.trans hconnection⟩

theorem guest_twice {ps : List GuestItem} (hstorable : ∀ p ∈ ps, p.Storable flags) (guest : Guest) :
    throughAll (GuestItem.write flags db) ps (throughAll (GuestItem.write flags db) ps guest) =
      throughAll (GuestItem.write flags db) ps guest := by
  have hcredential : (throughAll (GuestItem.write flags db) ps (throughAll (GuestItem.write flags db) ps guest)).credential =
      (throughAll (GuestItem.write flags db) ps guest).credential := by
    rcases throughAll_credential db hstorable guest with hnone | hcalm
    · rw [credential_none ps hnone, hnone]
    · exact (hcalm _ (hcalm guest rfl).2).1
  exact Guest.ext (part_twice _ (guest_id db) ps guest) (part_twice _ (guest_name db) ps guest) (part_twice _ (guest_type db) ps guest)
    (funext fun f => part_twice (fun guest : Guest => guest.fields f) (fun item guest => guest_field db item guest f) ps guest)
    (part_twice _ (guest_host db) ps guest) hcredential (part_twice _ (guest_tags db) ps guest)

/-! ### The items once more -/

/-- What an entry of the trace comes from. -/
theorem mem_guestTrace {items : List GuestItem} {guests : List Guest} {t : Twice Guest Nat GuestItem}
    (ht : t ∈ guestTrace flags db items guests) : t = .ignore ∨ ∃ item ∈ items, item.valid = true ∧
      ((∃ guests', t = .create (item.row flags { db with guests := guests' }) item) ∨ ∃ k, t = .change k item) := by
  induction items generalizing guests with
  | nil => cases ht
  | cons item items ih =>
    rw [guestTrace, List.mem_cons] at ht
    rcases ht with rfl | ht
    · rcases guestUpsert_cases flags { db with guests := guests } item with ⟨-, ht⟩ | ⟨hvalid, ht, -⟩ | ⟨k, hvalid, ht, -⟩
      · exact .inl ht
      · exact .inr ⟨item, List.mem_cons_self, hvalid, .inl ⟨guests, ht⟩⟩
      · exact .inr ⟨item, List.mem_cons_self, hvalid, .inr ⟨k, ht⟩⟩
    · rcases ih ht with hignore | ⟨i, hi, hrest⟩
      · exact .inl hignore
      · exact .inr ⟨i, List.mem_cons_of_mem _ hi, hrest⟩

/-- A column that the item creating a guest gives as `null`, and that has a default, is given by a later item written to that guest.  The
connection of a guest that is there is left alone without the opt-in. -/
def GuestDefaultsKept (flags : Flags) (db : Db) (items : List GuestItem) : Prop :=
  ∀ before row item after, guestTrace flags db items db.guests = before ++ .create row item :: after → ∀ f : GuestField,
    f.default ≠ .null → writtenFields flags false item f = some (.scalar .null) →
      ∃ i, Twice.change row.id i ∈ after ∧ (writtenFields flags false i f).isSome = true

theorem newGuest_kept_iff {item : GuestItem} (hstorable : item.Storable flags) (guests : List Guest) (ps : List GuestItem) :
    let row := item.row flags { db with guests := guests }
    throughAll (GuestItem.write flags db) ps (item.write flags db (throughAll (GuestItem.write flags db) ps row)) =
        throughAll (GuestItem.write flags db) ps row ↔
      ∀ f : GuestField, f.default ≠ .null → writtenFields flags false item f = some (.scalar .null) →
        ∃ i ∈ ps, (writtenFields flags false i f).isSome = true := by
  dsimp only
  have hhost : item.host { db with guests := guests } = item.host db := by
    unfold GuestItem.host hostNamed
    rfl
  have hrowhost : (item.row flags { db with guests := guests }).host = (item.host db).map Host.id := by
    rw [GuestItem.row, hhost]
    rfl
  have hfields : (∀ f, (throughAll (GuestItem.write flags db) ps (item.write flags db (throughAll (GuestItem.write flags db) ps
      (item.row flags { db with guests := guests })))).fields f =
      (throughAll (GuestItem.write flags db) ps (item.row flags { db with guests := guests })).fields f) ↔
      ∀ f : GuestField, f.default ≠ .null → writtenFields flags false item f = some (.scalar .null) →
        ∃ i ∈ ps, (writtenFields flags false i f).isSome = true := by
    refine forall_congr' fun f => ?_
    have hnew := insertDefaults_stored_iff GuestField.kind GuestField.default (writtenFields flags true item) (hstorable f)
      fun v hv => writtenFields_sub hv
    refine (part_again_iff (fun guest : Guest => guest.fields f) (fun i guest => guest_field db i guest f) ps item _).trans ?_
    exact (imp_congr_right fun _ => hnew).trans untouched_imp_iff
  have hcredential : (throughAll (GuestItem.write flags db) ps (item.write flags db (throughAll (GuestItem.write flags db) ps
      (item.row flags { db with guests := guests })))).credential =
      (throughAll (GuestItem.write flags db) ps (item.row flags { db with guests := guests })).credential := by
    have hnone : (throughAll (GuestItem.write flags db) ps (item.row flags { db with guests := guests })).credential = none :=
      credential_none ps rfl
    rw [hnone]
    exact credential_none ps (credential_none [item] hnone)
  rw [← hfields]
  refine ⟨fun heq f => by rw [heq], fun hall => ?_⟩
  refine Guest.ext ((part_again_iff _ (guest_id db) ps item _).2 fun _ => rfl) ((part_again_iff _ (guest_name db) ps item _).2 fun _ => rfl)
    ((part_again_iff _ (guest_type db) ps item _).2 fun _ => rfl) (funext hall) ((part_again_iff _ (guest_host db) ps item _).2 fun _ => ?_)
    hcredential ((part_again_iff _ (guest_tags db) ps item _).2 fun _ => ?_)
  · rw [hrowhost]
    cases item.host db with
    | none => rfl
    | some host => rfl
  · show (tagLinks db item.tags).getD ((tagLinks db item.tags).getD []) = (tagLinks db item.tags).getD []
    cases tagLinks db item.tags with
    | none => rfl
    | some links => rfl

variable (flags) in
theorem guestTrace_congr {db₁ : Db} (htags : db₁.tags = db.tags) (hhosts : db₁.hosts = db.hosts) (items : List GuestItem)
    (guests : List Guest) : guestTrace flags db₁ items guests = guestTrace flags db items guests ∧
      GuestItem.write flags db₁ = GuestItem.write flags db := by
  have hhost : ∀ item : GuestItem, item.host db₁ = item.host db := by
    intro item
    unfold GuestItem.host hostNamed
    rw [hhosts]
  have hwrite : GuestItem.write flags db₁ = GuestItem.write flags db := by
    funext item guest
    unfold GuestItem.write updateGuest tagLinks
    rw [hhost, htags]
  refine ⟨?_, hwrite⟩
  induction items generalizing guests with
  | nil => rfl
  | cons item items ih =>
    have hfound : item.found { db₁ with guests := guests } = item.found { db with guests := guests } := by
      have hboth : item.host { db₁ with guests := guests } = item.host { db with guests := guests } := by
        unfold GuestItem.host hostNamed
        rw [hhosts]
      unfold GuestItem.found findGuest
      rw [hboth]
    have hrow : item.row flags { db₁ with guests := guests } = item.row flags { db with guests := guests } := by
      have hboth : item.host { db₁ with guests := guests } = item.host { db with guests := guests } := by
        unfold GuestItem.host hostNamed
        rw [hhosts]
      unfold GuestItem.row newGuest tagLinks
      rw [hboth, htags]
    have hupsert : guestUpsert flags { db₁ with guests := guests } item = guestUpsert flags { db with guests := guests } item := by
      unfold guestUpsert
      rw [hfound, hrow]
    rw [guestTrace, guestTrace, hupsert, hwrite, ih]

/-- If the second import writes every item to the row the first has written it to, the guests stay as they are, exactly if the defaults of new
guests are kept. -/
theorem guests_again_iff {items : List GuestItem} {db₁ db₂ : Db} (hkeys : (db.guests.map Guest.id).Nodup)
    (h₁ : runSteps flags db (items.map .guest) = some db') (htags : db₁.tags = db.tags) (hhosts : db₁.hosts = db.hosts)
    (hguests : db₁.guests = db'.guests) (h₂ : runSteps flags db₁ (items.map .guest) = some db₂)
    (hsame : (guestTrace flags db₁ items db₁.guests).map (Twice.key? Guest.id) =
      (guestTrace flags db items db.guests).map (Twice.key? Guest.id)) :
    db₂.guests = db₁.guests ↔ GuestDefaultsKept flags db items := by
  obtain ⟨rfl, hstorable⟩ := guestItems_run hkeys h₁
  have hfresh := freshKeys_guests flags db hkeys items
  have hkeys₁ : (db₁.guests.map Guest.id).Nodup := by
    rw [hguests]
    exact guestRun_keys hkeys items
  obtain ⟨rfl, -⟩ := guestItems_run hkeys₁ h₂
  dsimp only at hguests ⊢
  obtain ⟨htrace, hwrite⟩ := guestTrace_congr flags htags hhosts items db₁.guests
  rw [htrace] at hsame
  have hthere : ∀ t ∈ guestTrace flags db items db.guests, ∀ k, t.key? Guest.id = some k → k ∈ db₁.guests.map Guest.id := by
    intro t ht k hk
    rw [hguests]
    exact key?_mem (key_write db) hfresh ht hk
  have hagain := guestTrace_again items hsame hthere
  have hparts : ∀ k, ∀ p ∈ changesOf k ((guestTrace flags db items db.guests).map Twice.first), p.Storable flags := by
    intro k p hp
    rcases mem_guestTrace (mem_changesOf_first.1 hp) with hignore | ⟨i, hi, hvalid, ⟨guests, hcreate⟩ | ⟨k', hchange⟩⟩
    · cases hignore
    · cases hcreate
    · cases hchange
      exact hstorable p hi hvalid
  unfold guestRun
  rw [htrace, hwrite, hagain, hguests]
  refine (second_iff (key_write db) hfresh fun k guest => guest_twice (hparts k) guest).trans (newRowsKept_iff_split.trans ?_)
  refine forall₄_congr fun before row item after => forall_congr' fun heq => ?_
  rcases mem_guestTrace (heq ▸ List.mem_append_right _ List.mem_cons_self) with hignore | ⟨i, hi, hvalid, ⟨guests, hcreate⟩ | ⟨k, hchange⟩⟩
  · cases hignore
  · cases hcreate
    refine (newGuest_kept_iff (hstorable item hi hvalid) guests _).trans ?_
    simp only [mem_changesOf_first]
  · cases hchange

end ProxmoxTool.ConfigBackup
