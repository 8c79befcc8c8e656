import Mathlib.Data.List.ReduceOption
import ProxmoxTool.Lib.Rows

/-!
# Runs of upserts

An upsert ignores its item, adds a row, or changes the rows with one key.  `applyUpserts_eq` says what a run makes of a table: each row goes
through the changes to its key, and each new row through the later ones.

`Twice` is an upsert in a run that is made twice, where the second time every row is there: `second_iff` says when the second run leaves
the table alone.  `namedTwice` are the upserts of items that look their row up by a name.
-/

namespace ProxmoxTool

/-! ### Values that are given or not -/

section

variable {V : Type}

/-- The value after some writes, each of which gives a value or none. -/
def overwritten (gs : List (Option V)) (v : V) : V := gs.foldl (fun v g => g.getD v) v

@[simp] theorem overwritten_nil (v : V) : overwritten [] v = v := rfl

@[simp] theorem overwritten_cons (g : Option V) (gs : List (Option V)) (v : V) :
    overwritten (g :: gs) v = overwritten gs (g.getD v) := rfl

theorem overwritten_of_none {gs : List (Option V)} (h : ∀ g ∈ gs, g = none) (v : V) : overwritten gs v = v := by
  induction gs with
  | nil => rfl
  | cons g gs ih =>
    rw [overwritten_cons, h g List.mem_cons_self]
    exact ih fun g' hg' => h g' (List.mem_cons_of_mem _ hg')

/-- Once a value has been given, what was there before makes no difference. -/
theorem overwritten_of_some {gs : List (Option V)} (h : ¬ ∀ g ∈ gs, g = none) (v w : V) : overwritten gs v = overwritten gs w := by
  induction gs generalizing v w with
  | nil => exact absurd (fun _ hg => absurd hg List.not_mem_nil) h
  | cons g gs ih =>
    rw [overwritten_cons, overwritten_cons]
    cases g with
    | some x => rfl
    | none =>
      refine ih (fun hall => h fun g hg => ?_) _ _
      rcases List.mem_cons.1 hg with rfl | hg
      · rfl
      · exact hall g hg

theorem overwritten_twice (gs : List (Option V)) (v : V) : overwritten gs (overwritten gs v) = overwritten gs v := by
  by_cases h : ∀ g ∈ gs, g = none
  · rw [overwritten_of_none h, overwritten_of_none h]
  · exact overwritten_of_some h _ _

theorem overwritten_append (gs hs : List (Option V)) (v : V) : overwritten (gs ++ hs) v = overwritten hs (overwritten gs v) :=
  List.foldl_append

/-- The value given last. -/
def lastValue (gs : List (Option V)) : Option V := gs.reduceOption.getLast?

theorem overwritten_eq (gs : List (Option V)) (v : V) : overwritten gs v = (lastValue gs).getD v := by
  induction gs generalizing v with
  | nil => rfl
  | cons g gs ih =>
    rw [overwritten_cons, ih]
    unfold lastValue
    cases g with
    | none => rfl
    | some x =>
      rw [List.reduceOption_cons_of_some, List.getLast?_cons]
      rfl

theorem lastValue_eq_none_iff {gs : List (Option V)} : lastValue gs = none ↔ ∀ g ∈ gs, g = none := by
  unfold lastValue List.reduceOption
  rw [List.getLast?_eq_none_iff, List.filterMap_eq_nil_iff]
  exact Iff.rfl

/-- Other writes, none of which gives a value unless one of the first does: they leave the value alone, exactly if their last value is that of
the first. -/
theorem overwritten_other_iff {gs hs : List (Option V)} (h : lastValue gs = none → lastValue hs = none) (v : V) :
    overwritten hs (overwritten gs v) = overwritten gs v ↔ ∀ s, lastValue hs = some s → lastValue gs = some s := by
  rw [overwritten_eq, overwritten_eq gs]
  cases hhs : lastValue hs with
  | none => exact ⟨fun _ => nofun, fun _ => rfl⟩
  | some s =>
    cases hgs : lastValue gs with
    | none =>
      rw [h hgs] at hhs
      cases hhs
    | some s' => exact ⟨fun heq _ hs => congrArg some (heq.symm.trans (Option.some.inj hs)), fun himp => (Option.some.inj (himp s rfl)).symm⟩

/-- The writes were made from the middle one on, which gives the value that was there then.  All of them make no difference, exactly if the
middle one or a later one gives a value, or those in front leave that value alone. -/
theorem overwritten_whole_iff (before after : List (Option V)) {g : Option V} {v : V} (hg : ∀ x, g = some x → x = v) :
    overwritten (before ++ g :: after) (overwritten after v) = overwritten after v ↔
      (g = none → (∀ g' ∈ after, g' = none) → overwritten before v = v) := by
  rw [overwritten_append, overwritten_cons]
  by_cases hafter : ∀ g' ∈ after, g' = none
  · rw [overwritten_of_none hafter, overwritten_of_none hafter]
    cases g with
    | none => exact ⟨fun heq _ _ => heq, fun himp => himp rfl hafter⟩
    | some x => exact ⟨fun _ => nofun, fun _ => hg x rfl⟩
  · exact ⟨fun _ _ hall => absurd hall hafter, fun _ => overwritten_of_some hafter _ _⟩

/-- One more write in front makes no difference, exactly if a later one gives a value or it gives the value that is there. -/
theorem overwritten_again_iff (g : Option V) (gs : List (Option V)) (v : V) :
    overwritten gs (g.getD (overwritten gs v)) = overwritten gs v ↔ ((∀ g' ∈ gs, g' = none) → g.getD v = v) := by
  by_cases h : ∀ g ∈ gs, g = none
  · rw [overwritten_of_none h, overwritten_of_none h]
    exact ⟨fun heq _ => heq, fun himp => himp h⟩
  · exact ⟨fun _ hall => absurd hall h, fun _ => overwritten_of_some h _ _⟩

end

/-! ### Upserts -/

variable {α κ π : Type}

inductive Upsert (α κ π : Type)
  | ignore
  | create (row : α)
  | change (k : κ) (p : π)

variable [DecidableEq κ] (key : α → κ) (act : π → α → α)

def Upsert.apply : Upsert α κ π → List α → List α
  | .ignore, rows => rows
  | .create row, rows => rows ++ [row]
  | .change k p, rows => rows.map fun r => if key r = k then act p r else r

def applyUpserts (us : List (Upsert α κ π)) (rows : List α) : List α := us.foldl (fun rows u => u.apply key act rows) rows

/-- The changes to a key. -/
def changesOf (k : κ) (us : List (Upsert α κ π)) : List π := us.filterMap fun u => match u with
  | .change k' p => if k' = k then some p else none
  | _ => none

def throughAll (ps : List π) (row : α) : α := ps.foldl (fun row p => act p row) row

/-- The rows that are created, after the changes that come later. -/
def newRows : List (Upsert α κ π) → List α
  | [] => []
  | .create row :: us => throughAll act (changesOf (key row) us) row :: newRows us
  | _ :: us => newRows us

theorem changesOf_change (k k' : κ) (p : π) (us : List (Upsert α κ π)) :
    changesOf k (.change k' p :: us) = if k' = k then p :: changesOf k us else changesOf k us := by
  by_cases h : k' = k
  · simp [changesOf, h]
  · simp [changesOf, h]

variable {key act}

omit [DecidableEq κ] in
theorem key_throughAll (hkey : ∀ p row, key (act p row) = key row) (ps : List π) (row : α) :
    key (throughAll act ps row) = key row := by
  induction ps generalizing row with
  | nil => rfl
  | cons p ps ih => exact (ih (act p row)).trans (hkey p row)

omit [DecidableEq κ] in
/-- A part of a row that a change overwrites or leaves alone. -/
theorem throughAll_part {V : Type} {part : α → V} {g : π → Option V} (h : ∀ p row, part (act p row) = (g p).getD (part row))
    (ps : List π) (row : α) : part (throughAll act ps row) = overwritten (ps.map g) (part row) := by
  induction ps generalizing row with
  | nil => rfl
  | cons p ps ih =>
    rw [List.map_cons, overwritten_cons, ← h p row]
    exact ih (act p row)

omit [DecidableEq κ] in
theorem part_twice {V : Type} (part : α → V) {g : π → Option V} (h : ∀ p row, part (act p row) = (g p).getD (part row))
    (ps : List π) (row : α) : part (throughAll act ps (throughAll act ps row)) = part (throughAll act ps row) := by
  rw [throughAll_part h, throughAll_part h, overwritten_twice]

omit [DecidableEq κ] in
theorem part_again_iff {V : Type} (part : α → V) {g : π → Option V} (h : ∀ p row, part (act p row) = (g p).getD (part row))
    (ps : List π) (p : π) (row : α) : part (throughAll act ps (act p (throughAll act ps row))) = part (throughAll act ps row) ↔
      ((∀ p' ∈ ps, g p' = none) → (g p).getD (part row) = part row) := by
  rw [throughAll_part h, h, throughAll_part h, overwritten_again_iff, List.forall_mem_map]

theorem Upsert.map_key_change (hkey : ∀ p row, key (act p row) = key row) (k : κ) (p : π) (rows : List α) :
    ((Upsert.change k p).apply key act rows).map key = rows.map key := by
  rw [Upsert.apply, List.map_map]
  refine List.map_congr_left fun r _ => ?_
  rw [Function.comp_apply]
  split
  · exact hkey p r
  · rfl

theorem applyUpserts_eq (hkey : ∀ p row, key (act p row) = key row) (us : List (Upsert α κ π)) (rows : List α) :
    applyUpserts key act us rows = (rows.map fun r => throughAll act (changesOf (key r) us) r) ++ newRows key act us := by
  induction us generalizing rows with
  | nil => simp [applyUpserts, changesOf, throughAll, newRows]
  | cons u us ih =>
    show applyUpserts key act us (u.apply key act rows) = _
    rw [ih]
    cases u with
    | ignore => rfl
    | create row =>
      rw [Upsert.apply, List.map_append, List.append_assoc]
      rfl
    | change k p =>
      rw [Upsert.apply, List.map_map]
      refine congrArg (· ++ newRows key act us) (List.map_congr_left fun r _ => ?_)
      by_cases hk : key r = k
      · subst hk
        rw [changesOf_change, if_pos rfl, Function.comp_apply, if_pos rfl, hkey]
        rfl
      · rw [changesOf_change, if_neg fun heq => hk heq.symm, Function.comp_apply, if_neg hk]

/-! ### The same run twice -/

/-- An upsert of a run that is made twice; the second time, a row that was created is changed. -/
inductive Twice (α κ π : Type)
  | ignore
  | create (row : α) (p : π)
  | change (k : κ) (p : π)

def Twice.first : Twice α κ π → Upsert α κ π
  | .ignore => .ignore
  | .create row _ => .create row
  | .change k p => .change k p

variable (key act)

def Twice.second : Twice α κ π → Upsert α κ π
  | .ignore => .ignore
  | .create row p => .change (key row) p
  | .change k p => .change k p

/-- The changes are to rows that are there, and the keys of new rows are new. -/
def FreshKeys : List κ → List (Twice α κ π) → Prop
  | _, [] => True
  | ks, .ignore :: ts => FreshKeys ks ts
  | ks, .create row _ :: ts => key row ∉ ks ∧ FreshKeys (ks ++ [key row]) ts
  | ks, .change k _ :: ts => k ∈ ks ∧ FreshKeys ks ts

/-- The new rows are not changed by the second run. -/
def NewRowsKept : List (Twice α κ π) → Prop
  | [] => True
  | .create row p :: ts =>
      let ps := changesOf (key row) (ts.map Twice.first)
      throughAll act ps (act p (throughAll act ps row)) = throughAll act ps row ∧ NewRowsKept ts
  | _ :: ts => NewRowsKept ts

variable {key act}

theorem newRows_second (ts : List (Twice α κ π)) : newRows key act (ts.map (Twice.second key)) = [] := by
  induction ts with
  | nil => rfl
  | cons t ts ih =>
    cases t with
    | ignore => exact ih
    | create row p => exact ih
    | change k p => exact ih

/-- A row that is there from the start goes through the same changes. -/
theorem changesOf_second {ks : List κ} {ts : List (Twice α κ π)} (hfresh : FreshKeys key ks ts) {k : κ} (hk : k ∈ ks) :
    changesOf k (ts.map (Twice.second key)) = changesOf k (ts.map Twice.first) := by
  induction ts generalizing ks with
  | nil => rfl
  | cons t ts ih =>
    cases t with
    | ignore => exact ih hfresh hk
    | create row p =>
      have hne : ¬ key row = k := fun heq => hfresh.1 (heq ▸ hk)
      have hrest := ih hfresh.2 (List.mem_append_left _ hk)
      show changesOf k (.change (key row) p :: ts.map (Twice.second key)) = changesOf k (ts.map Twice.first)
      rw [changesOf_change, if_neg hne]
      exact hrest
    | change k' p =>
      have hrest := ih hfresh.2 hk
      show changesOf k (.change k' p :: ts.map (Twice.second key)) = changesOf k (.change k' p :: ts.map Twice.first)
      rw [changesOf_change, changesOf_change, hrest]

theorem key_newRows {ks : List κ} {ts : List (Twice α κ π)} (hkey : ∀ p row, key (act p row) = key row) (hfresh : FreshKeys key ks ts)
    {r : α} (hr : r ∈ newRows key act (ts.map Twice.first)) : key r ∉ ks := by
  induction ts generalizing ks with
  | nil => cases hr
  | cons t ts ih =>
    cases t with
    | ignore => exact ih hfresh hr
    | create row p =>
      rcases List.mem_cons.1 hr with rfl | hr
      · rw [key_throughAll hkey]
        exact hfresh.1
      · exact fun hks => ih hfresh.2 hr (List.mem_append_left _ hks)
    | change k p => exact ih hfresh.2 hr

/-- The new rows go through the change in the place of their creation and through the later ones. -/
theorem newRowsKept_iff {ks : List κ} {ts : List (Twice α κ π)} (hkey : ∀ p row, key (act p row) = key row)
    (hfresh : FreshKeys key ks ts) :
    (∀ r ∈ newRows key act (ts.map Twice.first), throughAll act (changesOf (key r) (ts.map (Twice.second key))) r = r) ↔
      NewRowsKept key act ts := by
  induction ts generalizing ks with
  | nil => exact ⟨fun _ => trivial, fun _ r hr => absurd hr List.not_mem_nil⟩
  | cons t ts ih =>
    cases t with
    | ignore => exact ih hfresh
    | create row p =>
      have hown : changesOf (key row) ((Twice.create row p :: ts).map (Twice.second key)) =
          p :: changesOf (key row) (ts.map Twice.first) := by
        rw [← changesOf_second hfresh.2 (List.mem_append_right _ (List.mem_singleton_self _))]
        exact (changesOf_change _ _ _ _).trans (if_pos rfl)
      have hlater : ∀ r ∈ newRows key act (ts.map Twice.first),
          changesOf (key r) ((Twice.create row p :: ts).map (Twice.second key)) = changesOf (key r) (ts.map (Twice.second key)) := by
        intro r hr
        have hne : ¬ key row = key r := fun heq =>
          key_newRows hkey hfresh.2 hr (heq ▸ List.mem_append_right _ (List.mem_singleton_self _))
        exact (changesOf_change _ _ _ _).trans (if_neg hne)
      refine List.forall_mem_cons.trans (and_congr ?_ ((forall₂_congr fun r hr => by rw [hlater r hr]).trans (ih hfresh.2)))
      rw [key_throughAll hkey, hown]
      exact Iff.rfl
    | change k p =>
      have hlater : ∀ r ∈ newRows key act (ts.map Twice.first),
          changesOf (key r) ((Twice.change k p :: ts).map (Twice.second key)) = changesOf (key r) (ts.map (Twice.second key)) := by
        intro r hr
        have hne : ¬ k = key r := fun heq => key_newRows hkey hfresh.2 hr (heq ▸ hfresh.1)
        exact (changesOf_change _ _ _ _).trans (if_neg hne)
      exact (forall₂_congr fun r hr => by rw [hlater r hr]).trans (ih hfresh.2)

/-- The second run leaves the table alone, exactly if it leaves the rows alone that the first one has created. -/
theorem second_iff {rows : List α} {ts : List (Twice α κ π)} (hkey : ∀ p row, key (act p row) = key row)
    (hfresh : FreshKeys key (rows.map key) ts)
    (htwice : ∀ k row, throughAll act (changesOf k (ts.map Twice.first)) (throughAll act (changesOf k (ts.map Twice.first)) row) =
      throughAll act (changesOf k (ts.map Twice.first)) row) :
    applyUpserts key act (ts.map (Twice.second key)) (applyUpserts key act (ts.map Twice.first) rows) =
        applyUpserts key act (ts.map Twice.first) rows ↔ NewRowsKept key act ts := by
  have hself : ∀ (f : α → α) (l : List α), l.map f = l ↔ ∀ r ∈ l, f r = r := by
    intro f l
    conv_lhs => rw [← List.map_id l, List.map_map]
    exact List.map_inj_left
  rw [applyUpserts_eq hkey (ts.map (Twice.second key)), newRows_second, List.append_nil, hself]
  rw [← newRowsKept_iff hkey hfresh, applyUpserts_eq hkey]
  simp only [List.mem_append, List.mem_map]
  refine ⟨fun hall r hr => hall r (.inr hr), ?_⟩
  rintro hnew r (⟨old, hold, rfl⟩ | hr)
  · rw [key_throughAll hkey, changesOf_second hfresh (List.mem_map_of_mem hold)]
    exact htwice _ old
  · exact hnew r hr

/-- The row an upsert writes. -/
def Twice.key? (key : α → κ) : Twice α κ π → Option κ
  | .ignore => none
  | .create row _ => some (key row)
  | .change k _ => some k

theorem mem_changesOf_first {ts : List (Twice α κ π)} {k : κ} {p : π} :
    p ∈ changesOf k (ts.map Twice.first) ↔ Twice.change k p ∈ ts := by
  induction ts with
  | nil => exact ⟨nofun, nofun⟩
  | cons t ts ih =>
    cases t with
    | ignore => simpa [changesOf, Twice.first] using ih
    | create row p' => simpa [changesOf, Twice.first] using ih
    | change k' p' =>
      rw [List.map_cons, Twice.first, changesOf_change, List.mem_cons, ← ih]
      by_cases hk : k' = k
      · rw [if_pos hk, List.mem_cons, hk]
        simp
      · have hk' : ¬ k = k' := fun heq => hk heq.symm
        rw [if_neg hk]
        simp [hk']

/-- The new rows, one by one. -/
theorem newRowsKept_iff_split {ts : List (Twice α κ π)} : NewRowsKept key act ts ↔ ∀ before row p after,
    ts = before ++ .create row p :: after → let ps := changesOf (key row) (after.map Twice.first)
      throughAll act ps (act p (throughAll act ps row)) = throughAll act ps row := by
  induction ts with
  | nil => exact ⟨fun _ before row p after heq => absurd heq.symm (List.append_ne_nil_of_right_ne_nil before (List.cons_ne_nil _ _)),
      fun _ => trivial⟩
  | cons t ts ih =>
    have hsplit : (∀ before row p after, t :: ts = before ++ .create row p :: after → let ps := changesOf (key row) (after.map Twice.first)
        throughAll act ps (act p (throughAll act ps row)) = throughAll act ps row) ↔
        (∀ row p, t = .create row p → let ps := changesOf (key row) (ts.map Twice.first)
          throughAll act ps (act p (throughAll act ps row)) = throughAll act ps row) ∧ NewRowsKept key act ts := by
      rw [ih]
      refine ⟨fun hall => ⟨fun row p heq => hall [] row p ts (by rw [heq]; rfl), fun before row p after heq =>
        hall (t :: before) row p after (by rw [heq]; rfl)⟩, ?_⟩
      rintro ⟨hfirst, hlater⟩ before row p after heq
      cases before with
      | nil =>
        cases heq
        exact hfirst row p rfl
      | cons t' before =>
        cases heq
        exact hlater before row p after rfl
    rw [hsplit]
    cases t with
    | ignore => exact ⟨fun hts => ⟨nofun, hts⟩, fun hboth => hboth.2⟩
    | create row p =>
      refine and_congr_left fun _ => ⟨fun hkept row' p' heq => ?_, fun hall => hall row p rfl⟩
      cases heq
      exact hkept
    | change k p => exact ⟨fun hts => ⟨nofun, hts⟩, fun hboth => hboth.2⟩

theorem mem_keys_run (hkey : ∀ p row, key (act p row) = key row) {k : κ} (us : List (Upsert α κ π)) {rows : List α} (hk : k ∈ rows.map key) :
    k ∈ (applyUpserts key act us rows).map key := by
  rw [applyUpserts_eq hkey, List.map_append, List.map_map]
  refine List.mem_append_left _ ?_
  obtain ⟨r, hr, rfl⟩ := List.mem_map.1 hk
  exact List.mem_map.2 ⟨r, hr, key_throughAll hkey _ r⟩

/-- The rows that a run writes are there afterwards. -/
theorem key?_mem (hkey : ∀ p row, key (act p row) = key row) {rows : List α} {ts : List (Twice α κ π)}
    (hfresh : FreshKeys key (rows.map key) ts) {t : Twice α κ π} (ht : t ∈ ts) {k : κ} (hk : t.key? key = some k) :
    k ∈ (applyUpserts key act (ts.map Twice.first) rows).map key := by
  induction ts generalizing rows with
  | nil => cases ht
  | cons t' ts ih =>
    show k ∈ (applyUpserts key act (ts.map Twice.first) (t'.first.apply key act rows)).map key
    cases t' with
    | ignore =>
      rcases List.mem_cons.1 ht with rfl | ht
      · cases hk
      · exact ih hfresh ht
    | create row p =>
      rcases List.mem_cons.1 ht with rfl | ht
      · cases hk
        exact mem_keys_run hkey _ (List.mem_map_of_mem (List.mem_append_right _ (List.mem_singleton_self _)))
      · refine ih ?_ ht
        show FreshKeys key ((rows ++ [row]).map key) ts
        rw [List.map_append]
        exact hfresh.2
    | change k' p =>
      have hkeys : ((Twice.change k' p).first.apply key act rows).map key = rows.map key := Upsert.map_key_change hkey k' p rows
      rcases List.mem_cons.1 ht with rfl | ht
      · cases hk
        exact mem_keys_run hkey _ (hkeys ▸ hfresh.1)
      · exact ih (hkeys ▸ hfresh.2) ht

/-! ### Look-ups by name -/

section

variable {ι ν : Type} [DecidableEq ν] (key : α → κ) (act : ι → α → α) (nm : α → ν) (name : ι → Option ν) (new : List α → ι → α)

/-- An item without a name is ignored; one with a name changes the first row of that name, and creates one if there is none. -/
def namedUpsert (item : ι) (rows : List α) : Twice α κ ι :=
  match name item with
  | none => .ignore
  | some n => match rows.find? fun r => decide (nm r = n) with
    | none => .create (new rows item) item
    | some r => .change (key r) item

def namedTwice : List ι → List α → List (Twice α κ ι)
  | [], _ => []
  | item :: items, rows =>
      let t := namedUpsert key nm name new item rows
      t :: namedTwice items (t.first.apply key act rows)

/-- A change keeps the key and the name, and a new row has the name of its item and a new key. -/
structure NamedTable : Prop where
  key_act : ∀ item row, key (act item row) = key row
  name_act : ∀ item n row, name item = some n → nm row = n → nm (act item row) = n
  fresh : ∀ rows item n, name item = some n → nm (new rows item) = n ∧ key (new rows item) ∉ rows.map key

/-- The key of the first row of a name. -/
def keyNamed (rows : List α) (n : ν) : Option κ := (rows.find? fun r => decide (nm r = n)).map key

variable {key act nm name new} {rows : List α} {item : ι} {items : List ι} {n m : ν}

omit [DecidableEq κ] in
theorem keyNamed_of_map {f : α → α} (hf : ∀ r ∈ rows, key (f r) = key r ∧ nm (f r) = nm r) (n : ν) :
    keyNamed key nm (rows.map f) n = keyNamed key nm rows n := by
  unfold keyNamed
  induction rows with
  | nil => rfl
  | cons r rows ih =>
    have hr := hf r List.mem_cons_self
    have hrest := ih fun r' hr' => hf r' (List.mem_cons_of_mem _ hr')
    rw [List.map_cons, List.find?_cons, List.find?_cons, hr.2]
    cases decide (nm r = n) with
    | true => exact congrArg some hr.1
    | false => exact hrest

/-- What an upsert does to the keys and the names. -/
theorem namedUpsert_cases (h : NamedTable key act nm name new) (hkeys : (rows.map key).Nodup) (item : ι) :
    let t := namedUpsert key nm name new item rows
    let rows' := t.first.apply key act rows
    (name item = none ∧ t = .ignore ∧ rows' = rows) ∨
      (∃ n, name item = some n ∧ keyNamed key nm rows n = none ∧ t = .create (new rows item) item ∧ rows' = rows ++ [new rows item] ∧
        nm (new rows item) = n ∧ key (new rows item) ∉ rows.map key) ∨
      ∃ n k, name item = some n ∧ keyNamed key nm rows n = some k ∧ t = .change k item ∧ rows'.map key = rows.map key ∧
        ∀ m, keyNamed key nm rows' m = keyNamed key nm rows m := by
  dsimp only
  unfold namedUpsert
  cases hname : name item with
  | none => exact .inl ⟨rfl, rfl, rfl⟩
  | some n =>
    refine .inr ?_
    dsimp only
    cases hfind : rows.find? fun r => decide (nm r = n) with
    | none => exact .inl ⟨n, rfl, by rw [keyNamed, hfind]; rfl, rfl, rfl, h.fresh rows item n hname⟩
    | some r =>
      refine .inr ⟨n, key r, rfl, by rw [keyNamed, hfind]; rfl, rfl, ?_⟩
      have hrow : r ∈ rows := List.mem_of_find?_eq_some hfind
      have hn : nm r = n := by simpa using List.find?_some hfind
      have hsame : ∀ r' ∈ rows, key (if key r' = key r then act item r' else r') = key r' ∧
          nm (if key r' = key r then act item r' else r') = nm r' := by
        intro r' hr'
        split
        · rename_i hk
          obtain rfl := eq_of_id_eq key hkeys hr' hrow hk
          exact ⟨h.key_act item r', (h.name_act item n r' hname hn).trans hn.symm⟩
        · exact ⟨rfl, rfl⟩
      refine ⟨?_, keyNamed_of_map hsame⟩
      show (rows.map _).map key = _
      rw [List.map_map]
      exact List.map_congr_left fun r' hr' => (hsame r' hr').1

omit [DecidableEq κ] in
theorem keyNamed_append (rows : List α) (row : α) (n : ν) : keyNamed key nm (rows ++ [row]) n =
    (keyNamed key nm rows n).or (if nm row = n then some (key row) else none) := by
  unfold keyNamed
  rw [List.find?_append, List.find?_singleton]
  cases rows.find? fun r => decide (nm r = n) with
  | some r => rfl
  | none =>
    by_cases hn : nm row = n
    · simp [hn]
    · simp [hn]

theorem namedUpsert_keys (h : NamedTable key act nm name new) (hkeys : (rows.map key).Nodup) (item : ι) :
    (((namedUpsert key nm name new item rows).first.apply key act rows).map key).Nodup := by
  rcases namedUpsert_cases h hkeys item with ⟨-, -, hrows⟩ | ⟨n, -, -, -, hrows, -, hnew⟩ | ⟨n, k, -, -, -, hmap, -⟩
  · rw [hrows]
    exact hkeys
  · rw [hrows]
    exact nodup_append_of_not_mem key hkeys hnew
  · rw [hmap]
    exact hkeys

/-- A row that is found is found again. -/
theorem keyNamed_step (h : NamedTable key act nm name new) (hkeys : (rows.map key).Nodup) (item : ι) {k : κ}
    (hk : keyNamed key nm rows n = some k) :
    keyNamed key nm ((namedUpsert key nm name new item rows).first.apply key act rows) n = some k := by
  rcases namedUpsert_cases h hkeys item with ⟨-, -, hrows⟩ | ⟨m, -, -, -, hrows, -, -⟩ | ⟨m, k', -, -, -, -, hsame⟩
  · rw [hrows]
    exact hk
  · rw [hrows, keyNamed_append, hk]
    rfl
  · rw [hsame]
    exact hk

theorem keyNamed_run (h : NamedTable key act nm name new) (hkeys : (rows.map key).Nodup) (items : List ι) {k : κ}
    (hk : keyNamed key nm rows n = some k) :
    keyNamed key nm (applyUpserts key act ((namedTwice key act nm name new items rows).map Twice.first) rows) n = some k := by
  induction items generalizing rows with
  | nil => exact hk
  | cons item items ih => exact ih (namedUpsert_keys h hkeys item) (keyNamed_step h hkeys item hk)

theorem freshKeys_named (h : NamedTable key act nm name new) (hkeys : (rows.map key).Nodup) (items : List ι) :
    FreshKeys key (rows.map key) (namedTwice key act nm name new items rows) := by
  induction items generalizing rows with
  | nil => trivial
  | cons item items ih =>
    have hrest := ih (namedUpsert_keys h hkeys item)
    rw [namedTwice]
    revert hrest
    generalize namedTwice key act nm name new items ((namedUpsert key nm name new item rows).first.apply key act rows) = ts
    rcases namedUpsert_cases h hkeys item with ⟨-, ht, hrows⟩ | ⟨n, -, -, ht, hrows, -, hnew⟩ | ⟨n, k, -, hk, ht, hmap, -⟩
    · rw [hrows, ht]
      exact fun hrest => hrest
    · rw [hrows, ht, List.map_append]
      exact fun hrest => ⟨hnew, hrest⟩
    · rw [hmap, ht]
      obtain ⟨r, hr, rfl⟩ := Option.map_eq_some_iff.1 hk
      exact fun hrest => ⟨List.mem_map_of_mem (List.mem_of_find?_eq_some hr), hrest⟩

omit [DecidableEq κ] in
theorem namedUpsert_found {k : κ} (hname : name item = some n) (hk : keyNamed key nm rows n = some k) :
    namedUpsert key nm name new item rows = .change k item := by
  obtain ⟨r, hr, rfl⟩ := Option.map_eq_some_iff.1 hk
  unfold namedUpsert
  rw [hname]
  dsimp only
  rw [hr]

/-- Over the result of the first run, or any table with the same names, every item changes the row that it has changed or created. -/
theorem namedTwice_again (h : NamedTable key act nm name new) (hkeys : (rows.map key).Nodup) (items : List ι) {rows' : List α}
    (hkeys' : (rows'.map key).Nodup)
    (hsame : ∀ n k, keyNamed key nm (applyUpserts key act ((namedTwice key act nm name new items rows).map Twice.first) rows) n = some k →
      keyNamed key nm rows' n = some k) :
    (namedTwice key act nm name new items rows').map Twice.first =
      (namedTwice key act nm name new items rows).map (Twice.second key) := by
  induction items generalizing rows rows' with
  | nil => rfl
  | cons item items ih =>
    have hstep := namedUpsert_keys h hkeys item
    have hstep' := namedUpsert_keys h hkeys' item
    have hnext := ih hstep hstep' fun n k hk => keyNamed_step h hkeys' item (hsame n k hk)
    rw [namedTwice, namedTwice, List.map_cons, List.map_cons, hnext]
    congr 1
    rcases namedUpsert_cases h hkeys item with ⟨hname, ht, -⟩ | ⟨n, hname, hnone, ht, hrows, hn, -⟩ | ⟨n, k, hname, hk, ht, -, hkept⟩
    · rw [ht, namedUpsert, hname]
      rfl
    · have hthere : keyNamed key nm (rows ++ [new rows item]) n = some (key (new rows item)) := by
        rw [keyNamed_append, hnone, if_pos hn]
        rfl
      rw [ht, namedUpsert_found hname (hsame n _ (keyNamed_run h hstep items (hrows ▸ hthere)))]
      rfl
    · rw [ht, namedUpsert_found hname (hsame n k (keyNamed_run h hstep items ((hkept n).trans hk)))]
      rfl

/-- The changes to the row of a name are the items of that name. -/
theorem changesOf_named (h : NamedTable key act nm name new) (hkeys : (rows.map key).Nodup) (items : List ι) {k : κ}
    (hk : keyNamed key nm rows n = some k) :
    changesOf k ((namedTwice key act nm name new items rows).map Twice.first) = items.filter fun item => decide (name item = some n) := by
  induction items generalizing rows with
  | nil => rfl
  | cons item items ih =>
    have hrest := ih (namedUpsert_keys h hkeys item) (keyNamed_step h hkeys item hk)
    rw [namedTwice, List.map_cons, List.filter_cons, ← hrest]
    generalize namedTwice key act nm name new items ((namedUpsert key nm name new item rows).first.apply key act rows) = ts
    rcases namedUpsert_cases h hkeys item with ⟨hname, ht, -⟩ | ⟨m, hname, hnone, ht, -, -, -⟩ | ⟨m, k', hname, hk', ht, -, -⟩
    · rw [ht, hname]
      rfl
    · have hne : m ≠ n := fun heq => by rw [heq, hk] at hnone; cases hnone
      rw [ht, hname]
      simp [changesOf, Twice.first, hne]
    · have hiff : k' = k ↔ m = n := by
        obtain ⟨r, hr, rfl⟩ := Option.map_eq_some_iff.1 hk
        obtain ⟨r', hr', rfl⟩ := Option.map_eq_some_iff.1 hk'
        have hn : nm r = n := by simpa using List.find?_some hr
        have hm : nm r' = m := by simpa using List.find?_some hr'
        constructor
        · intro heq
          rw [← hm, ← hn, eq_of_id_eq key hkeys (List.mem_of_find?_eq_some hr') (List.mem_of_find?_eq_some hr) heq]
        · rintro rfl
          rw [hr, Option.some_inj] at hr'
          rw [hr']
      rw [ht, hname]
      refine (changesOf_change _ _ _ _).trans ?_
      by_cases hmn : m = n
      · rw [if_pos (hiff.2 hmn), if_pos (by rw [hmn]; exact decide_eq_true rfl)]
      · rw [if_neg fun heq => hmn (hiff.1 heq), if_neg (by simpa using hmn)]

variable (key) in
omit [DecidableEq κ] in
theorem keyNamed_eq_none_iff : keyNamed key nm rows n = none ↔ n ∉ rows.map nm := by
  unfold keyNamed
  rw [Option.map_eq_none_iff, List.find?_eq_none, List.mem_map]
  simp

/-- The names after an item. -/
theorem mem_names_step (h : NamedTable key act nm name new) (hkeys : (rows.map key).Nodup) (item : ι) :
    n ∈ ((namedUpsert key nm name new item rows).first.apply key act rows).map nm ↔ n ∈ rows.map nm ∨ name item = some n := by
  rw [← not_iff_not, not_or, ← keyNamed_eq_none_iff key, ← keyNamed_eq_none_iff key]
  rcases namedUpsert_cases h hkeys item with ⟨hname, -, hrows⟩ | ⟨m, hname, -, -, hrows, hm, -⟩ | ⟨m, k, hname, hk, -, -, hkept⟩
  · rw [hrows, hname]
    simp
  · rw [hrows, keyNamed_append, Option.or_eq_none_iff, hname, hm]
    simp
  · rw [hkept, hname, Option.some_inj]
    refine ⟨fun hnone => ⟨hnone, fun heq => ?_⟩, fun hboth => hboth.1⟩
    rw [heq, hnone] at hk
    cases hk

/-- The new rows stay as they are, if this is so for each item that is the first of its name: `Kept` says so by the item and the later
ones of the name. -/
theorem newRowsKept_named_iff (h : NamedTable key act nm name new) (hkeys : (rows.map key).Nodup) {Kept : ι → List ι → Prop}
    (hkept : ∀ item ∈ items, ∀ rows ps, (∀ p ∈ ps, p ∈ items) → (name item).isSome →
      (throughAll act ps (act item (throughAll act ps (new rows item))) = throughAll act ps (new rows item) ↔ Kept item ps)) :
    NewRowsKept key act (namedTwice key act nm name new items rows) ↔
      ∀ before item after n, items = before ++ item :: after → name item = some n → n ∉ rows.map nm → (∀ i ∈ before, name i ≠ some n) →
        Kept item (after.filter fun i => decide (name i = some n)) := by
  induction items generalizing rows with
  | nil =>
    exact ⟨fun _ before item after n heq => absurd heq.symm (List.append_ne_nil_of_right_ne_nil before (List.cons_ne_nil _ _)),
      fun _ => trivial⟩
  | cons item items ih =>
    have hrest := ih (namedUpsert_keys h hkeys item) fun i hi rows ps hps =>
      hkept i (List.mem_cons_of_mem _ hi) rows ps fun p hp => List.mem_cons_of_mem _ (hps p hp)
    simp only [mem_names_step h hkeys item, not_or] at hrest
    have hhead : NewRowsKept key act (namedTwice key act nm name new (item :: items) rows) ↔
        (∀ n, name item = some n → n ∉ rows.map nm → Kept item (items.filter fun i => decide (name i = some n))) ∧
          NewRowsKept key act (namedTwice key act nm name new items
            ((namedUpsert key nm name new item rows).first.apply key act rows)) := by
      have hchanges := fun n k => changesOf_named h (namedUpsert_keys h hkeys item) items (n := n) (k := k)
      rw [namedTwice]
      revert hchanges
      rcases namedUpsert_cases h hkeys item with ⟨hname, ht, -⟩ | ⟨m, hname, hnone, ht, hrows, hm, -⟩ | ⟨m, k, hname, hk, ht, -, -⟩
      · intro _
        rw [ht, hname]
        exact ⟨fun hts => ⟨nofun, hts⟩, fun hboth => hboth.2⟩
      · have hthere : keyNamed key nm (rows ++ [new rows item]) m = some (key (new rows item)) := by
          rw [keyNamed_append, hnone, if_pos hm]
          rfl
        rw [hrows, ht]
        intro hchanges
        refine and_congr_left fun _ => ?_
        rw [hchanges m _ hthere, hname, hkept item List.mem_cons_self rows _ (fun p hp => List.mem_cons_of_mem _ (List.mem_of_mem_filter hp))
          (by rw [hname]; rfl)]
        refine ⟨fun hitem n hn _ => ?_, fun hall => hall m rfl ((keyNamed_eq_none_iff key).1 hnone)⟩
        cases hn
        exact hitem
      · intro _
        rw [ht, hname]
        refine ⟨fun hts => ⟨fun n hn hnot => ?_, hts⟩, fun hboth => hboth.2⟩
        cases hn
        rw [(keyNamed_eq_none_iff key).2 hnot] at hk
        cases hk
    rw [hhead, hrest]
    constructor
    · rintro ⟨hfirst, hlater⟩ before i after n heq hname hnot hbefore
      cases before with
      | nil =>
        cases heq
        exact hfirst n hname hnot
      | cons i' before =>
        cases heq
        exact hlater before i after n rfl hname ⟨hnot, hbefore _ List.mem_cons_self⟩ fun j hj => hbefore j (List.mem_cons_of_mem _ hj)
    · intro hall
      refine ⟨fun n hname hnot => hall [] item items n rfl hname hnot nofun, ?_⟩
      rintro before i after n rfl hname ⟨hnot, hne⟩ hbefore
      refine hall (item :: before) i after n rfl hname hnot fun j hj => ?_
      rcases List.mem_cons.1 hj with rfl | hj
      · exact hne
      · exact hbefore j hj

variable (key act nm name new) in
/-- The table after the items. -/
def namedRun (items : List ι) (rows : List α) : List α :=
  applyUpserts key act ((namedTwice key act nm name new items rows).map Twice.first) rows

theorem namedRun_keys (h : NamedTable key act nm name new) (hkeys : (rows.map key).Nodup) (items : List ι) :
    ((namedRun key act nm name new items rows).map key).Nodup := by
  induction items generalizing rows with
  | nil => exact hkeys
  | cons item items ih => exact ih (namedUpsert_keys h hkeys item)

/-- The items once more: the table stays as it is, exactly if this is so for the row of each item that is the first of a new name. -/
theorem namedRun_twice_iff (h : NamedTable key act nm name new) (hkeys : (rows.map key).Nodup)
    (htwice : ∀ ps row, throughAll act ps (throughAll act ps row) = throughAll act ps row) (Kept : ι → List ι → Prop)
    (hkept : ∀ item ∈ items, ∀ rows ps, (∀ p ∈ ps, p ∈ items) → (name item).isSome →
      (throughAll act ps (act item (throughAll act ps (new rows item))) = throughAll act ps (new rows item) ↔ Kept item ps)) :
    namedRun key act nm name new items (namedRun key act nm name new items rows) = namedRun key act nm name new items rows ↔
      ∀ before item after n, items = before ++ item :: after → name item = some n → n ∉ rows.map nm → (∀ i ∈ before, name i ≠ some n) →
        Kept item (after.filter fun i => decide (name i = some n)) := by
  have hagain := namedTwice_again h hkeys items (namedRun_keys h hkeys items) fun n k hk => hk
  rw [← newRowsKept_named_iff h hkeys hkept, ← second_iff h.key_act (freshKeys_named h hkeys items) fun k row => htwice _ row]
  show applyUpserts key act ((namedTwice key act nm name new items (namedRun key act nm name new items rows)).map Twice.first) _ = _ ↔ _
  rw [hagain]
  exact Iff.rfl

end

end ProxmoxTool
