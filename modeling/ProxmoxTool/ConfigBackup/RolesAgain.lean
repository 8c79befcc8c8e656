import ProxmoxTool.ConfigBackup.HostsAgain
import ProxmoxTool.ConfigBackup.RoleTiers

/-!
# A document twice: roles

What a second import of the same roles does.  A role that the first import has created is there the second time, so the items in front of
its creation, skipped as built-in roles, now count.  Of a role that was there, only the base tier can come out differently: an `admin` tier
that was taken while the level allowed it is not taken again once a later item has lowered the level.  `roles_again_iff` has the exact
condition.
-/

namespace ProxmoxTool.ConfigBackup

/-! ### Columns of a role -/

/-- What the items of a name give; other items give nothing. -/
def ofName {V : Type} (name : Text) (g : RoleItem → Option V) (item : RoleItem) : Option V := if item.names name then g item else none

def RoleItem.display (item : RoleItem) : Option Scalar :=
  if (got item.displayName).truthy then store .text (got item.displayName) else none

def RoleItem.permission (p : Permission) (item : RoleItem) : Option Bool := (item.permissions p).map Value.truthy

/-- The level that an item gives a role that is not above the operator level. -/
def RoleItem.cappedGiven (item : RoleItem) : Option Int := item.given.map fun w => min w maxImportedRoleLevel

/-- The base tier that an item gives a role of a level. -/
def RoleItem.tierAt (level : Int) (item : RoleItem) : Option Scalar :=
  if item.tier.any fun l => decide (l ≤ min (wantedLevel item.level) (max level maxImportedRoleLevel)) then store .text (got item.baseTier)
  else none

/-- The level of a custom role after an item. -/
def levelAfter (name : Text) (level : Int) (item : RoleItem) : Int :=
  ((ofName name RoleItem.given item).map fun w => min w (max level maxImportedRoleLevel)).getD level

/-- The base tiers that items give a custom role, whose level may fall from one item to the next. -/
def tiersGiven (name : Text) : Int → List RoleItem → List (Option Scalar)
  | _, [] => []
  | level, item :: items => ofName name (RoleItem.tierAt level) item :: tiersGiven name (levelAfter name level item) items

/-- What items make of a custom role. -/
structure GivenBy (name : Text) (items : List RoleItem) (role role' : Role) : Prop where
  sameName : role'.name = role.name
  custom : role'.isBuiltin = false
  display : role'.displayName = overwritten (items.map (ofName name RoleItem.display)) role.displayName
  permission : ∀ p, role'.permissions p = overwritten (items.map (ofName name (RoleItem.permission p))) (role.permissions p)
  level : role'.level = items.foldl (levelAfter name) role.level
  tier : role'.baseTier = overwritten (tiersGiven name role.level items) role.baseTier

theorem orDefault_eq {v : Option Value} {default s : Scalar} (h : orDefault v default = some s) :
    s = (if (got v).truthy then store .text (got v) else none).getD default := by
  unfold orDefault at h
  split at h
  · rename_i htruthy
    rw [if_pos htruthy, h]
    rfl
  · rename_i hfalsy
    rw [if_neg hfalsy]
    exact (Option.some.inj h).symm

theorem importedPermissions_eq (base : Permission → Bool) (item : RoleItem) (p : Permission) :
    importedPermissions base item p = (item.permission p).getD (base p) := by
  unfold importedPermissions RoleItem.permission
  cases item.permissions p with
  | none => rfl
  | some v => rfl

/-- The base tier of an item is taken or not. -/
theorem tierAt_eq {role : Role} {item : RoleItem} {takes : Bool} (h : takesTier role item = some takes) :
    item.tierAt role.level = if takes then store .text (got item.baseTier) else none := by
  have hany : (item.tier.any fun l => decide (l ≤ min (wantedLevel item.level) (max role.level maxImportedRoleLevel))) = takes := by
    unfold takesTier at h
    unfold RoleItem.tier
    split at h
    · rename_i htruthy
      rw [if_pos htruthy]
      obtain ⟨l, hl, rfl⟩ := Option.map_eq_some_iff.1 h
      rw [hl]
      rfl
    · rename_i hfalsy
      rw [if_neg hfalsy]
      exact Option.some.inj h
  unfold RoleItem.tierAt
  rw [hany]

theorem GivenBy.refl {name : Text} {role : Role} (hcustom : role.isBuiltin = false) : GivenBy name [] role role :=
  ⟨rfl, hcustom, rfl, fun _ => rfl, rfl, rfl⟩

theorem GivenBy.cons {name : Text} {item : RoleItem} {items : List RoleItem} {role role₁ role' : Role}
    (hone : GivenBy name [item] role role₁) (hrest : GivenBy name items role₁ role') : GivenBy name (item :: items) role role' where
  sameName := hrest.sameName.trans hone.sameName
  custom := hrest.custom
  display := by
    rw [hrest.display, hone.display]
    rfl
  permission p := by
    rw [hrest.permission, hone.permission]
    rfl
  level := by
    rw [hrest.level, hone.level]
    rfl
  tier := by
    rw [hrest.tier, hone.tier, hone.level]
    rfl

theorem updateRole_given {name : Text} {role role' : Role} {item : RoleItem} (hcustom : role.isBuiltin = false)
    (h : updateRole role item = some role') (hnames : item.names name = true) : GivenBy name [item] role role' := by
  have hof : ∀ {V : Type} (g : RoleItem → Option V), ofName name g item = g item := fun g => if_pos hnames
  obtain ⟨takes, displayName, baseTier, hdisplay, htakes, hbase, rfl⟩ := updateRole_ok h
  refine ⟨rfl, hcustom, ?_, fun p => ?_, ?_, ?_⟩
  · show _ = (ofName name RoleItem.display item).getD _
    rw [hof]
    exact orDefault_eq hdisplay
  · show _ = (ofName name (RoleItem.permission p) item).getD _
    rw [hof]
    exact importedPermissions_eq role.permissions item p
  · show _ = ((ofName name RoleItem.given item).map fun w => min w (max role.level maxImportedRoleLevel)).getD _
    rw [hof]
    unfold RoleItem.given
    cases item.level.isSome with
    | true => rfl
    | false => rfl
  · show baseTier = (ofName name (RoleItem.tierAt role.level) item).getD role.baseTier
    rw [hof, tierAt_eq htakes]
    cases takes with
    | true =>
      rw [if_pos rfl] at hbase ⊢
      rw [hbase]
      rfl
    | false =>
      rw [if_neg Bool.false_ne_true] at hbase ⊢
      exact (Option.some.inj hbase).symm

theorem applyItem_given {name : Text} {role : Role} {item : RoleItem} {role? : Option Role} (hcustom : role.isBuiltin = false)
    (h : applyItem name (some role) item = some role?) : ∃ role', role? = some role' ∧ GivenBy name [item] role role' := by
  unfold applyItem at h
  split at h
  · rename_i hnames
    dsimp only at h
    rw [hcustom, if_neg Bool.false_ne_true] at h
    obtain ⟨role', hrole', rfl⟩ := Option.map_eq_some_iff.1 h
    exact ⟨role', rfl, updateRole_given hcustom hrole' hnames⟩
  · rename_i hnames
    have hof : ∀ {V : Type} (g : RoleItem → Option V), ofName name g item = none := fun g => if_neg hnames
    cases h
    refine ⟨role, rfl, rfl, hcustom, ?_, fun p => ?_, ?_, ?_⟩
    · show _ = (ofName name RoleItem.display item).getD _
      rw [hof]
      rfl
    · show _ = (ofName name (RoleItem.permission p) item).getD _
      rw [hof]
      rfl
    · show _ = ((ofName name RoleItem.given item).map _).getD _
      rw [hof]
      rfl
    · show _ = (ofName name (RoleItem.tierAt role.level) item).getD _
      rw [hof]
      rfl

/-- What items make of a custom role. -/
theorem applyItems_given {name : Text} {items : List RoleItem} {role : Role} {role? : Option Role} (hcustom : role.isBuiltin = false)
    (h : applyItems name (some role) items = some role?) : ∃ role', role? = some role' ∧ GivenBy name items role role' := by
  induction items generalizing role with
  | nil =>
    cases h
    exact ⟨role, rfl, .refl hcustom⟩
  | cons item items ih =>
    unfold applyItems at h
    rw [List.foldlM_cons, Option.bind_eq_bind, Option.bind_eq_some_iff] at h
    obtain ⟨role₁?, hone, hrest⟩ := h
    obtain ⟨role₁, rfl, hgiven₁⟩ := applyItem_given hcustom hone
    obtain ⟨role', hrole', hgiven⟩ := ih hgiven₁.custom hrest
    exact ⟨role', hrole', hgiven₁.cons hgiven⟩

/-! ### A role that was there -/

variable {name : Text} {items : List RoleItem}

theorem tierAt_of_le {level : Int} (h : level ≤ maxImportedRoleLevel) (item : RoleItem) :
    item.tierAt level = item.tierAt maxImportedRoleLevel := by
  unfold RoleItem.tierAt
  rw [max_eq_right h, max_self]

theorem levelAfter_le {level : Int} (h : level ≤ maxImportedRoleLevel) (item : RoleItem) :
    levelAfter name level item ≤ maxImportedRoleLevel := by
  unfold levelAfter
  cases ofName name RoleItem.given item with
  | none => exact h
  | some w =>
    show min w (max level maxImportedRoleLevel) ≤ maxImportedRoleLevel
    rw [max_eq_right h]
    exact min_le_right w _

/-- Up to the operator level, the base tiers do not depend on the level. -/
theorem tiersGiven_of_le {level : Int} (h : level ≤ maxImportedRoleLevel) (items : List RoleItem) :
    tiersGiven name level items = items.map (ofName name (RoleItem.tierAt maxImportedRoleLevel)) := by
  induction items generalizing level with
  | nil => rfl
  | cons item items ih =>
    have hhead : ofName name (RoleItem.tierAt level) item = ofName name (RoleItem.tierAt maxImportedRoleLevel) item := by
      unfold ofName
      rw [tierAt_of_le h]
    rw [tiersGiven, hhead, ih (levelAfter_le h item), List.map_cons]

theorem levels_of_le {level : Int} (h : level ≤ maxImportedRoleLevel) (items : List RoleItem) :
    items.foldl (levelAfter name) level = overwritten (items.map (ofName name RoleItem.cappedGiven)) level := by
  induction items generalizing level with
  | nil => rfl
  | cons item items ih =>
    have hhead : levelAfter name level item = (ofName name RoleItem.cappedGiven item).getD level := by
      unfold levelAfter ofName RoleItem.cappedGiven
      rw [max_eq_right h]
      split <;> rfl
    rw [List.foldl_cons, ih (levelAfter_le h item), hhead, List.map_cons, overwritten_cons]

/-- There is no base tier above 3. -/
theorem tier_le {item : RoleItem} {l : Int} (h : item.tier = some l) : l ≤ 3 := by
  unfold RoleItem.tier at h
  split at h
  · unfold tierLevel at h
    split at h
    · split at h
      · cases h
        decide
      · split at h
        · cases h
          decide
        · split at h
          · cases h
            decide
          · cases h
            decide
    · cases h
      decide
    · cases h
  · cases h

/-- Above the operator level, neither. -/
theorem tierAt_of_gt {level : Int} (h : maxImportedRoleLevel < level) (item : RoleItem) : item.tierAt level = item.tierAt 3 := by
  have hany : (item.tier.any fun l => decide (l ≤ min (wantedLevel item.level) (max level maxImportedRoleLevel))) =
      item.tier.any fun l => decide (l ≤ min (wantedLevel item.level) (max 3 maxImportedRoleLevel)) := by
    cases htier : item.tier with
    | none => rfl
    | some l =>
      have hl := tier_le htier
      have h3 : maxImportedRoleLevel = 2 := rfl
      rw [Option.any_some, Option.any_some, decide_eq_decide]
      omega
  unfold RoleItem.tierAt
  rw [hany]

theorem levels_le {level : Int} (h : level ≤ maxImportedRoleLevel) (items : List RoleItem) :
    items.foldl (levelAfter name) level ≤ maxImportedRoleLevel := by
  induction items generalizing level with
  | nil => exact h
  | cons item items ih => exact ih (levelAfter_le h item)

theorem tiersGiven_of_gt {level : Int} (h : maxImportedRoleLevel < items.foldl (levelAfter name) level) :
    tiersGiven name level items = items.map (ofName name (RoleItem.tierAt 3)) := by
  induction items generalizing level with
  | nil => rfl
  | cons item items ih =>
    have hlevel : maxImportedRoleLevel < level := by
      by_contra hle
      have hlow : (item :: items).foldl (levelAfter name) level ≤ maxImportedRoleLevel := levels_le (not_lt.1 hle) (item :: items)
      omega
    have hhead : ofName name (RoleItem.tierAt level) item = ofName name (RoleItem.tierAt 3) item := by
      unfold ofName
      rw [tierAt_of_gt hlevel]
    rw [tiersGiven, hhead, ih h, List.map_cons]

/-- The level stays above the operator level exactly if it was and no item lowers it to there. -/
theorem lt_levels_iff {level : Int} : maxImportedRoleLevel < items.foldl (levelAfter name) level ↔
    maxImportedRoleLevel < level ∧ ∀ w ∈ given name items, maxImportedRoleLevel < w := by
  induction items generalizing level with
  | nil => exact ⟨fun h => ⟨h, nofun⟩, fun h => h.1⟩
  | cons item items ih =>
    rw [List.foldl_cons, ih, given_cons]
    unfold levelAfter ofName
    cases (if item.names name then item.given else none) with
    | none => exact Iff.rfl
    | some w =>
      rw [Option.map_some, Option.getD_some, Option.toList_some, List.singleton_append, List.forall_mem_cons, ← and_assoc]
      refine and_congr_left fun _ => ?_
      omega

/-- A base tier that is taken at the operator level is taken at any level. -/
theorem tierAt_mono {item : RoleItem} {s : Scalar} (level : Int) (h : item.tierAt maxImportedRoleLevel = some s) :
    item.tierAt level = some s := by
  unfold RoleItem.tierAt at h ⊢
  rw [Option.ite_none_right_eq_some] at h
  obtain ⟨hany, hstore⟩ := h
  rw [if_pos ?_, hstore]
  obtain ⟨l, hl, hle⟩ := (Option.any_eq_true _ _).1 hany
  refine (Option.any_eq_true _ _).2 ⟨l, hl, ?_⟩
  rw [decide_eq_true_eq] at hle ⊢
  omega

theorem tiersGiven_none {level : Int} (h : ∀ g ∈ tiersGiven name level items, g = none) :
    ∀ g ∈ items.map (ofName name (RoleItem.tierAt maxImportedRoleLevel)), g = none := by
  induction items generalizing level with
  | nil => exact nofun
  | cons item items ih =>
    rw [tiersGiven, List.forall_mem_cons] at h
    refine List.forall_mem_cons.2 ⟨?_, ih h.2⟩
    have hhead := h.1
    unfold ofName at hhead ⊢
    split
    · rename_i hnames
      rw [if_pos hnames] at hhead
      cases htier : item.tierAt maxImportedRoleLevel with
      | none => rfl
      | some s =>
        rw [tierAt_mono level htier] at hhead
        cases hhead
    · rfl

/-- What the items have to say for the base tier of a role that was there: no item lowers the level from above the operator level, or the
last base tier that is taken is also the last one of those that the operator level allows, if it allows any. -/
def TiersKept (name : Text) (level : Int) (items : List RoleItem) : Prop :=
  (maxImportedRoleLevel < level ∧ ∀ w ∈ given name items, maxImportedRoleLevel < w) ∨
    ∀ s, lastValue (items.map (ofName name (RoleItem.tierAt maxImportedRoleLevel))) = some s →
      lastValue (tiersGiven name level items) = some s

theorem tiers_twice_iff (level : Int) (tier : Scalar) : overwritten (tiersGiven name (items.foldl (levelAfter name) level) items)
    (overwritten (tiersGiven name level items) tier) = overwritten (tiersGiven name level items) tier ↔ TiersKept name level items := by
  unfold TiersKept
  rw [← lt_levels_iff]
  by_cases hhigh : maxImportedRoleLevel < items.foldl (levelAfter name) level
  · have hagain : maxImportedRoleLevel < items.foldl (levelAfter name) (items.foldl (levelAfter name) level) :=
      lt_levels_iff.2 ⟨hhigh, (lt_levels_iff.1 hhigh).2⟩
    rw [tiersGiven_of_gt hagain, tiersGiven_of_gt hhigh]
    exact iff_of_true (overwritten_twice _ tier) (.inl hhigh)
  · rw [tiersGiven_of_le (not_lt.1 hhigh), or_iff_right hhigh]
    refine overwritten_other_iff (fun hnone => ?_) tier
    exact lastValue_eq_none_iff.2 (tiersGiven_none (lastValue_eq_none_iff.1 hnone))

/-- The items once more, for a custom role that was there. -/
theorem role_kept_iff {role : Role} {role₁? role₂? : Option Role} (hcustom : role.isBuiltin = false)
    (h₁ : applyItems name (some role) items = some role₁?) (h₂ : applyItems name role₁? items = some role₂?) :
    role₂? = role₁? ↔ TiersKept name role.level items := by
  obtain ⟨role₁, rfl, hgiven₁⟩ := applyItems_given hcustom h₁
  obtain ⟨role₂, rfl, hgiven₂⟩ := applyItems_given hgiven₁.custom h₂
  have hlevel : role₂.level = role₁.level := by
    obtain ⟨_, heq₁, -, hlow₁, hhigh₁⟩ := level_of_given hcustom h₁
    obtain ⟨_, heq₂, -, hlow₂, hhigh₂⟩ := level_of_given hgiven₁.custom h₂
    cases heq₁
    cases heq₂
    refine eq_of_forall_le_iff fun t => ?_
    by_cases ht : t ≤ maxImportedRoleLevel
    · rw [hlow₂ t ht, hlow₁ t ht]
      cases hlast : (given name items).getLast? with
      | none =>
        have hback := hlow₁ t ht
        rw [hlast] at hback
        exact hback
      | some w => exact Iff.rfl
    · rw [hhigh₂ t (not_le.1 ht), hhigh₁ t (not_le.1 ht)]
      exact ⟨fun h => h.1, fun h => ⟨h, h.2⟩⟩
  have htier : role₂.baseTier = role₁.baseTier ↔ TiersKept name role.level items := by
    rw [hgiven₂.tier, hgiven₁.tier, hgiven₁.level]
    exact tiers_twice_iff role.level role.baseTier
  rw [← htier, Option.some_inj]
  refine ⟨fun heq => by rw [heq], fun heq => Role.ext hgiven₂.sameName ?_ hlevel ?_ heq (funext fun p => ?_)⟩
  · rw [hgiven₂.display, hgiven₁.display, overwritten_twice]
  · rw [hgiven₂.custom, hgiven₁.custom]
  · rw [hgiven₂.permission, hgiven₁.permission, overwritten_twice]

/-! ### A role that is created -/

/-- The base tier of a new role whose item has none that is taken: one above the level of the role is dropped. -/
def RoleItem.newTier (item : RoleItem) : Scalar :=
  if (got item.baseTier).truthy then .null else (store .text (got item.baseTier)).getD .null

/-- What an item makes of a role that it creates. -/
theorem newRole_given {item : RoleItem} {role : Role} (h : newRole name item = some role) :
    role.isBuiltin = false ∧ role.displayName = item.display.getD (.str name) ∧ (∀ p, role.permissions p = (item.permission p).getD false) ∧
      role.level = item.cappedGiven.getD 1 ∧ role.baseTier = (item.tierAt maxImportedRoleLevel).getD item.newTier := by
  obtain ⟨tooHigh, displayName, baseTier, hdisplay, htoo, hbase, rfl⟩ := newRole_ok h
  refine ⟨rfl, orDefault_eq hdisplay, importedPermissions_eq _ item, ?_, ?_⟩
  · unfold RoleItem.cappedGiven RoleItem.given
    cases hlevel : item.level with
    | none => rfl
    | some v => rfl
  · dsimp only
    unfold RoleItem.tierAt RoleItem.newTier RoleItem.tier
    unfold tierAbove at htoo
    rw [max_self]
    split at htoo
    · rename_i htruthy
      obtain ⟨l, hl, hlt⟩ := Option.map_eq_some_iff.1 htoo
      rw [if_pos htruthy, if_pos htruthy, hl, Option.any_some]
      by_cases hle : l ≤ min (wantedLevel item.level) maxImportedRoleLevel
      · rw [decide_eq_false (not_lt.2 hle)] at hlt
        rw [← hlt, if_neg Bool.false_ne_true] at hbase
        rw [if_pos (decide_eq_true hle), hbase]
        rfl
      · rw [decide_eq_true (not_le.1 hle)] at hlt
        rw [← hlt, if_pos rfl] at hbase
        rw [if_neg (by simpa using hle)]
        exact (Option.some.inj hbase).symm
    · rename_i hfalsy
      cases htoo
      rw [if_neg Bool.false_ne_true] at hbase
      rw [if_neg hfalsy, if_neg hfalsy, hbase]
      rfl

/-- A column of a new role stays as it is: the item that creates the role or a later one gives it, or those in front leave the default
alone. -/
def ColumnSettled {V : Type} (g : RoleItem → Option V) (before : List RoleItem) (creator : RoleItem) (after : List RoleItem) (default : V) :
    Prop := g creator = none → (∀ i ∈ after, g i = none) → overwritten (before.map g) default = default

theorem column_again_iff {V : Type} (g : RoleItem → Option V) {before after : List RoleItem} {creator : RoleItem} {d v v₁ v₂ : V}
    (hnew : v = (g creator).getD d) (h₁ : v₁ = overwritten (after.map g) v)
    (h₂ : v₂ = overwritten ((before ++ creator :: after).map g) v₁) :
    v₂ = v₁ ↔ ColumnSettled g before creator after d := by
  subst hnew h₁ h₂
  rw [List.map_append, List.map_cons, overwritten_whole_iff _ _ (fun x hx => by rw [hx]; rfl)]
  unfold ColumnSettled
  rw [List.forall_mem_map]
  refine forall_congr' fun hnone => ?_
  rw [hnone]
  rfl

/-- The items in front of the one that creates a role leave it alone when they are imported again; the first time they were skipped, as
items of a built-in role. -/
structure CreationSettled (name : Text) (before : List RoleItem) (creator : RoleItem) (after : List RoleItem) : Prop where
  display : ColumnSettled (ofName name RoleItem.display) before creator after (.str name)
  permission : ∀ p, ColumnSettled (ofName name (RoleItem.permission p)) before creator after false
  level : ColumnSettled (ofName name RoleItem.cappedGiven) before creator after 1
  tier : ColumnSettled (ofName name (RoleItem.tierAt maxImportedRoleLevel)) before creator after creator.newTier

theorem applyItems_cons (role? : Option Role) (item : RoleItem) (items : List RoleItem) :
    applyItems name role? (item :: items) = (applyItem name role? item).bind fun role? => applyItems name role? items := List.foldlM_cons

theorem applyItems_created {before after : List RoleItem} {creator : RoleItem} {role? : Option Role}
    (hbefore : ∀ i ∈ before, i.creates name = false) (hcreator : creator.creates name = true) (h : applyItems name none (before ++ creator :: after) = some role?) :
    ∃ role, newRole name creator = some role ∧ applyItems name (some role) after = some role? := by
  induction before with
  | nil =>
    rw [List.nil_append, applyItems_cons, Option.bind_eq_some_iff] at h
    obtain ⟨role₁?, hone, hrest⟩ := h
    rcases applyItem_none hone with ⟨hnot, -⟩ | ⟨-, role, hnew, rfl⟩
    · rw [hcreator] at hnot
      cases hnot
    · exact ⟨role, hnew, hrest⟩
  | cons item before ih =>
    rw [List.cons_append, applyItems_cons, Option.bind_eq_some_iff] at h
    obtain ⟨role₁?, hone, hrest⟩ := h
    rcases applyItem_none hone with ⟨-, rfl⟩ | ⟨hcreates, -⟩
    · exact ih (fun i hi => hbefore i (List.mem_cons_of_mem _ hi)) hrest
    · rw [hbefore item List.mem_cons_self] at hcreates
      cases hcreates

/-- The items once more, for a role that they have created. -/
theorem role_created_iff {before after : List RoleItem} {creator : RoleItem} {role₁? role₂? : Option Role}
    (hbefore : ∀ i ∈ before, i.creates name = false) (hcreator : creator.creates name = true)
    (h₁ : applyItems name none (before ++ creator :: after) = some role₁?)
    (h₂ : applyItems name role₁? (before ++ creator :: after) = some role₂?) :
    role₂? = role₁? ↔ CreationSettled name before creator after := by
  obtain ⟨role, hnew, hafter⟩ := applyItems_created hbefore hcreator h₁
  obtain ⟨hcustom, hdisplay, hpermission, hlevel, htier⟩ := newRole_given hnew
  have hlow : role.level ≤ maxImportedRoleLevel := (newRole_created hnew).1.level
  obtain ⟨role₁, rfl, hgiven₁⟩ := applyItems_given hcustom hafter
  obtain ⟨role₂, rfl, hgiven₂⟩ := applyItems_given hgiven₁.custom h₂
  have hof : ∀ {V : Type} (g : RoleItem → Option V), ofName name g creator = g creator := by
    intro V g
    unfold RoleItem.creates at hcreator
    exact if_pos (Bool.and_eq_true_iff.1 hcreator).1
  have hlow₁ : role₁.level ≤ maxImportedRoleLevel := by
    rw [hgiven₁.level]
    exact levels_le hlow after
  have hdisplays := column_again_iff (ofName name RoleItem.display) (by rw [hof, hdisplay]) hgiven₁.display hgiven₂.display
  have hpermissions := fun p => column_again_iff (ofName name (RoleItem.permission p)) (by rw [hof, hpermission]) (hgiven₁.permission p)
    (hgiven₂.permission p)
  have hlevels := column_again_iff (ofName name RoleItem.cappedGiven) (by rw [hof, hlevel]) (hgiven₁.level.trans (levels_of_le hlow after))
    (hgiven₂.level.trans (levels_of_le hlow₁ _))
  have htier₁ := hgiven₁.tier
  have htier₂ := hgiven₂.tier
  rw [tiersGiven_of_le hlow] at htier₁
  rw [tiersGiven_of_le hlow₁] at htier₂
  have htiers := column_again_iff (ofName name (RoleItem.tierAt maxImportedRoleLevel)) (htier.trans (by rw [hof])) htier₁ htier₂
  rw [Option.some_inj]
  constructor
  · rintro rfl
    exact ⟨hdisplays.1 rfl, fun p => (hpermissions p).1 rfl, hlevels.1 rfl, htiers.1 rfl⟩
  · rintro ⟨hd, hp, hl, ht⟩
    exact Role.ext hgiven₂.sameName (hdisplays.2 hd) (hlevels.2 hl) (by rw [hgiven₂.custom, hgiven₁.custom]) (htiers.2 ht)
      (funext fun p => (hpermissions p).2 (hp p))

/-! ### The role table -/

/-- What the items have to say for the role of a name to come out the same. -/
def RoleSettled (name : Text) (role? : Option Role) (items : List RoleItem) : Prop :=
  match role? with
  | some role => role.isBuiltin = false → TiersKept name role.level items
  | none => ∀ before creator after, items = before ++ creator :: after → (∀ i ∈ before, i.creates name = false) →
      creator.creates name = true → CreationSettled name before creator after

theorem role_again_iff {role? role₁? role₂? : Option Role} (h₁ : applyItems name role? items = some role₁?)
    (h₂ : applyItems name role₁? items = some role₂?) : role₂? = role₁? ↔ RoleSettled name role? items := by
  cases role? with
  | some role =>
    cases hbuiltin : role.isBuiltin with
    | true =>
      obtain rfl := applyItems_builtin hbuiltin h₁
      obtain rfl := applyItems_builtin hbuiltin h₂
      refine iff_of_true rfl fun hcustom => ?_
      rw [hbuiltin] at hcustom
      cases hcustom
    | false => exact (role_kept_iff hbuiltin h₁ h₂).trans ⟨fun hkept _ => hkept, fun himp => himp hbuiltin⟩
  | none =>
    constructor
    · rintro heq before creator after rfl hbefore hcreator
      exact (role_created_iff hbefore hcreator h₁ h₂).1 heq
    · intro hsettled
      cases hfind : items.find? (RoleItem.creates name) with
      | some creator =>
        obtain ⟨hcreator, before, after, rfl, hbefore⟩ := List.find?_eq_some_iff_append.1 hfind
        have hbefore : ∀ i ∈ before, i.creates name = false := fun i hi => by simpa using hbefore i hi
        exact (role_created_iff hbefore hcreator h₁ h₂).2 (hsettled before creator after rfl hbefore hcreator)
      | none =>
        have hnone : items.any (RoleItem.creates name) = false := by
          rw [List.any_eq_false]
          exact List.find?_eq_none.1 hfind
        have hstays : ∀ {role'? : Option Role}, applyItems name none items = some role'? → role'? = none := by
          intro role'? h
          rcases level_of_created h with ⟨-, hrole⟩ | ⟨hany, -⟩
          · exact hrole
          · rw [hnone] at hany
            cases hany
        obtain rfl := hstays h₁
        exact hstays h₂

/-- With distinct names, a row is the role of its name. -/
theorem roleNamed_of_getElem? {roles : List Role} (hnames : RoleNames roles) {i : Nat} {role : Role} (h : roles[i]? = some role) :
    roleNamed role.name roles = some role := by
  unfold roleNamed
  cases hfind : roles.find? fun r => decide (r.name = role.name) with
  | none =>
    have hnot := List.find?_eq_none.1 hfind role (List.mem_of_getElem? h)
    exact absurd (decide_eq_true rfl) hnot
  | some r =>
    have hname : r.name = role.name := by simpa using List.find?_some hfind
    rw [eq_of_id_eq Role.name hnames (List.mem_of_find?_eq_some hfind) (List.mem_of_getElem? h) hname]

/-- A table that an import leaves alone, name by name. -/
theorem eq_of_roleNamed {roles roles' : List Role} (himported : Imported roles roles') (hnames : RoleNames roles)
    (hnames' : RoleNames roles') (hsame : ∀ name, roleNamed name roles' = roleNamed name roles) : roles' = roles := by
  refine List.ext_getElem? fun i => ?_
  cases hi : roles[i]? with
  | some role =>
    have hlt : i < roles'.length := Nat.lt_of_lt_of_le (List.getElem?_eq_some_iff.1 hi).1 himported.length
    have hi' : roles'[i]? = some roles'[i] := List.getElem?_eq_getElem hlt
    have hrole := roleNamed_of_getElem? hnames' hi'
    rw [hsame, (himported.row i role _ hi hi').name, roleNamed_of_getElem? hnames hi] at hrole
    rw [hi', hrole]
  | none =>
    -- a new row would have a name of its own
    cases hi' : roles'[i]? with
    | none => rfl
    | some role' =>
      have hrole := roleNamed_of_getElem? hnames' hi'
      rw [hsame] at hrole
      obtain ⟨j, hj⟩ := List.getElem?_of_mem (List.mem_of_find?_eq_some hrole)
      have hjlt : j < roles.length := (List.getElem?_eq_some_iff.1 hj).1
      have hjlt' : j < roles'.length := Nat.lt_of_lt_of_le hjlt himported.length
      have hj' : roles'[j]? = some roles'[j] := List.getElem?_eq_getElem hjlt'
      have hname : roles'[j].name = role'.name := (himported.row j role' _ hj hj').name
      have hile : roles.length ≤ i := List.getElem?_eq_none_iff.1 hi
      have hindex : j = i := by
        refine (List.getElem?_inj (by simpa using hjlt') hnames').1 ?_
        rw [List.getElem?_map, List.getElem?_map, hj', hi', Option.map_some, Option.map_some, hname]
      omega

/-- What a document has to be like for a second import to leave the roles alone. -/
def RolesSettled (roles : List Role) (items : List RoleItem) : Prop := ∀ name, RoleSettled name (roleNamed name roles) items

theorem roles_again_iff {flags : Flags} {db db' db₁ db₂ : Db} (hnames : RoleNames db.roles)
    (h₁ : runSteps flags db (items.map .role) = some db') (hsame : db₁.roles = db'.roles)
    (h₂ : runSteps flags db₁ (items.map .role) = some db₂) : db₂.roles = db₁.roles ↔ RolesSettled db.roles items := by
  have hitems : (items.map Step.role).filterMap Step.role? = items := by
    rw [List.filterMap_map]
    exact List.filterMap_some
  have hnames₁ : RoleNames db₁.roles := hsame ▸ (runSteps_imported hnames h₁).2
  obtain ⟨himported, hnames₂⟩ := runSteps_imported hnames₁ h₂
  have hrun₁ := importRoles_of_runSteps h₁
  have hrun₂ := importRoles_of_runSteps h₂
  rw [hitems] at hrun₁ hrun₂
  rw [← hsame] at hrun₁
  have hname := fun name => role_again_iff (importRoles_named hrun₁ name) (importRoles_named hrun₂ name)
  refine Iff.trans ⟨fun heq name => by rw [heq], eq_of_roleNamed himported hnames₁ hnames₂⟩ (forall_congr' hname)

end ProxmoxTool.ConfigBackup
