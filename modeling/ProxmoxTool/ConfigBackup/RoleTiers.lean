import ProxmoxTool.Auth.Roles

/-!
# Levels and base tiers of imported roles

The roles of an import, item by item.  What one role becomes depends on the items that name it only (`applyItem`), and its level is
the one given last, capped (`level_of_given`).

An item compares its base tier with a level that it may not write, and a later item may lower the level under a base tier that has been
taken.  `import_roles_iff` has what the import keeps in any case, and says exactly when a base tier it writes is not above the level
the role ends up with.
-/

namespace ProxmoxTool.ConfigBackup

/-! ### The items of one role -/

def RoleItem.names (name : Text) (item : RoleItem) : Bool :=
  decide (name ≠ [] ∧ (textArg item.name).map strip = some name)

def RoleItem.builtin (item : RoleItem) : Bool := (got item.isBuiltin).truthy

/-- The level of the base tier of an item, if it has one. -/
def RoleItem.tier (item : RoleItem) : Option Int :=
  if (got item.baseTier).truthy then tierLevel (got item.baseTier) else none

/-- The level an item gives: one that has no `level` gives none. -/
def RoleItem.given (item : RoleItem) : Option Int := if item.level.isSome then some (wantedLevel item.level) else none

/-- The levels that the items of a role give. -/
def given (name : Text) (items : List RoleItem) : List Int :=
  items.filterMap fun item => if item.names name then item.given else none

/-- What an item makes of a role, which may not exist. -/
def applyItem (name : Text) (role? : Option Role) (item : RoleItem) : Option (Option Role) :=
  if item.names name then
    match role? with
    | none => if item.builtin then some none else (newRole name item).map some
    | some role => if role.isBuiltin then some (some role) else (updateRole role item).map some
  else some role?

def applyItems (name : Text) (role? : Option Role) (items : List RoleItem) : Option (Option Role) :=
  items.foldlM (applyItem name) role?

/-- The role table after an item. -/
def roleStep (roles : List Role) (item : RoleItem) : Option (List Role) :=
  (importRole ⟨[], [], [], roles, [], []⟩ item).map fun r => r.1.roles

def importRoles (roles : List Role) (items : List RoleItem) : Option (List Role) := items.foldlM roleStep roles

def roleNamed (name : Text) (roles : List Role) : Option Role := roles.find? fun r => decide (r.name = name)

/-- The level of the base tier that an item writes on a role. -/
def writtenTier (name : Text) (role? : Option Role) (item : RoleItem) : Option Int :=
  if item.names name then
    match role? with
    | none => if item.builtin then none
        else item.tier.filter fun l => decide (l ≤ min (wantedLevel item.level) maxImportedRoleLevel)
    | some role => if role.isBuiltin then none else item.tier.filter fun l => decide (l ≤ cappedLevel role item)
  else none

/-! ### The level of a role -/

theorem given_cons (name : Text) (item : RoleItem) (items : List RoleItem) : given name (item :: items) =
    (if item.names name then item.given else none).toList ++ given name items := by
  unfold given
  rw [List.filterMap_cons]
  cases (if item.names name = true then item.given else none) with
  | none => rfl
  | some w => rfl

theorem given_append (name : Text) (xs ys : List RoleItem) : given name (xs ++ ys) = given name xs ++ given name ys :=
  List.filterMap_append

/-- An item of a custom role: the level it gives, capped, is the new one. -/
theorem applyItem_custom {name : Text} {role : Role} {item : RoleItem} {role? : Option Role} (hcustom : role.isBuiltin = false)
    (h : applyItem name (some role) item = some role?) : ∃ role', role? = some role' ∧ role'.isBuiltin = false ∧
      role'.level = ((if item.names name then item.given else none).map fun w => min w (max role.level maxImportedRoleLevel)).getD
        role.level := by
  unfold applyItem at h
  split at h
  · rename_i hnames
    dsimp only at h
    rw [hcustom, if_neg (by decide)] at h
    obtain ⟨role', hrole', rfl⟩ := Option.map_eq_some_iff.1 h
    obtain ⟨takes, displayName, baseTier, -, -, -, rfl⟩ := updateRole_ok hrole'
    refine ⟨_, rfl, hcustom, ?_⟩
    unfold RoleItem.given
    cases item.level.isSome with
    | true => simp [hnames, cappedLevel]
    | false => simp [hnames]
  · rename_i hnames
    cases h
    exact ⟨role, rfl, hcustom, by simp [hnames]⟩

/-- The level of a custom role after some items: up to the operator level it is the one given last, and above that it must have been at
least that high all along. -/
theorem level_of_given {name : Text} {items : List RoleItem} {role : Role} {role? : Option Role} (hcustom : role.isBuiltin = false)
    (h : applyItems name (some role) items = some role?) : ∃ role', role? = some role' ∧ role'.isBuiltin = false ∧
      (∀ t ≤ maxImportedRoleLevel, t ≤ role'.level ↔ t ≤ (given name items).getLast?.getD role.level) ∧
      ∀ t > maxImportedRoleLevel, t ≤ role'.level ↔ t ≤ role.level ∧ ∀ w ∈ given name items, t ≤ w := by
  induction items generalizing role with
  | nil =>
    cases h
    exact ⟨role, rfl, hcustom, fun t _ => Iff.rfl, fun t _ => by simp [given]⟩
  | cons item items ih =>
    unfold applyItems at h
    rw [List.foldlM_cons, Option.bind_eq_bind, Option.bind_eq_some_iff] at h
    obtain ⟨role₁?, hone, hrest⟩ := h
    obtain ⟨role₁, rfl, hcustom₁, hlevel⟩ := applyItem_custom hcustom hone
    obtain ⟨role', hrole', hcustom', hlow, hhigh⟩ := ih hcustom₁ hrest
    refine ⟨role', hrole', hcustom', fun t ht => ?_, fun t ht => ?_⟩
    · rw [hlow t ht, given_cons]
      cases hg : (if item.names name then item.given else none) with
      | none =>
        rw [hg] at hlevel
        rw [hlevel]
        rfl
      | some w =>
        rw [hg] at hlevel
        rw [Option.toList_some, List.singleton_append, List.getLast?_cons, Option.getD_some, hlevel, Option.map_some,
          Option.getD_some]
        cases (given name items).getLast? with
        | none =>
          rw [Option.getD_none, Option.getD_none]
          omega
        | some w' => rfl
    · rw [hhigh t ht, given_cons]
      cases hg : (if item.names name then item.given else none) with
      | none =>
        rw [hg] at hlevel
        rw [hlevel]
        rfl
      | some w =>
        rw [hg] at hlevel
        rw [hlevel, Option.map_some, Option.getD_some, Option.toList_some, List.singleton_append, List.forall_mem_cons]
        have hcap : t ≤ min w (max role.level maxImportedRoleLevel) ↔ t ≤ role.level ∧ t ≤ w := by omega
        rw [hcap, and_assoc]

/-- A built-in role stays what it is. -/
theorem applyItems_builtin {name : Text} {items : List RoleItem} {role : Role} {role? : Option Role}
    (hbuiltin : role.isBuiltin = true) (h : applyItems name (some role) items = some role?) : role? = some role := by
  induction items with
  | nil =>
    cases h
    rfl
  | cons item items ih =>
    unfold applyItems at h
    rw [List.foldlM_cons] at h
    have hone : applyItem name (some role) item = some (some role) := by
      unfold applyItem
      split
      · exact if_pos hbuiltin
      · rfl
    rw [hone] at h
    exact ih h

/-- The item creates the role, if there is none. -/
def RoleItem.creates (name : Text) (item : RoleItem) : Bool := item.names name && !item.builtin

/-- The level given last to a role that the items create: the item that creates it gives 1 if it has none. -/
def createdLast (name : Text) : List RoleItem → Int
  | [] => 0
  | item :: items => if item.creates name then (given name items).getLast?.getD (wantedLevel item.level)
      else createdLast name items

theorem applyItem_none {name : Text} {item : RoleItem} {role? : Option Role} (h : applyItem name none item = some role?) :
    (item.creates name = false ∧ role? = none) ∨
      item.creates name = true ∧ ∃ role, newRole name item = some role ∧ role? = some role := by
  unfold applyItem at h
  unfold RoleItem.creates
  cases hnames : item.names name with
  | false =>
    rw [hnames, if_neg (by decide)] at h
    cases h
    exact .inl ⟨rfl, rfl⟩
  | true =>
    rw [hnames, if_pos rfl] at h
    dsimp only at h
    cases hbuiltin : item.builtin with
    | true =>
      rw [hbuiltin, if_pos rfl] at h
      cases h
      exact .inl ⟨rfl, rfl⟩
    | false =>
      rw [hbuiltin, if_neg (by decide)] at h
      obtain ⟨role, hrole, rfl⟩ := Option.map_eq_some_iff.1 h
      exact .inr ⟨rfl, role, hrole, rfl⟩

/-- A role that the items create: custom, at most at the operator level, and at the level given last. -/
theorem level_of_created {name : Text} {items : List RoleItem} {role? : Option Role} (h : applyItems name none items = some role?) :
    (items.any (RoleItem.creates name) = false ∧ role? = none) ∨
      items.any (RoleItem.creates name) = true ∧ ∃ role, role? = some role ∧ role.isBuiltin = false ∧
        role.level ≤ maxImportedRoleLevel ∧ ∀ t ≤ maxImportedRoleLevel, t ≤ role.level ↔ t ≤ createdLast name items := by
  induction items with
  | nil =>
    cases h
    exact .inl ⟨rfl, rfl⟩
  | cons item items ih =>
    unfold applyItems at h
    rw [List.foldlM_cons, Option.bind_eq_bind, Option.bind_eq_some_iff] at h
    obtain ⟨role₁?, hone, hrest⟩ := h
    rw [List.any_cons, createdLast]
    rcases applyItem_none hone with ⟨hcreates, rfl⟩ | ⟨hcreates, role₁, hnew, rfl⟩
    · rw [hcreates, Bool.false_or, if_neg (by decide)]
      exact ih hrest
    · rw [hcreates, Bool.true_or, if_pos rfl]
      obtain ⟨tooHigh, displayName, baseTier, -, -, -, hrole₁⟩ := newRole_ok hnew
      have hcustom : role₁.isBuiltin = false := by rw [hrole₁]
      have hlevel : role₁.level = min (wantedLevel item.level) maxImportedRoleLevel := by rw [hrole₁]
      obtain ⟨role, hrole, hcustom', hlow, hhigh⟩ := level_of_given hcustom hrest
      refine .inr ⟨rfl, role, hrole, hcustom', ?_, fun t ht => ?_⟩
      · have hnot := (hhigh (maxImportedRoleLevel + 1) (by omega)).not
        have hmin : ¬ maxImportedRoleLevel + 1 ≤ role₁.level := by omega
        have := hnot.2 fun hboth => hmin hboth.1
        omega
      · rw [hlow t ht, hlevel]
        cases (given name items).getLast? with
        | none =>
          rw [Option.getD_none, Option.getD_none]
          omega
        | some w => rfl

/-! ### One role of the table -/

theorem roleStep_of_importRole {db db' : Db} {item : RoleItem} {note : Note} (h : importRole db item = some (db', note)) :
    roleStep db.roles item = some db'.roles := by
  have hsame : (importRole db item).map (fun r => r.1.roles) = roleStep db.roles item := by
    unfold roleStep importRole
    cases textArg item.name with
    | none => rfl
    | some raw =>
      simp only [Option.bind_eq_bind, Option.bind_some]
      split
      · rfl
      · split
        · split
          · rfl
          · cases newRole (strip raw) item with
            | none => rfl
            | some role => rfl
        · rename_i role _
          split
          · rfl
          · cases updateRole role item with
            | none => rfl
            | some role' => rfl
  rw [← hsame, h]
  rfl

theorem roleNamed_of_map {roles : List Role} {f : Role → Role} (hname : ∀ r ∈ roles, (f r).name = r.name) (name : Text) :
    roleNamed name (roles.map f) = (roleNamed name roles).map f := by
  unfold roleNamed
  induction roles with
  | nil => rfl
  | cons r roles ih =>
    have hr := hname r List.mem_cons_self
    have hrest := ih fun r' hr' => hname r' (List.mem_cons_of_mem _ hr')
    rw [List.map_cons, List.find?_cons, List.find?_cons, hr, hrest]
    cases decide (r.name = name) with
    | true => rfl
    | false => rfl

/-- The role of a name after an item. -/
theorem roleStep_named {roles roles' : List Role} {item : RoleItem} (h : roleStep roles item = some roles') (name : Text) :
    applyItem name (roleNamed name roles) item = some (roleNamed name roles') := by
  obtain ⟨⟨db', note⟩, himport, rfl⟩ := Option.map_eq_some_iff.1 h
  obtain ⟨nm, hnm, hcases⟩ := importRole_cases himport
  have hnames : ∀ n, item.names n = decide (n ≠ [] ∧ nm = n) := by
    intro n
    simp only [RoleItem.names, hnm, Option.some_inj]
  unfold applyItem
  rw [hnames]
  by_cases heq : name ≠ [] ∧ nm = name
  · obtain ⟨hne, rfl⟩ := heq
    rw [if_pos (by simpa using hne)]
    rcases hcases with ⟨rfl, hempty | ⟨hnone, hbuiltin⟩ | ⟨role, hrole, hbuiltin⟩⟩ | ⟨-, hnone, hcustom, role, hnew, rfl⟩ |
      ⟨-, role, role', hrole, hcustom, hupdate, rfl⟩
    · exact absurd hempty hne
    · change roleNamed nm roles = none at hnone
      rw [hnone]
      exact if_pos hbuiltin
    · change roleNamed nm roles = some role at hrole
      rw [hrole]
      exact if_pos hbuiltin
    · change roleNamed nm roles = none at hnone
      have hname := (newRole_created hnew).2
      have hfind : roleNamed nm (roles ++ [role]) = some role := by
        unfold roleNamed at hnone ⊢
        rw [List.find?_append, hnone, Option.none_or, List.find?_singleton, hname, if_pos (by simp)]
      have hbuiltin : item.builtin = false := hcustom
      rw [hnone, hfind]
      dsimp only
      rw [hbuiltin, hnew]
      rfl
    · change roleNamed nm roles = some role at hrole
      have hname : role.name = nm := by simpa using List.find?_some hrole
      have hname' := (updateRole_updated hcustom hupdate).name
      have hmap : ∀ r ∈ roles, (if r.name = role.name then role' else r).name = r.name := by
        intro r _
        split
        · rename_i hsame
          exact hname'.trans hsame.symm
        · rfl
      rw [roleNamed_of_map hmap, hrole]
      dsimp only [Option.map_some]
      rw [hcustom, hupdate, if_pos rfl]
      rfl
  · rw [if_neg (by simpa using heq)]
    rcases hcases with ⟨rfl, -⟩ | ⟨hne, -, -, role, hnew, rfl⟩ | ⟨hne, role, role', hrole, hcustom, hupdate, rfl⟩
    · rfl
    · have hother : role.name ≠ name := by
        rw [(newRole_created hnew).2]
        exact fun hsame => heq ⟨hsame ▸ hne, hsame⟩
      unfold roleNamed
      rw [List.find?_append, List.find?_singleton, if_neg (by simpa using hother), Option.or_none]
    · have hname : role.name = nm := by simpa using List.find?_some hrole
      have hname' := (updateRole_updated hcustom hupdate).name
      have hmap : ∀ r ∈ roles, (if r.name = role.name then role' else r).name = r.name := by
        intro r _
        split
        · rename_i hsame
          exact hname'.trans hsame.symm
        · rfl
      rw [roleNamed_of_map hmap]
      cases hfound : roleNamed name roles with
      | none => rfl
      | some r =>
        have hr : r.name = name := by simpa using List.find?_some hfound
        have hother : r.name ≠ role.name := by
          rw [hr, hname]
          exact fun hsame => heq ⟨fun hempty => hne (hsame ▸ hempty), hsame.symm⟩
        rw [Option.map_some, if_neg hother]

theorem importRoles_named {roles roles' : List Role} {items : List RoleItem} (h : importRoles roles items = some roles')
    (name : Text) : applyItems name (roleNamed name roles) items = some (roleNamed name roles') := by
  induction items generalizing roles with
  | nil =>
    cases h
    rfl
  | cons item items ih =>
    unfold importRoles at h
    rw [List.foldlM_cons, Option.bind_eq_bind, Option.bind_eq_some_iff] at h
    obtain ⟨roles₁, hone, hrest⟩ := h
    unfold applyItems
    rw [List.foldlM_cons, roleStep_named hone]
    exact ih hrest

/-! ### The base tiers of an import -/

/-- The level of the base tier that is taken from an item, by the document alone: one that is not above the level the item wants, and
above the operator level only while no lower level has been given. -/
def tierTaken (name : Text) (role? : Option Role) (before : List RoleItem) (item : RoleItem) : Option Int :=
  if item.names name then
    match role? with
    | some role => if role.isBuiltin then none else item.tier.filter fun l =>
        decide (l ≤ wantedLevel item.level ∧ (maxImportedRoleLevel < l → l ≤ role.level ∧ ∀ w ∈ given name before, l ≤ w))
    | none => if (before ++ [item]).any (RoleItem.creates name) then
        item.tier.filter fun l => decide (l ≤ wantedLevel item.level ∧ l ≤ maxImportedRoleLevel) else none
  else none

/-- The level that a document gives a role last. -/
def lastGiven (name : Text) (role? : Option Role) (items : List RoleItem) : Int :=
  match role? with
  | some role => (given name items).getLast?.getD role.level
  | none => createdLast name items

/-- What a document has to say of a base tier that is taken: the level given last is not under it, and for a tier above the operator
level no later item gives a lower level. -/
def TierStays (name : Text) (role? : Option Role) (items after : List RoleItem) (l : Int) : Prop :=
  if l ≤ maxImportedRoleLevel then l ≤ lastGiven name role? items else ∀ w ∈ given name after, l ≤ w

/-- What the code writes is what the document says. -/
theorem writtenTier_eq {name : Text} {role? role₁? : Option Role} {before : List RoleItem} (item : RoleItem)
    (h : applyItems name role? before = some role₁?) : writtenTier name role₁? item = tierTaken name role? before item := by
  unfold writtenTier tierTaken
  split
  · rename_i hnames
    cases role? with
    | some role =>
      cases hbuiltin : role.isBuiltin with
      | true =>
        obtain rfl := applyItems_builtin hbuiltin h
        dsimp only
        rw [if_pos hbuiltin, if_pos hbuiltin]
      | false =>
        obtain ⟨role₁, rfl, hcustom, -, hhigh⟩ := level_of_given hbuiltin h
        dsimp only
        rw [hcustom, if_neg (by decide), hbuiltin, if_neg (by decide)]
        refine congrArg (fun p => Option.filter p item.tier) (funext fun l => decide_eq_decide.2 ?_)
        unfold cappedLevel
        rw [le_min_iff, le_max_iff]
        refine and_congr_right fun _ => ⟨fun hle hlt => (hhigh l hlt).1 (hle.resolve_right (by omega)), fun himp => ?_⟩
        by_cases hlt : maxImportedRoleLevel < l
        · exact .inl ((hhigh l hlt).2 (himp hlt))
        · exact .inr (by omega)
    | none =>
      dsimp only
      rw [List.any_append, List.any_cons, List.any_nil, Bool.or_false]
      rcases level_of_created h with ⟨hnone, rfl⟩ | ⟨hsome, role₁, rfl, hcustom, hlevel, -⟩
      · dsimp only
        unfold RoleItem.creates at hnone ⊢
        rw [hnone, Bool.false_or, hnames, Bool.true_and]
        cases item.builtin with
        | true => rfl
        | false =>
          refine congrArg (fun p => Option.filter p item.tier) (funext fun l => decide_eq_decide.2 ?_)
          rw [le_min_iff]
      · dsimp only
        rw [hcustom, if_neg (by decide), hsome, Bool.true_or, if_pos rfl]
        refine congrArg (fun p => Option.filter p item.tier) (funext fun l => decide_eq_decide.2 ?_)
        unfold cappedLevel
        rw [le_min_iff]
        refine and_congr_right fun _ => ?_
        omega
  · rfl

/-- A base tier that is taken is not above the final level of its role exactly if the document says so. -/
theorem tier_le_iff {name : Text} {role? role'? : Option Role} {before after : List RoleItem} {item : RoleItem} {l : Int}
    (h : applyItems name role? (before ++ item :: after) = some role'?) (htaken : tierTaken name role? before item = some l) :
    ∃ role', role'? = some role' ∧ (l ≤ role'.level ↔ TierStays name role? (before ++ item :: after) after l) := by
  unfold tierTaken at htaken
  split at htaken
  · rename_i hnames
    cases role? with
    | some role =>
      dsimp only at htaken
      split at htaken
      · cases htaken
      · rename_i hcustom
        obtain ⟨-, htakes⟩ := Option.filter_eq_some_iff.1 htaken
        rw [decide_eq_true_eq] at htakes
        obtain ⟨hwanted, hcap⟩ := htakes
        obtain ⟨role', hrole', -, hlow, hhigh⟩ := level_of_given (by simpa using hcustom) h
        refine ⟨role', hrole', ?_⟩
        unfold TierStays
        split
        · rename_i hle
          exact hlow l hle
        · rename_i hgt
          have hlt : maxImportedRoleLevel < l := by omega
          obtain ⟨hlevel, hbefore⟩ := hcap hlt
          rw [hhigh l hlt, given_append, given_cons]
          refine ⟨fun hall w hw => hall.2 w ?_, fun hafter => ⟨hlevel, fun w hw => ?_⟩⟩
          · exact List.mem_append_right _ (List.mem_append_right _ hw)
          · rcases List.mem_append.1 hw with hw | hw
            · exact hbefore w hw
            · rcases List.mem_append.1 hw with hw | hw
              · rw [hnames, if_pos rfl] at hw
                unfold RoleItem.given at hw
                split at hw
                · rw [Option.toList_some, List.mem_singleton] at hw
                  omega
                · cases hw
              · exact hafter w hw
    | none =>
      dsimp only at htaken
      split at htaken
      · rename_i hcreates
        obtain ⟨-, htakes⟩ := Option.filter_eq_some_iff.1 htaken
        rw [decide_eq_true_eq] at htakes
        have hany : (before ++ item :: after).any (RoleItem.creates name) = true := by
          rw [List.any_append, List.any_cons]
          rw [List.any_append, List.any_cons, List.any_nil, Bool.or_false, Bool.or_eq_true] at hcreates
          rcases hcreates with hcreates | hcreates
          · rw [hcreates, Bool.true_or]
          · rw [hcreates, Bool.true_or, Bool.or_true]
        rcases level_of_created h with ⟨hnone, -⟩ | ⟨-, role', hrole', -, -, hlow⟩
        · rw [hany] at hnone
          cases hnone
        · refine ⟨role', hrole', ?_⟩
          unfold TierStays
          rw [if_pos htakes.2]
          exact hlow l htakes.2
      · cases htaken
  · cases htaken

theorem store_text {v : Value} {s : Scalar} (h : store .text v = some s) : v = .scalar s := by
  cases v with
  | scalar t =>
    cases t with
    | int i =>
      simp only [store, Option.ite_none_right_eq_some, Option.some.injEq] at h
      rw [h.2]
    | _ =>
      cases h
      rfl
  | arr items => cases h
  | obj empty => cases h

/-- The base tier of a role after an item: the one it had, or the one that the item writes. -/
theorem applyItem_baseTier {name : Text} {role? : Option Role} {item : RoleItem} {role' : Role}
    (h : applyItem name role? item = some (some role')) (htruthy : role'.baseTier.truthy = true) :
    (∃ role, role? = some role ∧ role'.baseTier = role.baseTier) ∨
      ∃ l, writtenTier name role? item = some l ∧ tierLevel (.scalar role'.baseTier) = some l := by
  unfold applyItem at h
  unfold writtenTier
  split at h
  · rename_i hnames
    rw [if_pos hnames]
    cases role? with
    | none =>
      dsimp only at h ⊢
      split at h
      · cases h
      · rename_i hcustom
        rw [if_neg hcustom]
        obtain ⟨role, hnew, hrole⟩ := Option.map_eq_some_iff.1 h
        cases hrole
        obtain ⟨tooHigh, displayName, baseTier, -, habove, hstore, rfl⟩ := newRole_ok hnew
        dsimp only at htruthy ⊢
        refine .inr ?_
        cases tooHigh with
        | true =>
          cases hstore
          cases htruthy
        | false =>
          have hvalue := store_text hstore
          unfold tierAbove at habove
          unfold RoleItem.tier
          rw [hvalue] at habove ⊢
          have htier : (Value.scalar baseTier).truthy = true := htruthy
          rw [if_pos htier] at habove ⊢
          obtain ⟨l, hl, hle⟩ := Option.map_eq_some_iff.1 habove
          rw [decide_eq_false_iff_not, not_lt] at hle
          exact ⟨l, Option.filter_eq_some_iff.2 ⟨hl, decide_eq_true hle⟩, hl⟩
    | some role =>
      dsimp only at h ⊢
      split at h
      · cases h
        exact .inl ⟨role', rfl, rfl⟩
      · rename_i hcustom
        rw [if_neg hcustom]
        obtain ⟨role₁, hupdate, hrole⟩ := Option.map_eq_some_iff.1 h
        cases hrole
        obtain ⟨takes, displayName, baseTier, -, htakes, hstore, rfl⟩ := updateRole_ok hupdate
        dsimp only at htruthy ⊢
        cases takes with
        | false =>
          cases hstore
          exact .inl ⟨role, rfl, rfl⟩
        | true =>
          have hvalue := store_text hstore
          unfold takesTier at htakes
          unfold RoleItem.tier
          rw [hvalue] at htakes ⊢
          have htier : (Value.scalar baseTier).truthy = true := htruthy
          rw [if_pos htier] at htakes ⊢
          obtain ⟨l, hl, hle⟩ := Option.map_eq_some_iff.1 htakes
          exact .inr ⟨l, Option.filter_eq_some_iff.2 ⟨hl, hle⟩, hl⟩
  · cases h
    exact .inl ⟨role', rfl, rfl⟩

/-! ### The table -/

/-- An item of a document, before the items `after`, writes a base tier of level `l` on the role of a name. -/
def WritesTier (roles : List Role) (items : List RoleItem) (name : Text) (l : Int) (after : List RoleItem) : Prop :=
  ∃ before item roles₁, items = before ++ item :: after ∧ importRoles roles before = some roles₁ ∧
    writtenTier name (roleNamed name roles₁) item = some l

/-- The document has such an item. -/
def TakesTier (roles : List Role) (items : List RoleItem) (name : Text) (l : Int) (after : List RoleItem) : Prop :=
  ∃ before item, items = before ++ item :: after ∧ tierTaken name (roleNamed name roles) before item = some l

variable {roles roles' : List Role} {items : List RoleItem}

theorem writes_iff (h : importRoles roles items = some roles') (name : Text) (l : Int) (after : List RoleItem) :
    WritesTier roles items name l after ↔ TakesTier roles items name l after := by
  constructor
  · rintro ⟨before, item, roles₁, hsplit, hbefore, hwritten⟩
    exact ⟨before, item, hsplit, writtenTier_eq item (importRoles_named hbefore name) ▸ hwritten⟩
  · rintro ⟨before, item, rfl, htaken⟩
    unfold importRoles at h
    rw [List.foldlM_append, Option.bind_eq_bind, Option.bind_eq_some_iff] at h
    obtain ⟨roles₁, hbefore, -⟩ := h
    refine ⟨before, item, roles₁, rfl, hbefore, ?_⟩
    rw [writtenTier_eq item (importRoles_named hbefore name)]
    exact htaken

/-- Every base tier there is afterwards was there, or has been written by an item. -/
theorem baseTier_origin (h : importRoles roles items = some roles') {name : Text} {role' : Role}
    (hrole' : roleNamed name roles' = some role') (htruthy : role'.baseTier.truthy = true) :
    (∃ role, roleNamed name roles = some role ∧ role'.baseTier = role.baseTier) ∨
      ∃ l after, WritesTier roles items name l after ∧ tierLevel (.scalar role'.baseTier) = some l := by
  induction items using List.reverseRecOn generalizing roles' role' with
  | nil =>
    cases h
    exact .inl ⟨role', hrole', rfl⟩
  | append_singleton items item ih =>
    unfold importRoles at h
    rw [List.foldlM_append, Option.bind_eq_bind, Option.bind_eq_some_iff] at h
    obtain ⟨roles₁, hbefore, hone⟩ := h
    rw [List.foldlM_cons, Option.bind_eq_bind, Option.bind_eq_some_iff] at hone
    obtain ⟨roles₂, hone, hnil⟩ := hone
    cases hnil
    have hstep := roleStep_named hone name
    rw [hrole'] at hstep
    rcases applyItem_baseTier hstep htruthy with ⟨role, hrole, hsame⟩ | ⟨l, hwritten, hl⟩
    · rcases ih hbefore hrole (hsame ▸ htruthy) with ⟨old, hold, heq⟩ | ⟨l, after, ⟨before, item', roles₃, hsplit, hrest⟩, hl⟩
      · exact .inl ⟨old, hold, hsame.trans heq⟩
      · refine .inr ⟨l, after ++ [item], ⟨before, item', roles₃, ?_, hrest⟩, hsame ▸ hl⟩
        rw [hsplit, List.append_assoc, List.cons_append]
    · exact .inr ⟨l, [], ⟨items, item, roles₁, rfl, hbefore, hwritten⟩, hl⟩

/-- Every base tier that the import writes is not above the level its role ends up with. -/
def TiersBounded (roles : List Role) (items : List RoleItem) (roles' : List Role) : Prop :=
  ∀ name l after, WritesTier roles items name l after → ∀ role', roleNamed name roles' = some role' → l ≤ role'.level

/-- The same of the base tiers that no later item overwrites. -/
def LastTiersBounded (roles : List Role) (items : List RoleItem) (roles' : List Role) : Prop :=
  ∀ name l after, WritesTier roles items name l after →
    (∀ l' after', after'.length < after.length → ¬ WritesTier roles items name l' after') →
    ∀ role', roleNamed name roles' = some role' → l ≤ role'.level

/-- What the document has to say: every base tier that is taken stays. -/
def TiersStay (roles : List Role) (items : List RoleItem) : Prop :=
  ∀ name l after, TakesTier roles items name l after → TierStays name (roleNamed name roles) items after l

/-- The same of the base tiers taken last. -/
def LastTiersStay (roles : List Role) (items : List RoleItem) : Prop :=
  ∀ name l after, TakesTier roles items name l after →
    (∀ l' after', after'.length < after.length → ¬ TakesTier roles items name l' after') →
    TierStays name (roleNamed name roles) items after l

theorem bounded_iff_stays (h : importRoles roles items = some roles') {name : Text} {l : Int} {after : List RoleItem}
    (htakes : TakesTier roles items name l after) :
    (∀ role', roleNamed name roles' = some role' → l ≤ role'.level) ↔ TierStays name (roleNamed name roles) items after l := by
  obtain ⟨before, item, rfl, htaken⟩ := htakes
  obtain ⟨role', hrole', hiff⟩ := tier_le_iff (importRoles_named h name) htaken
  rw [hrole', ← hiff]
  refine ⟨fun hall => hall role' rfl, fun hle role hrole => ?_⟩
  cases hrole
  exact hle

theorem tiersBounded_iff (h : importRoles roles items = some roles') :
    (TiersBounded roles items roles' ↔ TiersStay roles items) ∧
      (LastTiersBounded roles items roles' ↔ LastTiersStay roles items) := by
  unfold TiersBounded TiersStay LastTiersBounded LastTiersStay
  simp only [writes_iff h]
  refine ⟨?_, ?_⟩
  · exact forall_congr' fun name => forall_congr' fun l => forall_congr' fun after => forall_congr' fun htakes =>
      bounded_iff_stays h htakes
  · exact forall_congr' fun name => forall_congr' fun l => forall_congr' fun after => forall_congr' fun htakes =>
      forall_congr' fun _ => bounded_iff_stays h htakes

/-! ### Imports -/

/-- The item of a step that imports a role. -/
def Step.role? : Step → Option RoleItem
  | .role item => some item
  | _ => none

/-- The role table after some steps is that after their role items. -/
theorem importRoles_of_runSteps {flags : Flags} {db db' : Db} {steps : List Step} (h : runSteps flags db steps = some db') :
    importRoles db.roles (steps.filterMap Step.role?) = some db'.roles := by
  induction steps generalizing db with
  | nil =>
    cases h
    rfl
  | cons step steps ih =>
    rw [runSteps_cons, Option.bind_eq_some_iff] at h
    obtain ⟨⟨db₁, note⟩, hone, hrest⟩ := h
    have hafter := ih hrest
    cases step with
    | role item =>
      unfold importRoles at hafter ⊢
      change (item :: steps.filterMap Step.role?).foldlM roleStep db.roles = some db'.roles
      rw [List.foldlM_cons, roleStep_of_importRole hone]
      exact hafter
    | _ =>
      have hframe := importStep_frame hone
      unfold Step.Frame at hframe
      have hroles : db₁.roles = db.roles := by rw [hframe]
      rw [hroles] at hafter
      exact hafter

theorem steps_roles (importHosts : Bool) (doc : Document) :
    (doc.steps ⟨true, importHosts⟩).filterMap Step.role? = doc.roles := by
  have hnone : ∀ {α : Type} (f : α → Step), (∀ a, (f a).role? = none) → ∀ l : List α, (l.map f).filterMap Step.role? = [] := by
    intro α f hf l
    rw [List.filterMap_map]
    exact List.filterMap_eq_nil_iff.2 fun a _ => hf a
  have hsome : (doc.roles.map Step.role).filterMap Step.role? = doc.roles := by
    rw [List.filterMap_map]
    exact List.filterMap_some
  unfold Document.steps
  rw [if_pos rfl, List.filterMap_append, List.filterMap_append, List.filterMap_append, List.filterMap_append, hsome,
    hnone _ fun _ => rfl, hnone _ fun _ => rfl, hnone _ fun _ => rfl, hnone _ fun _ => rfl]
  simp

section

open Roles (RoleRow renumber)
open Users (User superAdmin)

/-- The keys and the names of the roles are distinct (the primary key and `unique=True`). -/
structure Keyed (rows : List RoleRow) : Prop where
  ids : (rows.map RoleRow.id).Nodup
  names : (rows.map fun row => row.name).Nodup

/-- `user.role_obj`. -/
def roleObj (rows : List RoleRow) (u : User) : Option RoleRow := rows.find? fun row => decide (row.id = u.roleId)

def isAdmin (rows : List RoleRow) (u : User) : Bool := decide (3 ≤ (roleObj rows u).elim 1 fun row => row.level)

def isSuperAdmin (rows : List RoleRow) (u : User) : Bool := (roleObj rows u).any fun row => decide (row.name = superAdmin)

/-- What an import keeps of the roles in any case. -/
structure RolesKept (rows rows' : List RoleRow) : Prop where
  builtin : ∀ row, row.isBuiltin = true → (row ∈ rows ↔ row ∈ rows')
  level : ∀ row' ∈ rows', row'.isBuiltin = false →
    (∃ row ∈ rows, row.id = row'.id ∧ row.name = row'.name ∧ row'.level ≤ max row.level maxImportedRoleLevel) ∨
      row'.id ∉ rows.map RoleRow.id ∧ row'.level ≤ maxImportedRoleLevel
  admin : ∀ row' ∈ rows', 3 ≤ row'.level → ∃ row ∈ rows, row.id = row'.id ∧ 3 ≤ row.level
  users : ∀ u : User, (∃ row ∈ rows, row.id = u.roleId) →
    (isAdmin rows' u = true → isAdmin rows u = true) ∧ isSuperAdmin rows' u = isSuperAdmin rows u

theorem rolesKept {rows : List RoleRow} {roles : List Role} (hkeyed : Keyed rows)
    (h : Imported (rows.map RoleRow.toRole) roles) : RolesKept rows (renumber rows roles) := by
  have hlength := h.length
  rw [List.length_map] at hlength
  obtain ⟨-, hids, -⟩ := Roles.renumber_facts hlength
  have hcases : ∀ row' ∈ renumber rows roles, (∃ row ∈ rows, row.id = row'.id ∧ Updated row.toRole row'.toRole) ∨
      row'.id ∉ rows.map RoleRow.id ∧ Created row'.toRole :=
    fun row' hrow' => Roles.mem_renumber_cases hkeyed.ids h hrow'
  have hadmin : ∀ row' ∈ renumber rows roles, 3 ≤ row'.level → ∃ row ∈ rows, row.id = row'.id ∧ 3 ≤ row.level := by
    intro row' hrow' hlevel
    rcases hcases row' hrow' with ⟨row, hrow, hid, hupdated⟩ | ⟨-, hcreated⟩
    · have hle := hupdated.level
      unfold maxImportedRoleLevel at hle
      exact ⟨row, hrow, hid, by omega⟩
    · have hle := hcreated.level
      unfold maxImportedRoleLevel at hle
      omega
  refine ⟨fun row hbuiltin => ⟨fun hrow => ?_, fun hrow' => ?_⟩, fun row' hrow' hcustom => ?_, hadmin, fun u hrole => ?_⟩
  · exact Roles.mem_renumber_of_builtin h hrow hbuiltin
  · rcases hcases row hrow' with ⟨old, hold, hid, hupdated⟩ | ⟨-, hcreated⟩
    · have hsame : row.toRole = old.toRole := hupdated.kept (hupdated.builtin.symm.trans hbuiltin)
      have hrow : row = old := by
        cases row
        cases old
        cases hid
        cases hsame
        rfl
      exact hrow ▸ hold
    · have hcustom := hcreated.custom
      rw [hbuiltin] at hcustom
      cases hcustom
  · rcases hcases row' hrow' with ⟨row, hrow, hid, hupdated⟩ | ⟨hid, hcreated⟩
    · exact .inl ⟨row, hrow, hid, hupdated.name.symm, hupdated.level⟩
    · exact .inr ⟨hid, hcreated.level⟩
  · obtain ⟨row, hrow, hid⟩ := hrole
    have hold : roleObj rows u = some row := by
      unfold roleObj
      rw [← hid]
      exact find?_id_eq RoleRow.id hkeyed.ids hrow
    obtain ⟨row', hrow', hid', hupdated⟩ : ∃ row' ∈ renumber rows roles, row'.id = row.id ∧ Updated row.toRole row'.toRole := by
      obtain ⟨i, hi, rfl⟩ := List.getElem_of_mem hrow
      obtain ⟨role, hnew⟩ : ∃ role, roles[i]? = some role := ⟨_, List.getElem?_eq_getElem (Nat.lt_of_lt_of_le hi hlength)⟩
      obtain ⟨-, -, new, hrenumber⟩ := Roles.renumber_facts hlength
      refine ⟨⟨role, rows[i].id⟩, ?_, rfl, ?_⟩
      · rw [hrenumber]
        refine List.mem_append_left _ (List.mem_iff_getElem?.2 ⟨i, ?_⟩)
        rw [List.getElem?_zipWith, List.getElem?_eq_getElem hi, hnew]
      · refine h.row i _ _ ?_ hnew
        rw [List.getElem?_map, List.getElem?_eq_getElem hi]
        rfl
    have hnew : roleObj (renumber rows roles) u = some row' := by
      unfold roleObj
      rw [← hid, ← hid']
      exact find?_id_eq RoleRow.id (hids hkeyed.ids) hrow'
    unfold isAdmin isSuperAdmin
    rw [hold, hnew]
    refine ⟨fun hlevel => ?_, ?_⟩
    · have hle := hupdated.level
      rw [decide_eq_true_eq] at hlevel ⊢
      dsimp only [Option.elim] at hlevel ⊢
      unfold maxImportedRoleLevel at hle
      omega
    · have hname : row'.name = row.name := hupdated.name
      dsimp only [Option.any]
      rw [hname]

/-- An import with `import_roles`: built-in roles stay, levels are capped, and no user becomes an admin or `super_admin`, whatever the
document.  The base tiers it writes are not above the levels of their roles exactly if the document says so, be it of all of them or of
those that are written last. -/
theorem import_roles_iff {rows : List RoleRow} (hkeyed : Keyed rows) {db db' : Db} (hdb : db.roles = rows.map RoleRow.toRole)
    {importHosts : Bool} {upload : Option Upload} {doc : Document} {summary : Summary} (hdoc : validateDocument upload = .ok doc)
    (h : applyImport ⟨true, importHosts⟩ db upload = .ok (db', summary)) :
    RolesKept rows (renumber rows db'.roles) ∧
      (TiersBounded db.roles doc.roles db'.roles ↔ TiersStay db.roles doc.roles) ∧
      (LastTiersBounded db.roles doc.roles db'.roles ↔ LastTiersStay db.roles doc.roles) := by
  obtain ⟨doc', hdoc', hrun⟩ := applyImport_ok h
  obtain rfl : doc' = doc := Except.ok.inj (hdoc'.symm.trans hdoc)
  have hnames : RoleNames db.roles := by
    unfold RoleNames
    rw [hdb, List.map_map]
    exact hkeyed.names
  have himported := (runSteps_imported hnames hrun).1
  have hroles := importRoles_of_runSteps hrun
  rw [steps_roles] at hroles
  exact ⟨rolesKept hkeyed (hdb ▸ himported), tiersBounded_iff hroles⟩

def exampleRows : List RoleRow := [⟨⟨superAdmin, .str "Super Admin".toList, 4, true, .null, fun _ => true⟩, 1⟩]

def exampleTables : Db := ⟨[], [], [], exampleRows.map RoleRow.toRole, [], []⟩

/-- An operator role, whose level a second item lowers. -/
def exampleItems : List RoleItem :=
  [⟨some (.scalar (.str "helpdesk".toList)), none, some (.scalar (.int 2)), none, some (.scalar (.str "operator".toList)), fun _ => none⟩,
    ⟨some (.scalar (.str "helpdesk".toList)), none, some (.scalar (.int 1)), none, none, fun _ => none⟩]

theorem baseTier_origin_helpdesk : ∃ roles' role', importRoles [] exampleItems = some roles' ∧
    roleNamed "helpdesk".toList roles' = some role' ∧
      ((∃ role, roleNamed "helpdesk".toList [] = some role ∧ role'.baseTier = role.baseTier) ∨
        ∃ l after, WritesTier [] exampleItems "helpdesk".toList l after ∧ tierLevel (.scalar role'.baseTier) = some l) :=
  ⟨_, _, rfl, rfl, baseTier_origin rfl rfl rfl⟩

def exampleUpload : Upload where
  version := some (.scalar (.int 1))
  tags := some (.list [])
  hosts := some (.list [])
  guests := some (.list [])
  roles := some (.list (exampleItems.map some))
  settings := some (some [])

theorem exampleKeyed : Keyed exampleRows := ⟨by decide, by decide⟩

theorem example_kept : ∃ db' summary, applyImport ⟨true, false⟩ exampleTables exampleUpload = .ok (db', summary) ∧
    RolesKept exampleRows (renumber exampleRows db'.roles) := by
  obtain ⟨⟨db', summary⟩, h⟩ : ∃ r, applyImport ⟨true, false⟩ exampleTables (some exampleUpload) = .ok r := ⟨_, rfl⟩
  have hdoc : validateDocument (some exampleUpload) = .ok ⟨[], [], [], exampleItems, []⟩ := rfl
  exact ⟨db', summary, h, (import_roles_iff exampleKeyed rfl hdoc h).1⟩

/-- The role ends up at level 1 with the base tier `operator`. -/
theorem example_tiers : ∃ db' summary, applyImport ⟨true, false⟩ exampleTables exampleUpload = .ok (db', summary) ∧
    ¬ TiersBounded exampleTables.roles exampleItems db'.roles ∧ ¬ LastTiersBounded exampleTables.roles exampleItems db'.roles := by
  refine ⟨_, _, rfl, fun hbounded => ?_, fun hbounded => ?_⟩
  · have hwrites : WritesTier exampleTables.roles exampleItems "helpdesk".toList 2 exampleItems.tail :=
      ⟨[], _, _, rfl, rfl, by decide +kernel⟩
    have hle := hbounded "helpdesk".toList 2 _ hwrites _ rfl
    revert hle
    decide
  · have hwrites : WritesTier exampleTables.roles exampleItems "helpdesk".toList 2 exampleItems.tail :=
      ⟨[], _, _, rfl, rfl, by decide +kernel⟩
    have hle := hbounded "helpdesk".toList 2 _ hwrites (fun l after hlt hwrites' => ?_) _ rfl
    · revert hle
      decide
    · -- the second item has no base tier
      obtain ⟨before, item, roles₁, hsplit, -, hwritten⟩ := hwrites'
      have hafter : after = [] := List.eq_nil_of_length_eq_zero (by simpa [exampleItems] using hlt)
      have hitem : exampleItems.getLast? = some item := by
        rw [hsplit, hafter, List.getLast?_append]
        rfl
      have hnone : item.tier = none := by
        obtain rfl := Option.some.inj hitem
        rfl
      unfold writtenTier at hwritten
      rw [hnone] at hwritten
      revert hwritten
      split
      · split
        · split <;> simp
        · split <;> simp
      · simp

end

end ProxmoxTool.ConfigBackup
