import ProxmoxTool.Discovery.Pass

/-!
# Which guests a pass tracks

A pass over hosts with complete listings, seen on the links.  The row of a VMID changes hands only when a host that has no
row for it lists it as running and the first row found on another host is re-linked (`Claimed.taken`).  Two results follow.

`represented_and_keptApart_iff`: every listed guest ends up with a row of its own, and no row is taken away from a guest that is still
there or that lives in another cluster, exactly if at each host's turn each VMID it lists is already its own, is unknown
elsewhere, or runs here while the first row elsewhere belongs to a host of the same cluster that does not list it.

`relinked_iff`: the row of a guest that migrated from one host to another is kept exactly if the new host is
processed before the old one, has no row for the VMID, and no host that is not processed before it owns an earlier row.
-/

namespace ProxmoxTool.Discovery

/-! ### Passes over links -/

/-- A pass: the hosts in their order, with their complete listings. -/
abbrev Reports := List (HostId × Report)

def passLinks (now : Nat) (hs : Reports) (L : List Link) : List Link :=
  hs.foldl (fun L h => hostLinks now h.1 h.2 L) L

/-- Some host of the pass with this id lists the VMID. -/
def ListedBy (hs : Reports) (host : HostId) (vmid : Vmid) : Prop := ∃ r, (host, r) ∈ hs ∧ vmid ∈ r.map Prod.fst

/-- No two rows of one VMID are linked to the same host. -/
def OneEach (ls : List Link) : Prop := ∀ l ∈ ls, ∀ l' ∈ ls, l.host.isSome → l.host = l'.host → l = l'

section

variable {now : Nat} {host host' : HostId} {vmid : Vmid} {r : Report} {ls ls' L : List Link}

theorem passLinks_append (hs hs' : Reports) : passLinks now (hs ++ hs') L = passLinks now hs' (passLinks now hs L) :=
  List.foldl_append

theorem nodup_passLinks (hs : Reports) (hids : (L.map Link.id).Nodup) : ((passLinks now hs L).map Link.id).Nodup := by
  induction hs generalizing L with
  | nil => exact hids
  | cons h hs ih => exact ih (nodup_hostLinks h.2 hids)

theorem nodup_atVmid (hids : (L.map Link.id).Nodup) : ((atVmid vmid L).map Link.id).Nodup :=
  hids.sublist (List.filter_sublist.map _)

/-- The links of a VMID after another host has claimed it are those before, one of them perhaps moved, and perhaps a new
one. -/
theorem Claimed.mem {l : Link} (h : Claimed now host vmid r ls ls') (hl : l ∈ ls') : l ∈ ls ∨ l.host = some host := by
  cases h with
  | own => exact Or.inl hl
  | skipped => exact Or.inl hl
  | new id =>
    rcases List.mem_append.1 hl with hl | hl
    · exact Or.inl hl
    · rw [List.mem_singleton.1 hl]
      exact Or.inr rfl
  | @taken o _ hfirst =>
    obtain ⟨l0, hl0, rfl⟩ := List.mem_map.1 hl
    by_cases hid : l0.id = o.id
    · exact Or.inr (relink_host hid)
    · rw [relink_of_ne hid]
      exact Or.inl hl0

/-- A link survives a claim unless it is the one that is taken over. -/
theorem Claimed.mem_of_mem {l : Link} (h : Claimed now host vmid r ls ls') (hl : l ∈ ls) :
    l ∈ ls' ∨ ∃ o, ¬ HasOwn host ls ∧ firstOther host ls = some o ∧ l.id = o.id ∧ ls' = ls.map (relink host o.id) := by
  cases h with
  | own => exact Or.inl hl
  | skipped => exact Or.inl hl
  | new id => exact Or.inl (List.mem_append_left _ hl)
  | @taken o hno hfirst =>
    by_cases hid : l.id = o.id
    · exact Or.inr ⟨o, hno, hfirst, hid, rfl⟩
    · refine Or.inl (List.mem_map.2 ⟨l, hl, relink_of_ne hid⟩)

theorem Claimed.oneEach (h : Claimed now host vmid r ls ls') (hids : (ls.map Link.id).Nodup) (h1 : OneEach ls) :
    OneEach ls' := by
  cases h with
  | own => exact h1
  | skipped => exact h1
  | new id hno =>
    intro l hl l' hl' hsome heq
    rcases List.mem_append.1 hl with hl | hl <;> rcases List.mem_append.1 hl' with hl' | hl'
    · exact h1 l hl l' hl' hsome heq
    · rw [List.mem_singleton.1 hl'] at heq
      exact absurd ⟨l, hl, heq⟩ hno
    · rw [List.mem_singleton.1 hl] at heq
      exact absurd ⟨l', hl', heq.symm⟩ hno
    · rw [List.mem_singleton.1 hl, List.mem_singleton.1 hl']
  | @taken o hno hfirst =>
    have ho := (firstOther_mem hfirst).1
    intro l hl l' hl' hsome heq
    obtain ⟨k, hk, rfl⟩ := List.mem_map.1 hl
    obtain ⟨k', hk', rfl⟩ := List.mem_map.1 hl'
    by_cases hid : k.id = o.id <;> by_cases hid' : k'.id = o.id
    · rw [eq_of_id_eq Link.id hids hk hk' (hid.trans hid'.symm)]
    · rw [relink_host hid, relink_of_ne hid'] at heq
      exact absurd ⟨k', hk', heq.symm⟩ hno
    · rw [relink_of_ne hid, relink_host hid'] at heq
      exact absurd ⟨k, hk, heq⟩ hno
    · rw [relink_of_ne hid, relink_of_ne hid'] at heq ⊢
      rw [relink_of_ne hid] at hsome
      exact h1 k hk k' hk' hsome heq

/-! ### One host's turn, at one VMID -/

/-- What `atVmid_hostLinks` says of the links of a VMID before and after a host's turn. -/
def Turn (now : Nat) (h : HostId × Report) (vmid : Vmid) (ls ls' : List Link) : Prop :=
  (vmid ∉ h.2.map Prod.fst ∧ ls' = if h.2 = [] then ls else ls.filter fun l => l.host ≠ some h.1) ∨
    (vmid ∈ h.2.map Prod.fst ∧ Claimed now h.1 vmid h.2 ls ls')

theorem turn_hostLinks (h : HostId × Report) (hids : (L.map Link.id).Nodup) :
    Turn now h vmid (atVmid vmid L) (atVmid vmid (hostLinks now h.1 h.2 L)) :=
  atVmid_hostLinks h.2 hids

theorem Turn.oneEach {h : HostId × Report} (ht : Turn now h vmid ls ls') (hids : (ls.map Link.id).Nodup)
    (h1 : OneEach ls) : OneEach ls' := by
  rcases ht with ⟨-, rfl⟩ | ⟨-, hcl⟩
  · split
    · exact h1
    · intro l hl l' hl'
      exact h1 l (List.mem_filter.1 hl).1 l' (List.mem_filter.1 hl').1
  · exact hcl.oneEach hids h1

/-- A link of the VMID after a host's turn was there before or is now the host's, and then the host lists the VMID. -/
theorem Turn.mem {h : HostId × Report} {l : Link} (ht : Turn now h vmid ls ls') (hl : l ∈ ls') :
    l ∈ ls ∨ (l.host = some h.1 ∧ vmid ∈ h.2.map Prod.fst) := by
  rcases ht with ⟨-, rfl⟩ | ⟨hmem, hcl⟩
  · split at hl
    · exact Or.inl hl
    · exact Or.inl (List.mem_filter.1 hl).1
  · exact (hcl.mem hl).imp_right fun hh => ⟨hh, hmem⟩

/-- A host gets a row of a VMID in its own turn only. -/
theorem Turn.not_hasOwn {h : HostId × Report} (ht : Turn now h vmid ls ls') (hne : h.1 ≠ host) (hno : ¬ HasOwn host ls) :
    ¬ HasOwn host ls' := by
  rintro ⟨l, hl, hhost⟩
  rcases ht.mem hl with hl | ⟨hh, -⟩
  · exact hno ⟨l, hl, hhost⟩
  · rw [hhost] at hh
    exact hne (Option.some.inj hh).symm

/-- The row of a host outlives the turn of another host, or the host is left without one. -/
theorem Turn.keeps_or_loses {h : HostId × Report} {l : Link} (ht : Turn now h vmid ls ls') (hne : h.1 ≠ host)
    (hids : (ls.map Link.id).Nodup) (h1 : OneEach ls) (hl : l ∈ ls) (hhost : l.host = some host) :
    l ∈ ls' ∨ ¬ HasOwn host ls' := by
  rcases ht with ⟨-, rfl⟩ | ⟨-, hcl⟩
  · left
    split
    · exact hl
    · refine List.mem_filter.2 ⟨hl, ?_⟩
      rw [hhost]
      simpa using Ne.symm hne
  · rcases hcl.mem_of_mem hl with hl' | ⟨o, -, hfirst, hid, rfl⟩
    · exact Or.inl hl'
    · right
      have hlo : l = o := eq_of_id_eq Link.id hids hl (firstOther_mem hfirst).1 hid
      rintro ⟨l', hl', hhost'⟩
      obtain ⟨k, hk, rfl⟩ := List.mem_map.1 hl'
      by_cases hkid : k.id = o.id
      · rw [relink_host hkid] at hhost'
        exact hne (Option.some.inj hhost')
      · rw [relink_of_ne hkid] at hhost'
        have : l = k := h1 l hl k hk (by simp [hhost]) (hhost.trans hhost'.symm)
        exact hkid (by rw [← this, hlo])

/-! ### The rest of a pass -/

theorem oneEach_passLinks (hs : Reports) (hids : (L.map Link.id).Nodup) (h1 : OneEach (atVmid vmid L)) :
    OneEach (atVmid vmid (passLinks now hs L)) := by
  induction hs generalizing L with
  | nil => exact h1
  | cons h hs ih =>
    exact ih (nodup_hostLinks h.2 hids) ((turn_hostLinks h hids).oneEach (nodup_atVmid hids) h1)

theorem not_hasOwn_passLinks {hs : Reports} (hids : (L.map Link.id).Nodup) (hnot : host ∉ hs.map Prod.fst)
    (hno : ¬ HasOwn host (atVmid vmid L)) : ¬ HasOwn host (atVmid vmid (passLinks now hs L)) := by
  induction hs generalizing L with
  | nil => exact hno
  | cons h hs ih =>
    simp only [List.map_cons, List.mem_cons, not_or] at hnot
    exact ih (nodup_hostLinks h.2 hids) hnot.2 ((turn_hostLinks h hids).not_hasOwn (Ne.symm hnot.1) hno)

theorem keeps_or_loses_passLinks {hs : Reports} {l : Link} (hids : (L.map Link.id).Nodup)
    (h1 : OneEach (atVmid vmid L)) (hnot : host ∉ hs.map Prod.fst) (hl : l ∈ atVmid vmid L) (hhost : l.host = some host) :
    l ∈ atVmid vmid (passLinks now hs L) ∨ ¬ HasOwn host (atVmid vmid (passLinks now hs L)) := by
  induction hs generalizing L with
  | nil => exact Or.inl hl
  | cons h hs ih =>
    simp only [List.map_cons, List.mem_cons, not_or] at hnot
    have ht : Turn now h vmid (atVmid vmid L) _ := turn_hostLinks h hids
    have hids' : ((hostLinks now h.1 h.2 L).map Link.id).Nodup := nodup_hostLinks h.2 hids
    rcases ht.keeps_or_loses (Ne.symm hnot.1) (nodup_atVmid hids) h1 hl hhost with hl' | hno
    · exact ih hids' (ht.oneEach (nodup_atVmid hids) h1) hnot.2 hl'
    · have hno' : ¬ HasOwn host (atVmid vmid (passLinks now hs (hostLinks now h.1 h.2 L))) :=
        not_hasOwn_passLinks hids' hnot.2 hno
      exact Or.inr hno'

/-- A link of the VMID is an old one, or it was linked in this pass by a host that lists the VMID. -/
theorem mem_passLinks {hs : Reports} {l : Link} (hids : (L.map Link.id).Nodup)
    (hl : l ∈ atVmid vmid (passLinks now hs L)) : l ∈ atVmid vmid L ∨ ∃ b, l.host = some b ∧ ListedBy hs b vmid := by
  induction hs using List.reverseRecOn with
  | nil => exact Or.inl hl
  | append_singleton hs h ih =>
    rw [passLinks_append] at hl
    have ht : Turn now h vmid (atVmid vmid (passLinks now hs L)) _ := turn_hostLinks h (nodup_passLinks hs hids)
    rcases ht.mem hl with hl | ⟨hh, hmem⟩
    · rcases ih hl with hl | ⟨b, hb, r, hr, hv⟩
      · exact Or.inl hl
      · exact Or.inr ⟨b, hb, r, List.mem_append_left _ hr, hv⟩
    · exact Or.inr ⟨h.1, hh, h.2, by simp, hmem⟩

/-- Rows without a VMID are left alone. -/
theorem mem_of_mem_claimLink_of_none {running : Bool} {l : Link} (hids : (L.map Link.id).Nodup)
    (hl : l ∈ claimLink now host L vmid running) (hv : l.vmid = none) : l ∈ L := by
  unfold claimLink at hl
  split at hl
  · exact hl
  · rw [find?_isOther] at hl
    split at hl
    · rename_i o ho
      split at hl
      · obtain ⟨k, hk, rfl⟩ := List.mem_map.1 hl
        by_cases hid : k.id = o.id
        · obtain ⟨hoL, hov⟩ := mem_atVmid.1 (firstOther_mem ho).1
          rw [relink_vmid, eq_of_id_eq Link.id hids hk hoL hid, hov] at hv
          cases hv
        · rw [relink_of_ne hid]
          exact hk
      · exact hl
    · rcases List.mem_append.1 hl with hl | hl
      · exact hl
      · rw [List.mem_singleton.1 hl] at hv
        cases hv

theorem mem_of_mem_passLinks_of_none {hs : Reports} {l : Link} (hids : (L.map Link.id).Nodup)
    (hl : l ∈ passLinks now hs L) (hv : l.vmid = none) : l ∈ L := by
  induction hs generalizing L with
  | nil => exact hl
  | cons h hs ih =>
    have hfold : ∀ (r : Report) {K : List Link}, (K.map Link.id).Nodup →
        l ∈ r.foldl (fun L e => claimLink now h.1 L e.1 e.2) K → l ∈ K := by
      intro r
      induction r with
      | nil => exact fun _ hl => hl
      | cons e r ihr => exact fun hK hl => mem_of_mem_claimLink_of_none hK (ihr (nodup_claimLink hK e.2) hl) hv
    have hhost : l ∈ hostLinks now h.1 h.2 L := ih (nodup_hostLinks h.2 hids) hl
    unfold hostLinks at hhost
    split at hhost
    · exact hfold h.2 hids hhost
    · exact (List.mem_filter.1 (hfold h.2 (nodup_cleanLinks _ hids) hhost)).1

end

/-! ### Every listed guest has its own row -/

section

variable (cluster : HostId → Nat) (hs : Reports)

/-- Every host has a row for each VMID it lists. -/
def Represented (L' : List Link) : Prop := ∀ h ∈ hs, ∀ v ∈ h.2.map Prod.fst, HasOwn h.1 (atVmid v L')

/-- A row that changed its host stands for a guest that migrated: both hosts are in one cluster and the old one does not
list the VMID. -/
def KeptApart (L L' : List Link) : Prop :=
  ∀ l ∈ L, ∀ l' ∈ L', l'.id = l.id → l'.createdAt = l.createdAt → l'.host ≠ l.host →
    ∃ a b v, l.host = some a ∧ l'.host = some b ∧ l.vmid = some v ∧ cluster a = cluster b ∧ ¬ ListedBy hs a v

/-- At a host's turn, a VMID it lists and the VMID's links: it is the host's own, or not known on another host, or it runs
here and the row to be taken over belongs to a host of the cluster that does not list it. -/
def Unambiguous (h : HostId × Report) (vmid : Vmid) (ls : List Link) : Prop :=
  HasOwn h.1 ls ∨ firstOther h.1 ls = none ∨
    ((vmid, true) ∈ h.2 ∧ ∃ o a, firstOther h.1 ls = some o ∧ o.host = some a ∧ cluster a = cluster h.1 ∧
      ¬ ListedBy hs a vmid)

variable {cluster hs}

/-- What holds of the links of a VMID when the hosts of `pre` have had their turns: they have their rows, and each link is
old, or new, or that of a guest that migrated. -/
structure Apart (now : Nat) (cluster : HostId → Nat) (hs pre : Reports) (vmid : Vmid) (ls0 ls : List Link) : Prop where
  represented : ∀ h ∈ pre, vmid ∈ h.2.map Prod.fst → HasOwn h.1 ls
  origin : ∀ l ∈ ls, l ∈ ls0 ∨ l.createdAt = now ∨ ∃ l0 ∈ ls0, ∃ a b, l = { l0 with host := some b } ∧
    l0.host = some a ∧ cluster a = cluster b ∧ ¬ ListedBy hs a vmid ∧ ListedBy hs b vmid

private theorem Apart.turn {now : Nat} {pre : Reports} {h : HostId × Report} {vmid : Vmid} {ls0 ls ls' : List Link}
    (hA : Apart now cluster hs pre vmid ls0 ls) (hpre : ∀ x ∈ pre, x ∈ hs) (hh : h ∈ hs) (hnot : h.1 ∉ pre.map Prod.fst)
    (hids : (ls.map Link.id).Nodup) (ht : Turn now h vmid ls ls')
    (hun : vmid ∈ h.2.map Prod.fst → Unambiguous cluster hs h vmid ls) :
    Apart now cluster hs (pre ++ [h]) vmid ls0 ls' := by
  have hne : ∀ x ∈ pre, h.1 ≠ x.1 := fun x hx he => hnot (he ▸ List.mem_map_of_mem hx)
  rcases ht with ⟨hnv, rfl⟩ | ⟨hv, hcl⟩
  · -- the VMID is not listed here, and the rows of the hosts before stay
    constructor
    · intro x hx hxv
      rcases List.mem_append.1 hx with hx | hx
      · obtain ⟨l, hl, hhost⟩ := hA.represented x hx hxv
        refine ⟨l, ?_, hhost⟩
        split
        · exact hl
        · refine List.mem_filter.2 ⟨hl, ?_⟩
          rw [hhost]
          simpa using Ne.symm (hne x hx)
      · rw [List.mem_singleton.1 hx] at hxv
        exact absurd hxv hnv
    · intro l hl
      apply hA.origin l
      split at hl
      · exact hl
      · exact (List.mem_filter.1 hl).1
  · have hrep : ∀ {ls1 : List Link}, HasOwn h.1 ls1 → (∀ x ∈ pre, vmid ∈ x.2.map Prod.fst → HasOwn x.1 ls1) →
        ∀ x ∈ pre ++ [h], vmid ∈ x.2.map Prod.fst → HasOwn x.1 ls1 := by
      intro ls1 hown hall x hx hxv
      rcases List.mem_append.1 hx with hx | hx
      · exact hall x hx hxv
      · rw [List.mem_singleton.1 hx]
        exact hown
    cases hcl with
    | own hown => exact ⟨hrep hown hA.represented, hA.origin⟩
    | new id =>
      refine ⟨hrep (hasOwn_new _ _) fun x hx hxv => ?_, fun l hl => ?_⟩
      · obtain ⟨l, hl, hhost⟩ := hA.represented x hx hxv
        exact ⟨l, List.mem_append_left _ hl, hhost⟩
      · rcases List.mem_append.1 hl with hl | hl
        · exact hA.origin l hl
        · rw [List.mem_singleton.1 hl]
          exact Or.inr (Or.inl rfl)
    | @skipped o hno hfirst hrun =>
      rcases hun hv with hown | hnone | ⟨hrun', -⟩
      · exact absurd hown hno
      · rw [hfirst] at hnone
        cases hnone
      · exact absurd hrun' hrun
    | @taken o hno hfirst hrun =>
      obtain ⟨a, ha, hcluster, hfree⟩ : ∃ a, o.host = some a ∧ cluster a = cluster h.1 ∧ ¬ ListedBy hs a vmid := by
        rcases hun hv with hown | hnone | ⟨-, o', a, ho', ha, hc, hf⟩
        · exact absurd hown hno
        · rw [hfirst] at hnone
          cases hnone
        · rw [hfirst] at ho'
          obtain rfl := Option.some.inj ho'
          exact ⟨a, ha, hc, hf⟩
      have ho := (firstOther_mem hfirst).1
      refine ⟨hrep (hasOwn_map_relink ho) fun x hx hxv => ?_, fun l hl => ?_⟩
      · -- the host the row is taken from is none of those before, as they list the VMID
        obtain ⟨l, hl, hhost⟩ := hA.represented x hx hxv
        have hid : l.id ≠ o.id := by
          intro hid
          rw [eq_of_id_eq Link.id hids hl ho hid, ha] at hhost
          exact hfree ⟨x.2, Option.some.inj hhost ▸ hpre x hx, hxv⟩
        exact ⟨l, List.mem_map.2 ⟨l, hl, relink_of_ne hid⟩, hhost⟩
      · obtain ⟨k, hk, rfl⟩ := List.mem_map.1 hl
        by_cases hid : k.id = o.id
        · have hko := eq_of_id_eq Link.id hids hk ho hid
          subst hko
          rcases hA.origin k hk with hk0 | hnow | ⟨l0, hl0, a', b, rfl, ha', hc', hf', hb⟩
          · refine Or.inr (Or.inr ⟨k, hk0, a, h.1, ?_, ha, hcluster, hfree, h.2, hh, hv⟩)
            rw [relink, if_pos rfl]
          · exact Or.inr (Or.inl (by rw [relink_createdAt]; exact hnow))
          · obtain rfl : b = a := Option.some.inj ha
            exact absurd hb hfree
        · rw [relink_of_ne hid]
          exact hA.origin k hk

/-- If every turn is unambiguous, the invariant holds after each prefix of the pass. -/
private theorem apart_of_unambiguous {now : Nat} {L : List Link} (hids : (L.map Link.id).Nodup)
    (hhosts : (hs.map Prod.fst).Nodup) {vmid : Vmid}
    (hun : ∀ pre h post, hs = pre ++ h :: post → vmid ∈ h.2.map Prod.fst →
      Unambiguous cluster hs h vmid (atVmid vmid (passLinks now pre L)))
    {pre post : Reports} (hsplit : hs = pre ++ post) :
    Apart now cluster hs pre vmid (atVmid vmid L) (atVmid vmid (passLinks now pre L)) := by
  induction pre using List.reverseRecOn generalizing post with
  | nil => exact ⟨fun _ h => absurd h List.not_mem_nil, fun l hl => Or.inl hl⟩
  | append_singleton pre h ih =>
    have hsplit' : hs = pre ++ h :: post := by rw [hsplit, List.append_assoc]; rfl
    have hnot : h.1 ∉ pre.map Prod.fst := by
      rw [hsplit', List.map_append, List.nodup_append] at hhosts
      intro hmem
      exact hhosts.2.2 _ hmem _ (by simp) rfl
    rw [passLinks_append]
    have hids' : ((passLinks now pre L).map Link.id).Nodup := nodup_passLinks pre hids
    exact (ih hsplit').turn (fun x hx => by rw [hsplit']; exact List.mem_append_left _ hx) (by rw [hsplit']; simp) hnot
      (nodup_atVmid hids') (turn_hostLinks h hids') (hun pre h post hsplit')

/-- A row that is taken over at a host's turn from a host that lists the VMID or is in another cluster: in the end one of the
hosts has no row for it, or the row has moved. -/
private theorem not_tracked_of_taken {now : Nat} {L : List Link} (hids : (L.map Link.id).Nodup)
    (hone : ∀ v, OneEach (atVmid v L)) (hhosts : (hs.map Prod.fst).Nodup) {pre post : Reports} {h : HostId × Report}
    (hsplit : hs = pre ++ h :: post) {vmid : Vmid} {o : Link} {a : HostId} (ha : o.host = some a) (hv : vmid ∈ h.2.map Prod.fst)
    (hfirst : firstOther h.1 (atVmid vmid (passLinks now pre L)) = some o)
    (hturn : atVmid vmid (passLinks now (pre ++ [h]) L) = (atVmid vmid (passLinks now pre L)).map (relink h.1 o.id))
    (hbad : cluster a = cluster h.1 → ListedBy hs a vmid) (hrep : Represented hs (passLinks now hs L)) :
    ¬ KeptApart cluster hs L (passLinks now hs L) := by
  obtain ⟨ho, a', ha', hne⟩ := firstOther_mem hfirst
  obtain rfl : a' = a := Option.some.inj (ha'.symm.trans ha)
  have hids' : ((passLinks now (pre ++ [h]) L).map Link.id).Nodup := nodup_passLinks _ hids
  have hone' : OneEach (atVmid vmid (passLinks now (pre ++ [h]) L)) := oneEach_passLinks _ hids (hone vmid)
  have hall : passLinks now hs L = passLinks now post (passLinks now (pre ++ [h]) L) := by
    rw [← passLinks_append, hsplit, List.append_assoc]
    rfl
  rw [hsplit, List.map_append, List.map_cons, List.nodup_append, List.nodup_cons] at hhosts
  obtain ⟨-, ⟨hhpost, -⟩, hdisj⟩ := hhosts
  -- the row is now the host's, and the host is not processed again
  have hmoved : relink h.1 o.id o ∈ atVmid vmid (passLinks now (pre ++ [h]) L) := by
    rw [hturn]
    exact List.mem_map_of_mem ho
  have hfinal : relink h.1 o.id o ∈ atVmid vmid (passLinks now hs L) := by
    rw [hall]
    rcases keeps_or_loses_passLinks hids' hone' hhpost hmoved (relink_host rfl) with hl | hno
    · exact hl
    · rw [← hall] at hno
      exact absurd (hrep h (by rw [hsplit]; simp) vmid hv) hno
  rcases mem_passLinks hids ho with hold | ⟨b, hb, r, hr, hvr⟩
  · -- an old row has moved
    intro hkept
    obtain ⟨a₁, b₁, v₁, h1, h2, h3, h4, h5⟩ := hkept o (mem_atVmid.1 hold).1 _ (mem_atVmid.1 hfinal).1 (relink_id _ _)
      (relink_createdAt _ _) (by rw [relink_host rfl, ha]; simpa using Ne.symm hne)
    rw [ha] at h1
    rw [relink_host rfl] at h2
    obtain rfl := Option.some.inj h1
    obtain rfl := Option.some.inj h2
    rw [(mem_atVmid.1 hold).2] at h3
    obtain rfl := Option.some.inj h3
    exact absurd (hbad h4) h5
  · -- a host that had its turn is left without the row
    obtain rfl : b = a' := Option.some.inj (hb.symm.trans ha)
    have hlost : ¬ HasOwn b (atVmid vmid (passLinks now (pre ++ [h]) L)) := by
      rintro ⟨l, hl, hhost⟩
      rw [hturn] at hl
      obtain ⟨k, hk, rfl⟩ := List.mem_map.1 hl
      by_cases hid : k.id = o.id
      · rw [relink_host hid] at hhost
        exact hne (Option.some.inj hhost).symm
      · rw [relink_of_ne hid] at hhost
        have hone0 : OneEach (atVmid vmid (passLinks now pre L)) := oneEach_passLinks _ hids (hone vmid)
        exact hid (congrArg Link.id (hone0 k hk o ho (by simp [hhost]) (hhost.trans ha.symm)))
    have hbpost : b ∉ post.map Prod.fst := by
      intro hmem
      exact hdisj b ((List.mem_map_of_mem hr : (b, r).1 ∈ pre.map Prod.fst)) b (List.mem_cons_of_mem _ hmem) rfl
    have hno : ¬ HasOwn b (atVmid vmid (passLinks now post (passLinks now (pre ++ [h]) L))) :=
      not_hasOwn_passLinks hids' hbpost hlost
    rw [← hall] at hno
    exact absurd (hrep (b, r) (by rw [hsplit]; exact List.mem_append_left _ hr) vmid hvr) hno

/-- The pass keeps a row for every listed guest, and keeps unrelated guests apart, exactly if every turn is unambiguous. -/
theorem represented_and_keptApart_iff {now : Nat} {L : List Link} (hids : (L.map Link.id).Nodup)
    (hone : ∀ v, OneEach (atVmid v L)) (hpast : ∀ l ∈ L, l.createdAt < now) (hhosts : (hs.map Prod.fst).Nodup) :
    (Represented hs (passLinks now hs L) ∧ KeptApart cluster hs L (passLinks now hs L)) ↔
      ∀ pre h post, hs = pre ++ h :: post → ∀ v ∈ h.2.map Prod.fst,
        Unambiguous cluster hs h v (atVmid v (passLinks now pre L)) := by
  constructor
  · rintro ⟨hrep, hkept⟩ pre h post hsplit v hv
    have hids' : ((passLinks now pre L).map Link.id).Nodup := nodup_passLinks pre hids
    have ht : Turn now h v (atVmid v (passLinks now pre L)) (atVmid v (passLinks now (pre ++ [h]) L)) := by
      rw [passLinks_append]
      exact turn_hostLinks h hids'
    rcases ht with ⟨hnv, -⟩ | ⟨-, hcl⟩
    · exact absurd hv hnv
    by_cases hown : HasOwn h.1 (atVmid v (passLinks now pre L))
    · exact Or.inl hown
    cases hfirst : firstOther h.1 (atVmid v (passLinks now pre L)) with
    | none => exact Or.inr (Or.inl hfirst)
    | some o =>
      right; right
      obtain ⟨-, a, ha, hne⟩ := firstOther_mem hfirst
      generalize hls' : atVmid v (passLinks now (pre ++ [h]) L) = ls' at hcl
      cases hcl with
      | own hown' => exact absurd hown' hown
      | new id _ hnone =>
        rw [hfirst] at hnone
        cases hnone
      | skipped =>
        -- a skipped guest never gets a row
        have hhpost : h.1 ∉ post.map Prod.fst := by
          rw [hsplit, List.map_append, List.map_cons, List.nodup_append, List.nodup_cons] at hhosts
          exact hhosts.2.1.1
        rw [← hls'] at hown
        have hno : ¬ HasOwn h.1 (atVmid v (passLinks now post (passLinks now (pre ++ [h]) L))) :=
          not_hasOwn_passLinks (nodup_passLinks (pre ++ [h]) hids) hhpost hown
        rw [← passLinks_append, List.append_assoc, List.singleton_append, ← hsplit] at hno
        exact absurd (hrep h (by rw [hsplit]; simp) v hv) hno
      | @taken o' _ hfirst' hrun =>
        rw [hfirst] at hfirst'
        obtain rfl := Option.some.inj hfirst'
        by_contra hcon
        refine not_tracked_of_taken hids hone hhosts hsplit ha hv hfirst hls' ?_ hrep hkept
        intro hc
        by_contra hfree
        exact hcon ⟨hrun, o, a, hfirst, ha, hc, hfree⟩
  · intro hun
    have hA : ∀ v, Apart now cluster hs hs v (atVmid v L) (atVmid v (passLinks now hs L)) := fun v =>
      apart_of_unambiguous hids hhosts (fun pre h post hsplit hv => hun pre h post hsplit v hv) (List.append_nil hs).symm
    refine ⟨fun h hh v hv => (hA v).represented h hh hv, fun l hl l' hl' hid hcreated hhost => ?_⟩
    have hids' : ((passLinks now hs L).map Link.id).Nodup := nodup_passLinks hs hids
    cases hv : l'.vmid with
    | none =>
      have hl'0 := mem_of_mem_passLinks_of_none hids hl' hv
      exact absurd (congrArg Link.host (eq_of_id_eq Link.id hids hl'0 hl hid)) hhost
    | some v =>
      rcases (hA v).origin l' (mem_atVmid.2 ⟨hl', hv⟩) with hl'0 | hnow | ⟨l0, hl0, a, b, rfl, ha, hc, hfree, -⟩
      · exact absurd (congrArg Link.host (eq_of_id_eq Link.id hids (mem_atVmid.1 hl'0).1 hl hid)) hhost
      · have := hpast l hl
        omega
      · obtain rfl : l0 = l := eq_of_id_eq Link.id hids (mem_atVmid.1 hl0).1 hl hid
        exact ⟨a, b, v, ha, rfl, hv, hc, hfree⟩

end

/-! ### The row of a guest that migrated -/

section

variable {now : Nat} {vmid : Vmid} {L : List Link} {hs : Reports}

/-- The hosts of `hs` that list other guests only. -/
def Drops (hs : Reports) (vmid : Vmid) (c : HostId) : Prop := ∃ r, (c, r) ∈ hs ∧ vmid ∉ r.map Prod.fst

/-- A host that does not list the VMID as running, while another host has a row of it, at most drops its own rows. -/
private theorem Turn.of_idle {h : HostId × Report} {ls ls' : List Link} {l : Link} {a : HostId} (ht : Turn now h vmid ls ls')
    (hfull : h.2 ≠ []) (hidle : (vmid, true) ∉ h.2) (hl : l ∈ ls) (ha : l.host = some a) (hne : h.1 ≠ a) :
    ls' = ls.filter fun x => vmid ∈ h.2.map Prod.fst || x.host ≠ some h.1 := by
  rcases ht with ⟨hnv, heq⟩ | ⟨hv, hcl⟩
  · rw [if_neg hfull] at heq
    rw [heq]
    refine List.filter_congr fun x _ => ?_
    simp only [decide_eq_false hnv, Bool.false_or]
  · have hsame : ls' = ls := by
      cases hcl with
      | own => rfl
      | skipped => rfl
      | taken _ _ hrun => exact absurd hrun hidle
      | new id hno hnone =>
        have := List.find?_eq_none.1 hnone l hl
        rw [ha] at this
        simp [Ne.symm hne] at this
    rw [hsame, List.filter_eq_self.2 fun x _ => by simp only [decide_eq_true hv, Bool.true_or]]

/-- While host `a` has a row of the VMID and has not had its turn, hosts that do not list the VMID as running drop their own
rows of it or do nothing. -/
private theorem atVmid_passLinks_of_idle {l : Link} {a : HostId} (hids : (L.map Link.id).Nodup)
    (hfull : ∀ h ∈ hs, h.2 ≠ []) (hidle : ∀ h ∈ hs, (vmid, true) ∉ h.2) (hl : l ∈ atVmid vmid L) (ha : l.host = some a)
    (hna : a ∉ hs.map Prod.fst) :
    atVmid vmid (passLinks now hs L) =
      (atVmid vmid L).filter fun x => hs.all fun h => vmid ∈ h.2.map Prod.fst || x.host ≠ some h.1 := by
  induction hs generalizing L with
  | nil => exact (List.filter_true _).symm
  | cons h hs ih =>
    simp only [List.map_cons, List.mem_cons, not_or] at hna
    have hids' : ((hostLinks now h.1 h.2 L).map Link.id).Nodup := nodup_hostLinks h.2 hids
    have ht : Turn now h vmid (atVmid vmid L) (atVmid vmid (hostLinks now h.1 h.2 L)) := turn_hostLinks h hids
    have heq := ht.of_idle (hfull h (by simp)) (hidle h (by simp)) hl ha (Ne.symm hna.1)
    have hl' : l ∈ atVmid vmid (hostLinks now h.1 h.2 L) := by
      rw [heq, List.mem_filter]
      refine ⟨hl, ?_⟩
      rw [ha]
      simp [hna.1]
    have hrest := ih hids' (fun x hx => hfull x (List.mem_cons_of_mem _ hx))
      (fun x hx => hidle x (List.mem_cons_of_mem _ hx)) hl' hna.2
    rw [heq, List.filter_filter] at hrest
    refine Eq.trans hrest (List.filter_congr fun x _ => ?_)
    simp [Bool.and_comm]

private theorem not_drops_iff {x : Link} :
    (hs.all fun h => decide (vmid ∈ h.2.map Prod.fst) || decide (x.host ≠ some h.1)) = true ↔
      ∀ c, x.host = some c → ¬ Drops hs vmid c := by
  simp only [List.all_eq_true, Bool.or_eq_true, decide_eq_true_eq]
  constructor
  · rintro h c hc ⟨r, hr, hv⟩
    rcases h (c, r) hr with hv' | hne
    · exact hv hv'
    · exact hne hc
  · intro h y hy
    by_cases hv : vmid ∈ y.2.map Prod.fst
    · exact Or.inl hv
    · exact Or.inr fun hc => h y.1 hc ⟨y.2, hy, hv⟩

/-- Hosts that do not list the VMID as running leave the row of another host alone, and give it none. -/
private theorem mem_passLinks_of_idle {b : HostId} {x : Link} (hids : (L.map Link.id).Nodup)
    (hidle : ∀ h ∈ hs, (vmid, true) ∉ h.2) (hb : b ∉ hs.map Prod.fst) (hx : x.host = some b) :
    x ∈ atVmid vmid (passLinks now hs L) ↔ x ∈ atVmid vmid L := by
  induction hs generalizing L with
  | nil => exact Iff.rfl
  | cons h hs ih =>
    simp only [List.map_cons, List.mem_cons, not_or] at hb
    have hids' : ((hostLinks now h.1 h.2 L).map Link.id).Nodup := nodup_hostLinks h.2 hids
    have ht : Turn now h vmid (atVmid vmid L) (atVmid vmid (hostLinks now h.1 h.2 L)) := turn_hostLinks h hids
    refine (ih hids' (fun y hy => hidle y (List.mem_cons_of_mem _ hy)) hb.2).trans ⟨fun h' => ?_, fun h' => ?_⟩
    · rcases ht.mem h' with hold | ⟨hh, -⟩
      · exact hold
      · rw [hx] at hh
        exact absurd (Option.some.inj hh) hb.1
    · rcases ht with ⟨-, heq⟩ | ⟨-, hcl⟩
      · rw [heq]
        split
        · exact h'
        · refine List.mem_filter.2 ⟨h', ?_⟩
          rw [hx]
          simpa using hb.1
      · generalize atVmid vmid (hostLinks now h.1 h.2 L) = ls' at hcl
        cases hcl with
        | own => exact h'
        | skipped => exact h'
        | new id => exact List.mem_append_left _ h'
        | taken _ _ hrun => exact absurd hrun (hidle h (by simp))

/-- Each link is that of a new row, or of an old one that is as it was up to its host. -/
def Descends (now : Nat) (L L' : List Link) : Prop :=
  ∀ l ∈ L', l.createdAt = now ∨ ∃ l0 ∈ L, l = { l0 with host := l.host }

theorem Descends.of_subset {L' : List Link} (h : ∀ l ∈ L', l ∈ L) : Descends now L L' :=
  fun l hl => Or.inr ⟨l, h l hl, rfl⟩

theorem Descends.trans {L' L'' : List Link} (h : Descends now L L') (h' : Descends now L' L'') : Descends now L L'' := by
  intro l hl
  rcases h' l hl with hnow | ⟨l1, hl1, heq⟩
  · exact Or.inl hnow
  · rcases h l1 hl1 with hnow | ⟨l0, hl0, heq'⟩
    · rw [heq]
      exact Or.inl hnow
    · refine Or.inr ⟨l0, hl0, ?_⟩
      rw [heq, heq']

theorem descends_claimLink (host : HostId) (running : Bool) : Descends now L (claimLink now host L vmid running) := by
  unfold claimLink
  split
  · exact .of_subset fun _ h => h
  · split
    · split
      · intro l hl
        obtain ⟨l0, hl0, rfl⟩ := List.mem_map.1 hl
        refine Or.inr ⟨l0, hl0, ?_⟩
        unfold relink
        split <;> rfl
      · exact .of_subset fun _ h => h
    · intro l hl
      rcases List.mem_append.1 hl with hl | hl
      · exact Or.inr ⟨l, hl, rfl⟩
      · rw [List.mem_singleton.1 hl]
        exact Or.inl rfl

theorem descends_foldl_claimLink (host : HostId) (r : Report) :
    Descends now L (r.foldl (fun L e => claimLink now host L e.1 e.2) L) := by
  induction r generalizing L with
  | nil => exact .of_subset fun _ h => h
  | cons e r ih => exact (descends_claimLink host e.2).trans ih

theorem descends_passLinks (hs : Reports) : Descends now L (passLinks now hs L) := by
  induction hs generalizing L with
  | nil => exact .of_subset fun _ h => h
  | cons h hs ih =>
    have hhost : Descends now L (hostLinks now h.1 h.2 L) := by
      unfold hostLinks
      split
      · exact descends_foldl_claimLink h.1 h.2
      · have hclean : Descends now L (cleanLinks h.1 (h.2.map Prod.fst) L) :=
          .of_subset fun _ hl => (List.mem_filter.1 hl).1
        exact hclean.trans (descends_foldl_claimLink h.1 h.2)
    exact hhost.trans ih

/-- The row `l` is the first of another host that `find?` meets among those that satisfy `q`, if all rows before it that
would be met belong to the hosts `q` excludes. -/
private theorem firstOther_filter_iff {b : HostId} {q : Link → Bool} {l : Link} {L₁ L₂ : List Link}
    (hL : L = L₁ ++ l :: L₂) (hids : (L.map Link.id).Nodup) (hv : l.vmid = some vmid) (hq : q l = true)
    (hother : (l.host.isSome && l.host ≠ some b) = true) :
    firstOther b ((atVmid vmid L).filter q) = some l ↔
      ∀ x ∈ L₁, x.vmid = some vmid → ∀ c, x.host = some c → c = b ∨ q x = false := by
  have hsplit : (atVmid vmid L).filter q = (atVmid vmid L₁).filter q ++ l :: (atVmid vmid L₂).filter q := by
    unfold atVmid
    rw [hL, List.filter_append, List.filter_cons, if_pos (by simp [hv]), List.filter_append, List.filter_cons, if_pos hq]
  unfold firstOther
  rw [hsplit, List.find?_append, List.find?_cons, hother, Option.or_eq_some_iff]
  have hnone : ((atVmid vmid L₁).filter q).find? (fun l => l.host.isSome && l.host ≠ some b) = none ↔
      ∀ x ∈ L₁, x.vmid = some vmid → ∀ c, x.host = some c → c = b ∨ q x = false := by
    rw [List.find?_eq_none]
    constructor
    · intro h x hx hxv c hc
      by_cases hqx : q x = true
      · left
        by_contra hne
        refine h x (List.mem_filter.2 ⟨mem_atVmid.2 ⟨hx, hxv⟩, hqx⟩) ?_
        simpa [hc] using hne
      · exact Or.inr (by simpa using hqx)
    · intro h x hx hp
      obtain ⟨hx, hqx⟩ := List.mem_filter.1 hx
      obtain ⟨hx, hxv⟩ := mem_atVmid.1 hx
      rw [Bool.and_eq_true, Option.isSome_iff_exists, decide_eq_true_eq] at hp
      obtain ⟨⟨c, hc⟩, hne⟩ := hp
      rcases h x hx hxv c hc with rfl | hf
      · exact hne hc
      · rw [hqx] at hf
        cases hf
  rw [← hnone]
  constructor
  · rintro (hfound | ⟨h, -⟩)
    · -- the row would stand in the table twice
      have hmem := List.mem_of_find?_eq_some hfound
      have hl : l ∈ L₁ := (mem_atVmid.1 (List.mem_filter.1 hmem).1).1
      rw [hL, List.map_append, List.nodup_append] at hids
      exact absurd rfl (hids.2.2 _ (List.mem_map_of_mem hl) l.id (by simp))
    · exact h
  · intro h
    exact Or.inr ⟨h, rfl⟩

/-- A row whose host has had its turn without listing the VMID is gone. -/
private theorem not_mem_passLinks_of_dropped {a : HostId} {l : Link} (hids : (L.map Link.id).Nodup)
    (hpast : ∀ x ∈ L, x.createdAt < now) (hhosts : (hs.map Prod.fst).Nodup) (hfull : ∀ h ∈ hs, h.2 ≠ [])
    (hidle : ∀ h ∈ hs, (vmid, true) ∉ h.2) (hl : l ∈ atVmid vmid L) (ha : l.host = some a) (hdrop : Drops hs vmid a) :
    ∀ x ∈ passLinks now hs L, x.id = l.id → x.createdAt ≠ l.createdAt := by
  obtain ⟨r, hr, hv⟩ := hdrop
  obtain ⟨pre, post, rfl⟩ := List.append_of_mem hr
  rw [List.map_append, List.map_cons, List.nodup_append] at hhosts
  have hna : a ∉ pre.map Prod.fst := fun h => hhosts.2.2 a h a (by simp) rfl
  have hids' : ((passLinks now pre L).map Link.id).Nodup := nodup_passLinks pre hids
  have hpre : atVmid vmid (passLinks now pre L) = _ :=
    atVmid_passLinks_of_idle hids (fun h hh => hfull h (List.mem_append_left _ hh))
      (fun h hh => hidle h (List.mem_append_left _ hh)) hl ha hna
  have hturn : Turn now (a, r) vmid (atVmid vmid (passLinks now pre L)) (atVmid vmid (hostLinks now a r (passLinks now pre L))) :=
    turn_hostLinks (a, r) hids'
  have hsub : ∀ y ∈ atVmid vmid (hostLinks now a r (passLinks now pre L)), y ∈ L ∧ y.host ≠ some a := by
    intro y hy
    rcases hturn with ⟨-, heq⟩ | ⟨hmem, -⟩
    · rw [heq, if_neg (hfull (a, r) (by simp)), List.mem_filter, hpre] at hy
      exact ⟨(mem_atVmid.1 (List.mem_filter.1 hy.1).1).1, of_decide_eq_true hy.2⟩
    · exact absurd hmem hv
  intro x hx hid hcreated
  have hold := hpast l (mem_atVmid.1 hl).1
  rw [passLinks_append] at hx
  -- the row was there right after the turn of `a`, as it had been before the pass
  rcases descends_passLinks post x hx with hnow | ⟨y, hy, hxy⟩
  · omega
  · have hyid : y.id = l.id := (congrArg Link.id hxy).symm.trans hid
    have hycreated : y.createdAt = l.createdAt := (congrArg Link.createdAt hxy).symm.trans hcreated
    have hyv : y.vmid = some vmid := by
      have hdesc : Descends now L (passLinks now (pre ++ [(a, r)]) L) := descends_passLinks _
      rw [passLinks_append] at hdesc
      rcases hdesc y hy with hnow | ⟨z, hz, hyz⟩
      · omega
      · have hzl : z = l := eq_of_id_eq Link.id hids hz (mem_atVmid.1 hl).1 ((congrArg Link.id hyz).symm.trans hyid)
        rw [congrArg Link.vmid hyz, hzl]
        exact (mem_atVmid.1 hl).2
    obtain ⟨hyL, hyhost⟩ := hsub y (mem_atVmid.2 ⟨hy, hyv⟩)
    rw [eq_of_id_eq Link.id hids hyL (mem_atVmid.1 hl).1 hyid] at hyhost
    exact hyhost ha

/-- What `b` meets at its turn when the row `l` of host `a` is still there. -/
private theorem firstOther_of_idle {pre : Reports} {a b : HostId} {l : Link} {L₁ L₂ : List Link}
    (hids : (L.map Link.id).Nodup) (hfull : ∀ h ∈ pre, h.2 ≠ []) (hidle : ∀ h ∈ pre, (vmid, true) ∉ h.2)
    (hL : L = L₁ ++ l :: L₂) (hv : l.vmid = some vmid) (ha : l.host = some a) (hab : a ≠ b) (hna : a ∉ pre.map Prod.fst) :
    firstOther b (atVmid vmid (passLinks now pre L)) = some l ↔
      ∀ x ∈ L₁, x.vmid = some vmid → ∀ c, x.host = some c → c = b ∨ Drops pre vmid c := by
  have hl : l ∈ atVmid vmid L := by
    rw [mem_atVmid, hL]
    exact ⟨by simp, hv⟩
  have hkeep : ∀ c, l.host = some c → ¬ Drops pre vmid c := by
    rintro c hc ⟨r, hr, -⟩
    rw [ha] at hc
    exact hna (List.mem_map.2 ⟨(c, r), hr, (Option.some.inj hc).symm⟩)
  rw [atVmid_passLinks_of_idle hids hfull hidle hl ha hna,
    firstOther_filter_iff hL hids hv (not_drops_iff.2 hkeep) (by rw [ha]; simpa using hab)]
  refine forall_congr' fun x => imp_congr_right fun _ => imp_congr_right fun _ => forall_congr' fun c =>
    imp_congr_right fun hc => or_congr_right ?_
  rw [← Bool.not_eq_true, not_drops_iff]
  constructor
  · intro h
    by_contra hnot
    exact h fun c' hc' => by rw [hc] at hc'; exact Option.some.inj hc' ▸ hnot
  · intro h hall
    exact hall c hc h

/-- The row of a guest that is no longer listed by its host `a` and is listed as running by `b` alone. -/
theorem relinked_iff {pre post : Reports} {a b : HostId} {r : Report} {l : Link} {L₁ L₂ : List Link}
    (hids : (L.map Link.id).Nodup) (hpast : ∀ x ∈ L, x.createdAt < now)
    (hhosts : ((pre ++ (b, r) :: post).map Prod.fst).Nodup) (hfull : ∀ h ∈ pre ++ (b, r) :: post, h.2 ≠ [])
    (honly : ∀ h ∈ pre ++ (b, r) :: post, (vmid, true) ∈ h.2 → h.1 = b) (hrun : (vmid, true) ∈ r)
    (hgone : ∀ h ∈ pre ++ (b, r) :: post, h.1 = a → vmid ∉ h.2.map Prod.fst)
    (hL : L = L₁ ++ l :: L₂) (hv : l.vmid = some vmid) (ha : l.host = some a) (hab : a ≠ b) :
    (∃ l' ∈ passLinks now (pre ++ (b, r) :: post) L, l' = { l with host := some b }) ↔
      a ∉ pre.map Prod.fst ∧ ¬ HasOwn b (atVmid vmid L) ∧
        ∀ x ∈ L₁, x.vmid = some vmid → ∀ c, x.host = some c → c = b ∨ Drops pre vmid c := by
  have hlL : l ∈ L := by rw [hL]; simp
  have hl : l ∈ atVmid vmid L := mem_atVmid.2 ⟨hlL, hv⟩
  rw [List.map_append, List.map_cons, List.nodup_append, List.nodup_cons] at hhosts
  obtain ⟨hpreNodup, ⟨hbpost, -⟩, hdisj⟩ := hhosts
  have hbpre : b ∉ pre.map Prod.fst := fun h => hdisj b h b (by simp) rfl
  have hfullPre : ∀ h ∈ pre, h.2 ≠ [] := fun h hh => hfull h (List.mem_append_left _ hh)
  have hidlePre : ∀ h ∈ pre, (vmid, true) ∉ h.2 := fun h hh hm =>
    hbpre (List.mem_map.2 ⟨h, hh, honly h (List.mem_append_left _ hh) hm⟩)
  have hidlePost : ∀ h ∈ post, (vmid, true) ∉ h.2 := fun h hh hm =>
    hbpost (List.mem_map.2 ⟨h, hh, honly h (List.mem_append_right _ (List.mem_cons_of_mem _ hh)) hm⟩)
  have hids' : ((passLinks now pre L).map Link.id).Nodup := nodup_passLinks pre hids
  by_cases hna : a ∈ pre.map Prod.fst
  · -- `a` had its turn first: its cleanup has deleted the row
    refine iff_of_false ?_ fun h => h.1 hna
    obtain ⟨⟨a', ra⟩, hra, rfl⟩ := List.mem_map.1 hna
    have hlost := not_mem_passLinks_of_dropped hids hpast hpreNodup hfullPre hidlePre hl ha
      ⟨ra, hra, hgone _ (List.mem_append_left _ hra) rfl⟩
    rintro ⟨l', hl', rfl⟩
    rw [passLinks_append] at hl'
    rcases descends_passLinks _ _ hl' with hnow | ⟨y, hy, hyl⟩
    · have := hpast l hlL
      have hnow : l.createdAt = now := hnow
      omega
    · exact hlost y hy (congrArg Link.id hyl).symm (congrArg Link.createdAt hyl).symm
  · rw [and_iff_right hna, ← firstOther_of_idle hids hfullPre hidlePre hL hv ha hab hna]
    have hpre : atVmid vmid (passLinks now pre L) = _ := atVmid_passLinks_of_idle hids hfullPre hidlePre hl ha hna
    have hsub : ∀ x ∈ atVmid vmid (passLinks now pre L), x ∈ L := by
      intro x hx
      rw [hpre] at hx
      exact (mem_atVmid.1 (List.mem_filter.1 hx).1).1
    have hown : HasOwn b (atVmid vmid (passLinks now pre L)) ↔ HasOwn b (atVmid vmid L) := by
      have hmem : ∀ x : Link, x.host = some b → (x ∈ atVmid vmid (passLinks now pre L) ↔ x ∈ atVmid vmid L) :=
        fun x hx => mem_passLinks_of_idle hids hidlePre hbpre hx
      constructor
      · rintro ⟨x, hx, hxb⟩
        exact ⟨x, (hmem x hxb).1 hx, hxb⟩
      · rintro ⟨x, hx, hxb⟩
        exact ⟨x, (hmem x hxb).2 hx, hxb⟩
    have hnotold : { l with host := some b } ∉ atVmid vmid (passLinks now pre L) := by
      intro h
      have := congrArg Link.host (eq_of_id_eq Link.id hids (hsub _ h) hlL rfl)
      rw [ha] at this
      exact hab (Option.some.inj this).symm
    -- after its own turn, `b` keeps what it has
    have hfinal : { l with host := some b } ∈ passLinks now (pre ++ (b, r) :: post) L ↔
        { l with host := some b } ∈ atVmid vmid (hostLinks now b r (passLinks now pre L)) := by
      rw [← mem_passLinks_of_idle (nodup_hostLinks r hids') hidlePost hbpost rfl, mem_atVmid, passLinks_append]
      exact ⟨fun h => ⟨h, hv⟩, fun h => h.1⟩
    have hturn : Turn now (b, r) vmid (atVmid vmid (passLinks now pre L)) (atVmid vmid (hostLinks now b r (passLinks now pre L))) :=
      turn_hostLinks (b, r) hids'
    rcases hturn with ⟨hnot, -⟩ | ⟨-, hcl⟩
    · exact absurd (List.mem_map_of_mem hrun) hnot
    rw [exists_eq_right, hfinal, ← hown]
    generalize atVmid vmid (hostLinks now b r (passLinks now pre L)) = ls' at hcl
    cases hcl with
    | own hown' => exact iff_of_false hnotold fun h => h.1 hown'
    | skipped _ _ hnrun => exact absurd hrun hnrun
    | new id hno hnone =>
      refine iff_of_false (fun h => ?_) fun h => ?_
      · rcases List.mem_append.1 h with h | h
        · exact hnotold h
        · have hc : l.createdAt = now := congrArg Link.createdAt (List.mem_singleton.1 h)
          have := hpast l hlL
          omega
      · rw [h.2] at hnone
        cases hnone
    | @taken o hno hfo =>
      have ho := (firstOther_mem hfo).1
      constructor
      · intro h
        obtain ⟨k, hk, hkeq⟩ := List.mem_map.1 h
        have hkid := congrArg Link.id hkeq
        rw [relink_id] at hkid
        by_cases hid : k.id = o.id
        · have hlo : o = l := eq_of_id_eq Link.id hids (hsub o ho) hlL (hid.symm.trans hkid)
          rw [← hlo]
          exact ⟨hno, hfo⟩
        · rw [relink_of_ne hid] at hkeq
          exact absurd (hkeq ▸ hk) hnotold
      · rintro ⟨-, hfl⟩
        obtain rfl := Option.some.inj (hfl.symm.trans hfo)
        exact List.mem_map.2 ⟨l, ho, by rw [relink, if_pos rfl]⟩

end

end ProxmoxTool.Discovery
