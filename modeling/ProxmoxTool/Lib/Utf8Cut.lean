import ProxmoxTool.Lib.Utf8

/-!
# Decoding in parts

What `decode("utf-8", "replace")` makes of bytes that come in parts, each decoded on its own.  A character that a part has begun and the
next one continues becomes at least two replacement characters, so the texts together are never shorter than the text of all the bytes
(`length_decodeReplace_le`), and they are the same exactly if no cut is inside a character (`flatMap_decodeReplace_eq_iff`).
-/

namespace ProxmoxTool.Utf8

/-- What has begun when the bytes are over. -/
def pendingAfter (p : Option Pending) (bs : Bytes) : Option Pending := bs.foldl (fun p b => (feed p b.toNat).2) p

/-- The characters that are complete when the bytes are over. -/
def completed : Option Pending → Bytes → Text
  | _, [] => []
  | p, b :: bs => (feed p b.toNat).1 ++ completed (feed p b.toNat).2 bs

/-- The next byte belongs to the character that has begun. -/
def Continues (p : Option Pending) (bs : Bytes) : Prop := ∃ q ∈ p, ∃ b ∈ bs.head?, q.low ≤ b.toNat ∧ b.toNat ≤ q.high

/-- Somewhere a part ends inside a character. -/
def CutInside (parts : List Bytes) : Prop :=
  ∃ before after, parts = before ++ after ∧ Continues (pendingAfter none before.flatten) after.flatten

theorem decodeFrom_append (p : Option Pending) (s t : Bytes) :
    decodeFrom p (s ++ t) = completed p s ++ decodeFrom (pendingAfter p s) t := by
  induction s generalizing p with
  | nil => rfl
  | cons b s ih =>
    rw [List.cons_append, decodeFrom, completed, ih, List.append_assoc]
    rfl

theorem decodeFrom_eq_completed (p : Option Pending) (s : Bytes) :
    decodeFrom p s = completed p s ++ decodeFrom (pendingAfter p s) [] := by
  have h := decodeFrom_append p s []
  rwa [List.append_nil] at h

/-! ### What may have begun -/

/-- The bytes that continue a character begin none. -/
structure Pending.Valid (p : Pending) : Prop where
  low : 0x80 ≤ p.low
  high : p.high ≤ 0xBF

theorem valid_more {need acc : Nat} : Pending.Valid ⟨need, acc, 0x80, 0xBF⟩ := ⟨le_refl _, le_refl _⟩

theorem start_valid {b : Nat} {p : Pending} (h : (start b).2 = some p) : p.Valid := by
  unfold start at h
  split_ifs at h <;> cases h <;> constructor <;> dsimp only <;> decide

theorem feed_valid {p : Option Pending} {b : Nat} {q : Pending} (h : (feed p b).2 = some q) : q.Valid := by
  unfold feed at h
  split at h
  · exact start_valid h
  · split at h
    · split at h
      · cases h
      · cases h
        exact valid_more
    · exact start_valid h

theorem pendingAfter_valid (s : Bytes) {q : Pending} (h : pendingAfter none s = some q) : q.Valid := by
  induction s using List.reverseRecOn with
  | nil => cases h
  | append_singleton s b _ =>
    unfold pendingAfter at h
    rw [List.foldl_append] at h
    exact feed_valid h

/-! ### One cut -/

theorem feed_of_not_continues {p : Pending} {b : UInt8} (h : ¬ (p.low ≤ b.toNat ∧ b.toNat ≤ p.high)) :
    feed (some p) b.toNat = (replacement :: (start b.toNat).1, (start b.toNat).2) := by
  rw [feed, if_neg h]

theorem start_of_continues {p : Pending} (hp : p.Valid) {b : Nat} (h : p.low ≤ b ∧ b ≤ p.high) : start b = ([replacement], none) := by
  have hlow := hp.low
  have hhigh := hp.high
  unfold start
  rw [if_neg (by omega), if_pos (by omega)]

/-- A character that has begun is worth at most one. -/
theorem length_decodeFrom_le (p : Pending) (hp : p.Valid) (s : Bytes) :
    (decodeFrom (some p) s).length ≤ (decodeFrom none s).length + 1 := by
  induction s generalizing p with
  | nil => exact le_refl _
  | cons b s ih =>
    rw [decodeFrom, decodeFrom]
    by_cases hb : p.low ≤ b.toNat ∧ b.toNat ≤ p.high
    · have hstart : feed none b.toNat = ([replacement], none) := start_of_continues hp hb
      rw [hstart, feed, if_pos hb]
      split
      · simp
      · have := ih ⟨p.need - 1, p.acc * 64 + b.toNat % 64, 0x80, 0xBF⟩ valid_more
        simpa using Nat.le_succ_of_le this
    · rw [feed_of_not_continues hb]
      simp [feed]

theorem length_decodeFrom_lt {p : Pending} (hp : p.Valid) {s : Bytes} (h : Continues (some p) s) :
    (decodeFrom (some p) s).length < (decodeFrom none s).length + 1 := by
  obtain ⟨q, hq, b, hb, hbounds⟩ := h
  cases hq
  obtain ⟨s, rfl⟩ : ∃ t, s = b :: t := ⟨s.tail, (List.cons_head?_tail hb).symm⟩
  have hstart : feed none b.toNat = ([replacement], none) := start_of_continues hp hbounds
  rw [decodeFrom, decodeFrom, hstart, feed, if_pos hbounds]
  split
  · simp
  · have := length_decodeFrom_le ⟨p.need - 1, p.acc * 64 + b.toNat % 64, 0x80, 0xBF⟩ valid_more s
    simp only [List.nil_append, List.singleton_append, List.length_cons]
    omega

/-- Where the next byte does not belong to what has begun, that is given up, and the byte is taken as a first one. -/
theorem decodeFrom_of_not_continues {p : Option Pending} {s : Bytes} (h : ¬ Continues p s) :
    decodeFrom p s = decodeFrom p [] ++ decodeFrom none s := by
  cases p with
  | none => rfl
  | some p =>
    cases s with
    | nil => rfl
    | cons b s =>
      have hb : ¬ (p.low ≤ b.toNat ∧ b.toNat ≤ p.high) := fun hb => h ⟨p, rfl, b, rfl, hb⟩
      show (feed (some p) b.toNat).1 ++ decodeFrom (feed (some p) b.toNat).2 s = _
      rw [feed_of_not_continues hb]
      rfl

theorem pendingAfter_of_not_continues {p : Option Pending} {s : Bytes} (h : ¬ Continues p s) (hs : s ≠ []) :
    pendingAfter p s = pendingAfter none s := by
  obtain ⟨b, s, rfl⟩ := List.exists_cons_of_ne_nil hs
  cases p with
  | none => rfl
  | some p =>
    have hb : ¬ (p.low ≤ b.toNat ∧ b.toNat ≤ p.high) := fun hb => h ⟨p, rfl, b, rfl, hb⟩
    unfold pendingAfter
    rw [List.foldl_cons, List.foldl_cons, feed_of_not_continues hb]
    rfl

theorem decodeReplace_append_of_not_continues {s t : Bytes} (h : ¬ Continues (pendingAfter none s) t) :
    decodeReplace (s ++ t) = decodeReplace s ++ decodeReplace t := by
  unfold decodeReplace
  rw [decodeFrom_append, decodeFrom_of_not_continues h, ← List.append_assoc, ← decodeFrom_eq_completed]

theorem length_decodeReplace_append_lt {s t : Bytes} (h : Continues (pendingAfter none s) t) :
    (decodeReplace (s ++ t)).length < (decodeReplace s ++ decodeReplace t).length := by
  obtain ⟨q, hq, -⟩ := id h
  have hlt := length_decodeFrom_lt (pendingAfter_valid s hq) (hq ▸ h)
  unfold decodeReplace
  rw [decodeFrom_append, decodeFrom_eq_completed none s, Option.mem_def.1 hq]
  simp only [List.length_append, decodeFrom, Option.isSome_some, if_true, List.length_singleton]
  omega

/-! ### All cuts -/

theorem length_decodeReplace_le (parts : List Bytes) : (decodeReplace parts.flatten).length ≤ (parts.flatMap decodeReplace).length := by
  induction parts with
  | nil => exact le_refl _
  | cons s parts ih =>
    rw [List.flatten_cons, List.flatMap_cons]
    by_cases h : Continues (pendingAfter none s) parts.flatten
    · have := length_decodeReplace_append_lt h
      rw [List.length_append] at this ⊢
      omega
    · rw [decodeReplace_append_of_not_continues h, List.length_append, List.length_append]
      omega

theorem continues_append {p : Option Pending} {s : Bytes} (hs : s ≠ []) (t : Bytes) : Continues p (s ++ t) ↔ Continues p s := by
  obtain ⟨b, s, rfl⟩ := List.exists_cons_of_ne_nil hs
  rfl

theorem pendingAfter_append (p : Option Pending) (s t : Bytes) : pendingAfter p (s ++ t) = pendingAfter (pendingAfter p s) t :=
  List.foldl_append

theorem not_continues_none (s : Bytes) : ¬ Continues none s := by
  rintro ⟨q, hq, -⟩
  cases hq

theorem cutInside_cons {s : Bytes} {parts : List Bytes} (h : ¬ Continues (pendingAfter none s) parts.flatten) :
    CutInside (s :: parts) ↔ CutInside parts := by
  -- once something has come behind the cut, what was begun before it does not matter
  have hsame : ∀ {before after : List Bytes}, parts = before ++ after → before.flatten ≠ [] →
      pendingAfter none (s ++ before.flatten) = pendingAfter none before.flatten := by
    intro before after hparts hne
    rw [hparts, List.flatten_append, continues_append hne] at h
    rw [pendingAfter_append, pendingAfter_of_not_continues h hne]
  constructor
  · rintro ⟨before, after, hparts, hcont⟩
    cases before with
    | nil => exact absurd hcont (not_continues_none _)
    | cons s' before =>
      obtain ⟨rfl, hrest⟩ := List.cons.inj hparts
      replace hrest : parts = before ++ after := hrest
      rw [List.flatten_cons] at hcont
      by_cases hnil : before.flatten = []
      · rw [hnil, List.append_nil] at hcont
        rw [hrest, List.flatten_append, hnil] at h
        exact absurd hcont h
      · rw [hsame hrest hnil] at hcont
        exact ⟨before, after, hrest, hcont⟩
  · rintro ⟨before, after, hparts, hcont⟩
    by_cases hnil : before.flatten = []
    · rw [hnil] at hcont
      exact absurd hcont (not_continues_none _)
    · refine ⟨s :: before, after, by rw [hparts, List.cons_append], ?_⟩
      rwa [List.flatten_cons, hsame hparts hnil]

/-- Parts that are decoded on their own give the text of all the bytes exactly if none of them ends inside a character. -/
theorem flatMap_decodeReplace_eq_iff (parts : List Bytes) :
    parts.flatMap decodeReplace = decodeReplace parts.flatten ↔ ¬ CutInside parts := by
  induction parts with
  | nil =>
    refine iff_of_true rfl ?_
    rintro ⟨before, after, hparts, hcont⟩
    obtain ⟨rfl, rfl⟩ := List.append_eq_nil_iff.1 hparts.symm
    exact not_continues_none _ hcont
  | cons s parts ih =>
    rw [List.flatten_cons, List.flatMap_cons]
    by_cases h : Continues (pendingAfter none s) parts.flatten
    · refine iff_of_false (fun heq => ?_) fun hnot => hnot ⟨[s], parts, rfl, ?_⟩
      · have hlt := length_decodeReplace_append_lt h
        have hle := length_decodeReplace_le parts
        rw [← heq, List.length_append, List.length_append] at hlt
        omega
      · rwa [List.flatten_singleton]
    · rw [cutInside_cons h, ← ih, decodeReplace_append_of_not_continues h, List.append_right_inj]

end ProxmoxTool.Utf8
