import Mathlib.Computability.Language
import ProxmoxTool.Lib.Text

/-!
# Regular expressions

Expressions with lookahead and `$`, as `re.match` takes them: what may be left of a text after a match at its start.  The search stops at the first
match it finds and fails only if there is none, so the order of the rests does not matter here.

An expression without assertions matches the words of a language (`Regex.Spells`), which is put together from those of its parts.
-/

namespace ProxmoxTool

inductive Regex
  | char (p : Char → Bool)
  | seq (first second : Regex)
  | opt (body : Regex)
  | rep (least most : Nat) (body : Regex)
  | plus (body : Regex)
  | ahead (body : Regex)
  | dollar

namespace Regex

/-- The rests after `n` matches in a row. -/
def times (rests : Text → List Text) : Nat → Text → List Text
  | 0, t => [t]
  | n + 1, t => (rests t).flatMap (times rests n)

def rests : Regex → Text → List Text
  | char p, t => t.head?.elim [] fun c => if p c then [t.tail] else []
  | seq first second, t => (first.rests t).flatMap second.rests
  | opt body, t => t :: body.rests t
  | rep least most body, t => (List.range' least (most + 1 - least)).flatMap fun n => times body.rests n t
  -- More matches than characters are of no use.
  | plus body, t => (List.range (t.length + 1)).flatMap fun n => times body.rests (n + 1) t
  | ahead body, t => if (body.rests t).isEmpty then [] else [t]
  | dollar, t => if t = [] ∨ t = ['\n'] then [t] else []

/-- `re.match`. -/
def startsMatch (e : Regex) (t : Text) : Bool := !(e.rests t).isEmpty

theorem startsMatch_iff {e : Regex} {t : Text} : e.startsMatch t = true ↔ ∃ r, r ∈ e.rests t := by
  rw [startsMatch, Bool.not_eq_true', List.isEmpty_eq_false_iff, List.ne_nil_iff_exists_cons]
  refine ⟨fun ⟨r, rs, h⟩ => ⟨r, h ▸ List.mem_cons_self⟩, fun ⟨r, h⟩ => ?_⟩
  exact List.exists_cons_of_ne_nil (List.ne_nil_of_mem h)

theorem mem_rests_seq {first second : Regex} {t r : Text} :
    r ∈ (seq first second).rests t ↔ ∃ m ∈ first.rests t, r ∈ second.rests m := List.mem_flatMap

theorem mem_rests_ahead {e : Regex} {t r : Text} : r ∈ (ahead e).rests t ↔ e.startsMatch t = true ∧ r = t := by
  have hrests : (ahead e).rests t = if (e.rests t).isEmpty then [] else [t] := rfl
  rw [hrests, startsMatch]
  cases (e.rests t).isEmpty with
  | true => simp
  | false => simp

theorem mem_rests_dollar {t r : Text} : r ∈ dollar.rests t ↔ (t = [] ∨ t = ['\n']) ∧ r = t := by
  have hrests : dollar.rests t = if t = [] ∨ t = ['\n'] then [t] else [] := rfl
  rw [hrests]
  split
  · rename_i hend
    rw [List.mem_singleton, and_iff_right hend]
  · rename_i hend
    exact ⟨fun h => (nomatch h), fun h => absurd h.1 hend⟩

/-- The expression matches the words of the language, whatever follows them. -/
def Spells (e : Regex) (L : Language Char) : Prop := ∀ t r, r ∈ e.rests t ↔ ∃ w ∈ L, w ++ r = t

variable {e first second : Regex} {L M : Language Char}

/-- The words of one character of a kind. -/
def oneOf (p : Char → Bool) : Language Char := {w | ∃ c, p c = true ∧ w = [c]}

theorem spells_char (p : Char → Bool) : (char p).Spells (oneOf p) := by
  intro t r
  cases t with
  | nil =>
    refine ⟨fun h => (nomatch h), fun ⟨w, hw, h⟩ => ?_⟩
    obtain ⟨c, -, rfl⟩ := hw
    cases h
  | cons c t =>
    have hrests : (char p).rests (c :: t) = if p c then [t] else [] := rfl
    rw [hrests]
    refine ⟨fun h => ?_, fun ⟨w, hw, h⟩ => ?_⟩
    · split at h
      · rename_i hc
        rw [List.mem_singleton.1 h]
        exact ⟨[c], ⟨c, hc, rfl⟩, rfl⟩
      · cases h
    · obtain ⟨d, hd, rfl⟩ := hw
      obtain ⟨rfl, rfl⟩ := List.cons.inj h
      rw [if_pos hd]
      exact List.mem_singleton_self _

theorem Spells.seq (hfirst : first.Spells L) (hsecond : second.Spells M) : (seq first second).Spells (L * M) := by
  intro t r
  rw [mem_rests_seq]
  refine ⟨fun ⟨m, hm, hr⟩ => ?_, fun ⟨w, hw, h⟩ => ?_⟩
  · obtain ⟨u, hu, rfl⟩ := (hfirst t m).1 hm
    obtain ⟨v, hv, rfl⟩ := (hsecond m r).1 hr
    exact ⟨u ++ v, Language.append_mem_mul hu hv, List.append_assoc u v r⟩
  · obtain ⟨u, hu, v, hv, rfl⟩ := Language.mem_mul.1 hw
    rw [List.append_assoc] at h
    exact ⟨v ++ r, (hfirst t _).2 ⟨u, hu, h⟩, (hsecond _ r).2 ⟨v, hv, rfl⟩⟩

theorem Spells.opt (h : e.Spells L) : (opt e).Spells (1 + L) := by
  intro t r
  have hrests : (Regex.opt e).rests t = t :: e.rests t := rfl
  rw [hrests, List.mem_cons, h t r]
  refine ⟨?_, fun ⟨w, hw, heq⟩ => ?_⟩
  · rintro (rfl | ⟨w, hw, heq⟩)
    · exact ⟨[], .inl rfl, rfl⟩
    · exact ⟨w, .inr hw, heq⟩
  · rcases (Language.mem_add _ _ _).1 hw with hw | hw
    · rw [(Language.mem_one w).1 hw] at heq
      exact .inl heq
    · exact .inr ⟨w, hw, heq⟩

theorem mem_times (h : e.Spells L) (n : Nat) (t r : Text) : r ∈ times e.rests n t ↔ ∃ w ∈ L ^ n, w ++ r = t := by
  induction n generalizing t with
  | zero =>
    rw [times, List.mem_singleton, pow_zero]
    refine ⟨?_, fun ⟨w, hw, heq⟩ => ?_⟩
    · rintro rfl
      exact ⟨[], Language.nil_mem_one, rfl⟩
    · rw [Language.mem_one] at hw
      rw [hw] at heq
      exact heq
  | succ n ih =>
    rw [times, List.mem_flatMap, pow_succ']
    refine ⟨fun ⟨m, hm, hr⟩ => ?_, fun ⟨w, hw, heq⟩ => ?_⟩
    · obtain ⟨u, hu, rfl⟩ := (h t m).1 hm
      obtain ⟨v, hv, rfl⟩ := (ih m).1 hr
      exact ⟨u ++ v, Language.append_mem_mul hu hv, List.append_assoc u v r⟩
    · obtain ⟨u, hu, v, hv, rfl⟩ := Language.mem_mul.1 hw
      rw [List.append_assoc] at heq
      exact ⟨v ++ r, (h t _).2 ⟨u, hu, heq⟩, (ih _).2 ⟨v, hv, rfl⟩⟩

/-- A number of words. -/
def between (L : Language Char) (least most : Nat) : Language Char := {w | ∃ n, least ≤ n ∧ n ≤ most ∧ w ∈ L ^ n}

theorem Spells.rep (h : e.Spells L) (least most : Nat) : (rep least most e).Spells (between L least most) := by
  intro t r
  have hrests : (Regex.rep least most e).rests t = (List.range' least (most + 1 - least)).flatMap fun n => times e.rests n t := rfl
  rw [hrests, List.mem_flatMap]
  refine ⟨fun ⟨n, hn, hr⟩ => ?_, fun ⟨w, ⟨n, hleast, hmost, hw⟩, heq⟩ => ?_⟩
  · obtain ⟨w, hw, heq⟩ := (mem_times h n t r).1 hr
    rw [List.mem_range'_1] at hn
    exact ⟨w, ⟨n, hn.1, by omega, hw⟩, heq⟩
  · refine ⟨n, ?_, (mem_times h n t r).2 ⟨w, hw, heq⟩⟩
    rw [List.mem_range'_1]
    omega

/-- Words that are not empty are no longer together than the text they are in. -/
theorem le_length_of_mem_pow (hne : [] ∉ L) {n : Nat} {w : Text} (hw : w ∈ L ^ n) : n ≤ w.length := by
  induction n generalizing w with
  | zero => exact Nat.zero_le _
  | succ n ih =>
    rw [pow_succ'] at hw
    obtain ⟨u, hu, v, hv, rfl⟩ := Language.mem_mul.1 hw
    have hlength : u.length ≠ 0 := fun hzero => hne (List.length_eq_zero_iff.1 hzero ▸ hu)
    have hrest : n ≤ v.length := ih hv
    rw [List.length_append]
    omega

/-- One word or more. -/
def positive (L : Language Char) : Language Char := {w | ∃ n, w ∈ L ^ (n + 1)}

theorem Spells.plus (h : e.Spells L) (hne : [] ∉ L) : (plus e).Spells (positive L) := by
  intro t r
  have hrests : (Regex.plus e).rests t = (List.range (t.length + 1)).flatMap fun n => times e.rests (n + 1) t := rfl
  rw [hrests, List.mem_flatMap]
  refine ⟨fun ⟨n, _, hr⟩ => ?_, fun ⟨w, ⟨n, hw⟩, heq⟩ => ?_⟩
  · obtain ⟨w, hw, heq⟩ := (mem_times h (n + 1) t r).1 hr
    exact ⟨w, ⟨n, hw⟩, heq⟩
  · refine ⟨n, ?_, (mem_times h (n + 1) t r).2 ⟨w, hw, heq⟩⟩
    have hlength : n + 1 ≤ w.length := le_length_of_mem_pow hne hw
    rw [← heq, List.mem_range, List.length_append]
    omega

/-- The words of a number of characters of a kind. -/
def someOf (p : Char → Bool) (least most : Nat) : Language Char := {w | least ≤ w.length ∧ w.length ≤ most ∧ ∀ c ∈ w, p c = true}

theorem spells_rep_char (p : Char → Bool) (least most : Nat) : (rep least most (char p)).Spells (someOf p least most) := by
  have hpow : ∀ (n : Nat) (w : Text), w ∈ oneOf p ^ n ↔ w.length = n ∧ ∀ c ∈ w, p c = true := by
    intro n
    induction n with
    | zero =>
      intro w
      rw [pow_zero, Language.mem_one, List.length_eq_zero_iff]
      refine ⟨fun h => ⟨h, fun c hc => ?_⟩, And.left⟩
      rw [h] at hc
      cases hc
    | succ n ih =>
      intro w
      rw [pow_succ', Language.mem_mul]
      refine ⟨fun ⟨u, ⟨c, hc, hu⟩, v, hv, heq⟩ => ?_, fun ⟨hlength, hall⟩ => ?_⟩
      · obtain ⟨hlength, hall⟩ := (ih v).1 hv
        rw [← heq, hu]
        exact ⟨congrArg (· + 1) hlength, List.forall_mem_cons.2 ⟨hc, hall⟩⟩
      · cases w with
        | nil => cases hlength
        | cons c w =>
          obtain ⟨hc, hall⟩ := List.forall_mem_cons.1 hall
          exact ⟨[c], ⟨c, hc, rfl⟩, w, (ih w).2 ⟨Nat.succ.inj hlength, hall⟩, rfl⟩
  intro t r
  rw [(spells_char p).rep least most t r]
  refine ⟨fun ⟨w, ⟨n, hleast, hmost, hw⟩, heq⟩ => ?_, fun ⟨w, ⟨hleast, hmost, hall⟩, heq⟩ => ?_⟩
  · obtain ⟨rfl, hall⟩ := (hpow n w).1 hw
    exact ⟨w, ⟨hleast, hmost, hall⟩, heq⟩
  · exact ⟨w, ⟨w.length, hleast, hmost, (hpow _ w).2 ⟨rfl, hall⟩⟩, heq⟩

/-! ### Whole texts -/

theorem startsMatch_ahead {e e' : Regex} {t : Text} : (seq (ahead e) e').startsMatch t = true ↔ e.startsMatch t = true ∧ e'.startsMatch t = true := by
  rw [startsMatch_iff, startsMatch_iff (e := e')]
  refine ⟨fun ⟨r, hr⟩ => ?_, fun ⟨hahead, r, hr⟩ => ⟨r, mem_rests_seq.2 ⟨t, mem_rests_ahead.2 ⟨hahead, rfl⟩, hr⟩⟩⟩
  obtain ⟨m, hm, hrest⟩ := mem_rests_seq.1 hr
  obtain ⟨hahead, rfl⟩ := mem_rests_ahead.1 hm
  exact ⟨hahead, r, hrest⟩

theorem startsMatch_seq_assoc (e₁ e₂ e₃ : Regex) (t : Text) : (seq e₁ (seq e₂ e₃)).startsMatch t = (seq (seq e₁ e₂) e₃).startsMatch t := by
  have hrests : (seq e₁ (seq e₂ e₃)).rests t = (seq (seq e₁ e₂) e₃).rests t := (List.flatMap_assoc).symm
  rw [startsMatch, startsMatch, hrests]

/-- Before `$` the expression matches a whole text, or all but a newline at its end. -/
theorem Spells.startsMatch_dollar (h : e.Spells L) (t : Text) :
    (Regex.seq e dollar).startsMatch t = true ↔ ∃ w ∈ L, t = w ∨ t = w ++ ['\n'] := by
  rw [startsMatch_iff]
  refine ⟨fun ⟨r, hr⟩ => ?_, fun ⟨w, hw, ht⟩ => ?_⟩
  · obtain ⟨m, hm, hdollar⟩ := mem_rests_seq.1 hr
    obtain ⟨w, hw, rfl⟩ := (h t m).1 hm
    obtain ⟨rfl | rfl, -⟩ := mem_rests_dollar.1 hdollar
    · exact ⟨w, hw, .inl (List.append_nil w)⟩
    · exact ⟨w, hw, .inr rfl⟩
  · rcases ht with rfl | rfl
    · exact ⟨[], mem_rests_seq.2 ⟨[], (h t []).2 ⟨t, hw, List.append_nil t⟩, mem_rests_dollar.2 ⟨.inl rfl, rfl⟩⟩⟩
    · exact ⟨['\n'], mem_rests_seq.2 ⟨['\n'], (h _ _).2 ⟨w, hw, rfl⟩, mem_rests_dollar.2 ⟨.inr rfl, rfl⟩⟩⟩

end Regex

end ProxmoxTool
