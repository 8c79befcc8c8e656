import ProxmoxTool.Lib.Utf8

/-!
# RESP2

The replies of a Redis server and their bytes.  A reply begins with a line, whose first character says what it is; a bulk string of so many bytes
or the replies of an array follow.  The line ends at the first CR LF of the bytes, whatever comes behind it (`splitCrlf_line`).
-/

namespace ProxmoxTool.Resp

open Utf8

def crlf : Bytes := [13, 10]

/-- What is in front of the first CR LF, and what is behind it. -/
def splitCrlf : Bytes → Option (Bytes × Bytes)
  | a :: b :: bs => if a = 13 ∧ b = 10 then some ([], bs) else (splitCrlf (b :: bs)).map fun p => (a :: p.1, p.2)
  | _ => none

def line (t : Text) : Bytes := encode t ++ crlf

/-- A text without ends of lines. -/
structure Line where
  text : Text
  oneLine : '\r' ∉ text ∧ '\n' ∉ text

/-- An integer has 64 bits; a plus sign may be in front of it. -/
inductive Reply
  | simple (l : Line)
  | error (l : Line)
  | integer (plus : Bool) (i : Int64)
  | bulk (t : Text)
  | nullBulk
  | array (rs : List Reply)
  | nullArray

def integerText (plus : Bool) (i : Int) : Text := if plus ∧ 0 ≤ i then '+' :: intText i else intText i

mutual

def Reply.encode : Reply → Bytes
  | .simple l => line ('+' :: l.text)
  | .error l => line ('-' :: l.text)
  | .integer plus i => line (':' :: integerText plus i.toInt)
  | .bulk t => line ('$' :: natText (Utf8.encode t).length) ++ (Utf8.encode t ++ crlf)
  | .nullBulk => line ['$', '-', '1']
  | .array rs => line ('*' :: natText rs.length) ++ encodeAll rs
  | .nullArray => line ['*', '-', '1']

def encodeAll : List Reply → Bytes
  | [] => []
  | r :: rs => r.encode ++ encodeAll rs

end

mutual

/-- The levels of arrays, the values in them included. -/
def Reply.depth : Reply → Nat
  | .array rs => depths rs + 1
  | _ => 1

def depths : List Reply → Nat
  | [] => 0
  | r :: rs => max r.depth (depths rs)

end

mutual

/-- No integer has a plus sign. -/
def Reply.unsigned : Reply → Bool
  | .integer plus _ => !plus
  | .array rs => allUnsigned rs
  | _ => true

def allUnsigned : List Reply → Bool
  | [] => true
  | r :: rs => r.unsigned && allUnsigned rs

end

theorem depth_le_depths {r : Reply} {rs : List Reply} (h : r ∈ rs) : r.depth ≤ depths rs := by
  induction rs with
  | nil => cases h
  | cons s rs ih =>
    rcases List.mem_cons.1 h with rfl | h
    · exact Nat.le_max_left _ _
    · exact (ih h).trans (Nat.le_max_right _ _)

theorem unsigned_of_mem {r : Reply} {rs : List Reply} (hall : allUnsigned rs = true) (h : r ∈ rs) : r.unsigned = true := by
  induction rs with
  | nil => cases h
  | cons s rs ih =>
    rw [allUnsigned, Bool.and_eq_true] at hall
    rcases List.mem_cons.1 h with rfl | h
    · exact hall.1
    · exact ih hall.2 h

/-! ### Lines -/

theorem splitCrlf_append {bs l rest : Bytes} (h : splitCrlf bs = some (l, rest)) (more : Bytes) :
    splitCrlf (bs ++ more) = some (l, rest ++ more) := by
  fun_induction splitCrlf bs generalizing l with
  | case1 a b bs hend =>
    cases h
    rw [List.cons_append, List.cons_append, splitCrlf, if_pos hend]
  | case2 a b bs hend ih =>
    obtain ⟨p, hp, heq⟩ := Option.map_eq_some_iff.1 h
    cases heq
    have hmore := ih hp
    rw [List.cons_append] at hmore
    rw [List.cons_append, List.cons_append, splitCrlf, if_neg hend, hmore]
    rfl
  | case3 => cases h

theorem splitCrlf_of_not_mem {l : Bytes} (h : 13 ∉ l) (rest : Bytes) : splitCrlf (l ++ (crlf ++ rest)) = some (l, rest) := by
  induction l with
  | nil => exact if_pos ⟨rfl, rfl⟩
  | cons a l ih =>
    rw [List.mem_cons, not_or] at h
    have hstep : ∀ (b : UInt8) (bs : Bytes), splitCrlf (a :: b :: bs) = (splitCrlf (b :: bs)).map fun p => (a :: p.1, p.2) :=
      fun b bs => if_neg fun hend => h.1 hend.1.symm
    rw [List.cons_append]
    cases l with
    | nil =>
      change splitCrlf (a :: 13 :: (10 :: rest)) = _
      rw [hstep]
      exact congrArg (Option.map _) (ih h.2)
    | cons b l =>
      rw [List.cons_append, hstep, ← List.cons_append, ih h.2]
      rfl

/-- Bytes of ASCII are those of characters of ASCII. -/
theorem mem_utf8EncodeChar {b : UInt8} (hb : b.toNat < 128) {c : Char} (h : b ∈ String.utf8EncodeChar c) : c.toNat = b.toNat := by
  have hvalid : c.toNat < 0x110000 := by
    rcases c.valid with hlow | ⟨-, hhigh⟩
    · exact Nat.lt_trans hlow (by decide)
    · exact hhigh
  generalize hv : c.toNat = v at hvalid
  have hval : c.val.toNat = v := hv
  unfold String.utf8EncodeChar at h
  rw [hval] at h
  dsimp only at h
  have hbyte : ∀ n, 128 ≤ n → n < 256 → b ≠ UInt8.ofNat n := by
    rintro n hlow hhigh rfl
    rw [toNat_ofNat_of_lt hhigh] at hb
    omega
  split at h
  · rw [List.mem_singleton.1 h, toNat_ofNat_of_lt (by omega)]
  · split at h
    · simp only [List.mem_cons, List.not_mem_nil, or_false] at h
      rcases h with h | h
      · exact absurd h (hbyte _ (by omega) (by omega))
      · exact absurd h (hbyte _ (by omega) (by omega))
    · split at h
      · simp only [List.mem_cons, List.not_mem_nil, or_false] at h
        rcases h with h | h | h
        · exact absurd h (hbyte _ (by omega) (by omega))
        · exact absurd h (hbyte _ (by omega) (by omega))
        · exact absurd h (hbyte _ (by omega) (by omega))
      · simp only [List.mem_cons, List.not_mem_nil, or_false] at h
        rcases h with h | h | h | h
        · exact absurd h (hbyte _ (by omega) (by omega))
        · exact absurd h (hbyte _ (by omega) (by omega))
        · exact absurd h (hbyte _ (by omega) (by omega))
        · exact absurd h (hbyte _ (by omega) (by omega))

/-- A text without CR is the line in front of the first CR LF. -/
theorem splitCrlf_line {t : Text} (h : '\r' ∉ t) (rest : Bytes) : splitCrlf (line t ++ rest) = some (encode t, rest) := by
  rw [line, List.append_assoc]
  refine splitCrlf_of_not_mem (fun hmem => ?_) rest
  obtain ⟨c, hc, hbyte⟩ := List.mem_flatMap.1 hmem
  have hcr : c.toNat = '\r'.toNat := mem_utf8EncodeChar (by decide) hbyte
  exact h (Char.toNat_inj.1 hcr ▸ hc)

end ProxmoxTool.Resp
