import ProxmoxTool.Lib.Text

/-!
# UTF-8

`encode` is the encoding of a text and `decodeReplace` is Python's `bytes.decode("utf-8", "replace")`: a machine that takes one
byte at a time, with the replacement character for every maximal part that starts a character and does not complete it,
and for every byte that starts none.  What was encoded is decoded to itself (`decodeReplace_encode`), so that bytes survive
decoding and encoding exactly when they are an encoding (`recode_eq_self_iff`).
-/

namespace ProxmoxTool.Utf8

abbrev Bytes := List UInt8

def encode (t : Text) : Bytes := t.flatMap String.utf8EncodeChar

/-- A character that has begun: the bytes it still needs, what is known of its number, and the bounds on the next byte. -/
structure Pending where
  need : Nat
  acc : Nat
  low : Nat
  high : Nat
  deriving DecidableEq, Repr

/-- U+FFFD. -/
def replacement : Char := Char.ofNat 0xFFFD

/-- A byte between two characters: the characters it yields and what it begins. -/
def start (b : Nat) : Text × Option Pending :=
  if b < 0x80 then ([Char.ofNat b], none)
  else if b < 0xC2 then ([replacement], none)
  else if b < 0xE0 then ([], some ⟨1, b % 0x20, 0x80, 0xBF⟩)
  else if b < 0xF0 then ([], some ⟨2, b % 0x10, if b = 0xE0 then 0xA0 else 0x80, if b = 0xED then 0x9F else 0xBF⟩)
  else if b < 0xF5 then ([], some ⟨3, b % 0x08, if b = 0xF0 then 0x90 else 0x80, if b = 0xF4 then 0x8F else 0xBF⟩)
  else ([replacement], none)

def feed : Option Pending → Nat → Text × Option Pending
  | none, b => start b
  | some p, b =>
    if p.low ≤ b ∧ b ≤ p.high then
      if p.need = 1 then ([Char.ofNat (p.acc * 64 + b % 64)], none)
      else ([], some ⟨p.need - 1, p.acc * 64 + b % 64, 0x80, 0xBF⟩)
    else (replacement :: (start b).1, (start b).2)

def decodeFrom : Option Pending → Bytes → Text
  | p, [] => if p.isSome then [replacement] else []
  | p, b :: bs => (feed p b.toNat).1 ++ decodeFrom (feed p b.toNat).2 bs

/-- `decode("utf-8", "replace")`. -/
def decodeReplace (bs : Bytes) : Text := decodeFrom none bs

/-! ### Decoding what was encoded -/

theorem toNat_ofNat_of_lt {n : Nat} (h : n < 256) : (UInt8.ofNat n).toNat = n := Nat.mod_eq_of_lt h

/-- A continuation byte in its bounds. -/
theorem decodeFrom_more {need acc low high n : Nat} (hlow : low ≤ n % 64 + 128) (hhigh : n % 64 + 128 ≤ high)
    (bs : Bytes) :
    decodeFrom (some ⟨need + 2, acc, low, high⟩) (UInt8.ofNat (n % 64 + 128) :: bs) =
      decodeFrom (some ⟨need + 1, acc * 64 + n % 64, 0x80, 0xBF⟩) bs := by
  have hmod : (n % 64 + 128) % 64 = n % 64 := by omega
  rw [decodeFrom, toNat_ofNat_of_lt (by omega), feed, if_pos ⟨hlow, hhigh⟩, if_neg (by simp), hmod]
  rfl

theorem decodeFrom_last {acc low high n : Nat} (hlow : low ≤ n % 64 + 128) (hhigh : n % 64 + 128 ≤ high) (bs : Bytes) :
    decodeFrom (some ⟨1, acc, low, high⟩) (UInt8.ofNat (n % 64 + 128) :: bs) =
      Char.ofNat (acc * 64 + n % 64) :: decodeFrom none bs := by
  have hmod : (n % 64 + 128) % 64 = n % 64 := by omega
  rw [decodeFrom, toNat_ofNat_of_lt (by omega), feed, if_pos ⟨hlow, hhigh⟩, if_pos rfl, hmod]
  rfl

theorem decodeFrom_utf8EncodeChar (c : Char) (bs : Bytes) :
    decodeFrom none (String.utf8EncodeChar c ++ bs) = c :: decodeFrom none bs := by
  have hc : Char.ofNat c.toNat = c := Char.ofNat_toNat c
  have hvalid : c.toNat < 0xD800 ∨ 0xDFFF < c.toNat ∧ c.toNat < 0x110000 := c.valid
  generalize hv : c.toNat = v at hc hvalid
  have hval : c.val.toNat = v := hv
  unfold String.utf8EncodeChar
  rw [hval]
  dsimp only
  split
  · rename_i h1
    rw [List.singleton_append, decodeFrom, toNat_ofNat_of_lt (by omega), feed, start, if_pos (by omega), hc]
    rfl
  · rename_i h1
    split
    · rename_i h2
      rw [List.cons_append, decodeFrom, toNat_ofNat_of_lt (by omega), feed, start, if_neg (by omega), if_neg (by omega),
        if_pos (by omega)]
      have hlead : (v / 64 % 32 + 192) % 32 = v / 64 := by omega
      have hsum : v / 64 * 64 + v % 64 = v := by omega
      rw [List.nil_append, List.cons_append, hlead, decodeFrom_last (by omega) (by omega), hsum, hc]
      rfl
    · rename_i h2
      split
      · rename_i h3
        rw [List.cons_append, decodeFrom, toNat_ofNat_of_lt (by omega), feed, start, if_neg (by omega),
          if_neg (by omega), if_neg (by omega), if_pos (by omega)]
        have hlead : (v / 4096 % 16 + 224) % 16 = v / 4096 := by omega
        have hsum : (v / 4096 * 64 + v / 64 % 64) * 64 + v % 64 = v := by omega
        -- the bounds on the second byte keep out overlong forms and surrogates
        rw [List.nil_append, List.cons_append, hlead, decodeFrom_more (by split <;> omega) (by split <;> omega),
          List.cons_append, decodeFrom_last (by omega) (by omega), hsum, hc]
        rfl
      · rename_i h3
        rw [List.cons_append, decodeFrom, toNat_ofNat_of_lt (by omega), feed, start, if_neg (by omega),
          if_neg (by omega), if_neg (by omega), if_neg (by omega), if_pos (by omega)]
        have hlead : (v / 262144 % 8 + 240) % 8 = v / 262144 := by omega
        have hsum : ((v / 262144 * 64 + v / 4096 % 64) * 64 + v / 64 % 64) * 64 + v % 64 = v := by omega
        rw [List.nil_append, List.cons_append, hlead, decodeFrom_more (by split <;> omega) (by split <;> omega),
          List.cons_append, decodeFrom_more (by omega) (by omega), List.cons_append,
          decodeFrom_last (by omega) (by omega), hsum, hc]
        rfl

theorem encode_append (s t : Text) : encode (s ++ t) = encode s ++ encode t := by
  rw [encode, encode, encode, List.flatMap_append]

theorem decodeReplace_encode_append (s : Text) (bs : Bytes) : decodeReplace (encode s ++ bs) = s ++ decodeReplace bs := by
  unfold decodeReplace encode
  induction s with
  | nil => rfl
  | cons c s ih => rw [List.flatMap_cons, List.append_assoc, decodeFrom_utf8EncodeChar, ih, List.cons_append]

theorem decodeReplace_encode (t : Text) : decodeReplace (encode t) = t := by
  have h := decodeReplace_encode_append t []
  rwa [List.append_nil, show decodeReplace [] = [] from rfl, List.append_nil] at h

/-- The beginning of a character's encoding is decoded to one replacement character. -/
theorem decodeFrom_take_utf8EncodeChar {c : Char} {n : Nat} (hpos : 0 < n) (h : n < (String.utf8EncodeChar c).length) :
    decodeFrom none ((String.utf8EncodeChar c).take n) = [replacement] := by
  have hvalid : c.toNat < 0xD800 ∨ 0xDFFF < c.toNat ∧ c.toNat < 0x110000 := c.valid
  generalize hv : c.toNat = v at hvalid
  have hval : c.val.toNat = v := hv
  unfold String.utf8EncodeChar at h ⊢
  rw [hval] at h ⊢
  dsimp only at h ⊢
  split at h
  · exact absurd h (by simp only [List.length_singleton]; omega)
  · rename_i h1
    rw [if_neg h1]
    split at h
    · rename_i h2
      simp only [List.length_cons, List.length_nil] at h
      obtain rfl : n = 1 := by omega
      rw [if_pos h2, List.take_succ_cons, List.take_zero, decodeFrom, toNat_ofNat_of_lt (by omega), feed, start,
        if_neg (by omega), if_neg (by omega), if_pos (by omega)]
      rfl
    · rename_i h2
      rw [if_neg h2]
      split at h
      · rename_i h3
        have hlead : decodeFrom none [UInt8.ofNat (v / 4096 % 16 + 224)] = [replacement] := by
          rw [decodeFrom, toNat_ofNat_of_lt (by omega), feed, start, if_neg (by omega), if_neg (by omega),
            if_neg (by omega), if_pos (by omega)]
          rfl
        simp only [List.length_cons, List.length_nil] at h
        obtain rfl | rfl : n = 1 ∨ n = 2 := by omega
        · rw [if_pos h3, List.take_succ_cons, List.take_zero, hlead]
        · rw [if_pos h3, List.take_succ_cons, List.take_succ_cons, List.take_zero, decodeFrom,
            toNat_ofNat_of_lt (by omega), feed, start, if_neg (by omega), if_neg (by omega), if_neg (by omega),
            if_pos (by omega), List.nil_append, decodeFrom_more (by split <;> omega) (by split <;> omega)]
          rfl
      · rename_i h3
        have hlead : (v / 262144 % 8 + 240) % 8 = v / 262144 := by omega
        simp only [List.length_cons, List.length_nil] at h
        obtain rfl | rfl | rfl : n = 1 ∨ n = 2 ∨ n = 3 := by omega
        · rw [if_neg h3, List.take_succ_cons, List.take_zero, decodeFrom, toNat_ofNat_of_lt (by omega), feed, start,
            if_neg (by omega), if_neg (by omega), if_neg (by omega), if_neg (by omega), if_pos (by omega)]
          rfl
        · rw [if_neg h3, List.take_succ_cons, List.take_succ_cons, List.take_zero, decodeFrom,
            toNat_ofNat_of_lt (by omega), feed, start, if_neg (by omega), if_neg (by omega), if_neg (by omega),
            if_neg (by omega), if_pos (by omega), List.nil_append, decodeFrom_more (by split <;> omega) (by split <;> omega)]
          rfl
        · rw [if_neg h3, List.take_succ_cons, List.take_succ_cons, List.take_succ_cons, List.take_zero, decodeFrom,
            toNat_ofNat_of_lt (by omega), feed, start, if_neg (by omega), if_neg (by omega), if_neg (by omega),
            if_neg (by omega), if_pos (by omega), List.nil_append, decodeFrom_more (by split <;> omega) (by split <;> omega),
            decodeFrom_more (by omega) (by omega)]
          rfl

/-- What is decoded of a part of an encoding: a part of the text, and perhaps one character that is cut. -/
theorem decodeReplace_take_encode (t : Text) (n : Nat) :
    ∃ k, decodeReplace ((encode t).take n) = t.take k ∨ decodeReplace ((encode t).take n) = t.take k ++ [replacement] := by
  unfold decodeReplace encode
  induction t generalizing n with
  | nil => exact ⟨0, Or.inl (by simp [decodeFrom])⟩
  | cons c t ih =>
    rw [List.flatMap_cons, List.take_append]
    rcases Nat.lt_or_ge n (String.utf8EncodeChar c).length with h | h
    · have hzero : n - (String.utf8EncodeChar c).length = 0 := by omega
      rw [hzero, List.take_zero, List.append_nil]
      rcases Nat.eq_zero_or_pos n with rfl | hpos
      · exact ⟨0, Or.inl rfl⟩
      · exact ⟨0, Or.inr (decodeFrom_take_utf8EncodeChar hpos h)⟩
    · rw [List.take_of_length_le h, decodeFrom_utf8EncodeChar]
      obtain ⟨k, hk | hk⟩ := ih (n - (String.utf8EncodeChar c).length)
      · exact ⟨k + 1, Or.inl (by rw [hk, List.take_succ_cons])⟩
      · exact ⟨k + 1, Or.inr (by rw [hk, List.take_succ_cons, List.cons_append])⟩

/-- Bytes survive decoding and encoding exactly when they are an encoding. -/
theorem recode_eq_self_iff {bs : Bytes} : encode (decodeReplace bs) = bs ↔ ∃ t, encode t = bs := by
  constructor
  · exact fun h => ⟨_, h⟩
  · rintro ⟨t, rfl⟩
    rw [decodeReplace_encode]

end ProxmoxTool.Utf8
