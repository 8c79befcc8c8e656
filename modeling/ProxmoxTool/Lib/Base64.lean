import ProxmoxTool.Lib.Utf8

/-!
# Base64

The standard alphabet with padding: three bytes become four characters.  The characters are letters, digits, `+`, `/` and `=`
(`all_isChar_encode`), none of which means anything between the words of a command or inside a quoted literal, and the bytes are read back
(`decode_encode`).
-/

namespace ProxmoxTool.Base64

open Utf8 (Bytes)

/-- The character of a number below 64. -/
def digit (n : Nat) : Char :=
  if n < 26 then Char.ofNat (65 + n) else if n < 52 then Char.ofNat (71 + n) else if n < 62 then Char.ofNat (n - 4)
  else if n = 62 then '+' else '/'

def value (c : Char) : Option Nat :=
  if 'A' ≤ c ∧ c ≤ 'Z' then some (c.toNat - 65) else if 'a' ≤ c ∧ c ≤ 'z' then some (c.toNat - 71)
  else if '0' ≤ c ∧ c ≤ '9' then some (c.toNat + 4) else if c = '+' then some 62 else if c = '/' then some 63 else none

/-- Four numbers below 64 from three bytes. -/
def sextets (a b c : Nat) : List Nat := [a / 4, a % 4 * 16 + b / 16, b % 16 * 4 + c / 64, c % 64]

def encode : Bytes → Text
  | [] => []
  | [a] => ((sextets a.toNat 0 0).take 2).map digit ++ ['=', '=']
  | [a, b] => ((sextets a.toNat b.toNat 0).take 3).map digit ++ ['=']
  | a :: b :: c :: rest => (sextets a.toNat b.toNat c.toNat).map digit ++ encode rest

/-- The bytes of four characters; `none` where the padding is wrong. -/
def decode : Text → Option Bytes
  | [] => some []
  | [a, b, '=', '='] => do
    let x ← value a
    let y ← value b
    if y % 16 = 0 then some [UInt8.ofNat (x * 4 + y / 16)] else none
  | [a, b, c, '='] => do
    let x ← value a
    let y ← value b
    let z ← value c
    if z % 4 = 0 then some [UInt8.ofNat (x * 4 + y / 16), UInt8.ofNat (y % 16 * 16 + z / 4)] else none
  | a :: b :: c :: d :: rest => do
    let x ← value a
    let y ← value b
    let z ← value c
    let w ← value d
    let bytes ← decode rest
    some (UInt8.ofNat (x * 4 + y / 16) :: UInt8.ofNat (y % 16 * 16 + z / 4) :: UInt8.ofNat (z % 4 * 64 + w) :: bytes)
  | _ => none

/-- A character of an encoding. -/
def isChar (c : Char) : Bool := c.isAlphanum || c = '+' || c = '/' || c = '='

theorem value_digit {n : Nat} (h : n < 64) : value (digit n) = some n := by
  have hall : ∀ n < 64, value (digit n) = some n := by decide
  exact hall n h

theorem digit_ne_pad {n : Nat} (h : n < 64) : digit n ≠ '=' := by
  intro heq
  have hv := value_digit h
  rw [heq] at hv
  cases hv

theorem isChar_digit {n : Nat} (h : n < 64) : isChar (digit n) = true := by
  have hall : ∀ n < 64, isChar (digit n) = true := by decide
  exact hall n h

theorem ofNat_of_eq {b : UInt8} {n : Nat} (h : n = b.toNat) : UInt8.ofNat n = b := by
  rw [h, UInt8.ofNat_toNat]

theorem lt_of_mem_sextets {a b c n : Nat} (ha : a < 256) (hb : b < 256) (hc : c < 256) (h : n ∈ sextets a b c) : n < 64 := by
  simp only [sextets, List.mem_cons, List.not_mem_nil, or_false] at h
  omega

theorem all_isChar_encode (bs : Bytes) : (encode bs).all isChar = true := by
  have hdigits {a b c : UInt8} {ns : List Nat} (h : ∀ n ∈ ns, n ∈ sextets a.toNat b.toNat c.toNat) : (ns.map digit).all isChar = true := by
    rw [List.all_map, List.all_eq_true]
    exact fun n hn => isChar_digit (lt_of_mem_sextets a.toNat_lt b.toNat_lt c.toNat_lt (h n hn))
  fun_induction encode bs with
  | case1 => rfl
  | case2 a =>
    have h := hdigits (a := a) (b := 0) (c := 0) (fun n hn => List.mem_of_mem_take hn : ∀ n ∈ (sextets a.toNat 0 0).take 2, _)
    rw [List.all_append, h]
    rfl
  | case3 a b =>
    have h := hdigits (a := a) (b := b) (c := 0) (fun n hn => List.mem_of_mem_take hn : ∀ n ∈ (sextets a.toNat b.toNat 0).take 3, _)
    rw [List.all_append, h]
    rfl
  | case4 a b c rest ih => rw [List.all_append, hdigits (a := a) (b := b) (c := c) fun n hn => hn, ih, Bool.and_true]

/-- What is encoded is read back. -/
theorem decode_encode (bs : Bytes) : decode (encode bs) = some bs := by
  fun_induction encode bs with
  | case1 => rfl
  | case2 a =>
    have ha := a.toNat_lt
    have hx : a.toNat / 4 < 64 := by omega
    have hy : a.toNat % 4 * 16 + 0 / 16 < 64 := by omega
    change decode [digit (a.toNat / 4), digit (a.toNat % 4 * 16 + 0 / 16), '=', '='] = _
    rw [decode, value_digit hx, value_digit hy]
    have hpad : (a.toNat % 4 * 16 + 0 / 16) % 16 = 0 := by omega
    have hbyte : a.toNat / 4 * 4 + (a.toNat % 4 * 16 + 0 / 16) / 16 = a.toNat := by omega
    simp only [Option.bind_eq_bind, Option.bind_some, if_pos hpad, ofNat_of_eq hbyte]
  | case3 a b =>
    have ha := a.toNat_lt
    have hb := b.toNat_lt
    have hx : a.toNat / 4 < 64 := by omega
    have hy : a.toNat % 4 * 16 + b.toNat / 16 < 64 := by omega
    have hz : b.toNat % 16 * 4 + 0 / 64 < 64 := by omega
    change decode [digit (a.toNat / 4), digit (a.toNat % 4 * 16 + b.toNat / 16), digit (b.toNat % 16 * 4 + 0 / 64), '='] = _
    rw [decode, value_digit hx, value_digit hy, value_digit hz]
    · have hpad : (b.toNat % 16 * 4 + 0 / 64) % 4 = 0 := by omega
      have hfirst : a.toNat / 4 * 4 + (a.toNat % 4 * 16 + b.toNat / 16) / 16 = a.toNat := by omega
      have hsecond : (a.toNat % 4 * 16 + b.toNat / 16) % 16 * 16 + (b.toNat % 16 * 4 + 0 / 64) / 4 = b.toNat := by omega
      simp only [Option.bind_eq_bind, Option.bind_some, if_pos hpad, ofNat_of_eq hfirst, ofNat_of_eq hsecond]
    · exact digit_ne_pad hz
  | case4 a b c rest ih =>
    have ha := a.toNat_lt
    have hb := b.toNat_lt
    have hc := c.toNat_lt
    have hx : a.toNat / 4 < 64 := by omega
    have hy : a.toNat % 4 * 16 + b.toNat / 16 < 64 := by omega
    have hz : b.toNat % 16 * 4 + c.toNat / 64 < 64 := by omega
    have hw : c.toNat % 64 < 64 := by omega
    change decode (digit (a.toNat / 4) :: digit (a.toNat % 4 * 16 + b.toNat / 16) :: digit (b.toNat % 16 * 4 + c.toNat / 64) ::
      digit (c.toNat % 64) :: encode rest) = _
    rw [decode, value_digit hx, value_digit hy, value_digit hz, value_digit hw, ih]
    · have hfirst : a.toNat / 4 * 4 + (a.toNat % 4 * 16 + b.toNat / 16) / 16 = a.toNat := by omega
      have hsecond : (a.toNat % 4 * 16 + b.toNat / 16) % 16 * 16 + (b.toNat % 16 * 4 + c.toNat / 64) / 4 = b.toNat := by omega
      have hthird : (b.toNat % 16 * 4 + c.toNat / 64) % 4 * 64 + c.toNat % 64 = c.toNat := by omega
      simp only [Option.bind_eq_bind, Option.bind_some, ofNat_of_eq hfirst, ofNat_of_eq hsecond, ofNat_of_eq hthird]
    · exact fun hpad => absurd hpad (digit_ne_pad hz)
    · exact fun hpad => absurd hpad (digit_ne_pad hw)

end ProxmoxTool.Base64
