import ForgePlane.Paths

/-!
# Base64

Three bytes to four characters, without padding or with it. A strict decoder wants the bits that
belong to no byte to be zero, so that what is encoded is decoded to itself and nothing else is.
-/

namespace ForgePlane.Base64

structure Alphabet where
  plus : Char
  slash : Char
  deriving DecidableEq, Repr

def std : Alphabet := ⟨'+', '/'⟩

def url : Alphabet := ⟨'-', '_'⟩

namespace Alphabet

variable (α : Alphabet)

def digit (n : Nat) : Char :=
  if n < 26 then Char.ofNat (65 + n)
  else if n < 52 then Char.ofNat (71 + n)
  else if n < 62 then Char.ofNat (n - 4)
  else if n = 62 then α.plus
  else α.slash

def value (c : Char) : Option Nat :=
  if 'A' ≤ c ∧ c ≤ 'Z' then some (c.toNat - 65)
  else if 'a' ≤ c ∧ c ≤ 'z' then some (c.toNat - 71)
  else if '0' ≤ c ∧ c ≤ '9' then some (c.toNat + 4)
  else if c = α.plus then some 62
  else if c = α.slash then some 63
  else none

end Alphabet

/-! ## Six bits at a time -/

def toDigits : List UInt8 → List Nat
  | [] => []
  | [a] => [a.toNat / 4, a.toNat % 4 * 16]
  | [a, b] => [a.toNat / 4, a.toNat % 4 * 16 + b.toNat / 16, b.toNat % 16 * 4]
  | a :: b :: c :: rest =>
    a.toNat / 4 :: (a.toNat % 4 * 16 + b.toNat / 16) :: (b.toNat % 16 * 4 + c.toNat / 64) :: c.toNat % 64 :: toDigits rest

def ofDigits : List Nat → Option (List UInt8)
  | [] => some []
  | [_] => none
  | [x, y] => if y % 16 = 0 then some [UInt8.ofNat (x * 4 + y / 16)] else none
  | [x, y, z] => if z % 4 = 0 then some [UInt8.ofNat (x * 4 + y / 16), UInt8.ofNat (y * 16 + z / 4)] else none
  | x :: y :: z :: w :: rest =>
    (ofDigits rest).map fun bytes =>
      UInt8.ofNat (x * 4 + y / 16) :: UInt8.ofNat (y * 16 + z / 4) :: UInt8.ofNat (z * 64 + w) :: bytes

theorem ofNat_eq {n : Nat} {a : UInt8} (h : n % 256 = a.toNat) : UInt8.ofNat n = a := by
  apply UInt8.toNat_inj.mp
  rw [UInt8.toNat_ofNat']
  exact h

theorem ofDigits_toDigits : ∀ bytes : List UInt8, ofDigits (toDigits bytes) = some bytes
  | [] => rfl
  | [a] => by
    have ha := a.toNat_lt
    rw [toDigits, ofDigits, if_pos (by omega), ofNat_eq (a := a) (by omega)]
  | [a, b] => by
    have ha := a.toNat_lt
    have hb := b.toNat_lt
    rw [toDigits, ofDigits, if_pos (by omega), ofNat_eq (a := a) (by omega), ofNat_eq (a := b) (by omega)]
  | a :: b :: c :: rest => by
    have ha := a.toNat_lt
    have hb := b.toNat_lt
    have hc := c.toNat_lt
    rw [toDigits, ofDigits, ofDigits_toDigits rest, Option.map_some, ofNat_eq (a := a) (by omega), ofNat_eq (a := b) (by omega),
      ofNat_eq (a := c) (by omega)]

theorem toDigits_lt : ∀ (bytes : List UInt8), ∀ n ∈ toDigits bytes, n < 64
  | [], _, h => by cases h
  | [a], n, h => by
    have ha := a.toNat_lt
    simp [toDigits] at h
    omega
  | [a, b], n, h => by
    have ha := a.toNat_lt
    have hb := b.toNat_lt
    simp [toDigits] at h
    omega
  | a :: b :: c :: rest, n, h => by
    have ha := a.toNat_lt
    have hb := b.toNat_lt
    have hc := c.toNat_lt
    simp [toDigits] at h
    obtain h | h | h | h | h := h
    · omega
    · omega
    · omega
    · omega
    · exact toDigits_lt rest n h

def encodeRaw (α : Alphabet) (bytes : List UInt8) : Text := (toDigits bytes).map α.digit

def skipLines (s : Text) : Text := s.filter fun c => !(c = '\r' || c = '\n')

def decodeRaw (α : Alphabet) (s : Text) : Option (List UInt8) := ((skipLines s).mapM α.value).bind ofDigits

def decodePadded (α : Alphabet) (s : Text) : Option (List UInt8) :=
  let s := skipLines s
  let digits := (s.reverse.dropWhile (· = '=')).reverse
  if s.length % 4 = 0 ∧ s.length ≤ digits.length + 2 then (digits.mapM α.value).bind ofDigits else none

theorem url_digit {n : Nat} (h : n < 64) :
    url.value (url.digit n) = some n ∧ url.digit n ≠ '\r' ∧ url.digit n ≠ '\n' ∧ url.digit n ≠ ':' := by
  have hall : ∀ n : Fin 64, url.value (url.digit n) = some n.val ∧ url.digit n ≠ '\r' ∧ url.digit n ≠ '\n' ∧ url.digit n ≠ ':' := by
    decide
  exact hall ⟨n, h⟩

theorem mapM_value : ∀ {digits : List Nat}, (∀ n ∈ digits, n < 64) → (digits.map url.digit).mapM url.value = some digits
  | [], _ => rfl
  | n :: digits, h => by
    rw [List.map_cons, List.mapM_cons, (url_digit (h n List.mem_cons_self)).1,
      mapM_value fun m hm => h m (List.mem_cons_of_mem _ hm)]
    rfl

theorem skipLines_encodeRaw (bytes : List UInt8) : skipLines (encodeRaw url bytes) = encodeRaw url bytes := by
  refine List.filter_eq_self.mpr fun c hc => ?_
  obtain ⟨n, hn, rfl⟩ := List.mem_map.mp hc
  have hdigit := url_digit (toDigits_lt bytes n hn)
  simp [hdigit.2.1, hdigit.2.2.1]

theorem decodeRaw_encodeRaw (bytes : List UInt8) : decodeRaw url (encodeRaw url bytes) = some bytes := by
  rw [decodeRaw, skipLines_encodeRaw, encodeRaw, mapM_value (toDigits_lt bytes), Option.bind_some, ofDigits_toDigits]

theorem encodeRaw_ne_nil {bytes : List UInt8} (h : bytes ≠ []) : encodeRaw url bytes ≠ [] := by
  intro he
  have hdecode := decodeRaw_encodeRaw bytes
  rw [he] at hdecode
  exact h (Option.some.inj hdecode).symm

end ForgePlane.Base64
