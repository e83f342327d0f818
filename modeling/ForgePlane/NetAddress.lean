import ForgePlane.Paths
import Mathlib.Data.List.TakeWhile

/-!
# IP addresses

An address is four or sixteen bytes, and its text is read back as the same address. With a port
behind it the text is cut where it was joined.
-/

namespace ForgePlane.Net

open List

/-! ## Addresses -/

structure IP where
  bytes : List UInt8
  size : bytes.length = 4 ∨ bytes.length = 16
  deriving DecidableEq, Repr

def v4InV6Prefix : List UInt8 := [0, 0, 0, 0, 0, 0, 0, 0, 0, 0, 0xff, 0xff]

def IP.to4 (ip : IP) : Option (List UInt8) :=
  if ip.bytes.length = 4 then some ip.bytes
  else if ip.bytes.take 12 = v4InV6Prefix then some (ip.bytes.drop 12)
  else none

def IP.to16 (ip : IP) : IP where
  bytes := if ip.bytes.length = 4 then v4InV6Prefix ++ ip.bytes else ip.bytes
  size := by
    obtain h | h := ip.size
    · exact .inr (by rw [if_pos h, length_append, h]; rfl)
    · exact .inr (by rw [if_neg (by omega), h])

theorem IP.to16_length (ip : IP) : ip.to16.bytes.length = 16 := by
  obtain h | h := ip.size
  · simp [to16, h, v4InV6Prefix]
  · simp [to16, h]

theorem IP.to4_to16 (ip : IP) : ip.to16.to4 = ip.to4 := by
  obtain h | h := ip.size
  · have hbytes : ip.to16.bytes = v4InV6Prefix ++ ip.bytes := if_pos h
    rw [to4, to4, to16_length, if_neg (by decide), if_pos h, hbytes]
    rfl
  · have hself : ip.to16.bytes = ip.bytes := if_neg (by omega)
    rw [to4, to4, hself]

theorem IP.to16_bytes_of_to4 {ip : IP} (h : ip.to4 = none) : ip.to16.bytes = ip.bytes := by
  have hlen : ip.bytes.length ≠ 4 := fun hlen => by simp [to4, hlen] at h
  exact if_neg hlen

/-! ### Kinds of addresses -/

def IP.byForm (ip : IP) (four : List UInt8 → Bool) (sixteen : List UInt8 → Bool) : Bool :=
  match ip.to4 with
  | some bytes => four bytes
  | none => sixteen ip.bytes

theorem IP.byForm_to16 (ip : IP) (four sixteen : List UInt8 → Bool) : ip.to16.byForm four sixteen = ip.byForm four sixteen := by
  unfold byForm
  rw [to4_to16]
  cases h : ip.to4 with
  | none => simp [to16_bytes_of_to4 h]
  | some => rfl

namespace IP

open List

variable (ip : IP)

def isUnspecified : Bool := ip.byForm (· == [0, 0, 0, 0]) (· == List.replicate 16 0)

def isLoopback : Bool := ip.byForm (fun b => b.head? == some 127) (· == List.replicate 15 0 ++ [1])

def isPrivate : Bool :=
  ip.byForm
    (fun
      | a :: b :: _ => a == 10 || (a == 172 && b &&& 0xf0 == 16) || (a == 192 && b == 168)
      | _ => false)
    (fun
      | a :: _ => a &&& 0xfe == 0xfc
      | _ => false)

def isMulticast : Bool :=
  ip.byForm
    (fun
      | a :: _ => a &&& 0xf0 == 0xe0
      | _ => false)
    (fun b => b.head? == some 0xff)

def isLinkLocalMulticast : Bool :=
  ip.byForm (fun b => b.take 3 == [224, 0, 0])
    (fun
      | a :: b :: _ => a == 0xff && b &&& 0x0f == 0x02
      | _ => false)

def isLinkLocalUnicast : Bool :=
  ip.byForm (fun b => b.take 2 == [169, 254])
    (fun
      | a :: b :: _ => a == 0xfe && b &&& 0xc0 == 0x80
      | _ => false)

end IP

/-! ## Their texts -/

/-- `IP.String` and `net.ParseIP`, which reads the text of either form as sixteen bytes. -/
structure AddressText where
  text : IP → Text
  parseIP : Text → Option IP
  parse_text : ∀ ip, parseIP (text ip) = some ip.to16
  plain : ∀ ip, ∀ c ∈ text ip, c ≠ '[' ∧ c ≠ ']'

def charOf (b : UInt8) : Char := Char.ofNat (b.toNat + 256)

theorem charOf_spec (b : UInt8) : UInt8.ofNat (charOf b).toNat = b ∧ charOf b ≠ '[' ∧ charOf b ≠ ']' := by
  have hall : ∀ n : Fin 256, UInt8.ofNat (charOf (.ofNat n)).toNat = .ofNat n ∧ charOf (.ofNat n) ≠ '[' ∧ charOf (.ofNat n) ≠ ']' := by
    decide +kernel
  simpa using hall ⟨b.toNat, b.toNat_lt⟩

-- one character for a byte
instance : Inhabited AddressText where
  default :=
    { text := fun ip => ip.bytes.map charOf
      parseIP := fun s => if h : s.length = 4 ∨ s.length = 16 then some (IP.to16 ⟨s.map fun c => .ofNat c.toNat, by simpa using h⟩) else none
      parse_text := fun ip => by
        have hbytes : (ip.bytes.map charOf).map (fun c => UInt8.ofNat c.toNat) = ip.bytes := by
          rw [map_map]
          exact (map_congr_left fun b _ => (charOf_spec b).1).trans (map_id _)
        simp [dif_pos ip.size, hbytes]
      plain := fun ip c hc => by
        obtain ⟨b, -, rfl⟩ := mem_map.mp hc
        exact (charOf_spec b).2 }

/-! ## Host and port -/

def joinHostPort (host port : Text) : Text :=
  if ':' ∈ host then '[' :: (host ++ ']' :: ':' :: port) else host ++ ':' :: port

def cutLastColon : Text → Option (Text × Text)
  | [] => none
  | c :: s =>
    match cutLastColon s with
    | some (front, port) => some (c :: front, port)
    | none => if c = ':' then some ([], s) else none

def splitHostPort (s : Text) : Except String (Text × Text) :=
  match cutLastColon s with
  | none => .error "missing port in address"
  | some (front, port) =>
    match s with
    | '[' :: inner =>
      let host := inner.takeWhile (· ≠ ']')
      match inner.dropWhile (· ≠ ']') with
      | [] => .error "missing ']' in address"
      | _ :: rest =>
        if rest = ':' :: port then
          if '[' ∈ inner then .error "unexpected '[' in address"
          else if ']' ∈ rest then .error "unexpected ']' in address"
          else .ok (host, port)
        else if rest.head? = some ':' then .error "too many colons in address"
        else .error "missing port in address"
    | _ =>
      if ':' ∈ front then .error "too many colons in address"
      else if '[' ∈ s then .error "unexpected '[' in address"
      else if ']' ∈ s then .error "unexpected ']' in address"
      else .ok (front, port)

section
variable {host port s front : Text}

theorem cutLastColon_eq_none : cutLastColon s = none ↔ ':' ∉ s := by
  induction s with
  | nil => simp [cutLastColon]
  | cons c s ih =>
    rw [cutLastColon]
    cases hs : cutLastColon s with
    | some =>
      have hmem : ':' ∈ s := by
        by_contra hno
        rw [ih.mpr hno] at hs
        cases hs
      simp [hmem]
    | none =>
      have hno := ih.mp hs
      by_cases hc : c = ':'
      · simp [hc]
      · simp [hc, hno, Ne.symm hc]

theorem cutLastColon_append (h : ':' ∉ port) (front : Text) : cutLastColon (front ++ ':' :: port) = some (front, port) := by
  induction front with
  | nil =>
    rw [nil_append, cutLastColon, cutLastColon_eq_none.mpr h]
    rfl
  | cons c front ih => rw [cons_append, cutLastColon, ih]

theorem cutLastColon_spec (h : cutLastColon s = some (front, port)) : ':' ∉ port ∧ s = front ++ ':' :: port := by
  induction s generalizing front with
  | nil => cases h
  | cons c s ih =>
    rw [cutLastColon] at h
    cases hs : cutLastColon s with
    | some =>
      rw [hs] at h
      cases h
      obtain ⟨hport, rfl⟩ := ih hs
      exact ⟨hport, rfl⟩
    | none =>
      rw [hs] at h
      simp only at h
      split at h
      · rename_i hc
        cases h
        exact ⟨cutLastColon_eq_none.mp hs, by rw [hc]; rfl⟩
      · cases h

theorem splitHostPort_port (h : splitHostPort s = .ok (host, port)) : ':' ∉ port ∧ '[' ∉ port ∧ ']' ∉ port := by
  unfold splitHostPort at h
  split at h
  · cases h
  rename_i front cut hcut
  obtain ⟨hcolon, hs⟩ := cutLastColon_spec hcut
  split at h
  · rename_i inner
    dsimp only at h
    split at h
    · cases h
    rename_i c rest hrest
    split at h
    · rename_i he
      split at h
      · cases h
      rename_i hopen
      split at h
      · cases h
      rename_i hclose
      cases h
      rw [he] at hclose hrest
      have hsub : c :: ':' :: port ⊆ inner := hrest ▸ (dropWhile_sublist _).subset
      exact ⟨hcolon, fun hmem => hopen (hsub (by simp [hmem])), fun hmem => hclose (mem_cons_of_mem _ hmem)⟩
    · split at h <;> cases h
  · split at h
    · cases h
    split at h
    · cases h
    rename_i hopen
    split at h
    · cases h
    rename_i hclose
    cases h
    rw [hs] at hopen hclose
    simp only [mem_append, mem_cons, not_or] at hopen hclose
    exact ⟨hcolon, hopen.2.2, hclose.2.2⟩

theorem splitHostPort_joinHostPort (hhost : ∀ c ∈ host, c ≠ '[' ∧ c ≠ ']') (hport : ':' ∉ port ∧ '[' ∉ port ∧ ']' ∉ port) :
    splitHostPort (joinHostPort host port) = .ok (host, port) := by
  have hopen : '[' ∉ host := fun h => (hhost _ h).1 rfl
  have hclose : ']' ∉ host := fun h => (hhost _ h).2 rfl
  unfold joinHostPort
  by_cases hcolon : ':' ∈ host
  · rw [if_pos hcolon]
    have hcut : cutLastColon ('[' :: (host ++ ']' :: ':' :: port)) = some ('[' :: (host ++ [']']), port) := by
      rw [show '[' :: (host ++ ']' :: ':' :: port) = ('[' :: (host ++ [']'])) ++ ':' :: port by simp]
      exact cutLastColon_append hport.1 _
    have hall : ∀ c ∈ host, decide (c ≠ ']') = true := fun c hc => decide_eq_true (hhost c hc).2
    unfold splitHostPort
    simp only [hcut, takeWhile_append_of_pos hall, dropWhile_append_of_pos hall]
    simp [hopen, hport.2.1, hport.2.2]
  · rw [if_neg hcolon]
    unfold splitHostPort
    simp only [cutLastColon_append hport.1]
    split
    · rename_i heq
      cases host with
      | nil => cases heq
      | cons => cases heq; exact absurd mem_cons_self hopen
    · simp [hcolon, hopen, hclose, hport.2.1, hport.2.2]

end

end ForgePlane.Net
