import ForgePlane.Base64
import ForgePlane.Wire

/-!
# Keyrings

A secret is sealed under the active key of a ring and stored with that key's identifier. A later
ring opens it with whatever key it has under the identifier, active or not.
-/

namespace ForgePlane.Keyrings

open List

abbrev Bytes := List UInt8

/-! ## Keys -/

structure Key where
  bytes : Bytes
  size : bytes.length = 32
  deriving DecidableEq, Repr

def errInvalidKey : Err := "master key must be exactly 32 bytes encoded as strict base64 or 64 hexadecimal characters"

def hexValue (c : Char) : Option Nat :=
  if '0' ≤ c ∧ c ≤ '9' then some (c.toNat - 48)
  else if 'a' ≤ c ∧ c ≤ 'f' then some (c.toNat - 87)
  else if 'A' ≤ c ∧ c ≤ 'F' then some (c.toNat - 55)
  else none

def hexDecode : Text → Option Bytes
  | [] => some []
  | [_] => none
  | a :: b :: rest => do
    let high ← hexValue a
    let low ← hexValue b
    let bytes ← hexDecode rest
    return UInt8.ofNat (high * 16 + low) :: bytes

def keyOf (bytes : Option Bytes) : Option Key := bytes.bind fun b => if h : b.length = 32 then some ⟨b, h⟩ else none

def parseKey (value : String) : Except Err Key :=
  let value := (trimSpace value).toList
  let fromHex := if value.length = 64 then keyOf (hexDecode value) else none
  match fromHex.or (keyOf (Base64.decodePadded Base64.std value)) with
  | some key => .ok key
  | none => .error errInvalidKey

def keyAt (keys : List (Text × Key)) (id : Text) : Option Key := (keys.find? fun x => x.1 = id).map (·.2)

structure Keyring where
  activeID : Text
  keys : List (Text × Key)
  active : (keyAt keys activeID).isSome = true
  named : activeID ≠ []
  plain : ':' ∉ activeID

def Keyring.insert (ring : Keyring) (id : Text) (key : Key) (h : id ≠ ring.activeID) : Keyring where
  activeID := ring.activeID
  keys := (id, key) :: ring.keys
  active := by
    have hactive := ring.active
    unfold keyAt at hactive ⊢
    rwa [List.find?_cons_of_neg (by simpa using h)]
  named := ring.named
  plain := ring.plain

def addPrevious (ring : Keyring) : List (String × String) → Except Err Keyring
  | [] => .ok ring
  | (id, encoded) :: previous =>
    let id := (trimSpace id).toList
    if h : id = [] ∨ ':' ∈ id ∨ id = ring.activeID then
      .error "previous master key IDs must be unique, non-empty, and cannot contain ':'"
    else
      match parseKey encoded with
      | .error e => .error s!"previous master key {(String.ofList id).quote}: {e}"
      | .ok key => addPrevious (ring.insert id key fun he => h (.inr (.inr he))) previous

def newKeyring (activeID activeKey : String) (previous : List (String × String)) : Except Err Keyring :=
  let id := (trimSpace activeID).toList
  if h : id = [] ∨ ':' ∈ id then .error "master key ID must be non-empty and cannot contain ':'"
  else
    match parseKey activeKey with
    | .error e => .error s!"active master key: {e}"
    | .ok key =>
      addPrevious
        { activeID := id
          keys := [(id, key)]
          active := by simp [keyAt]
          named := fun he => h (.inl he)
          plain := fun he => h (.inr he) }
        previous

/-! ## Sealing -/

structure Nonce where
  bytes : Bytes
  size : bytes.length = 12
  deriving DecidableEq, Repr

/-- AES-GCM: what was sealed is opened again with the same additional data and with no other. -/
structure GCM where
  sealed : Key → Bytes → Bytes → Text → Bytes
  opened : Key → Bytes → Bytes → Text → Option Bytes
  overhead : ∀ key nonce plaintext aad, 16 ≤ (sealed key nonce plaintext aad).length
  correct : ∀ key nonce plaintext aad, opened key nonce (sealed key nonce plaintext aad) aad = some plaintext
  authentic : ∀ key nonce plaintext aad aad', aad' ≠ aad → opened key nonce (sealed key nonce plaintext aad) aad' = none

def envelopePrefix : Text := ['f', 'o', 'r', 'g', 'e', ':', 'v', '1', ':']

def errMalformedEnvelope : Err := "malformed encrypted secret"

def errUnconfigured : Err := "secret encryption is not configured"

section
variable (gcm : GCM)

def encrypt (k : Option Keyring) (nonce : Except Err Nonce) (plaintext : Bytes) (aad : Text) : Except Err Text :=
  match k with
  | none => .error errUnconfigured
  | some k =>
    match keyAt k.keys k.activeID with
    | none => .error "crypto/aes: invalid key size 0"
    | some key =>
      match nonce with
      | .error e => .error s!"generate encryption nonce: {e}"
      | .ok nonce =>
        let payload := nonce.bytes ++ gcm.sealed key nonce.bytes plaintext aad
        .ok (envelopePrefix ++ (k.activeID ++ ':' :: Base64.encodeRaw Base64.url payload))

def decrypt (k : Option Keyring) (envelope aad : Text) : Except Err Bytes :=
  match k with
  | none => .error errUnconfigured
  | some k =>
    if ¬ envelopePrefix <+: envelope then .error errMalformedEnvelope
    else
      let rest := envelope.drop envelopePrefix.length
      let id := rest.takeWhile (· ≠ ':')
      match rest.dropWhile (· ≠ ':') with
      | [] => .error errMalformedEnvelope
      | _ :: text =>
        if id = [] ∨ text = [] then .error errMalformedEnvelope
        else
          match keyAt k.keys id with
          | none => .error s!"encrypted secret references an unavailable key: {String.ofList id}"
          | some key =>
            match Base64.decodeRaw Base64.url text with
            | none => .error errMalformedEnvelope
            | some payload =>
              if payload.length < 12 + 16 then .error errMalformedEnvelope
              else
                match gcm.opened key (payload.take 12) (payload.drop 12) aad with
                | none => .error "encrypted secret authentication failed"
                | some plaintext => .ok plaintext

def needsRotation (k : Option Keyring) (envelope : Text) : Bool :=
  k.any fun k => !decide (envelopePrefix ++ (k.activeID ++ [':']) <+: envelope)

end

/-! ## The envelope -/

section
variable {gcm : GCM} {r r' : Keyring} {nonce : Nonce} {plaintext : Bytes} {aad : Text}
variable {id : Text}

def envelope (gcm : GCM) (r : Keyring) (key : Key) (nonce : Nonce) (plaintext : Bytes) (aad : Text) : Text :=
  envelopePrefix ++ (r.activeID ++ ':' :: Base64.encodeRaw Base64.url (nonce.bytes ++ gcm.sealed key nonce.bytes plaintext aad))

theorem encrypt_eq (gcm : GCM) (r : Keyring) (nonce : Nonce) (plaintext : Bytes) (aad : Text) :
    ∃ key, keyAt r.keys r.activeID = some key ∧ encrypt gcm (some r) (.ok nonce) plaintext aad = .ok (envelope gcm r key nonce plaintext aad) := by
  obtain ⟨key, hkey⟩ := Option.isSome_iff_exists.mp r.active
  refine ⟨key, hkey, ?_⟩
  simp [encrypt, hkey]
  rfl

theorem takeWhile_colon (h : ':' ∉ id) (s : Text) : (id ++ ':' :: s).takeWhile (· ≠ ':') = id := by
  have hid : ∀ c ∈ id, decide (c ≠ ':') = true := fun c hc => decide_eq_true fun he => h (he ▸ hc)
  rw [takeWhile_append_of_pos hid]
  simp

theorem dropWhile_colon (h : ':' ∉ id) (s : Text) : (id ++ ':' :: s).dropWhile (· ≠ ':') = ':' :: s := by
  have hid : ∀ c ∈ id, decide (c ≠ ':') = true := fun c hc => decide_eq_true fun he => h (he ▸ hc)
  rw [dropWhile_append_of_pos hid]
  simp

theorem decrypt_envelope {key : Key} (hkey : keyAt r'.keys r.activeID = some key) (aad' : Text) :
    decrypt gcm (some r') (envelope gcm r key nonce plaintext aad) aad' =
      match gcm.opened key nonce.bytes (gcm.sealed key nonce.bytes plaintext aad) aad' with
      | none => .error "encrypted secret authentication failed"
      | some p => .ok p := by
  have hpayload : nonce.bytes ++ gcm.sealed key nonce.bytes plaintext aad ≠ [] := by
    intro he
    have := congrArg List.length he
    rw [length_append, nonce.size] at this
    exact absurd this (by simp)
  have hlen : 12 + 16 ≤ (nonce.bytes ++ gcm.sealed key nonce.bytes plaintext aad).length := by
    rw [length_append, nonce.size]
    exact Nat.add_le_add_left (gcm.overhead _ _ _ _) 12
  generalize hp : nonce.bytes ++ gcm.sealed key nonce.bytes plaintext aad = payload at hpayload hlen
  unfold decrypt envelope
  rw [hp]
  simp only [prefix_append, not_true_eq_false, if_false, drop_left, takeWhile_colon r.plain, dropWhile_colon r.plain]
  rw [if_neg (not_or.mpr ⟨r.named, Base64.encodeRaw_ne_nil hpayload⟩)]
  simp only [hkey, Base64.decodeRaw_encodeRaw]
  rw [if_neg (Nat.not_lt.mpr hlen), ← hp, take_left' nonce.size, drop_left' nonce.size]

theorem needsRotation_envelope (key : Key) :
    needsRotation (some r') (envelope gcm r key nonce plaintext aad) = false ↔ r.activeID = r'.activeID := by
  have hprefix : envelopePrefix ++ (r'.activeID ++ [':']) <+: envelope gcm r key nonce plaintext aad ↔ r.activeID = r'.activeID := by
    unfold envelope
    rw [prefix_append_right_inj]
    constructor
    · rintro ⟨t, ht⟩
      -- each identifier is what stands before the first colon
      have hcut := congrArg (List.takeWhile (· ≠ ':')) ht
      rw [append_assoc, singleton_append, takeWhile_colon r'.plain, takeWhile_colon r.plain] at hcut
      exact hcut.symm
    · intro he
      rw [he]
      exact ⟨_, append_assoc _ _ _⟩
  simp [needsRotation]
  exact hprefix

end

/-- What one ring encrypts, any ring with the same key under the same identifier decrypts, with the same additional
data only. -/
theorem secrets_survive_rotation {gcm : GCM} {r r' : Keyring} (hkey : keyAt r'.keys r.activeID = keyAt r.keys r.activeID)
    (nonce : Nonce) (plaintext : Bytes) (aad : Text) :
    ∃ env, encrypt gcm (some r) (.ok nonce) plaintext aad = .ok env ∧
      decrypt gcm (some r') env aad = .ok plaintext ∧
      (∀ aad', aad' ≠ aad → ∃ e, decrypt gcm (some r') env aad' = .error e) ∧
      ∀ r'' : Keyring, needsRotation (some r'') env = false ↔ r.activeID = r''.activeID := by
  obtain ⟨key, hactive, henc⟩ := encrypt_eq gcm r nonce plaintext aad
  have hkey' : keyAt r'.keys r.activeID = some key := hkey.trans hactive
  refine ⟨_, henc, ?_, fun aad' hne => ⟨"encrypted secret authentication failed", ?_⟩, fun r'' => needsRotation_envelope key⟩
  · rw [decrypt_envelope hkey', gcm.correct]
  · rw [decrypt_envelope hkey', gcm.authentic _ _ _ _ _ hne]

def header (aad : Text) : Bytes :=
  aad.flatMap (fun c => [1, UInt8.ofNat (c.toNat / 65536), UInt8.ofNat (c.toNat / 256), UInt8.ofNat c.toNat]) ++ [0]

theorem header_inj : ∀ {aad aad' : Text} {s : Bytes}, header aad' <+: header aad ++ s → aad' = aad
  | [], [], _, _ => rfl
  | [], _ :: _, _, h => by simp [header] at h
  | _ :: _, [], _, h => by simp [header] at h
  | c :: aad, d :: aad', s, h => by
    simp only [header, flatMap_cons, cons_append, nil_append, cons_prefix_cons] at h
    obtain ⟨-, hhigh, hmid, hlow, hrest⟩ := h
    have hhigh := congrArg UInt8.toNat hhigh
    have hmid := congrArg UInt8.toNat hmid
    have hlow := congrArg UInt8.toNat hlow
    simp at hhigh hmid hlow
    have hc : c.toNat < 2 ^ 24 := by
      rcases c.valid with h | ⟨-, h⟩ <;> exact h.trans (by decide)
    have hd : d.toNat < 2 ^ 24 := by
      rcases d.valid with h | ⟨-, h⟩ <;> exact h.trans (by decide)
    rw [Char.toNat_inj.mp (show d.toNat = c.toNat by omega), header_inj hrest]

def sampleGCM : GCM where
  sealed _ _ plaintext aad := List.replicate 16 0 ++ (header aad ++ plaintext)
  opened _ _ text aad :=
    if List.replicate 16 0 ++ header aad <+: text then some (text.drop (16 + (header aad).length)) else none
  overhead _ _ _ _ := by simp
  correct _ _ plaintext aad := by
    rw [← append_assoc, if_pos (prefix_append _ _), drop_left' (by rw [length_append, length_replicate])]
  authentic _ _ plaintext aad aad' hne := by
    refine if_neg fun h => hne (header_inj (s := plaintext) ?_)
    exact (prefix_append_right_inj _).mp h

def sampleKey : Key := ⟨List.replicate 32 0, by simp⟩

def firstRing : Keyring := ⟨['a'], [(['a'], sampleKey)], rfl, by decide, by decide⟩

def secondRing : Keyring := ⟨['b'], [(['b'], ⟨List.replicate 32 1, by simp⟩), (['a'], sampleKey)], rfl, by decide, by decide⟩

theorem secrets_survive_rotation_once :
    ∃ env, encrypt sampleGCM (some firstRing) (.ok ⟨List.replicate 12 7, by simp⟩) [104, 105] ['x'] = .ok env ∧
      decrypt sampleGCM (some secondRing) env ['x'] = .ok [104, 105] ∧ needsRotation (some secondRing) env = true := by
  obtain ⟨env, henc, hdec, -, hrot⟩ := @secrets_survive_rotation sampleGCM firstRing secondRing rfl
    ⟨List.replicate 12 7, by simp⟩ [104, 105] ['x']
  refine ⟨env, henc, hdec, Bool.eq_true_of_not_eq_false fun h => ?_⟩
  exact absurd ((hrot secondRing).mp h) (by decide)

end ForgePlane.Keyrings
