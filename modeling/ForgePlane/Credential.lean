import ForgePlane.Beacon

/-!
# Credentials and records

A credential is the hex form of random bytes, so that trimming and lowering leave
it and its hash alone; a record opened by a registration is opened by the
credential registered until it is consumed or expires.
-/

namespace ForgePlane

/-! ## Hex text -/

def lowerHex (c : Char) : Bool := c.isDigit || ('a' ≤ c && c ≤ 'f')

theorem lowerHex_digitChar {d : Nat} (h : d < 16) : lowerHex (Nat.digitChar d) = true := by
  have hall : ∀ d : Fin 16, lowerHex (Nat.digitChar d) = true := by decide
  exact hall ⟨d, h⟩

theorem lowerHex_hexEncode (bs : List UInt8) : ∀ c ∈ (hexEncode bs).toList, lowerHex c = true := by
  intro c hc
  simp only [hexEncode, String.toList_ofList, List.mem_flatMap] at hc
  obtain ⟨b, -, hc⟩ := hc
  have hb := b.toNat_lt
  simp at hc
  obtain rfl | rfl := hc
  · exact lowerHex_digitChar (by omega)
  · exact lowerHex_digitChar (by omega)

theorem length_hexEncode (bs : List UInt8) : (hexEncode bs).toList.length = 2 * bs.length := by
  simp [hexEncode]
  induction bs with
  | nil => rfl
  | cons =>
    simp
    omega

section
variable {c : Char}

theorem lowerHex_bounds (h : lowerHex c = true) : (48 ≤ c.toNat ∧ c.toNat ≤ 57) ∨ (97 ≤ c.toNat ∧ c.toNat ≤ 102) := by
  simp [lowerHex, Char.isDigit] at h
  exact h

theorem lowerHex_not_space (h : lowerHex c = true) : isSpace c = false := by
  have hb := lowerHex_bounds h
  simp [isSpace]
  omega

theorem toLower_eq_self (h : c.toNat < 65 ∨ 90 < c.toNat) : c.toLower = c := by
  unfold Char.toLower
  refine dif_neg fun hc => ?_
  have h1 : 65 ≤ c.toNat := UInt32.le_iff_toNat_le.mp hc.1
  have h2 : c.toNat ≤ 90 := UInt32.le_iff_toNat_le.mp hc.2
  omega

theorem lowerHex_toLower (h : lowerHex c = true) : c.toLower = c := by
  have hb := lowerHex_bounds h
  exact toLower_eq_self (by omega)

theorem toLower_toLower (c : Char) : c.toLower.toLower = c.toLower := by
  by_cases hc : 65 ≤ c.toNat ∧ c.toNat ≤ 90
  · apply toLower_eq_self
    right
    unfold Char.toLower
    rw [dif_pos ⟨UInt32.le_iff_toNat_le.mpr hc.1, UInt32.le_iff_toNat_le.mpr hc.2⟩]
    have hval : c.val.toNat = c.toNat := rfl
    show 90 < (c.val + 32).toNat
    rw [UInt32.toNat_add]
    have hadd : (32 : UInt32).toNat = 32 := rfl
    omega
  · have hself : c.toLower = c := toLower_eq_self (by omega)
    rw [hself, hself]

theorem lowerHex_isHexDigit (h : lowerHex c = true) : isHexDigit c = true := by
  simp [lowerHex] at h
  simp [isHexDigit]
  exact .inl h

end

variable {s : String}

theorem trimSpace_eq (h : ∀ c ∈ s.toList, isSpace c = false) : trimSpace s = s := by
  have hkeep : ∀ l : List Char, (∀ c ∈ l, isSpace c = false) → l.dropWhile isSpace = l := by
    intro l hl
    cases l with
    | nil => rfl
    | cons c => rw [List.dropWhile_cons_of_neg (by simp [hl c])]
  unfold trimSpace
  rw [hkeep _ h, hkeep _ fun c hc => h c (List.mem_reverse.mp hc), List.reverse_reverse, String.ofList_toList]

theorem lower_eq (h : ∀ c ∈ s.toList, lowerHex c = true) : Engine.lower s = s := by
  unfold Engine.lower
  have hmap : s.toList.map Char.toLower = s.toList.map id := List.map_congr_left fun c hc => lowerHex_toLower (h c hc)
  rw [hmap, List.map_id, String.ofList_toList]

theorem equalFold_lower (s : String) : equalFold (Engine.lower s) s = true := by
  unfold equalFold Engine.lower
  simp [toLower_toLower]

theorem trimSpace_hexEncode (bs : List UInt8) : trimSpace (hexEncode bs) = hexEncode bs :=
  trimSpace_eq fun c hc => lowerHex_not_space (lowerHex_hexEncode bs c hc)

theorem hexEncode_ne_empty {bs : List UInt8} (h : bs ≠ []) : hexEncode bs ≠ "" := by
  intro he
  have hlen := length_hexEncode bs
  rw [he] at hlen
  cases bs with
  | nil => exact h rfl
  | cons => simp at hlen

theorem validHash_credentialHash (H : Sha256) (credential : String) :
    Engine.validHash (credentialHash H credential) = true := by
  simp [Engine.validHash]
  refine ⟨?_, fun c hc => lowerHex_isHexDigit (lowerHex_hexEncode _ c hc)⟩
  rw [credentialHash, length_hexEncode]
  simp

theorem lower_credentialHash (H : Sha256) (credential : String) :
    Engine.lower (credentialHash H credential) = credentialHash H credential :=
  lower_eq (lowerHex_hexEncode _)

/-! ## Records -/

theorem Node.load_save (n : Node) (r : TransferRecord) (id : String) (d : Direction) :
    (n.save r).load id d = if r.migrationID = id ∧ r.direction = d then some r else n.load id d := by
  simp only [Node.load, Node.save, List.find?_append, deleteWhere, List.find?_filter]
  by_cases h : r.migrationID = id ∧ r.direction = d
  · obtain ⟨rfl, rfl⟩ := h
    have hnone : n.records.find? (fun _ => false) = none := by simp [List.find?_eq_none]
    have hkey : Node.hasKey r.migrationID r.direction r = true := by simp [Node.hasKey]
    simp [hnone, hkey]
  · have hkey : Node.hasKey id d r = false := by simpa [Node.hasKey] using h
    rw [if_neg h, List.find?_cons_of_neg (by simp [hkey]), List.find?_nil, Option.or_none]
    congr 1
    funext x
    -- a row with the wanted key is none of those replaced
    cases hx : Node.hasKey id d x with
    | false => simp
    | true =>
      have hother : Node.hasKey r.migrationID r.direction x = false := by
        simp [Node.hasKey] at hx
        obtain ⟨rfl, rfl⟩ := hx
        simp [Node.hasKey]
        by_contra hc
        push Not at hc
        exact h ⟨hc.1.symm, hc.2.symm⟩
      simp [hother]

namespace Engine

section
variable {H : Sha256} {now : Nat} {n : Node} {c : TransferCredentialClaims} {credential : String} {r : TransferRecord}
variable {d : Direction} {id : String}

def Bound (r : TransferRecord) (c : TransferCredentialClaims) : Prop :=
  r.version = c.version ∧ r.serverID = c.serverID ∧ r.sourceNodeID = c.sourceNodeID ∧ r.targetNodeID = c.targetNodeID

def registered (n : Node) (c : TransferCredentialClaims) (hash : String) : TransferRecord :=
  match n.load c.migrationID c.direction with
  | some r => { r with credentialHash := hash, expiresAt := c.expiresAt, consumed := false }
  | none => {
      version := transferProtocolVersion, migrationID := c.migrationID, serverID := c.serverID
      sourceNodeID := c.sourceNodeID, targetNodeID := c.targetNodeID, direction := c.direction
      credentialHash := hash, expiresAt := c.expiresAt }

theorem load_key (h : n.load id d = some r) : r.migrationID = id ∧ r.direction = d := by
  have hkey := List.find?_some h
  simpa [Node.hasKey] using hkey

theorem registered_key (hash : String) : (registered n c hash).migrationID = c.migrationID ∧
    (registered n c hash).direction = c.direction := by
  unfold registered
  split
  · rename_i r hr
    have hkey := load_key hr
    exact hkey
  · exact ⟨rfl, rfl⟩

theorem load_registered (n : Node) (c : TransferCredentialClaims) (hash : String) (d : Direction) :
    (n.save (registered n c hash)).load c.migrationID d =
      if c.direction = d then some (registered n c hash) else n.load c.migrationID d := by
  obtain ⟨hid, hd⟩ := @registered_key n c hash
  rw [Node.load_save, hid, hd]
  simp

theorem register_eq (hclaims : validateClaims c = .ok ()) (hlive : now ≤ c.expiresAt)
    (hbound : ∀ r, n.load c.migrationID c.direction = some r → Bound r c) :
    register now n ⟨c, credentialHash H credential⟩ =
      (.ok (), n.save (registered n c (credentialHash H credential))) := by
  simp [register, hclaims, validHash_credentialHash, lower_credentialHash, Nat.not_lt.mpr hlive]
  cases hl : n.load c.migrationID c.direction with
  | none => simp [registered, hl]
  | some r =>
    obtain ⟨hv, hs, ha, hb⟩ := hbound r hl
    simp [registered, hl, hv, hs, ha, hb]

theorem authorize_eq (hload : n.load id d = some r)
    (hversion : r.version = transferProtocolVersion) (hfresh : r.consumed = false) (hlive : now < r.expiresAt)
    (hhash : r.credentialHash = credentialHash H credential) : authorize H now n id d credential = .ok r := by
  simp [authorize, hload]
  simp [hversion, hfresh, Nat.not_le.mpr hlive, hhash]

theorem registered_version (hversion : c.version = transferProtocolVersion) (hash : String)
    (hbound : ∀ r, n.load c.migrationID c.direction = some r → Bound r c) :
    (registered n c hash).version = transferProtocolVersion := by
  unfold registered
  split
  · rename_i r hr
    exact (hbound r hr).1.trans hversion
  · rfl

theorem registered_opens (hash : String) : (registered n c hash).consumed = false ∧
    (registered n c hash).expiresAt = c.expiresAt ∧ (registered n c hash).credentialHash = hash := by
  unfold registered
  split <;> exact ⟨rfl, rfl, rfl⟩

end

end Engine

end ForgePlane
