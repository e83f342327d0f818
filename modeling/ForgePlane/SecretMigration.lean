import ForgePlane.Keyring
import Mathlib.Data.List.Forall2

/-!
# Encrypting the stored secrets

`migrateOperationalSecrets` goes through a list of column pairs in one transaction, encrypts the plaintext it
finds and encrypts anew what an earlier key has sealed; `restoreOperationalSecrets` puts the plaintext back.
-/

namespace ForgePlane.SecretMigration

open Keyrings List

/-! ## The database -/

inductive Table
  | nodes
  | databaseHosts
  | serverDatabases
  | users
  | webhooks
  | webhookDeliveries
  | panelSettings
  | panelMailSettings
  | panelAdvancedSettings
  deriving DecidableEq, Repr

inductive Column
  | daemonToken
  | password
  | totpSecret
  | secret
  | smtpPassword
  | recaptchaSecretKey
  | s3SecretAccessKey
  deriving DecidableEq, Repr

inductive Item
  | discordWebhookUrl
  | slackWebhookUrl
  | telegramBotToken
  deriving DecidableEq, Repr

def Table.text : Table → String
  | .nodes => "nodes"
  | .databaseHosts => "database_hosts"
  | .serverDatabases => "server_databases"
  | .users => "users"
  | .webhooks => "webhooks"
  | .webhookDeliveries => "webhook_deliveries"
  | .panelSettings => "panel_settings"
  | .panelMailSettings => "panel_mail_settings"
  | .panelAdvancedSettings => "panel_advanced_settings"

def Column.text : Column → String
  | .daemonToken => "daemon_token"
  | .password => "password"
  | .totpSecret => "totp_secret"
  | .secret => "secret"
  | .smtpPassword => "smtp_password"
  | .recaptchaSecretKey => "recaptcha_secret_key"
  | .s3SecretAccessKey => "s3_secret_access_key"

def Item.text : Item → String
  | .discordWebhookUrl => "discordWebhookUrl"
  | .slackWebhookUrl => "slackWebhookUrl"
  | .telegramBotToken => "telegramBotToken"

def Table.columns : Table → List Column
  | .nodes => [.daemonToken]
  | .databaseHosts => [.password]
  | .serverDatabases => [.password]
  | .users => [.totpSecret]
  | .webhooks => [.secret]
  | .webhookDeliveries => [.secret]
  | .panelSettings => [.smtpPassword, .recaptchaSecretKey, .s3SecretAccessKey]
  | .panelMailSettings => [.smtpPassword]
  | .panelAdvancedSettings => [.recaptchaSecretKey]

def fields : List (Table × Column) :=
  [(.nodes, .daemonToken), (.databaseHosts, .password), (.serverDatabases, .password), (.users, .totpSecret),
    (.webhooks, .secret), (.webhookDeliveries, .secret), (.panelSettings, .smtpPassword),
    (.panelSettings, .recaptchaSecretKey), (.panelMailSettings, .smtpPassword),
    (.panelAdvancedSettings, .recaptchaSecretKey)]

@[ext] structure Pair where
  plain : Bytes := []
  enc : Text := []
  deriving DecidableEq, Repr

/-- A row's secrets; `tokenHash` is read of nodes only and `legacy` of the panel's settings only. -/
@[ext] structure Row where
  id : Text
  pair : Column → Pair := fun _ => {}
  tokenHash : Text := []
  legacy : Item → Bytes := fun _ => []

@[ext] structure Expanded where
  json : Item → Bytes := fun _ => []
  enc : Item → Text := fun _ => []

@[ext] structure RecoveryToken where
  id : Text
  token : Bytes
  tokenHash : Text

@[ext] structure Db where
  rows : Table → List Row := fun _ => []
  expanded : Option Expanded := none
  tokens : List RecoveryToken := []

def Row.set (r : Row) (c : Column) (p : Pair) : Row :=
  { r with pair := fun c' => if c' = c then p else r.pair c' }

def Db.setRows (db : Db) (t : Table) (rows : List Row) : Db :=
  { db with rows := fun t' => if t' = t then rows else db.rows t' }

def trueText : Text := ['t', 'r', 'u', 'e']

def Db.settings (db : Db) : Option Row :=
  (db.rows .panelSettings).find? fun r => decide (r.id = trueText)

inductive Statement
  | start
  | select (t : Table) (c : Column)
  | update (t : Table) (c : Column) (id : Text)
  | selectVerifiers
  | updateVerifier (id : Text)
  | selectExpanded
  | updateExpanded
  | updateLegacy
  | selectTokens
  | updateToken (id : Text)
  | commit
  deriving DecidableEq, Repr

/-- What a run meets: the nonces and hashes it is given, and what the database answers. -/
structure Luck where
  nonce : Table → Column → Text → Except Err Nonce
  itemNonce : Item → Except Err Nonce
  bcrypt : Statement → Bytes → Except Err Text
  hashed : ∀ st password hash, bcrypt st password = .ok hash → ['$', '2'] <+: hash
  answer : Statement → Except Err Unit

structure Store where
  gcm : GCM
  ring : Keyring

def Store.rotates (s : Store) (envelope : Text) : Bool :=
  needsRotation (some s.ring) envelope

def encryptSecret (s : Store) (nonce : Except Err Nonce) (plaintext : Bytes) (aad : Text) : Except Err Text :=
  if plaintext = [] then .ok [] else encrypt s.gcm (some s.ring) nonce plaintext aad

def decryptSecret (s : Store) (envelope : Text) (plaintext : Bytes) (aad : Text) : Except Err Bytes :=
  if envelope = [] then .ok plaintext
  else (decrypt s.gcm (some s.ring) envelope aad).mapError fun e => s!"decrypt stored secret: {e}"

def secretAAD (table : String) (id : Text) (field : String) : Text :=
  table.toList ++ ':' :: (id ++ ':' :: field.toList)

def itemAAD (item : Item) : Text :=
  secretAAD "panel_settings_expanded" trueText item.text

/-! ## The migration -/

/-- The ciphertext of a secret: the stored one, unless there is none or an earlier key sealed it. -/
def reseal (s : Store) (nonce : Except Err Nonce) (aad : Text) (secret : Bytes) (stored : Text) : Except Err Text :=
  if stored = [] ∨ s.rotates stored = true then encryptSecret s nonce secret aad else .ok stored

section
variable (s : Store) (l : Luck)

def migratePair (t : Table) (c : Column) (id : Text) (p : Pair) : Except Err Pair := do
  let aad := secretAAD t.text id c.text
  let secret ←
    (if p.enc ≠ [] then (decryptSecret s p.enc [] aad).mapError fun e => s!"migrate {t.text} secret: {e}"
    else .ok p.plain)
  if secret = [] then .ok p
  else do
    let enc ← reseal s (l.nonce t c id) aad secret p.enc
    (l.answer (.update t c id)).mapError fun e => s!"persist {t.text} encrypted secret: {e}"
    .ok { plain := [], enc := enc }

def overField (select : Except Err Unit) (f : Table → Column → Text → Pair → Except Err Pair) (db : Db)
    (field : Table × Column) : Except Err Db := do
  select
  let rows ← (db.rows field.1).mapM fun r => do
    let p ← f field.1 field.2 r.id (r.pair field.2)
    .ok (r.set field.2 p)
  .ok (db.setRows field.1 rows)

def migrateFields (db : Db) : Except Err Db :=
  fields.foldlM (fun db field =>
    overField ((l.answer (.select field.1 field.2)).mapError fun e => s!"scan {field.1.text} secret rows: {e}")
      (migratePair s l) db field) db

def migrateVerifier (r : Row) : Except Err Row :=
  if ['$', '2'] <+: r.tokenHash ∨ (r.pair .daemonToken).enc = [] then .ok r
  else do
    let secret ← decryptSecret s (r.pair .daemonToken).enc [] (secretAAD "nodes" r.id "daemon_token")
    let hash ← l.bcrypt (.updateVerifier r.id) secret
    l.answer (.updateVerifier r.id)
    .ok { r with tokenHash := hash }

def migrateLegacyNodeVerifier (db : Db) : Except Err Db := do
  l.answer .selectVerifiers
  let rows ← (db.rows .nodes).mapM (migrateVerifier s l)
  .ok (db.setRows .nodes rows)

def itemPlain (json legacy : Bytes) : Bytes :=
  if json = [] then legacy else json

def migrateItem (item : Item) (plain : Bytes) (stored : Text) : Except Err Text := do
  let plain ← (if stored ≠ [] then decryptSecret s stored [] (itemAAD item) else .ok plain)
  if plain = [] then .ok stored
  else reseal s (l.itemNonce item) (itemAAD item) plain stored

def Db.setLegacy (db : Db) (legacy : Item → Bytes) : Db :=
  db.setRows .panelSettings
    ((db.rows .panelSettings).map fun r => if r.id = trueText then { r with legacy := legacy } else r)

def migrateExpandedSettingsSecrets (db : Db) : Except Err Db := do
  l.answer .selectExpanded
  match db.expanded, db.settings with
  | some e, some p => do
    let discord ← migrateItem s l .discordWebhookUrl (itemPlain (e.json .discordWebhookUrl) (p.legacy .discordWebhookUrl)) (e.enc .discordWebhookUrl)
    let slack ← migrateItem s l .slackWebhookUrl (itemPlain (e.json .slackWebhookUrl) (p.legacy .slackWebhookUrl)) (e.enc .slackWebhookUrl)
    let telegram ← migrateItem s l .telegramBotToken (itemPlain (e.json .telegramBotToken) (p.legacy .telegramBotToken)) (e.enc .telegramBotToken)
    l.answer .updateExpanded
    l.answer .updateLegacy
    let enc : Item → Text
      | .discordWebhookUrl => discord
      | .slackWebhookUrl => slack
      | .telegramBotToken => telegram
    .ok { db.setLegacy (fun _ => []) with expanded := some { json := fun _ => [], enc := enc } }
  -- the join of the two settings rows is empty
  | _, _ => .ok db

def migrateRecoveryCode (t : RecoveryToken) : Except Err RecoveryToken :=
  if t.tokenHash ≠ [] ∨ t.token = [] then .ok t
  else do
    let hash ← l.bcrypt (.updateToken t.id) t.token
    l.answer (.updateToken t.id)
    .ok { t with token := [], tokenHash := hash }

def migrateRecoveryCodeHashes (db : Db) : Except Err Db := do
  l.answer .selectTokens
  let tokens ← db.tokens.mapM (migrateRecoveryCode l)
  .ok { db with tokens := tokens }

def migrate (db : Db) : Except Err Db := do
  l.answer .start
  let db ← migrateFields s l db
  let db ← migrateLegacyNodeVerifier s l db
  let db ← migrateExpandedSettingsSecrets s l db
  let db ← migrateRecoveryCodeHashes l db
  l.answer .commit
  .ok db

/-! ## The restoration -/

def restorePair (t : Table) (c : Column) (id : Text) (p : Pair) : Except Err Pair :=
  if p.enc = [] then .ok p
  else do
    let plaintext ← decryptSecret s p.enc [] (secretAAD t.text id c.text)
    l.answer (.update t c id)
    .ok { p with plain := plaintext }

def restoreItem (item : Item) (json : Bytes) (envelope : Text) : Except Err Bytes :=
  if envelope ≠ [] then decryptSecret s envelope [] (itemAAD item) else .ok json

def restoreExpandedSettings (db : Db) : Except Err Db := do
  -- an error of this statement is not returned, but then the transaction cannot commit
  l.answer .selectExpanded
  match db.expanded with
  | none => .ok db
  | some e => do
    let discord ← restoreItem s .discordWebhookUrl (e.json .discordWebhookUrl) (e.enc .discordWebhookUrl)
    let slack ← restoreItem s .slackWebhookUrl (e.json .slackWebhookUrl) (e.enc .slackWebhookUrl)
    let telegram ← restoreItem s .telegramBotToken (e.json .telegramBotToken) (e.enc .telegramBotToken)
    l.answer .updateExpanded
    l.answer .updateLegacy
    let json : Item → Bytes
      | .discordWebhookUrl => discord
      | .slackWebhookUrl => slack
      | .telegramBotToken => telegram
    .ok { db.setLegacy json with expanded := some { e with json := json } }

def restore (db : Db) : Except Err Db := do
  l.answer .start
  let db ← fields.foldlM (fun db field => overField (l.answer (.select field.1 field.2)) (restorePair s l) db field) db
  let db ← restoreExpandedSettings s l db
  l.answer .commit
  .ok db

def committed (db : Db) : Except Err Db → Option Err × Db
  | .ok db' => (none, db')
  | .error e => (some e, db)

def migrateOperationalSecrets (db : Db) : Option Err × Db :=
  committed db (migrate s l db)

def restoreOperationalSecrets (db : Db) : Option Err × Db :=
  committed db (restore s l db)

end

/-! ## What is kept -/

def Db.itemPair (db : Db) (item : Item) : Pair where
  plain := itemPlain ((db.expanded.map (·.json item)).getD []) ((db.settings.map (·.legacy item)).getD [])
  enc := (db.expanded.map (·.enc item)).getD []

def Pair.value (s : Store) (aad : Text) (p : Pair) : Except Err Bytes :=
  decryptSecret s p.enc p.plain aad

def Clean (s : Store) (p : Pair) : Prop :=
  p.plain = [] ∧ (p.enc = [] ∨ s.rotates p.enc = false)

def HeldPair (s : Store) (aad : Text) (p : Pair) : Prop :=
  p.enc = [] ∨ p.plain = [] ∧ ∃ secret, p.value s aad = .ok secret

structure Held (s : Store) (db : Db) : Prop where
  pairs : ∀ t, ∀ r ∈ db.rows t, ∀ c ∈ t.columns, HeldPair s (secretAAD t.text r.id c.text) (r.pair c)
  items : ∀ item, HeldPair s (itemAAD item) (db.itemPair item)

structure SameValues (s : Store) (db db' : Db) : Prop where
  pairs : ∀ t, List.Forall₂ (fun r r' => ∀ c ∈ t.columns,
    (r'.pair c).value s (secretAAD t.text r'.id c.text) = (r.pair c).value s (secretAAD t.text r.id c.text))
    (db.rows t) (db'.rows t)
  items : ∀ item, (db'.itemPair item).value s (itemAAD item) = (db.itemPair item).value s (itemAAD item)

structure AllClean (s : Store) (db : Db) : Prop where
  pairs : ∀ t, ∀ r ∈ db.rows t, ∀ c ∈ t.columns, Clean s (r.pair c)
  items : ∀ item, Clean s (db.itemPair item)

section
variable {α β : Type} {s : Store} {l : Luck} {aad : Text} {p p' : Pair}

variable {x : Except Err α} {nonce : Except Err Nonce} {secret : Bytes} {enc id : Text} {t : Table} {c : Column}

theorem bind_ok {f : α → Except Err β} {b : β} (h : (x >>= f) = .ok b) : ∃ a, x = .ok a ∧ f a = .ok b := by
  cases x with
  | error => cases h
  | ok a => exact ⟨a, rfl, h⟩

theorem mapError_eq_ok {f : Err → Err} {a : α} : x.mapError f = .ok a ↔ x = .ok a := by
  cases x with
  | error => exact ⟨nofun, nofun⟩
  | ok => exact Iff.rfl

theorem value_of_plain (h : p.enc = []) : p.value s aad = .ok p.plain := if_pos h

theorem value_of_enc (h : p.enc ≠ []) (plain : Bytes) : p.value s aad = decryptSecret s p.enc plain aad := by
  simp [Pair.value, decryptSecret, if_neg h]

structure Sealed (s : Store) (aad : Text) (secret : Bytes) (enc : Text) : Prop where
  nonempty : enc ≠ []
  opens : decryptSecret s enc [] aad = .ok secret
  current : s.rotates enc = false

theorem encryptSecret_sealed (hsecret : secret ≠ [])
    (h : encryptSecret s nonce secret aad = .ok enc) : Sealed s aad secret enc := by
  rw [encryptSecret, if_neg hsecret] at h
  cases nonce with
  | error =>
    obtain ⟨key, hkey⟩ := Option.isSome_iff_exists.mp s.ring.active
    simp only [encrypt, hkey] at h
    cases h
  | ok nonce =>
    obtain ⟨key, hkey, henc⟩ := encrypt_eq s.gcm s.ring nonce secret aad
    cases henc.symm.trans h
    have hne : envelope s.gcm s.ring key nonce secret aad ≠ [] :=
      append_ne_nil_of_left_ne_nil (cons_ne_nil _ _) _
    refine ⟨hne, ?_, (needsRotation_envelope key).mpr rfl⟩
    rw [decryptSecret, if_neg hne, decrypt_envelope hkey, s.gcm.correct]
    rfl

def Resealed (s : Store) (aad : Text) (p p' : Pair) : Prop :=
  ∃ secret, p.value s aad = .ok secret ∧
    (secret = [] ∧ p'.enc = p.enc ∧ (p'.plain = p.plain ∨ p'.plain = []) ∨
      secret ≠ [] ∧ p'.plain = [] ∧ Sealed s aad secret p'.enc ∧
        (p.enc ≠ [] → s.rotates p.enc = false → p'.enc = p.enc))

theorem reseal_sealed (hsecret : secret ≠ [])
    (hvalue : p.value s aad = .ok secret) (h : reseal s nonce aad secret p.enc = .ok enc) :
    Sealed s aad secret enc ∧ (p.enc ≠ [] → s.rotates p.enc = false → enc = p.enc) := by
  unfold reseal at h
  split at h
  case isTrue hstale =>
    refine ⟨encryptSecret_sealed hsecret h, fun hne hcurrent => ?_⟩
    rcases hstale with he | hrot
    · exact absurd he hne
    · rw [hcurrent] at hrot
      cases hrot
  case isFalse hfresh =>
    cases h
    obtain ⟨hne, hcurrent⟩ := not_or.mp hfresh
    rw [value_of_enc hne []] at hvalue
    exact ⟨⟨hne, hvalue, Bool.eq_false_of_not_eq_true hcurrent⟩, fun _ _ => rfl⟩

theorem read_eq_value (p : Pair) (s : Store) (aad : Text) :
    (if p.enc ≠ [] then decryptSecret s p.enc [] aad else .ok p.plain) = p.value s aad := by
  by_cases h : p.enc = []
  · rw [if_neg (not_not.mpr h), value_of_plain h]
  · rw [if_pos h, value_of_enc h]

theorem migratePair_resealed (h : migratePair s l t c id p = .ok p') :
    Resealed s (secretAAD t.text id c.text) p p' := by
  unfold migratePair at h
  obtain ⟨secret, hsecret, h⟩ := bind_ok h
  have hvalue : p.value s (secretAAD t.text id c.text) = .ok secret := by
    rw [← read_eq_value]
    split at hsecret
    · rw [if_pos ‹_›]
      exact mapError_eq_ok.mp hsecret
    · rw [if_neg ‹_›]
      exact hsecret
  refine ⟨secret, hvalue, ?_⟩
  split at h
  case isTrue he =>
    cases h
    exact .inl ⟨he, rfl, .inl rfl⟩
  case isFalse hne =>
    obtain ⟨enc, henc, h⟩ := bind_ok h
    obtain ⟨-, -, h⟩ := bind_ok h
    cases h
    obtain ⟨hsealed, hkept⟩ := reseal_sealed hne hvalue henc
    exact .inr ⟨hne, rfl, hsealed, hkept⟩

theorem migrateItem_resealed {item : Item} (h : migrateItem s l item p.plain p.enc = .ok enc) :
    Resealed s (itemAAD item) p ⟨[], enc⟩ := by
  unfold migrateItem at h
  obtain ⟨secret, hsecret, h⟩ := bind_ok h
  have hvalue := (read_eq_value p s (itemAAD item)).symm.trans hsecret
  refine ⟨secret, hvalue, ?_⟩
  split at h
  case isTrue he =>
    cases h
    exact .inl ⟨he, rfl, .inr rfl⟩
  case isFalse hne =>
    obtain ⟨hsealed, hkept⟩ := reseal_sealed hne hvalue h
    exact .inr ⟨hne, rfl, hsealed, hkept⟩

theorem Resealed.value_eq (h : Resealed s aad p p') : p'.value s aad = p.value s aad := by
  obtain ⟨secret, hvalue, ⟨rfl, henc, hplain⟩ | ⟨-, -, hsealed, -⟩⟩ := h
  · by_cases he : p.enc = []
    · -- there is no plaintext either
      rw [value_of_plain he] at hvalue
      have hp : p.plain = [] := Except.ok.inj hvalue
      have hp' : p'.plain = [] := hplain.elim (·.trans hp) id
      rw [value_of_plain he, value_of_plain (henc.trans he), hp, hp']
    · rw [value_of_enc he [], value_of_enc (henc ▸ he) [], henc]
  · rw [hvalue, value_of_enc hsealed.nonempty [], hsealed.opens]

def Blank (s : Store) (aad : Text) (p : Pair) : Prop :=
  p.enc ≠ [] ∧ p.value s aad = .ok [] ∧ s.rotates p.enc = true

theorem Resealed.plain_nil (h : Resealed s aad p p') (hp : HeldPair s aad p) : p'.plain = [] := by
  obtain ⟨secret, hvalue, ⟨rfl, -, hplain⟩ | ⟨-, hplain, -⟩⟩ := h
  · rcases hp with he | ⟨hp, -⟩
    · rw [value_of_plain he] at hvalue
      exact hplain.elim (·.trans (Except.ok.inj hvalue)) id
    · exact hplain.elim (·.trans hp) id
  · exact hplain

theorem Resealed.clean_iff (h : Resealed s aad p p') (hp : HeldPair s aad p) : Clean s p' ↔ ¬ Blank s aad p := by
  have hempty := h.plain_nil hp
  obtain ⟨secret, hvalue, ⟨rfl, henc, -⟩ | ⟨hne, -, hsealed, -⟩⟩ := h
  · simp [Clean, Blank, hempty, henc, hvalue]
    exact ⟨fun h hne => h.resolve_left hne, fun h => or_iff_not_imp_left.mpr h⟩
  · refine ⟨fun _ hblank => ?_, fun _ => ⟨hempty, .inr hsealed.current⟩⟩
    exact hne (Except.ok.inj (hvalue.symm.trans hblank.2.1))

def Stable (s : Store) (aad : Text) (p : Pair) : Prop :=
  p.plain = [] ∧ ∃ secret, p.value s aad = .ok secret ∧ (secret = [] ∨ p.enc ≠ [] ∧ s.rotates p.enc = false)

theorem Resealed.stable (h : Resealed s aad p p') (hp : HeldPair s aad p) : Stable s aad p' := by
  have hvalue' := h.value_eq
  refine ⟨h.plain_nil hp, ?_⟩
  obtain ⟨secret, hvalue, ⟨rfl, -⟩ | ⟨-, -, hsealed, -⟩⟩ := h
  · exact ⟨[], hvalue'.trans hvalue, .inl rfl⟩
  · exact ⟨secret, hvalue'.trans hvalue, .inr ⟨hsealed.nonempty, hsealed.current⟩⟩

theorem Stable.eq (hp : Stable s aad p) (h : Resealed s aad p p') : p' = p := by
  obtain ⟨hempty, secret, hvalue, hkept⟩ := hp
  obtain ⟨secret', hvalue', ⟨-, henc, hplain⟩ | ⟨hne, hplain, -, hsame⟩⟩ := h
  · exact Pair.ext (hplain.elim id (·.trans hempty.symm)) henc
  · cases hvalue.symm.trans hvalue'
    obtain ⟨hstored, hcurrent⟩ := hkept.resolve_left hne
    exact Pair.ext (hplain.trans hempty.symm) (hsame hstored hcurrent)

def RestoredPair (s : Store) (aad : Text) (p p' : Pair) : Prop :=
  p'.enc = p.enc ∧ p.value s aad = .ok p'.plain

theorem restorePair_restored (h : restorePair s l t c id p = .ok p') :
    RestoredPair s (secretAAD t.text id c.text) p p' := by
  unfold restorePair at h
  split at h
  case isTrue he =>
    cases h
    exact ⟨rfl, value_of_plain he⟩
  case isFalse hne =>
    obtain ⟨plaintext, hplain, h⟩ := bind_ok h
    obtain ⟨-, -, h⟩ := bind_ok h
    cases h
    exact ⟨rfl, (value_of_enc hne []).trans hplain⟩

theorem RestoredPair.value_eq (h : RestoredPair s aad p p') : p'.value s aad = p.value s aad := by
  by_cases he : p.enc = []
  · rw [h.2, value_of_plain (h.1.trans he)]
  · rw [value_of_enc he [], value_of_enc (h.1 ▸ he) [], h.1]

end

/-! ## Row by row -/

section
variable {α β γ : Type} {xs : List α} {ys : List β} {zs : List γ}
variable {R : α → β → Prop} {db db' : Db}

theorem mapM_forall₂ {f : α → Except Err β} : ∀ {xs : List α} {ys : List β},
    xs.mapM f = .ok ys → List.Forall₂ (fun x y => f x = .ok y) xs ys
  | [], _, h => by
    cases h
    exact .nil
  | x :: xs, _, h => by
    rw [mapM_cons] at h
    obtain ⟨y, hy, h⟩ := bind_ok h
    obtain ⟨ys, hys, h⟩ := bind_ok h
    cases h
    exact .cons hy (mapM_forall₂ hys)

theorem forall₂_trans {S : β → γ → Prop} {T : α → γ → Prop} (hT : ∀ x y z, R x y → S y z → T x z)
    (h : List.Forall₂ R xs ys) (h' : List.Forall₂ S ys zs) : List.Forall₂ T xs zs := by
  induction h generalizing zs with
  | nil =>
    cases h'
    exact .nil
  | cons hxy _ ih =>
    cases h' with
    | cons hyz h' => exact .cons (hT _ _ _ hxy hyz) (ih h')

theorem exists_of_mem_right {y : β} (h : List.Forall₂ R xs ys) (hy : y ∈ ys) : ∃ x ∈ xs, R x y := by
  induction h with
  | nil => cases hy
  | @cons x _ _ _ hxy _ ih =>
    rcases mem_cons.mp hy with rfl | hy
    · exact ⟨x, mem_cons_self, hxy⟩
    · obtain ⟨x, hx, hxy⟩ := ih hy
      exact ⟨x, mem_cons_of_mem _ hx, hxy⟩

theorem exists_of_mem_left {x : α} (h : List.Forall₂ R xs ys) (hx : x ∈ xs) : ∃ y ∈ ys, R x y :=
  exists_of_mem_right h.flip hx

theorem forall₂_eq {R : α → α → Prop} {ys : List α} (h : List.Forall₂ R xs ys) (heq : ∀ x ∈ xs, ∀ y, R x y → y = x) :
    ys = xs := by
  induction h with
  | nil => rfl
  | cons hxy _ ih =>
    rw [heq _ mem_cons_self _ hxy, ih fun x hx => heq x (mem_cons_of_mem _ hx)]

theorem settings_rel {R : Row → Row → Prop} (h : List.Forall₂ R (db.rows .panelSettings) (db'.rows .panelSettings))
    (hid : ∀ r r', R r r' → r'.id = r.id) :
    db.settings = none ∧ db'.settings = none ∨
      ∃ r r', db.settings = some r ∧ db'.settings = some r' ∧ R r r' ∧ r.id = trueText := by
  unfold Db.settings
  generalize db.rows .panelSettings = rows, db'.rows .panelSettings = rows' at h ⊢
  induction h with
  | nil => exact .inl ⟨rfl, rfl⟩
  | @cons r r' _ _ hr _ ih =>
    by_cases he : r.id = trueText
    · refine .inr ⟨r, r', ?_, ?_, hr, he⟩
      · exact List.find?_cons_of_pos (decide_eq_true he)
      · exact List.find?_cons_of_pos (decide_eq_true ((hid _ _ hr).trans he))
    · have he' : ¬ r'.id = trueText := fun h => he ((hid _ _ hr).symm.trans h)
      rw [List.find?_cons_of_neg (by simpa using he), List.find?_cons_of_neg (by simpa using he')]
      exact ih

end

structure RowWorked (P : Text → Pair → Pair → Prop) (fs : List (Table × Column)) (t : Table) (r r' : Row) : Prop where
  id : r'.id = r.id
  tokenHash : r'.tokenHash = r.tokenHash
  legacy : r'.legacy = r.legacy
  listed : ∀ c, (t, c) ∈ fs → P (secretAAD t.text r.id c.text) (r.pair c) (r'.pair c)
  others : ∀ c, (t, c) ∉ fs → r'.pair c = r.pair c

structure Worked (P : Text → Pair → Pair → Prop) (fs : List (Table × Column)) (db db' : Db) : Prop where
  rows : ∀ t, List.Forall₂ (RowWorked P fs t) (db.rows t) (db'.rows t)
  expanded : db'.expanded = db.expanded
  tokens : db'.tokens = db.tokens

section
variable {P : Text → Pair → Pair → Prop} {g : Table → Column → Text → Pair → Except Err Pair} {db db₁ db' : Db}
  {fs : List (Table × Column)} {f : Table × Column}

theorem RowWorked.refl {t : Table} (r : Row) (h : ∀ c, (t, c) ∉ fs) : RowWorked P fs t r r :=
  ⟨rfl, rfl, rfl, fun c hc => absurd hc (h c), fun _ _ => rfl⟩

theorem overField_worked (hg : ∀ t c id p p', g t c id p = .ok p' → P (secretAAD t.text id c.text) p p')
    {select : Except Err Unit} (h : overField select g db f = .ok db') : Worked P [f] db db' := by
  unfold overField at h
  obtain ⟨-, -, h⟩ := bind_ok h
  obtain ⟨rows, hrows, h⟩ := bind_ok h
  cases h
  refine ⟨fun t => ?_, rfl, rfl⟩
  simp [Db.setRows]
  split
  case isTrue ht =>
    subst ht
    refine (mapM_forall₂ hrows).imp fun r r' hr => ?_
    obtain ⟨p, hp, hr⟩ := bind_ok hr
    cases hr
    refine ⟨rfl, rfl, rfl, fun c hc => ?_, fun c hc => ?_⟩
    · have hc : c = f.2 := congrArg Prod.snd (mem_singleton.mp hc)
      subst hc
      simp [Row.set]
      exact hg _ _ _ _ _ hp
    · exact if_neg fun hc' => hc (mem_singleton.mpr (Prod.ext rfl hc'))
  case isFalse ht =>
    refine forall₂_same.mpr fun r _ => RowWorked.refl r fun c hc => ht ?_
    exact congrArg Prod.fst (mem_singleton.mp hc)

theorem Worked.cons (h : Worked P [f] db db₁) (h' : Worked P fs db₁ db') (hf : f ∉ fs) : Worked P (f :: fs) db db' := by
  refine ⟨fun t => ?_, h'.expanded.trans h.expanded, h'.tokens.trans h.tokens⟩
  refine forall₂_trans (fun r r₁ r' hr hr' => ?_) (h.rows t) (h'.rows t)
  refine ⟨hr'.id.trans hr.id, hr'.tokenHash.trans hr.tokenHash, hr'.legacy.trans hr.legacy, fun c hc => ?_, fun c hc => ?_⟩
  · rcases mem_cons.mp hc with he | hc
    · rw [hr'.others c (he ▸ hf)]
      exact hr.listed c (mem_singleton.mpr he)
    · have hne : (t, c) ≠ f := fun he => hf (he ▸ hc)
      have hstep := hr'.listed c hc
      rwa [hr.id, hr.others c (fun hc => hne (mem_singleton.mp hc))] at hstep
  · obtain ⟨hne, hfs⟩ := not_or.mp (mem_cons.not.mp hc)
    rw [hr'.others c hfs, hr.others c (fun hc => hne (mem_singleton.mp hc))]

theorem foldlM_worked (hg : ∀ t c id p p', g t c id p = .ok p' → P (secretAAD t.text id c.text) p p')
    {select : Table × Column → Except Err Unit} : ∀ {fs : List (Table × Column)} {db : Db}, fs.Nodup →
    fs.foldlM (fun db field => overField (select field) g db field) db = .ok db' → Worked P fs db db'
  | [], db, _, h => by
    cases h
    exact ⟨fun t => forall₂_same.mpr fun r _ => RowWorked.refl r fun _ => not_mem_nil, rfl, rfl⟩
  | f :: fs, db, hnd, h => by
    obtain ⟨db₁, h₁, h⟩ := bind_ok h
    obtain ⟨hf, hnd⟩ := nodup_cons.mp hnd
    exact (overField_worked hg h₁).cons (foldlM_worked hg hnd h) hf

end

/-! ## What the migration makes of the database -/

def Db.joined (db : Db) : Bool :=
  db.expanded.isSome && db.settings.isSome

def verified (hash : Text) : Prop := ['$', '2'] <+: hash

structure RowMigrated (s : Store) (joined : Bool) (t : Table) (r r' : Row) : Prop where
  id : r'.id = r.id
  listed : ∀ c, (t, c) ∈ fields → Resealed s (secretAAD t.text r.id c.text) (r.pair c) (r'.pair c)
  others : ∀ c, (t, c) ∉ fields → r'.pair c = r.pair c
  legacy : r'.legacy = if joined = true ∧ t = .panelSettings ∧ r.id = trueText then fun _ => [] else r.legacy
  tokenHash : t ≠ .nodes ∨ verified r.tokenHash ∨ (r'.pair .daemonToken).enc = [] → r'.tokenHash = r.tokenHash
  verifier : t = .nodes → verified r'.tokenHash ∨ (r'.pair .daemonToken).enc = []

structure TokenMigrated (t t' : RecoveryToken) : Prop where
  kept : t.tokenHash ≠ [] ∨ t.token = [] → t' = t
  hashed : t'.tokenHash ≠ [] ∨ t'.token = []

structure Migrated (s : Store) (db db' : Db) : Prop where
  rows : ∀ t, List.Forall₂ (RowMigrated s db.joined t) (db.rows t) (db'.rows t)
  unjoined : db.joined = false → db'.expanded = db.expanded
  joined : db.joined = true → ∃ e', db'.expanded = some e' ∧ e'.json = (fun _ => []) ∧
    ∀ item, Resealed s (itemAAD item) (db.itemPair item) ⟨[], e'.enc item⟩
  tokens : List.Forall₂ TokenMigrated db.tokens db'.tokens

section
variable {s : Store} {l : Luck} {db db' : Db} {r r' : Row}

theorem migrateVerifier_ok (h : migrateVerifier s l r = .ok r') :
    ∃ hash, r' = { r with tokenHash := hash } ∧
      (verified r.tokenHash ∨ (r.pair .daemonToken).enc = [] → hash = r.tokenHash) ∧
      (verified hash ∨ (r.pair .daemonToken).enc = []) := by
  unfold migrateVerifier at h
  split at h
  case isTrue hkept =>
    cases h
    exact ⟨r.tokenHash, rfl, fun _ => rfl, hkept⟩
  case isFalse hnew =>
    obtain ⟨secret, -, h⟩ := bind_ok h
    obtain ⟨hash, hhash, h⟩ := bind_ok h
    obtain ⟨-, -, h⟩ := bind_ok h
    cases h
    exact ⟨hash, rfl, fun hkept => absurd hkept hnew, .inl (l.hashed _ _ _ hhash)⟩

structure RowVerified (t : Table) (r r' : Row) : Prop where
  same : ∃ hash, r' = { r with tokenHash := hash }
  tokenHash : t ≠ .nodes ∨ verified r.tokenHash ∨ (r.pair .daemonToken).enc = [] → r'.tokenHash = r.tokenHash
  verifier : t = .nodes → verified r'.tokenHash ∨ (r.pair .daemonToken).enc = []

theorem migrateLegacyNodeVerifier_ok (h : migrateLegacyNodeVerifier s l db = .ok db') :
    (∀ t, List.Forall₂ (RowVerified t) (db.rows t) (db'.rows t)) ∧ db'.expanded = db.expanded ∧ db'.tokens = db.tokens := by
  unfold migrateLegacyNodeVerifier at h
  obtain ⟨-, -, h⟩ := bind_ok h
  obtain ⟨rows, hrows, h⟩ := bind_ok h
  cases h
  refine ⟨fun t => ?_, rfl, rfl⟩
  simp [Db.setRows]
  split
  case isTrue ht =>
    subst ht
    refine (mapM_forall₂ hrows).imp fun r r' hr => ?_
    obtain ⟨hash, rfl, hkept, hverified⟩ := migrateVerifier_ok hr
    exact ⟨⟨hash, rfl⟩, fun h => hkept (h.resolve_left (not_not.mpr rfl)), fun _ => hverified⟩
  case isFalse ht =>
    exact forall₂_same.mpr fun r _ => ⟨⟨r.tokenHash, rfl⟩, fun _ => rfl, fun he => absurd he ht⟩

theorem setLegacy_rows (db : Db) (legacy : Item → Bytes) (t : Table) :
    List.Forall₂ (fun r r' => r' = { r with legacy := if t = .panelSettings ∧ r.id = trueText then legacy else r.legacy })
      (db.rows t) ((db.setLegacy legacy).rows t) := by
  simp [Db.setLegacy, Db.setRows]
  split
  case isTrue ht =>
    subst ht
    refine forall₂_map_right_iff.mpr (forall₂_same.mpr fun r _ => ?_)
    by_cases hid : r.id = trueText
    · simp [hid]
    · simp [hid]
  case isFalse ht =>
    exact forall₂_same.mpr fun r _ => by rw [if_neg fun h => ht h.1]

theorem migrateExpandedSettingsSecrets_ok (h : migrateExpandedSettingsSecrets s l db = .ok db') :
    db.joined = false ∧ db' = db ∨
      db.joined = true ∧ ∃ e', e'.json = (fun _ => []) ∧
        (∀ item, Resealed s (itemAAD item) (db.itemPair item) ⟨[], e'.enc item⟩) ∧
        db' = { db.setLegacy (fun _ => []) with expanded := some e' } := by
  unfold migrateExpandedSettingsSecrets at h
  obtain ⟨-, -, h⟩ := bind_ok h
  split at h
  case h_1 e p he hp =>
    obtain ⟨discord, hdiscord, h⟩ := bind_ok h
    obtain ⟨slack, hslack, h⟩ := bind_ok h
    obtain ⟨telegram, htelegram, h⟩ := bind_ok h
    obtain ⟨-, -, h⟩ := bind_ok h
    obtain ⟨-, -, h⟩ := bind_ok h
    cases h
    have hpair : ∀ item, db.itemPair item = ⟨itemPlain (e.json item) (p.legacy item), e.enc item⟩ := by
      intro item
      simp [Db.itemPair, he, hp]
    refine .inr ⟨by simp [Db.joined, he, hp], _, rfl, fun item => ?_, rfl⟩
    rw [hpair item]
    cases item with
    | discordWebhookUrl => exact @migrateItem_resealed s l ⟨_, _⟩ _ _ hdiscord
    | slackWebhookUrl => exact @migrateItem_resealed s l ⟨_, _⟩ _ _ hslack
    | telegramBotToken => exact @migrateItem_resealed s l ⟨_, _⟩ _ _ htelegram
  case h_2 hnone =>
    cases h
    refine .inl ⟨?_, rfl⟩
    unfold Db.joined
    match he : db.expanded, hp : db.settings with
    | none, _ => rfl
    | some _, none => rfl
    | some e, some p => exact absurd hp (hnone e p he)

theorem migrateRecoveryCodeHashes_ok (h : migrateRecoveryCodeHashes l db = .ok db') :
    db'.rows = db.rows ∧ db'.expanded = db.expanded ∧ List.Forall₂ TokenMigrated db.tokens db'.tokens := by
  unfold migrateRecoveryCodeHashes at h
  obtain ⟨-, -, h⟩ := bind_ok h
  obtain ⟨tokens, htokens, h⟩ := bind_ok h
  cases h
  refine ⟨rfl, rfl, (mapM_forall₂ htokens).imp fun t t' ht => ?_⟩
  unfold migrateRecoveryCode at ht
  split at ht
  case isTrue hkept =>
    cases ht
    exact ⟨fun _ => rfl, hkept⟩
  case isFalse hnew =>
    obtain ⟨hash, -, ht⟩ := bind_ok ht
    obtain ⟨-, -, ht⟩ := bind_ok ht
    cases ht
    exact ⟨fun hkept => absurd hkept hnew, .inr rfl⟩

theorem itemPair_congr {R : Row → Row → Prop} (hrows : List.Forall₂ R (db.rows .panelSettings) (db'.rows .panelSettings))
    (hR : ∀ r r', R r r' → r'.id = r.id ∧ r'.legacy = r.legacy) (he : db'.expanded = db.expanded) :
    db'.itemPair = db.itemPair ∧ db'.joined = db.joined := by
  rcases settings_rel hrows fun r r' h => (hR r r' h).1 with ⟨hn, hn'⟩ | ⟨r, r', hr, hr', hrel, -⟩
  · unfold Db.itemPair Db.joined
    rw [he, hn, hn']
    exact ⟨rfl, rfl⟩
  · unfold Db.itemPair Db.joined
    rw [he, hr, hr']
    simp [(hR r r' hrel).2]

theorem migrate_migrated (h : migrate s l db = .ok db') : Migrated s db db' := by
  unfold migrate migrateFields at h
  obtain ⟨-, -, h⟩ := bind_ok h
  obtain ⟨db₁, h₁, h⟩ := bind_ok h
  obtain ⟨db₂, h₂, h⟩ := bind_ok h
  obtain ⟨db₃, h₃, h⟩ := bind_ok h
  obtain ⟨db₄, h₄, h⟩ := bind_ok h
  obtain ⟨-, -, h⟩ := bind_ok h
  cases h
  have hfields := foldlM_worked (fun _ _ _ _ _ => migratePair_resealed) (by decide) h₁
  obtain ⟨hverified, he₂, ht₂⟩ := migrateLegacyNodeVerifier_ok h₂
  obtain ⟨hrows₄, he₄, htokens⟩ := migrateRecoveryCodeHashes_ok h₄
  -- the first two steps leave the expanded settings alone
  have hrows : ∀ t, List.Forall₂ (fun r r' => RowMigrated s false t r r') (db.rows t) (db₂.rows t) := by
    intro t
    refine forall₂_trans (fun r r₁ r' hr hr' => ?_) (hfields.rows t) (hverified t)
    obtain ⟨⟨hash, rfl⟩, hkept, hnew⟩ := hr'
    exact ⟨hr.id, hr.listed, hr.others, by simpa using hr.legacy, fun h => (hkept (hr.tokenHash ▸ h)).trans hr.tokenHash, hnew⟩
  obtain ⟨hpair, hjoined⟩ := itemPair_congr (hrows .panelSettings) (fun r r' hr => ⟨hr.id, by simpa using hr.legacy⟩)
    (he₂.trans hfields.expanded)
  rcases migrateExpandedSettingsSecrets_ok h₃ with ⟨hj, rfl⟩ | ⟨hj, e', hjson, hitems, rfl⟩
  · rw [hjoined] at hj
    refine ⟨fun t => ?_, fun _ => he₄.trans (he₂.trans hfields.expanded), fun hj' => ?_, ?_⟩
    · rw [hrows₄, hj]
      exact hrows t
    · rw [hj] at hj'
      cases hj'
    · rwa [ht₂, hfields.tokens] at htokens
  · rw [hjoined] at hj
    refine ⟨fun t => ?_, fun hj' => ?_, fun _ => ⟨e', he₄, hjson, hpair ▸ hitems⟩, ?_⟩
    · rw [hrows₄, hj]
      refine forall₂_trans (fun r r₁ r' hr hr' => ?_) (hrows t) (setLegacy_rows db₂ _ t)
      subst hr'
      refine ⟨hr.id, hr.listed, hr.others, ?_, hr.tokenHash, hr.verifier⟩
      simp [hr.id, hr.legacy]
    · rw [hj] at hj'
      cases hj'
    · change List.Forall₂ _ db₂.tokens _ at htokens
      rwa [ht₂, hfields.tokens] at htokens

end

section
variable {s : Store} {db db' db'' : Db}
variable {joined : Bool} {c : Column} {r r' r'' : Row} {t : Table}

theorem listed_column (h : (t, c) ∈ fields) : c ∈ t.columns := by
  have hall : ∀ f ∈ fields, f.2 ∈ f.1.columns := by decide
  exact hall _ h

variable (h : Migrated s db db')
include h

theorem Migrated.joined_eq : db'.joined = db.joined := by
  have hsome : db'.expanded.isSome = db.expanded.isSome := by
    cases hj : db.joined with
    | false => rw [h.unjoined hj]
    | true =>
      obtain ⟨e', he', -⟩ := h.joined hj
      rw [he', (Bool.and_eq_true_iff.mp hj).1]
      rfl
  unfold Db.joined
  rw [hsome]
  rcases settings_rel (h.rows .panelSettings) fun _ _ hr => hr.id with ⟨hn, hn'⟩ | ⟨r, r', hr, hr', -, -⟩
  · rw [hn, hn']
  · rw [hr, hr']
    rfl

theorem Migrated.item_unjoined (hj : db.joined = false) : db'.itemPair = db.itemPair := by
  refine (itemPair_congr (h.rows .panelSettings) (fun r r' hr => ⟨hr.id, ?_⟩) (h.unjoined hj)).1
  have hlegacy := hr.legacy
  simp [hj] at hlegacy
  exact hlegacy

theorem Migrated.item_joined (hj : db.joined = true) (item : Item) :
    (db'.itemPair item).plain = [] ∧ Resealed s (itemAAD item) (db.itemPair item) (db'.itemPair item) := by
  obtain ⟨e', he', hjson, hitems⟩ := h.joined hj
  have hpair : db'.itemPair item = ⟨[], e'.enc item⟩ := by
    rcases settings_rel (h.rows .panelSettings) fun _ _ hr => hr.id with ⟨hn, -⟩ | ⟨r, r', -, hr', hrel, hid⟩
    · simp [Db.joined, hn] at hj
    · have hlegacy := hrel.legacy
      rw [if_pos ⟨hj, rfl, hid⟩] at hlegacy
      simp [Db.itemPair, he', hr', hjson, hlegacy, itemPlain]
  rw [hpair]
  exact ⟨rfl, hitems item⟩

theorem Migrated.sameValues : SameValues s db db' := by
  refine ⟨fun t => (h.rows t).imp fun r r' hr c _ => ?_, fun item => ?_⟩
  · rw [hr.id]
    by_cases hc : (t, c) ∈ fields
    · exact (hr.listed c hc).value_eq
    · rw [hr.others c hc]
  · cases hj : db.joined with
    | false => rw [h.item_unjoined hj]
    | true => exact (h.item_joined hj item).2.value_eq

omit h

/-- The secrets that the migration can clean up: those it goes through, unless they are empty and
sealed by an earlier key. -/
structure Cleanable (s : Store) (db : Db) : Prop where
  pairs : ∀ t, ∀ r ∈ db.rows t, ∀ c ∈ t.columns,
    if (t, c) ∈ fields then ¬ Blank s (secretAAD t.text r.id c.text) (r.pair c) else Clean s (r.pair c)
  items : ∀ item, if db.joined = true then ¬ Blank s (itemAAD item) (db.itemPair item) else Clean s (db.itemPair item)

theorem RowMigrated.clean_iff (h : RowMigrated s joined t r r') (hp : HeldPair s (secretAAD t.text r.id c.text) (r.pair c)) :
    Clean s (r'.pair c) ↔ if (t, c) ∈ fields then ¬ Blank s (secretAAD t.text r.id c.text) (r.pair c) else Clean s (r.pair c) := by
  split
  case isTrue hc => exact (h.listed c hc).clean_iff hp
  case isFalse hc => rw [h.others c hc]

theorem Migrated.clean_item_iff (h : Migrated s db db') (held : Held s db) (item : Item) :
    Clean s (db'.itemPair item) ↔
      if db.joined = true then ¬ Blank s (itemAAD item) (db.itemPair item) else Clean s (db.itemPair item) := by
  split
  case isTrue hj => exact (h.item_joined hj item).2.clean_iff (held.items item)
  case isFalse hj => rw [h.item_unjoined (Bool.eq_false_of_not_eq_true hj)]

theorem Migrated.clean_iff (h : Migrated s db db') (held : Held s db) : AllClean s db' ↔ Cleanable s db := by
  constructor
  · intro hclean
    refine ⟨fun t r hr c hc => ?_, fun item => (h.clean_item_iff held item).mp (hclean.items item)⟩
    obtain ⟨r', hr', hrel⟩ := exists_of_mem_left (h.rows t) hr
    exact (hrel.clean_iff (held.pairs t r hr c hc)).mp (hclean.pairs t r' hr' c hc)
  · intro hclean
    refine ⟨fun t r' hr' c hc => ?_, fun item => (h.clean_item_iff held item).mpr (hclean.items item)⟩
    obtain ⟨r, hr, hrel⟩ := exists_of_mem_right (h.rows t) hr'
    exact (hrel.clean_iff (held.pairs t r hr c hc)).mpr (hclean.pairs t r hr c hc)

theorem RowMigrated.again (h : RowMigrated s joined t r r')
    (hp : ∀ c ∈ t.columns, HeldPair s (secretAAD t.text r.id c.text) (r.pair c)) (h' : RowMigrated s joined t r' r'') :
    r'' = r' := by
  have hpair : r''.pair = r'.pair := by
    funext c
    by_cases hc : (t, c) ∈ fields
    · have hstable := (h.listed c hc).stable (hp c (listed_column hc))
      rw [← h.id] at hstable
      exact hstable.eq (h'.listed c hc)
    · exact h'.others c hc
  refine Row.ext h'.id hpair (h'.tokenHash ?_) ?_
  · by_cases ht : t = .nodes
    · rw [hpair]
      exact .inr (h.verifier ht)
    · exact .inl ht
  · rw [h'.legacy]
    split
    case isTrue hcleared =>
      rw [h.legacy, if_pos ⟨hcleared.1, hcleared.2.1, h.id ▸ hcleared.2.2⟩]
    case isFalse => rfl

theorem Migrated.again (h : Migrated s db db') (held : Held s db) (h' : Migrated s db' db'') : db'' = db' := by
  have hrows : db''.rows = db'.rows := by
    funext t
    refine forall₂_eq (h'.rows t) fun r' hr' r'' hrel' => ?_
    obtain ⟨r, hr, hrel⟩ := exists_of_mem_right (h.rows t) hr'
    rw [h.joined_eq] at hrel'
    exact hrel.again (held.pairs t r hr) hrel'
  have hexpanded : db''.expanded = db'.expanded := by
    cases hj : db.joined with
    | false => exact h'.unjoined (h.joined_eq.trans hj)
    | true =>
      obtain ⟨e', he', hjson, hitems⟩ := h.joined hj
      obtain ⟨e'', he'', hjson', hitems'⟩ := h'.joined (h.joined_eq.trans hj)
      rw [he', he'']
      congr 1
      refine Expanded.ext (hjson'.trans hjson.symm) (funext fun item => ?_)
      have hstable := (h.item_joined hj item).2.stable (held.items item)
      have heq := hstable.eq (hitems' item)
      have henc : (db'.itemPair item).enc = e'.enc item := by
        simp [Db.itemPair, he']
      exact (congrArg Pair.enc heq).trans henc
  refine Db.ext hrows hexpanded (forall₂_eq h'.tokens fun t' ht' t'' hrel' => ?_)
  obtain ⟨t, -, hrel⟩ := exists_of_mem_right h.tokens ht'
  exact hrel'.kept hrel.hashed

end

/-! ## What the restoration makes of the database -/

structure Restored (s : Store) (db db' : Db) : Prop where
  rows : ∀ t, List.Forall₂ (fun r r' => r'.id = r.id ∧ ∀ c,
    (r'.pair c).value s (secretAAD t.text r.id c.text) = (r.pair c).value s (secretAAD t.text r.id c.text)) (db.rows t) (db'.rows t)
  absent : db.expanded = none → db'.itemPair = db.itemPair
  present : ∀ e, db.expanded = some e → ∀ item,
    RestoredPair s (itemAAD item) ⟨e.json item, e.enc item⟩ (db'.itemPair item)

section
variable {s : Store} {l : Luck} {db db₁ db' : Db} {json plain : Bytes}

theorem restoreItem_restored {item : Item} {enc : Text} (h : restoreItem s item json enc = .ok plain) :
    RestoredPair s (itemAAD item) ⟨json, enc⟩ ⟨plain, enc⟩ :=
  ⟨rfl, (read_eq_value ⟨json, enc⟩ s (itemAAD item)).symm.trans h⟩

theorem restoreExpandedSettings_ok (h : restoreExpandedSettings s l db = .ok db') :
    (db.expanded = none ∧ db' = db) ∨
      ∃ e json, db.expanded = some e ∧ (∀ item, RestoredPair s (itemAAD item) ⟨e.json item, e.enc item⟩ ⟨json item, e.enc item⟩) ∧
        db' = { db.setLegacy json with expanded := some { e with json := json } } := by
  unfold restoreExpandedSettings at h
  obtain ⟨-, -, h⟩ := bind_ok h
  split at h
  case h_1 he =>
    cases h
    exact .inl ⟨he, rfl⟩
  case h_2 e he =>
    obtain ⟨discord, hdiscord, h⟩ := bind_ok h
    obtain ⟨slack, hslack, h⟩ := bind_ok h
    obtain ⟨telegram, htelegram, h⟩ := bind_ok h
    obtain ⟨-, -, h⟩ := bind_ok h
    obtain ⟨-, -, h⟩ := bind_ok h
    cases h
    refine .inr ⟨e, _, he, fun item => ?_, rfl⟩
    cases item with
    | discordWebhookUrl => exact restoreItem_restored hdiscord
    | slackWebhookUrl => exact restoreItem_restored hslack
    | telegramBotToken => exact restoreItem_restored htelegram

theorem itemPair_setLegacy (db : Db) (e : Expanded) (json : Item → Bytes) (item : Item) :
    Db.itemPair { db.setLegacy json with expanded := some { e with json := json } } item = ⟨json item, e.enc item⟩ := by
  have hrows := setLegacy_rows db json .panelSettings
  have hsettings : (db.setLegacy json).settings = none ∨
      ∃ r', (db.setLegacy json).settings = some r' ∧ r'.legacy = json := by
    rcases settings_rel hrows (fun r r' hr => by rw [hr]) with ⟨-, hn⟩ | ⟨r, r', -, hr', hrel, hid⟩
    · exact .inl hn
    · refine .inr ⟨r', hr', ?_⟩
      rw [hrel]
      exact if_pos ⟨rfl, hid⟩
  have hsame : Db.settings { db.setLegacy json with expanded := some { e with json := json } } = (db.setLegacy json).settings := rfl
  unfold Db.itemPair
  rw [hsame]
  rcases hsettings with hn | ⟨r', hr', hlegacy⟩
  · simp only [hn, Option.map_some, Option.map_none, Option.getD_some, Option.getD_none, itemPlain, Pair.mk.injEq, and_true]
    split <;> simp_all
  · simp [hr', hlegacy, itemPlain]

theorem restore_restored (h : restore s l db = .ok db') : Restored s db db' := by
  unfold restore at h
  obtain ⟨-, -, h⟩ := bind_ok h
  obtain ⟨db₁, h₁, h⟩ := bind_ok h
  obtain ⟨db₂, h₂, h⟩ := bind_ok h
  obtain ⟨-, -, h⟩ := bind_ok h
  cases h
  have hfields := foldlM_worked (fun _ _ _ _ _ => restorePair_restored) (by decide) h₁
  have hvalue : ∀ t r r', RowWorked (RestoredPair s) fields t r r' → ∀ c,
      (r'.pair c).value s (secretAAD t.text r.id c.text) = (r.pair c).value s (secretAAD t.text r.id c.text) := by
    intro t r r' hr c
    by_cases hc : (t, c) ∈ fields
    · exact (hr.listed c hc).value_eq
    · rw [hr.others c hc]
  rcases restoreExpandedSettings_ok h₂ with ⟨he, rfl⟩ | ⟨e, json, he, hitems, rfl⟩
  · refine ⟨fun t => (hfields.rows t).imp fun r r' hr => ⟨hr.id, hvalue t r r' hr⟩, fun _ => ?_, fun e he' => ?_⟩
    · exact (itemPair_congr (hfields.rows _) (fun r r' hr => ⟨hr.id, hr.legacy⟩) hfields.expanded).1
    · rw [← hfields.expanded, he] at he'
      cases he'
  · refine ⟨fun t => ?_, fun he' => ?_, fun e' he' item => ?_⟩
    · refine forall₂_trans (fun r r₁ r' hr hr' => ?_) (hfields.rows t) (setLegacy_rows db₁ json t)
      subst hr'
      exact ⟨hr.id, hvalue t r r₁ hr⟩
    · rw [hfields.expanded, he'] at he
      cases he
    · rw [hfields.expanded, he'] at he
      cases he
      rw [itemPair_setLegacy]
      exact hitems item

theorem Restored.item_iff (h : Restored s db db') (item : Item) :
    (db'.itemPair item).value s (itemAAD item) = (db.itemPair item).value s (itemAAD item) ↔
      ∀ e, db.expanded = some e → e.enc item = [] → e.json item = [] → (db.itemPair item).plain = [] := by
  cases he : db.expanded with
  | none =>
    rw [h.absent he]
    exact iff_of_true rfl nofun
  | some e =>
    have hitem := h.present e he item
    have hpair : db.itemPair item = ⟨itemPlain (e.json item) ((db.settings.map (·.legacy item)).getD []), e.enc item⟩ := by
      simp [Db.itemPair, he]
    rw [hitem.value_eq, hpair]
    generalize (db.settings.map (·.legacy item)).getD [] = legacy
    simp
    by_cases henc : e.enc item = []
    · rw [value_of_plain henc, value_of_plain henc]
      by_cases hjson : e.json item = []
      · simp [itemPlain, hjson, henc, eq_comm]
      · simp [itemPlain, hjson]
    · simp [Pair.value, decryptSecret, henc]

end

/-! ## Migration and restoration -/

/-- No secret is out of the migration's reach: each pair that it does not go through is clean, no
earlier key has sealed an empty secret, and no item has its plaintext in the older column only. -/
structure Reached (s : Store) (db : Db) : Prop where
  cleanable : Cleanable s db
  legacy : ∀ item e, db.expanded = some e → e.enc item = [] → e.json item = [] → (db.itemPair item).plain = []

section
variable {db : Db}
variable {r : Except Err Db}

theorem committed_ok (h : (committed db r).1 = none) : r = .ok (committed db r).2 := by
  cases r with
  | error => cases h
  | ok => rfl

theorem committed_error (h : (committed db r).1 ≠ none) : (committed db r).2 = db := by
  cases r with
  | error => rfl
  | ok => exact absurd rfl h

end

/-- The migration fails and changes nothing, or keeps every secret's value; a second one changes nothing. It leaves no
plaintext and no earlier ciphertext just when every secret is within its reach. -/
theorem migration_keeps_secrets_iff {s : Store} {db : Db} (held : Held s db) (l l' l₁ l₂ : Luck) :
    let run := migrateOperationalSecrets s l db
    let restored := restoreOperationalSecrets s l₁ db
    let rerun := migrateOperationalSecrets s l₂ restored.2
    (run.1 ≠ none → run.2 = db) ∧
      (run.1 = none → restored.1 = none → rerun.1 = none →
        ((SameValues s db run.2 ∧ AllClean s run.2 ∧ (migrateOperationalSecrets s l' run.2).2 = run.2 ∧
          SameValues s db rerun.2) ↔ Reached s db)) := by
  intro run restored rerun
  refine ⟨committed_error, fun hrun hrestored hrerun => ?_⟩
  have hm : Migrated s db run.2 := migrate_migrated (committed_ok hrun)
  have hr : Restored s db restored.2 := restore_restored (committed_ok hrestored)
  have hm' : Migrated s restored.2 rerun.2 := migrate_migrated (committed_ok hrerun)
  have hagain : (migrateOperationalSecrets s l' run.2).2 = run.2 := by
    by_cases he : (migrateOperationalSecrets s l' run.2).1 = none
    · exact hm.again held (migrate_migrated (committed_ok he))
    · exact committed_error he
  have hvalues := hm'.sameValues
  constructor
  · rintro ⟨-, hclean, -, hsame⟩
    refine ⟨(hm.clean_iff held).mp hclean, fun item => (hr.item_iff item).mp ?_⟩
    exact (hvalues.items item).symm.trans (hsame.items item)
  · intro hreached
    refine ⟨hm.sameValues, (hm.clean_iff held).mpr hreached.cleanable, hagain, fun t => ?_, fun item => ?_⟩
    · refine forall₂_trans (fun r r₁ r' hr hr' c hc => ?_) (hr.rows t) (hvalues.pairs t)
      have hstep := hr' c hc
      rw [hr.1] at hstep
      exact hstep.trans (hr.2 c)
    · exact (hvalues.items item).trans ((hr.item_iff item).mpr (hreached.legacy item))

def sampleStore : Store := ⟨sampleGCM, secondRing⟩

def sampleNonce : Nonce := ⟨List.replicate 12 7, by simp⟩

def sampleLuck : Luck where
  nonce _ _ _ := .ok sampleNonce
  itemNonce _ := .ok sampleNonce
  bcrypt _ _ := .ok ['$', '2']
  hashed _ _ _ h := Except.ok.inj h ▸ prefix_rfl
  answer _ := .ok ()

def bucketDb : Db where
  rows
    | .panelSettings => [{ id := trueText, pair := fun c => if c = .s3SecretAccessKey then ⟨[107], []⟩ else {} }]
    | _ => []

theorem bucket_key_left :
    Held sampleStore bucketDb ∧ (migrateOperationalSecrets sampleStore sampleLuck bucketDb).1 = none ∧
      ¬ AllClean sampleStore (migrateOperationalSecrets sampleStore sampleLuck bucketDb).2 := by
  refine ⟨⟨fun t r hr c _ => .inl ?_, fun item => .inl rfl⟩, by decide +kernel, fun hclean => ?_⟩
  · match t, hr with
    | .panelSettings, hr =>
      rw [mem_singleton.mp hr]
      cases c <;> rfl
  · have hrow : ((migrateOperationalSecrets sampleStore sampleLuck bucketDb).2.rows .panelSettings).any
        (fun r => decide ((r.pair .s3SecretAccessKey).plain = [107])) = true := by
      decide +kernel
    obtain ⟨r, hr, hplain⟩ := any_eq_true.mp hrow
    have hempty := (hclean.pairs .panelSettings r hr .s3SecretAccessKey (by decide)).1
    rw [of_decide_eq_true hplain] at hempty
    cases hempty

def sealedToken : Text :=
  (encrypt sampleGCM (some firstRing) (.ok sampleNonce) [116] (secretAAD "nodes" ['n'] "daemon_token")).toOption.getD []

def mixedDb : Db where
  rows
    | .nodes => [{ id := ['n'], pair := fun c => if c = .daemonToken then ⟨[], sealedToken⟩ else {} }]
    | .panelSettings => [{ id := trueText, pair := fun c => if c = .smtpPassword then ⟨[112], []⟩ else {} }]
    | _ => []
  expanded := some { json := fun item => if item = .telegramBotToken then [98] else [] }

theorem sealedToken_value :
    Pair.value sampleStore (secretAAD "nodes" ['n'] "daemon_token") ⟨[], sealedToken⟩ = .ok [116] := by
  decide +kernel

theorem mixedDb_held : Held sampleStore mixedDb := by
  refine ⟨fun t r hr c hc => ?_, fun item => .inl rfl⟩
  match t, hr with
  | .nodes, hr =>
    rw [mem_singleton.mp hr, mem_singleton.mp hc]
    exact .inr ⟨rfl, [116], sealedToken_value⟩
  | .panelSettings, hr =>
    rw [mem_singleton.mp hr]
    cases c <;> exact .inl rfl

theorem mixedDb_reached : Reached sampleStore mixedDb := by
  refine ⟨⟨fun t r hr c hc => ?_, fun item => ?_⟩, fun item e he _ hjson => ?_⟩
  · match t, hr with
    | .nodes, hr =>
      rw [mem_singleton.mp hr, mem_singleton.mp hc, if_pos (by decide)]
      intro hblank
      cases sealedToken_value.symm.trans hblank.2.1
    | .panelSettings, hr =>
      rw [mem_singleton.mp hr]
      split
      case isTrue => exact fun hblank => hblank.1 (by cases c <;> rfl)
      case isFalse hout =>
        have hc : c ≠ .smtpPassword := fun he => hout (by rw [he]; decide)
        exact ⟨by simp [hc], .inl (by simp [hc])⟩
  · rw [if_pos (by decide)]
    exact fun hblank => hblank.1 rfl
  · cases he
    cases item with
    | telegramBotToken => cases hjson
    | _ => rfl

theorem mixed_secrets_migrated :
    (migrateOperationalSecrets sampleStore sampleLuck mixedDb).1 = none ∧
      AllClean sampleStore (migrateOperationalSecrets sampleStore sampleLuck mixedDb).2 := by
  have hrun : (migrateOperationalSecrets sampleStore sampleLuck mixedDb).1 = none := by decide +kernel
  have hkept := (migration_keeps_secrets_iff mixedDb_held sampleLuck sampleLuck sampleLuck sampleLuck).2 hrun
    (by decide +kernel) (by decide +kernel)
  exact ⟨hrun, (hkept.mpr mixedDb_reached).2.1⟩

end ForgePlane.SecretMigration
