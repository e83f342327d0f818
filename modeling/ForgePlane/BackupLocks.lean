import ForgePlane.Threads
import ForgePlane.Table
import ForgePlane.Wire

/-!
# Backup locks

`DeleteBackup` and `RenameBackup` read `is_locked` in one statement and write in a later one
that does not look at it; `UpsertBackup` writes over the row with its name without looking at
it at all. Only the cleanup checks the lock in the statement that deletes.
-/

namespace ForgePlane.Backups

structure Backup where
  uuid : String
  serverID : String
  name : String
  checksum : String := ""
  size : Int := 0
  status : String := "pending"
  uploadID : Option String := none
  completedAt : Option Nat := none
  createdAt : Nat := 0
  updatedAt : Nat := 0
  isLocked : Bool := false
  statusMessage : Option String := none
  statusCallback : Option String := none
  retryCount : Int := 0
  lastRetryAt : Option Nat := none
  deriving DecidableEq, Repr

structure UpsertBackupRequest where
  uuid : String := ""
  name : String
  checksum : String := ""
  size : Int := 0
  status : String := ""
  uploadID : Option String := none
  completedAt : Option Nat := none
  statusMessage : Option String := none
  statusCallback : Option String := none
  retryCount : Int := 0
  deriving DecidableEq, Repr

abbrev Key := String × String

def Backup.key (b : Backup) : Key := (b.serverID, b.name)

inductive BackupTask where
  | upsert (serverID : String) (req : UpsertBackupRequest)
  | delete (serverID name : String)
  | lock (serverID name : String)
  | unlock (serverID name : String)
  | rename (serverID oldName newName : String)
  | cleanup (serverID : String) (retentionDays backupLimit : Int)
  deriving DecidableEq, Repr

inductive BackupCall where
  | newUUID
  | upsertRow (serverID : String) (req : UpsertBackupRequest)
  | getBackupByName (key : Key)
  | selectLocked (key : Key)
  | deleteRow (key : Key)
  | setLocked (key : Key) (locked : Bool)
  | selectExists (key : Key)
  | setName (key : Key) (newName : String)
  | countCompleted (serverID : String)
  | deleteOld (serverID : String) (retentionDays backupLimit : Int)
  | appendAudit (action serverID : String)
  deriving DecidableEq, Repr

abbrev BackupResp : BackupCall → Type
  | .newUUID => String
  | .upsertRow .. => Except Err Unit
  | .getBackupByName _ => Except Err Backup
  | .selectLocked _ => Except Err Bool
  | .deleteRow _ => Except Err Nat
  | .setLocked .. => Except Err Nat
  | .selectExists _ => Except Err Bool
  | .setName .. => Except Err Nat
  | .countCompleted _ => Except Err Nat
  | .deleteOld .. => Except Err Nat
  | .appendAudit .. => Except Err Unit

abbrev Store := Prog BackupResp

def call (c : BackupCall) : Store (BackupResp c) := .call c .ret

/-! ## The store's functions -/

def upsertBackup (serverID : String) (req : UpsertBackupRequest) : Store (Except Err Backup) := do
  let uuid ← (if req.uuid = "" then call .newUUID else pure req.uuid : Store String)
  if req.name = "" then return .error "backup name is required"
  let status := if req.status = "" then "completed" else req.status
  match ← call (.upsertRow serverID { req with uuid, status }) with
  | .error e => return .error e
  | .ok _ =>
    let _ ← call (.appendAudit ("backup " ++ status) serverID)
    call (.getBackupByName (serverID, req.name))

def audited (action serverID : String) : Except Err Nat → Store (Except Err Unit)
  | .error e => pure (.error e)
  | .ok rows => if rows = 0 then pure (.error "backup not found") else call (.appendAudit action serverID)

def deleteBackup (serverID name : String) : Store (Except Err Unit) := do
  match ← call (.selectLocked (serverID, name)) with
  | .error _ => return .error "backup not found"
  | .ok isLocked =>
    if isLocked then return .error "backup is locked and cannot be deleted"
    audited "backup deleted" serverID (← call (.deleteRow (serverID, name)))

def lockBackup (serverID name : String) : Store (Except Err Unit) := do
  audited "backup locked" serverID (← call (.setLocked (serverID, name) true))

def unlockBackup (serverID name : String) : Store (Except Err Unit) := do
  audited "backup unlocked" serverID (← call (.setLocked (serverID, name) false))

def renameBackup (serverID oldName newName : String) : Store (Except Err Unit) := do
  if oldName = "" ∨ newName = "" then return .error "backup name is required"
  match ← call (.selectLocked (serverID, oldName)) with
  | .error _ => return .error "backup not found"
  | .ok isLocked =>
    if isLocked then return .error "backup is locked and cannot be renamed"
    match ← call (.selectExists (serverID, newName)) with
    | .error e => return .error e
    | .ok taken =>
      if taken then return .error "a backup with the new name already exists"
      audited "backup renamed" serverID (← call (.setName (serverID, oldName) newName))

def cleanupOldBackupsForServer (serverID : String) (retentionDays backupLimit : Int) : Store (Except Err Nat) := do
  match ← call (.countCompleted serverID) with
  | .error e => return .error e
  | .ok count =>
    if 0 < backupLimit ∧ (count : Int) ≤ backupLimit then return .ok 0
    call (.deleteOld serverID retentionDays backupLimit)

def BackupTask.program : BackupTask → Store Unit
  | .upsert serverID req => do let _ ← upsertBackup serverID req
  | .delete serverID name => do let _ ← deleteBackup serverID name
  | .lock serverID name => do let _ ← lockBackup serverID name
  | .unlock serverID name => do let _ ← unlockBackup serverID name
  | .rename serverID oldName newName => do let _ ← renameBackup serverID oldName newName
  | .cleanup serverID retentionDays backupLimit => do
    let _ ← cleanupOldBackupsForServer serverID retentionDays backupLimit

/-! ## The table -/

structure World where
  backups : List Backup := []
  servers : List String := []
  now : Nat := 0
  drawn : Nat := 0
  ids : Nat → String := fun _ => ""

namespace World

def byName (w : World) (key : Key) : Option Backup := rowAt Backup.key w.backups key

/-- `INSERT … ON CONFLICT (server_id, name) DO UPDATE`: a row of that name keeps its identifier
and its lock. -/
def upsertRow (w : World) (serverID : String) (req : UpsertBackupRequest) : Except Err Unit × World :=
  match w.byName (serverID, req.name) with
  | some _ =>
    (.ok (), { w with
      backups := updateWhere (fun b => b.key = (serverID, req.name))
        (fun b => { b with
          checksum := req.checksum, size := req.size, status := req.status, uploadID := req.uploadID
          completedAt := req.completedAt, updatedAt := w.now, statusMessage := req.statusMessage
          statusCallback := req.statusCallback, retryCount := req.retryCount }) w.backups })
  | none =>
    if w.backups.any fun b => b.uuid = req.uuid then (.error "duplicate key value violates unique constraint", w)
    else if serverID ∉ w.servers then (.error "violates foreign key constraint", w)
    else
      (.ok (), { w with
        backups := w.backups ++ [{
          uuid := req.uuid, serverID, name := req.name, checksum := req.checksum, size := req.size
          status := req.status, uploadID := req.uploadID, completedAt := req.completedAt, createdAt := w.now
          updatedAt := w.now, isLocked := false, statusMessage := req.statusMessage
          statusCallback := req.statusCallback, retryCount := req.retryCount }] })

def setLocked (w : World) (key : Key) (locked : Bool) : World :=
  { w with backups := updateWhere (fun b => b.key = key) (fun b => { b with isLocked := locked, updatedAt := w.now }) w.backups }

def setName (w : World) (key : Key) (newName : String) : Except Err Nat × World :=
  if w.backups.any fun b => b.key = key ∧ key.2 ≠ newName ∧ (w.byName (key.1, newName)).isSome then
    (.error "duplicate key value violates unique constraint", w)
  else
    (.ok (w.backups.countP fun b => b.key = key),
      { w with backups := updateWhere (fun b => b.key = key) (fun b => { b with name := newName, updatedAt := w.now }) w.backups })

def removable (serverID : String) (b : Backup) : Bool :=
  b.serverID = serverID && !b.isLocked && b.status = "completed"

def overLimit (w : World) (serverID : String) (backupLimit : Int) : List String :=
  let completed := w.backups.countP fun b => b.serverID = serverID && b.status = "completed"
  let limit := if 0 < backupLimit then max 0 ((completed : Int) - backupLimit) else 0
  (((w.backups.filter (removable serverID)).insertionSort (·.createdAt ≤ ·.createdAt)).take limit.toNat).map (·.uuid)

def old (w : World) (serverID : String) (retentionDays backupLimit : Int) (b : Backup) : Bool :=
  removable serverID b &&
    ((b.createdAt : Int) + 24 * 60 * 60 * retentionDays < w.now || b.uuid ∈ w.overLimit serverID backupLimit)

def handle (w : World) : (c : BackupCall) → BackupResp c × World
  | .newUUID => (w.ids w.drawn, { w with drawn := w.drawn + 1 })
  | .upsertRow serverID req => w.upsertRow serverID req
  | .getBackupByName key =>
    match w.byName key with
    | some b => (.ok b, w)
    | none => (.error "no rows in result set", w)
  | .selectLocked key =>
    match w.byName key with
    | some b => (.ok b.isLocked, w)
    | none => (.error "no rows in result set", w)
  | .deleteRow key =>
    (.ok (w.backups.countP fun b => b.key = key), { w with backups := deleteWhere (fun b => b.key = key) w.backups })
  | .setLocked key locked => (.ok (w.backups.countP fun b => b.key = key), w.setLocked key locked)
  | .selectExists key => (.ok (w.byName key).isSome, w)
  | .setName key newName => w.setName key newName
  | .countCompleted serverID => (.ok (w.backups.countP fun b => b.serverID = serverID && b.status = "completed"), w)
  | .deleteOld serverID retentionDays backupLimit =>
    (.ok (w.backups.countP (w.old serverID retentionDays backupLimit)),
      { w with backups := deleteWhere (w.old serverID retentionDays backupLimit) w.backups })
  | .appendAudit .. => (.ok (), w)

end World

def fault : (c : BackupCall) → String → Option (BackupResp c)
  | .newUUID, _ => none
  | .upsertRow .., e => some (.error e)
  | .getBackupByName _, e => some (.error e)
  | .selectLocked _, e => some (.error e)
  | .deleteRow _, e => some (.error e)
  | .setLocked .., e => some (.error e)
  | .selectExists _, e => some (.error e)
  | .setName .., e => some (.error e)
  | .countCompleted _, e => some (.error e)
  | .deleteOld .., e => some (.error e)
  | .appendAudit .., e => some (.error e)

def backupStore : System BackupResp BackupTask World where
  program := BackupTask.program
  handle := World.handle
  fault := fault
  tick w d := { w with now := w.now + d }

abbrev State := Config BackupResp BackupTask World

/-! ## Which steps are in the way of a lock -/

def endangers : BackupTask × BackupCall → Option Key
  | (_, .deleteRow key) => some key
  | (_, .setName key _) => some key
  | (.rename serverID oldName _, .selectExists _) => some (serverID, oldName)
  | _ => none

def takesEffect : Label BackupTask → Bool
  | .call _ (.lost _) => false
  | _ => true

/-- No backup is locked while a delete or a rename has read its lock and not yet written, and
none is upserted while it is locked. -/
def proper (s : State) (l : Label BackupTask) : Bool :=
  !takesEffect l ||
    match s.sends l with
    | some (_, .setLocked key true) =>
      (List.range s.threads.length).all fun j => (s.pending j).bind endangers ≠ some key
    | some (_, .upsertRow serverID req) => s.world.backups.all fun b => !(b.key = (serverID, req.name) && b.isLocked)
    | _ => true

def unlocks (key : Key) (s : State) (l : Label BackupTask) : Bool :=
  takesEffect l && match s.sends l with
    | some (_, .setLocked key' false) => decide (key' = key)
    | _ => false

/-! ## What a delete or a rename knows -/

def removes : BackupCall → Option Key
  | .deleteRow key => some key
  | .setName key _ => some key
  | _ => none

def danger (t : BackupTask) : Monitor BackupResp (Option Key) where
  admits m c := (∀ key, m = some key → endangers (t, c) = some key) ∧ ∀ key, removes c = some key → m = some key
  next m c r :=
    match c, r with
    | .selectLocked key, .ok false => some key
    | .selectExists _, .ok false => m
    | _, _ => none

variable {t : BackupTask} {b b' b'' : Backup} {key key' : Key} {s s' : State}

theorem wp_audited (action serverID : String) (rows : Except Err Nat) :
    wp (danger t) (audited action serverID rows) (fun _ m => m = none) none := by
  match rows with
  | .error e => rfl
  | .ok rows =>
    change wp _ (if rows = 0 then _ else _) _ none
    split
    · rfl
    · exact ⟨⟨nofun, nofun⟩, fun _ _ => rfl⟩

theorem wp_upsertBackup (serverID : String) (req : UpsertBackupRequest) :
    wp (danger t) (upsertBackup serverID req) (fun _ m => m = none) none := by
  have huuid : wp (danger t) (if req.uuid = "" then call .newUUID else pure req.uuid : Store String)
      (fun _ m => m = none) none := by
    split
    · exact ⟨⟨nofun, nofun⟩, fun _ _ => rfl⟩
    · rfl
  refine wp_then huuid ?_
  rintro uuid _ rfl
  change wp _ (if req.name = "" then _ else _) _ none
  split
  · rfl
  · refine wp_ask ⟨nofun, nofun⟩ fun r _ => ?_
    match r with
    | .error e => rfl
    | .ok _ => exact ⟨⟨nofun, nofun⟩, fun _ _ => ⟨⟨nofun, nofun⟩, fun _ _ => rfl⟩⟩

theorem wp_deleteBackup (serverID name : String) :
    wp (danger t) (deleteBackup serverID name) (fun _ m => m = none) none := by
  refine wp_ask ⟨nofun, nofun⟩ fun r _ => ?_
  match r with
  | .error e => rfl
  | .ok true => rfl
  | .ok false =>
    refine ⟨⟨fun _ h => h, fun _ h => h⟩, fun r _ => ?_⟩
    exact wp_audited _ _ r

theorem wp_setLocked (action serverID : String) (key : Key) (locked : Bool) :
    wp (danger t) (call (.setLocked key locked) >>= audited action serverID) (fun _ m => m = none) none := by
  refine wp_ask ⟨nofun, nofun⟩ fun r _ => ?_
  exact wp_audited _ _ r

theorem wp_renameBackup (serverID oldName newName : String) :
    wp (danger (.rename serverID oldName newName)) (renameBackup serverID oldName newName) (fun _ m => m = none) none := by
  change wp _ (if oldName = "" ∨ newName = "" then _ else _) _ none
  split
  · rfl
  refine wp_ask ⟨nofun, nofun⟩ fun r _ => ?_
  match r with
  | .error e => rfl
  | .ok true => rfl
  | .ok false =>
    refine wp_ask ⟨fun _ h => h, nofun⟩ fun r _ => ?_
    match r with
    | .error e => rfl
    | .ok true => rfl
    | .ok false =>
      refine ⟨⟨fun _ h => h, fun _ h => h⟩, fun r _ => ?_⟩
      exact wp_audited _ _ r

theorem wp_cleanup (serverID : String) (retentionDays backupLimit : Int) :
    wp (danger t) (cleanupOldBackupsForServer serverID retentionDays backupLimit) (fun _ m => m = none) none := by
  refine wp_ask ⟨nofun, nofun⟩ (forall_result fun count _ => ?_)
  change wp _ (if 0 < backupLimit ∧ (count : Int) ≤ backupLimit then _ else _) _ none
  split
  · rfl
  · exact ⟨⟨nofun, nofun⟩, fun _ _ => rfl⟩

theorem wp_program (t : BackupTask) : wp (danger t) t.program (fun _ m => m = none) none := by
  cases t with
  | upsert serverID req => exact wp_seq (wp_upsertBackup serverID req)
  | delete serverID name => exact wp_seq (wp_deleteBackup serverID name)
  | lock | unlock => exact wp_seq (wp_setLocked _ _ _ _)
  | rename serverID oldName newName => exact wp_seq (wp_renameBackup serverID oldName newName)
  | cleanup serverID days limit => exact wp_seq (wp_cleanup serverID days limit)

/-! ## What a statement does to the rows -/

def World.unlocked (w : World) (key : Key) : Prop := ∀ b ∈ w.backups, b.key = key → b.isLocked = false

structure Backup.Kept (b b' : Backup) : Prop where
  uuid : b'.uuid = b.uuid
  key : b'.key = b.key
  checksum : b'.checksum = b.checksum
  size : b'.size = b.size
  status : b'.status = b.status
  isLocked : b'.isLocked = b.isLocked

section
variable {w w' : World}

theorem Backup.Kept.refl (b : Backup) : b.Kept b := ⟨rfl, rfl, rfl, rfl, rfl, rfl⟩

theorem Backup.Kept.trans (h : b.Kept b') (h' : b'.Kept b'') : b.Kept b'' :=
  ⟨h'.uuid.trans h.uuid, h'.key.trans h.key, h'.checksum.trans h.checksum, h'.size.trans h.size,
    h'.status.trans h.status, h'.isLocked.trans h.isLocked⟩

variable {p : Backup → Bool} {f : Backup → Backup} {serverID newName : String} {req : UpsertBackupRequest}
variable {c : BackupCall}

variable (hb : b ∈ w.backups)
include hb

theorem kept_updateWhere (h : p b = true → b.Kept (f b)) : ∃ b' ∈ updateWhere p f w.backups, b.Kept b' := by
  refine ⟨_, List.mem_map_of_mem hb, ?_⟩
  split
  · rename_i hp
    exact h hp
  · exact .refl b

theorem kept_deleteWhere (h : p b = false) : ∃ b' ∈ deleteWhere p w.backups, b.Kept b' :=
  ⟨b, List.mem_filter.mpr ⟨hb, by simp [h]⟩, .refl b⟩

theorem kept_upsertRow (h : b.key ≠ (serverID, req.name)) : ∃ b' ∈ (w.upsertRow serverID req).2.backups, b.Kept b' := by
  simp only [World.upsertRow]
  split
  · exact kept_updateWhere hb fun hp => absurd (of_decide_eq_true hp) h
  split
  · exact ⟨b, hb, .refl b⟩
  split
  · exact ⟨b, hb, .refl b⟩
  · exact ⟨b, List.mem_append_left _ hb, .refl b⟩

theorem kept_setName (h : b.key ≠ key) : ∃ b' ∈ (w.setName key newName).2.backups, b.Kept b' := by
  simp [World.setName]
  split
  · exact ⟨b, hb, .refl b⟩
  · exact kept_updateWhere hb fun hp => absurd (of_decide_eq_true hp) h

theorem handle_keeps (hlocked : b.isLocked = true)
    (hupsert : ∀ serverID req, c = .upsertRow serverID req → b.key ≠ (serverID, req.name))
    (hremove : removes c ≠ some b.key) (hunlock : c ≠ .setLocked b.key false) :
    ∃ b' ∈ (w.handle c).2.backups, b.Kept b' := by
  cases c with
  | upsertRow serverID req => exact kept_upsertRow hb (hupsert serverID req rfl)
  | deleteRow =>
    refine kept_deleteWhere hb (decide_eq_false fun he => hremove ?_)
    rw [he]
    rfl
  | setLocked key locked =>
    refine kept_updateWhere hb fun hp => ?_
    obtain rfl := of_decide_eq_true hp
    cases locked with
    | true => exact ⟨rfl, rfl, rfl, rfl, rfl, hlocked.symm⟩
    | false => exact absurd rfl hunlock
  | setName =>
    refine kept_setName hb fun he => hremove ?_
    rw [he]
    rfl
  | deleteOld =>
    exact kept_deleteWhere hb (by simp [World.old, World.removable, hlocked])
  | getBackupByName | selectLocked =>
    simp [World.handle]
    split <;> exact ⟨b, hb, .refl b⟩
  | _ => exact ⟨b, hb, .refl b⟩

omit hb

variable (h : w.unlocked key)
include h

theorem unlocked_updateWhere (hf : ∀ b ∈ w.backups, p b = true → (f b).key = key → (f b).isLocked = false) :
    ({ w with backups := updateWhere p f w.backups } : World).unlocked key := by
  intro b hb hkey
  obtain ⟨u, hu, rfl⟩ := mem_updateWhere.mp hb
  by_cases hp : p u = true
  · rw [if_pos hp] at hkey ⊢
    exact hf u hu hp hkey
  · rw [if_neg hp] at hkey ⊢
    exact h u hu hkey

theorem unlocked_deleteWhere : ({ w with backups := deleteWhere p w.backups } : World).unlocked key :=
  fun b hb => h b (List.mem_of_mem_filter hb)

theorem unlocked_upsertRow : (w.upsertRow serverID req).2.unlocked key := by
  simp only [World.upsertRow]
  split
  · exact unlocked_updateWhere h fun b hb _ hkey => h b hb hkey
  split
  · exact h
  split
  · exact h
  · exact forall_snoc h fun _ => rfl

theorem unlocked_setName (h' : w.unlocked key') : (w.setName key' newName).2.unlocked key := by
  simp [World.setName]
  split
  · exact h
  · exact unlocked_updateWhere h fun b hb hp _ => h' b hb (of_decide_eq_true hp)

theorem handle_unlocked (hlock : c ≠ .setLocked key true)
    (hname : ∀ key' newName, c = .setName key' newName → w.unlocked key') : (w.handle c).2.unlocked key := by
  cases c with
  | upsertRow => exact unlocked_upsertRow h
  | deleteRow | deleteOld => exact unlocked_deleteWhere h
  | setLocked key' locked =>
    refine unlocked_updateWhere h fun b hb hp hkey => ?_
    obtain rfl := of_decide_eq_true hp
    cases locked with
    | false => rfl
    | true => exact absurd (congrArg (BackupCall.setLocked · true) hkey) hlock
  | setName key' newName => exact unlocked_setName h (hname key' newName rfl)
  | getBackupByName | selectLocked =>
    simp [World.handle]
    split <;> exact h
  | _ => exact h

omit h

/-! ## The unique key -/

def World.unique (w : World) : Prop := (w.backups.map Backup.key).Nodup

theorem unique_updateWhere (h : w.unique) (hf : ∀ b, (f b).key = b.key) :
    ({ w with backups := updateWhere p f w.backups } : World).unique := by
  unfold World.unique
  rw [map_key_updateWhere]
  · exact h
  · exact hf

theorem unique_deleteWhere (h : w.unique) :
    ({ w with backups := deleteWhere p w.backups } : World).unique :=
  h.sublist (List.Sublist.map _ List.filter_sublist)

theorem unique_upsertRow (h : w.unique) :
    (w.upsertRow serverID req).2.unique := by
  simp only [World.upsertRow]
  split
  · exact unique_updateWhere h fun _ => rfl
  rename_i hnone
  split
  · exact h
  split
  · exact h
  · exact nodup_snoc h (rowAt_eq_none.mp hnone)

theorem unique_setName (h : w.unique) : (w.setName key newName).2.unique := by
  simp [World.setName]
  split
  · exact h
  · rename_i hfree
    simp at hfree
    -- a row under the new name was there under it before, so the renamed one is the same row
    have hnew : ∀ x ∈ w.backups, ∀ y ∈ w.backups, x.key = key → y.key ≠ key → (x.serverID, newName) ≠ y.key := by
      intro x hx y hy hxk hyk he
      have hserver : key.1 = x.serverID := congrArg Prod.fst hxk.symm
      by_cases hsame : key.2 = newName
      · exact hyk (he.symm.trans (Prod.ext hserver.symm hsame.symm))
      · have := hfree x hx hxk hsame
        rw [hserver, he, World.byName, rowAt_of_mem h hy] at this
        cases this
    simp [World.unique, updateWhere]
    refine List.Nodup.map_on (fun x hx y hy he => ?_) h.of_map
    simp [Function.comp] at he
    by_cases hxk : x.key = key <;> by_cases hyk : y.key = key
    · exact List.inj_on_of_nodup_map h hx hy (hxk.trans hyk.symm)
    · rw [if_pos hxk, if_neg hyk] at he
      exact absurd he (hnew x hx y hy hxk hyk)
    · rw [if_neg hxk, if_pos hyk] at he
      exact absurd he.symm (hnew y hy x hx hyk hxk)
    · rw [if_neg hxk, if_neg hyk] at he
      exact List.inj_on_of_nodup_map h hx hy he

theorem handle_unique (h : w.unique) (c : BackupCall) : (w.handle c).2.unique := by
  cases c with
  | upsertRow => exact unique_upsertRow h
  | deleteRow | deleteOld => exact unique_deleteWhere h
  | setLocked => exact unique_updateWhere h fun _ => rfl
  | setName => exact unique_setName h
  | getBackupByName | selectLocked =>
    simp [World.handle]
    split <;> exact h
  | _ => exact h

theorem read_unlocked {o : Outcome} (h : w.unique) (hr : backupStore.answer w (.selectLocked key) o = some (.ok false, w')) :
    w'.unlocked key := by
  have he := System.answer_delivered hr nofun
  change _ = World.handle w (.selectLocked key) at he
  simp [World.handle] at he
  split at he
  · rename_i b hrow
    obtain ⟨hfree, rfl⟩ := Prod.mk.inj he
    intro b' hb' hkey
    obtain rfl : b = b' := by
      rw [← hkey] at hrow
      exact Option.some.inj (hrow.symm.trans (rowAt_of_mem h hb'))
    exact (Except.ok.inj hfree).symm
  · cases he

end

def Careful (w : World) (t : BackupTask) (p : Store Unit) : Prop :=
  ∃ m, wp (danger t) p (fun _ m => m = none) m ∧ ∀ key, m = some key → w.unlocked key

theorem pending_endangers {p : Store Unit} {j : Nat}
    (h : wp (danger t) p (fun _ m => m = none) (some key)) (hj : s.threads[j]? = some (t, p)) :
    (s.pending j).bind endangers = some key := by
  cases p with
  | ret => cases h
  | call =>
    rw [Config.pending_eq hj]
    exact h.1.1 key rfl

theorem careful_inv : ThreadInv backupStore (fun s l => proper s l = true) World.unique Careful where
  start s t _ _ := ⟨none, wp_program t, nofun⟩
  stop w t _ := ⟨none, rfl, nofun⟩
  tick w d h := ⟨h, fun t p h => h⟩
  call s i o t c k r w hI hJ ha hi hr := by
    obtain ⟨m, hm, hfree⟩ := mem_at hJ hi
    have hsends := Config.sends_eq o hi
    -- a row that another thread is about to remove stays unlocked
    have hkeep : ∀ key, s.world.unlocked key → (takesEffect (.call i o) = true → c ≠ .setLocked key true) → w.unlocked key := by
      intro key hkey hlock
      have hname : ∀ key' newName, c = .setName key' newName → s.world.unlocked key' := by
        rintro key' newName rfl
        exact hfree key' (hm.1.2 key' rfl)
      obtain ⟨rfl, he⟩ | ⟨e, rfl, -, rfl⟩ | ⟨e, rfl, -, rfl⟩ := System.answer_cases hr
      · obtain rfl : w = (s.world.handle c).2 := congrArg Prod.snd he
        exact handle_unlocked hkey (hlock rfl) hname
      · exact hkey
      · exact handle_unlocked hkey (hlock rfl) hname
    refine ⟨?_, ⟨_, hm.2 r trivial, fun key hnext => ?_⟩, fun j t' p hji hj => ?_⟩
    · obtain rfl | rfl := System.answer_world hr
      · exact hI
      · exact handle_unique hI c
    · simp [danger] at hnext
      split at hnext
      · cases hnext
        exact read_unlocked hI hr
      · exact hkeep key (hfree key hnext) fun _ => nofun
      · cases hnext
    · obtain ⟨m', hm', hfree'⟩ := mem_at hJ hj
      refine ⟨m', hm', fun key hkey => hkeep key (hfree' key hkey) ?_⟩
      rintro heffect rfl
      subst hkey
      have hall := ha
      simp [proper, heffect, hsends] at hall
      exact hall j (lt_at hj) (pending_endangers hm' hj)

theorem step_keeps {l : Label BackupTask} (hJ : ∀ x ∈ s.threads, Careful s.world x.1 x.2)
    (ha : proper s l = true) (hunlock : unlocks b.key s l = false) (hn : backupStore.next s l = some s')
    (hb : b ∈ s.world.backups) (hlocked : b.isLocked = true) : ∃ b' ∈ s'.world.backups, b.Kept b' := by
  cases l with
  | start | tick =>
    cases hn
    exact ⟨b, hb, .refl b⟩
  | crash =>
    obtain ⟨t, p, -, rfl⟩ := System.next_crash hn
    exact ⟨b, hb, .refl b⟩
  | call i o =>
    obtain ⟨t, c, k, r, w, hi, hr, rfl⟩ := System.next_call hn
    have hsends := Config.sends_eq o hi
    obtain ⟨m, hm, hfree⟩ := mem_at hJ hi
    have hremove : removes c ≠ some b.key := by
      intro hc
      have := hfree b.key (hm.1.2 b.key hc) b hb rfl
      exact Bool.false_ne_true (this.symm.trans hlocked)
    have hhandle : takesEffect (.call i o) = true → ∃ b' ∈ (s.world.handle c).2.backups, b.Kept b' := by
      intro heffect
      refine handle_keeps hb hlocked ?_ hremove ?_
      · rintro serverID req rfl he
        simp [proper, heffect, hsends] at ha
        simpa [he, hlocked] using ha b hb
      · rintro rfl
        simp [unlocks, heffect, hsends] at hunlock
    obtain ⟨rfl, he⟩ | ⟨e, rfl, -, rfl⟩ | ⟨e, rfl, -, rfl⟩ := System.answer_cases hr
    · obtain rfl : w = (s.world.handle c).2 := congrArg Prod.snd he
      exact hhandle rfl
    · exact ⟨b, hb, .refl b⟩
    · exact hhandle rfl

/-- A locked backup keeps its row, its name, checksum, size and status until it is unlocked, if
no step is improper. -/
theorem locked_backup_immutable {s₀ s s' : State} {ls ls' : List (Label BackupTask)} {b : Backup}
    (hidle : s₀.threads = []) (hunique : (s₀.world.backups.map Backup.key).Nodup)
    (h : Run backupStore.next (fun s l => proper s l = true) s₀ ls s) (hb : b ∈ s.world.backups)
    (hlocked : b.isLocked = true)
    (h' : Run backupStore.next (fun s l => proper s l = true ∧ unlocks b.key s l = false) s ls' s') :
    ∃ b' ∈ s'.world.backups, b.Kept b' := by
  have hs : s.world.unique ∧ ∀ x ∈ s.threads, Careful s.world x.1 x.2 :=
    careful_inv.run ⟨hunique, by simp [hidle]⟩ h
  refine (Run.invariant (I := fun s => (s.world.unique ∧ ∀ x ∈ s.threads, Careful s.world x.1 x.2) ∧
    ∃ b' ∈ s.world.backups, b.Kept b') ?_ ⟨hs, b, hb, .refl b⟩ h').2
  rintro s l s' ⟨hs, b', hb', hkept⟩ ⟨ha, hunlock⟩ hn
  refine ⟨careful_inv.step hs ha hn, ?_⟩
  obtain ⟨b'', hb'', hkept'⟩ := step_keeps hs.2 ha (hkept.key.symm ▸ hunlock) hn hb' (hkept.isLocked.trans hlocked)
  exact ⟨b'', hb'', hkept.trans hkept'⟩

def nightly : Backup :=
  { uuid := "u", serverID := "s", name := "nightly", checksum := "c", size := 7, status := "completed" }

def oneBackup : State := ⟨{ backups := [nightly], servers := ["s"], now := 9 }, []⟩

def nightlyLocked : Backup := { nightly with isLocked := true, updatedAt := 9 }

def delivered (i n : Nat) : List (Label BackupTask) := List.replicate n (.call i .delivered)

def locking : List (Label BackupTask) := [.start (.lock "s" "nightly")] ++ delivered 0 2

def others : List (Label BackupTask) :=
  [.start (.delete "s" "nightly")] ++ delivered 1 1 ++ [.start (.cleanup "s" 0 0)] ++ delivered 2 2 ++
    [.start (.upsert "s" { name := "weekly" })] ++ delivered 3 4

theorem locked_backup_immutable_nightly : ∃ s s' : State,
    Run backupStore.next (fun s l => proper s l = true) oneBackup locking s ∧ nightlyLocked ∈ s.world.backups ∧
      Run backupStore.next (fun s l => proper s l = true ∧ unlocks nightlyLocked.key s l = false) s others s' ∧
      ∃ b' ∈ s'.world.backups, nightlyLocked.Kept b' := by
  obtain ⟨s, hr, hmem, s', hr', -⟩ : ∃ s, Run backupStore.next (fun s l => proper s l = true) oneBackup locking s ∧
      nightlyLocked ∈ s.world.backups ∧
      ∃ s', Run backupStore.next (fun s l => proper s l = true ∧ unlocks nightlyLocked.key s l = false) s others s' ∧ True := by
    decide +kernel
  have hunique : (oneBackup.world.backups.map Backup.key).Nodup := List.nodup_singleton _
  exact ⟨s, s', hr, hmem, hr', locked_backup_immutable rfl hunique hr hmem rfl hr'⟩

def checkedBefore : List (Label BackupTask) := [.start (.delete "s" "nightly")] ++ delivered 0 1

def thenLocked : List (Label BackupTask) := [.start (.lock "s" "nightly")] ++ delivered 1 2

def thenUpserted : List (Label BackupTask) :=
  [.start (.upsert "s" { uuid := "v", name := "nightly", checksum := "d", size := 8, status := "failed" })] ++ delivered 2 1

theorem locked_backup_overwritten : ∃ s₁ s₂ s₃ : State,
    Run backupStore.next (fun _ _ => True) oneBackup (checkedBefore ++ thenLocked) s₁ ∧
      s₁.world.backups = [nightlyLocked] ∧
      Run backupStore.next (fun s l => unlocks nightly.key s l = false) s₁ thenUpserted s₂ ∧
      s₂.world.backups = [{ nightlyLocked with checksum := "d", size := 8, status := "failed" }] ∧
      Run backupStore.next (fun s l => unlocks nightly.key s l = false) s₂ (delivered 0 1) s₃ ∧
      s₃.world.backups = [] := by
  simp
  decide +kernel

end ForgePlane.Backups
