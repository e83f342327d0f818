import ForgePlane.Credential

/-!
# Subusers

What a subuser may do on a server is a list of permissions in a row of its own. Requested
permissions are normalised against one list of names, access is asked for under the names of
another, and nothing compares what is granted with what the grantor holds.
-/

namespace ForgePlane.Access

open List

/-! ## The tables -/

def normalizeEmail (s : String) : String := trimSpace (Engine.lower s)

structure Email where
  text : String
  normal : normalizeEmail text = text
  nonempty : text ≠ ""
  deriving DecidableEq

theorem mem_trimSpace {s : String} {c : Char} (h : c ∈ (trimSpace s).toList) : c ∈ s.toList := by
  unfold trimSpace at h
  rw [String.toList_ofList, mem_reverse] at h
  exact (dropWhile_sublist _).mem (mem_reverse.mp ((dropWhile_sublist _).mem h))

theorem Email.lower_text (e : Email) : Engine.lower e.text = e.text := by
  have hlower : ∀ c ∈ e.text.toList, c.toLower = c := by
    intro c hc
    rw [← e.normal] at hc
    have hc := mem_trimSpace hc
    rw [Engine.lower, String.toList_ofList] at hc
    obtain ⟨d, -, rfl⟩ := mem_map.mp hc
    exact toLower_toLower d
  rw [Engine.lower, map_congr_left hlower, map_id', String.ofList_toList]

theorem Email.trim_text (e : Email) : trimSpace e.text = e.text := by
  have h := e.normal
  rwa [normalizeEmail, e.lower_text] at h

structure User where
  id : String
  email : Email
  passwordHash : String := ""
  disabled : Bool := false
  subuserLimit : Int := 0
  deriving DecidableEq

structure Role where
  id : String
  key : String
  isAdmin : Bool := false
  deriving DecidableEq, Repr

structure UserRole where
  userID : String
  roleID : String
  assignedAt : Nat := 0
  deriving DecidableEq, Repr

def assignedRoles (roles : List Role) (userRoles : List UserRole) (userID : String) : List (UserRole × Role) :=
  ((userRoles.filter fun ur => ur.userID = userID).flatMap fun ur =>
    (roles.filter fun r => r.id = ur.roleID).map fun r => (ur, r)).insertionSort fun a b =>
      (a.2.isAdmin = true ∧ b.2.isAdmin = false) ∨ (a.2.isAdmin = b.2.isAdmin ∧ a.1.assignedAt ≤ b.1.assignedAt)

def roleName (roles : List Role) (userRoles : List UserRole) (userID : String) : String :=
  match (assignedRoles roles userRoles userID).head? with
  | some (_, r) => if r.isAdmin then "admin" else r.key
  | none => "user"

def isUUID (s : String) : Bool :=
  decide (s.toList.length = 36) && s.toList.all fun c => lowerHex c || decide (c = '-')

structure Server where
  id : String
  isUUID : isUUID id = true
  nodeID : String
  ownerID : String
  status : String
  suspended : Bool := false
  diskMB : Int := 0
  deriving DecidableEq

structure Subuser where
  id : String
  serverID : String
  userID : String
  permissions : List String
  createdAt : Nat
  updatedAt : Nat
  deriving DecidableEq, Repr

def Subuser.key (s : Subuser) : String × String := (s.serverID, s.userID)

structure Database where
  users : List User
  servers : List Server
  subusers : List Subuser := []
  roles : List Role := []
  userRoles : List UserRole := []
  now : Nat := 0
  userIDs : (users.map (·.id)).Nodup
  emails : (users.map (·.email)).Nodup
  serverIDs : (servers.map (·.id)).Nodup
  subuserKeys : (subusers.map Subuser.key).Nodup

structure ServerSubuser where
  id : String
  serverID : String
  userID : String
  email : String
  permissions : List String
  createdAt : Nat
  updatedAt : Nat
  deriving DecidableEq, Repr

structure UpsertServerSubuserRequest where
  email : String
  permissions : List String
  deriving DecidableEq, Repr

/-! ## Permissions -/

def allPermissions : List String :=
  ["websocket.connect",
   "control.console", "control.start", "control.stop", "control.restart",
   "database.read", "database.create", "database.update", "database.delete", "database.view_password",
   "schedule.read", "schedule.create", "schedule.update", "schedule.delete",
   "user.read", "user.create", "user.update", "user.delete",
   "backup.read", "backup.create", "backup.delete", "backup.download", "backup.restore",
   "allocation.read", "allocation.create", "allocation.update", "allocation.delete",
   "file.read", "file.read-content", "file.create", "file.update", "file.delete", "file.archive", "file.sftp",
   "startup.read", "startup.update", "startup.docker-image",
   "settings.rename", "settings.reinstall",
   "activity.read"]

def defaultSubuserPermissions : List String :=
  ["websocket.connect",
   "control.console", "control.start", "control.stop", "control.restart",
   "user.read", "user.create", "user.update", "user.delete",
   "file.read", "file.create", "file.update", "file.delete", "file.archive", "file.sftp",
   "backup.read", "backup.create", "backup.delete",
   "allocation.read", "allocation.update",
   "startup.read", "startup.update",
   "database.read", "database.create", "database.update", "database.delete",
   "schedule.read", "schedule.create", "schedule.update", "schedule.delete",
   "settings.read", "settings.reinstall"]

def keepPermissions (seen : List String) : List String → List String
  | [] => []
  | permission :: rest =>
    let permission := trimSpace permission
    if permission = "" ∨ permission ∈ seen ∨ (permission ∉ defaultSubuserPermissions ∧ permission ≠ "*") then
      keepPermissions seen rest
    else permission :: keepPermissions (permission :: seen) rest

def normalizeSubuserPermissions (input : List String) : List String := (keepPermissions [] input).insertionSort (· ≤ ·)

def hasPermission (permissions : List String) (required : String) : Bool :=
  permissions.any fun p => p = "*" || p = required

def grantable (p : String) : Prop := p ≠ "" ∧ (p ∈ defaultSubuserPermissions ∨ p = "*")

variable {p permission : String} {input granted : List String} {db : Database}

theorem mem_keepPermissions : ∀ {seen input : List String},
    p ∈ keepPermissions seen input ↔ p ∉ seen ∧ grantable p ∧ p ∈ input.map trimSpace
  | seen, [] => by simp [keepPermissions]
  | seen, x :: rest => by
    simp only [keepPermissions, map_cons, mem_cons]
    split
    · rename_i hskip
      rw [mem_keepPermissions]
      refine and_congr_right fun hseen => and_congr_right fun hgrant => ?_
      refine ⟨.inr, fun h => h.resolve_left ?_⟩
      rintro rfl
      obtain he | hs | ⟨hdefault, hstar⟩ := hskip
      · exact hgrant.1 he
      · exact hseen hs
      · exact hgrant.2.elim hdefault hstar
    · rename_i hkeep
      simp at hkeep
      rw [mem_cons, mem_keepPermissions, mem_cons]
      constructor
      · rintro (rfl | ⟨hseen, hgrant, hmem⟩)
        · refine ⟨hkeep.2.1, ⟨hkeep.1, ?_⟩, .inl rfl⟩
          by_cases hdefault : trimSpace x ∈ defaultSubuserPermissions
          · exact .inl hdefault
          · exact .inr (hkeep.2.2 hdefault)
        · exact ⟨fun h => hseen (.inr h), hgrant, .inr hmem⟩
      · rintro ⟨hseen, hgrant, hmem⟩
        by_cases hx : p = trimSpace x
        · exact .inl hx
        · exact .inr ⟨fun h => h.elim hx hseen, hgrant, hmem.resolve_left hx⟩

theorem mem_normalizeSubuserPermissions :
    p ∈ normalizeSubuserPermissions input ↔ grantable p ∧ p ∈ input.map trimSpace := by
  rw [normalizeSubuserPermissions, mem_insertionSort, mem_keepPermissions]
  simp

theorem hasPermission_iff {permissions : List String} :
    hasPermission permissions p = true ↔ "*" ∈ permissions ∨ p ∈ permissions := by
  simp [hasPermission]
  constructor
  · rintro ⟨x, hx, rfl | rfl⟩
    · exact .inl hx
    · exact .inr hx
  · rintro (h | h)
    · exact ⟨_, h, .inl rfl⟩
    · exact ⟨_, h, .inr rfl⟩

theorem hasPermission_trans {own : List String} (h : ∀ x ∈ granted, hasPermission own x = true)
    (hp : hasPermission granted p = true) : hasPermission own p = true := by
  obtain hstar | hmem := hasPermission_iff.mp hp
  · exact hasPermission_iff.mpr (.inl ((hasPermission_iff.mp (h _ hstar)).elim id id))
  · exact h p hmem

/-! ## The store's functions -/

namespace Database

open List

variable (db : Database)

def userCanAccessServer (serverID userID role permission : String) : Except Err Bool :=
  if role = "admin" then .ok true
  else
    match rowAt Server.id db.servers serverID with
    | none => .error "no rows in result set"
    | some server =>
      if server.ownerID = userID then .ok true
      else
        match rowAt Subuser.key db.subusers (serverID, userID) with
        | none => .ok false
        | some row => if permission = "" then .ok true else .ok (hasPermission row.permissions permission)

def getServerSubuser (serverID userID : String) : Except Err ServerSubuser :=
  match rowAt Subuser.key db.subusers (serverID, userID), rowAt User.id db.users userID with
  | some row, some user =>
    .ok { id := row.id, serverID := row.serverID, userID := row.userID, email := user.email.text
          permissions := row.permissions, createdAt := row.createdAt, updatedAt := row.updatedAt }
  | _, _ => .error "no rows in result set"

def putSubuser (id serverID userID : String) (permissions : List String) : Database :=
  if h : (serverID, userID) ∈ db.subusers.map Subuser.key then
    { db with
      subusers := updateWhere (fun s => s.key = (serverID, userID))
        (fun s => { s with permissions, updatedAt := db.now }) db.subusers
      subuserKeys := nodup_updateWhere db.subuserKeys fun _ => rfl }
  else
    { db with
      subusers := db.subusers ++ [{ id, serverID, userID, permissions, createdAt := db.now, updatedAt := db.now }]
      subuserKeys := by exact nodup_snoc db.subuserKeys h }

def upsertServerSubuser (newID serverID : String) (req : UpsertServerSubuserRequest) : Except Err ServerSubuser × Database :=
  let email := normalizeEmail req.email
  if email = "" then (.error "email is required", db)
  else
    let permissions := normalizeSubuserPermissions req.permissions
    if permissions = [] then (.error "at least one permission is required", db)
    else
      match rowAt Server.id db.servers serverID with
      | none => (.error "server not found", db)
      | some server =>
        match db.users.find? fun u => Engine.lower u.email.text = email with
        | none => (.error "user not found", db)
        | some user =>
          if user.id = server.ownerID then (.error "server owner cannot be added as a subuser", db)
          else
            let db' := db.putSubuser newID serverID user.id permissions
            (db'.getServerSubuser serverID user.id, db')

end Database

section
variable {db : Database} {newID serverID userID : String} {permissions : List String}
variable {req : UpsertServerSubuserRequest} {sub : ServerSubuser}

@[simp] theorem putSubuser_servers : (db.putSubuser newID serverID userID permissions).servers = db.servers := by
  unfold Database.putSubuser
  split <;> rfl

@[simp] theorem putSubuser_users : (db.putSubuser newID serverID userID permissions).users = db.users := by
  unfold Database.putSubuser
  split <;> rfl

theorem rowAt_putSubuser (key : String × String) :
    (rowAt Subuser.key (db.putSubuser newID serverID userID permissions).subusers key).map (·.permissions) =
      if key = (serverID, userID) then some permissions else (rowAt Subuser.key db.subusers key).map (·.permissions) := by
  have hupdate : rowAt Subuser.key (updateWhere (fun s => s.key = (serverID, userID))
      (fun s => { s with permissions, updatedAt := db.now }) db.subusers) key =
      if key = (serverID, userID) then
        (rowAt Subuser.key db.subusers key).map fun s => { s with permissions, updatedAt := db.now }
      else rowAt Subuser.key db.subusers key := rowAt_updateAt _ _ fun _ => rfl
  unfold Database.putSubuser
  by_cases hkey : key = (serverID, userID)
  · subst hkey
    rw [if_pos rfl]
    split
    · rename_i hold
      obtain ⟨row, hrow⟩ := Option.ne_none_iff_exists'.mp fun hn => rowAt_eq_none.mp hn hold
      rw [hupdate, if_pos rfl, hrow]
      rfl
    · rename_i hnew
      rw [rowAt_append, rowAt_eq_none.mpr hnew]
      simp [Subuser.key]
  · rw [if_neg hkey]
    split
    · rw [hupdate, if_neg hkey]
    · rw [rowAt_append, if_neg fun he => hkey he.symm, Option.or_none]

theorem upsertServerSubuser_cases (db : Database) (newID serverID : String) (req : UpsertServerSubuserRequest) :
    (∃ e, db.upsertServerSubuser newID serverID req = (.error e, db)) ∨
    ∃ server user, rowAt Server.id db.servers serverID = some server ∧ user ∈ db.users ∧ user.id ≠ server.ownerID ∧
      normalizeSubuserPermissions req.permissions ≠ [] ∧
      (db.upsertServerSubuser newID serverID req).2 =
        db.putSubuser newID serverID user.id (normalizeSubuserPermissions req.permissions) ∧
      (db.upsertServerSubuser newID serverID req).1 =
        (db.putSubuser newID serverID user.id (normalizeSubuserPermissions req.permissions)).getServerSubuser
          serverID user.id := by
  simp only [Database.upsertServerSubuser]
  split
  · exact .inl ⟨_, rfl⟩
  split
  · exact .inl ⟨_, rfl⟩
  rename_i hpermissions
  split
  · exact .inl ⟨_, rfl⟩
  rename_i server hserver
  split
  · exact .inl ⟨_, rfl⟩
  rename_i user huser
  split
  · exact .inl ⟨_, rfl⟩
  rename_i howner
  exact .inr ⟨server, user, hserver, mem_of_find?_eq_some huser, howner, hpermissions, rfl, rfl⟩

theorem getServerSubuser_userID (h : db.getServerSubuser serverID userID = .ok sub) : sub.userID = userID := by
  simp [Database.getServerSubuser] at h
  split at h
  · rename_i row user hrow huser
    cases h
    exact congrArg Prod.snd (rowAt_key hrow)
  · cases h

theorem access_of_row {server : Server} {role : String} (hserver : rowAt Server.id db.servers serverID = some server)
    (hrole : role ≠ "admin") (howner : server.ownerID ≠ userID)
    (hrow : (rowAt Subuser.key db.subusers (serverID, userID)).map (·.permissions) = some permissions) :
    db.userCanAccessServer serverID userID role p = .ok (decide (p = "") || hasPermission permissions p) := by
  obtain ⟨row, hfound, rfl⟩ := Option.map_eq_some_iff.mp hrow
  simp [Database.userCanAccessServer, if_neg hrole, hserver, if_neg howner, hfound]
  by_cases hp : p = "" <;> simp [hp]

end

/-! ## What is granted, and what was asked for -/

def requested (input : List String) (p : String) : Bool :=
  decide (p ∈ if input = [] then defaultSubuserPermissions else input) || decide ("*" ∈ input)

/-- The list has the wildcard, perhaps with spaces around it and with every permission; or it has only default
permissions, and none only with spaces around it. -/
def faithful (input : List String) : Bool :=
  decide ("*" ∈ input) ||
  if "*" ∈ input.map trimSpace then allPermissions.all (· ∈ input)
  else
    (input.all fun p => !decide (p ∈ allPermissions) || decide (p ∈ defaultSubuserPermissions)) &&
    (input.map trimSpace).all fun p =>
      !(decide (p ∈ allPermissions) && decide (p ∈ defaultSubuserPermissions)) || decide (p ∈ input)

theorem allPermissions_plain : ∀ p ∈ allPermissions, p ≠ "" ∧ p ≠ "*" ∧ ∀ c ∈ p.toList, isSpace c = false := by
  have hall : (allPermissions.all fun p => decide (p ≠ "") && decide (p ≠ "*") && p.toList.all fun c => !isSpace c) = true := by
    decide +kernel
  intro p hp
  have hp := all_eq_true.mp hall p hp
  simp at hp
  exact ⟨hp.1.1, hp.1.2, hp.2⟩

theorem trimSpace_of_mem (h : p ∈ allPermissions) : trimSpace p = p :=
  trimSpace_eq (allPermissions_plain p h).2.2

theorem trimSpace_star : trimSpace "*" = "*" := by
  refine trimSpace_eq fun c hc => ?_
  obtain rfl : c = '*' := by simpa using hc
  decide

theorem hasPermission_normalize (h : p ∈ allPermissions) :
    hasPermission (normalizeSubuserPermissions input) p = true ↔
      "*" ∈ input.map trimSpace ∨ (p ∈ defaultSubuserPermissions ∧ p ∈ input.map trimSpace) := by
  obtain ⟨hempty, hstar, -⟩ := allPermissions_plain p h
  rw [hasPermission_iff, mem_normalizeSubuserPermissions, mem_normalizeSubuserPermissions]
  refine or_congr (and_iff_right ⟨by decide, .inr rfl⟩) (and_congr_left fun _ => ?_)
  exact ⟨fun hp => hp.2.resolve_right hstar, fun hp => ⟨hempty, .inl hp⟩⟩

theorem normalize_faithful (hinput : input ≠ []) :
    (∀ p ∈ allPermissions, hasPermission (normalizeSubuserPermissions input) p = requested input p) ↔
      faithful input = true := by
  have hsame : ∀ p, hasPermission (normalizeSubuserPermissions input) p = requested input p ↔
      (hasPermission (normalizeSubuserPermissions input) p = true ↔ p ∈ input ∨ "*" ∈ input) := by
    intro p
    rw [Bool.eq_iff_iff]
    simp [requested, hinput]
  have htrimmed : ∀ p ∈ allPermissions, p ∈ input → p ∈ input.map trimSpace :=
    fun p hp hmem => mem_map.mpr ⟨p, hmem, trimSpace_of_mem hp⟩
  simp only [hsame, faithful, Bool.or_eq_true, decide_eq_true_eq]
  by_cases hstar : "*" ∈ input
  · have hstar' : "*" ∈ input.map trimSpace := mem_map.mpr ⟨"*", hstar, trimSpace_star⟩
    refine iff_of_true (fun p hp => ?_) (.inl hstar)
    exact iff_of_true ((hasPermission_normalize hp).mpr (.inl hstar')) (.inr hstar)
  simp only [hstar, or_false, false_or]
  by_cases hspaced : "*" ∈ input.map trimSpace
  · rw [if_pos hspaced, all_eq_true]
    refine forall₂_congr fun p hp => ?_
    simp [(hasPermission_normalize hp).mpr (.inl hspaced)]
  · rw [if_neg hspaced]
    simp only [Bool.and_eq_true, all_eq_true, Bool.or_eq_true, Bool.not_eq_true', decide_eq_false_iff_not,
      decide_eq_true_eq, Bool.and_eq_false_iff]
    constructor
    · intro h
      refine ⟨fun p hmem => or_iff_not_imp_left.mpr fun hp => ?_, fun p hmem => or_iff_not_imp_left.mpr fun hp => ?_⟩
      · have hp := not_not.mp hp
        exact (((hasPermission_normalize hp).mp ((h p hp).mpr hmem)).resolve_left hspaced).1
      · obtain ⟨hp, hdefault⟩ := not_or.mp hp
        have hp := not_not.mp hp
        exact (h p hp).mp ((hasPermission_normalize hp).mpr (.inr ⟨not_not.mp hdefault, hmem⟩))
    · rintro ⟨hdefault, hplain⟩ p hp
      rw [hasPermission_normalize hp]
      constructor
      · rintro (hs | ⟨hd, hmem⟩)
        · exact absurd hs hspaced
        · exact (hplain p hmem).resolve_left fun h => h.elim (· hp) (· hd)
      · exact fun hmem => .inr ⟨(hdefault p hmem).resolve_left (· hp), htrimmed p hp hmem⟩

/-- After a successful upsert the subuser has the permissions that were requested and no others
exactly when the list is faithful. -/
theorem granted_as_requested_iff {db db' : Database} {newID serverID role : String} {req : UpsertServerSubuserRequest}
    {sub : ServerSubuser} (h : db.upsertServerSubuser newID serverID req = (.ok sub, db')) (hrole : role ≠ "admin") :
    (∀ p ∈ allPermissions, db'.userCanAccessServer serverID sub.userID role p = .ok (requested req.permissions p)) ↔
      faithful req.permissions = true := by
  obtain ⟨e, he⟩ | ⟨server, user, hserver, -, howner, hnonempty, hdb, hread⟩ :=
    upsertServerSubuser_cases db newID serverID req
  · cases h.symm.trans he
  rw [h] at hdb hread
  obtain rfl : db' = _ := hdb
  have huser : sub.userID = user.id := getServerSubuser_userID hread.symm
  have haccess : ∀ p ∈ allPermissions, (db.putSubuser newID serverID user.id
      (normalizeSubuserPermissions req.permissions)).userCanAccessServer serverID sub.userID role p =
      .ok (hasPermission (normalizeSubuserPermissions req.permissions) p) := by
    intro p hp
    rw [huser, access_of_row (by rw [putSubuser_servers]; exact hserver) hrole (Ne.symm howner)
      (by rw [rowAt_putSubuser, if_pos rfl])]
    simp [(allPermissions_plain p hp).1]
  have hinput : req.permissions ≠ [] := by
    rintro he
    rw [he] at hnonempty
    exact hnonempty rfl
  rw [← normalize_faithful hinput]
  refine forall₂_congr fun p hp => ?_
  rw [haccess p hp, Except.ok.injEq]

def userO : User := { id := "o", email := ⟨"o@x", by decide +kernel, by decide⟩ }

def userA : User := { id := "a", email := ⟨"a@x", by decide +kernel, by decide⟩ }

def userU : User := { id := "u", email := ⟨"u@x", by decide +kernel, by decide⟩ }

def sampleServer : Server :=
  { id := "44444444-4444-4444-4444-444444444444", isUUID := by decide +kernel, nodeID := "n", ownerID := "o"
    status := "running" }

def sample : Database where
  users := [userO, userA, userU]
  servers := [sampleServer]
  userIDs := by decide
  emails := by decide +kernel
  serverIDs := by decide
  subuserKeys := by decide

def sampleID : String := sampleServer.id

theorem upsert_of_isOk {newID serverID : String} {req : UpsertServerSubuserRequest}
    (h : (db.upsertServerSubuser newID serverID req).1.isOk = true) :
    ∃ sub, db.upsertServerSubuser newID serverID req = (.ok sub, (db.upsertServerSubuser newID serverID req).2) := by
  cases hr : (db.upsertServerSubuser newID serverID req).1 with
  | error e =>
    rw [hr] at h
    cases h
  | ok sub => exact ⟨sub, Prod.ext hr rfl⟩

def startAndRead : UpsertServerSubuserRequest := { email := " U@x", permissions := ["control.start", "file.read"] }

theorem granted_as_requested_iff_sample : ∃ sub db', sample.upsertServerSubuser "i" sampleID startAndRead = (.ok sub, db') ∧
    ∀ p ∈ allPermissions, db'.userCanAccessServer sampleID sub.userID "user" p = .ok (requested startAndRead.permissions p) := by
  have hok : (sample.upsertServerSubuser "i" sampleID startAndRead).1.isOk = true := by decide +kernel
  obtain ⟨sub, h⟩ := upsert_of_isOk hok
  exact ⟨sub, _, h, (granted_as_requested_iff h (by decide)).mpr (by decide +kernel)⟩

def downloadAndRead : UpsertServerSubuserRequest := { email := "u@x", permissions := ["backup.download", "file.read"] }

theorem requested_permission_denied : ∃ sub db', sample.upsertServerSubuser "i" sampleID downloadAndRead = (.ok sub, db') ∧
    "backup.download" ∈ allPermissions ∧ requested downloadAndRead.permissions "backup.download" = true ∧
    db'.userCanAccessServer sampleID sub.userID "user" "backup.download" = .ok false := by
  refine ⟨⟨"i", sampleID, "u", "u@x", ["file.read"], 0, 0⟩, _, Prod.ext ?_ rfl, by decide, by decide, ?_⟩
  · decide +kernel
  · decide +kernel

/-! ## Requests for subusers -/

structure HttpError where
  status : Nat
  message : Err
  deriving DecidableEq, Repr

structure Session where
  sub : String
  role : String
  scopes : Option (List String) := none
  oauthServerID : String := ""
  deriving DecidableEq, Repr

def hasAdminScope (scopes : List String) (required : String) : Bool := scopes.any fun s => s = "*" || s = required

inductive SubuserRequest where
  | create (newID serverID : String) (req : UpsertServerSubuserRequest)
  | update (newID serverID userID : String) (permissions : List String)
  deriving DecidableEq, Repr

namespace Database

open List

variable (db : Database)

def checkServerPermission (c : Session) (serverID permission : String) : Except HttpError Unit :=
  if c.oauthServerID ≠ "" ∧ c.oauthServerID ≠ serverID then .error ⟨403, "oauth token is bound to a different server"⟩
  else if !(c.scopes.all fun scopes => hasAdminScope scopes "servers.write") then
    .error ⟨403, "missing api scope: servers.write"⟩
  else
    match db.userCanAccessServer serverID c.sub c.role permission with
    | .error _ => .error ⟨404, "server not found"⟩
    | .ok false =>
      .error ⟨403, if permission = "" then "server access is not assigned to this user"
        else "missing server permission: " ++ permission⟩
    | .ok true => .ok ()

def serverOwner (serverID : String) : Option String :=
  (rowAt Server.id db.servers serverID).bind fun server =>
    (rowAt User.id db.users server.ownerID).map fun owner => owner.email.text

/-- `subusers` has no column `owner_id`, so the count always fails and stays 0. -/
def checkUserCanCreateSubuser (userID : String) : Except Err Unit :=
  match db.users.find? fun u => u.id = userID && !u.disabled with
  | none => .ok ()
  | some user =>
    if user.subuserLimit = 0 then .ok ()
    else if 0 ≥ user.subuserLimit then .error "user subuser limit exceeded"
    else .ok ()

def upsertForRequest (newID serverID : String) (req : UpsertServerSubuserRequest) :
    Except HttpError ServerSubuser × Database :=
  match db.upsertServerSubuser newID serverID req with
  | (.error e, db') => (.error ⟨400, e⟩, db')
  | (.ok sub, db') => (.ok sub, db')

def serve (c : Session) : SubuserRequest → Except HttpError ServerSubuser × Database
  | .create newID serverID req =>
    match db.checkServerPermission c serverID "user.create" with
    | .error e => (.error e, db)
    | .ok _ =>
      match (db.serverOwner serverID).map db.checkUserCanCreateSubuser with
      | some (.error e) => (.error ⟨422, e⟩, db)
      | _ => db.upsertForRequest newID serverID req
  | .update newID serverID userID permissions =>
    match db.checkServerPermission c serverID "user.update" with
    | .error e => (.error e, db)
    | .ok _ =>
      match db.getServerSubuser serverID userID with
      | .error _ => (.error ⟨404, "subuser not found"⟩, db)
      | .ok existing => db.upsertForRequest newID serverID { email := existing.email, permissions }

end Database

namespace SubuserRequest

open List

def serverID : SubuserRequest → String
  | .create _ serverID _ => serverID
  | .update _ serverID _ _ => serverID

def permissions : SubuserRequest → List String
  | .create _ _ req => req.permissions
  | .update _ _ _ permissions => permissions

def needs : SubuserRequest → String
  | .create .. => "user.create"
  | .update .. => "user.update"

end SubuserRequest

/-- The actor holds, when the request is made, whatever of the requested permissions is kept. -/
def withinOwn (c : Session) (db : Database) (r : SubuserRequest) : Bool :=
  (normalizeSubuserPermissions r.permissions).all fun p =>
    decide (db.userCanAccessServer r.serverID c.sub c.role p = .ok true)

/-! ## Delegation -/

section
variable {db : Database} {c : Session} {r : SubuserRequest}

theorem upsertForRequest_db (db : Database) (newID serverID : String) (req : UpsertServerSubuserRequest) :
    (db.upsertForRequest newID serverID req).2 = (db.upsertServerSubuser newID serverID req).2 := by
  unfold Database.upsertForRequest
  split <;> simp_all

theorem checkServerPermission_ok {serverID : String} (h : db.checkServerPermission c serverID permission = .ok ()) :
    db.userCanAccessServer serverID c.sub c.role permission = .ok true := by
  simp [Database.checkServerPermission] at h
  split at h
  · cases h
  split at h
  · cases h
  split at h
  · cases h
  · cases h
  · assumption

theorem upsert_changes (db : Database) (newID serverID : String) (req : UpsertServerSubuserRequest) :
    (db.upsertServerSubuser newID serverID req).2 = db ∨ ∃ userID,
      (db.upsertServerSubuser newID serverID req).2 =
        db.putSubuser newID serverID userID (normalizeSubuserPermissions req.permissions) := by
  obtain ⟨e, he⟩ | ⟨server, user, -, -, -, -, hdb, -⟩ := upsertServerSubuser_cases db newID serverID req
  · exact .inl (congrArg Prod.snd he)
  · exact .inr ⟨user.id, hdb⟩

theorem serve_changes (db : Database) (c : Session) (r : SubuserRequest) :
    (db.serve c r).2 = db ∨
    (db.userCanAccessServer r.serverID c.sub c.role r.needs = .ok true ∧ ∃ newID userID,
      (db.serve c r).2 = db.putSubuser newID r.serverID userID (normalizeSubuserPermissions r.permissions)) := by
  cases r with
  | create newID serverID req =>
    simp [Database.serve]
    split
    · exact .inl rfl
    rename_i hcheck
    split
    · exact .inl rfl
    rw [upsertForRequest_db]
    obtain hsame | ⟨userID, hput⟩ := upsert_changes db newID serverID req
    · exact .inl hsame
    · exact .inr ⟨checkServerPermission_ok hcheck, newID, userID, hput⟩
  | update newID serverID userID permissions =>
    simp [Database.serve]
    split
    · exact .inl rfl
    rename_i hcheck
    split
    · exact .inl rfl
    rename_i existing _
    rw [upsertForRequest_db]
    obtain hsame | ⟨userID, hput⟩ := upsert_changes db newID serverID { email := existing.email, permissions }
    · exact .inl hsame
    · exact .inr ⟨checkServerPermission_ok hcheck, newID, userID, hput⟩

end

def Database.held (db : Database) (serverID userID : String) : Option (List String) :=
  (rowAt Subuser.key db.subusers (serverID, userID)).map (·.permissions)

theorem access_of_held {server : Server} {serverID userID role : String}
    (hserver : rowAt Server.id db.servers serverID = some server) (hrole : role ≠ "admin")
    (howner : server.ownerID ≠ userID) :
    db.userCanAccessServer serverID userID role p = .ok true ↔
      ∃ permissions, db.held serverID userID = some permissions ∧ (p = "" ∨ hasPermission permissions p = true) := by
  cases hheld : db.held serverID userID with
  | none =>
    have hrow : rowAt Subuser.key db.subusers (serverID, userID) = none := Option.map_eq_none_iff.mp hheld
    simp [Database.userCanAccessServer, hrole, hserver, howner, hrow]
  | some permissions =>
    rw [access_of_row hserver hrole howner hheld]
    simp

structure Delegated (c : Session) (serverID : String) (db₀ db : Database) : Prop where
  servers : db.servers = db₀.servers
  held : ∀ userID permissions, db.held serverID userID = some permissions → db₀.held serverID userID = some permissions ∨
    ∃ own, db₀.held serverID c.sub = some own ∧ ∀ p ∈ permissions, hasPermission own p = true

section
variable {c : Session} {server : Server} {serverID : String} {db₀ db : Database}

theorem Delegated.own (h : Delegated c serverID db₀ db) {permissions : List String}
    (hown : db.held serverID c.sub = some permissions) :
    ∃ own, db₀.held serverID c.sub = some own ∧ ∀ p, hasPermission permissions p = true → hasPermission own p = true := by
  obtain hsame | ⟨own, hold, hle⟩ := h.held c.sub permissions hown
  · exact ⟨permissions, hsame, fun _ hp => hp⟩
  · exact ⟨own, hold, fun _ hp => hasPermission_trans hle hp⟩

theorem Delegated.step (hserver : rowAt Server.id db₀.servers serverID = some server) (hrole : c.role ≠ "admin")
    (howner : server.ownerID ≠ c.sub) (h : Delegated c serverID db₀ db) {r : SubuserRequest}
    (hwithin : r.serverID = serverID → withinOwn c db r = true) : Delegated c serverID db₀ (db.serve c r).2 := by
  obtain hsame | ⟨hneeds, newID, userID, hput⟩ := serve_changes db c r
  · exact hsame.symm ▸ h
  rw [hput]
  refine ⟨putSubuser_servers.trans h.servers, fun userID' permissions hheld => ?_⟩
  rw [Database.held, rowAt_putSubuser] at hheld
  by_cases hkey : (serverID, userID') = (r.serverID, userID)
  · rw [if_pos hkey] at hheld
    obtain ⟨rfl, -⟩ := Prod.mk.inj hkey
    cases hheld
    have haccess : ∀ p, db.userCanAccessServer r.serverID c.sub c.role p = .ok true ↔
        ∃ permissions, db.held r.serverID c.sub = some permissions ∧ (p = "" ∨ hasPermission permissions p = true) :=
      fun p => access_of_held (h.servers ▸ hserver) hrole howner
    obtain ⟨mine, hmine, -⟩ := (haccess _).mp hneeds
    obtain ⟨own, hown, hle⟩ := h.own hmine
    refine .inr ⟨own, hown, fun p hp => hle p ?_⟩
    have hgrant : p ≠ "" := (mem_normalizeSubuserPermissions.mp hp).1.1
    obtain ⟨mine', hmine', hp'⟩ := (haccess p).mp (of_decide_eq_true (all_eq_true.mp (hwithin rfl) p hp))
    cases hmine.symm.trans hmine'
    exact hp'.resolve_left hgrant
  · rw [if_neg hkey] at hheld
    exact h.held userID' permissions hheld

/-- No user gains on the server a permission the actor was denied when they began, if every
request for that server stays within what the actor then holds. -/
theorem delegation_monotone {db₀ db : Database} {rs : List SubuserRequest} {server : Server}
    (hserver : rowAt Server.id db₀.servers serverID = some server) (hrole : c.role ≠ "admin") (howner : server.ownerID ≠ c.sub)
    (h : Run (fun db r => some (Database.serve db c r).2)
      (fun db r => r.serverID = serverID → withinOwn c db r = true) db₀ rs db)
    {userID role p : String} (hgains : db.userCanAccessServer serverID userID role p = .ok true)
    (hdenied : db₀.userCanAccessServer serverID userID role p ≠ .ok true) :
    db₀.userCanAccessServer serverID c.sub c.role p = .ok true := by
  have hD : Delegated c serverID db₀ db := by
    refine Run.invariant (I := Delegated c serverID db₀) ?_ ⟨rfl, fun _ _ h => .inl h⟩ h
    rintro db r _ hI hwithin ⟨⟩
    exact hI.step hserver hrole howner hwithin
  have hserver' : rowAt Server.id db.servers serverID = some server := hD.servers ▸ hserver
  have hrole' : role ≠ "admin" := by
    rintro rfl
    exact hdenied (by simp [Database.userCanAccessServer])
  have howner' : server.ownerID ≠ userID := by
    rintro rfl
    exact hdenied (by simp [Database.userCanAccessServer, hserver])
  obtain ⟨permissions, hheld, hp⟩ := (access_of_held hserver' hrole' howner').mp hgains
  obtain hsame | ⟨own, hown, hle⟩ := hD.held userID permissions hheld
  · exact absurd ((access_of_held hserver hrole' howner').mpr ⟨permissions, hsame, hp⟩) hdenied
  · refine (access_of_held hserver hrole howner).mpr ⟨own, hown, ?_⟩
    exact hp.imp_right fun hp => hasPermission_trans hle hp

end

def withActor (permissions : List String) : Database := sample.putSubuser "i" sampleID "a" permissions

def actor : Session := { sub := "a", role := "user" }

def grantRead : SubuserRequest := .create "j" sampleID { email := "u@x", permissions := ["file.read"] }

theorem delegation_monotone_sample :
    ((withActor ["file.read", "user.create"]).serve actor grantRead).2.userCanAccessServer sampleID "u" "user" "file.read" =
      .ok true ∧
    (withActor ["file.read", "user.create"]).userCanAccessServer sampleID "a" "user" "file.read" = .ok true := by
  have hr : Run (fun db r => some (Database.serve db actor r).2) (fun db r => r.serverID = sampleID → withinOwn actor db r = true)
      (withActor ["file.read", "user.create"]) [grantRead] ((withActor ["file.read", "user.create"]).serve actor grantRead).2 :=
    ⟨fun _ => by decide +kernel, _, rfl, rfl⟩
  have hgains : ((withActor ["file.read", "user.create"]).serve actor grantRead).2.userCanAccessServer
      sampleID "u" "user" "file.read" = .ok true := by decide +kernel
  have hserver : ∃ server, rowAt Server.id (withActor ["file.read", "user.create"]).servers sampleID = some server ∧
      server.ownerID ≠ actor.sub := ⟨_, rfl, by decide +kernel⟩
  obtain ⟨server, hserver, howner⟩ := hserver
  exact ⟨hgains, delegation_monotone hserver (by decide) howner hr hgains (by decide +kernel)⟩

def grantMyselfAll : SubuserRequest := .create "j" sampleID { email := "a@x", permissions := ["*"] }

theorem delegation_escalates :
    (withActor ["user.create"]).userCanAccessServer sampleID "a" "user" "file.delete" = .ok false ∧
    ((withActor ["user.create"]).serve actor grantMyselfAll).2.userCanAccessServer sampleID "a" "user" "file.delete" =
      .ok true := by
  constructor
  · decide +kernel
  · decide +kernel

end ForgePlane.Access
