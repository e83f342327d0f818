import ForgePlane.Subusers

/-!
# SFTP access

A session is opened by `AuthenticateSFTP`, from a user name that joins an address and a server,
and kept open by `AuthorizeSFTPSession`. Both look at `servers.status`, while a suspension is
written to `servers.suspended`; only the first looks at `users.disabled`.
-/

namespace ForgePlane.Access

open List

structure SFTPAuthResult where
  userID : String
  serverID : String
  permissions : List String
  diskLimitMB : Int
  suspended : Bool
  deriving DecidableEq, Repr

def splitUsername (username : String) : Option (String × String) :=
  match username.toList.reverse.span (· ≠ '.') with
  | (server, _ :: email) =>
    if email = [] ∨ server = [] then none else some (String.ofList email.reverse, String.ofList server.reverse)
  | (_, []) => none

namespace Database

open List

variable (db : Database)

def roleOf (userID : String) : String := roleName db.roles db.userRoles userID

/-- The end of both functions: what the state of the server and the user's part in it allow. -/
def openSession (server : Server) (userID : String) : Except Err SFTPAuthResult :=
  if server.status = "deleted" ∨ server.status = "installing" then .error "server state does not allow sftp"
  else
    let suspended := decide (server.status = "suspended")
    if suspended then .error "server is suspended"
    else
      let result (permissions : List String) : SFTPAuthResult :=
        { userID, serverID := server.id, permissions, diskLimitMB := server.diskMB, suspended }
      if db.roleOf userID = "admin" ∨ userID = server.ownerID then .ok (result ["*"])
      else
        match rowAt Subuser.key db.subusers (server.id, userID) with
        | none => .error "sftp access denied"
        | some row =>
          if row.permissions.any fun p => p = "*" || p = "file.sftp" then .ok (result row.permissions)
          else .error "sftp access denied"

def onNode (nodeID serverID : String) : Option Server := db.servers.find? fun s => s.id = serverID && s.nodeID = nodeID

def authenticateSFTP (check : String → String → Bool) (nodeID username password : String) : Except Err SFTPAuthResult :=
  match splitUsername (normalizeEmail username) with
  | none => .error "invalid username"
  | some (email, serverID) =>
    match db.users.find? fun u => Engine.lower u.email.text = email && !u.disabled, db.onNode nodeID serverID with
    | some user, some server =>
      if check user.passwordHash password then db.openSession server user.id else .error "invalid credentials"
    | _, _ => .error "invalid credentials"

def authorizeSFTPSession (nodeID userID serverID : String) : Except Err SFTPAuthResult :=
  match db.onNode nodeID serverID with
  | none => .error "sftp access denied"
  | some server => db.openSession server userID

/-! ## What changes accounts and servers -/

def setUserDisabled (userID : String) (disabled : Bool) : Database :=
  { db with
    users := updateWhere (fun u => u.id = userID) (fun u => { u with disabled }) db.users
    userIDs := nodup_updateWhere db.userIDs fun _ => rfl
    emails := nodup_updateWhere db.emails fun _ => rfl }

def setServerSuspension (serverID : String) (suspended : Bool) : Except Err Unit × Database :=
  (if db.servers.any fun s => s.id = serverID then .ok () else .error "server not found",
    { db with
      servers := updateWhere (fun s => s.id = serverID) (fun s => { s with suspended }) db.servers
      serverIDs := nodup_updateWhere db.serverIDs fun _ => rfl })

def deleteServerSubuser (serverID userID : String) : Except Err Unit × Database :=
  (if db.subusers.any fun s => s.key = (serverID, userID) then .ok () else .error "subuser not found",
    { db with
      subusers := deleteWhere (fun s => s.key = (serverID, userID)) db.subusers
      subuserKeys := db.subuserKeys.sublist (List.Sublist.map _ filter_sublist) })

end Database

inductive AccountOp where
  | setUserDisabled (userID : String) (disabled : Bool)
  | setServerSuspension (serverID : String) (suspended : Bool)
  | deleteServerSubuser (serverID userID : String)
  deriving DecidableEq, Repr

namespace Database

open List

def apply (db : Database) : AccountOp → Database
  | .setUserDisabled userID disabled => db.setUserDisabled userID disabled
  | .setServerSuspension serverID suspended => (db.setServerSuspension serverID suspended).2
  | .deleteServerSubuser serverID userID => (db.deleteServerSubuser serverID userID).2

def after (db : Database) (history : List AccountOp) : Database := history.foldl apply db

end Database

/-! ## The user name -/

variable {s : String} {c a b : Char} {l m : List Char}

theorem head_of_trimSpace (h : trimSpace s = s) (hs : s.toList = c :: l) :
    isSpace c = false := by
  have hdrop : (s.toList.dropWhile isSpace).length = s.toList.length := by
    have hle := (dropWhile_sublist (l := s.toList) isSpace).length_le
    have hle' := (dropWhile_sublist (l := (s.toList.dropWhile isSpace).reverse) isSpace).length_le
    have hlen : (trimSpace s).toList.length = s.toList.length := by rw [h]
    unfold trimSpace at hlen
    rw [String.toList_ofList, length_reverse] at hlen
    rw [length_reverse] at hle'
    omega
  have hself := (dropWhile_sublist (l := s.toList) isSpace).eq_of_length hdrop
  rw [hs] at hself
  cases hc : isSpace c with
  | false => rfl
  | true =>
    rw [dropWhile_cons_of_pos hc] at hself
    have := (dropWhile_sublist (l := l) isSpace).length_le
    rw [hself, length_cons] at this
    omega

theorem trimSpace_of_ends (hhead : s.toList = a :: l) (hlast : s.toList = m ++ [b])
    (ha : isSpace a = false) (hb : isSpace b = false) : trimSpace s = s := by
  unfold trimSpace
  rw [hhead, dropWhile_cons_of_neg (by simp [ha]), ← hhead, hlast, reverse_append, reverse_singleton,
    singleton_append, dropWhile_cons_of_neg (by simp [hb]), reverse_cons, reverse_reverse, ← hlast,
    String.ofList_toList]

theorem uuid_char (h : isUUID s = true) : s.toList ≠ [] ∧ ∀ c ∈ s.toList, c ≠ '.' ∧ c.toLower = c ∧ isSpace c = false := by
  simp [isUUID] at h
  refine ⟨fun he => by simp [he] at h, fun c hc => ?_⟩
  obtain hhex | rfl := h.2 c hc
  · refine ⟨?_, lowerHex_toLower hhex, lowerHex_not_space hhex⟩
    rintro rfl
    revert hhex
    decide
  · decide

theorem span_append {p : Char → Bool} (hl : ∀ x ∈ l, p x = true) (hc : p c = false) :
    (l ++ c :: m).span p = (l, c :: m) := by
  rw [span_eq_takeWhile_dropWhile, takeWhile_append_of_pos hl, dropWhile_append_of_pos hl,
    takeWhile_cons_of_neg (by simp [hc]), dropWhile_cons_of_neg (by simp [hc]), append_nil]

def sftpUsername (u : User) (server : Server) : String := u.email.text ++ "." ++ server.id

theorem splitUsername_sftpUsername (u : User) (server : Server) :
    splitUsername (normalizeEmail (sftpUsername u server)) = some (u.email.text, server.id) := by
  obtain ⟨hid, hchars⟩ := uuid_char server.isUUID
  have htext : u.email.text.toList ≠ [] := fun he => u.email.nonempty (by rw [← String.ofList_toList (s := u.email.text), he])
  have htoList : (sftpUsername u server).toList = u.email.text.toList ++ '.' :: server.id.toList := by
    simp [sftpUsername]
  have hlower : Engine.lower (sftpUsername u server) = sftpUsername u server := by
    have hmail : u.email.text.toList.map Char.toLower = u.email.text.toList := by
      have := congrArg String.toList u.email.lower_text
      rwa [Engine.lower, String.toList_ofList] at this
    have hserver : server.id.toList.map Char.toLower = server.id.toList :=
      (map_congr_left fun c hc => (hchars c hc).2.1).trans (map_id' _)
    rw [Engine.lower, htoList, map_append, map_cons, hmail, hserver, show '.'.toLower = '.' from rfl, ← htoList,
      String.ofList_toList]
  have htrim : trimSpace (sftpUsername u server) = sftpUsername u server := by
    obtain ⟨a, l, hal⟩ := exists_cons_of_ne_nil htext
    obtain ⟨m, b, hmb⟩ := (eq_nil_or_concat' server.id.toList).resolve_left hid
    refine trimSpace_of_ends (a := a) (l := l ++ '.' :: server.id.toList) (m := u.email.text.toList ++ '.' :: m) (b := b)
      ?_ ?_ (head_of_trimSpace u.email.trim_text hal) (hchars b (by simp [hmb])).2.2
    · rw [htoList, hal, cons_append]
    · rw [htoList, hmb, append_assoc, cons_append]
  rw [normalizeEmail, hlower, htrim, splitUsername, htoList, reverse_append, reverse_cons, append_assoc,
    singleton_append, span_append (fun x hx => by simpa using (hchars x (mem_reverse.mp hx)).1) (by simp)]
  simp [htext, hid]

/-! ## Who is let in -/

def admitted (db : Database) (nodeID : String) (u : User) (server : Server) : Prop :=
  server.nodeID = nodeID ∧ server.status ∉ ["deleted", "installing", "suspended"] ∧
    (db.roleOf u.id = "admin" ∨ u.id = server.ownerID ∨
      ∃ permissions, db.held server.id u.id = some permissions ∧ ("*" ∈ permissions ∨ "file.sftp" ∈ permissions))

def stranger (db : Database) (u : User) (server : Server) : Prop :=
  u.id ≠ server.ownerID ∧ db.roleOf u.id ≠ "admin" ∧ db.held server.id u.id = none

section
variable {db : Database} {u : User} {server : Server} {nodeID : String} {check : String → String → Bool} {password : String}

theorem onNode_eq (hs : server ∈ db.servers) :
    db.onNode nodeID server.id = if server.nodeID = nodeID then some server else none := by
  unfold Database.onNode
  cases hfind : db.servers.find? fun s => s.id = server.id && s.nodeID = nodeID with
  | none =>
    have := List.find?_eq_none.mp hfind server hs
    simp at this
    rw [if_neg this]
  | some s =>
    have hv := List.find?_some hfind
    simp at hv
    obtain rfl := inj_on_of_nodup_map db.serverIDs (mem_of_find?_eq_some hfind) hs hv.1
    rw [if_pos hv.2]

theorem find_user (hu : u ∈ db.users) :
    (db.users.find? fun x => Engine.lower x.email.text = u.email.text && !x.disabled) =
      if u.disabled then none else some u := by
  have hsame : ∀ x ∈ db.users, Engine.lower x.email.text = u.email.text → x = u := by
    intro x hx he
    rw [Email.lower_text] at he
    have hemail : x.email = u.email := by
      cases hx' : x.email
      cases hu' : u.email
      simpa [hx', hu'] using he
    exact inj_on_of_nodup_map db.emails hx hu hemail
  cases hfind : db.users.find? fun x => Engine.lower x.email.text = u.email.text && !x.disabled with
  | none =>
    have := List.find?_eq_none.mp hfind u hu
    simp [Email.lower_text] at this
    rw [if_pos this]
  | some x =>
    have hv := List.find?_some hfind
    simp at hv
    obtain rfl := hsame x (mem_of_find?_eq_some hfind) hv.1
    rw [if_neg (by simp [hv.2])]

theorem authenticateSFTP_toOption (hu : u ∈ db.users) (hs : server ∈ db.servers)
    (hpassword : check u.passwordHash password = true) :
    (db.authenticateSFTP check nodeID (sftpUsername u server) password).toOption =
      if u.disabled then none else (db.authorizeSFTPSession nodeID u.id server.id).toOption := by
  simp [Database.authenticateSFTP, Database.authorizeSFTPSession, splitUsername_sftpUsername, find_user hu, onNode_eq hs]
  by_cases hdisabled : u.disabled = true
  · simp [hdisabled, Except.toOption]
  · by_cases hnode : server.nodeID = nodeID
    · simp [hdisabled, hnode, hpassword]
    · simp [hdisabled, hnode, Except.toOption]

theorem openSession_isSome : (db.openSession server u.id).toOption.isSome = true ↔
    server.status ∉ ["deleted", "installing", "suspended"] ∧
    (db.roleOf u.id = "admin" ∨ u.id = server.ownerID ∨
      ∃ permissions, db.held server.id u.id = some permissions ∧ ("*" ∈ permissions ∨ "file.sftp" ∈ permissions)) := by
  simp only [Database.openSession, decide_eq_true_eq, mem_cons, not_mem_nil, or_false, not_or]
  split
  · rename_i hstate
    simp only [Except.toOption, Option.isSome_none, Bool.false_eq_true, false_iff, not_and]
    exact fun h => absurd hstate (not_or.mpr ⟨h.1, h.2.1⟩)
  rename_i hstate
  obtain ⟨hdeleted, hinstalling⟩ := not_or.mp hstate
  split
  · rename_i hsuspended
    simp [Except.toOption, hsuspended]
  rename_i hsuspended
  split
  · rename_i hpart
    refine iff_of_true rfl ⟨⟨hdeleted, hinstalling, hsuspended⟩, ?_⟩
    exact hpart.imp_right .inl
  rename_i hpart
  obtain ⟨hadmin, howner⟩ := not_or.mp hpart
  simp only [hdeleted, hinstalling, hsuspended, hadmin, howner, not_false_eq_true, and_self, true_and, false_or, Database.held]
  split
  · rename_i hrow
    simp [Except.toOption, hrow]
  · rename_i row hrow
    have hany : (row.permissions.any fun p => p = "*" || p = "file.sftp") = true ↔
        "*" ∈ row.permissions ∨ "file.sftp" ∈ row.permissions := by
      simp
      constructor
      · rintro ⟨p, hp, rfl | rfl⟩
        · exact .inl hp
        · exact .inr hp
      · rintro (h | h)
        · exact ⟨_, h, .inl rfl⟩
        · exact ⟨_, h, .inr rfl⟩
    rw [hrow, Option.map_some]
    split
    · rename_i h
      exact iff_of_true rfl ⟨_, rfl, hany.mp h⟩
    · rename_i h
      refine iff_of_false (by simp [Except.toOption]) ?_
      rintro ⟨permissions, ⟨⟩, hp⟩
      exact h (hany.mpr hp)

theorem authorizeSFTPSession_isSome (hs : server ∈ db.servers) :
    (db.authorizeSFTPSession nodeID u.id server.id).toOption.isSome = true ↔ admitted db nodeID u server := by
  simp only [Database.authorizeSFTPSession, onNode_eq hs, admitted]
  by_cases hnode : server.nodeID = nodeID
  · simp only [hnode, if_true, true_and]
    exact openSession_isSome
  · simp [hnode, Except.toOption]

theorem not_admitted_of_stranger (h : stranger db u server) : ¬ admitted db nodeID u server := by
  rintro ⟨-, -, hadmin | howner | ⟨permissions, hheld, -⟩⟩
  · exact h.2.1 hadmin
  · exact h.1 howner
  · cases h.2.2.symm.trans hheld

end

/-- The two functions agree and deny a disabled user, a suspended server and a stranger, exactly if the other checks
turn away whoever is disabled or meets a suspended server. -/
theorem sftp_access_iff {db₀ : Database} (history : List AccountOp) {u : User} {server : Server} {nodeID password : String}
    {check : String → String → Bool} (hu : u ∈ (db₀.after history).users) (hs : server ∈ (db₀.after history).servers)
    (hpassword : check u.passwordHash password = true) :
    (((db₀.after history).authenticateSFTP check nodeID (sftpUsername u server) password).toOption =
        ((db₀.after history).authorizeSFTPSession nodeID u.id server.id).toOption ∧
      (u.disabled = true ∨ server.suspended = true ∨ stranger (db₀.after history) u server →
        ((db₀.after history).authenticateSFTP check nodeID (sftpUsername u server) password).toOption = none ∧
        ((db₀.after history).authorizeSFTPSession nodeID u.id server.id).toOption = none)) ↔
    (u.disabled = true ∨ server.suspended = true → ¬ admitted (db₀.after history) nodeID u server) := by
  generalize db₀.after history = db at hu hs ⊢
  have hsession : (db.authorizeSFTPSession nodeID u.id server.id).toOption = none ↔ ¬ admitted db nodeID u server := by
    rw [← authorizeSFTPSession_isSome hs, Option.not_isSome_iff_eq_none]
  rw [authenticateSFTP_toOption hu hs hpassword]
  by_cases hdisabled : u.disabled = true
  · simp only [hdisabled, if_true, true_or, true_implies, hsession, true_and]
    exact ⟨fun h => h.2, fun h => ⟨(hsession.mpr h).symm, h⟩⟩
  · simp [hdisabled, hsession]
    constructor
    · exact fun h hsuspended => h (.inl hsuspended)
    · rintro h (hsuspended | hstranger)
      · exact h hsuspended
      · exact not_admitted_of_stranger hstranger

def plainCheck (hash password : String) : Bool := decide (hash = password)

def removed : Database := (withActor ["file.sftp"]).after [.deleteServerSubuser sampleID "a"]

theorem sftp_access_iff_removed :
    (removed.authenticateSFTP plainCheck "n" (sftpUsername userA sampleServer) "").toOption = none ∧
      (removed.authorizeSFTPSession "n" "a" sampleID).toOption = none := by
  have hu : userA ∈ removed.users := by decide +kernel
  have hs : sampleServer ∈ removed.servers := by decide +kernel
  have hstranger : stranger removed userA sampleServer := by
    refine ⟨by decide, by decide +kernel, by decide +kernel⟩
  have hallowed : ¬ (userA.disabled = true ∨ sampleServer.suspended = true) := by decide
  have h := (@sftp_access_iff (withActor ["file.sftp"]) [.deleteServerSubuser sampleID "a"] userA sampleServer "n" ""
    plainCheck hu hs rfl).mpr fun h => absurd h hallowed
  exact h.2 (.inr (.inr hstranger))

theorem sftp_access_left_open :
    (sampleServer.id ∈ ((sample.after [.setServerSuspension sampleID true]).servers.filter (·.suspended)).map (·.id) ∧
      ((sample.after [.setServerSuspension sampleID true]).authenticateSFTP plainCheck "n"
        (sftpUsername userO sampleServer) "").toOption.isSome = true ∧
      ((sample.after [.setServerSuspension sampleID true]).authorizeSFTPSession "n" "o" sampleID).toOption.isSome = true) ∧
    ("a" ∈ (((withActor ["file.sftp"]).after [.setUserDisabled "a" true]).users.filter (·.disabled)).map (·.id) ∧
      (((withActor ["file.sftp"]).after [.setUserDisabled "a" true]).authenticateSFTP plainCheck "n"
        (sftpUsername userA sampleServer) "").toOption.isSome = false ∧
      (((withActor ["file.sftp"]).after [.setUserDisabled "a" true]).authorizeSFTPSession "n" "a" sampleID).toOption.isSome =
        true) := by decide +kernel

end ForgePlane.Access
