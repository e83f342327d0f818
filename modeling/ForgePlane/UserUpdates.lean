import ForgePlane.Subusers

/-!
# User updates

`UpdateUser` builds its statement from two lists: the assignments, with the numbers of their
placeholders, and the arguments. The placeholders of the limits are counted from the first
limit, the arguments from the address.
-/

namespace ForgePlane.UserUpdate

open Access (Role UserRole normalizeEmail roleName)

inductive Limit where
  | cpu
  | memoryMB
  | diskMB
  | backup
  | database
  | allocation
  | subuser
  | schedule
  | server
  deriving DecidableEq, Repr

def Limit.all : List Limit := [.cpu, .memoryMB, .diskMB, .backup, .database, .allocation, .subuser, .schedule, .server]

theorem Limit.mem_all (l : Limit) : l ∈ Limit.all := by cases l <;> decide

structure UpdateUserRequest where
  email : String
  password : String := ""
  role : String := ""
  limit : Limit → Option Int := fun _ => none

structure Account where
  id : String
  email : String
  passwordHash : String := ""
  role : String := "user"
  sessionVersion : Nat := 0
  disabled : Bool := false
  limit : Limit → Int := fun _ => 0

structure User where
  id : String
  email : String
  role : String
  sessionVersion : Nat
  limit : Limit → Int

inductive Column where
  | email
  | passwordHash
  | role
  | limit (l : Limit)
  deriving DecidableEq, Repr

inductive ColumnType where
  | text
  | integer
  | uuid
  deriving DecidableEq, Repr

def Column.type : Column → ColumnType
  | .email => .text
  | .passwordHash => .text
  | .role => .text
  | .limit _ => .integer

inductive Arg where
  | text (s : String)
  | int (n : Int)
  deriving DecidableEq, Repr

structure Statement where
  sets : List (Column × Nat)
  bumpsSession : Bool
  whereID : Nat
  args : List Arg
  deriving DecidableEq, Repr

def limitClauses (req : UpdateUserRequest) : List Limit → List (Column × Nat) × List Arg → List (Column × Nat) × List Arg
  | [], acc => acc
  | l :: rest, (limitSets, limitArgs) =>
    match req.limit l with
    | none => limitClauses req rest (limitSets, limitArgs)
    | some n => limitClauses req rest (limitSets ++ [(.limit l, limitArgs.length + 1)], limitArgs ++ [.int n])

def effectiveRole (req : UpdateUserRequest) : String := if req.role = "" then "user" else req.role

def newHash (bcrypt : String → Except Err String) (req : UpdateUserRequest) : Except Err (Option String) :=
  if trimSpace req.password ≠ "" then (bcrypt req.password).map some else .ok none

def buildStatement (userID : String) (req : UpdateUserRequest) (hash : Option String) : Statement :=
  let email := normalizeEmail req.email
  let role := effectiveRole req
  let (limitSets, limitArgs) := limitClauses req Limit.all ([], [])
  match hash with
  | some hash =>
    if limitSets.length > 0 then
      { sets := [(.email, 1), (.passwordHash, 2), (.role, 3)] ++ limitSets
        bumpsSession := true
        whereID := limitArgs.length + 4
        args := [.text email, .text hash, .text role] ++ limitArgs ++ [.text userID] }
    else
      { sets := [(.email, 1), (.passwordHash, 2), (.role, 3)]
        bumpsSession := true
        whereID := 4
        args := [.text email, .text hash, .text role, .text userID] }
  | none =>
    if limitSets.length > 0 then
      { sets := [(.email, 1), (.role, 2)] ++ limitSets
        bumpsSession := false
        whereID := limitArgs.length + 3
        args := [.text email, .text role] ++ limitArgs ++ [.text userID] }
    else
      { sets := [(.email, 1), (.role, 2)]
        bumpsSession := false
        whereID := 3
        args := [.text email, .text role, .text userID] }

def prepareUpdate (bcrypt : String → Except Err String) (userID : String) (req : UpdateUserRequest) : Except Err Statement :=
  if normalizeEmail req.email = "" then .error "email is required"
  else if effectiveRole req ≠ "admin" ∧ effectiveRole req ≠ "user" then .error "invalid role"
  else
    match newHash bcrypt req with
    | .error e => .error e
    | .ok hash => .ok (buildStatement userID req hash)

namespace Statement

def uses (st : Statement) : List (Nat × ColumnType) := st.sets.map (fun s => (s.2, s.1.type)) ++ [(st.whereID, .uuid)]

def wellTyped (st : Statement) : Bool :=
  (st.uses.all fun a => st.uses.all fun b => a.1 ≠ b.1 || a.2 = b.2) &&
  ((List.range st.args.length).all fun i => st.uses.any fun a => a.1 = i + 1) &&
  st.uses.all fun a => 0 < a.1 && a.1 ≤ st.args.length

def arg (st : Statement) (k : Nat) : Option Arg := st.args[k - 1]?

end Statement

def Column.write : Column → Arg → Account → Account
  | .email, .text s, u => { u with email := s }
  | .passwordHash, .text s, u => { u with passwordHash := s }
  | .role, .text s, u => { u with role := s }
  | .limit l, .int n, u => { u with limit := fun l' => if l' = l then n else u.limit l' }
  | _, _, u => u

def Statement.assign (st : Statement) (u : Account) : Account :=
  let u := st.sets.foldl (fun u s => ((st.arg s.2).map fun a => s.1.write a u).getD u) u
  if st.bumpsSession then { u with sessionVersion := u.sessionVersion + 1 } else u

def Statement.exec (st : Statement) (users : List Account) : Except Err (List Account) :=
  if !st.wellTyped then .error "column is of type integer but expression is of type text"
  else
    let users' := updateWhere (fun u => st.arg st.whereID = some (.text u.id)) st.assign users
    if ¬ (users'.map (·.email)).Nodup then .error "duplicate key value violates unique constraint"
    else if users'.any fun u => Limit.all.any fun l => u.limit l < 0 then .error "violates check constraint"
    else .ok users'

structure Database where
  users : List Account := []
  roles : List Role := []
  userRoles : List UserRole := []
  now : Nat := 0

namespace Database

variable (db : Database)

def getUserByID (id : String) : Except Err User :=
  match db.users.find? fun u => u.id = id && !u.disabled with
  | none => .error "no rows in result set"
  | some u =>
    .ok { id := u.id, email := u.email, role := roleName db.roles db.userRoles id, sessionVersion := u.sessionVersion
          limit := u.limit }

def mapRole (userID role : String) : Except Err Database :=
  let chosen := db.roles.filter fun r => r.key = role
  if chosen ≠ [] ∧ userID ∉ db.users.map (·.id) then .error "violates foreign key constraint"
  else
    .ok { db with
      userRoles := deleteWhere (fun ur => ur.userID = userID) db.userRoles ++
        chosen.map fun r => { userID, roleID := r.id, assignedAt := db.now } }

def updateUser (bcrypt : String → Except Err String) (userID : String) (req : UpdateUserRequest) : Except Err User × Database :=
  match prepareUpdate bcrypt userID req with
  | .error e => (.error e, db)
  | .ok st =>
    match st.exec db.users with
    | .error e => (.error e, db)
    | .ok users =>
      match Database.mapRole { db with users } userID (effectiveRole req) with
      | .error e => (.error e, db)
      | .ok db' => (db'.getUserByID userID, db')

end Database

/-! ## What is asked of it -/

def supplied (req : UpdateUserRequest) (hash : Option String) : Column → Option Arg
  | .email => some (.text (normalizeEmail req.email))
  | .passwordHash => hash.map .text
  | .role => some (.text (effectiveRole req))
  | .limit l => (req.limit l).map .int

structure Statement.Binds (st : Statement) (wanted : Column → Option Arg) (userID : String) : Prop where
  bound : ∀ c k, (c, k) ∈ st.sets → st.arg k = wanted c
  assigned : ∀ c, wanted c ≠ none → ∃ k, (c, k) ∈ st.sets
  user : st.arg st.whereID = some (.text userID)

structure Stored (req : UpdateUserRequest) (hash : Option String) (old new : Account) : Prop where
  email : new.email = normalizeEmail req.email
  role : new.role = effectiveRole req
  password : new.passwordHash = hash.getD old.passwordHash
  limit : ∀ l, new.limit l = (req.limit l).getD (old.limit l)

def rejected (bcrypt : String → Except Err String) (req : UpdateUserRequest) : Prop :=
  normalizeEmail req.email = "" ∨ (effectiveRole req ≠ "admin" ∧ effectiveRole req ≠ "user") ∨
    ∃ e, newHash bcrypt req = .error e

section
variable {bcrypt : String → Except Err String} {userID : String} {req : UpdateUserRequest} {hash : Option String}
variable {db db' : Database} {user : User}

theorem prepareUpdate_cases (bcrypt : String → Except Err String) (userID : String) (req : UpdateUserRequest) :
    (rejected bcrypt req ∧ ∃ e, prepareUpdate bcrypt userID req = .error e) ∨
    (¬ rejected bcrypt req ∧ ∃ hash, newHash bcrypt req = .ok hash ∧
      prepareUpdate bcrypt userID req = .ok (buildStatement userID req hash)) := by
  unfold prepareUpdate rejected
  by_cases hemail : normalizeEmail req.email = ""
  · exact .inl ⟨.inl hemail, _, if_pos hemail⟩
  rw [if_neg hemail]
  by_cases hrole : effectiveRole req ≠ "admin" ∧ effectiveRole req ≠ "user"
  · exact .inl ⟨.inr (.inl hrole), _, if_pos hrole⟩
  rw [if_neg hrole]
  cases hhash : newHash bcrypt req with
  | error e => exact .inl ⟨.inr (.inr ⟨e, rfl⟩), e, rfl⟩
  | ok hash =>
    refine .inr ⟨?_, hash, rfl, rfl⟩
    rintro (h | h | ⟨e, h⟩)
    · exact hemail h
    · exact hrole h
    · cases h

theorem mem_limitClauses {s : Column × Nat} : ∀ {ls : List Limit} {acc : List (Column × Nat) × List Arg},
    s ∈ acc.1 → s ∈ (limitClauses req ls acc).1
  | [], _, h => h
  | l :: rest, (limitSets, limitArgs), h => by
    simp [limitClauses]
    split
    · exact mem_limitClauses h
    · exact mem_limitClauses (List.mem_append_left _ h)

theorem limitClauses_first : ∀ {ls : List Limit}, (∃ l ∈ ls, req.limit l ≠ none) →
    ∃ l, req.limit l ≠ none ∧ (.limit l, 1) ∈ (limitClauses req ls ([], [])).1
  | [], h => by simp at h
  | l :: rest, h => by
    simp [limitClauses]
    cases hl : req.limit l with
    | none =>
      obtain ⟨l', hmem, hl'⟩ := h
      obtain rfl | hmem := List.mem_cons.mp hmem
      · exact absurd hl hl'
      · exact limitClauses_first ⟨l', hmem, hl'⟩
    | some n => exact ⟨l, by simp [hl], mem_limitClauses (List.mem_singleton.mpr rfl)⟩

theorem limitClauses_none (h : ∀ l, req.limit l = none) : ∀ ls acc, limitClauses req ls acc = acc
  | [], _ => rfl
  | l :: rest, (limitSets, limitArgs) => by
    simp [limitClauses, h l]
    exact limitClauses_none h rest _

theorem not_binds_of_limit (h : ∃ l, req.limit l ≠ none) :
    ¬ (buildStatement userID req hash).Binds (supplied req hash) userID := by
  intro hbinds
  obtain ⟨l, hl⟩ := h
  have hsome : ∃ l ∈ Limit.all, req.limit l ≠ none := ⟨l, l.mem_all, hl⟩
  obtain ⟨l', hl', hfirst⟩ := limitClauses_first hsome
  have hpos : (limitClauses req Limit.all ([], [])).1.length > 0 := List.length_pos_of_mem hfirst
  obtain ⟨n, hn⟩ := Option.ne_none_iff_exists'.mp hl'
  have hset : (Column.limit l', 1) ∈ (buildStatement userID req hash).sets ∧
      (buildStatement userID req hash).arg 1 = some (.text (normalizeEmail req.email)) := by
    cases hash with
    | none | some =>
      simp only [buildStatement, if_pos hpos]
      exact ⟨List.mem_append_right _ hfirst, rfl⟩
  have := (hbinds.bound _ _ hset.1).symm.trans hset.2
  rw [supplied, hn] at this
  cases this

variable (h : ∀ l, req.limit l = none)
include h

theorem buildStatement_plain (hash : Option String) : buildStatement userID req hash =
      match hash with
      | some hash =>
        { sets := [(.email, 1), (.passwordHash, 2), (.role, 3)], bumpsSession := true, whereID := 4
          args := [.text (normalizeEmail req.email), .text hash, .text (effectiveRole req), .text userID] }
      | none =>
        { sets := [(.email, 1), (.role, 2)], bumpsSession := false, whereID := 3
          args := [.text (normalizeEmail req.email), .text (effectiveRole req), .text userID] } := by
  cases hash <;> simp [buildStatement, limitClauses_none h]

theorem binds_of_plain : (buildStatement userID req hash).Binds (supplied req hash) userID := by
  rw [buildStatement_plain h]
  cases hash with
  | none =>
    refine ⟨fun c k hmem => ?_, fun c hc => ?_, rfl⟩
    · simp at hmem
      obtain ⟨rfl, rfl⟩ | ⟨rfl, rfl⟩ := hmem <;> rfl
    · cases c with
      | email => exact ⟨1, by simp⟩
      | role => exact ⟨2, by simp⟩
      | passwordHash => exact absurd rfl hc
      | limit l => exact absurd (by simp [supplied, h l]) hc
  | some hash =>
    refine ⟨fun c k hmem => ?_, fun c hc => ?_, rfl⟩
    · simp at hmem
      obtain ⟨rfl, rfl⟩ | ⟨rfl, rfl⟩ | ⟨rfl, rfl⟩ := hmem <;> rfl
    · cases c with
      | email => exact ⟨1, by simp⟩
      | passwordHash => exact ⟨2, by simp⟩
      | role => exact ⟨3, by simp⟩
      | limit l => exact absurd (by simp [supplied, h l]) hc

theorem assign_plain (u : Account) :
    ((buildStatement userID req hash).assign u).id = u.id ∧ Stored req hash u ((buildStatement userID req hash).assign u) := by
  rw [buildStatement_plain h]
  cases hash with
  | none | some => exact ⟨rfl, rfl, rfl, rfl, fun l => by rw [h l]; rfl⟩

omit h

theorem exec_ok {st : Statement} {users users' : List Account} (h : st.exec users = .ok users') :
    users' = updateWhere (fun u => st.arg st.whereID = some (.text u.id)) st.assign users := by
  simp only [Statement.exec] at h
  split at h
  · cases h
  split at h
  · cases h
  split at h
  · cases h
  · exact (Except.ok.inj h).symm

theorem updateUser_ok (h : db.updateUser bcrypt userID req = (.ok user, db')) :
    ∃ hash, newHash bcrypt req = .ok hash ∧ (buildStatement userID req hash).exec db.users = .ok db'.users ∧
      db'.getUserByID userID = .ok user := by
  simp [Database.updateUser] at h
  obtain ⟨-, e, hprepare⟩ | ⟨-, hash, hhash, hprepare⟩ := prepareUpdate_cases bcrypt userID req
  · rw [hprepare] at h
    cases h
  rw [hprepare] at h
  simp only at h
  split at h
  · cases h
  rename_i users hexec
  simp [Database.mapRole] at h
  split at h
  · cases h
  rename_i db'' hmap
  split at hmap
  · cases hmap
  cases hmap
  obtain ⟨hread, rfl⟩ := Prod.mk.inj h
  exact ⟨hash, hhash, hexec, hread⟩

theorem stored_of_plain (hplain : ∀ l, req.limit l = none) (h : db.updateUser bcrypt userID req = (.ok user, db')) :
    ∃ hash old new, newHash bcrypt req = .ok hash ∧ rowAt Account.id db.users userID = some old ∧
      rowAt Account.id db'.users userID = some new ∧ Stored req hash old new := by
  obtain ⟨hash, hhash, hexec, hread⟩ := updateUser_ok h
  have hrow : rowAt Account.id db'.users userID =
      (rowAt Account.id db.users userID).map (buildStatement userID req hash).assign := by
    rw [exec_ok hexec, rowAt_updateWhere _ _ fun u => (assign_plain hplain u).1]
    refine Option.map_congr fun u hu => if_pos ?_
    rw [(binds_of_plain hplain).user, rowAt_key hu]
    simp
  cases hnew : rowAt Account.id db'.users userID with
  | none =>
    simp [Database.getUserByID] at hread
    split at hread
    · cases hread
    rename_i u hu
    have hid := List.find?_some hu
    simp at hid
    exact absurd (List.mem_map.mpr ⟨u, List.mem_of_find?_eq_some hu, hid.1⟩) (rowAt_eq_none.mp hnew)
  | some new =>
    obtain ⟨old, hold, rfl⟩ := Option.map_eq_some_iff.mp (hrow.symm.trans hnew)
    exact ⟨hash, old, _, hhash, hold, rfl, (assign_plain hplain old).2⟩

end

/-- The statement binds every column to its argument, and an update that succeeds has stored what was requested,
exactly if no statement is built or no limit is requested. -/
theorem update_binds_iff (db : Database) (bcrypt : String → Except Err String) (userID : String) (req : UpdateUserRequest) :
    ((∀ hash st, newHash bcrypt req = .ok hash → prepareUpdate bcrypt userID req = .ok st →
        st.Binds (supplied req hash) userID) ∧
      ∀ user db', db.updateUser bcrypt userID req = (.ok user, db') →
        ∃ hash old new, newHash bcrypt req = .ok hash ∧ rowAt Account.id db.users userID = some old ∧
          rowAt Account.id db'.users userID = some new ∧ Stored req hash old new) ↔
    (rejected bcrypt req ∨ ∀ l, req.limit l = none) := by
  constructor
  · rintro ⟨hbinds, -⟩
    obtain ⟨hrejected, -⟩ | ⟨-, hash, hhash, hprepare⟩ := prepareUpdate_cases bcrypt userID req
    · exact .inl hrejected
    · right
      by_contra hlimit
      exact not_binds_of_limit (not_forall.mp hlimit) (hbinds hash _ hhash hprepare)
  · rintro (hrejected | hplain)
    · obtain ⟨-, e, hprepare⟩ | ⟨hnot, -⟩ := prepareUpdate_cases bcrypt userID req
      · refine ⟨fun hash st _ h => ?_, fun user db' h => ?_⟩
        · cases hprepare.symm.trans h
        · simp only [Database.updateUser, hprepare] at h
          cases h
      · exact absurd hrejected hnot
    · refine ⟨fun hash st hhash h => ?_, fun user db' h => stored_of_plain hplain h⟩
      obtain ⟨-, e, hprepare⟩ | ⟨-, hash', hhash', hprepare⟩ := prepareUpdate_cases bcrypt userID req
      · cases hprepare.symm.trans h
      · cases hhash.symm.trans hhash'
        cases hprepare.symm.trans h
        exact binds_of_plain hplain

def cpuOnly : UpdateUserRequest := { email := "u@x", limit := fun l => if l = .cpu then some 4 else none }

theorem limit_bound_to_email :
    prepareUpdate .ok "u" cpuOnly = .ok
      { sets := [(.email, 1), (.role, 2), (.limit .cpu, 1)], bumpsSession := false, whereID := 4
        args := [.text "u@x", .text "user", .int 4, .text "u"] } ∧
    supplied cpuOnly none (.limit .cpu) = some (.int 4) ∧
    (Database.updateUser { users := [{ id := "u", email := "u@x" }] } .ok "u" cpuOnly).1.toOption.isSome = false := by
  refine ⟨by decide +kernel, by decide +kernel, by decide +kernel⟩

end ForgePlane.UserUpdate
