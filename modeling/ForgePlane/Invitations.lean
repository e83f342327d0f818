import ForgePlane.Ghosts
import ForgePlane.Subusers

/-!
# Invitations

An invitation is read, its subuser written and the invitation marked in statements of their own, and
neither the write nor the mark looks again at whether the invitation is still open. Its address is
compared as it was sent.
-/

namespace ForgePlane.Invitations

open Access System List

/-! ## The table -/

structure SubuserInvitation where
  id : String
  serverID : String
  email : String
  permissions : List String
  token : String
  createdBy : Option String := none
  expiresAt : Nat
  acceptedAt : Option Nat := none
  revokedAt : Option Nat := none
  deriving DecidableEq, Repr

structure InvitationTable where
  rows : List SubuserInvitation
  ids : (rows.map (·.id)).Nodup
  tokens : (rows.map (·.token)).Nodup

namespace InvitationTable

open List

variable (t : InvitationTable)

def byID (id : String) : Option SubuserInvitation := rowAt (·.id) t.rows id

def byToken (token : String) : Option SubuserInvitation := rowAt (·.token) t.rows token

def taken (row : SubuserInvitation) : Bool := t.rows.any fun v => v.id = row.id || v.token = row.token

def insert (row : SubuserInvitation) (h : t.taken row = false) : InvitationTable where
  rows := t.rows ++ [row]
  ids := by
    refine nodup_snoc t.ids fun hid => ?_
    obtain ⟨v, hv, hid⟩ := mem_map.mp hid
    simpa [hid] using any_eq_false.mp h v hv
  tokens := by
    refine nodup_snoc t.tokens fun htoken => ?_
    obtain ⟨v, hv, htoken⟩ := mem_map.mp htoken
    simpa [htoken] using any_eq_false.mp h v hv

def update (p : SubuserInvitation → Bool) (f : SubuserInvitation → SubuserInvitation)
    (hf : ∀ v, (f v).id = v.id ∧ (f v).token = v.token) : InvitationTable where
  rows := updateWhere p f t.rows
  ids := nodup_updateWhere t.ids fun v => (hf v).1
  tokens := nodup_updateWhere t.tokens fun v => (hf v).2

def markAccepted (id : String) (now : Nat) : InvitationTable :=
  t.update (fun v => v.id = id) (fun v => { v with acceptedAt := some now }) fun _ => ⟨rfl, rfl⟩

def revocable (id : String) (v : SubuserInvitation) : Bool := v.id = id && v.acceptedAt.isNone

def revoke (id : String) (now : Nat) : InvitationTable :=
  t.update (revocable id) (fun v => { v with revokedAt := some now }) fun _ => ⟨rfl, rfl⟩

end InvitationTable

/-! ## The store's functions -/

inductive AcceptError where
  | notFound
  | expired
  | alreadyAccepted
  | revoked
  | userNotFound
  | emailMismatch
  | store (e : Err)
  deriving DecidableEq, Repr

def AcceptError.message : AcceptError → String
  | .notFound => "invitation not found"
  | .expired => "invitation has expired"
  | .alreadyAccepted => "invitation already accepted"
  | .revoked => "invitation has been revoked"
  | .userNotFound => "user not found"
  | .emailMismatch => "user email does not match invitation"
  | .store e => e

structure CreateSubuserInvitationRequest where
  email : String
  permissions : List String
  deriving DecidableEq, Repr

inductive InvitationTask where
  | create (serverID : String) (req : CreateSubuserInvitationRequest) (createdBy : Option String) (expiresIn : Nat)
  | accept (token userID : String)
  | revoke (id : String)
  deriving DecidableEq, Repr

inductive Answer where
  | created (r : Except Err SubuserInvitation)
  | accepted (token userID : String) (r : Except AcceptError ServerSubuser)
  | revoked (id : String) (r : Except Err Unit)
  deriving DecidableEq

structure Grant where
  invitation : String
  actor : String
  serverID : String
  userID : String
  deriving DecidableEq, Repr

inductive Query where
  | randomBytes
  | newUUID
  | now
  | serverExists (id : String)
  | userExists (id : String)
  | insertInvitation (row : SubuserInvitation)
  | invitationByID (id : String)
  | invitationByToken (token : String)
  | userEmail (userID : String)
  | serverOwner (serverID : String)
  | userByEmail (email : String)
  | putSubuser (grant : Grant) (id : String) (permissions : List String)
  | serverSubuser (serverID userID : String)
  | markAccepted (id : String)
  | revokeInvitation (id : String)
  | answer (a : Answer)

abbrev Reply : Query → Type
  | .randomBytes => Except Err (List UInt8)
  | .newUUID => String
  | .now => Nat
  | .serverExists _ => Except Err Bool
  | .userExists _ => Except Err Bool
  | .insertInvitation _ => Except Err Unit
  | .invitationByID _ => Except Err SubuserInvitation
  | .invitationByToken _ => Except Err SubuserInvitation
  | .userEmail _ => Except Err String
  | .serverOwner _ => Except Err String
  | .userByEmail _ => Except Err (Option String)
  | .putSubuser .. => Except Err Unit
  | .serverSubuser .. => Except Err ServerSubuser
  | .markAccepted _ => Except Err Unit
  | .revokeInvitation _ => Except Err Bool
  | .answer _ => Unit

abbrev Store := Prog Reply

def ask (c : Query) : Store (Reply c) := .call c .ret

def checkCreator : Option String → Store Bool
  | none => pure true
  | some userID => do
    match ← ask (.userExists userID) with
    | .ok true => pure true
    | _ => pure false

def createSubuserInvitation (serverID : String) (req : CreateSubuserInvitationRequest) (createdBy : Option String)
    (expiresIn : Nat) : Store (Except Err SubuserInvitation) := do
  if req.email = "" then pure (.error "email is required")
  else if req.permissions = [] then pure (.error "at least one permission is required")
  else
    match ← ask .randomBytes with
    | .error _ => pure (.error "failed to generate token")
    | .ok tokenBytes =>
      match ← ask (.serverExists serverID) with
      | .ok true =>
        match ← checkCreator createdBy with
        | false => pure (.error "creating user not found")
        | true =>
          let id ← ask .newUUID
          let now ← ask .now
          match ← ask (.insertInvitation { id, serverID, email := req.email, permissions := req.permissions
                                           token := hexEncode tokenBytes, createdBy, expiresAt := now + expiresIn }) with
          | .error e => pure (.error e)
          | .ok _ => ask (.invitationByID id)
      | _ => pure (.error "server not found")

def upsertServerSubuser (invitation serverID : String) (req : UpsertServerSubuserRequest) (actorID : String) :
    Store (Except Err ServerSubuser) := do
  let email := normalizeEmail req.email
  if email = "" then pure (.error "email is required")
  else
    let permissions := normalizeSubuserPermissions req.permissions
    if permissions = [] then pure (.error "at least one permission is required")
    else
      match ← ask (.serverOwner serverID) with
      | .error _ => pure (.error "server not found")
      | .ok ownerID =>
        match ← ask (.userByEmail email) with
        | .error e => pure (.error e)
        | .ok none => pure (.error "user not found")
        | .ok (some userID) =>
          if userID = ownerID then pure (.error "server owner cannot be added as a subuser")
          else
            let subuserID ← ask .newUUID
            match ← ask (.putSubuser { invitation, actor := actorID, serverID, userID } subuserID permissions) with
            | .error e => pure (.error e)
            | .ok _ => ask (.serverSubuser serverID userID)

def acceptSubuserInvitation (token userID : String) : Store (Except AcceptError ServerSubuser) := do
  match ← ask (.invitationByToken token) with
  | .error _ => pure (.error .notFound)
  | .ok invitation =>
    let now ← ask .now
    if invitation.expiresAt < now then pure (.error .expired)
    else if invitation.acceptedAt.isSome then pure (.error .alreadyAccepted)
    else if invitation.revokedAt.isSome then pure (.error .revoked)
    else
      match ← ask (.userEmail userID) with
      | .error _ => pure (.error .userNotFound)
      | .ok userEmail =>
        if userEmail ≠ invitation.email then pure (.error .emailMismatch)
        else
          match ← upsertServerSubuser invitation.id invitation.serverID
              { email := invitation.email, permissions := invitation.permissions } userID with
          | .error e => pure (.error (.store e))
          | .ok subuser =>
            match ← ask (.markAccepted invitation.id) with
            | .error e => pure (.error (.store e))
            | .ok _ => pure (.ok subuser)

def revokeSubuserInvitation (id : String) : Store (Except Err Unit) := do
  match ← ask (.revokeInvitation id) with
  | .error e => pure (.error e)
  | .ok false => pure (.error "invitation not found or already accepted")
  | .ok true => pure (.ok ())

def InvitationTask.program : InvitationTask → Store Unit
  | .create serverID req createdBy expiresIn => do
    let r ← createSubuserInvitation serverID req createdBy expiresIn
    ask (.answer (.created r))
  | .accept token userID => do
    let r ← acceptSubuserInvitation token userID
    ask (.answer (.accepted token userID r))
  | .revoke id => do
    let r ← revokeSubuserInvitation id
    ask (.answer (.revoked id r))

/-! ## The database -/

inductive Event where
  | granted (g : Grant)
  | answered (a : Answer)
  deriving DecidableEq

/-- The tables, and what was given and answered so far. Random bytes and identifiers are drawn
from what is fixed in advance. -/
structure World where
  db : Database
  invitations : InvitationTable
  drawn : Nat := 0
  random : Nat → List UInt8 := fun _ => []
  ids : Nat → String := fun _ => ""
  log : List Event := []

def noRows : Err := "no rows in result set"

def scan {α β : Type} (f : α → β) : Option α → Except Err β
  | some v => .ok (f v)
  | none => .error noRows

namespace World

open List

def handle (w : World) : (c : Query) → Reply c × World
  | .randomBytes => (.ok (w.random w.drawn), { w with drawn := w.drawn + 1 })
  | .newUUID => (w.ids w.drawn, { w with drawn := w.drawn + 1 })
  | .now => (w.db.now, w)
  | .serverExists id => (.ok (rowAt Server.id w.db.servers id).isSome, w)
  | .userExists id => (.ok (rowAt User.id w.db.users id).isSome, w)
  | .insertInvitation row =>
    if h : w.invitations.taken row = false then (.ok (), { w with invitations := w.invitations.insert row h })
    else (.error "duplicate key value violates unique constraint", w)
  | .invitationByID invitationID => (scan id (w.invitations.byID invitationID), w)
  | .invitationByToken token => (scan id (w.invitations.byToken token), w)
  | .userEmail userID => (scan (·.email.text) (rowAt User.id w.db.users userID), w)
  | .serverOwner serverID => (scan (·.ownerID) (rowAt Server.id w.db.servers serverID), w)
  | .userByEmail email => (.ok ((w.db.users.find? fun u => Engine.lower u.email.text = email).map (·.id)), w)
  | .putSubuser g id permissions =>
    (.ok (), { w with db := w.db.putSubuser id g.serverID g.userID permissions, log := w.log ++ [.granted g] })
  | .serverSubuser serverID userID => (w.db.getServerSubuser serverID userID, w)
  | .markAccepted id => (.ok (), { w with invitations := w.invitations.markAccepted id w.db.now })
  | .revokeInvitation id =>
    (.ok (w.invitations.rows.any (InvitationTable.revocable id)),
      { w with invitations := w.invitations.revoke id w.db.now })
  | .answer a => ((), { w with log := w.log ++ [.answered a] })

end World

def fault : (c : Query) → String → Option (Reply c)
  | .newUUID, _ => none
  | .now, _ => none
  | .answer _, _ => none
  | .randomBytes, e => some (.error e)
  | .serverExists _, e => some (.error e)
  | .userExists _, e => some (.error e)
  | .insertInvitation _, e => some (.error e)
  | .invitationByID _, e => some (.error e)
  | .invitationByToken _, e => some (.error e)
  | .userEmail _, e => some (.error e)
  | .serverOwner _, e => some (.error e)
  | .userByEmail _, e => some (.error e)
  | .putSubuser .., e => some (.error e)
  | .serverSubuser .., e => some (.error e)
  | .markAccepted _, e => some (.error e)
  | .revokeInvitation _, e => some (.error e)

def invitationStore : System Reply InvitationTask World where
  program := InvitationTask.program
  handle := World.handle
  fault := fault
  tick w d := { w with db := { w.db with now := w.db.now + d } }

abbrev State := Config Reply InvitationTask World

/-! ## What is asked of it -/

def succeeds (token : String) : Event → Bool
  | .answered (.accepted token' _ (.ok _)) => decide (token' = token)
  | _ => false

def underway (w : World) (id : String) : InvitationTask × Store Unit → Bool
  | (.accept _ _, .call (.invitationByToken _) _) => false
  | (.accept token _, .call _ _) => (w.invitations.byID id).any fun row => row.token = token
  | _ => false

def alone (s : State) (i : Nat) (id : String) : Bool := (s.threads.eraseIdx i).all fun x => !underway s.world id x

/-- An invitation is stored with a normal address, and is marked or revoked while no other accept
of it is under way. -/
def orderly (s : State) (l : Label InvitationTask) : Bool :=
  match l, s.sends l with
  | _, some (_, .insertInvitation row) => decide (normalizeEmail row.email = row.email)
  | .call i _, some (_, .markAccepted id) => alone s i id
  | .call i _, some (_, .revokeInvitation id) => alone s i id
  | _, _ => true

/-! ## What one call has learnt -/

inductive Phase where
  | idle
  | reading (row : SubuserInvitation)
  | clear (row : SubuserInvitation)
  | matched (row : SubuserInvitation)
  | mismatched (row : SubuserInvitation)
  | found (row : SubuserInvitation) (userID : String)
  | marked (row : SubuserInvitation)
  | revoked (id : String)
  deriving DecidableEq

namespace Phase

open List

def holds : Phase → Option SubuserInvitation
  | .reading row => some row
  | .clear row => some row
  | .matched row => some row
  | .mismatched row => some row
  | .found row _ => some row
  | _ => none

def hasMarked (token : String) : Phase → Bool
  | .marked row => decide (row.token = token)
  | _ => false

end Phase

def SubuserInvitation.isOpen (row : SubuserInvitation) : Prop := row.acceptedAt = none ∧ row.revokedAt = none

def Fits (users : List User) (t : InvitationTask) : Phase → Prop
  | .idle => True
  | .reading row => ∃ userID, t = .accept row.token userID
  | .clear row => row.isOpen ∧ ∃ userID, t = .accept row.token userID
  | .matched row => row.isOpen ∧ ∃ userID user, t = .accept row.token userID ∧ rowAt User.id users userID = some user ∧
      user.email.text = row.email
  | .mismatched row => ∃ userID user, t = .accept row.token userID ∧ rowAt User.id users userID = some user ∧
      user.email.text ≠ row.email
  | .found row userID => row.isOpen ∧ ∃ user, t = .accept row.token userID ∧ rowAt User.id users userID = some user ∧
      user.email.text = row.email
  | .marked row => ∃ userID, t = .accept row.token userID
  | .revoked id => t = .revoke id

def Supports (t : InvitationTask) (m : Phase) : Answer → Prop
  | .created _ => True
  | .accepted token userID r =>
    t = .accept token userID ∧ (∀ sub, r = .ok sub → ∃ row, m = .marked row) ∧
      (r = .error .emailMismatch → ∃ row, m = .mismatched row)
  | .revoked id r => r = .ok () → m = .revoked id

def watch (users : List User) (t : InvitationTask) : Monitor Reply Phase where
  admits m
    | .invitationByToken token => m = .idle ∧ ∃ userID, t = .accept token userID
    | .userEmail userID => ∃ row, m = .clear row ∧ t = .accept row.token userID
    | .userByEmail email => ∃ row, m = .matched row ∧ email = normalizeEmail row.email
    | .putSubuser g _ _ => ∃ row, m = .found row g.userID ∧ g.invitation = row.id ∧ t = .accept row.token g.actor
    | .markAccepted id => ∃ row userID, m = .found row userID ∧ row.id = id
    | .revokeInvitation id => m = .idle ∧ t = .revoke id
    | .answer a => Supports t m a
    | _ => True
  expects _ c r :=
    match c, r with
    | .invitationByToken token, .ok row => row.token = token
    | .userEmail userID, .ok email => ∃ user, rowAt User.id users userID = some user ∧ user.email.text = email
    | .userByEmail email, .ok (some userID) => ∃ user ∈ users, Engine.lower user.email.text = email ∧ user.id = userID
    | _, _ => True
  next m c r :=
    match c, r with
    | .invitationByToken _, .ok row => .reading row
    | .now, now =>
      match m with
      | .reading row =>
        if row.expiresAt < now ∨ row.acceptedAt.isSome ∨ row.revokedAt.isSome then .idle else .clear row
      | m => m
    | .userEmail _, .ok email =>
      match m with
      | .clear row => if email ≠ row.email then .mismatched row else .matched row
      | m => m
    | .userByEmail _, .ok (some userID) =>
      match m with
      | .matched row => .found row userID
      | m => m
    | .markAccepted _, .ok _ =>
      match m with
      | .found row _ => .marked row
      | m => m
    | .markAccepted _, .error _ => .idle
    | .revokeInvitation id, .ok true => .revoked id
    | .answer _, _ => .idle
    | _, _ => m

variable {token userID id : String} {users : List User} {row : SubuserInvitation} {c : Query} {m m' : Phase} {i : Nat}
variable {g : List Phase} {r : Reply c}

section
variable {t : InvitationTask} {serverID : String}

theorem silent_create (req : CreateSubuserInvitationRequest) (createdBy : Option String) (expiresIn : Nat) :
    All ((watch users t).Silent (· = .idle)) (createSubuserInvitation serverID req createdBy expiresIn) := by
  have hask : ∀ c, (watch users t).admits .idle c → (∀ r, (watch users t).next .idle c r = .idle) →
      All ((watch users t).Silent (· = .idle)) (ask c) := by
    rintro c ha hn
    refine ⟨?_, fun _ => trivial⟩
    rintro _ rfl
    exact ⟨ha, fun r _ => hn r⟩
  unfold createSubuserInvitation
  split
  · trivial
  split
  · trivial
  refine All.ok (hask _ trivial fun _ => rfl) fun tokenBytes => ?_
  refine All.ok (hask _ trivial fun _ => rfl) fun known => ?_
  cases known with
  | false => trivial
  | true =>
    refine All.bind ?_ fun r => ?_
    · match createdBy with
      | none => trivial
      | some creator =>
        refine All.ok (hask _ trivial fun _ => rfl) fun known => ?_
        cases known <;> trivial
    cases r with
    | false => trivial
    | true =>
      refine All.bind (hask _ trivial fun _ => rfl) fun id => ?_
      refine All.bind (hask _ trivial fun _ => rfl) fun now => ?_
      exact All.ok (hask _ trivial fun _ => rfl) fun _ => hask _ trivial fun _ => rfl

theorem wp_upsertServerSubuser : wp (watch users (.accept row.token userID))
    (upsertServerSubuser row.id row.serverID { email := row.email, permissions := row.permissions } userID)
    (fun r m => ∀ sub, r = .ok sub → ∃ target, m = .found row target) (.matched row) := by
  unfold upsertServerSubuser
  dsimp only
  split
  · exact nofun
  split
  · exact nofun
  refine wp_ask trivial (forall_result (fun ownerID _ => ?_) fun _ _ => nofun)
  refine wp_ask ⟨row, rfl, rfl⟩ fun r _ => ?_
  match r with
  | .error e => exact nofun
  | .ok none => exact nofun
  | .ok (some target) =>
    change wp _ (if target = ownerID then _ else _) _ (Phase.found row target)
    split
    · exact nofun
    refine wp_ask trivial fun subuserID _ => ?_
    refine wp_ask ⟨row, rfl, rfl, rfl⟩ fun r _ => ?_
    match r with
    | .error e => exact nofun
    | .ok _ => exact ⟨trivial, fun r _ sub _ => ⟨target, rfl⟩⟩

theorem wp_acceptSubuserInvitation : wp (watch users (.accept token userID)) (acceptSubuserInvitation token userID)
    (fun r m => Supports (.accept token userID) m (.accepted token userID r)) .idle := by
  have hrefuse : ∀ (e : AcceptError) (m : Phase), e ≠ .emailMismatch →
      Supports (.accept token userID) m (.accepted token userID (.error e)) :=
    fun e m he => ⟨rfl, nofun, fun h => absurd (Except.error.inj h) he⟩
  refine wp_ask ⟨rfl, userID, rfl⟩ fun r hr => ?_
  match r, hr with
  | .error e, _ => exact hrefuse _ _ nofun
  | .ok row, hr =>
    obtain rfl : row.token = token := hr
    refine wp_ask trivial fun now _ => ?_
    change wp _ (if row.expiresAt < now then _ else _) _ (if _ then Phase.idle else Phase.clear row)
    by_cases hexpired : row.expiresAt < now
    · rw [if_pos hexpired]
      exact hrefuse _ _ nofun
    by_cases haccepted : row.acceptedAt.isSome = true
    · rw [if_neg hexpired, if_pos haccepted]
      exact hrefuse _ _ nofun
    by_cases hrevoked : row.revokedAt.isSome = true
    · rw [if_neg hexpired, if_neg haccepted, if_pos hrevoked]
      exact hrefuse _ _ nofun
    rw [if_neg hexpired, if_neg haccepted, if_neg hrevoked, if_neg fun h => h.elim hexpired (·.elim haccepted hrevoked)]
    refine wp_ask ⟨row, rfl, rfl⟩ (forall_result (fun email _ => ?_) fun _ _ => hrefuse _ _ nofun)
    change wp _ (if email ≠ row.email then _ else _) _ (if email ≠ row.email then Phase.mismatched row else .matched row)
    by_cases hemail : email ≠ row.email
    · rw [if_pos hemail, if_pos hemail]
      exact ⟨rfl, nofun, fun _ => ⟨row, rfl⟩⟩
    rw [if_neg hemail, if_neg hemail]
    refine wp_then wp_upsertServerSubuser fun r m hm => ?_
    match r, hm with
    | .error e, _ => exact hrefuse _ _ nofun
    | .ok sub, hm =>
      obtain ⟨target, rfl⟩ := hm sub rfl
      refine wp_ask ⟨row, target, rfl, rfl⟩ fun r _ => ?_
      match r with
      | .error e => exact hrefuse _ _ nofun
      | .ok _ => exact ⟨rfl, fun _ _ => ⟨row, rfl⟩, nofun⟩

theorem wp_program (t : InvitationTask) : wp (watch users t) t.program (fun _ m => m = .idle) .idle := by
  have hanswer : ∀ a m, Supports t m a → wp (watch users t) (ask (.answer a)) (fun _ m => m = .idle) m :=
    fun a m h => ⟨h, fun _ _ => rfl⟩
  cases t with
  | create serverID req createdBy expiresIn =>
    exact wp_seq ((silent_create req createdBy expiresIn).wp rfl fun r => hanswer _ _ trivial)
  | accept =>
    exact wp_then wp_acceptSubuserInvitation fun r m hm => hanswer _ _ hm
  | revoke =>
    refine wp_seq (wp_ask ⟨rfl, rfl⟩ fun r _ => ?_)
    match r with
    | .error e => exact hanswer _ _ nofun
    | .ok false => exact hanswer _ _ nofun
    | .ok true => exact hanswer _ _ fun _ => rfl

theorem fits_next (hemails : (users.map (·.email)).Nodup) (hF : Fits users t m) (ha : (watch users t).admits m c) (he : (watch users t).expects m c r) :
    Fits users t ((watch users t).next m c r) := by
  cases c with
  | invitationByToken =>
    match r, he with
    | .error e, _ => exact hF
    | .ok row, he =>
      obtain ⟨-, userID, rfl⟩ := ha
      exact ⟨userID, congrArg (InvitationTask.accept · userID) (Eq.symm he)⟩
  | now =>
    cases m with
    | reading row =>
      change Fits users t (if _ then Phase.idle else Phase.clear row)
      split
      · trivial
      · rename_i hopen
        simp at hopen
        exact ⟨hopen.2, hF⟩
    | _ => exact hF
  | userEmail userID =>
    obtain ⟨row, rfl, ht⟩ := ha
    match r, he with
    | .error e, _ => exact hF
    | .ok email, ⟨user, huser, hemail⟩ =>
      change Fits users t (if email ≠ row.email then Phase.mismatched row else Phase.matched row)
      split
      · rename_i hne
        exact ⟨userID, user, ht, huser, hemail ▸ hne⟩
      · rename_i heq
        exact ⟨hF.1, userID, user, ht, huser, hemail.trans (not_not.mp heq)⟩
  | userByEmail =>
    obtain ⟨row, rfl, rfl⟩ := ha
    obtain ⟨hopen, userID, user, rfl, huser, hemail⟩ := hF
    match r, he with
    | .error e, _ => exact ⟨hopen, userID, user, rfl, huser, hemail⟩
    | .ok none, _ => exact ⟨hopen, userID, user, rfl, huser, hemail⟩
    | .ok (some target), ⟨other, hother, hlower, hid⟩ =>
      -- both addresses are normal, so the row that is found is the accepting user's
      have htext : other.email.text = user.email.text := by
        rw [Email.lower_text, ← hemail, user.email.normal] at hlower
        exact hlower
      have hsame : other.email = user.email := by
        cases ho : other.email
        cases hu : user.email
        simp [ho, hu] at htext
        subst htext
        rfl
      obtain rfl := inj_on_of_nodup_map hemails hother (rowAt_mem huser) hsame
      obtain rfl : userID = target := (rowAt_key huser).symm.trans hid
      exact ⟨hopen, other, rfl, huser, hemail⟩
  | markAccepted =>
    obtain ⟨row, userID, rfl, -⟩ := ha
    match r with
    | .error e => trivial
    | .ok _ =>
      obtain ⟨-, user, ht, -⟩ := hF
      exact ⟨userID, ht⟩
  | revokeInvitation =>
    match r with
    | .error e => exact hF
    | .ok false => exact hF
    | .ok true => exact ha.2
  | answer => trivial
  | _ => exact hF

end

structure InvitationTable.Grows (t t' : InvitationTable) : Prop where
  kept : ∀ row ∈ t.rows, ∃ row' ∈ t'.rows, row'.id = row.id ∧ row'.token = row.token ∧ row'.email = row.email ∧
    (row.acceptedAt.isSome = true → row'.acceptedAt.isSome = true) ∧
    (row.revokedAt.isSome = true → row'.revokedAt.isSome = true)

namespace World

open List

def accepted (w : World) (token : String) : Bool :=
  w.invitations.rows.any fun row => row.token = token && row.acceptedAt.isSome

def revoked (w : World) (id : String) : Bool := w.invitations.rows.any fun row => row.id = id && row.revokedAt.isSome

def invited (w : World) (g : Grant) : Prop :=
  g.userID = g.actor ∧ ∃ row ∈ w.invitations.rows, row.id = g.invitation ∧
    ∃ user ∈ w.db.users, user.id = g.actor ∧ normalizeEmail user.email.text = normalizeEmail row.email

def uninvited (w : World) (token userID : String) : Prop :=
  ∃ row ∈ w.invitations.rows, row.token = token ∧
    ∃ user ∈ w.db.users, user.id = userID ∧ normalizeEmail user.email.text ≠ normalizeEmail row.email

end World

def defies (a b : Event) : Prop := ∃ g, a = .answered (.revoked g.invitation (.ok ())) ∧ b = .granted g

structure Sound (users : List User) (w : World) (g : List Phase) : Prop where
  users_eq : w.db.users = users
  normal : ∀ row ∈ w.invitations.rows, normalizeEmail row.email = row.email
  held : ∀ m ∈ g, ∀ row, m.holds = some row → row ∈ w.invitations.rows
  once : ∀ token, w.log.countP (succeeds token) + g.countP (Phase.hasMarked token) ≤ if w.accepted token then 1 else 0
  revoking : ∀ id, Phase.revoked id ∈ g → w.revoked id = true
  shut : ∀ id, Event.answered (.revoked id (.ok ())) ∈ w.log → w.revoked id = true
  heeded : w.log.Pairwise fun a b => ¬ defies a b
  grants : ∀ x, Event.granted x ∈ w.log → w.invited x
  refusals : ∀ token userID, Event.answered (.accepted token userID (.error .emailMismatch)) ∈ w.log →
    w.uninvited token userID

section
variable {w w' : World}
variable {x : Grant}

variable (t : InvitationTable)

theorem InvitationTable.Grows.refl : t.Grows t := ⟨fun row h => ⟨row, h, rfl, rfl, rfl, id, id⟩⟩

theorem grows_insert (row : SubuserInvitation) (h : t.taken row = false) : t.Grows (t.insert row h) :=
  ⟨fun v hv => ⟨v, mem_append_left _ hv, rfl, rfl, rfl, id, id⟩⟩

theorem grows_markAccepted (id : String) (now : Nat) : t.Grows (t.markAccepted id now) := by
  refine ⟨fun v hv => ⟨_, mem_map_of_mem hv, ?_⟩⟩
  dsimp only
  split
  · exact ⟨rfl, rfl, rfl, fun _ => rfl, fun h => h⟩
  · exact ⟨rfl, rfl, rfl, fun h => h, fun h => h⟩

theorem grows_revoke (id : String) (now : Nat) : t.Grows (t.revoke id now) := by
  refine ⟨fun v hv => ⟨_, mem_map_of_mem hv, ?_⟩⟩
  dsimp only
  split
  · exact ⟨rfl, rfl, rfl, fun h => h, fun _ => rfl⟩
  · exact ⟨rfl, rfl, rfl, fun h => h, fun h => h⟩

variable (h : w.invitations.Grows w'.invitations)
include h

theorem InvitationTable.Grows.any {p : SubuserInvitation → Bool} (hp : ∀ row row', row'.id = row.id → row'.token = row.token →
    (row.acceptedAt.isSome = true → row'.acceptedAt.isSome = true) →
    (row.revokedAt.isSome = true → row'.revokedAt.isSome = true) → p row = true → p row' = true)
    (ha : w.invitations.rows.any p = true) : w'.invitations.rows.any p = true := by
  obtain ⟨row, hrow, hv⟩ := any_eq_true.mp ha
  obtain ⟨row', hrow', hid, htoken, -, haccepted, hrevoked⟩ := h.kept row hrow
  exact any_eq_true.mpr ⟨row', hrow', hp row row' hid htoken haccepted hrevoked hv⟩

theorem World.accepted_grows (ha : w.accepted token = true) : w'.accepted token = true := h.any (by simp_all) ha

theorem World.revoked_grows (ha : w.revoked id = true) : w'.revoked id = true := h.any (by simp_all) ha

theorem World.invited_grows (hu : w'.db.users = w.db.users) (hx : w.invited x) : w'.invited x := by
  obtain ⟨hself, row, hrow, hid, user, huser, huid, hemail⟩ := hx
  obtain ⟨row', hrow', hid', -, hemail', -, -⟩ := h.kept row hrow
  exact ⟨hself, row', hrow', hid'.trans hid, user, hu ▸ huser, huid, hemail' ▸ hemail⟩

theorem World.uninvited_grows (hu : w'.db.users = w.db.users)
    (hx : w.uninvited token userID) : w'.uninvited token userID := by
  obtain ⟨row, hrow, htoken, user, huser, huid, hemail⟩ := hx
  obtain ⟨row', hrow', -, htoken', hemail', -, -⟩ := h.kept row hrow
  exact ⟨row', hrow', htoken'.trans htoken, user, hu ▸ huser, huid, hemail' ▸ hemail⟩

omit h

theorem Sound.grow (h : Sound users w g) (hi : g[i]? = some m) (hgrows : w.invitations.Grows w'.invitations)
    (husers : w'.db.users = w.db.users) (hlog : w'.log = w.log)
    (hnormal : ∀ row ∈ w'.invitations.rows, normalizeEmail row.email = row.email)
    (hothers : ∀ j m, j ≠ i → g[j]? = some m → ∀ row, m.holds = some row → row ∈ w'.invitations.rows)
    (hheld : ∀ row, m'.holds = some row → row ∈ w'.invitations.rows)
    (hmarked : ∀ token, m'.hasMarked token = true → m.hasMarked token = true ∨
      (w.accepted token = false ∧ w'.accepted token = true))
    (hrevoked : ∀ id, m' = .revoked id → w'.revoked id = true) : Sound users w' (g.set i m') where
  users_eq := husers.trans h.users_eq
  normal := hnormal
  held n hn row hrow := by
    obtain ⟨j, hj⟩ := List.getElem?_of_mem hn
    obtain ⟨-, rfl⟩ | ⟨hji, hj⟩ := set_cases hj
    · exact hheld row hrow
    · exact hothers j n hji hj row hrow
  once token := by
    have hold := h.once token
    have hcount := countP_exchange (Phase.hasMarked token) hi (y := m')
    have hmono : w.accepted token = true → w'.accepted token = true := World.accepted_grows hgrows
    have hpos : m.hasMarked token = true → 0 < g.countP (Phase.hasMarked token) :=
      fun hm => countP_pos_iff.mpr ⟨m, mem_of_getElem? hi, hm⟩
    have hnew := hmarked token
    rw [hlog]
    -- the count grows only as the token becomes an accepted one
    grind
  revoking id hid := by
    obtain hid | rfl := mem_or_eq_of_mem_set hid
    · exact World.revoked_grows hgrows (h.revoking id hid)
    · exact hrevoked id rfl
  shut id hid := World.revoked_grows hgrows (h.shut id (hlog ▸ hid))
  heeded := hlog ▸ h.heeded
  grants x hx := World.invited_grows hgrows husers (h.grants x (hlog ▸ hx))
  refusals token userID hx := World.uninvited_grows hgrows husers (h.refusals token userID (hlog ▸ hx))

theorem Sound.append {e : Event} (h : Sound users w g) (hi : g[i]? = some m) (hm' : m' = m ∨ m' = .idle)
    (husers : w'.db.users = w.db.users) (hinv : w'.invitations = w.invitations) (hlog : w'.log = w.log ++ [e])
    (honce : ∀ token, succeeds token e = true → m.hasMarked token = true ∧ m' = .idle)
    (hshut : ∀ id, e = .answered (.revoked id (.ok ())) → w.revoked id = true)
    (hgrants : ∀ x, e = .granted x → w.revoked x.invitation = false ∧ w.invited x)
    (hrefusals : ∀ token userID, e = .answered (.accepted token userID (.error .emailMismatch)) → w.uninvited token userID) :
    Sound users w' (g.set i m') := by
  have hmem : ∀ x, x ∈ w'.log ↔ x ∈ w.log ∨ x = e := by simp [hlog]
  have hgrows : w.invitations.Grows w'.invitations := hinv ▸ .refl _
  refine ⟨husers.trans h.users_eq, hinv ▸ h.normal, fun n hn row hrow => ?_, fun token => ?_, fun id hid => ?_, fun id hid => ?_, ?_,
    fun y hy => ?_, fun token userID hx => ?_⟩
  · obtain hn | rfl := mem_or_eq_of_mem_set hn
    · exact hinv ▸ h.held n hn row hrow
    · obtain rfl | rfl := hm'
      · exact hinv ▸ h.held _ (mem_of_getElem? hi) row hrow
      · cases hrow
  · have hold := h.once token
    have hcount := countP_exchange (Phase.hasMarked token) hi (y := m')
    have hsame : w'.accepted token = w.accepted token := by unfold World.accepted; rw [hinv]
    rw [hlog, countP_append, countP_singleton, hsame]
    cases hsucceeds : succeeds token e with
    | true =>
      obtain ⟨hm, rfl⟩ := honce token hsucceeds
      rw [hm, if_pos rfl] at hcount
      simp [Phase.hasMarked] at hcount ⊢
      omega
    | false =>
      obtain rfl | rfl := hm'
      · simpa [set_same hi] using hold
      · simp [Phase.hasMarked] at hcount ⊢
        omega
  · obtain hid | rfl := mem_or_eq_of_mem_set hid
    · exact World.revoked_grows hgrows (h.revoking id hid)
    · obtain rfl | hidle := hm'
      · exact World.revoked_grows hgrows (h.revoking id (mem_of_getElem? hi))
      · cases hidle
  · obtain hid | rfl := (hmem _).mp hid
    · exact World.revoked_grows hgrows (h.shut id hid)
    · exact World.revoked_grows hgrows (hshut id rfl)
  · rw [hlog]
    refine pairwise_append.mpr ⟨h.heeded, pairwise_singleton _ _, fun a ha b hb hdefies => ?_⟩
    obtain rfl := mem_singleton.mp hb
    obtain ⟨x, rfl, rfl⟩ := hdefies
    exact Bool.false_ne_true ((hgrants x rfl).1.symm.trans (h.shut _ ha))
  · obtain hy | rfl := (hmem _).mp hy
    · exact World.invited_grows hgrows husers (h.grants y hy)
    · exact World.invited_grows hgrows husers (hgrants y rfl).2
  · obtain hx | rfl := (hmem _).mp hx
    · exact World.uninvited_grows hgrows husers (h.refusals token userID hx)
    · exact World.uninvited_grows hgrows husers (hrefusals token userID rfl)

theorem Sound.grant {user : User} (h : Sound users w g)
    (hi : g[i]? = some (.found row x.userID)) (hself : x.userID = x.actor) (hid : x.invitation = row.id)
    (hopen : row.isOpen) (huser : rowAt User.id users x.actor = some user) (hemail : user.email.text = row.email)
    (husers : w'.db.users = w.db.users) (hinv : w'.invitations = w.invitations)
    (hlog : w'.log = w.log ++ [.granted x]) : Sound users w' (g.set i (.found row x.userID)) := by
  have hrow : row ∈ w.invitations.rows := mem_at h.held hi row rfl
  have hunrevoked : w.revoked row.id = false := by
    refine any_eq_false.mpr fun v hv => ?_
    simp
    intro hvid
    obtain rfl := inj_on_of_nodup_map w.invitations.ids hv hrow hvid
    exact hopen.2
  refine h.append hi (.inl rfl) husers hinv hlog nofun nofun ?_ nofun
  rintro _ ⟨⟩
  exact ⟨hid ▸ hunrevoked, hself, row, hrow, hid.symm, user, h.users_eq ▸ rowAt_mem huser, rowAt_key huser,
    congrArg normalizeEmail hemail⟩

theorem Sound.answer {t : InvitationTask} {a : Answer} (h : Sound users w g) (hi : g[i]? = some m)
    (hs : Supports t m a) (hF : Fits users t m) :
    Sound users { w with log := w.log ++ [.answered a] } (g.set i .idle) := by
  refine h.append hi (.inr rfl) rfl rfl rfl (fun token hsucceeds => ⟨?_, rfl⟩) ?_ nofun ?_
  · match a, hs, hsucceeds with
    | .accepted token' userID (.ok sub), hs, hsucceeds =>
      obtain rfl : token' = token := of_decide_eq_true hsucceeds
      obtain ⟨rfl, hok, -⟩ := hs
      obtain ⟨row, rfl⟩ := hok sub rfl
      obtain ⟨userID', he⟩ := hF
      cases he
      exact decide_eq_true rfl
  · rintro id ⟨⟩
    have hm : m = .revoked id := hs rfl
    exact h.revoking id (hm ▸ mem_of_getElem? hi)
  · rintro token userID ⟨⟩
    obtain ⟨rfl, -, hmismatch⟩ := hs
    obtain ⟨row, rfl⟩ := hmismatch rfl
    obtain ⟨userID', user, he, huser, hne⟩ := hF
    cases he
    have hrow : row ∈ w.invitations.rows := mem_at h.held hi row rfl
    refine ⟨row, hrow, rfl, user, h.users_eq ▸ rowAt_mem huser, rowAt_key huser, ?_⟩
    rw [user.email.normal, h.normal row hrow]
    exact hne

end

def Attends (users : List User) (x : InvitationTask × Store Unit) (m : Phase) : Prop :=
  wp (watch users x.1) x.2 (fun _ m => m = .idle) m ∧ Fits users x.1 m

section
variable {s : State} {j : Nat}

theorem Fits.task {t : InvitationTask} (h : Fits users t m) (hrow : m.holds = some row) :
    ∃ userID, t = .accept row.token userID := by
  cases m with
  | reading => cases hrow; exact h
  | clear => cases hrow; exact h.2
  | matched => cases hrow; obtain ⟨-, userID, -, ht, -⟩ := h; exact ⟨userID, ht⟩
  | mismatched => cases hrow; obtain ⟨userID, -, ht, -⟩ := h; exact ⟨userID, ht⟩
  | found r userID => cases hrow; obtain ⟨-, -, ht, -⟩ := h; exact ⟨userID, ht⟩
  | _ => cases hrow

variable {rows : List SubuserInvitation} {p : SubuserInvitation → Bool}
variable {f : SubuserInvitation → SubuserInvitation}

theorem holder_elsewhere (hg : Follows (Attends users) s.threads g) (h : Sound users s.world g)
    (halone : alone s i id = true) (hji : j ≠ i) (hj : g[j]? = some m) (hrow : m.holds = some row) : row.id ≠ id := by
  rintro rfl
  obtain ⟨⟨t, p⟩, hx, hwp, hfits⟩ := hg.of hj
  obtain ⟨userID, rfl⟩ := hfits.task hrow
  have hmem : row ∈ s.world.invitations.rows := mem_at h.held hj row hrow
  have hbyID : s.world.invitations.byID row.id = some row := rowAt_of_mem s.world.invitations.ids hmem
  have hunder : underway s.world row.id (.accept row.token userID, p) = true := by
    cases p with
    | ret =>
      obtain rfl : m = .idle := hwp
      cases hrow
    | call c =>
      cases c with
      | invitationByToken =>
        obtain rfl : m = .idle := hwp.1.1
        cases hrow
      | _ => simp [underway, hbyID]
  have hnot := all_eq_true.mp halone _ (mem_eraseIdx_iff_getElem?.mpr ⟨j, hji, hx⟩)
  rw [hunder] at hnot
  cases hnot

def Query.quiet : Query → Bool
  | .insertInvitation _ => false
  | .putSubuser .. => false
  | .markAccepted _ => false
  | .revokeInvitation _ => false
  | .answer _ => false
  | _ => true

variable {w w' : World} {o : Outcome} {t : InvitationTask}

theorem quiet_world (hq : c.quiet = true) (hr : invitationStore.answer w c o = some (r, w')) :
    w'.db = w.db ∧ w'.invitations = w.invitations ∧ w'.log = w.log := by
  obtain rfl | rfl := answer_world hr
  · exact ⟨rfl, rfl, rfl⟩
  · cases c with
    | insertInvitation | putSubuser | markAccepted | revokeInvitation | answer => cases hq
    | _ => exact ⟨rfl, rfl, rfl⟩

theorem scan_ok {α β : Type} {f : α → β} {x : Option α} {b : β} (h : scan f x = .ok b) : ∃ a, x = some a ∧ f a = b := by
  cases x with
  | none => cases h
  | some a => exact ⟨a, rfl, Except.ok.inj h⟩

theorem read_token (hr : invitationStore.answer w (.invitationByToken token) o = some (.ok row, w')) :
    row ∈ w.invitations.rows ∧ row.token = token := by
  have he := congrArg Prod.fst (answer_delivered hr nofun)
  obtain ⟨_, hrow, rfl⟩ := scan_ok he.symm
  exact ⟨rowAt_mem hrow, rowAt_key hrow⟩

theorem expects_answer (husers : w.db.users = users) (hr : invitationStore.answer w c o = some (r, w')) :
    (watch users t).expects m c r := by
  cases c with
  | invitationByToken =>
    match r, hr with
    | .error e, _ => trivial
    | .ok row, hr => exact (read_token hr).2
  | userEmail =>
    match r, hr with
    | .error e, _ => trivial
    | .ok email, hr =>
      have he := congrArg Prod.fst (answer_delivered hr nofun)
      obtain ⟨user, huser, hemail⟩ := scan_ok he.symm
      exact ⟨user, husers ▸ huser, hemail⟩
  | userByEmail =>
    match r, hr with
    | .error e, _ => trivial
    | .ok none, _ => trivial
    | .ok (some userID), hr =>
      have he := Except.ok.inj (congrArg Prod.fst (answer_delivered hr nofun))
      obtain ⟨user, huser, hid⟩ := Option.map_eq_some_iff.mp he.symm
      have hemail := List.find?_some huser
      exact ⟨user, husers ▸ mem_of_find?_eq_some huser, of_decide_eq_true hemail, hid⟩
  | _ => trivial

theorem Sound.same (h : Sound users w g) (hi : g[i]? = some m) (hdb : w'.db = w.db) (hinv : w'.invitations = w.invitations)
    (hlog : w'.log = w.log) (hheld : ∀ row, m'.holds = some row → row ∈ w.invitations.rows)
    (hmarked : ∀ token, m'.hasMarked token = true → m.hasMarked token = true)
    (hrevoked : ∀ id, m' = .revoked id → m = .revoked id) : Sound users w' (g.set i m') := by
  refine h.grow hi (hinv ▸ .refl _) (hdb ▸ rfl) hlog (hinv ▸ h.normal) (fun j n _ hj row hrow => ?_)
    (fun row hrow => hinv ▸ hheld row hrow) (fun token ht => .inl (hmarked token ht)) fun id hid => ?_
  · exact hinv ▸ mem_at h.held hj row hrow
  · have hold := h.revoking id (hrevoked id hid ▸ mem_of_getElem? hi)
    unfold World.revoked at hold ⊢
    rwa [hinv]

theorem quiet_phase (hq : c.quiet = true) (h : Sound users w g) (hi : g[i]? = some m)
    (ha : (watch users t).admits m c) (hr : invitationStore.answer w c o = some (r, w')) :
    Sound users w' (g.set i ((watch users t).next m c r)) := by
  obtain ⟨hdb, hinv, hlog⟩ := quiet_world hq hr
  have hkept : ∀ row, m.holds = some row → row ∈ w.invitations.rows := mem_at h.held hi
  have hstay : Sound users w' (g.set i m) := h.same hi hdb hinv hlog hkept (fun _ h => h) fun _ h => h
  have hmove : ∀ n : Phase, (∀ row, n.holds = some row → row ∈ w.invitations.rows) →
      (∀ token, n.hasMarked token = true → m.hasMarked token = true) → (∀ id, n ≠ .revoked id) → Sound users w' (g.set i n) :=
    fun n hheld hmarked hn => h.same hi hdb hinv hlog hheld hmarked fun id he => absurd he (hn id)
  cases c with
  | insertInvitation | putSubuser | markAccepted | revokeInvitation | answer => cases hq
  | invitationByToken =>
    match r, hr with
    | .error e, _ => exact hstay
    | .ok row, hr =>
      refine hmove (.reading row) ?_ nofun nofun
      rintro _ ⟨⟩
      exact (read_token hr).1
  | now =>
    cases m with
    | reading row =>
      change Sound users w' (g.set i (if _ then Phase.idle else Phase.clear row))
      split
      · exact hmove _ nofun nofun nofun
      · exact hmove _ hkept nofun nofun
    | _ => exact hstay
  | userEmail =>
    obtain ⟨row, rfl, -⟩ := ha
    match r with
    | .error e => exact hstay
    | .ok email =>
      change Sound users w' (g.set i (if email ≠ row.email then Phase.mismatched row else Phase.matched row))
      split
      · exact hmove _ hkept nofun nofun
      · exact hmove _ hkept nofun nofun
  | userByEmail =>
    obtain ⟨row, rfl, -⟩ := ha
    match r with
    | .error e => exact hstay
    | .ok none => exact hstay
    | .ok (some target) => exact hmove _ hkept nofun nofun
  | _ => exact hstay

theorem normal_update
    (he : ∀ v, (f v).email = v.email)
    (h : ∀ row ∈ rows, normalizeEmail row.email = row.email) :
    ∀ row ∈ updateWhere p f rows, normalizeEmail row.email = row.email := by
  intro row hrow
  obtain ⟨v, hv, rfl⟩ := mem_updateWhere.mp hrow
  split
  · rw [he]
    exact h v hv
  · exact h v hv

theorem mem_update
    (hrow : row ∈ rows) (hp : p row = false) : row ∈ updateWhere p f rows :=
  mem_updateWhere.mpr ⟨row, hrow, by rw [hp]; rfl⟩

variable (hg : Follows (Attends users) s.threads g)
include hg

theorem Sound.mark (h : Sound users s.world g)
    (halone : alone s i row.id = true) (hi : g[i]? = some (.found row userID)) (hopen : row.isOpen)
    (hm' : m' = .marked row ∨ m' = .idle) :
    Sound users (s.world.handle (.markAccepted row.id)).2 (g.set i m') := by
  have hrow : row ∈ s.world.invitations.rows := mem_at h.held hi row rfl
  refine h.grow hi (grows_markAccepted _ _ _) rfl rfl (normal_update (fun _ => rfl) h.normal) ?_ ?_ ?_ ?_
  · intro j n hji hj v hv
    refine mem_update (mem_at h.held hj v hv) ?_
    exact decide_eq_false (holder_elsewhere hg h halone hji hj hv)
  · intro v hv
    obtain rfl | rfl := hm' <;> cases hv
  · intro token htoken
    obtain rfl | rfl := hm'
    · obtain rfl : row.token = token := of_decide_eq_true htoken
      refine .inr ⟨any_eq_false.mpr fun v hv => ?_, any_eq_true.mpr ⟨_, mem_map_of_mem hrow, by simp⟩⟩
      simp
      intro hv'
      obtain rfl := inj_on_of_nodup_map s.world.invitations.tokens hv hrow hv'
      exact hopen.1
    · cases htoken
  · rintro id rfl
    obtain hm' | hm' := hm' <;> cases hm'

theorem Sound.revoke (h : Sound users s.world g)
    (halone : alone s i id = true) (hi : g[i]? = some .idle)
    (hm' : m' = .idle ∨ (m' = .revoked id ∧ s.world.invitations.rows.any (InvitationTable.revocable id) = true)) :
    Sound users (s.world.handle (.revokeInvitation id)).2 (g.set i m') := by
  refine h.grow hi (grows_revoke _ _ _) rfl rfl (normal_update (fun _ => rfl) h.normal) ?_ ?_ ?_ ?_
  · intro j n hji hj v hv
    refine mem_update (mem_at h.held hj v hv) ?_
    simp [InvitationTable.revocable, holder_elsewhere hg h halone hji hj hv]
  · intro v hv
    obtain rfl | ⟨rfl, -⟩ := hm' <;> cases hv
  · intro token htoken
    obtain rfl | ⟨rfl, -⟩ := hm' <;> cases htoken
  · rintro id' rfl
    obtain hm' | ⟨hm', hany⟩ := hm'
    · cases hm'
    · cases hm'
      obtain ⟨v, hv, hrevocable⟩ := any_eq_true.mp hany
      refine any_eq_true.mpr ⟨_, mem_map_of_mem hv, ?_⟩
      simp [hrevocable]
      simp [InvitationTable.revocable] at hrevocable
      simp [hrevocable.1]

omit hg

theorem sound_inv (hemails : (users.map (·.email)).Nodup) :
    GhostInv invitationStore (fun s l => orderly s l = true) (Attends users) (Sound users) where
  start s t g _ _ h := by
    refine ⟨.idle, ⟨wp_program t, trivial⟩, h.users_eq, h.normal, forall_snoc h.held nofun, fun token => ?_,
      fun id hid => h.revoking id (mem_of_snoc hid nofun), h.shut, h.heeded, h.grants, h.refusals⟩
    have hold := h.once token
    rw [countP_append]
    exact hold
  tick _ _ _ _ _ h :=
    ⟨h.users_eq, h.normal, h.held, h.once, h.revoking, h.shut, h.heeded, h.grants, h.refusals⟩
  crash s i t p g m _ _ _ hi _ h := ⟨.idle, ⟨rfl, trivial⟩, h.same hi rfl rfl rfl nofun nofun nofun⟩
  call s i o t c k r w g m ha hi hg hm hat h hr := by
    have hsends := Config.sends_eq o hi
    have hexpects : (watch users t).expects m c r := expects_answer h.users_eq hr
    refine ⟨(watch users t).next m c r, ⟨hat.1.2 r hexpects, fits_next hemails hat.2 hat.1.1 hexpects⟩, ?_⟩
    have hadmits := hat.1.1
    have hF := hat.2
    cases c with
    | insertInvitation row =>
      obtain rfl | rfl := answer_world hr
      · exact (set_same hm).symm ▸ h
      · have hnormal : normalizeEmail row.email = row.email := by simpa [orderly, hsends] using ha
        change Sound users (s.world.handle (.insertInvitation row)).2 (g.set i m)
        simp [World.handle]
        split
        · rename_i hfree
          refine h.grow hm (grows_insert _ row hfree) rfl rfl ?_ ?_ ?_ (fun _ h => .inl h) ?_
          · exact forall_snoc h.normal hnormal
          · exact fun j n _ hj v hv => mem_append_left _ (h.held n (mem_of_getElem? hj) v hv)
          · exact fun v hv => mem_append_left _ (h.held m (mem_of_getElem? hm) v hv)
          · rintro id rfl
            exact World.revoked_grows (grows_insert _ row hfree) (h.revoking id (mem_of_getElem? hm))
        · exact (set_same hm).symm ▸ h
    | putSubuser x =>
      obtain ⟨row, rfl, hid, ht⟩ := hadmits
      obtain ⟨hopen, user, ht', huser, hemail⟩ := hF
      have hself : x.userID = x.actor := by
        rw [ht] at ht'
        injection ht' with _ he
        exact he.symm
      change Sound users w (g.set i (.found row x.userID))
      obtain rfl | rfl := answer_world hr
      · exact (set_same hm).symm ▸ h
      · exact h.grant hm hself hid hopen (hself ▸ huser) hemail putSubuser_users rfl rfl
    | markAccepted =>
      obtain ⟨row, userID, rfl, rfl⟩ := hadmits
      have halone : alone s i row.id = true := by simpa [orderly, hsends] using ha
      match r, hr with
      | .ok _, hr =>
        obtain rfl : w = (s.world.handle (.markAccepted row.id)).2 := congrArg Prod.snd (answer_delivered hr nofun)
        exact h.mark hg halone hm hF.1 (.inl rfl)
      | .error e, hr =>
        obtain rfl | rfl := answer_world hr
        · exact h.same hm rfl rfl rfl nofun nofun nofun
        · exact h.mark hg halone hm hF.1 (.inr rfl)
    | revokeInvitation id =>
      obtain ⟨rfl, -⟩ := hadmits
      have halone : alone s i id = true := by simpa [orderly, hsends] using ha
      match r, hr with
      | .ok b, hr =>
        have he := answer_delivered hr nofun
        obtain rfl : w = (s.world.handle (.revokeInvitation id)).2 := congrArg Prod.snd he
        have hb : b = s.world.invitations.rows.any (InvitationTable.revocable id) := Except.ok.inj (congrArg Prod.fst he)
        cases b with
        | false => exact h.revoke hg halone hm (.inl rfl)
        | true => exact h.revoke hg halone hm (.inr ⟨rfl, hb.symm⟩)
      | .error e, hr =>
        obtain rfl | rfl := answer_world hr
        · exact h.same hm rfl rfl rfl nofun nofun nofun
        · exact h.revoke hg halone hm (.inl rfl)
    | answer a =>
      obtain rfl : w = (s.world.handle (.answer a)).2 := congrArg Prod.snd (answer_delivered hr nofun)
      exact h.answer hm hadmits hF
    | _ => exact quiet_phase rfl h hm hadmits hr

end

/-- If every step is orderly, an invitation is accepted once, not after a revocation was reported, and by the user it
is for. -/
theorem accepted_once_by_the_invited {s₀ s : State} {ls : List (Label InvitationTask)} (hidle : s₀.threads = [])
    (hlog : s₀.world.log = []) (hnormal : ∀ row ∈ s₀.world.invitations.rows, normalizeEmail row.email = row.email)
    (h : Run invitationStore.next (fun s l => orderly s l = true) s₀ ls s) :
    (∀ token, s.world.log.countP (succeeds token) ≤ 1) ∧
    (s.world.log.Pairwise fun a b => ¬ defies a b) ∧
    (∀ x, Event.granted x ∈ s.world.log → s.world.invited x) ∧
    ∀ token userID, Event.answered (.accepted token userID (.error .emailMismatch)) ∈ s.world.log →
      s.world.uninvited token userID := by
  have hstart : Ghosted (Attends s₀.world.db.users) (Sound s₀.world.db.users) s₀ := by
    refine ⟨[], hidle ▸ Follows.nil, rfl, hnormal, nofun, fun token => ?_, nofun, ?_, ?_, ?_, ?_⟩
    · simp [hlog]
    · simp [hlog]
    · rw [hlog]
      exact List.Pairwise.nil
    · simp [hlog]
    · simp [hlog]
  obtain ⟨g, -, hG⟩ := (sound_inv s₀.world.db.emails).run hstart h
  refine ⟨fun token => ?_, hG.heeded, hG.grants, hG.refusals⟩
  have := hG.once token
  split at this <;> omega

def invitation (id token email : String) : SubuserInvitation :=
  { id, serverID := sampleID, email, permissions := ["file.read"], token, expiresAt := 9 }

def inviting : State :=
  ⟨{ db := sample, invitations := ⟨[invitation "v" "t" "u@x"], by decide, by decide⟩ }, []⟩

def delivered (i n : Nat) : List (Label InvitationTask) := List.replicate n (.call i .delivered)

def acceptedOnce : List (Label InvitationTask) :=
  [.start (.accept "t" "u")] ++ delivered 0 10 ++ [.start (.revoke "v"), .start (.accept "t" "u")] ++ delivered 1 2 ++
    delivered 2 3

def grantTo (id : String) : Grant := { invitation := id, actor := "u", serverID := sampleID, userID := "u" }

theorem accepted_once_by_the_invited_sample : ∃ s : State,
    Run invitationStore.next (fun s l => orderly s l = true) inviting acceptedOnce s ∧
      s.world.log.countP (succeeds "t") = 1 ∧ Event.granted (grantTo "v") ∈ s.world.log ∧ s.world.invited (grantTo "v") ∧
      Event.answered (.accepted "t" "u" (.error .alreadyAccepted)) ∈ s.world.log := by
  obtain ⟨s, hr, hcount, hgrant, hrefused⟩ : ∃ s,
      Run invitationStore.next (fun s l => orderly s l = true) inviting acceptedOnce s ∧
      s.world.log.countP (succeeds "t") = 1 ∧ Event.granted (grantTo "v") ∈ s.world.log ∧
      Event.answered (.accepted "t" "u" (.error .alreadyAccepted)) ∈ s.world.log := by decide +kernel
  have hnormal : ∀ row ∈ inviting.world.invitations.rows, normalizeEmail row.email = row.email := by
    intro row hrow
    obtain rfl := mem_singleton.mp hrow
    decide +kernel
  exact ⟨s, hr, hcount, hgrant, (accepted_once_by_the_invited rfl rfl hnormal hr).2.2.1 _ hgrant, hrefused⟩

def invitingThrice : State :=
  ⟨{ db := sample
     invitations :=
      ⟨[invitation "v" "t" "u@x", invitation "v2" "t2" "u@x", invitation "v3" "t3" " U@x"], by decide, by decide⟩ }, []⟩

def disorderly : List (Label InvitationTask) :=
  [.start (.accept "t" "u"), .start (.accept "t" "u")] ++ delivered 0 2 ++ delivered 1 10 ++ delivered 0 8 ++
    [.start (.accept "t2" "u")] ++ delivered 2 2 ++ [.start (.revoke "v2")] ++ delivered 3 2 ++ delivered 2 8 ++
    [.start (.accept "t3" "u")] ++ delivered 4 4

/-- Two accepts of one invitation succeed, access is given after a revocation was reported, and
the invited user is told that the address does not match. -/
theorem accepted_twice_and_revoked : ∃ s : State,
    Run invitationStore.next (fun _ _ => True) invitingThrice disorderly s ∧
      s.world.log.countP (succeeds "t") = 2 ∧
      (s.world.log.filter fun e => e = .answered (.revoked "v2" (.ok ())) ∨ e = .granted (grantTo "v2")) =
        [.answered (.revoked "v2" (.ok ())), .granted (grantTo "v2")] ∧
      Event.answered (.accepted "t3" "u" (.error .emailMismatch)) ∈ s.world.log ∧
      normalizeEmail userU.email.text = normalizeEmail " U@x" := by decide +kernel

end ForgePlane.Invitations
