import ForgePlane.Table
import ForgePlane.Wire

/-!
# The two-factor policy

The middleware loads the user and asks for an enrolled secret where the policy covers the role of
the user. `EnableTwoFactor` sets `use_totp` beside the stored secret; `GetUserByID` reads
`use_totp` but not the secret.
-/

namespace ForgePlane.TwoFactor

structure UserRow where
  id : String
  role : String := "user"
  passwordHash : String := ""
  useTOTP : Bool := false
  totpSecret : String := ""
  totpSecretEncrypted : Option String := none
  disabled : Bool := false
  deriving DecidableEq, Repr

structure User where
  id : String
  role : String
  useTOTP : Bool
  totpSecret : Option String := none
  deriving DecidableEq, Repr

structure Library where
  encrypt : String → String → Except Err String
  decrypt : String → String → Except Err String
  comparePassword : String → String → Bool
  verifyTOTP : String → String → Bool

abbrev Users := List UserRow

def secretAAD (id : String) : String := "users:" ++ id ++ ":totp_secret"

def decryptSecret (L : Library) (envelope plaintext aad : String) : Except Err String :=
  if envelope = "" then .ok plaintext else L.decrypt envelope aad

/-! ## Operations -/

/-- `secret` is the generated secret. `failure` is where the database fails, which leaves the rows as they are. -/
inductive Operation where
  | setupTwoFactor (id : String) (secret : Except Err String) (failure : Option Err)
  | enableTwoFactor (id code password : String) (failure : Option Err)
  | disableTwoFactor (id password : String) (failure : Option Err)

def setupTwoFactor (L : Library) (users : Users) (id : String) (secret : Except Err String) (failure : Option Err) :
    Except Err Unit × Users :=
  match rowAt (·.id) users id, secret with
  | none, _ => (.error "user not found", users)
  | some row, secret =>
    if row.useTOTP then (.error "two-factor is already enabled", users)
    else
      match secret.bind (L.encrypt · (secretAAD id)), failure with
      | .error e, _ => (.error e, users)
      | .ok _, some _ => (.error "save two-factor secret", users)
      | .ok encrypted, none => (.ok (), updateWhere (fun r => r.id = id)
          (fun r => { r with totpSecret := "", totpSecretEncrypted := some encrypted }) users)

def enableTwoFactor (L : Library) (users : Users) (id code password : String) (failure : Option Err) :
    Except Err Unit × Users :=
  match rowAt (·.id) users id with
  | none => (.error "user not found", users)
  | some row =>
    if row.useTOTP then (.error "two-factor is already enabled", users)
    else
      match decryptSecret L (row.totpSecretEncrypted.getD "") row.totpSecret (secretAAD id) with
      | .error _ => (.error "call setup first to generate a secret", users)
      | .ok secret =>
        if secret = "" then (.error "call setup first to generate a secret", users)
        else if !L.comparePassword row.passwordHash password then (.error "invalid password", users)
        else if !L.verifyTOTP secret code then (.error "invalid two-factor code", users)
        else
          match failure with
          | some e => (.error e, users)
          | none => (.ok (), updateWhere (fun r => r.id = id) (fun r => { r with useTOTP := true }) users)

def disableTwoFactor (L : Library) (users : Users) (id password : String) (failure : Option Err) : Except Err Unit × Users :=
  match rowAt (·.id) users id with
  | none => (.error "user not found", users)
  | some row =>
    if !L.comparePassword row.passwordHash password then (.error "invalid password", users)
    else
      match failure with
      | some e => (.error e, users)
      | none => (.ok (), updateWhere (fun r => r.id = id)
          (fun r => { r with useTOTP := false, totpSecret := "", totpSecretEncrypted := none }) users)

def Operation.exec (L : Library) (users : Users) : Operation → Except Err Unit × Users
  | .setupTwoFactor id secret failure => TwoFactor.setupTwoFactor L users id secret failure
  | .enableTwoFactor id code password failure => TwoFactor.enableTwoFactor L users id code password failure
  | .disableTwoFactor id password failure => TwoFactor.disableTwoFactor L users id password failure

def history (L : Library) (users : Users) (ops : List Operation) : Users := ops.foldl (fun u op => (op.exec L u).2) users

/-! ## The middleware -/

def getUserByID (users : Users) (id : String) : Except Err User :=
  match rowAt (·.id) (users.filter fun r => !r.disabled) id with
  | none => .error "no rows in result set"
  | some row => .ok { id := row.id, role := row.role, useTOTP := row.useTOTP }

inductive Reply where
  | next
  | refused (status : Nat) (message : String)
  deriving DecidableEq, Repr

section
variable {users : Users} {stored id : String}

end

end ForgePlane.TwoFactor
