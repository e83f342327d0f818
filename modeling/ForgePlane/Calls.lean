import ForgePlane.Threads
import ForgePlane.Tx

/-!
# What a panel process calls

A panel process reaches the world through its database, the daemons of the nodes, the clock, the
random source and the placement rules of the scheduler.
-/

namespace ForgePlane

inductive Call where
  | tx (t : Tx)
  | daemon (url : String) (q : DaemonReq)
  | newCredential
  | newUUID
  | timeNow
  | planTarget (server : ServerRow) (source : NodeRow)
  | validateTarget (server : ServerRow) (source target : NodeRow)

abbrev Resp : Call → Type
  | .tx t => Except Err t.Val
  | .daemon _ q => Except Err q.Val
  | .newCredential => Except Err String
  | .newUUID => String
  | .timeNow => Nat
  | .planTarget .. => Except Err String
  | .validateTarget .. => Except Err Unit

abbrev Action := Prog Resp

def tx (t : Tx) : Action (Except Err t.Val) := .call (.tx t) .ret
def daemon (url : String) (q : DaemonReq) : Action (Except Err q.Val) := .call (.daemon url q) .ret
def newCredential : Action (Except Err String) := .call .newCredential .ret
def newUUID : Action String := .call .newUUID .ret
def timeNow : Action Nat := .call .timeNow .ret
def planTarget (server : ServerRow) (source : NodeRow) : Action (Except Err String) :=
  .call (.planTarget server source) .ret
def validateTarget (server : ServerRow) (source target : NodeRow) : Action (Except Err Unit) :=
  .call (.validateTarget server source target) .ret

def ignore {α : Type} (p : Action α) : Action Unit := p >>= fun _ => pure ()

section
variable {α : Type}

@[simp] theorem tx_bind (t : Tx) (f : Except Err t.Val → Action α) : tx t >>= f = .call (.tx t) f := rfl
@[simp] theorem daemon_bind (url : String) (q : DaemonReq) (f : Except Err q.Val → Action α) :
    daemon url q >>= f = .call (.daemon url q) f := rfl
@[simp] theorem newCredential_bind (f : Except Err String → Action α) :
    newCredential >>= f = .call .newCredential f := rfl

end

structure World (D : Type) where
  db : DB
  now : Nat := 0
  entropy : Nat := 0
  fleet : D

/-- `random` and `uuid` are the random source; `planTarget` and `validateTarget` the scheduler
and the evacuation planner, which only read. -/
structure Platform (D : Type) where
  random : Nat → Except Err (Vector UInt8 32)
  uuid : Nat → String
  planTarget : DB → ServerRow → NodeRow → Except Err String
  validateTarget : DB → ServerRow → NodeRow → NodeRow → Except Err Unit
  serve : Nat → D → String → (q : DaemonReq) → Except Err q.Val × D

section
variable {D : Type} (P : Platform D)

def Platform.handle (w : World D) : (c : Call) → Resp c × World D
  | .tx t => ((t.exec w.now w.db).1, { w with db := (t.exec w.now w.db).2 })
  | .daemon url q => ((P.serve w.now w.fleet url q).1, { w with fleet := (P.serve w.now w.fleet url q).2 })
  | .newCredential => ((P.random w.entropy).map fun b => hexEncode b.toList, { w with entropy := w.entropy + 1 })
  | .newUUID => (P.uuid w.entropy, { w with entropy := w.entropy + 1 })
  | .timeNow => (w.now, w)
  | .planTarget server source => (P.planTarget w.db server source, w)
  | .validateTarget server source target => (P.validateTarget w.db server source target, w)

def Platform.fault : (c : Call) → Err → Option (Resp c)
  | .tx _, e => some (.error e)
  | .daemon _ _, e => some (.error e)
  | _, _ => none

def Platform.tick (w : World D) (d : Nat) : World D := { w with now := w.now + d }

end

end ForgePlane
