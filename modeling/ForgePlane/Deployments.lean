import ForgePlane.Threads
import ForgePlane.Table
import ForgePlane.Wire

/-!
# Deployments

A call reads rows of `deployments` and later writes one, whole. Only `CancelDeployment` looks at the status it
replaces, `StartBlueGreen` passes over pending deployments, and no call ever makes a target other than blue active.
-/

namespace ForgePlane.Deployments

inductive Status where
  | pending
  | inProgress
  | completed
  | failed
  | rolledBack
  | cancelled
  deriving DecidableEq, Repr

structure Deployment where
  id : String
  serverID : String
  status : Status := .pending
  image : String
  activeTarget : String := "blue"
  error : String := ""
  deriving DecidableEq, Repr

def Deployment.active (d : Deployment) : Bool := d.status = .pending || d.status = .inProgress

/-- The `id` of a new deployment is drawn at random. -/
inductive Call where
  | startBlueGreen (serverID newImage id : String)
  | setDeploymentStatus (id : String) (status : Status) (errMsg : String)
  | completeDeployment (id : String)
  | cancelDeployment (id : String)
  | rollback (id : String)
  deriving DecidableEq, Repr

abbrev row : List Deployment → String → Option Deployment := rowAt (·.id)

def getDeployment (rows : List Deployment) (id : String) : Except Err Deployment :=
  (row rows id).elim (.error "deployment not found") .ok

def Call.result (rows : List Deployment) : Call → Except Err Deployment
  | .startBlueGreen serverID newImage id =>
    if serverID = "" then .error "serverId is required"
    else if newImage = "" then .error "image is required"
    else if rows.any fun d => d.serverID = serverID && d.status = .inProgress then
      .error "deployment already in progress for this server"
    else .ok { id := id, serverID := serverID, image := newImage }
  | .setDeploymentStatus id status errMsg => do
    let d ← getDeployment rows id
    .ok { d with status := status, error := if errMsg = "" then d.error else errMsg }
  | .completeDeployment id => do
    let d ← getDeployment rows id
    .ok { d with status := .completed }
  | .cancelDeployment id => do
    let d ← getDeployment rows id
    if d.active then .ok { d with status := .cancelled }
    else .error "can only cancel pending or in-progress deployments"
  | .rollback id => do
    let d ← getDeployment rows id
    if d.activeTarget = "blue" then .error "no rollback target available"
    else .ok { d with
      status := .rolledBack, activeTarget := if d.activeTarget = "green" then "blue" else d.activeTarget }

def updateRow (rows : List Deployment) (d : Deployment) : List Deployment :=
  updateWhere (·.id = d.id) (fun row => { d with id := row.id }) rows

def Call.write (rows : List Deployment) (d : Deployment) : Call → List Deployment
  | .startBlueGreen .. => if (row rows d.id).isSome then rows else rows ++ [d]
  | _ => updateRow rows d

structure State where
  rows : List Deployment
  calls : List (Call × List Deployment) := []
  deriving DecidableEq, Repr

inductive Event where
  | read (call : Call)
  | write (i : Nat)
  deriving DecidableEq, Repr

def Call.finish (rows seen : List Deployment) (call : Call) : List Deployment :=
  match call.result seen with
  | .ok d => call.write rows d
  | .error _ => rows

def next (s : State) : Event → Option State
  | .read call => some { s with calls := s.calls ++ [(call, s.rows)] }
  | .write i => (s.calls[i]?).map fun c => ⟨c.1.finish s.rows c.2, s.calls.eraseIdx i⟩

def Call.fits (rows : List Deployment) : Call → Bool
  | .startBlueGreen serverID .. => rows.all fun d => d.serverID ≠ serverID || d.status ≠ .pending
  | .setDeploymentStatus id .. | .completeDeployment id => (row rows id).all (·.active)
  | .cancelDeployment _ => true
  | .rollback id => (row rows id).all fun d => d.active || d.status = .completed

/-- A call writes while the rows are what it has read. It begins a deployment where none of the server is pending,
and changes one that is pending or in progress, or rolls back a completed one. -/
def proper (s : State) : Event → Bool
  | .read _ => true
  | .write i => (s.calls[i]?).all fun c => c.2 = s.rows && c.1.fits s.rows

structure Sound (rows : List Deployment) : Prop where
  nodup : (rows.map (·.id)).Nodup
  single : ∀ d ∈ rows, ∀ d' ∈ rows, d.active = true → d'.active = true → d.serverID = d'.serverID → d.id = d'.id

def Keeps (rows rows' : List Deployment) : Prop :=
  ∀ d ∈ rows, d.active = false → ∃ d' ∈ rows', d'.id = d.id ∧
    (d'.status = d.status ∨ d.status = .completed ∧ d'.status = .rolledBack)

section
variable {rows rows' : List Deployment} {d d' : Deployment}

theorem Keeps.trans {rows'' : List Deployment} (h : Keeps rows rows') (h' : Keeps rows' rows'') : Keeps rows rows'' := by
  intro d hd hover
  obtain ⟨d', hd', hid, hstatus⟩ := h d hd hover
  have hover' : d'.active = false := by
    obtain hs | ⟨-, hs⟩ := hstatus
    · simpa only [Deployment.active, hs] using hover
    · simp [Deployment.active, hs]
  obtain ⟨e, he, heid, hestatus⟩ := h' d' hd' hover'
  refine ⟨e, he, heid.trans hid, ?_⟩
  grind

end

def Blue (rows : List Deployment) : Prop := ∀ d ∈ rows, d.activeTarget = "blue"

theorem Blue.result {rows : List Deployment} {call : Call} {d : Deployment} (h : Blue rows)
    (hr : call.result rows = .ok d) : d.activeTarget = "blue" := by
  cases call with
  | startBlueGreen =>
    simp only [Call.result] at hr
    split_ifs at hr
    cases hr
    rfl
  | setDeploymentStatus id | completeDeployment id | cancelDeployment id | rollback id =>
    cases hrow : row rows id with
    | none => simp [Call.result, getDeployment, hrow, bind, Except.bind] at hr
    | some d' =>
      have := h d' (rowAt_mem hrow)
      simp [Call.result, getDeployment, hrow, bind, Except.bind] at hr
      grind

theorem Blue.finish {rows seen : List Deployment} (h : Blue rows) (hseen : Blue seen) (call : Call) :
    Blue (call.finish rows seen) := by
  unfold Call.finish
  split
  · rename_i d hr
    have hd := hseen.result hr
    intro x hx
    cases call with
    | startBlueGreen =>
      dsimp only [Call.write] at hx
      split_ifs at hx
      · exact h x hx
      · obtain hx | hx := List.mem_append.mp hx
        · exact h x hx
        · exact List.mem_singleton.mp hx ▸ hd
    | _ =>
      obtain ⟨u, hu, rfl⟩ := mem_updateWhere.mp hx
      split
      · exact hd
      · exact h u hu
  · exact h

/-- In every interleaving blue stays the active target of every deployment, and so nothing can be rolled back. -/
theorem never_rolled_back {rows : List Deployment} (h : Blue rows) {events : List Event} {s : State}
    (hr : Run next (fun _ _ => True) { rows := rows } events s) (id : String) :
    Blue s.rows ∧ ∃ e, (Call.rollback id).result s.rows = .error e := by
  obtain ⟨hrows, -⟩ : Blue s.rows ∧ ∀ c ∈ s.calls, Blue c.2 := by
    refine Run.invariant (I := fun s => Blue s.rows ∧ ∀ c ∈ s.calls, Blue c.2) (fun s l s' hI _ hn => ?_) ⟨h, nofun⟩ hr
    cases l with
    | read =>
      cases hn
      exact ⟨hI.1, fun c hc => (List.mem_append.mp hc).elim (hI.2 c) fun hc => List.mem_singleton.mp hc ▸ hI.1⟩
    | write i =>
      obtain ⟨c, hc, rfl⟩ := Option.map_eq_some_iff.mp hn
      exact ⟨hI.1.finish (hI.2 c (List.mem_of_getElem? hc)) c.1, fun c hc => hI.2 c (List.mem_of_mem_eraseIdx hc)⟩
  refine ⟨hrows, ?_⟩
  cases hrow : row s.rows id with
  | none => simp [Call.result, getDeployment, hrow, bind, Except.bind]
  | some d => simp [Call.result, getDeployment, hrow, bind, Except.bind, hrows d (rowAt_mem hrow)]

theorem never_rolled_back_completed : ∃ s, Run next (fun _ _ => True) { rows := [] }
    [.read (.startBlueGreen "s" "i" "d"), .write 0, .read (.completeDeployment "d"), .write 0] s ∧
      s.rows.map (·.status) = [.completed] ∧ Blue s.rows ∧ ∃ e, (Call.rollback "d").result s.rows = .error e :=
  exists_run_and (by decide +kernel) fun _ hr _ => @never_rolled_back [] (by simp [Blue]) _ _ hr "d"

end ForgePlane.Deployments
