import ForgePlane.Engine
import ForgePlane.Panel

/-!
# Who starts a server

A start or a restart is sent to a node on request, by the reconciler, by the compensation of a failed
migration and by a schedule. Only the request looks at `servers.suspended`.
-/

namespace ForgePlane.PowerPaths

inductive DesiredState where
  | running
  | stopped
  | terminated
  deriving DecidableEq, Repr

inductive ActualState where
  | offline
  | starting
  | running
  | stopping
  | stopped
  | installing
  | crashed
  | terminating
  | terminated
  | unknown
  deriving DecidableEq, Repr

structure Row where
  id : String
  nodeURL : String := ""
  nodeToken : String := ""
  suspended : Bool := false
  desired : DesiredState := .stopped
  actual : ActualState := .stopped
  deriving DecidableEq, Repr

structure ControlTarget where
  serverID : String
  nodeURL : String
  nodeToken : String
  deriving DecidableEq, Repr

inductive Reader where
  | request
  | refresh (listed : Row)
  deriving DecidableEq, Repr

inductive PowerCall where
  | panel (c : Call)
  | listServers
  | getServer (reader : Reader) (serverID : String)
  | setServerDesiredState (serverID : String) (desired : DesiredState)
  | setServerActualState (serverID : String) (actual : ActualState)
  | serverControlTarget (serverID : String)
  | stats (target : ControlTarget)
  | sendPower (target : ControlTarget) (signal : String)
  | setServerPowerState (serverID signal : String)
  | setServerSuspension (serverID : String) (suspended : Bool)

abbrev PowerResp : PowerCall → Type
  | .panel c => Resp c
  | .listServers => Except Err (List Row)
  | .getServer .. => Except Err Row
  | .setServerDesiredState .. => Except Err Unit
  | .setServerActualState .. => Except Err Unit
  | .serverControlTarget _ => Except Err ControlTarget
  | .stats _ => Except Err Unit
  | .sendPower .. => Except Err Unit
  | .setServerPowerState .. => Except Err Unit
  | .setServerSuspension .. => Except Err Unit

abbrev Power := Prog PowerResp

def call (c : PowerCall) : Power (PowerResp c) := .call c .ret

/-! ## The cluster manager -/

def starting (signal : String) : Bool := signal = "start" || signal = "restart"

def actualFromSignal (signal : String) : ActualState := if starting signal then .running else .stopped

def sendPower (hasRuntime : Bool) (serverID signal : String) : Power (Except Err Unit) := do
  if !hasRuntime then call (.setServerActualState serverID (actualFromSignal signal))
  else
    match ← call (.serverControlTarget serverID) with
    | .error e => pure (.error e)
    | .ok target =>
      if signal ∉ ["start", "stop", "restart", "kill"] then pure (.error "unsupported power signal")
      else
        match ← call (.sendPower target signal) with
        | .error e => pure (.error e)
        | .ok _ => call (.setServerActualState serverID (actualFromSignal signal))

def recordAndSend (hasRuntime : Bool) (serverID signal : String) : Power (Except Err Unit) := do
  match ← call (.setServerDesiredState serverID (if starting signal then .running else .stopped)) with
  | .error e => pure (.error e)
  | .ok _ => sendPower hasRuntime serverID signal

def requestServerPower (hasRuntime : Bool) (serverID signal : String) : Power (Except Err Unit) :=
  if starting signal then do
    match ← call (.getServer .request serverID) with
    | .error e => pure (.error e)
    | .ok server =>
      if server.suspended then pure (.error "cannot start or restart a suspended server")
      else recordAndSend hasRuntime serverID signal
  else recordAndSend hasRuntime serverID signal

def refreshServerActualState (hasRuntime : Bool) (listed : Row) : Power (Except Err ActualState) := do
  match ← call (.getServer (.refresh listed) listed.id) with
  | .error e => pure (.error e)
  | .ok server =>
    if !hasRuntime || (decide (server.desired ≠ .running) && decide (server.actual ≠ .running)) then pure (.ok server.actual)
    else
      match ← call (.serverControlTarget listed.id) with
      | .error e => pure (.error e)
      | .ok target =>
        match ← call (.stats target) with
        | .error _ =>
          if server.actual = .running then
            return (← call (.setServerActualState listed.id .unknown)).map fun _ => .unknown
          else pure (.ok server.actual)
        | .ok _ => return (← call (.setServerActualState listed.id .running)).map fun _ => .running

/-! ## The reconciler -/

def reconcileServer (hasRuntime : Bool) (server : Row) : Power (Except Err Unit) := do
  match ← refreshServerActualState hasRuntime server with
  | .error e => pure (.error e)
  | .ok actual =>
    if server.desired = .running ∧ actual = .stopped then sendPower hasRuntime server.id "start"
    else if server.desired = .stopped ∧ actual = .running then sendPower hasRuntime server.id "stop"
    else if server.desired = .running ∧ actual = .crashed then sendPower hasRuntime server.id "restart"
    else pure (.ok ())

def reconcileAll (hasRuntime : Bool) : List Row → Power Unit
  | [] => pure ()
  | server :: rest => do
    let _ ← reconcileServer hasRuntime server
    reconcileAll hasRuntime rest

def refreshServers (hasRuntime : Bool) : Power (Except Err Unit) := do
  match ← call .listServers with
  | .error e => pure (.error e)
  | .ok servers =>
    reconcileAll hasRuntime servers
    pure (.ok ())

/-! ## Migrations and schedules -/

structure Failure where
  migrationID : String
  cause : Err
  source : ServerProvisionTarget
  target : ServerProvisionTarget
  destinationCreated : Bool
  sourceCredential : String
  destinationCredential : String

def Failure.compensate (f : Failure) : Power Unit :=
  (Service.fail f.migrationID f.cause f.source f.target f.destinationCreated f.sourceCredential f.destinationCredential).lift
    .panel fun _ r => r

def executePowerTask (serverID signal : String) : Power (Except Err Unit) := do
  let signal := Engine.lower (trimSpace signal)
  if signal = "" then pure (.error "power task missing payload.signal")
  else
    match ← call (.serverControlTarget serverID) with
    | .error e => pure (.error e)
    | .ok target =>
      match ← call (.sendPower target signal) with
      | .error e => pure (.error e)
      | .ok _ => call (.setServerPowerState serverID signal)

inductive PowerTask where
  | request (serverID signal : String)
  | reconcile
  | compensate (f : Failure)
  | schedule (serverID signal : String)
  | suspend (serverID : String) (suspended : Bool)

def PowerTask.program (hasRuntime : Bool) : PowerTask → Power Unit
  | .request serverID signal => do let _ ← requestServerPower hasRuntime serverID signal
  | .reconcile => do let _ ← refreshServers hasRuntime
  | .compensate f => f.compensate
  | .schedule serverID signal => do let _ ← executePowerTask serverID signal
  | .suspend serverID suspended => do let _ ← call (.setServerSuspension serverID suspended)

/-! ## The panel's tables -/

structure PowerWorld (D : Type) where
  rows : List Row := []
  panel : World D

namespace PowerWorld

variable {D : Type} (w : PowerWorld D)

def row (serverID : String) : Option Row := rowAt Row.id w.rows serverID

def suspended (serverID : String) : Bool := (w.row serverID).any (·.suspended)

def update (serverID : String) (f : Row → Row) : Except Err Unit × PowerWorld D :=
  if (w.row serverID).isSome then (.ok (), { w with rows := updateWhere (fun r => r.id = serverID) f w.rows })
  else (.error "server not found", w)

def handle (P : Platform D) : (c : PowerCall) → PowerResp c × PowerWorld D
  | .panel c => ((P.handle w.panel c).1, { w with panel := (P.handle w.panel c).2 })
  | .listServers => (.ok w.rows, w)
  | .getServer _ serverID =>
    match w.row serverID with
    | some r => (.ok r, w)
    | none => (.error "no rows in result set", w)
  | .setServerDesiredState serverID desired => w.update serverID fun r => { r with desired }
  | .setServerActualState serverID actual => w.update serverID fun r => { r with actual }
  | .serverControlTarget serverID =>
    match w.row serverID with
    | some r => (.ok ⟨r.id, r.nodeURL, r.nodeToken⟩, w)
    | none => (.error "no rows in result set", w)
  | .stats _ => (.ok (), w)
  | .sendPower .. => (.ok (), w)
  | .setServerPowerState serverID _ => w.update serverID id
  | .setServerSuspension serverID suspended => w.update serverID fun r => { r with suspended }

end PowerWorld

def fault : (c : PowerCall) → String → Option (PowerResp c)
  | .panel c, e => Platform.fault c e
  | .listServers, e => some (.error e)
  | .getServer .., e => some (.error e)
  | .setServerDesiredState .., e => some (.error e)
  | .setServerActualState .., e => some (.error e)
  | .serverControlTarget _, e => some (.error e)
  | .stats _, e => some (.error e)
  | .sendPower .., e => some (.error e)
  | .setServerPowerState .., e => some (.error e)
  | .setServerSuspension .., e => some (.error e)

def powerSystem {D : Type} (P : Platform D) (hasRuntime : Bool) : System PowerResp PowerTask (PowerWorld D) where
  program := PowerTask.program hasRuntime
  handle := fun w => w.handle P
  fault := fault
  tick w d := { w with panel := Platform.tick w.panel d }

abbrev State (D : Type) := Config PowerResp PowerTask (PowerWorld D)

/-! ## Decisions -/

def starts (serverID : String) : PowerCall → Bool
  | .sendPower target signal => decide (target.serverID = serverID) && starting signal
  | .panel (.daemon _ (.startServer _ id)) => decide (id = serverID)
  | _ => false

/-- The step at which a thread decides about a server: a request and the reconciler when they
read its row, a compensation and a scheduled task when they begin. -/
def decides {D : Type} (s : State D) : Label PowerTask → Option (Nat × String)
  | .start (.compensate f) => some (s.threads.length, f.source.serverID)
  | .start (.schedule serverID _) => some (s.threads.length, serverID)
  | .call i _ =>
    match s.pending i with
    | some (_, .getServer _ serverID) => some (i, serverID)
    | _ => none
  | _ => none

/-- No migration of a suspended server is compensated on a node that is known, no schedule starts
one, and the reconciler meets none that is stopped or crashed and listed to run. -/
def proper {D : Type} (s : State D) : Label PowerTask → Bool
  | .start (.compensate f) => !(s.world.suspended f.source.serverID && decide (f.source.nodeURL ≠ ""))
  | .start (.schedule serverID signal) => !(s.world.suspended serverID && starting (Engine.lower (trimSpace signal)))
  | .call i .delivered =>
    match s.pending i with
    | some (_, .getServer (.refresh listed) serverID) =>
      !(s.world.row serverID).any fun r => r.suspended && decide (listed.desired = .running) &&
        (decide (r.actual = .stopped) || decide (r.actual = .crashed))
    | _ => true
  | _ => true

/-! ## What a path does after its decision -/

def watch (id : String) : Monitor PowerResp Bool where
  admits m c := starts id c = true → m = false
  expects _ c r :=
    match c, r with
    | .serverControlTarget serverID, .ok target => target.serverID = serverID
    | .getServer (.refresh listed) serverID, .ok server => serverID = id → server.suspended = true →
      ¬ (listed.desired = .running ∧ (server.actual = .stopped ∨ server.actual = .crashed))
    | _, _ => True
  next m c r :=
    match c, r with
    | .getServer _ serverID, .ok server => if serverID = id then server.suspended else m
    | .getServer _ serverID, .error _ => if serverID = id then true else m
    | _, _ => m

variable {m : Bool}

section
variable {id : String} {hasRuntime : Bool}

variable {serverID signal : String}

variable (h : serverID = id → starting signal = true → m = false)
include h

theorem wp_sendPower :
    wp (watch id) (sendPower hasRuntime serverID signal) (fun _ _ => True) m := by
  unfold sendPower
  split
  · exact ⟨nofun, fun _ _ => trivial⟩
  refine wp_ask nofun fun r htarget => ?_
  match r, htarget with
  | .error e, _ => trivial
  | .ok target, (htarget : target.serverID = serverID) =>
    change wp _ (if signal ∉ ["start", "stop", "restart", "kill"] then _ else _) _ m
    split
    · trivial
    refine wp_ask (fun hstarts => ?_) fun r _ => ?_
    · simp [starts] at hstarts
      exact h (htarget.symm.trans hstarts.1) hstarts.2
    · match r with
      | .error e => trivial
      | .ok _ => exact ⟨nofun, fun _ _ => trivial⟩

theorem wp_recordAndSend :
    wp (watch id) (recordAndSend hasRuntime serverID signal) (fun _ _ => True) m := by
  exact wp_ask nofun (forall_result fun _ _ => wp_sendPower h)

omit h

theorem wp_requestServerPower (serverID signal : String) (m : Bool) :
    wp (watch id) (requestServerPower hasRuntime serverID signal) (fun _ _ => True) m := by
  unfold requestServerPower
  split
  · refine wp_ask nofun (forall_result fun server _ => ?_)
    change wp _ (if server.suspended = true then _ else _) _ (if serverID = id then server.suspended else m)
    split
    · trivial
    · rename_i hsuspended
      refine wp_recordAndSend fun hid _ => ?_
      rw [if_pos hid]
      simpa using hsuspended
  · rename_i hsignal
    exact wp_recordAndSend fun _ h => absurd h hsignal

theorem wp_refreshServerActualState (listed : Row) (m : Bool) :
    wp (watch id) (refreshServerActualState hasRuntime listed)
      (fun r m' => ∀ actual, r = .ok actual → listed.id = id → listed.desired = .running →
        actual = .stopped ∨ actual = .crashed → m' = false) m := by
  refine wp_ask nofun fun r hread => ?_
  match r, hread with
  | .error e, _ => exact nofun
  | .ok server, hread =>
    have hfound : ∀ actual, (.ok server.actual : Except Err ActualState) = .ok actual → listed.id = id →
        listed.desired = .running → actual = .stopped ∨ actual = .crashed →
        (if listed.id = id then server.suspended else m) = false := by
      rintro actual ⟨⟩ hid hdesired hactual
      rw [if_pos hid]
      by_contra hsuspended
      exact hread hid (by simpa using hsuspended) ⟨hdesired, hactual⟩
    change wp _ (if !hasRuntime || (decide (server.desired ≠ .running) && decide (server.actual ≠ .running)) then _ else _) _
      (if listed.id = id then server.suspended else m)
    split
    · exact hfound
    refine wp_ask nofun (forall_result (fun target _ => ?_) fun _ _ => nofun)
    refine wp_ask nofun fun r _ => ?_
    have hset : ∀ actual : ActualState, actual ≠ .stopped → actual ≠ .crashed →
        wp (watch id) (call (.setServerActualState listed.id actual) >>= fun r => pure (r.map fun _ => actual))
          (fun r m' => ∀ actual, r = .ok actual → listed.id = id → listed.desired = .running →
            actual = .stopped ∨ actual = .crashed → m' = false) (if listed.id = id then server.suspended else m) := by
      intro actual hstopped hcrashed
      refine wp_ask nofun fun r _ => ?_
      intro actual' he _ _ hactual
      match r with
      | .error e => cases he
      | .ok _ =>
        cases he
        exact absurd hactual (not_or.mpr ⟨hstopped, hcrashed⟩)
    match r with
    | .error e =>
      change wp _ (if server.actual = .running then _ else _) _ _
      split
      · exact hset .unknown (by decide) (by decide)
      · exact hfound
    | .ok _ => exact hset .running (by decide) (by decide)

theorem wp_reconcileServer (server : Row) (m : Bool) :
    wp (watch id) (reconcileServer hasRuntime server) (fun _ _ => True) m := by
  refine wp_ok (wp_refreshServerActualState server m) ?_
  intro actual m' h
  change wp _ (if server.desired = .running ∧ actual = .stopped then _ else _) _ m'
  split
  · rename_i hstart
    exact wp_sendPower fun hid _ => h actual rfl hid hstart.1 (.inl hstart.2)
  split
  · exact wp_sendPower fun _ => nofun
  split
  · rename_i hrestart
    exact wp_sendPower fun hid _ => h actual rfl hid hrestart.1 (.inr hrestart.2)
  · trivial

theorem wp_reconcileAll : ∀ (servers : List Row) (m : Bool),
    wp (watch id) (reconcileAll hasRuntime servers) (fun _ _ => True) m
  | [], _ => trivial
  | server :: rest, m =>
    wp_then (wp_reconcileServer server m) fun _ m' _ => wp_reconcileAll rest m'

theorem wp_executePowerTask
    (h : serverID = id → starting (Engine.lower (trimSpace signal)) = true → m = false) :
    wp (watch id) (executePowerTask serverID signal) (fun _ _ => True) m := by
  change wp _ (if Engine.lower (trimSpace signal) = "" then _ else _) _ m
  split
  · trivial
  refine wp_ask nofun fun r htarget => ?_
  match r, htarget with
  | .error e, _ => trivial
  | .ok target, (htarget : target.serverID = serverID) =>
    refine wp_ask (fun hstarts => ?_) fun r _ => ?_
    · simp [starts] at hstarts
      exact h (htarget.symm.trans hstarts.1) hstarts.2
    · match r with
      | .error e => trivial
      | .ok _ => exact ⟨nofun, fun _ _ => trivial⟩

theorem wp_compensate {f : Failure} (h : f.source.serverID = id → f.source.nodeURL ≠ "" → m = false) :
    wp (watch id) f.compensate (fun _ _ => True) m := by
  have hall : All (fun c => starts id (.panel c) = true → m = false)
      (Service.fail f.migrationID f.cause f.source f.target f.destinationCreated f.sourceCredential f.destinationCredential) :=
    All_fail (fun _ _ => nofun) (fun _ _ => nofun) (fun _ => nofun)
      (fun hurl hstarts => h (of_decide_eq_true hstarts) hurl) nofun nofun fun _ => nofun
  have hlift : All (fun c => (∃ q, c = .panel q) ∧ (starts id c = true → m = false)) f.compensate :=
    All.lift (hall.mono fun c hc => ⟨⟨c, rfl⟩, hc⟩)
  refine (hlift.mono fun c hc => ?_).wp (L := (· = m)) rfl fun _ => trivial
  rintro m' rfl
  refine ⟨hc.2, fun r _ => ?_⟩
  obtain ⟨⟨q, rfl⟩, -⟩ := hc
  rfl

theorem wp_program (t : PowerTask)
    (hcompensate : ∀ f, t = .compensate f → f.source.serverID = id → f.source.nodeURL ≠ "" → m = false)
    (hschedule : ∀ serverID signal, t = .schedule serverID signal → serverID = id →
      starting (Engine.lower (trimSpace signal)) = true → m = false) :
    wp (watch id) (t.program hasRuntime) (fun _ _ => True) m := by
  cases t with
  | request serverID signal => exact wp_seq (wp_requestServerPower serverID signal m)
  | reconcile =>
    exact wp_seq (wp_ask nofun (forall_result fun servers _ => wp_seq (wp_reconcileAll servers m)))
  | compensate f => exact wp_compensate (hcompensate f rfl)
  | schedule serverID signal => exact wp_seq (wp_executePowerTask (hschedule serverID signal rfl))
  | suspend => exact ⟨nofun, fun _ _ => trivial⟩

end

section
variable {D : Type} {P : Platform D} {hasRuntime : Bool} {id : String} {s s' : State D}

variable {i : Nat} {c : PowerCall} {r : PowerResp c} {l : Label PowerTask}

theorem expects_of_answer {o : Outcome} {t : PowerTask} {k : PowerResp c → Power Unit}
    {w : PowerWorld D} (m : Bool) (hi : s.threads[i]? = some (t, .call c k)) (ha : proper s (.call i o) = true)
    (hr : (powerSystem P hasRuntime).answer s.world c o = some (r, w)) : (watch id).expects m c r := by
  have hpending : s.pending i = some (t, c) := Config.pending_eq hi
  cases c with
  | serverControlTarget serverID =>
    match r with
    | .error e => trivial
    | .ok target =>
      have he := System.answer_delivered hr nofun
      change _ = PowerWorld.handle s.world P (.serverControlTarget serverID) at he
      simp [PowerWorld.handle] at he
      split at he
      · rename_i row hrow
        cases he
        have hid : row.id = serverID := rowAt_key (t := s.world.rows) hrow
        exact hid
      · cases he
  | getServer reader serverID =>
    match reader, r with
    | .request, _ => trivial
    | .refresh listed, .error e => trivial
    | .refresh listed, .ok server =>
      intro _ hsuspended hbad
      obtain ⟨rfl, he⟩ | ⟨e, -, hf, -⟩ | ⟨e, -, hf, -⟩ := System.answer_cases hr
      · change _ = PowerWorld.handle s.world P (.getServer (.refresh listed) serverID) at he
        simp [PowerWorld.handle] at he
        split at he
        · rename_i row hrow
          cases he
          simp [proper, hpending, hrow, hsuspended, hbad.1] at ha
          exact hbad.2.elim ha.1 ha.2
        · cases he
      · cases hf
      · cases hf
  | _ => trivial

theorem watched_inv : ThreadInv (powerSystem P hasRuntime) (fun s l => proper s l = true) (fun _ => True)
    (fun _ _ p => ∃ m, wp (watch id) p (fun _ _ => True) m) where
  start _ t _ _ := ⟨false, wp_program t (fun _ _ _ _ => rfl) fun _ _ _ _ _ => rfl⟩
  stop _ _ _ := ⟨false, trivial⟩
  tick _ _ _ := ⟨trivial, fun _ _ h => h⟩
  call s i o t c k r w _ hJ ha hi hr := by
    obtain ⟨m, hm⟩ := hJ _ (List.mem_of_getElem? hi)
    refine ⟨trivial, ⟨_, hm.2 r (expects_of_answer m hi ha hr)⟩, fun j t' p _ hj => ?_⟩
    exact hJ _ (List.mem_of_getElem? hj)

def Barred (id : String) (i : Nat) (s : State D) : Prop :=
  ∃ t p, s.threads[i]? = some (t, p) ∧ wp (watch id) p (fun _ _ => True) true

theorem next_unchanged (h : ∀ reader, c ≠ .getServer reader id) : (watch id).next m c r = m := by
  cases c with
  | getServer reader serverID =>
    have hne : serverID ≠ id := fun he => h reader (he ▸ rfl)
    match r with
    | .ok server => exact if_neg hne
    | .error e => exact if_neg hne
  | _ => rfl

theorem Barred.step (h : Barred id i s) (ha : proper s l = true)
    (hl : decides s l ≠ some (i, id)) (hn : (powerSystem P hasRuntime).next s l = some s') : Barred id i s' := by
  obtain ⟨t, p, hi, hp⟩ := h
  obtain hi' | hi' | ⟨o, c, k, r, w, rfl, rfl, hr, hi'⟩ := System.next_thread hn hi
  · exact ⟨t, p, hi', hp⟩
  · exact ⟨t, _, hi', trivial⟩
  · refine ⟨t, k r, hi', ?_⟩
    have hnext : (watch id).next true c r = true := by
      refine next_unchanged fun reader hc => hl ?_
      subst hc
      simp [decides, Config.pending_eq hi]
    have hrest := hp.2 r (expects_of_answer true hi ha hr)
    rwa [hnext] at hrest

theorem barred_of_decides (hJ : ∀ x ∈ s.threads, ∃ m, wp (watch id) x.2 (fun _ _ => True) m)
    (ha : proper s l = true) (hl : decides s l = some (i, id)) (hsuspended : s.world.suspended id = true)
    (hn : (powerSystem P hasRuntime).next s l = some s') : Barred id i s' := by
  cases l with
  | tick | crash => simp [decides] at hl
  | start t =>
    cases hn
    have hlast : (s.threads ++ [(t, t.program hasRuntime)])[s.threads.length]? = some (t, t.program hasRuntime) := by simp
    cases t with
    | compensate f =>
      obtain ⟨rfl, rfl⟩ := Prod.mk.inj (Option.some.inj hl)
      refine ⟨_, _, hlast, wp_program (.compensate f) ?_ nofun⟩
      rintro _ ⟨⟩ - hurl
      simp [proper, hsuspended, hurl] at ha
    | schedule serverID signal =>
      obtain ⟨rfl, rfl⟩ := Prod.mk.inj (Option.some.inj hl)
      refine ⟨_, _, hlast, wp_program (.schedule serverID signal) (fun f he => nomatch he) fun serverID' signal' he => ?_⟩
      cases he
      intro _ hsignal
      simp [proper, hsuspended, hsignal] at ha
    | request | reconcile | suspend => simp [decides] at hl
  | call =>
    obtain ⟨t, c, k, r, w, hj, hr, rfl⟩ := System.next_call hn
    have hlt := lt_at hj
    simp [decides, Config.pending_eq hj] at hl
    split at hl
    · rename_i reader serverID heq
      cases heq
      cases hl
      obtain ⟨m, hm⟩ := hJ _ (List.mem_of_getElem? hj)
      refine ⟨t, k r, by simp [hlt], ?_⟩
      have hnext : (watch id).next m (.getServer reader id) r = true := by
        match r with
        | .error e => exact if_pos rfl
        | .ok server =>
          refine (if_pos rfl).trans ?_
          have he := System.answer_delivered hr nofun
          change _ = PowerWorld.handle s.world P (.getServer reader id) at he
          simp [PowerWorld.handle] at he
          split at he
          · rename_i row hrow
            cases he
            simpa [PowerWorld.suspended, hrow] using hsuspended
          · cases he
      have hrest := hm.2 r (expects_of_answer m hj ha hr)
      rwa [hnext] at hrest
    · cases hl

/-- A thread that decides about a server while it is suspended does not start or restart it, until
it decides about it again, if no step is improper. -/
theorem suspended_not_started {s₀ s₁ s₂ s₃ : State D} {ls₁ ls₂ : List (Label PowerTask)} {l : Label PowerTask} {i : Nat}
    (hidle : s₀.threads = []) (h₁ : Run (powerSystem P hasRuntime).next (fun s l => proper s l = true) s₀ ls₁ s₁)
    (hproper : proper s₁ l = true) (hdecides : decides s₁ l = some (i, id)) (hsuspended : s₁.world.suspended id = true)
    (hnext : (powerSystem P hasRuntime).next s₁ l = some s₂)
    (h₂ : Run (powerSystem P hasRuntime).next (fun s l => proper s l = true ∧ decides s l ≠ some (i, id)) s₂ ls₂ s₃)
    {t : PowerTask} {c : PowerCall} (hpending : s₃.pending i = some (t, c)) : starts id c = false := by
  have hJ : True ∧ ∀ x ∈ s₁.threads, ∃ m, wp (watch id) x.2 (fun _ _ => True) m :=
    watched_inv.run ⟨trivial, by simp [hidle]⟩ h₁
  have hbarred : Barred id i s₃ :=
    Run.invariant (I := Barred id i) (fun _ _ _ h ha hn => h.step ha.1 ha.2 hn)
      (barred_of_decides hJ.2 hproper hdecides hsuspended hnext) h₂
  obtain ⟨t', p, hi, hp⟩ := hbarred
  cases p with
  | ret =>
    simp only [Config.pending, hi] at hpending
    cases hpending
  | call =>
    rw [Config.pending_eq hi] at hpending
    cases hpending
    by_contra hstarts
    exact Bool.noConfusion (hp.1 (by simpa using hstarts))

end

def suspendedServer : State Unit :=
  ⟨{ rows := [{ id := "s", nodeURL := "http://a", suspended := true, desired := .running }], panel := moving.world }, []⟩

def restart : List (Label PowerTask) := [.start (.request "s" "restart")]

theorem suspended_not_started_request : ∃ s₁ s₂ : State Unit,
    Run (powerSystem obliging true).next (fun s l => proper s l = true) suspendedServer restart s₁ ∧
      s₁.world.suspended "s" = true ∧ (powerSystem obliging true).next s₁ (.call 0 .delivered) = some s₂ ∧
      ∀ t c, s₂.pending 0 = some (t, c) → starts "s" c = false := by
  have hr : Run (powerSystem obliging true).next (fun s l => proper s l = true) suspendedServer restart
      ⟨suspendedServer.world, [(.request "s" "restart", PowerTask.program true (.request "s" "restart"))]⟩ :=
    ⟨rfl, _, rfl, rfl⟩
  refine ⟨_, _, hr, rfl, rfl, fun t c hpending => ?_⟩
  exact suspended_not_started (l := .call 0 .delivered) (i := 0) rfl hr rfl rfl rfl rfl (Run.nil _) hpending

def failure : Failure where
  migrationID := "m"
  cause := "transfer archive"
  source := { serverID := "s", nodeURL := "http://a" }
  target := {}
  destinationCreated := false
  sourceCredential := ""
  destinationCredential := ""

def reconciling : List (Label PowerTask) :=
  [.start .reconcile, .call 0 .delivered, .call 0 .delivered, .call 0 .delivered, .call 0 (.lost "no such container"),
   .call 0 .delivered]

/-- The reconciler, the compensation of a migration and a schedule each start a server that is
suspended all along. -/
theorem suspended_started :
    (∃ s : State Unit, Run (powerSystem obliging true).next (fun s _ => s.world.suspended "s" = true) suspendedServer
      reconciling s ∧ (s.pending 0).any (fun x => starts "s" x.2) = true) ∧
    (∃ s : State Unit, Run (powerSystem obliging true).next (fun s _ => s.world.suspended "s" = true) suspendedServer
      [.start (.compensate failure)] s ∧ (s.pending 0).any (fun x => starts "s" x.2) = true) ∧
    ∃ s : State Unit, Run (powerSystem obliging true).next (fun s _ => s.world.suspended "s" = true) suspendedServer
      [.start (.schedule "s" "start"), .call 0 .delivered] s ∧ (s.pending 0).any (fun x => starts "s" x.2) = true := by decide +kernel

end ForgePlane.PowerPaths
