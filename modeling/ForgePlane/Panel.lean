import ForgePlane.TxSound
import ForgePlane.Worker

/-!
# Steps of the panel

A step of the panel leaves the database alone or runs one statement on it. The
daemons are left open; `obliging` is a platform whose daemons agree to everything.
-/

namespace ForgePlane

section
variable {D : Type} {H : Sha256} {P : Platform D} {s s' : Config Resp Task (World D)}

theorem Platform.handle_db (w : World D) (c : Call) :
    (P.handle w c).2.db = w.db ∨ ∃ t, c = .tx t ∧ (P.handle w c).2.db = (t.exec w.now w.db).2 := by
  cases c with
  | tx t => exact .inr ⟨t, rfl, rfl⟩
  | _ => exact .inl rfl

variable {c : Call} {o : Outcome} {τ W : Type} {i : Nat} {task : τ} {t : Tx}

theorem answer_db {w w' : World D} {r : Resp c} (h : (panel H P).answer w c o = some (r, w')) :
    w'.db = w.db ∨ ∃ t, c = .tx t ∧ w'.db = (t.exec w.now w.db).2 := by
  obtain rfl | rfl := System.answer_world h
  · exact .inl rfl
  · exact Platform.handle_db w c

def Config.statement {τ W : Type} (s : Config Resp τ W) (l : Label τ) : Option Tx :=
  match s.sends l with
  | some (_, .tx t) => some t
  | _ => none

theorem Config.statement_eq {s : Config Resp τ W}
    {k : Resp (.tx t) → Action Unit} (h : s.threads[i]? = some (task, .call (.tx t) k)) :
    s.statement (.call i o) = some t := by
  simp [Config.statement, Config.sends, Config.pending_eq h]

theorem Config.statement_call {s : Config Resp τ W}
    {k : Resp c → Action Unit} (h : s.threads[i]? = some (task, .call c k)) (hs : s.statement (.call i o) = some t) :
    c = .tx t := by
  simp [Config.statement, Config.sends, Config.pending_eq h] at hs
  split at hs
  · rename_i hc
    cases hc
    rw [Option.some.inj hs]
  · cases hs

theorem panel_step {l : Label Task} (h : (panel H P).next s l = some s') :
    s'.world.db = s.world.db ∨
    ∃ t, s.statement l = some t ∧ Effect s.world.now s.world.db t s'.world.db := by
  cases l with
  | call =>
    obtain ⟨task, c, k, r, w, hi, ha, rfl⟩ := System.next_call h
    obtain he | ⟨t, rfl, he⟩ := answer_db ha
    · exact .inl he
    · refine .inr ⟨t, Config.statement_eq hi, ?_⟩
      rw [he]
      exact t.effect s.world.now s.world.db
  | start | tick => cases h; exact .inl rfl
  | crash =>
    obtain ⟨t, p, -, rfl⟩ := System.next_crash h
    exact .inl rfl

theorem panel_invariant {allowed : Config Resp Task (World D) → Label Task → Prop} {I : DB → Prop}
    (step : ∀ s l t db', I s.world.db → allowed s l → s.statement l = some t →
      Effect s.world.now s.world.db t db' → I db')
    {ls : List (Label Task)} (hI : I s.world.db) (h : Run (panel H P).next allowed s ls s') : I s'.world.db := by
  refine Run.invariant (I := fun s => I s.world.db) (fun s l s' hI ha hn => ?_) hI h
  obtain he | ⟨t, hs, he⟩ := panel_step hn
  · simp [he]; exact hI
  · exact step s l t _ hI ha hs he

end

/-! ## Columns of one migration -/

namespace DB

def status (db : DB) (id : String) : Option MigrationStatus := (db.migration id).map (·.status)

def phase (db : DB) (id : String) : Option RunPhase := (db.run id).map (·.phase)

end DB

/-! ## A platform for small runs -/

def zeroDigest : Vector UInt8 32 := Vector.replicate 32 0

def zeroSha : Sha256 := ⟨fun _ => zeroDigest⟩

def obligingAnswer : (q : DaemonReq) → Except Err q.Val
  | .prepareTransferSource .. => .ok { phase := .archived, archiveSize := 1, checksum := "c" }
  | .pushTransferSource .. => .ok { phase := .verified, archiveSize := 1, offset := 1, checksum := "c" }
  | .restoreTransferDestination .. => .ok { phase := .restored }
  | .createServer .. => .ok true
  | .registerTransferCredential .. => .ok ()
  | .finalizeTransferDestination .. => .ok ()
  | .cleanupTransferSource .. => .ok ()
  | .cancelTransfer .. => .ok ()
  | .syncServerConfiguration .. => .ok ()
  | .deleteServer .. => .ok ()
  | .startServer .. => .ok ()

def obliging : Platform Unit where
  random _ := .ok zeroDigest
  uuid n := toString n
  planTarget _ _ _ := .error "targetNodeId is required"
  validateTarget _ _ _ _ := .ok ()
  serve _ d _ q := (obligingAnswer q, d)

def movingDB : DB where
  nodes := [{ id := "a", baseURL := "http://a", cpuThreads := 4, memoryMB := 4096, diskMB := 4096 },
            { id := "b", baseURL := "http://b", cpuThreads := 4, memoryMB := 4096, diskMB := 4096 }]
  servers := [{ id := "s", nodeID := "a", primaryAllocationID := some "p", cpuShares := 1024, memoryMB := 1024 }]
  allocations := [{ id := "p", nodeID := "a", serverID := some "s" }, { id := "q", nodeID := "b" }]
  migrations := [{ id := "m", serverID := "s", sourceNodeID := "a", targetNodeID := "b", status := .preparing }]
  runs := [{ migrationID := "m", idempotencyKey := "k", targetAllocationID := some "q" }]
  allocationReservations := [⟨"q", "m"⟩]

def moving : Config Resp Task (World Unit) := ⟨{ db := movingDB, now := 1000, fleet := () }, []⟩

def answered (i n : Nat) : List (Label Task) := List.replicate n (.call i .delivered)

end ForgePlane
