import ForgePlane.Creation

/-!
# What a failed creation leaves behind

Each call of `CreateServer` may fail, and a node may create the workload although the manager gets an error.
-/

namespace ForgePlane.Cluster

open Prog

open Scheduler (PlacementRequest)

structure World where
  servers : List ServerRow := []
  reservations : List PlacementReservation := []
  workloads : List String := []
  deletes : List String := []
  orphans : List (String × String × Err) := []

structure Answers where
  now : Nat
  decision : PlacementDecision
  allocation : Allocation
  defaultMemoryMB : Int
  target : ServerProvisionTarget
  control : ServerControlTarget
  accepts : Bool

namespace World

def setReservation (w : World) (id : String) (status : ReservationStatus) : World := { w with
  reservations := updateWhere (fun r => decide (r.id = id) && DB.openReservation r) (fun r => { r with status := status }) w.reservations }

def handle (a : Answers) (w : World) : (c : Call) → Resp c × World
  | .placeServer _ => (.ok a.decision, w)
  | .findAvailableAllocation _ => (.ok a.allocation, w)
  | .insertReservation id req => (.ok (), { w with reservations := w.reservations ++ [req.row id (req.expiresAt.getD (a.now + 600))] })
  | .setReservation id status =>
    (.ok (w.reservations.countP fun r => decide (r.id = id) && DB.openReservation r), w.setReservation id status)
  | .getReservation id _ => (orNoRows (rowAt (·.id) w.reservations id), w)
  | .insertServer id req =>
    (.ok (), { w with servers := w.servers ++ [req.row id (if req.memoryMB ≤ 0 then a.defaultMemoryMB else req.memoryMB)] })
  | .getServer id _ => (orNoRows (rowAt (·.id) w.servers id), w)
  | .provisionTarget id => (.ok { a.target with serverID := id }, w)
  | .syncConfiguration _ => (.ok (), w)
  | .markConfigSynced id =>
    (.ok (), { w with servers := updateWhere (fun r => r.id = id) (fun r => { r with configSyncPending := false }) w.servers })
  | .markConfigSyncFailed id _ =>
    (.ok (), { w with servers := updateWhere (fun r => r.id = id) (fun r => { r with configSyncPending := true }) w.servers })
  | .createWorkload target =>
    (.ok a.accepts, if a.accepts then { w with workloads := target.serverID :: w.workloads } else w)
  | .setProvisioned id =>
    (.ok (), { w with servers := updateWhere (fun r => r.id = id) (fun r => { r with status := "created" }) w.servers })
  | .controlTarget id => (.ok { a.control with serverID := id }, w)
  | .deleteWorkload target => (.ok (), { w with deletes := target.serverID :: w.deletes })
  | .hardDelete id orphan =>
    (.ok (), { w with
      servers := deleteWhere (fun r => r.id = id) w.servers
      orphans := (orphan.map fun o => (id, o)).toList ++ w.orphans })

end World

def fault : (c : Call) → Err → Resp c
  | .placeServer _, e => .error e
  | .findAvailableAllocation _, e => .error e
  | .insertReservation .., e => .error e
  | .setReservation .., e => .error e
  | .getReservation .., e => .error e
  | .insertServer .., e => .error e
  | .getServer .., e => .error e
  | .provisionTarget _, e => .error e
  | .syncConfiguration _, e => .error e
  | .markConfigSynced _, e => .error e
  | .markConfigSyncFailed .., e => .error e
  | .createWorkload _, e => .error e
  | .setProvisioned _, e => .error e
  | .controlTarget _, e => .error e
  | .deleteWorkload _, e => .error e
  | .hardDelete .., e => .error e

/-- A workload that is asked for although nothing is heard of it is created by a node that accepts. -/
def World.respond (a : Answers) (out : Call → Outcome) (w : World) (c : Call) : Resp c × World :=
  match out c with
  | .delivered => w.handle a c
  | .lost e => (fault c e, w)
  | .ambiguous e => (fault c e, (w.handle a c).2)

structure Compensated (s : Setup) (w : World) : Prop where
  row : ∀ r ∈ w.servers, r.id ≠ s.serverID
  reservation : ∀ r ∈ w.reservations, r.id = s.reservationID → DB.openReservation r = false
  workload : s.serverID ∈ w.workloads → s.serverID ∈ w.deletes ∨ ∃ o ∈ w.orphans, o.1 = s.serverID

section
variable (a : Answers) (out : Call → Outcome) (s : Setup)

/-! The calls of a creation of which none fails, in their order. -/

def reserveCalls (req : CreateServerRequest) (placement : PlacementRequest) : List Call :=
  if s.reserves then
    [.insertReservation s.reservationID (reservationRequest req placement), .getReservation s.reservationID .active]
  else []

def confirmCalls : List Call :=
  if s.reserves then [.setReservation s.reservationID .completed, .getReservation s.reservationID .completed] else []

def furnishCalls : List Call :=
  if s.runtime then
    [.provisionTarget s.serverID, .syncConfiguration { a.target with serverID := s.serverID }, .markConfigSynced s.serverID,
      .createWorkload { a.target with serverID := s.serverID }, .setProvisioned s.serverID] ++
      confirmCalls s ++ [.getServer s.serverID false]
  else []

def insertCalls (req : CreateServerRequest) : List Call :=
  [.insertServer s.serverID req, .getServer s.serverID true] ++ furnishCalls a s

def allocationCalls : List Call :=
  if a.decision.allocationID ≠ "" then [] else [.findAvailableAllocation a.decision.nodeID]

def placed (req : CreateServerRequest) : CreateServerRequest := { req with
  nodeID := a.decision.nodeID
  allocationID := if a.decision.allocationID ≠ "" then a.decision.allocationID else a.allocation.id }

def calls (req : CreateServerRequest) (placement : PlacementRequest) : List Call :=
  .placeServer (placementRequest req placement) :: (allocationCalls a ++
    (reserveCalls s (placed a req) (placementRequest req placement) ++ insertCalls a s (placed a req)))

def stops : Call → Bool
  | .createWorkload t => decide (out (.createWorkload t) ≠ .delivered) || !a.accepts
  | c => decide (out c ≠ .delivered)

/-- The call has an effect that is not undone where it fails, or nothing is undone after it. -/
def forgets : Call → Bool
  | .getReservation _ .active => true
  | .getServer .. => true
  | .createWorkload t => (out (.createWorkload t)).isAmbiguous && a.accepts
  | _ => false

def leaves (cs : List Call) : Bool := (cs.find? (stops a out)).any (forgets a out)

def complete (req : CreateServerRequest) : Bool :=
  !(trimSpace req.name = "" || trimSpace req.templateID = "") && trimSpace req.ownerID ≠ ""

/-- Only the daemon's answer to a creation may be wrong, and the calls that undo a creation go through. -/
structure Undoes : Prop where
  sure : ∀ c, (out c).isAmbiguous = true → ∃ t, c = .createWorkload t
  cancel : out (.setReservation s.reservationID .cancelled) = .delivered
  control : out (.controlTarget s.serverID) = .delivered
  delete : ∀ orphan, out (.hardDelete s.serverID orphan) = .delivered

def Fair (cs : List Call) (r : Except Err ServerRow × World) : Prop :=
  (r.1.isOk = false → Compensated s r.2) ↔ leaves a out cs = false

variable {a out s} {w : World} {cs : List Call} {c : Call}

theorem respond_delivered (h : out c = .delivered) : w.respond a out c = w.handle a c := by simp [World.respond, h]

theorem respond_lost {e : Err} (h : out c = .lost e) : w.respond a out c = (fault c e, w) := by simp [World.respond, h]

theorem Undoes.cases (h : Undoes out s) (hc : ∀ t, c ≠ .createWorkload t) : out c = .delivered ∨ ∃ e, out c = .lost e := by
  cases ho : out c with
  | delivered => exact .inl rfl
  | lost e => exact .inr ⟨e, rfl⟩
  | ambiguous =>
    obtain ⟨t, ht⟩ := h.sure c (by rw [ho]; rfl)
    exact absurd ht (hc t)

theorem stops_eq (hc : ∀ t, c ≠ .createWorkload t) : stops a out c = decide (out c ≠ .delivered) := by
  cases c with
  | createWorkload t => exact absurd rfl (hc t)
  | _ => rfl

theorem leaves_go (h : stops a out c = false) : leaves a out (c :: cs) = leaves a out cs := by simp [leaves, h]

theorem leaves_stop (h : stops a out c = true) : leaves a out (c :: cs) = forgets a out c := by simp [leaves, h]

variable {k : Resp c → Action (Except Err ServerRow)} {created : Bool} {cause : Err}

theorem fair_call (hu : Undoes out s) (hc : ∀ t, c ≠ .createWorkload t)
    (hgo : Fair a out s cs ((k (w.handle a c).1).exec (World.respond a out) (w.handle a c).2))
    (hlost : ∀ e, ((((k (fault c e)).exec (World.respond a out) w).1.isOk = false →
      Compensated s ((k (fault c e)).exec (World.respond a out) w).2) ↔ forgets a out c = false)) :
    Fair a out s (c :: cs) (exec (World.respond a out) (.call c k) w) := by
  rw [Fair, exec_call]
  obtain ho | ⟨e, ho⟩ := hu.cases hc
  · rw [respond_delivered ho, leaves_go (by simp [stops_eq hc, ho])]
    exact hgo
  · rw [respond_lost ho, leaves_stop (by simp [stops_eq hc, ho])]
    exact hlost e

def Setup.reservation (s : Setup) : Option String := if s.reserves then some s.reservationID else none

def World.cancelled (s : Setup) (w : World) : World :=
  if s.reserves then w.setReservation s.reservationID .cancelled else w

theorem cancelReservation_world (hu : Undoes out s) :
    ((cancelReservation s.reservation).exec (World.respond a out) w).2 = w.cancelled s := by
  unfold Setup.reservation World.cancelled
  cases hs : s.reserves with
  | false => rfl
  | true =>
    simp [cancelReservation, updatePlacementReservationStatus, call]
    rw [respond_delivered hu.cancel]
    simp [World.handle]
    split
    · rename_i h
      cases h
    · rfl
    · -- the status is written; whether it can be read back does not matter
      simp
      unfold World.respond
      cases hr : out (.getReservation s.reservationID .cancelled) with
      | delivered | lost | ambiguous => rfl

theorem cancelled_servers : (w.cancelled s).servers = w.servers := by
  unfold World.cancelled
  split <;> rfl

theorem cancelled_workloads : (w.cancelled s).workloads = w.workloads := by
  unfold World.cancelled
  split <;> rfl

theorem cancelled_closed (h : s.reserves = false → ∀ r ∈ w.reservations, r.id ≠ s.reservationID) :
    ∀ r ∈ (w.cancelled s).reservations, r.id = s.reservationID → DB.openReservation r = false := by
  unfold World.cancelled
  intro r hr hid
  cases hs : s.reserves with
  | false =>
    rw [hs] at hr
    exact absurd hid (h hs r hr)
  | true =>
    rw [hs] at hr
    obtain ⟨r', hr', rfl⟩ := mem_updateWhere.mp hr
    split at hid
    · rename_i hopen
      rw [if_pos hopen]
      rfl
    · rename_i hopen
      rw [if_neg hopen]
      simpa [hid] using hopen

theorem compensated (hu : Undoes out s) (hres : ∀ r ∈ w.reservations, r.id = s.reservationID →
      DB.openReservation r = false) (hworkload : created = false → s.serverID ∉ w.workloads) :
    Compensated s ((compensateCreateFailure s.serverID created cause).exec (World.respond a out) w).2 := by
  have hdropped : ∀ r ∈ deleteWhere (fun r : ServerRow => r.id = s.serverID) w.servers, r.id ≠ s.serverID := by
    intro r hr
    simpa using (List.mem_filter.mp hr).2
  simp [compensateCreateFailure, call]
  rw [respond_delivered hu.control]
  simp [World.handle]
  cases created with
  | false =>
    simp
    rw [respond_delivered (hu.delete none)]
    exact ⟨hdropped, hres, fun h => absurd h (hworkload rfl)⟩
  | true =>
    simp
    obtain ho | ⟨e, ho⟩ := hu.cases (c := .deleteWorkload { a.control with serverID := s.serverID }) nofun
    · rw [respond_delivered ho]
      simp [World.handle]
      rw [respond_delivered (hu.delete none)]
      exact ⟨hdropped, hres, fun _ => .inl List.mem_cons_self⟩
    · rw [respond_lost ho]
      simp [fault]
      rw [respond_delivered (hu.delete _)]
      exact ⟨hdropped, hres, fun _ => .inr ⟨_, List.mem_cons_self, rfl⟩⟩

/-! ## From the last call to the first -/

structure Placed (s : Setup) (w : World) : Prop where
  row : ∃ r ∈ w.servers, r.id = s.serverID
  opened : s.reserves = true → ∃ r ∈ w.reservations, r.id = s.reservationID ∧ DB.openReservation r = true
  none : s.reserves = false → ∀ r ∈ w.reservations, r.id ≠ s.reservationID

theorem rowAt_some {V : Type} {key : V → String} {t : List V} {k : String} (h : ∃ r ∈ t, key r = k) :
    ∃ r, rowAt key t k = some r ∧ key r = k := by
  obtain ⟨r, hr, hk⟩ := h
  cases hrow : rowAt key t k with
  | none => exact absurd (List.mem_map.mpr ⟨r, hr, hk⟩) (rowAt_eq_none.mp hrow)
  | some r' => exact ⟨r', rfl, rowAt_key hrow⟩

theorem fair_last (hu : Undoes out s) (hrow : ∃ r ∈ w.servers, r.id = s.serverID) :
    Fair a out s [.getServer s.serverID false] ((call (.getServer s.serverID false)).exec (World.respond a out) w) := by
  refine fair_call (c := .getServer s.serverID false) hu nofun ?_ fun e => ?_
  · obtain ⟨r, hr, -⟩ := rowAt_some hrow
    simp [World.handle, hr]
    exact ⟨fun _ => rfl, nofun⟩
  · obtain ⟨r, hr, hid⟩ := hrow
    refine ⟨fun h => ?_, nofun⟩
    exact absurd hid ((h rfl).row r hr)

theorem abandon_error (reservation : Option String) (serverID : String) (created : Bool) (cause : Err) :
    ((abandon reservation serverID created cause).exec (World.respond a out) w).1.isOk = false := by
  simp [abandon, exec_bind]
  rfl

variable (hu : Undoes out s)
include hu

theorem abandon_compensated (hnone : s.reserves = false → ∀ r ∈ w.reservations, r.id ≠ s.reservationID)
    (hworkload : created = false → s.serverID ∉ w.workloads) :
    Compensated s ((abandon s.reservation s.serverID created cause).exec (World.respond a out) w).2 := by
  simp [abandon, exec_bind]
  rw [cancelReservation_world hu]
  refine compensated hu (cancelled_closed hnone) fun h => ?_
  rw [cancelled_workloads]
  exact hworkload h

theorem fair_abandon (hc : ∀ t, c ≠ .createWorkload t) (hforgets : forgets a out c = false)
    (created : Bool) (cause : Err → Err)
    (hk : ∀ e, k (fault c e) = abandon s.reservation s.serverID created (cause e))
    (hnone : s.reserves = false → ∀ r ∈ w.reservations, r.id ≠ s.reservationID)
    (hworkload : created = false → s.serverID ∉ w.workloads)
    (hgo : Fair a out s cs ((k (w.handle a c).1).exec (World.respond a out) (w.handle a c).2)) :
    Fair a out s (c :: cs) (exec (World.respond a out) (.call c k) w) := by
  refine fair_call hu hc hgo fun e => ⟨fun _ => hforgets, fun _ _ => ?_⟩
  rw [hk]
  exact abandon_compensated hu hnone hworkload

theorem fair_conclude (h : Placed s w) : Fair a out s (confirmCalls s ++ [.getServer s.serverID false])
      ((conclude s.reservation s.serverID).exec (World.respond a out) w) := by
  unfold confirmCalls
  cases hs : s.reserves with
  | false =>
    rw [show s.reservation = none by simp [Setup.reservation, hs]]
    exact fair_last hu h.row
  | true =>
    have hres : s.reservation = some s.reservationID := by simp [Setup.reservation, hs]
    rw [hres]
    obtain ⟨r, hr, hid, hopen⟩ := h.opened hs
    obtain ⟨n, hn⟩ : ∃ n, w.reservations.countP (fun r => decide (r.id = s.reservationID) && DB.openReservation r) = n + 1 := by
      refine Nat.exists_eq_succ_of_ne_zero (Nat.pos_iff_ne_zero.mp (List.countP_pos_iff.mpr ⟨r, hr, ?_⟩))
      simp [hid, hopen]
    have hnone : s.reserves = false → ∀ w : World, ∀ r ∈ w.reservations, r.id ≠ s.reservationID := by
      intro h
      rw [hs] at h
      cases h
    refine fair_abandon (c := .setReservation s.reservationID .completed) hu nofun rfl true id
      (fun e => by rw [hres]; rfl) (fun h => hnone h _) nofun ?_
    simp [World.handle, hn]
    refine fair_abandon (c := .getReservation s.reservationID .completed) hu nofun rfl true id
      (fun e => by rw [hres]; rfl) (fun h => hnone h _) nofun ?_
    have hread : ∃ r', rowAt (·.id) (w.setReservation s.reservationID .completed).reservations s.reservationID = some r' ∧
        r'.id = s.reservationID := rowAt_some ⟨_, mem_updateWhere.mpr ⟨r, hr, rfl⟩, by split <;> exact hid⟩
    obtain ⟨r', hr', -⟩ := hread
    simp [World.handle, hr', orNoRows]
    exact fair_last hu h.row

theorem abandon_keeps_workload (hin : s.serverID ∈ w.workloads) (hdeletes : s.serverID ∉ w.deletes)
    (horphans : ∀ o ∈ w.orphans, o.1 ≠ s.serverID) :
    ¬ Compensated s ((abandon s.reservation s.serverID false cause).exec (World.respond a out) w).2 := by
  have hsame : (w.cancelled s).workloads = w.workloads ∧ (w.cancelled s).deletes = w.deletes ∧
      (w.cancelled s).orphans = w.orphans := by
    unfold World.cancelled
    split <;> exact ⟨rfl, rfl, rfl⟩
  simp [abandon, exec_bind]
  rw [cancelReservation_world hu]
  simp [compensateCreateFailure, call]
  rw [respond_delivered hu.control]
  simp [World.handle]
  rw [respond_delivered (hu.delete none)]
  intro h
  obtain hdel | ⟨o, ho, hid⟩ := h.workload (hsame.1 ▸ hin)
  · exact hdeletes (hsame.2.1 ▸ hdel)
  · exact horphans o (hsame.2.2 ▸ ho) hid

omit hu

structure Unknown (s : Setup) (w : World) : Prop where
  workloads : s.serverID ∉ w.workloads
  deletes : s.serverID ∉ w.deletes
  orphans : ∀ o ∈ w.orphans, o.1 ≠ s.serverID

theorem Placed.update (h : Placed s w) (p : ServerRow → Bool) (f : ServerRow → ServerRow) (hf : ∀ r, (f r).id = r.id) :
    Placed s { w with servers := updateWhere p f w.servers } := by
  obtain ⟨r, hr, hid⟩ := h.row
  refine ⟨⟨_, mem_updateWhere.mpr ⟨r, hr, rfl⟩, ?_⟩, h.opened, h.none⟩
  split
  · exact (hf r).trans hid
  · exact hid

theorem fair_createWorkload (hu : Undoes out s) {target : ServerProvisionTarget} (hid : target.serverID = s.serverID)
    (hnone : s.reserves = false → ∀ r ∈ w.reservations, r.id ≠ s.reservationID) (h : Unknown s w)
    {k : Except Err Bool → Action (Except Err ServerRow)} (cause : Err → Err) (rejected : Err)
    (herror : ∀ e, k (.error e) = abandon s.reservation s.serverID false (cause e))
    (hfalse : k (.ok false) = abandon s.reservation s.serverID false rejected)
    (hgo : Fair a out s cs ((k (.ok true)).exec (World.respond a out) { w with workloads := s.serverID :: w.workloads })) :
    Fair a out s (.createWorkload target :: cs) (exec (World.respond a out) (.call (.createWorkload target) k) w) := by
  have hundo : ∀ cause, Compensated s ((abandon s.reservation s.serverID false cause).exec (World.respond a out) w).2 :=
    fun cause => abandon_compensated hu hnone fun _ => h.workloads
  rw [Fair, exec_call]
  cases ho : out (.createWorkload target) with
  | delivered =>
    rw [respond_delivered ho]
    simp only [World.handle]
    cases hacc : a.accepts with
    | false =>
      rw [leaves_stop (by simp [stops, hacc])]
      simp [hfalse]
      exact ⟨fun _ => by simp [forgets, hacc], fun _ _ => hundo _⟩
    | true =>
      rw [leaves_go (by simp [stops, hacc, ho])]
      simp [hid]
      exact hgo
  | lost =>
    rw [respond_lost ho, leaves_stop (by simp [stops, ho])]
    simp only [fault, herror]
    exact ⟨fun _ => by simp [forgets, ho, Outcome.isAmbiguous], fun _ _ => hundo _⟩
  | ambiguous =>
    rw [leaves_stop (by simp [stops, ho])]
    simp only [World.respond, ho, fault, herror, World.handle]
    cases hacc : a.accepts with
    | false => exact ⟨fun _ => by simp [forgets, hacc], fun _ _ => hundo _⟩
    | true =>
      simp only [if_true, forgets, ho, hacc, Outcome.isAmbiguous, Bool.and_self]
      refine ⟨fun hc => absurd (hc (abandon_error ..)) ?_, nofun⟩
      exact abandon_keeps_workload hu (by simp [hid]) h.deletes h.orphans

theorem fair_furnish (hu : Undoes out s) (h : Placed s w) (hnew : Unknown s w) :
    Fair a out s (furnishCalls a s) ((furnish s s.reservation s.serverID).exec (World.respond a out) w) := by
  unfold furnish furnishCalls
  cases hs : s.runtime with
  | false =>
    simp
    exact ⟨fun _ => rfl, fun _ _ => abandon_compensated hu h.none fun _ => hnew.workloads⟩
  | true =>
    simp
    refine fair_abandon (c := .provisionTarget s.serverID) hu nofun rfl false id (fun _ => rfl) h.none
      (fun _ => hnew.workloads) ?_
    -- what the daemon says of a failed configuration is noted, if that can be
    refine fair_call (c := .syncConfiguration { a.target with serverID := s.serverID }) hu nofun ?_ fun e =>
      ⟨fun _ => rfl, fun _ _ => ?_⟩
    · refine fair_abandon (c := .markConfigSynced s.serverID) hu nofun rfl false id (fun _ => rfl) h.none
        (fun _ => hnew.workloads) ?_
      have hplaced := h.update (fun r => r.id = s.serverID) (fun r => { r with configSyncPending := false }) fun _ => rfl
      refine fair_createWorkload (w := (w.handle a (.markConfigSynced s.serverID)).2) hu ?_ h.none
        ⟨hnew.workloads, hnew.deletes, hnew.orphans⟩ id "runtime rejected server creation" (fun _ => ?_) ?_ ?_
      · rfl
      · rfl
      · rfl
      refine fair_abandon (c := .setProvisioned s.serverID) hu nofun rfl true id (fun _ => rfl) h.none
        nofun ?_
      exact fair_conclude hu ((Placed.update (s := s) (w := { w with workloads := s.serverID :: w.workloads, servers := _ })
        ⟨hplaced.row, hplaced.opened, hplaced.none⟩) _ _ fun _ => rfl)
    · change Compensated s (exec (World.respond a out) (.call (.markConfigSyncFailed s.serverID e) fun _ =>
        abandon s.reservation s.serverID false e) w).2
      rw [exec_call]
      refine abandon_compensated hu ?_ fun _ => ?_
      · unfold World.respond
        split <;> exact h.none
      · unfold World.respond
        split <;> exact hnew.workloads

structure Fresh (s : Setup) (w : World) : Prop extends Unknown s w where
  servers : ∀ r ∈ w.servers, r.id ≠ s.serverID
  reservations : ∀ r ∈ w.reservations, r.id ≠ s.reservationID

theorem Fresh.compensated (h : Fresh s w) : Compensated s w :=
  ⟨h.servers, fun r hr hid => absurd hid (h.reservations r hr), fun hin => absurd hin h.workloads⟩

theorem fair_insert (hu : Undoes out s) (hnew : Unknown s w) (hservers : ∀ r ∈ w.servers, r.id ≠ s.serverID)
    (hopened : s.reserves = true → ∃ r ∈ w.reservations, r.id = s.reservationID ∧ DB.openReservation r = true)
    (hnone : s.reserves = false → ∀ r ∈ w.reservations, r.id ≠ s.reservationID) (req : CreateServerRequest) :
    Fair a out s (insertCalls a s req) ((insertAndFurnish s s.reservation req).exec (World.respond a out) w) := by
  -- what a failed call of the store is followed by
  have hcancel : ∀ (w : World) (e : Err), (cancelReservation s.reservation >>= fun _ =>
      (pure (.error e) : Action (Except Err ServerRow))).exec (World.respond a out) w = (.error e, w.cancelled s) := by
    intro w e
    rw [exec_bind]
    exact Prod.ext rfl (cancelReservation_world hu)
  refine fair_call (c := .insertServer s.serverID req) hu nofun ?_ fun e => ⟨fun _ => rfl, fun _ _ => ?_⟩
  · set row := req.row s.serverID (if req.memoryMB ≤ 0 then a.defaultMemoryMB else req.memoryMB) with hrowdef
    have hrow : ∃ r ∈ w.servers ++ [row], r.id = s.serverID := ⟨row, by simp, rfl⟩
    refine fair_call (c := .getServer s.serverID true) hu nofun ?_ fun e => ⟨fun h => ?_, nofun⟩
    · obtain ⟨r, hr, hid⟩ := rowAt_some hrow
      simp [World.handle, ← hrowdef, hr, orNoRows]
      change Fair a out s _ ((furnish s s.reservation r.id).exec (World.respond a out) { w with servers := w.servers ++ [row] })
      rw [hid]
      exact fair_furnish hu ⟨hrow, hopened, hnone⟩ ⟨hnew.workloads, hnew.deletes, hnew.orphans⟩
    · have hleft : Compensated s (World.cancelled s { w with servers := w.servers ++ [row] }) := by
        have hexec := hcancel { w with servers := w.servers ++ [row] } e
        have hworld := congrArg Prod.snd hexec
        rw [← show _ = World.cancelled s { w with servers := w.servers ++ [row] } from hworld]
        exact h (congrArg (·.1.isOk) hexec)
      obtain ⟨r, hr, hid⟩ := hrow
      exact absurd hid (hleft.row r (by rw [cancelled_servers]; exact hr))
  · change Compensated s ((cancelReservation s.reservation >>= fun _ => (pure (.error e) : Action (Except Err ServerRow))).exec
      (World.respond a out) w).2
    rw [hcancel]
    refine ⟨by rw [cancelled_servers]; exact hservers, cancelled_closed hnone, fun hin => absurd ?_ hnew.workloads⟩
    rwa [cancelled_workloads] at hin

theorem fair_createOn (hu : Undoes out s) (h : Fresh s w) (req : CreateServerRequest) (placement : PlacementRequest) :
    Fair a out s (reserveCalls s req placement ++ insertCalls a s req)
      ((createOn s req placement).exec (World.respond a out) w) := by
  unfold reserveCalls createOn reserve
  cases hs : s.reserves with
  | false =>
    have hres : s.reservation = none := by simp [Setup.reservation, hs]
    have := fair_insert (a := a) hu h.toUnknown h.servers (fun h => nomatch hs.symm.trans h) (fun _ => h.reservations) req
    rw [hres] at this
    exact this
  | true =>
    simp
    refine fair_call (c := .insertReservation s.reservationID (reservationRequest req placement)) hu nofun ?_
      fun e => ⟨fun _ => rfl, fun _ _ => h.compensated⟩
    set row := (reservationRequest req placement).row s.reservationID ((reservationRequest req placement).expiresAt.getD (a.now + 600))
      with hrowdef
    have hrow : ∃ r ∈ w.reservations ++ [row], r.id = s.reservationID ∧ DB.openReservation r = true := ⟨row, by simp, rfl, rfl⟩
    refine fair_call (c := .getReservation s.reservationID .active) hu nofun ?_ fun e =>
      ⟨fun h => ?_, nofun⟩
    · obtain ⟨r, hr, hid⟩ := rowAt_some (hrow.imp fun r hr => ⟨hr.1, hr.2.1⟩)
      simp [World.handle, ← hrowdef, hr, orNoRows]
      change Fair a out s _ ((insertAndFurnish s (some r.id) req).exec (World.respond a out)
        { w with reservations := w.reservations ++ [row] })
      rw [hid, show some s.reservationID = s.reservation by simp [Setup.reservation, hs]]
      exact fair_insert (w := { w with reservations := w.reservations ++ [row] }) hu ⟨h.workloads, h.deletes, h.orphans⟩ h.servers
        (fun _ => hrow) (fun h => nomatch hs.symm.trans h) req
    · obtain ⟨r, hr, hid, hopen⟩ := hrow
      exact absurd ((h rfl).reservation r hr hid) (by rw [hopen]; exact nofun)

theorem fair_allocation (hu : Undoes out s) (h : Fresh s w) (req : CreateServerRequest) (placement : PlacementRequest) :
    Fair a out s (allocationCalls a ++ (reserveCalls s (placed a req) placement ++ insertCalls a s (placed a req)))
      ((chooseAllocation a.decision >>= fun r => match r with
        | .error e => pure (.error e)
        | .ok allocationID => createOn s { req with nodeID := a.decision.nodeID, allocationID := allocationID } placement).exec
        (World.respond a out) w) := by
  unfold allocationCalls chooseAllocation placed
  by_cases hgiven : a.decision.allocationID ≠ ""
  · simp [if_pos hgiven]
    exact fair_createOn hu h _ placement
  · simp [if_neg hgiven]
    refine fair_call (c := .findAvailableAllocation a.decision.nodeID) hu nofun ?_ fun e =>
      ⟨fun _ => rfl, fun _ _ => h.compensated⟩
    exact fair_createOn hu h _ placement

end

/-- A creation that fails leaves nothing behind exactly where it is not stopped by one of three reads, nor by a call
for the workload that the node has carried out. -/
theorem failed_creation_is_compensated {a : Answers} {out : Call → Outcome} {s : Setup} {w : World} {req : CreateServerRequest}
    {placement : PlacementRequest} (hu : Undoes out s) (hw : Fresh s w) :
    ((((createServer s req placement).exec (World.respond a out) w).1.isOk = false →
        Compensated s ((createServer s req placement).exec (World.respond a out) w).2) ↔
      (complete req && leaves a out (calls a s req placement)) = false) := by
  unfold createServer complete
  by_cases hname : (trimSpace req.name = "" || trimSpace req.templateID = "") = true
  · simp only [hname, if_true, Bool.not_true, Bool.false_and]
    exact ⟨fun _ => trivial, fun _ _ => hw.compensated⟩
  simp only [hname, Bool.false_eq_true, if_false, Bool.not_false, Bool.true_and]
  by_cases howner : trimSpace req.ownerID = ""
  · simp only [howner, if_true, ne_eq, not_true_eq_false, decide_false, Bool.false_and]
    exact ⟨fun _ => trivial, fun _ _ => hw.compensated⟩
  simp [howner]
  refine fair_call (c := .placeServer (placementRequest req placement)) hu nofun ?_
    fun e => ⟨fun _ => rfl, fun _ _ => hw.compensated⟩
  exact fair_allocation hu hw req (placementRequest req placement)

def smallSetup : Setup := { serverID := "s", reservationID := "r" }

def smallRequest : CreateServerRequest where
  name := "game"
  ownerID := "u"
  templateID := "e"
  memoryMB := 1024
  cpuShares := 512
  diskMB := 4096

def ready : Answers where
  now := 0
  decision := { nodeID := "n", allocationID := "a" }
  allocation := { id := "a", nodeID := "n" }
  defaultMemoryMB := 1024
  target := { nodeURL := "http://n" }
  control := { serverID := "", nodeURL := "http://n" }
  accepts := true

def late (o : Outcome) : Call → Outcome
  | .createWorkload _ => o
  | _ => .delivered

theorem late_undoes (o : Outcome) : Undoes (late o) smallSetup where
  sure c h := by
    cases c with
    | createWorkload t => exact ⟨t, rfl⟩
    | _ => cases h
  cancel := rfl
  control := rfl
  delete _ := rfl

theorem smallSetup_fresh : Fresh smallSetup {} where
  workloads := List.not_mem_nil
  deletes := List.not_mem_nil
  orphans _ h := absurd h List.not_mem_nil
  servers _ h := absurd h List.not_mem_nil
  reservations _ h := absurd h List.not_mem_nil

theorem failed_creation_is_compensated_unreached :
    ((createServer smallSetup smallRequest {}).exec (World.respond ready (late (.lost "no route"))) {}).1.isOk = false ∧
      Compensated smallSetup ((createServer smallSetup smallRequest {}).exec (World.respond ready (late (.lost "no route"))) {}).2 := by
  have herror : ((createServer smallSetup smallRequest {}).exec (World.respond ready (late (.lost "no route"))) {}).1.isOk = false := by
    decide +kernel
  exact ⟨herror, (failed_creation_is_compensated (late_undoes _) smallSetup_fresh).mpr (by decide +kernel) herror⟩

theorem late_workload_is_left : ∃ r, (createServer smallSetup smallRequest {}).exec (World.respond ready (late (.ambiguous "timeout"))) {} = r ∧
    r.1.isOk = false ∧ r.2.workloads = ["s"] ∧ r.2.servers.length = 0 ∧ r.2.deletes = [] ∧ r.2.orphans = [] := by
  refine ⟨_, rfl, ?_⟩
  decide +kernel

end ForgePlane.Cluster
