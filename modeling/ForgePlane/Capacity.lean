import ForgePlane.Reserving
import Mathlib.Algebra.Order.BigOperators.Group.List

/-!
# Reservations within the capacity of a node

A creation counts the servers and the live reservations of the node it has locked. Until it commits no row is
added on the node, and what is settled or expires meanwhile makes the sum smaller.
-/

namespace ForgePlane.Postgres

open DB List

def used (k : Resource) (t : Tables) (n : String) : Int := ((t.serversOn n).map (·.amount k)).sum

def reservedIn (k : Resource) (now : Nat) (n : String) (rows : List PlacementReservation) : Int :=
  ((rows.filter fun r => decide (r.nodeID = n) && DB.holds now r).map (·.amount k)).sum

def Fits (k : Resource) (now : Nat) (t : Tables) (n : String) : Prop :=
  ∃ row, t.node n = some row ∧ used k t n + reservedIn k now n t.placementReservations ≤ row.total k

instance (k : Resource) (now : Nat) (t : Tables) (n : String) : Decidable (Fits k now t n) :=
  decidable_of_iff ((t.node n).any fun row => used k t n + reservedIn k now n t.placementReservations ≤ row.total k)
    (by simp [Fits, Option.any_eq_true])

def share (k : Resource) (now : Nat) (n : String) (r : PlacementReservation) : Int :=
  if decide (r.nodeID = n) && DB.holds now r then r.amount k else 0

variable {f g : PlacementReservation → PlacementReservation} {k : Resource} {n : String} {now i : Nat}
variable {r r' new : PlacementReservation} {rows added : List PlacementReservation} {t t' : Tables} {F : Resource → String → Prop}
variable {v available requested : Resource → Int} {total allocated a : Int}

section
theorem reservedIn_eq (rows : List PlacementReservation) : reservedIn k now n rows = (rows.map (share k now n)).sum := by
  induction rows with
  | nil => rfl
  | cons r rows ih =>
    simp [reservedIn, filter_cons, share] at ih ⊢
    split
    · rw [map_cons, sum_cons, ih]
    · rw [ih, zero_add]

theorem reservedIn_append (rows rows' : List PlacementReservation) :
    reservedIn k now n (rows ++ rows') = reservedIn k now n rows + reservedIn k now n rows' := by
  simp [reservedIn_eq]

variable {now' : Nat}

theorem reservedIn_map_le
    (h : ∀ r ∈ rows, share k now n (f r) ≤ share k now n (g r)) :
    reservedIn k now n (rows.map f) ≤ reservedIn k now n (rows.map g) := by
  simp [reservedIn_eq]
  exact sum_le_sum h

theorem reservedIn_singleton_le (hr : 0 ≤ r.amount k) : reservedIn k now n [r] ≤ r.amount k := by
  simp [reservedIn_eq, share]
  split
  · exact le_refl _
  · exact hr

theorem share_le (hpos : 0 ≤ r.amount k) (hn : r'.nodeID = r.nodeID)
    (ha : r'.amount k = r.amount k) (hh : holds now' r' = true → holds now r = true) :
    share k now' n r' ≤ share k now n r := by
  unfold share
  rw [hn, ha]
  by_cases hr : holds now' r' = true
  · rw [hr, hh hr]
  · rw [Bool.not_eq_true] at hr
    rw [hr, Bool.and_false, if_neg Bool.false_ne_true]
    split
    · exact hpos
    · exact le_refl _

theorem holds_mono (h : now ≤ now') (hr : holds now' r = true) :
    holds now r = true := by
  simp [holds] at hr ⊢
  exact ⟨hr.1, by omega⟩

theorem reservedIn_tick (hpos : ∀ r ∈ rows, 0 ≤ r.amount k)
    (h : now ≤ now') : reservedIn k now' n rows ≤ reservedIn k now n rows := by
  simp [reservedIn_eq]
  exact sum_le_sum fun r hr => share_le (hpos r hr) rfl rfl (holds_mono h)

end

/-! ## The rows a transaction sees -/

def expireIf (ids : List String) (r : PlacementReservation) : PlacementReservation :=
  if decide (r.id ∈ ids) && DB.openReservation r then { r with status := .expired } else r

section
variable {ids : List String}

theorem expireIf_closed (h : openReservation r = false) : expireIf ids r = r := by
  rw [expireIf, h, Bool.and_false, if_neg Bool.false_ne_true]

theorem expireIf_cons (id : String) : expireIf (id :: ids) r =
    expireIf ids (if decide (r.id = id) && openReservation r then { r with status := .expired } else r) := by
  cases ho : openReservation r with
  | false =>
    rw [expireIf_closed ho, Bool.and_false, if_neg Bool.false_ne_true, expireIf_closed ho]
  | true =>
    by_cases hid : r.id = id
    · subst hid
      rw [if_pos (by simp), expireIf_closed (r := { r with status := .expired }) rfl, expireIf, ho, if_pos (by simp)]
    · simp [expireIf, ho, hid]

theorem changed_expired (ids : List String) (t : Tables) :
    database.changed t (ids.map fun id => .reservationStatus id .expired) =
      { t with placementReservations := t.placementReservations.map (expireIf ids) } := by
  induction ids generalizing t with
  | nil =>
    have : expireIf [] = id := funext fun r => by simp [expireIf]
    rw [this, map_id]
    rfl
  | cons id ids ih =>
    rw [map_cons, show database.changed t (Change.reservationStatus id .expired :: _) =
      database.changed (Change.apply t (.reservationStatus id .expired)) _ from rfl, ih]
    simp only [Change.apply, updateWhere, map_map]
    congr 2
    exact map_congr_left fun r _ => (expireIf_cons id).symm

theorem expireIf_nodeID : (expireIf ids r).nodeID = r.nodeID := by
  unfold expireIf
  split <;> rfl

theorem expireIf_amount : (expireIf ids r).amount k = r.amount k := by
  unfold expireIf
  split <;> rfl

theorem holds_expireIf : holds now (expireIf ids r) = (holds now r && !decide (r.id ∈ ids)) := by
  unfold expireIf
  by_cases hid : r.id ∈ ids <;> by_cases ho : openReservation r = true <;>
    simp_all [holds, openReservation]

variable (hf : Closing f)
include hf

theorem Closing.nodeID : (f r).nodeID = r.nodeID := by
  obtain h | ⟨-, st, h⟩ := hf r <;> rw [h]

theorem Closing.id : (f r).id = r.id := by
  obtain h | ⟨-, st, h⟩ := hf r <;> rw [h]

theorem Closing.amount : (f r).amount k = r.amount k := by
  obtain h | ⟨-, st, h⟩ := hf r <;> rw [h]
  rfl

theorem Closing.holds
    (h : DB.holds now (f r) = true) : DB.holds now r = true := by
  obtain hr | ⟨ho, st, hr⟩ := hf r
  · rw [hr] at h; exact h
  · rw [hr] at h
    simp [DB.holds] at h ⊢
    exact ⟨ho, h.2⟩

omit hf

def Nonneg (t : Tables) : Prop := ∀ r ∈ t.placementReservations, ∀ k, 0 ≤ r.amount k

theorem reservedIn_settles (hpos : Nonneg t) (hadd : ∀ r ∈ added, r.nodeID ≠ n) (h : Settles added t t') :
    reservedIn k now n (t'.placementReservations.map (expireIf ids)) ≤
      reservedIn k now n (t.placementReservations.map (expireIf ids)) := by
  obtain ⟨f, hf, rfl⟩ := h
  have hzero : reservedIn k now n (added.map (expireIf ids)) = 0 := by
    rw [reservedIn, filter_eq_nil_iff.mpr, map_nil, sum_nil]
    intro r' hr'
    obtain ⟨r, hr, rfl⟩ := mem_map.mp hr'
    simp [expireIf_nodeID, hadd r hr]
  rw [map_append, reservedIn_append, hzero, add_zero, map_map]
  refine reservedIn_map_le fun r hr => share_le ?_ ?_ ?_ fun hh => ?_
  · rw [expireIf_amount]; exact hpos r hr k
  · simp [expireIf_nodeID, hf.nodeID]
  · simp [expireIf_amount, hf.amount]
  · simp [Function.comp, holds_expireIf, hf.id] at hh ⊢
    exact ⟨hf.holds hh.1, hh.2⟩

end

/-! ## The snapshot and the check -/

theorem sums_ok {amounts : List (Resource → Int)} {f : Resource → Int} (h : sums amounts = .ok f) (k : Resource) :
    f k = (amounts.map fun a => a k).sum := by
  simp [sums] at h
  split at h
  · cases h; rfl
  · cases h

theorem nodeUsage_ok {u : DB.NodeUsage} (h : t.nodeUsage n = .ok u) :
    ∃ row, t.node n = some row ∧ u.total = row.total ∧ ∀ k, u.allocated k = used k t n := by
  unfold nodeUsage at h
  cases hn : t.node n with
  | none => rw [hn] at h; cases h
  | some row =>
    rw [hn] at h
    cases hs : sums ((t.serversOn n).map (·.amount)) with
    | error => simp [hs] at h; cases h
    | ok =>
      simp [hs] at h
      cases h
      refine ⟨row, rfl, rfl, fun k => ?_⟩
      exact (sums_ok hs k).trans (by rw [map_map]; rfl)

theorem activeReservedCapacity_ok
    (h : t.activeReservedCapacity now n = .ok v) (k : Resource) : v k = reservedIn k now n t.placementReservations := by
  rw [sums_ok h k, map_map]
  rfl

theorem checkCapacity_ok (h : checkCapacity available requested = .ok ())
    (k : Resource) (hk : 0 < requested k) : requested k ≤ available k := by
  unfold checkCapacity at h
  simp at h
  split at h
  · cases h
  split at h
  · cases h
  split at h
  · cases h
  rename_i hcpu hmemory hdisk
  cases k with
  | cpu => exact not_lt.mp fun h => hcpu ⟨hk, h⟩
  | memory => exact not_lt.mp fun h => hmemory ⟨hk, h⟩
  | disk => exact not_lt.mp fun h => hdisk ⟨hk, h⟩

theorem add_le_of_le_availableResource (ha : 0 < a)
    (h : a ≤ availableResource total allocated) : allocated + a ≤ total := by
  unfold availableResource at h
  split at h
  · omega
  split at h <;> omega

theorem row_amount (req : CreatePlacementReservationRequest) (id : String) (e : Nat) (k : Resource) :
    (req.row id e).amount k = req.amount k := by
  cases k <;> rfl

/-! ## What a transaction has counted -/

def seen (x : Sql.Open Change RowLock) (t : Tables) : List PlacementReservation :=
  t.placementReservations.map (expireIf (expiredIn x.changes))

structure Counted (t : Tables) (x : Sql.Open Change RowLock) (m : Know) : Prop where
  usage : ∀ u n, m.usage = some u → m.node = some n → t.nodeUsage n = .ok u
  reserved : ∀ v n, m.reserved = some v → m.node = some n → ∀ k, reservedIn k x.start n (seen x t) ≤ v k
  inserted : ∀ r, m.inserted = some r → ∀ k, 0 < r.amount k → ∃ row, t.node r.nodeID = some row ∧
    used k t r.nodeID + reservedIn k x.start r.nodeID (seen x t) + r.amount k ≤ row.total k

section
variable {now j : Nat} {id n' : String} {req : CreatePlacementReservationRequest} {x : Sql.Open Change RowLock} {m m' : Know}
variable {t t' : Tables} {task : ReservationTask} {q : Stmt} {others : List RowLock}

theorem Counted.empty (t : Tables) (x : Sql.Open Change RowLock) : Counted t x {} := ⟨nofun, nofun, nofun⟩

theorem Counted.settles (h : Counted t x m) (hb : Begun now task x m)
    (hpos : Nonneg t) (hadd : ∀ n, m.node = some n → ∀ r ∈ added, r.nodeID ≠ n) (hs : Settles added t t') :
    Counted t' x m := by
  have hle : ∀ n, m.node = some n → ∀ k, reservedIn k x.start n (seen x t') ≤ reservedIn k x.start n (seen x t) :=
    fun n hn k => reservedIn_settles hpos (hadd n hn) hs
  have husage : ∀ n, t'.nodeUsage n = t.nodeUsage n := by
    obtain ⟨f, -, rfl⟩ := hs
    exact fun n => rfl
  have hnode : ∀ n, t'.node n = t.node n := by
    obtain ⟨f, -, rfl⟩ := hs
    exact fun n => rfl
  have hused : ∀ k n, used k t' n = used k t n := by
    obtain ⟨f, -, rfl⟩ := hs
    exact fun k n => rfl
  refine ⟨fun u n hu hn => ?_, fun v n hv hn k => ?_, fun r hr k hk => ?_⟩
  · rw [husage]; exact h.usage u n hu hn
  · exact (hle n hn k).trans (h.reserved v n hv hn k)
  · obtain ⟨row, hrow, hfit⟩ := h.inserted r hr k hk
    obtain ⟨_, req, e, -, rfl, hn, -⟩ := hb.inserted r hr
    have := hle _ hn k
    refine ⟨row, by rw [hnode]; exact hrow, ?_⟩
    rw [hused]
    simp [CreatePlacementReservationRequest.row] at hfit ⊢
    omega

theorem Begun.view (h : Begun now task x m) (hi : m.inserted = none) (t : Tables) :
    database.changed t x.changes = { t with placementReservations := seen x t } := by
  have hc := h.changes
  rw [hi, Option.toList_none, map_nil, append_nil] at hc
  rw [hc, changed_expired]
  rfl

theorem Begun.view_inserted (h : Begun now task x m) (hr : m.inserted = some r) (t : Tables) :
    database.changed t x.changes = { t with placementReservations := seen x t ++ [r] } := by
  rw [h.changes, Sql.changed_append, changed_expired, hr]
  rfl

theorem reservedIn_expireIf_append (ids ids' : List String) (hpos : ∀ r ∈ rows, 0 ≤ r.amount k) :
    reservedIn k now n (rows.map (expireIf (ids ++ ids'))) ≤ reservedIn k now n (rows.map (expireIf ids)) := by
  refine reservedIn_map_le fun r hr => share_le ?_ ?_ ?_ fun hh => ?_
  · rw [expireIf_amount]; exact hpos r hr
  · rw [expireIf_nodeID, expireIf_nodeID]
  · rw [expireIf_amount, expireIf_amount]
  · rw [holds_expireIf] at hh ⊢
    simp at hh ⊢
    exact ⟨hh.1, hh.2.1⟩

theorem Counted.exec {cs : List Change} (h : Counted t x m) (hb : Begun now (.create id req) x m)
    (hpos : Nonneg t) (hl : Learns id req ⟨x.start, database.changed t x.changes, others⟩ m q cs m') (ls : List RowLock) :
    Counted t ⟨x.start, x.changes ++ cs, ls⟩ m' := by
  have hkeep : Counted t ⟨x.start, x.changes ++ [], ls⟩ m := by
    rw [append_nil]
    exact ⟨h.usage, h.reserved, h.inserted⟩
  cases hl with
  | nothing => exact hkeep
  | expired hi =>
    refine ⟨h.usage, fun v n hv hn k => ?_, fun r hr => absurd (hi.symm.trans hr) nofun⟩
    refine le_trans ?_ (h.reserved v n hv hn k)
    simp [seen, expiredIn_append]
    exact reservedIn_expireIf_append _ _ fun r hr => hpos r hr k
  | node hm => subst hm; exact ⟨nofun, nofun, nofun⟩
  | server | migration => exact ⟨hkeep.usage, hkeep.reserved, hkeep.inserted⟩
  | usage hn hi hu =>
    rw [hb.view hi t] at hu
    refine ⟨fun u' n' hu' hn' => ?_, hkeep.reserved, hkeep.inserted⟩
    cases hu'
    cases hn.symm.trans hn'
    exact hu
  | reserved hn hi hv =>
    rw [hb.view hi t] at hv
    refine ⟨hkeep.usage, fun v' n' hv' hn' k => ?_, hkeep.inserted⟩
    cases hv'
    cases hn.symm.trans hn'
    rw [append_nil]
    exact (activeReservedCapacity_ok (t := { t with placementReservations := seen x t }) hv k).ge
  | inserted hadm =>
    obtain ⟨-, -, hn, -, -, u, v, hu, hv, hcheck⟩ := hadm
    refine ⟨h.usage, fun v n hv hn k => ?_, ?_⟩
    · simp [seen, expiredIn_new]
      exact h.reserved v n hv hn k
    · rintro _ ⟨⟩ k hk
      obtain ⟨row, hrow, htotal, hused⟩ := nodeUsage_ok (h.usage u _ hu hn)
      rw [row_amount] at hk
      have hfit := add_le_of_le_availableResource hk (checkCapacity_ok hcheck k hk)
      have hres := h.reserved v _ hv hn k
      refine ⟨row, hrow, ?_⟩
      rw [htotal, hused] at hfit
      rw [row_amount]
      simp [seen, expiredIn_new] at hres ⊢
      change used k t req.nodeID + reservedIn k x.start req.nodeID _ + _ ≤ _
      omega

def ReservationTask.nonnegative : ReservationTask → Bool
  | .create _ req => decide (0 ≤ req.cpu) && decide (0 ≤ req.memory) && decide (0 ≤ req.disk)
  | _ => true

theorem ReservationTask.amount_nonneg (h : (ReservationTask.create id req).nonnegative = true) (k : Resource) :
    0 ≤ req.amount k := by
  simp [ReservationTask.nonnegative] at h
  cases k with
  | cpu => exact h.1.1
  | memory => exact h.1.2
  | disk => exact h.2

abbrev ReservationState := Sql.State Stmt.Val ReservationTask Tables Change RowLock

def asksNonnegative (_ : ReservationState) : Label ReservationTask → Bool
  | .start t => t.nonnegative
  | _ => true

structure Within (now : Nat) (db : Tables) (t : ReservationTask) (tx : Option (Sql.Open Change RowLock)) (m : Know) : Prop where
  base : Base now t tx m
  nonneg : t.nonnegative = true
  counted : ∀ x, tx = some x → Counted db x m

def Fitting (F : Resource → String → Prop) (now : Nat) (db : Tables) (_ : List (ReservationTask × Know)) : Prop :=
  Nonneg db ∧ ∀ k n, F k n → Fits k now db n

section
variable {tx tx' : Option (Sql.Open Change RowLock)} {y z : Sql.Session Stmt.Val ReservationTask Change RowLock}
theorem Nonneg.settles (h : Nonneg t) (hadd : ∀ r ∈ added, ∀ k, 0 ≤ r.amount k) (hs : Settles added t t') : Nonneg t' := by
  obtain ⟨f, hf, rfl⟩ := hs
  intro r' hr' k
  obtain hr' | hr' := mem_append.mp hr'
  · obtain ⟨r, hr, rfl⟩ := mem_map.mp hr'
    rw [hf.amount]
    exact h r hr k
  · exact hadd r' hr' k

theorem Fits.settles (h : Fits k now t n) (hpos : Nonneg t)
    (hadd : ∀ r ∈ added, r.nodeID = n → r.amount k = 0) (hs : Settles added t t') : Fits k now t' n := by
  obtain ⟨row, hrow, hfit⟩ := h
  obtain ⟨f, hf, rfl⟩ := hs
  refine ⟨row, hrow, ?_⟩
  have hzero : reservedIn k now n added = 0 := by
    rw [reservedIn_eq]
    refine sum_eq_zero fun x hx => ?_
    obtain ⟨r, hr, rfl⟩ := mem_map.mp hx
    unfold share
    split
    · rename_i h
      exact hadd r hr (of_decide_eq_true (Bool.and_eq_true_iff.mp h).1)
    · rfl
  have hle : reservedIn k now n (t.placementReservations.map f) ≤ reservedIn k now n t.placementReservations := by
    rw [reservedIn_eq, reservedIn_eq, map_map]
    exact sum_le_sum fun r hr => share_le (hpos r hr k) hf.nodeID hf.amount hf.holds
  change used k t n + reservedIn k now n (t.placementReservations.map f ++ added) ≤ _
  rw [reservedIn_append, hzero]
  omega

theorem Counted.commit (h : Counted t x m) (hb : Begun now task x m) (hpos : Nonneg t) (hr : m.inserted = some r) : ∃ rows,
      (database.changed t x.changes).placementReservations = rows ++ [r] ∧
      ∀ k, 0 < r.amount k → ∃ row, (database.changed t x.changes).node r.nodeID = some row ∧
        used k (database.changed t x.changes) r.nodeID + reservedIn k now r.nodeID rows + r.amount k ≤ row.total k := by
  rw [hb.view_inserted hr]
  refine ⟨seen x t, rfl, fun k hk => ?_⟩
  obtain ⟨row, hrow, hfit⟩ := h.inserted r hr k hk
  refine ⟨row, hrow, ?_⟩
  have htick : reservedIn k now r.nodeID (seen x t) ≤ reservedIn k x.start r.nodeID (seen x t) := by
    refine reservedIn_tick (fun r' hr' => ?_) hb.start
    obtain ⟨r, hr, rfl⟩ := mem_map.mp hr'
    rw [expireIf_amount]
    exact hpos r hr k
  change used k t r.nodeID + _ + _ ≤ _
  omega

theorem Within.none (now : Nat) (db : Tables) (h : task.nonnegative = true) : Within now db task none {} :=
  ⟨Base.none now task, h, nofun⟩

theorem node_ne_of_apart {s : ReservationState}
    (h : database.Apart s) (hij : i ≠ j) (hy : s.sessions[i]? = some y) (hz : s.sessions[j]? = some z)
    (hn : ⟨.node n, .update⟩ ∈ y.held) (hn' : ⟨.node n', .update⟩ ∈ z.held) : n ≠ n' := by
  rintro rfl
  have := h i j y z hij hy hz _ hn _ hn'
  simp [database, RowLock.clash, Mode.clash] at this

variable {db db' : Tables} {c : Sql.Call Stmt} {o : Outcome} {r : Sql.Resp Stmt.Val c}
variable {gs gs' : List (ReservationTask × Know)}

variable (h : Within now db task tx m)
include h

theorem Within.counted_call (hpos : Nonneg db) (hadm : (reserving task).admits m c)
    (hans : database.answer now db others tx c o = some (r, db', tx')) :
    ∀ x, tx' = some x → Counted db' x ((reserving task).next m c r) := by
  cases c with
  | begin | commit | rollback => exact fun x _ => Counted.empty db' x
  | exec q =>
    obtain ⟨rfl, ⟨⟨e, rfl⟩, rfl⟩ | ⟨x, rfl, -, rfl, rfl⟩⟩ := Sql.answer_exec hans
    · rw [show (reserving task).next m (.exec q) (.error e) = m from Know.next_exec_error q e]
      exact h.counted
    · obtain ⟨id, req, rfl, hadm⟩ := hadm
      rintro _ ⟨⟩
      exact (h.counted x rfl).exec (h.base.begun x rfl) hpos (learns hadm) _
  | auto =>
    obtain hs | ⟨_, ⟨⟩, -⟩ := h.base.settles hadm hans
    obtain ⟨rfl, -⟩ := Sql.answer_auto hans
    exact fun x hx => (h.counted x hx).settles (h.base.begun x hx) hpos (by simp) hs

theorem Within.inserted_nonneg (hnew : m.inserted = some new) (k : Resource) : 0 ≤ new.amount k := by
  cases tx with
  | none =>
    rw [h.base.idle rfl] at hnew
    cases hnew
  | some x =>
    obtain ⟨id, req, e, rfl, rfl, -⟩ := (h.base.begun x rfl).inserted new hnew
    rw [row_amount]
    exact ReservationTask.amount_nonneg h.nonneg k

theorem Within.fitting_call (hI : Fitting F now db gs) (hadm : (reserving task).admits m c)
    (hans : database.answer now db others tx c o = some (r, db', tx')) : Fitting F now db' gs' := by
  obtain hs | ⟨new, rfl, hnew, hs⟩ := h.base.settles hadm hans
  · exact ⟨hI.1.settles (by simp) hs, fun k n hF => (hI.2 k n hF).settles hI.1 (by simp) hs⟩
  · have hpos := h.inserted_nonneg hnew
    refine ⟨hI.1.settles (by simpa using hpos) hs, fun k n hF => ?_⟩
    by_cases hn : new.nodeID = n ∧ 0 < new.amount k
    · obtain ⟨-, ⟨-, rfl⟩ | ⟨x, rfl, rfl⟩⟩ := Sql.answer_commit hans
      · exact hI.2 k n hF
      · -- the new row was counted when it was inserted
        obtain ⟨rows, hrows, hfit⟩ := (h.counted x rfl).commit (h.base.begun x rfl) hI.1 hnew
        obtain ⟨row, hrow, hle⟩ := hfit k hn.2
        obtain ⟨rfl, -⟩ := hn
        refine ⟨row, hrow, ?_⟩
        have : reservedIn k now new.nodeID [new] ≤ new.amount k := reservedIn_singleton_le (hpos k)
        rw [hrows, reservedIn_append]
        omega
    · refine (hI.2 k n hF).settles hI.1 (fun r hr hrn => ?_) hs
      rw [mem_singleton.mp hr] at hrn ⊢
      have := hpos k
      have : ¬ 0 < new.amount k := fun h => hn ⟨hrn, h⟩
      omega

omit h

theorem fitting_tracks (F : Resource → String → Prop) :
    Sql.Tracks database ReservationTask.program (fun s l => asksNonnegative s l = true) reserving (Fitting F) Within
      (fun _ _ _ _ => True) where
  start s t ha := ⟨wp_program t, Within.none _ _ ha⟩
  stop now db t tx m h := Within.none _ _ h.nonneg
  idle_pair _ _ _ := ⟨trivial, trivial⟩
  join _ _ _ _ h := h
  leave _ _ _ _ _ _ h _ := h
  tick now db gs d h := by
    refine ⟨h.1, fun k n hF => ?_⟩
    obtain ⟨row, hrow, hfit⟩ := h.2 k n hF
    have := reservedIn_tick (n := n) (fun r hr => h.1 r hr k) (Nat.le_add_right now d)
    exact ⟨row, hrow, by omega⟩
  tick_each now db t tx m d h :=
    ⟨⟨h.base.idle, fun x hx => (h.base.begun x hx).tick d⟩, h.nonneg, h.counted⟩
  call := by
    intro s g i o t c k tx m r db' tx' hapart hg hI _ hi hans hadm hw
    refine ⟨trivial, hw.fitting_call hI hadm hans,
      ⟨hw.base.call hadm hans, hw.nonneg, hw.counted_call hI.1 hadm hans⟩, ?_⟩
    intro j y m' hji hj
    obtain ⟨-, hy⟩ := hg.each j y m' hj
    refine ⟨⟨hy.base, hy.nonneg, fun x hx => ?_⟩, trivial, trivial⟩
    obtain hs | ⟨new, rfl, hnew, hs⟩ := hw.base.settles hadm hans
    · exact (hy.counted x hx).settles (hy.base.begun x hx) hI.1 (by simp) hs
    · refine (hy.counted x hx).settles (hy.base.begun x hx) hI.1 (fun n hn r hr => ?_) hs
      rw [mem_singleton.mp hr]
      -- both have locked the row of their node
      cases tx with
      | none =>
        rw [hw.base.idle rfl] at hnew
        cases hnew
      | some z =>
        obtain ⟨_, req, e, -, rfl, hnode, -⟩ := (hw.base.begun z rfl).inserted new hnew
        have hz := ((hw.base.begun z rfl).node _ hnode).1
        have hx' := ((hy.base.begun x hx).node n hn).1
        refine node_ne_of_apart hapart (Ne.symm hji) (hg.session hi) (hg.session hj) hz ?_
        rw [Sql.Session.held, hx]
        exact hx'

end

section
variable {s₀ s s' s'' : ReservationState} {ls ls' : List (Label ReservationTask)} {i : Nat} {o : Outcome} {k : Resource}

theorem Kept.begin (hs : s₀.sessions = []) (hpos : Nonneg s₀.db) (hF : ∀ k n, ¬ F k n) :
    Sql.Kept database reserving (Fitting F) Within (fun _ _ _ _ => True) s₀ :=
  Sql.Kept.init hs ⟨hpos, fun k n h => absurd h (hF k n)⟩

/-- Right after a creation the node has room for what its servers and its live reservations hold, in every
resource the request asked for, and it still has later on. -/
theorem createPlacementReservation_within_capacity (hs : s₀.sessions = []) (hpos : Nonneg s₀.db)
    (hrun : Run (database.next ReservationTask.program) (fun s l => asksNonnegative s l = true) s₀ ls s)
    (hsend : s.sends (.call i o) = some (.create id req, .commit)) (ho : o.isLost = false)
    (hn : database.next ReservationTask.program s (.call i o) = some s')
    (hrun' : Run (database.next ReservationTask.program) (fun s l => asksNonnegative s l = true) s' ls' s'')
    (hk : 0 < req.amount k) :
    (∃ rows e row, s'.db.placementReservations = rows ++ [req.row id e] ∧ s'.db.node req.nodeID = some row ∧
      used k s'.db req.nodeID + reservedIn k s'.now req.nodeID rows + req.amount k ≤ row.total k) ∧
    Fits k s''.now s''.db req.nodeID := by
  have hkept := (fitting_tracks fun _ _ => False).run (Kept.begin hs hpos fun _ _ => not_false) hrun
  have hkept' := (fitting_tracks fun _ _ => False).step hkept (l := .call i o) rfl hn
  obtain ⟨-, g, hg, hI⟩ := hkept
  obtain ⟨t, c, p, tx, r, db', tx', hi, hans, rfl⟩ := Sql.next_call hn
  obtain ⟨p', tx'', hi'⟩ := Sql.sends_call hsend
  cases hi.symm.trans hi'
  obtain ⟨m, hm⟩ := hg.getElem? hi
  obtain ⟨⟨hadm, -⟩, hw⟩ := hg.each i _ m hm
  obtain ⟨new, hnew⟩ := Option.isSome_iff_exists.mp hadm
  obtain ⟨x, rfl, rfl⟩ := Sql.answer_commit_effect hans ho
  obtain ⟨id', req', e, ht, rfl, -⟩ := (hw.base.begun x rfl).inserted new hnew
  cases ht
  obtain ⟨rows, hrows, hfit⟩ := (hw.counted x rfl).commit (hw.base.begun x rfl) hI.1 hnew
  obtain ⟨row, hrow, hle⟩ := hfit k (by rwa [row_amount])
  rw [row_amount, show (req.row id e).nodeID = req.nodeID from rfl] at hle
  refine ⟨⟨rows, e, row, hrows, hrow, hle⟩, ?_⟩
  -- from here on the node is one that fits
  obtain ⟨hapart, g', hg', hI'⟩ := hkept'
  have hfits : Fits k s.now (database.changed s.db x.changes) req.nodeID := by
    refine ⟨row, hrow, ?_⟩
    have : reservedIn k s.now req.nodeID [req.row id e] ≤ (req.row id e).amount k :=
      reservedIn_singleton_le (hw.inserted_nonneg hnew k)
    rw [row_amount] at this
    rw [hrows, reservedIn_append]
    omega
  obtain ⟨-, _, -, hlast⟩ := (fitting_tracks fun k' n => k' = k ∧ n = req.nodeID).run
    ⟨hapart, g', hg', hI'.1, by rintro _ _ ⟨rfl, rfl⟩; exact hfits⟩ hrun'
  exact hlast.2 k req.nodeID ⟨rfl, rfl⟩

end

end

/-! ## Runs on a node of four threads -/

def committing (i : Nat) (s : ReservationState) : Option (String × CreatePlacementReservationRequest) :=
  match s.sends (.call i .delivered) with
  | some (.create id req, .commit) => some (id, req)
  | _ => none

theorem committing_sends {s : ReservationState} {a : String × CreatePlacementReservationRequest}
    (h : committing i s = some a) : s.sends (.call i .delivered) = some (.create a.1 a.2, .commit) := by
  unfold committing at h
  split at h
  · rename_i hsend
    cases h
    exact hsend
  · cases h

def fourThreads : ReservationState where
  now := 0
  db := { nodes := [{ id := "n", baseURL := "", cpuThreads := 4 }] }

def wholeNode : CreatePlacementReservationRequest := { nodeID := "n", cpu := 4096, expiresAt := some 100 }

theorem createPlacementReservation_within_capacity_wholeNode :
    ∃ s s' : ReservationState, s.sends (.call 0 .delivered) = some (.create "r" wholeNode, .commit) ∧
      database.next ReservationTask.program s (.call 0 .delivered) = some s' ∧
      (∃ rows e row, s'.db.placementReservations = rows ++ [wholeNode.row "r" e] ∧ s'.db.node "n" = some row ∧
        used .cpu s'.db "n" + reservedIn .cpu s'.now "n" rows + 4096 ≤ row.total .cpu) ∧
      Fits .cpu s'.now s'.db "n" := by
  obtain ⟨s, hs, hsend, s', hn, -⟩ : ∃ s, Run (database.next ReservationTask.program) (fun s l => asksNonnegative s l = true)
      fourThreads (.start (.create "r" wholeNode) :: List.replicate 6 (.call 0 .delivered)) s ∧
      committing 0 s = some ("r", wholeNode) ∧
      ∃ s', database.next ReservationTask.program s (.call 0 .delivered) = some s' ∧ True := by decide +kernel
  have hsend := committing_sends hsend
  exact ⟨s, s', hsend, hn, createPlacementReservation_within_capacity rfl (by simp [Nonneg, fourThreads])
    hs hsend rfl hn (Run.nil s') (k := .cpu) (by decide)⟩

def negative : CreatePlacementReservationRequest := { nodeID := "n", cpu := -1024, expiresAt := some 5 }

def tooMuch : CreatePlacementReservationRequest := { nodeID := "n", cpu := 5120, expiresAt := some 100 }

theorem negative_reservation_overcommits :
    ∃ ls s s', Run (database.next ReservationTask.program) (fun _ _ => True) fourThreads ls s ∧
      s.sends (.call 1 .delivered) = some (.create "b" tooMuch, .commit) ∧
      database.next ReservationTask.program s (.call 1 .delivered) = some s' ∧
      0 < tooMuch.amount .cpu ∧ ¬ Fits .cpu s'.now s'.db "n" := by
  obtain ⟨s, hs, hsend, s', hn, hfits⟩ : ∃ s, Run (database.next ReservationTask.program) (fun _ _ => True) fourThreads
      (.start (.create "a" negative) :: List.replicate 8 (.call 0 .delivered) ++
        .start (.create "b" tooMuch) :: List.replicate 6 (.call 1 .delivered) ++ [.tick 5]) s ∧
      committing 1 s = some ("b", tooMuch) ∧
      ∃ s', database.next ReservationTask.program s (.call 1 .delivered) = some s' ∧ ¬ Fits .cpu s'.now s'.db "n" := by
    decide +kernel
  exact ⟨_, s, s', hs, committing_sends hsend, hn, by decide, hfits⟩

end ForgePlane.Postgres
