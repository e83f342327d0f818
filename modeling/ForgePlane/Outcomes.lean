import ForgePlane.Ghosts
import ForgePlane.Holds

/-!
# The outcome of a recovery

What an operation knows of the watched plan is true of the rows as long as no other
operation writes them meanwhile. Operations on one plan that take turns therefore never
write a row that has its outcome.
-/

namespace ForgePlane.Coordinator.Outcomes

open System List

def rowsOf (w : World) : List (String × String) := w.db.recoveryItems.map fun i => (i.id, i.planID)

variable {P planID : String} {c : Call}

section
variable {w w' : World}

variable {i j : RecoveryItem} {db : DB} {p : RecoveryItem → Bool} {status : RecoveryItemStatus}
variable {reason id : String} {m : Option Hold}

theorem mem_items : i ∈ w.items P ↔ i ∈ w.db.recoveryItems ∧ i.planID = P := by
  simp [World.items]

theorem items_eq (h : ((rowsOf w).map (·.1)).Nodup) (hi : i ∈ w.items P) (hj : j ∈ w.items P)
    (hid : i.id = j.id) : i = j := by
  rw [rowsOf, map_map] at h
  exact inj_on_of_nodup_map h (mem_items.mp hi).1 (mem_items.mp hj).1 hid

theorem items_setRecoveryItems_ne
    (h : ∀ i ∈ w.db.recoveryItems, p i = true → i.planID ≠ P) (hdb : db.recoveryItems = w.db.recoveryItems) :
    ({ w with db := db.setRecoveryItems p status reason } : World).items P = w.items P := by
  simp [World.items, DB.setRecoveryItems, hdb, updateWhere, filter_map]
  have hfilter : w.db.recoveryItems.filter ((fun i => decide (i.planID = P)) ∘ fun v => if p v = true then
      { v with status := status, reason := if reason = "" then v.reason else reason } else v) =
      w.db.recoveryItems.filter fun i => decide (i.planID = P) := by
    refine filter_congr fun i _ => ?_
    simp [Function.comp]
    split <;> rfl
  rw [hfilter]
  refine (map_congr_left fun i hi => if_neg fun hp => ?_).trans (map_id _)
  obtain ⟨hi, hplan⟩ := mem_filter.mp hi
  exact h i hi hp (by simpa using hplan)

theorem mem_items_setRecoveryItems
    (hi : i ∈ w.items P) (hp : p i = false) (hdb : db.recoveryItems = w.db.recoveryItems) :
    i ∈ ({ w with db := db.setRecoveryItems p status reason } : World).items P := by
  obtain ⟨hi, hplan⟩ := mem_items.mp hi
  refine mem_items.mpr ⟨mem_updateWhere.mpr ⟨i, hdb ▸ hi, ?_⟩, hplan⟩
  rw [hp]
  rfl

theorem mem_items_of_setRecoveryItems
    (hi : i ∈ ({ w with db := db.setRecoveryItems p status reason } : World).items P)
    (hdb : db.recoveryItems = w.db.recoveryItems) :
    i ∈ w.items P ∨ ∃ j ∈ w.items P, p j = true ∧ i.id = j.id ∧ i.status = status := by
  obtain ⟨hi, hplan⟩ := mem_items.mp hi
  obtain ⟨j, hj, rfl⟩ := mem_updateWhere.mp hi
  rw [hdb] at hj
  by_cases hp : p j = true
  · rw [if_pos hp] at hplan ⊢
    exact .inr ⟨j, mem_items.mpr ⟨hj, hplan⟩, hp, rfl, rfl⟩
  · rw [if_neg hp] at hplan ⊢
    exact .inl (mem_items.mpr ⟨hj, hplan⟩)

theorem rowsOf_handle (w : World) (c : Call) : rowsOf (w.handle c).2 = rowsOf w := by
  have set : ∀ (db : DB) (p : RecoveryItem → Bool) status reason, db.recoveryItems = w.db.recoveryItems →
      rowsOf { w with db := db.setRecoveryItems p status reason } = rowsOf w := by
    intro db p status reason hdb
    rw [rowsOf, rowsOf, ← hdb]
    exact map_key_updateWhere p _ fun _ => rfl
  cases c with
  | startPlan planID =>
    obtain ⟨e, he⟩ | ⟨plan, -, -, hok⟩ := World.startPlan_cases w.db planID
    · simp [World.handle, he]
    · simp [World.handle, hok]
      exact set (w.db.updateRecoveryPlanStatus planID .executing "executing recovery migrations") _ _ _ rfl
  | setItem | setItems => exact set w.db _ _ _ rfl
  | setReservation =>
    simp [World.handle, DB.updatePlacementReservationStatus]
    split <;> rfl
  | _ => rfl

def Same (P : String) (w w' : World) : Prop := w'.planStatus P = w.planStatus P ∧ w'.items P = w.items P

theorem same_setReservation (w : World) (id : String) (status : ReservationStatus) :
    Same P w (w.handle (.setReservation id status)).2 := by
  simp [World.handle, DB.updatePlacementReservationStatus]
  split <;> exact ⟨rfl, rfl⟩

variable (hne : planID ≠ P)
include hne

theorem same_startPlan (w : World) : Same P w (w.handle (.startPlan planID)).2 := by
  obtain ⟨e, he⟩ | ⟨plan, -, -, hok⟩ := World.startPlan_cases w.db planID
  · simp [World.handle, he]
    exact ⟨rfl, rfl⟩
  · simp [World.handle, hok]
    refine ⟨?_, items_setRecoveryItems_ne (fun i _ hp => ?_) rfl⟩
    · exact (planStatus_setPlan w planID P .executing _).trans (if_neg hne.symm)
    · simp at hp
      exact hp.1 ▸ hne

theorem same_setPlan {status : RecoveryPlanStatus} (w : World) :
    Same P w (w.handle (.setPlan planID status reason)).2 :=
  ⟨(planStatus_setPlan w planID P status reason).trans (if_neg hne.symm), rfl⟩

theorem same_setItems (w : World) :
    Same P w (w.handle (.setItems planID status reason)).2 := by
  refine ⟨rfl, items_setRecoveryItems_ne (fun i _ hp => ?_) rfl⟩
  simp at hp
  exact hp.1 ▸ hne

omit hne

theorem same_setItem (hne : (id, P) ∉ rowsOf w) :
    Same P w (w.handle (.setItem id status reason)).2 := by
  refine ⟨rfl, items_setRecoveryItems_ne (fun i hi hp hplan => hne ?_) rfl⟩
  simp at hp
  exact mem_map.mpr ⟨i, hi, by rw [hp, hplan]⟩

theorem same_of_none (h : (holds P (rowsOf w)).admits none c) : Same P w (w.handle c).2 := by
  cases c with
  | startPlan => exact same_startPlan (fun hP => by simpa using h hP) w
  | setPlan =>
    exact same_setPlan (fun hP => by obtain ⟨_, h, -⟩ := h hP; cases h) w
  | setItem => exact same_setItem fun hP => by obtain ⟨_, h, -⟩ := h hP; cases h
  | setItems => exact same_setItems (fun hP => by simpa using h hP) w
  | setReservation id status => exact same_setReservation w id status
  | _ => exact ⟨rfl, rfl⟩

def Hold.Sound (P : String) (w : World) (h : Hold) : Prop :=
  (h.plan = true → ∀ status, w.planStatus P = some status → isOutcome status = false) ∧
    ∀ i ∈ w.items P, i.id ∈ h.items → isItemOutcome i.status = false

def Sound (P : String) (w : World) (m : Option Hold) : Prop := ∀ h, m = some h → h.Sound P w

theorem sound_none (w : World) : Sound P w none := nofun

theorem Sound.same (h : Sound P w m) (hsame : Same P w w') : Sound P w' m := by
  intro x hx
  obtain ⟨hplan, hitems⟩ := h x hx
  exact ⟨fun hp => hsame.1 ▸ hplan hp, hsame.2 ▸ hitems⟩

theorem Sound.map {f : Hold → Hold} (h : ∀ x, m = some x → (f x).Sound P w) : Sound P w (m.map f) := by
  intro y hy
  obtain ⟨x, hx, rfl⟩ := Option.map_eq_some_iff.mp hy
  exact h x hx

theorem startPlan_open (w : World) (planID : String) :
    (∀ status, (w.handle (.startPlan planID)).2.planStatus P = some status → isOutcome status = true →
      w.planStatus P = some status) ∧
    ∀ i ∈ (w.handle (.startPlan planID)).2.items P, i ∈ w.items P ∨ isItemOutcome i.status = false := by
  obtain ⟨e, he⟩ | ⟨plan, -, -, hok⟩ := World.startPlan_cases w.db planID
  · simp [World.handle, he]
    exact ⟨fun _ h _ => h, fun _ h => .inl h⟩
  · simp [World.handle, hok]
    refine ⟨fun status hs ho => ?_, fun i hi => ?_⟩
    · have hs := (planStatus_setPlan w planID P .executing _).symm.trans hs
      split at hs
      · obtain ⟨_, _, rfl⟩ := Option.map_eq_some_iff.mp hs
        cases ho
      · exact hs
    · obtain hi | ⟨j, -, -, -, hst⟩ := mem_items_of_setRecoveryItems hi rfl
      · exact .inl hi
      · exact .inr (by rw [hst]; rfl)

theorem Sound.startPlan (h : Sound P w m) (planID : String) :
    Sound P (w.handle (.startPlan planID)).2 m := by
  intro x hx
  obtain ⟨hplan, hitems⟩ := h x hx
  obtain ⟨hstatus, hrows⟩ := startPlan_open (P := P) w planID
  refine ⟨fun hp status hs => ?_, fun i hi hid => ?_⟩
  · by_contra ho
    have ho : isOutcome status = true := by simpa using ho
    exact Bool.false_ne_true ((hplan hp status (hstatus status hs ho)).symm.trans ho)
  · obtain hi | ho := hrows i hi
    · exact hitems i hi hid
    · exact ho

theorem started_open {status : RecoveryPlanStatus} (hok : (World.startPlan w.db P).1 = .ok ())
    (h : (w.handle (.startPlan P)).2.planStatus P = some status) : isOutcome status = false := by
  obtain ⟨e, he⟩ | ⟨plan, -, -, hstarted⟩ := World.startPlan_cases w.db P
  · rw [he] at hok
    cases hok
  · simp [World.handle, hstarted] at h
    have h := (planStatus_setPlan w P P .executing _).symm.trans h
    rw [if_pos rfl] at h
    obtain ⟨_, _, rfl⟩ := Option.map_eq_some_iff.mp h
    rfl

theorem Sound.setItem
    (h : Sound P w m) (hw : w' = w ∨ w' = (w.handle (.setItem id status reason)).2) :
    Sound P w' (m.map fun h => { h with items := h.items.filter fun x => x ≠ id }) := by
  refine Sound.map fun x hx => ?_
  obtain ⟨hplan, hitems⟩ := h x hx
  obtain rfl | rfl := hw
  · exact ⟨hplan, fun i hi hid => hitems i hi (mem_filter.mp hid).1⟩
  · refine ⟨hplan, fun i hi hid => ?_⟩
    obtain ⟨hid, hne⟩ := mem_filter.mp hid
    obtain hi | ⟨j, -, hj, hij, -⟩ := mem_items_of_setRecoveryItems hi rfl
    · exact hitems i hi hid
    · simp at hj hne
      exact absurd (hij.trans hj) hne

section
variable (executor : Bool) {o : Outcome} {r : Resp c} {m : Option Hold}
theorem holds_expects (hrows : ((rowsOf w).map (·.1)).Nodup) (hr : (panels executor).answer w c o = some (r, w')) :
    (holds P (rowsOf w)).expects m c r := by
  obtain hr | ⟨e, hf⟩ := answer_told hr
  · cases c with
    | planRow planID =>
      cases hr
      cases hrow : rowAt (·.id) w.db.recoveryPlans planID with
      | none => trivial
      | some => exact rowAt_key hrow
    | planItems =>
      cases hr
      rw [rowsOf, map_map] at hrows
      refine ⟨hrows.sublist (filter_sublist.map _), fun i hi => ?_⟩
      obtain ⟨hi, hplan⟩ := mem_items.mp hi
      exact ⟨hplan, mem_map.mpr ⟨i, hi, by rw [hplan]⟩⟩
    | _ => trivial
  · cases c with
    | planRow | planItems => cases hf; trivial
    | _ => trivial

theorem Sound.call_startPlan {r : Except Err Unit} (h : Sound P w m)
    (hr : (panels executor).answer w (.startPlan planID) o = some (r, w')) :
    Sound P w' ((holds P (rowsOf w)).next m (.startPlan planID) r) := by
  have hkept : Sound P w' m := by
    obtain rfl | rfl := answer_world hr
    · exact h
    · exact h.startPlan planID
  obtain hr | ⟨e, hf⟩ := answer_told hr
  · cases hok : (World.startPlan w.db planID).1 with
    | error =>
      obtain ⟨rfl, -⟩ := Prod.mk.inj hr
      simp [hok]
      exact hkept
    | ok =>
      obtain ⟨rfl, rfl⟩ := Prod.mk.inj hr
      simp [hok, holds]
      split
      · subst planID
        refine Sound.map fun x hx => ⟨fun _ status hs => started_open hok hs, (hkept x hx).2⟩
      · exact hkept
  · cases hf
    exact hkept

theorem Sound.call_planRow {r : Except Err RecoveryPlanRow} (h : Sound P w m)
    (hr : (panels executor).answer w (.planRow planID) o = some (r, w')) :
    Sound P w' ((holds P (rowsOf w)).next m (.planRow planID) r) := by
  obtain rfl : w = w' := by obtain hw | hw := answer_world hr <;> exact hw.symm
  obtain hr | ⟨e, hf⟩ := answer_told hr
  · cases hr
    cases hrow : rowAt (·.id) w.db.recoveryPlans planID with
    | none => exact h
    | some =>
      simp [holds, orNoRows]
      split
      · rename_i hP
        obtain ⟨rfl, hopen⟩ := hP
        refine Sound.map fun x hx => ⟨fun _ status hs => ?_, (h x hx).2⟩
        simp [World.planStatus, hrow] at hs
        exact hs ▸ hopen
      · exact h
  · cases hf
    exact h

theorem Sound.call_planItems {r : Except Err (List RecoveryItem)} (hrows : ((rowsOf w).map (·.1)).Nodup) (h : Sound P w m)
    (hr : (panels executor).answer w (.planItems planID) o = some (r, w')) :
    Sound P w' ((holds P (rowsOf w)).next m (.planItems planID) r) := by
  obtain rfl : w = w' := by obtain hw | hw := answer_world hr <;> exact hw.symm
  obtain hr | ⟨e, hf⟩ := answer_told hr
  · cases hr
    simp [holds]
    split
    · subst planID
      refine Sound.map fun x hx => ⟨(h x hx).1, fun i hi hid => ?_⟩
      obtain hid | hid := mem_append.mp hid
      · exact (h x hx).2 i hi hid
      · -- the row that was seen open is this one
        obtain ⟨j, hj, hji⟩ := mem_map.mp hid
        obtain ⟨hj, hopen⟩ := mem_filter.mp hj
        rw [items_eq hrows hi hj hji.symm]
        simpa using hopen
    · exact h
  · cases hf
    exact h

theorem Sound.call (hrows : ((rowsOf w).map (·.1)).Nodup) (h : Sound P w m)
    (hr : (panels executor).answer w c o = some (r, w')) : Sound P w' ((holds P (rowsOf w)).next m c r) := by
  have hw := answer_world hr
  cases c with
  | startPlan => exact h.call_startPlan executor hr
  | planRow => exact h.call_planRow executor hr
  | planItems => exact h.call_planItems executor hrows hr
  | setItem => exact h.setItem hw
  | setPlan =>
    simp [holds]
    split
    · refine Sound.map fun x hx => ⟨(by simp), ?_⟩
      obtain rfl | rfl := hw <;> exact (h x hx).2
    · rename_i hne
      obtain rfl | rfl := hw
      · exact h
      · exact h.same (same_setPlan hne w)
  | setItems =>
    simp [holds]
    split
    · refine Sound.map fun x hx => ⟨?_, (by simp)⟩
      obtain rfl | rfl := hw <;> exact (h x hx).1
    · rename_i hne
      obtain rfl | rfl := hw
      · exact h
      · exact h.same (same_setItems hne w)
  | setReservation id status =>
    obtain rfl | rfl := hw
    · exact h
    · exact h.same (same_setReservation w id status)
  | _ =>
    obtain rfl | rfl := hw
    · exact h
    · exact h.same ⟨rfl, rfl⟩

def Settled (P : String) (w w' : World) : Prop :=
  (∀ status, w.planStatus P = some status → isOutcome status = true → w'.planStatus P = some status) ∧
    ∀ i ∈ w.items P, isItemOutcome i.status = true → i ∈ w'.items P

theorem Settled.refl (P : String) (w : World) : Settled P w w := ⟨fun _ h _ => h, fun _ h _ => h⟩

theorem not_open (h : isItemOutcome status = true) :
    status ≠ .pending ∧ status ≠ .planned ∧ status ≠ .executing := by
  revert h
  cases status <;> decide

theorem outcome_kept (h : Sound P w m) (hadmits : (holds P (rowsOf w)).admits m c) : Settled P w (w.handle c).2 := by
  cases c with
  | startPlan planID =>
    obtain ⟨e, he⟩ | ⟨plan, hplan, hopen, hok⟩ := World.startPlan_cases w.db planID
    · simp [World.handle, he]
      exact .refl P w
    · simp [World.handle, hok]
      refine ⟨fun status hs ho => ?_, fun i hi ho => ?_⟩
      · refine (planStatus_setPlan w planID P .executing _).trans ?_
        split
        · subst planID
          simp [World.planStatus, hplan] at hs
          rw [← hs] at ho
          obtain h | h := hopen <;> rw [h] at ho <;> cases ho
        · exact hs
      · refine mem_items_setRecoveryItems hi ?_ rfl
        simp [not_open ho]
  | setPlan planID status reason =>
    refine ⟨fun old hs ho => ?_, fun i hi _ => hi⟩
    refine (planStatus_setPlan w planID P status reason).trans ?_
    split
    · rename_i hP
      obtain ⟨x, hx, hplan⟩ := hadmits hP.symm
      exact absurd (((h x hx).1 hplan old hs).symm.trans ho) Bool.false_ne_true
    · exact hs
  | setItem id =>
    refine ⟨fun _ hs _ => hs, fun i hi ho => mem_items_setRecoveryItems hi (decide_eq_false fun hid => ?_) rfl⟩
    have hrow : (id, P) ∈ rowsOf w :=
      mem_map.mpr ⟨i, (mem_items.mp hi).1, by rw [hid, (mem_items.mp hi).2]⟩
    obtain ⟨x, hx, hmem⟩ := hadmits hrow
    exact Bool.false_ne_true (((h x hx).2 i hi (hid ▸ hmem)).symm.trans ho)
  | setItems =>
    refine ⟨fun _ hs _ => hs, fun i hi ho => mem_items_setRecoveryItems hi ?_ rfl⟩
    simp [not_open ho]
  | setReservation id status =>
    obtain ⟨hplan, hitems⟩ := same_setReservation (P := P) w id status
    exact ⟨fun _ hs _ => hplan ▸ hs, fun i hi _ => hitems ▸ hi⟩
  | _ => exact .refl P w

end

end

/-! ## One operation on a plan at a time -/

inductive Scope where
  | none
  | one (planID : String)
  | all
  deriving DecidableEq

def Scope.has : Scope → String → Bool
  | .none, _ => false
  | .one p, planID => p = planID
  | .all, _ => true

def Scope.meets : Scope → Scope → Bool
  | .none, _ => false
  | _, .none => false
  | .one p, .one q => p = q
  | _, _ => true

theorem Scope.not_both {a b : Scope} (h : a.meets b = false) (ha : a.has planID = true) : b.has planID = false := by
  cases a with
  | none => cases ha
  | all => cases b <;> first | rfl | cases h
  | one p =>
    cases b with
    | none => rfl
    | all => cases h
    | one q =>
      obtain rfl : p = planID := by simpa [Scope.has] using ha
      have hne : p ≠ q := by simpa [Scope.meets] using h
      simp [Scope.has, hne.symm]

theorem Scope.meets_comm (a b : Scope) : a.meets b = b.meets a := by
  cases a <;> cases b <;> simp [Scope.meets, eq_comm]

def scope : Task → Scope
  | .execute planID => .one planID
  | .reconcile planID => .one planID
  | .cancel planID => .one planID
  | .failPlan planID _ => .one planID
  | .failItem item _ => .one item.planID
  | .getPlan planID => .one planID
  | .listPlans => .all
  | .migrate .. => .none

def unfinished (x : Task × Action Unit) : Bool :=
  match x.2 with
  | .call .. => true
  | .ret _ => false

def planIsOpen (w : World) (planID : String) : Bool := (w.planStatus planID).all fun status => !isOutcome status

/-- What an operation asks of the rows when it starts: a plan is not cancelled or failed, and an
item of it not failed, that has its outcome. -/
def mayStart (w : World) : Task → Bool
  | .cancel planID => planIsOpen w planID
  | .failPlan planID _ => planIsOpen w planID
  | .failItem item _ => planIsOpen w item.planID &&
      w.db.recoveryItems.all fun i => i.id ≠ item.id || (i.planID = item.planID && !isItemOutcome i.status)
  | _ => true

def orderly (s : Config Resp Task World) : Label Task → Bool
  | .start t => mayStart s.world t && s.threads.all fun x => !unfinished x || !(scope t).meets (scope x.1)
  | _ => true

def Exclusive (s : Config Resp Task World) : Prop :=
  ∀ (i j : Nat) x y, i ≠ j → s.threads[i]? = some x → s.threads[j]? = some y → unfinished x = true → unfinished y = true →
    (scope x.1).meets (scope y.1) = false

section
variable (executor : Bool) {s s' : Config Resp Task World}

variable {t : Task} {l : Label Task} {rows : List (String × String)} {p p' : Action Unit}

theorem Exclusive.set (h : Exclusive s) {w : World} {i : Nat}
    (hi : s.threads[i]? = some (t, p)) (hp : unfinished (t, p') = true → unfinished (t, p) = true) :
    Exclusive ⟨w, s.threads.set i (t, p')⟩ := by
  have old : ∀ (k : Nat) x, (s.threads.set i (t, p'))[k]? = some x → unfinished x = true →
      ∃ y, s.threads[k]? = some y ∧ y.1 = x.1 ∧ unfinished y = true := by
    intro k x hk hx
    obtain ⟨rfl, rfl⟩ | ⟨-, hk⟩ := set_cases hk
    · exact ⟨_, hi, rfl, hp hx⟩
    · exact ⟨x, hk, rfl, hx⟩
  intro a b x y hab ha hb hx hy
  obtain ⟨x', ha', hx', hxu⟩ := old a x ha hx
  obtain ⟨y', hb', hy', hyu⟩ := old b y hb hy
  rw [← hx', ← hy']
  exact h a b x' y' hab ha' hb' hxu hyu

theorem Exclusive.start (h : Exclusive s) (ha : orderly s (.start t) = true) (p : Action Unit) :
    Exclusive ⟨s.world, s.threads ++ [(t, p)]⟩ := by
  simp only [orderly, Bool.and_eq_true, all_eq_true] at ha
  -- the new operation meets no unfinished one
  have hnew : ∀ x ∈ s.threads, unfinished x = true → (scope t).meets (scope x.1) = false := by
    intro x hx hu
    simpa [hu] using ha.2 x hx
  intro a b x y hab ha' hb'
  refine pair_snoc (R := fun x y => unfinished x = true → unfinished y = true → (scope x.1).meets (scope y.1) = false) h
    (fun x hx => ⟨fun _ => hnew x hx, fun hu _ => ?_⟩) hab ha' hb'
  rw [Scope.meets_comm]
  exact hnew x hx hu

theorem exclusive_step (h : Exclusive s) (ha : orderly s l = true)
    (hn : (panels executor).next s l = some s') : Exclusive s' := by
  cases l with
  | start =>
    cases hn
    exact h.start ha _
  | tick =>
    cases hn
    exact h
  | crash =>
    obtain ⟨t, p, hi, rfl⟩ := next_crash hn
    exact h.set hi nofun
  | call =>
    obtain ⟨t, c, k, r, w, hi, -, rfl⟩ := next_call hn
    exact h.set hi fun _ => rfl

def firstHold : Task → Hold
  | .cancel _ => { plan := true }
  | .failPlan .. => { plan := true }
  | .failItem item _ => { plan := true, items := [item.id] }
  | _ => {}

variable {w : World}

theorem planIsOpen_sound (h : planIsOpen w P = true) {status : RecoveryPlanStatus} (hs : w.planStatus P = some status) :
    isOutcome status = false := by
  rw [planIsOpen, hs] at h
  simpa using h

theorem firstHold_sound (h : mayStart w t = true) (hP : (scope t).has P = true) : (firstHold t).Sound P w := by
  cases t with
  | cancel planID =>
    obtain rfl : planID = P := by simpa [scope, Scope.has] using hP
    exact ⟨fun _ _ hs => planIsOpen_sound h hs, nofun⟩
  | failPlan planID =>
    obtain rfl : planID = P := by simpa [scope, Scope.has] using hP
    exact ⟨fun _ _ hs => planIsOpen_sound h hs, nofun⟩
  | failItem item =>
    obtain rfl : item.planID = P := by simpa [scope, Scope.has] using hP
    simp [mayStart] at h
    refine ⟨fun _ _ hs => planIsOpen_sound h.1 hs, fun i hi hid => ?_⟩
    have := h.2 i (mem_items.mp hi).1
    simpa [mem_singleton.mp hid, (mem_items.mp hi).2] using this
  | _ => exact ⟨nofun, nofun⟩

def holdOf (P : String) (t : Task) : Option Hold := if (scope t).has P then some (firstHold t) else none

theorem wp_program (hrows : ((rowsOf w).map (·.1)).Nodup) (h : mayStart w t = true) :
    wp (holds P (rowsOf w)) (t.program executor) (fun _ _ => True) (holdOf P t) := by
  have drop : ∀ {α : Type} (p : Action α), wp (holds P (rowsOf w)) p (fun _ _ => True) (holdOf P t) →
      wp (holds P (rowsOf w)) (ignore p) (fun _ _ => True) (holdOf P t) :=
    fun p hp => wp_then hp fun _ _ _ => trivial
  have hmine : ∀ planID, scope t = .one planID → Mine P (holdOf P t) planID := by
    intro planID hscope hP
    simp [holdOf, hscope, Scope.has, hP]
  have hopen : ∀ planID, scope t = .one planID → (firstHold t).plan = true → PlanOpen P (holdOf P t) planID := by
    intro planID hscope hplan hP
    exact ⟨firstHold t, by simp [holdOf, hscope, Scope.has, hP], hplan⟩
  cases t with
  | execute planID => exact drop _ (wp_executePlan hrows (hmine planID rfl))
  | reconcile planID => exact drop _ (wp_reconcilePlan executor hrows (hmine planID rfl))
  | cancel planID => exact drop _ (wp_cancelPlan executor hrows (hopen planID rfl rfl))
  | failPlan planID => exact drop _ (wp_failPlan hrows (hopen planID rfl rfl))
  | failItem item cause =>
    refine drop _ (wp_failRecoveryItem hrows (hopen item.planID rfl rfl) fun hrow => ?_)
    -- the row of the item is in the plan the item names
    obtain ⟨i, hi, hid⟩ := mem_map.mp hrow
    simp [mayStart] at h
    have hplan := h.2 i hi
    obtain ⟨hid, hP⟩ := Prod.mk.inj hid
    simp [hid] at hplan
    exact ⟨firstHold (.failItem item cause), by simp [holdOf, scope, Scope.has, ← hplan.1, hP], mem_singleton_self _⟩
  | getPlan planID => exact drop _ (wp_getPlan executor hrows (hmine planID rfl))
  | listPlans => exact drop _ (wp_listPlans executor hrows rfl)
  | migrate => exact ⟨trivial, fun _ _ => trivial⟩

def Holding (P : String) (rows : List (String × String)) (w : World) (t : Task) (p : Action Unit) : Prop :=
  ∃ m, wp (holds P rows) p (fun _ _ => True) m ∧ Sound P w m ∧ (m.isSome = true → (scope t).has P = true)

theorem holding_inv (hrows : (rows.map (·.1)).Nodup) :
    ThreadInv (panels executor) (fun s l => Exclusive s ∧ orderly s l = true) (fun w => rowsOf w = rows) (Holding P rows) where
  start s t hw ha := by
    have hmay : mayStart s.world t = true := by
      have := ha.2
      simp [orderly] at this
      exact this.1
    subst hw
    refine ⟨holdOf P t, wp_program executor hrows hmay, ?_, ?_⟩
    · intro h hh
      simp only [holdOf] at hh
      split at hh
      · rename_i hP
        cases hh
        exact firstHold_sound hmay hP
      · cases hh
    · intro hm
      simp only [holdOf] at hm
      split at hm
      · assumption
      · cases hm
  stop w t _ := ⟨none, trivial, sound_none w, nofun⟩
  tick w d hw := ⟨hw, fun _ _ h => h⟩
  call s i o t c k r w hw hJ ha hi hr := by
    subst hw
    obtain ⟨m, hm, hsound, hmine⟩ := mem_at hJ hi
    have hrows' : rowsOf w = rowsOf s.world := by
      obtain rfl | rfl := answer_world hr
      · rfl
      · exact rowsOf_handle s.world c
    refine ⟨hrows', ⟨_, hm.2 r (holds_expects executor hrows hr), hsound.call executor hrows hr, fun h => ?_⟩,
      fun j t' p hj hp => ?_⟩
    · exact hmine ((next_isSome m c r).symm.trans h)
    · obtain ⟨m', hm', hsound', hmine'⟩ := mem_at hJ hp
      cases p with
      | ret => exact ⟨none, trivial, sound_none w, nofun⟩
      | call =>
        refine ⟨m', hm', ?_, hmine'⟩
        cases m' with
        | none => exact sound_none w
        | some =>
          -- the other operation works on the watched plan, so this one does not
          have hother : (scope t).has P = false :=
            Scope.not_both (ha.1 j i _ _ hj hp hi rfl rfl) (hmine' rfl)
          cases m with
          | some => exact absurd (hmine rfl) (by simp [hother])
          | none =>
            obtain rfl | rfl := answer_world hr
            · exact hsound'
            · exact hsound'.same (same_of_none hm.1)

theorem outcome_step
    (hs : rowsOf s.world = rows ∧ ∀ x ∈ s.threads, Holding P rows s.world x.1 x.2)
    (hn : (panels executor).next s l = some s') : Settled P s.world s'.world := by
  obtain ⟨rfl, hJ⟩ := hs
  obtain hw | ⟨d, hw⟩ | ⟨t, c, hsends, hw⟩ := next_world hn
  · rw [hw]
    exact .refl P _
  · rw [hw]
    exact .refl P _
  · obtain ⟨k, hk⟩ := Config.sends_mem hsends
    obtain ⟨m, hm, hsound, -⟩ := hJ _ hk
    rw [hw]
    exact outcome_kept hsound hm.1

theorem outcome_run (hrows : (rows.map (·.1)).Nodup) {ls : List (Label Task)}
    (hs : rowsOf s.world = rows ∧ ∀ x ∈ s.threads, Holding P rows s.world x.1 x.2)
    (hr : Run (panels executor).next (fun s l => Exclusive s ∧ orderly s l = true) s ls s') : Settled P s.world s'.world := by
  induction ls generalizing s with
  | nil =>
    obtain rfl : s = s' := hr
    exact .refl P _
  | cons l ls ih =>
    obtain ⟨ha, n, hn, hr⟩ := hr
    obtain ⟨hplan, hitems⟩ := outcome_step executor hs hn
    obtain ⟨hplan', hitems'⟩ := ih ((holding_inv executor hrows).step hs ha hn) hr
    exact ⟨fun status hst ho => hplan' status (hplan status hst ho) ho, fun i hi ho => hitems' i (hitems i hi ho) ho⟩

end

end ForgePlane.Coordinator.Outcomes

namespace ForgePlane.Coordinator

open Outcomes List

def World.itemStatus (w : World) (id : String) : Option RecoveryItemStatus :=
  (rowAt (·.id) w.db.recoveryItems id).map (·.status)

/-- As long as operations on one plan do not overlap, and none cancels or fails what has its outcome, every outcome
stays. -/
theorem outcomes_are_final {executor : Bool} {db : DB} {ls ls' : List (Label Task)} {s s' : Config Resp Task World}
    (hids : (db.recoveryItems.map (·.id)).Nodup)
    (hr : Run (panels executor).next (fun s l => orderly s l = true) ⟨{ db := db }, []⟩ ls s)
    (hr' : Run (panels executor).next (fun s l => orderly s l = true) s ls' s') :
    (∀ planID status, s.world.planStatus planID = some status → isOutcome status = true →
      s'.world.planStatus planID = some status) ∧
    ∀ id status, s.world.itemStatus id = some status → isItemOutcome status = true →
      s'.world.itemStatus id = some status := by
  have hrows : ((rowsOf { db := db }).map (·.1)).Nodup := by
    rw [rowsOf, map_map]
    exact hids
  have hexcl : Exclusive ⟨{ db := db }, []⟩ := fun _ _ _ _ _ h => by simp at h
  have hstep : ∀ s l s', Exclusive s → orderly s l = true → (panels executor).next s l = some s' → Exclusive s' :=
    fun _ _ _ h ha hn => exclusive_step executor h ha hn
  have hs : ∀ P, rowsOf s.world = rowsOf { db := db } ∧ ∀ x ∈ s.threads, Holding P (rowsOf { db := db }) s.world x.1 x.2 :=
    fun P => (holding_inv executor hrows).run ⟨rfl, fun _ h => absurd h not_mem_nil⟩ (hr.with_invariant hstep hexcl)
  have hr' := hr'.with_invariant hstep (Run.invariant hstep hexcl hr)
  refine ⟨fun planID => (outcome_run executor hrows (hs planID) hr').1, fun id status hst ho => ?_⟩
  obtain ⟨i, hi, rfl⟩ := Option.map_eq_some_iff.mp hst
  have hmem := (outcome_run executor hrows (hs i.planID) hr').2 i (mem_items.mpr ⟨rowAt_mem hi, rfl⟩) ho
  -- the row is still there, and it is the only one with its id
  have hids' : (s'.world.db.recoveryItems.map (·.id)).Nodup := by
    have h := ((holding_inv executor hrows).run (hs i.planID) hr').1 ▸ hrows
    rwa [rowsOf, map_map] at h
  obtain rfl : i.id = id := rowAt_key hi
  rw [World.itemStatus, rowAt_of_mem hids' (mem_items.mp hmem).1]
  rfl

theorem outcomes_are_final_restored : ∃ s s' : Config Resp Task World,
    s.world.planStatus "p" = some .restored ∧ s.world.itemStatus "a" = some .restored ∧
    s'.world.planStatus "p" = some .restored ∧ s'.world.itemStatus "a" = some .restored := by
  obtain ⟨s, hs, hplan, hitem, s', hs', -⟩ : ∃ s, Run (panels true).next (fun s l => orderly s l = true)
      ⟨{ db := twoServers }, []⟩ (.start (.execute "p") :: List.replicate 12 (.call 0 .delivered)) s ∧
      s.world.planStatus "p" = some .restored ∧ s.world.itemStatus "a" = some .restored ∧
      ∃ s', Run (panels true).next (fun s l => orderly s l = true) s
        (.start (.reconcile "p") :: List.replicate 2 (.call 1 .delivered)) s' ∧ True := by decide +kernel
  obtain ⟨hplans, hitems⟩ := outcomes_are_final (by decide) hs hs'
  exact ⟨s, s', hplan, hitem, hplans _ _ hplan rfl, hitems _ _ hitem rfl⟩

/-- A plan is cancelled during a restore: when the restore ends, the cancelled item and then the
cancelled plan are set to restored. -/
theorem cancelled_plan_is_restored : ∃ s s' : Config Resp Task World,
    Run (panels true).next (fun _ _ => True) ⟨{ db := twoServers }, []⟩
      (.start (.execute "p") :: List.replicate 4 (.call 0 .delivered) ++
        .start (.cancel "p") :: List.replicate 7 (.call 1 .delivered)) s ∧
    Run (panels true).next (fun _ _ => True) s (List.replicate 8 (.call 0 .delivered)) s' ∧
    s.ended 1 = true ∧ s.world.planStatus "p" = some .cancelled ∧ s.world.itemStatus "a" = some .cancelled ∧
    s'.world.planStatus "p" = some .restored ∧ s'.world.itemStatus "a" = some .restored := by
  simp
  decide +kernel

end ForgePlane.Coordinator
