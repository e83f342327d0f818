import ForgePlane.Coordinator

/-!
# What an operation knows of a plan

Every status of a plan and of an item is written by an unconditional `UPDATE`, after reads that may be out of
date. `Hold` is what the operation that works on the watched plan knows of its rows.
-/

namespace ForgePlane.Coordinator.Outcomes

open List

structure Hold where
  plan : Bool := false
  items : List String := []

variable {item i : RecoveryItem} {reason : String}

section
variable (P : String) (rows : List (String × String))

def Mine (m : Option Hold) (planID : String) : Prop := planID = P → m.isSome = true

def PlanOpen (m : Option Hold) (planID : String) : Prop := planID = P → ∃ h, m = some h ∧ h.plan = true

def ItemOpen (m : Option Hold) (id : String) : Prop := (id, P) ∈ rows → ∃ h, m = some h ∧ id ∈ h.items

def openIDs (items : List RecoveryItem) : List String := (items.filter fun i => !isItemOutcome i.status).map (·.id)

def holds : Monitor Resp (Option Hold) where
  admits m
    | .startPlan planID => Mine P m planID
    | .setPlan planID _ _ => PlanOpen P m planID
    | .setItem id _ _ => ItemOpen P rows m id
    | .setItems planID _ _ => Mine P m planID
    | _ => True
  expects _ c r :=
    match c, r with
    | .planRow planID, .ok row => row.id = planID
    | .planItems planID, .ok items => (items.map (·.id)).Nodup ∧ ∀ i ∈ items, i.planID = planID ∧ (i.id, planID) ∈ rows
    | _, _ => True
  next m c r :=
    match c, r with
    | .startPlan planID, .ok _ => if planID = P then m.map fun h => { h with plan := true } else m
    | .planRow planID, .ok row =>
      if planID = P ∧ isOutcome row.status = false then m.map fun h => { h with plan := true } else m
    | .planItems planID, .ok items => if planID = P then m.map fun h => { h with items := h.items ++ openIDs items } else m
    | .setPlan planID _ _, _ => if planID = P then m.map fun h => { h with plan := false } else m
    | .setItem id _ _, _ => m.map fun h => { h with items := h.items.filter fun x => x ≠ id }
    | .setItems planID _ _, _ => if planID = P then m.map fun h => { h with items := [] } else m
    | _, _ => m

variable {P rows} {m m' m'' : Option Hold} {planID : String}

theorem PlanOpen.mine (h : PlanOpen P m planID) : Mine P m planID := by
  intro hP
  obtain ⟨x, rfl, -⟩ := h hP
  rfl

/-! ## What a call teaches -/

theorem open_startPlan (hm : Mine P m planID) : PlanOpen P ((holds P rows).next m (.startPlan planID) (.ok ())) planID := by
  intro hP
  obtain ⟨h, rfl⟩ := Option.isSome_iff_exists.mp (hm hP)
  exact ⟨{ h with plan := true }, by simp [holds, hP], rfl⟩

theorem open_planRow {row : RecoveryPlanRow} (hm : Mine P m planID) (hrow : isOutcome row.status = false) :
    PlanOpen P ((holds P rows).next m (.planRow planID) (.ok row)) planID := by
  intro hP
  obtain ⟨h, rfl⟩ := Option.isSome_iff_exists.mp (hm hP)
  exact ⟨{ h with plan := true }, by simp [holds, hP, hrow], rfl⟩

variable {items : List RecoveryItem} {α β : Type} {p : Action α}
variable {status : RecoveryItemStatus} {id : String}

theorem open_planItems (hrows : (rows.map (·.1)).Nodup) (hm : Mine P m planID)
    (hi : i ∈ items) (hrow : (i.id, planID) ∈ rows) (hopen : isItemOutcome i.status = false) :
    ItemOpen P rows ((holds P rows).next m (.planItems planID) (.ok items)) i.id := by
  intro hP
  obtain rfl : planID = P := congrArg Prod.snd (inj_on_of_nodup_map hrows hrow hP rfl)
  obtain ⟨h, rfl⟩ := Option.isSome_iff_exists.mp (hm rfl)
  refine ⟨{ h with items := h.items ++ openIDs items }, by simp [holds], mem_append_right _ ?_⟩
  exact mem_map.mpr ⟨i, mem_filter.mpr ⟨hi, by simp [hopen]⟩, rfl⟩

theorem keeps_setItem (id : String) (status : RecoveryItemStatus) (reason : String) (r : Except Err Unit) :
    (∀ planID, PlanOpen P m planID → PlanOpen P ((holds P rows).next m (.setItem id status reason) r) planID) ∧
    ∀ x, x ≠ id → ItemOpen P rows m x → ItemOpen P rows ((holds P rows).next m (.setItem id status reason) r) x := by
  refine ⟨fun planID h hP => ?_, fun x hx h hxP => ?_⟩
  · obtain ⟨y, rfl, hy⟩ := h hP
    exact ⟨_, rfl, hy⟩
  · obtain ⟨y, rfl, hy⟩ := h hxP
    exact ⟨_, rfl, mem_filter.mpr ⟨hy, by simp [hx]⟩⟩

theorem keeps_setItems {r : Except Err Unit}
    (h : PlanOpen P m planID) : PlanOpen P ((holds P rows).next m (.setItems id status reason) r) planID := by
  intro hP
  obtain ⟨y, rfl, hy⟩ := h hP
  by_cases hid : id = P
  · exact ⟨{ y with items := [] }, by simp [holds, hid], hy⟩
  · exact ⟨y, by simp [holds, hid], hy⟩

theorem next_isSome (m : Option Hold) (c : Call) (r : Resp c) : ((holds P rows).next m c r).isSome = m.isSome := by
  cases c with
  | startPlan =>
    cases r with
    | error => rfl
    | ok => simp only [holds]; split <;> simp
  | planRow =>
    cases r with
    | error => rfl
    | ok => simp only [holds]; split <;> simp
  | planItems =>
    cases r with
    | error => rfl
    | ok => simp only [holds]; split <;> simp
  | setPlan | setItems => simp only [holds]; split <;> simp
  | setItem => simp [holds]
  | _ => rfl

theorem wp_isSome {Φ : α → Option Hold → Prop} (h : wp (holds P rows) p Φ m) :
    wp (holds P rows) p (fun a m' => Φ a m' ∧ m'.isSome = m.isSome) m := by
  induction p generalizing m with
  | ret => exact ⟨h, rfl⟩
  | call c k ih => exact ⟨h.1, fun r hr => wp_mono (fun a m' hm => ⟨hm.1, hm.2.trans (next_isSome m c r)⟩) (ih r (h.2 r hr))⟩

structure Extends (P : String) (rows : List (String × String)) (m m' : Option Hold) : Prop where
  some_ : m.isSome = true → m'.isSome = true
  plan : ∀ planID, PlanOpen P m planID → PlanOpen P m' planID
  item : ∀ id, ItemOpen P rows m id → ItemOpen P rows m' id

theorem Extends.refl (m : Option Hold) : Extends P rows m m := ⟨fun h => h, fun _ h => h, fun _ h => h⟩

theorem Extends.trans (h : Extends P rows m m') (h' : Extends P rows m' m'') : Extends P rows m m'' :=
  ⟨fun hm => h'.some_ (h.some_ hm), fun id hid => h'.plan id (h.plan id hid), fun id hid => h'.item id (h.item id hid)⟩

theorem Extends.mine (h : Extends P rows m m') (hm : Mine P m planID) : Mine P m' planID := fun hP => h.some_ (hm hP)

theorem extends_map {f : Hold → Hold} (hplan : ∀ h, h.plan = true → (f h).plan = true)
    (hitems : ∀ h, ∀ x ∈ h.items, x ∈ (f h).items) (m : Option Hold) : Extends P rows m (m.map f) where
  some_ hm := by simpa using hm
  plan planID h hP := by
    obtain ⟨x, rfl, hx⟩ := h hP
    exact ⟨f x, rfl, hplan x hx⟩
  item id h hid := by
    obtain ⟨x, rfl, hx⟩ := h hid
    exact ⟨f x, rfl, hitems x id hx⟩

theorem extends_planRow (m : Option Hold) (planID : String) (row : RecoveryPlanRow) :
    Extends P rows m ((holds P rows).next m (.planRow planID) (.ok row)) := by
  simp only [holds]
  split
  · apply extends_map
    · exact fun _ _ => rfl
    · exact fun _ _ hx => hx
  · exact .refl m

theorem extends_planItems (m : Option Hold) (planID : String) (items : List RecoveryItem) :
    Extends P rows m ((holds P rows).next m (.planItems planID) (.ok items)) := by
  simp only [holds]
  split
  · apply extends_map
    · exact fun _ h => h
    · exact fun _ _ hx => mem_append_left _ hx
  · exact .refl m

def KnownItems (P : String) (rows : List (String × String)) (m : Option Hold) (planID : String) (items : List RecoveryItem) :
    Prop :=
  (items.map (·.id)).Nodup ∧ ∀ i ∈ items, i.planID = planID ∧ (isItemOutcome i.status = false → ItemOpen P rows m i.id)

variable (h : KnownItems P rows m planID (item :: items))
include h

theorem KnownItems.tail :
    KnownItems P rows m planID items :=
  ⟨(nodup_cons.mp h.1).2, fun i hi => h.2 i (mem_cons_of_mem _ hi)⟩

theorem KnownItems.rest
    (hm : ∀ x, x ≠ item.id → ItemOpen P rows m x → ItemOpen P rows m' x) : KnownItems P rows m' planID items := by
  obtain ⟨hnew, hnodup⟩ := nodup_cons.mp h.1
  refine ⟨hnodup, fun i hi => ⟨(h.2 i (mem_cons_of_mem _ hi)).1, fun ho => ?_⟩⟩
  refine hm i.id (fun he => hnew ?_) ((h.2 i (mem_cons_of_mem _ hi)).2 ho)
  exact mem_map.mpr ⟨i, hi, he⟩

omit h

theorem silent_of_aside (c : Call) (h : Aside c) : (holds P rows).Silent (fun _ => True) c := by
  intro m _
  cases c with
  | itemRow | setReservation | getMigration | markFailed | cancelMigration | setMigration => exact ⟨trivial, fun _ _ => rfl⟩
  | _ => exact h.elim

theorem wp_aside (hp : All Aside p) {f : α → Action β} {Φ : β → Option Hold → Prop}
    (h : ∀ a, wp (holds P rows) (f a) Φ m) : wp (holds P rows) (p >>= f) Φ m :=
  wp_seq ((hp.mono silent_of_aside).wp trivial h)

variable (executor : Bool)

section
variable (hrows : (rows.map (·.1)).Nodup)
include hrows

theorem wp_getRecoveryPlan (hm : Mine P m planID) :
    wp (holds P rows) (getRecoveryPlan planID) (fun r m' => Extends P rows m m' ∧ ∀ plan, r = .ok plan →
      plan.1.id = planID ∧ (isOutcome plan.1.status = false → PlanOpen P m' planID) ∧
        KnownItems P rows m' planID plan.2) m := by
  refine ⟨trivial, forall_result (fun row hrow => ?_) fun _ _ => ⟨.refl m, nofun⟩⟩
  have hext : Extends P rows m ((holds P rows).next m (.planRow planID) (.ok row)) := extends_planRow m planID row
  refine ⟨trivial, forall_result (fun items hitems => ?_) fun _ _ => ⟨hext, nofun⟩⟩
  have hext' : Extends P rows _ ((holds P rows).next ((holds P rows).next m (.planRow planID) (.ok row)) (.planItems planID)
      (.ok items)) := extends_planItems _ planID items
  refine ⟨hext.trans hext', fun plan h => ?_⟩
  cases h
  refine ⟨hrow, fun hopen => hext'.plan _ (open_planRow hm hopen), hitems.1, fun i hi => ?_⟩
  obtain ⟨hplan, hmem⟩ := hitems.2 i hi
  exact ⟨hplan, open_planItems hrows (hext.mine hm) hi hmem⟩

theorem wp_updateRecoveryPlanStatus {status : RecoveryPlanStatus} (hm : PlanOpen P m planID) :
    wp (holds P rows) (updateRecoveryPlanStatus planID status reason) (fun _ _ => True) m := by
  refine ⟨hm, forall_result (fun _ _ => ?_) fun _ _ => trivial⟩
  refine wp_mono (fun _ _ _ => trivial) (wp_getRecoveryPlan hrows ?_)
  exact fun hP => (next_isSome m _ _).trans (hm.mine hP)

omit hrows in
theorem wp_updateRecoveryItemStatus (hm : ItemOpen P rows m id) :
    wp (holds P rows) (updateRecoveryItemStatus id status reason) (fun _ m' =>
      (∀ planID, PlanOpen P m planID → PlanOpen P m' planID) ∧
      ∀ x, x ≠ id → ItemOpen P rows m x → ItemOpen P rows m' x) m := by
  refine ⟨hm, fun r _ => ?_⟩
  cases r with
  | error => exact keeps_setItem id status reason _
  | ok => exact ⟨trivial, fun _ _ => keeps_setItem id status reason (.ok ())⟩

theorem wp_failPlan (hm : PlanOpen P m planID) : wp (holds P rows) (failPlan planID reason) (fun _ _ => True) m := by
  refine wp_seq (wp_mono ?_ (wp_getRecoveryPlan hrows hm.mine))
  rintro r m₁ ⟨hext, -⟩
  cases r with
  | error => exact wp_updateRecoveryPlanStatus hrows (hext.plan _ hm)
  | ok existing =>
    refine wp_aside (aside_failItems reason existing.2) fun _ => ⟨hext.mine hm.mine, fun r _ => ?_⟩
    exact wp_updateRecoveryPlanStatus hrows (keeps_setItems (hext.plan _ hm))

theorem wp_failRecoveryItem {cause : Err} (hm : PlanOpen P m item.planID)
    (hitem : ItemOpen P rows m item.id) : wp (holds P rows) (failRecoveryItem item cause) (fun _ _ => True) m := by
  unfold failRecoveryItem
  refine wp_aside ?_ fun _ => wp_aside (aside_cancelReservation item) fun _ => ?_
  · split
    · trivial
    · exact ⟨trivial, fun _ => trivial⟩
  refine wp_seq (wp_mono ?_ (wp_updateRecoveryItemStatus hitem))
  rintro r m₁ ⟨hplan, -⟩
  exact wp_seq (wp_mono (fun _ _ _ => trivial) (wp_failPlan hrows (hplan _ hm)))

theorem wp_cancelPlan (hm : PlanOpen P m planID) :
    wp (holds P rows) (cancelPlan executor planID) (fun _ _ => True) m := by
  refine wp_ok (wp_getRecoveryPlan hrows hm.mine) ?_ fun _ _ _ => trivial
  rintro existing m₁ ⟨hext, -⟩
  refine wp_aside (aside_cancelItems executor existing.2) fun _ => wp_seq ⟨hext.mine hm.mine, fun r _ => ?_⟩
  refine wp_seq (wp_mono ?_ (wp_updateRecoveryPlanStatus hrows (keeps_setItems (hext.plan _ hm))))
  rintro r m₂ -
  cases r <;> trivial

theorem wp_cancelRecoveryItem (hm : PlanOpen P m item.planID)
    (hitem : ItemOpen P rows m item.id) : wp (holds P rows) (cancelRecoveryItem executor item) (fun _ _ => True) m := by
  refine wp_aside (aside_cancelReservation item) fun errs => ?_
  cases errs with
  | cons => trivial
  | nil =>
    refine wp_ok (wp_updateRecoveryItemStatus hitem) ?_ fun _ _ _ => trivial
    rintro _ m₁ ⟨hplan, -⟩
    exact wp_cancelPlan executor hrows (hplan _ hm)

theorem wp_reconcileItems : ∀ {items : List RecoveryItem} {m : Option Hold}, PlanOpen P m planID →
    KnownItems P rows m planID items →
    wp (holds P rows) (reconcileItems executor items) (fun r m' => r = none → PlanOpen P m' planID) m
  | [], _, hm, _ => fun _ => hm
  | item :: items, m, hm, hitems => by
    unfold reconcileItems
    split
    · exact wp_reconcileItems hm hitems.tail
    rename_i hstatus
    obtain ⟨hplan, hopen⟩ := hitems.2 item mem_cons_self
    have hopen : ItemOpen P rows m item.id := hopen (by rw [not_not.mp hstatus]; rfl)
    have hm' : PlanOpen P m item.planID := hplan ▸ hm
    have ends : ∀ {p : Action (Except Err Plan)}, wp (holds P rows) p (fun _ _ => True) m →
        wp (holds P rows) (p >>= fun r => pure (some r)) (fun r m' => r = none → PlanOpen P m' planID) m :=
      fun hp => wp_seq (wp_mono (fun _ _ _ h => by cases h) hp)
    split
    · exact ends (wp_failRecoveryItem hrows hm' hopen)
    refine wp_seq ⟨trivial, forall_result (fun status _ => ?_) fun _ _ h => by cases h⟩
    cases status with
    | completed =>
      refine wp_seq (wp_mono ?_ (wp_updateRecoveryItemStatus hopen))
      rintro r m₁ ⟨hplan₁, hrest⟩
      have hknown : KnownItems P rows m₁ planID items := hitems.rest hrest
      cases r with
      | error => exact fun h => by cases h
      | ok =>
        dsimp only
        split
        · exact wp_reconcileItems (hplan₁ _ hm) hknown
        exact ⟨trivial, forall_result (fun _ _ => wp_reconcileItems (hplan₁ _ hm) hknown) fun _ _ h => by cases h⟩
    | failed => exact ends (wp_failRecoveryItem hrows hm' hopen)
    | cancelled => exact ends (wp_cancelRecoveryItem executor hrows hm' hopen)
    | _ => exact wp_reconcileItems hm hitems.tail

theorem wp_reconcilePlan (hm : Mine P m planID) :
    wp (holds P rows) (reconcilePlan executor planID) (fun _ _ => True) m := by
  unfold reconcilePlan
  split
  · trivial
  refine wp_ok (wp_getRecoveryPlan hrows hm) ?_
  rintro plan m₁ ⟨-, hplan⟩
  obtain ⟨-, hopen, hitems⟩ := hplan plan rfl
  dsimp only
  split
  · trivial
  rename_i hstatus
  have hm₁ : PlanOpen P m₁ planID := hopen (by rw [not_not.mp hstatus]; rfl)
  refine wp_seq (wp_mono ?_ (wp_reconcileItems executor hrows hm₁ hitems))
  intro r m₂ hm₂
  cases r with
  | some => trivial
  | none =>
  refine wp_ok (wp_getRecoveryPlan hrows (hm₂ rfl).mine) ?_
  rintro plan m₃ ⟨hext, hplan⟩
  obtain ⟨hid, -, -⟩ := hplan plan rfl
  dsimp only
  split
  · exact wp_updateRecoveryPlanStatus hrows (hid.symm ▸ hext.plan _ (hm₂ rfl))
  · trivial

theorem wp_finishBackupRestorePlan (hm : PlanOpen P m planID) :
    wp (holds P rows) (finishBackupRestorePlan planID) (fun _ _ => True) m := by
  refine wp_ok (wp_getRecoveryPlan hrows hm.mine) ?_ fun _ _ _ => trivial
  rintro plan m₁ ⟨hext, hplan⟩
  obtain ⟨hid, -, -⟩ := hplan plan rfl
  have hopen : PlanOpen P m₁ plan.1.id := hid.symm ▸ hext.plan _ hm
  dsimp only
  split
  · trivial
  split <;> exact wp_updateRecoveryPlanStatus hrows hopen

theorem wp_executeItems : ∀ {items : List RecoveryItem} {m : Option Hold}, PlanOpen P m planID →
    KnownItems P rows m planID items → wp (holds P rows) (executeItems planID items) (fun _ _ => True) m
  | [], _, hm, _ => wp_finishBackupRestorePlan hrows hm
  | item :: items, m, hm, hitems => by
    unfold executeItems
    split
    · exact wp_executeItems hm hitems.tail
    rename_i hstatus
    have hopen : ItemOpen P rows m item.id :=
      (hitems.2 item mem_cons_self).2 (by rw [not_not.mp hstatus]; rfl)
    refine wp_seq ⟨trivial, fun _ _ => ⟨trivial, fun r _ => ?_⟩⟩
    change wp (holds P rows) _ _ m
    cases r with
    | error =>
      refine wp_ok (wp_updateRecoveryItemStatus hopen) ?_
      rintro _ m₁ ⟨hplan, -⟩
      exact wp_failPlan hrows (hplan _ hm)
    | ok =>
      refine wp_ok (wp_updateRecoveryItemStatus hopen) ?_
      rintro _ m₁ ⟨hplan, hrest⟩
      exact wp_executeItems (hplan _ hm) (hitems.rest hrest)

theorem wp_executePlan (hm : Mine P m planID) : wp (holds P rows) (executePlan planID) (fun _ _ => True) m := by
  refine wp_seq ⟨hm, forall_result fun _ _ => ?_⟩
  have hopen : PlanOpen P ((holds P rows).next m (.startPlan planID) (.ok ())) planID := open_startPlan hm
  refine wp_mono ?_ (wp_getRecoveryPlan hrows hopen.mine)
  rintro r m₁ ⟨hext, hplan⟩
  cases r with
  | error => trivial
  | ok plan =>
  obtain ⟨hid, -, hitems⟩ := hplan plan rfl
  have hopen₁ : PlanOpen P m₁ plan.1.id := hid.symm ▸ hext.plan _ hopen
  dsimp only
  split
  · exact wp_updateRecoveryPlanStatus hrows hopen₁
  · exact wp_executeItems hrows hopen₁ (hid.symm ▸ hitems)

theorem wp_getPlan (hm : Mine P m planID) : wp (holds P rows) (getPlan executor planID) (fun _ _ => True) m := by
  refine wp_ok (wp_getRecoveryPlan hrows hm) ?_ fun _ _ _ => trivial
  rintro plan m₁ ⟨hext, -⟩
  dsimp only
  split
  · trivial
  · exact wp_reconcilePlan executor hrows (hext.mine hm)

theorem wp_getPlans : ∀ {ids : List String} {m : Option Hold}, m.isSome = true →
    wp (holds P rows) (getPlans ids) (fun _ m' => m'.isSome = true) m
  | [], _, hm => hm
  | id :: ids, m, hm => by
    refine wp_ok (wp_getRecoveryPlan hrows fun _ => hm) ?_ fun _ _ ⟨hext, _⟩ => hext.some_ hm
    rintro plan m₁ ⟨hext, -⟩
    refine wp_seq (wp_mono ?_ (wp_getPlans (hext.some_ hm)))
    intro r m₂ hm₂
    cases r <;> exact hm₂

theorem wp_reconcileAll : ∀ {plans : List Plan} {m : Option Hold}, m.isSome = true →
    wp (holds P rows) (reconcileAll executor plans) (fun _ _ => True) m
  | [], _, _ => trivial
  | plan :: plans, m, hm => by
    unfold reconcileAll
    refine wp_seq (wp_mono ?_ (wp_isSome (Φ := fun _ _ => True) ?_))
    · rintro r m₁ ⟨-, hm₁⟩
      cases r with
      | error => trivial
      | ok =>
        refine wp_seq (wp_mono ?_ (wp_reconcileAll (hm₁.trans hm)))
        rintro r m₂ -
        cases r <;> trivial
    · split
      · trivial
      · exact wp_reconcilePlan executor hrows fun _ => hm

theorem wp_listPlans (hm : m.isSome = true) : wp (holds P rows) (listPlans executor) (fun _ _ => True) m := by
  refine wp_seq ⟨trivial, forall_result fun ids _ => ?_⟩
  refine wp_mono ?_ (wp_getPlans hrows hm)
  intro r m₁ hm₁
  cases r with
  | error => trivial
  | ok => exact wp_reconcileAll executor hrows hm₁

end

end

end ForgePlane.Coordinator.Outcomes
