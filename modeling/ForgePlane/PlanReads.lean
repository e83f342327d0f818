import ForgePlane.Coordinator

/-!
# Reading a recovery plan

An executing plan is reconciled with its migrations when it is read. The items of an offline recovery have no
migrations: an executing one is failed together with its plan.
-/

namespace ForgePlane.Coordinator

def Task.reads : Task → Bool
  | .reconcile _ => true
  | .getPlan _ => true
  | .listPlans => true
  | _ => false

def hasBegun (status : RecoveryPlanStatus) : Bool := status = .executing || isOutcome status

def World.begun (w : World) (planID : String) : Bool := (w.planStatus planID).any hasBegun

def calm (items : List RecoveryItem) : Bool := (items.all fun i => i.status ≠ .executing) && !allCompleted items

section
variable (executor : Bool)

def sight : Monitor Resp (List String) where
  admits _
    | .planRow _ => True
    | .planItems _ => True
    | .planIDs => True
    | _ => False
  expects m c r :=
    match c, r with
    | .planRow planID, .ok row => row.id = planID
    | .planItems planID, .ok items => executor = true → planID ∈ m → calm items = true
    | _, _ => True
  next m c r :=
    match c, r with
    | .planRow planID, .ok row => if hasBegun row.status then planID :: m else m
    | _, _ => m

def Seen (planID : String) (m : List String) (plan : Plan) : Prop :=
  plan.1.id = planID ∧ (hasBegun plan.1.status = true → planID ∈ m) ∧
    (executor = true → planID ∈ m → calm plan.2 = true)

theorem wp_getRecoveryPlan (planID : String) (m : List String) :
    wp (sight executor) (getRecoveryPlan planID)
      (fun r m' => (∀ id ∈ m, id ∈ m') ∧ ∀ plan, r = .ok plan → Seen executor planID m' plan) m := by
  refine ⟨trivial, forall_result (fun row hrow => ?_) fun _ _ => ⟨fun _ h => h, nofun⟩⟩
  refine ⟨trivial, fun r hitems => ?_⟩
  have hsub : ∀ id ∈ m, id ∈ (sight executor).next m (.planRow planID) (.ok row) := by
    intro id hid
    simp only [sight]
    split
    · exact .tail _ hid
    · exact hid
  cases r with
  | error => exact ⟨hsub, nofun⟩
  | ok =>
    refine ⟨hsub, fun plan h => ?_⟩
    cases h
    refine ⟨hrow, fun hbegun => ?_, hitems⟩
    simp only [sight, hbegun, if_true]
    exact .head _

theorem reconcileItems_calm : ∀ {items : List RecoveryItem}, (∀ i ∈ items, i.status ≠ .executing) →
    reconcileItems executor items = pure none
  | [], _ => rfl
  | item :: items, h => by
    unfold reconcileItems
    rw [if_pos (h item (.head _))]
    exact reconcileItems_calm fun i hi => h i (.tail _ hi)

theorem wp_reconcilePlan (planID : String) (m : List String) :
    wp (sight executor) (reconcilePlan executor planID) (fun _ _ => True) m := by
  unfold reconcilePlan
  split
  · trivial
  rename_i hexec
  have hexec : executor = true := by simpa using hexec
  refine wp_ok (wp_getRecoveryPlan executor planID m) ?_ fun _ _ _ => trivial
  rintro plan m₁ ⟨-, hseen⟩
  dsimp only
  split
  · trivial
  rename_i hstatus
  obtain ⟨-, hbegun, hcalm⟩ := hseen plan rfl
  have hmem : planID ∈ m₁ := hbegun (by simp [hasBegun, not_not.mp hstatus])
  -- nothing to reconcile, and the plan is read once more
  have hquiet := hcalm hexec hmem
  simp [calm] at hquiet
  rw [reconcileItems_calm executor hquiet.1, Prog.pure_def, Prog.ret_bind]
  refine wp_ok (wp_getRecoveryPlan executor planID m₁) ?_ fun _ _ _ => trivial
  rintro plan m₂ ⟨hsub, hseen⟩
  obtain ⟨-, -, hcalm⟩ := hseen plan rfl
  have hquiet := hcalm hexec (hsub planID hmem)
  simp [calm] at hquiet
  dsimp only
  rw [hquiet.2]
  trivial

theorem wp_getPlan (planID : String) (m : List String) :
    wp (sight executor) (getPlan executor planID) (fun _ _ => True) m := by
  refine wp_ok (wp_getRecoveryPlan executor planID m) ?_ fun _ _ _ => trivial
  rintro plan m' -
  dsimp only
  split
  · trivial
  · exact wp_reconcilePlan executor planID m'

theorem wp_getPlans : ∀ ids m, wp (sight executor) (getPlans ids) (fun _ _ => True) m
  | [], _ => trivial
  | id :: ids, m => by
    refine wp_ok (wp_getRecoveryPlan executor id m) ?_ fun _ _ _ => trivial
    rintro plan m' -
    refine wp_then (wp_getPlans ids m') ?_
    rintro r m'' -
    cases r <;> trivial

theorem wp_reconcileAll : ∀ plans m, wp (sight executor) (reconcileAll executor plans) (fun _ _ => True) m
  | [], _ => trivial
  | plan :: plans, m => by
    unfold reconcileAll
    refine wp_seq (wp_mono (Φ := fun _ _ => True) (fun r m' _ => ?_) ?_)
    · cases r with
      | error => trivial
      | ok =>
        refine wp_then (wp_reconcileAll plans m') ?_
        rintro r m'' -
        cases r <;> trivial
    · split
      · trivial
      · exact wp_reconcilePlan executor plan.1.id m

theorem wp_listPlans (m : List String) : wp (sight executor) (listPlans executor) (fun _ _ => True) m := by
  refine wp_seq ⟨trivial, forall_result fun ids _ => ?_⟩
  refine wp_mono ?_ (wp_getPlans executor ids m)
  rintro r m' -
  cases r with
  | error => trivial
  | ok plans => exact wp_reconcileAll executor plans m'

variable {t : Task} {w : World} {c : Call} {m : List String}

theorem wp_reads (ht : t.reads = true) : wp (sight executor) (t.program executor) (fun _ _ => True) [] := by
  have drop : ∀ {α : Type} (p : Action α), wp (sight executor) p (fun _ _ => True) [] →
      wp (sight executor) (ignore p) (fun _ _ => True) [] :=
    fun p hp => wp_then hp fun _ _ _ => trivial
  cases t with
  | reconcile planID => exact drop _ (wp_reconcilePlan executor planID [])
  | getPlan planID => exact drop _ (wp_getPlan executor planID [])
  | listPlans => exact drop _ (wp_listPlans executor [])
  | _ => cases ht

/-! ## A plan that has begun -/

def Call.Tame : Call → Prop
  | .setPlan _ status _ => isOutcome status
  | _ => True

theorem Call.Quiet.tame : ∀ c : Call, c.Quiet → c.Tame
  | .setPlan .., h => h
  | .startPlan _, _ => trivial
  | .planRow _, _ => trivial
  | .planItems _, _ => trivial
  | .planIDs, _ => trivial
  | .setItem .., _ => trivial
  | .itemRow _, _ => trivial
  | .setItems .., _ => trivial
  | .setReservation .., _ => trivial
  | .beginRestore _, _ => trivial
  | .endRestore _, _ => trivial
  | .getMigration _, _ => trivial
  | .markFailed .., _ => trivial
  | .cancelMigration _, _ => trivial
  | .setMigration .., _ => trivial

theorem tame_executeItems (planID : String) : ∀ items, All Call.Tame (executeItems planID items)
  | [] => (quiet_finishBackupRestorePlan planID).mono Call.Quiet.tame
  | item :: items => by
    unfold executeItems
    split
    · exact tame_executeItems planID items
    refine All.bind ⟨trivial, fun _ => ⟨trivial, fun _ => trivial⟩⟩ fun r => ?_
    cases r with
    | error =>
      refine ((quiet_updateRecoveryItemStatus item.id _ rfl _).mono Call.Quiet.tame).ok (fun _ => ?_) fun _ => trivial
      exact (quiet_failPlan planID _).mono Call.Quiet.tame
    | ok =>
      refine ((quiet_updateRecoveryItemStatus item.id _ rfl _).mono Call.Quiet.tame).ok (fun _ => ?_) fun _ => trivial
      exact tame_executeItems planID items

theorem tame_executePlan (planID : String) : All Call.Tame (executePlan planID) := by
  refine All.bind ⟨trivial, fun r => ?_⟩ fun r => ?_
  · cases r with
    | error => trivial
    | ok => exact (quiet_getRecoveryPlan planID).mono Call.Quiet.tame
  · cases r with
    | error => trivial
    | ok plan =>
      dsimp only
      split
      · exact (quiet_updateRecoveryPlanStatus plan.1.id _ rfl _).mono Call.Quiet.tame
      · exact tame_executeItems plan.1.id plan.2

theorem tame_program (t : Task) : All Call.Tame (t.program executor) := by
  by_cases ht : ∀ planID, t ≠ .execute planID
  · exact (quiet_program executor ht).mono Call.Quiet.tame
  · push Not at ht
    obtain ⟨planID, rfl⟩ := ht
    exact (tame_executePlan planID).bind fun _ => trivial

theorem begun_handle (hc : c.Tame) {planID : String} (h : w.begun planID = true) :
    (w.handle c).2.begun planID = true := by
  obtain ⟨old, hold, hbegun⟩ := (Option.any_eq_true _ _).mp h
  -- the row is set to a status that has begun, or stays as it is
  have set : ∀ id status reason, hasBegun status = true →
      ({ w with db := w.db.updateRecoveryPlanStatus id status reason } : World).begun planID = true := by
    intro id status reason hs
    rw [World.begun, planStatus_setPlan, hold]
    split
    · exact hs
    · exact hbegun
  cases c with
  | setPlan id status reason => exact set id status reason (by simp [hasBegun, show isOutcome status = true from hc])
  | startPlan id =>
    obtain ⟨e, he⟩ | ⟨plan, -, -, hok⟩ := World.startPlan_cases w.db id
    · simp [World.handle, he]
      exact h
    · simp [World.handle, hok]
      exact set id .executing _ rfl
  | setReservation =>
    simp [World.begun, World.planStatus, World.handle, setReservation_plans]
    exact h
  | _ => exact h

def calmReads (s : Config Resp Task World) (l : Label Task) : Bool :=
  match s.sends l with
  | some (t, .planItems planID) => !(executor && t.reads && s.world.begun planID) || calm (s.world.items planID)
  | _ => true

def Reading (w : World) (t : Task) (p : Action Unit) : Prop :=
  All Call.Tame p ∧ (t.reads = true → ∃ m, wp (sight executor) p (fun _ _ => True) m ∧ ∀ id ∈ m, w.begun id = true)

theorem Reading.handle {p : Action Unit} (h : Reading executor w t p) (hc : c.Tame) :
    Reading executor (w.handle c).2 t p := by
  refine ⟨h.1, fun ht => ?_⟩
  obtain ⟨m, hm, hbegun⟩ := h.2 ht
  exact ⟨m, hm, fun id hid => begun_handle hc (hbegun id hid)⟩

theorem sight_world (h : (sight executor).admits m c) (w : World) : (w.handle c).2 = w := by
  cases c with
  | planRow | planItems | planIDs => rfl
  | _ => exact h.elim

theorem sight_answer {s : Config Resp Task World} {i : Nat} {o : Outcome} {r : Resp c}
    (ha : calmReads executor s (.call i o) = true) (hsends : s.sends (.call i o) = some (t, c))
    (ht : t.reads = true) (hadmits : (sight executor).admits m c) (hbegun : ∀ id ∈ m, s.world.begun id = true)
    (hr : (panels executor).answer s.world c o = some (r, w)) :
    (sight executor).expects m c r ∧ ∀ id ∈ (sight executor).next m c r, s.world.begun id = true := by
  obtain ⟨-, hr⟩ | ⟨e, -, hf, -⟩ | ⟨e, -, hf, -⟩ := System.answer_cases hr
  · cases c with
    | planIDs => exact ⟨trivial, hbegun⟩
    | planItems planID =>
      cases hr
      refine ⟨fun hexec hmem => ?_, hbegun⟩
      have : calm (s.world.items planID) = true := by simpa [calmReads, hsends, hexec, ht, hbegun planID hmem] using ha
      exact this
    | planRow planID =>
      cases hr
      cases hrow : rowAt (·.id) s.world.db.recoveryPlans planID with
      | none => exact ⟨trivial, hbegun⟩
      | some =>
        refine ⟨rowAt_key hrow, fun id hid => ?_⟩
        simp [sight, orNoRows] at hid
        split at hid
        · rename_i hstatus
          obtain rfl | hid := List.mem_cons.mp hid
          · simpa [World.begun, World.planStatus, hrow] using hstatus
          · exact hbegun id hid
        · exact hbegun id hid
    | _ => exact hadmits.elim
  all_goals
    cases c with
    | planIDs | planItems | planRow => cases hf; exact ⟨trivial, hbegun⟩
    | _ => exact hadmits.elim

theorem reading_inv : ThreadInv (panels executor) (fun s l => calmReads executor s l = true) (fun _ => True)
    (Reading executor) where
  start s t _ _ := ⟨tame_program executor t, fun ht => ⟨[], wp_reads executor ht, nofun⟩⟩
  stop _ _ _ := ⟨trivial, fun _ => ⟨[], trivial, nofun⟩⟩
  tick _ _ _ := ⟨trivial, fun _ _ h => h⟩
  call s i o t c k r w _ hJ ha hi hr := by
    have hsends := Config.sends_eq o hi
    have hthread := hJ _ (List.mem_of_getElem? hi)
    have hothers : ∀ t' p, Reading executor s.world t' p → Reading executor w t' p := by
      intro t' p h
      obtain rfl | rfl := System.answer_world hr
      · exact h
      · exact h.handle executor hthread.1.1
    refine ⟨trivial, ?_, fun j t' p _ hj => hothers t' p (hJ _ (List.mem_of_getElem? hj))⟩
    refine hothers t (k r) ⟨hthread.1.2 r, fun ht => ?_⟩
    obtain ⟨m, hm, hbegun⟩ := hthread.2 ht
    obtain ⟨hexp, hnext⟩ := sight_answer executor ha hsends ht hm.1 hbegun hr
    exact ⟨_, hm.2 r hexp, hnext⟩

end

/-- As long as every read is shown calm plans, a step of a read changes nothing at all: no
status of a plan or an item and no reservation. -/
theorem reading_a_plan_changes_nothing {executor : Bool} {db : DB} {ls : List (Label Task)} {s s' : Config Resp Task World}
    {l : Label Task} {t : Task} {c : Call}
    (hr : Run (panels executor).next (fun s l => calmReads executor s l = true) ⟨{ db := db }, []⟩ ls s)
    (hn : (panels executor).next s l = some s') (hsends : s.sends l = some (t, c)) (ht : t.reads = true) :
    s'.world = s.world := by
  obtain ⟨-, hinv⟩ := (reading_inv executor).run ⟨trivial, fun _ h => absurd h List.not_mem_nil⟩ hr
  obtain ⟨k, hk⟩ := Config.sends_mem hsends
  obtain ⟨m, hm, -⟩ := (hinv _ hk).2 ht
  obtain hw | ⟨d, hw⟩ | ⟨t', c', hsends', hw⟩ := System.next_world hn
  · exact hw
  · exact hw
  · cases hsends'.symm.trans hsends
    rw [hw]
    exact sight_world executor hm.1 s.world

theorem reading_a_plan_changes_nothing_restored : ∃ s s' : Config Resp Task World,
    s.world.planStatus "p" = some .executing ∧ (s.world.items "p").map (·.status) = [.restored, .skipped] ∧
    s'.world = s.world := by
  obtain ⟨s, hs, hplan, hitems, hsends, s', hnext, -⟩ : ∃ s, Run (panels true).next (fun s l => calmReads true s l = true)
      ⟨{ db := twoServers }, []⟩ (.start (.execute "p") :: List.replicate 6 (.call 0 .delivered) ++
        .start (.getPlan "p") :: List.replicate 3 (.call 1 .delivered)) s ∧
      s.world.planStatus "p" = some .executing ∧ (s.world.items "p").map (·.status) = [.restored, .skipped] ∧
      (s.sends (.call 1 .delivered)).any (fun x => x.1.reads) = true ∧
      ∃ s', (panels true).next s (.call 1 .delivered) = some s' ∧ True := by decide +kernel
  obtain ⟨⟨t, c⟩, hsends, ht⟩ := (Option.any_eq_true _ _).mp hsends
  exact ⟨s, s', hplan, hitems, reading_a_plan_changes_nothing hs hnext hsends ht⟩

/-- `GetPlan` during a restore: the plan and the item are failed and the reservation is
cancelled, while the restore goes on. -/
theorem reading_fails_a_running_plan : ∃ s s' : Config Resp Task World,
    Run (panels true).next (fun _ _ => True) ⟨{ db := twoServers }, []⟩
      (.start (.execute "p") :: List.replicate 4 (.call 0 .delivered)) s ∧
    Run (panels true).next (fun _ _ => True) s (.start (.getPlan "p") :: List.replicate 11 (.call 1 .delivered)) s' ∧
    s.world.restoring = ["a"] ∧ s'.world.restoring = ["a"] ∧
    s.world.planStatus "p" = some .executing ∧ s'.world.planStatus "p" = some .failed ∧
    (s.world.items "p").map (·.status) = [.executing, .skipped] ∧ (s'.world.items "p").map (·.status) = [.failed, .skipped] ∧
    s.world.db.placementReservations.map (·.status) = [.active] ∧
    s'.world.db.placementReservations.map (·.status) = [.cancelled] := by
  simp only [exists_and_left]
  decide +kernel

end ForgePlane.Coordinator
