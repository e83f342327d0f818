import ForgePlane.Batches

/-!
# Rounds and cancellations

A driver that has found its plan running goes on with what it read until it sleeps or
ends, and `CancelPlan` asks the migrations of the items it has read before it closes the
plan.
-/

namespace ForgePlane.Evacuation

/-- A driver in a round has found its plan running; a cancellation has read the items and still has
to ask the migrations in `todo`. -/
inductive Phase where
  | resting
  | round (planID : String)
  | cancelling (planID : String) (todo : List Nat)

def Phase.isCancelling : Phase → Bool
  | .cancelling .. => true
  | _ => false

def activeMigrations (items : List Item) : List Nat := items.filterMap fun i => if i.isActive then i.migrationID else none

variable {item : Item}

theorem activeMigrations_cons {id : Nat} (items : List Item) (hactive : item.isActive = true)
    (hid : item.migrationID = some id) : activeMigrations (item :: items) = id :: activeMigrations items := by
  simp [activeMigrations, hactive, hid]

theorem activeMigrations_skip (items : List Item) (h : item.isActive = true → item.migrationID = none) :
    activeMigrations (item :: items) = activeMigrations items := by
  cases hactive : item.isActive with
  | true => simp [activeMigrations, hactive, h hactive]
  | false => simp [activeMigrations, hactive]

def Call.calm : Call → Bool
  | .sleep => true
  | .startPlan _ => true
  | .planRow _ acts => !acts
  | .planItems _ acts => !acts
  | .setMigration .. => true
  | _ => false

def Call.cancels : Call → Bool
  | .cancelMigration _ => true
  | .cancelPlan _ => true
  | _ => false

variable {c : Call}

theorem Call.cancels_of_calm (h : c.calm = true) : c.cancels = false := by
  cases c with
  | cancelMigration | cancelPlan => cases h
  | _ => rfl

def rounds (drives : Bool) (plan : String) : Monitor Resp Phase where
  admits m
    | .startPlan planID => drives = true ∧ planID = plan
    | .planRow planID true => m.isCancelling = false ∧ planID = plan
    | .planItems planID true => m.isCancelling = false ∧ planID = plan
    | .setPlan planID status => m = .round plan ∧ planID = plan ∧ status ≠ .cancelled
    | .setItem .. => m = .round plan
    | .createMigration _ => m = .round plan
    | .prepareMigration _ => m = .round plan
    | .executeMigration _ => m = .round plan
    | .migrationStatus _ => m = .round plan
    | .cancelMigration id => ∃ todo, m = .cancelling plan (id :: todo)
    | .cancelPlan planID => m = .cancelling plan [] ∧ planID = plan
    | _ => True
  expects _ c r :=
    match c, r with
    | .planRow planID true, .ok row => row.id = planID
    | _, _ => True
  next m c r :=
    match c, r with
    | .startPlan planID, .ok true => .round planID
    | .planRow planID true, .ok row => if drives && row.status = .running then .round planID else m
    | .planRow _ true, .error _ => m
    | .planItems planID true, .ok items => if drives then m else .cancelling planID (activeMigrations items)
    | .planItems _ true, .error _ => m
    | .cancelMigration _, .ok _ =>
      match m with
      | .cancelling planID (_ :: todo) => .cancelling planID todo
      | m => m
    | .setPlan .., _ => m
    | .setItem .., _ => m
    | .createMigration _, _ => m
    | .prepareMigration _, _ => m
    | .executeMigration _, _ => m
    | .migrationStatus _, _ => m
    | _, _ => .resting

section
variable {drives : Bool} {plan planID : String}

def Call.Reads (c : Call) : Prop := c.calm = true ∧ ∀ planID, c ≠ .startPlan planID

variable {α : Type} {p : Action α} {m : Phase} {t : Task}

theorem wp_reads (hp : All Call.Reads p) :
    wp (rounds drives plan) p (fun _ _ => True) m := by
  refine All.keeps (hp.mono fun c hc m _ => ?_) trivial
  obtain ⟨hc, hstart⟩ := hc
  cases c with
  | startPlan planID => exact absurd rfl (hstart planID)
  | planRow planID acts =>
    cases acts with
    | true => cases hc
    | false => exact ⟨trivial, fun _ _ => trivial⟩
  | planItems planID acts =>
    cases acts with
    | true => cases hc
    | false => exact ⟨trivial, fun _ _ => trivial⟩
  | sleep | setMigration => exact ⟨trivial, fun _ _ => trivial⟩
  | _ => cases hc

theorem reads_getEvacuationPlan (planID : String) : All Call.Reads (getEvacuationPlan planID false) := by
  refine All.ok ⟨⟨rfl, nofun⟩, fun _ => trivial⟩ fun row => ?_
  refine ⟨⟨rfl, nofun⟩, fun r => ?_⟩
  cases r <;> trivial

theorem wp_items (hp : All (fun c => c.isItem = true) p) :
    wp (rounds drives plan) p (fun _ m => m = .round plan) (.round plan) := by
  refine All.keeps (hp.mono fun c hc m hm => ?_) rfl
  cases c with
  | setItem | createMigration | prepareMigration | executeMigration | migrationStatus => exact ⟨hm, fun _ _ => hm⟩
  | _ => cases hc

theorem items_startItems : ∀ (items : List Item) (active : Nat), All (fun c => c.isItem = true) (startItems active items)
  | [], _ => trivial
  | item :: items, active => by
    unfold startItems
    split
    · trivial
    split
    · exact items_startItems items active
    split
    · exact ⟨rfl, forall_result (fun _ => items_startItems items active) fun _ => trivial⟩
    refine All.ok ⟨rfl, fun _ => trivial⟩ (fun migrationID => ?_) fun _ => ⟨rfl, forall_result (fun _ => items_startItems items active) fun _ => trivial⟩
    refine All.ok ⟨rfl, fun _ => trivial⟩ fun _ => ?_
    refine All.ok ⟨rfl, fun _ => trivial⟩ (fun _ => ?_) fun _ => ⟨rfl, forall_result (fun _ => items_startItems items active) fun _ => trivial⟩
    refine All.ok ⟨rfl, fun _ => trivial⟩ (fun _ => ?_) fun _ => ⟨rfl, forall_result (fun _ => items_startItems items active) fun _ => trivial⟩
    exact ⟨rfl, forall_result (fun _ => items_startItems items (active + 1)) fun _ => trivial⟩

theorem items_reconcileItems : ∀ items : List Item, All (fun c => c.isItem = true) (reconcileItems items)
  | [] => trivial
  | item :: items => by
    unfold reconcileItems
    split
    · exact items_reconcileItems items
    split
    · exact items_reconcileItems items
    refine ⟨rfl, forall_result (fun status => ?_) fun _ => ⟨rfl, fun _ => trivial⟩⟩
    simp [Prog.bind]
    split
    · exact items_reconcileItems items
    refine All.ok ⟨rfl, fun _ => trivial⟩ fun _ => ?_
    exact items_reconcileItems items

theorem wp_round (planID : String) (hm : m = .resting ∨ m = .round planID) :
    wp (rounds true planID) (getEvacuationPlan planID true) (fun r m' => ∀ plan, r = .ok plan → plan.1.id = planID ∧
      (m = .round planID ∨ plan.1.status = .running → m' = .round planID)) m := by
  have hcalm : m.isCancelling = false := by obtain rfl | rfl := hm <;> rfl
  refine ⟨⟨hcalm, rfl⟩, forall_result (fun row hr => ?_) fun _ _ => nofun⟩
  have hnext : (rounds true planID).next m (.planRow planID true) (.ok row) =
      if row.status = .running then .round planID else m := by simp [rounds]
  change wp (rounds true planID) _ _ ((rounds true planID).next m (.planRow planID true) (.ok row))
  rw [hnext]
  refine ⟨⟨by split <;> first | rfl | exact hcalm, rfl⟩, forall_result (fun items _ => ?_) fun _ _ => nofun⟩
  rintro plan h
  cases h
  refine ⟨hr, fun h => ?_⟩
  by_cases hrun : row.status = .running
  · simp [rounds, hrun]
  · obtain rfl | h := h
    · simp [rounds, hrun]
    · exact absurd h hrun

def Phase.Of (drives : Bool) (plan : String) : Phase → Prop
  | .resting => True
  | .round planID => drives = true ∧ planID = plan
  | .cancelling planID _ => drives = false ∧ planID = plan

structure Phased (x : Task × Action Unit) (m : Phase) : Prop where
  follows : wp (rounds x.1.drives x.1.planID) x.2 (fun _ _ => True) m
  of : m.Of x.1.drives x.1.planID
  round : ∀ planID, m = .round planID → ∃ c k, x.2 = .call c k ∧ c.calm = false
  cancelling : ∀ planID todo, m = .cancelling planID todo → ∃ c k, x.2 = .call c k ∧ c.cancels = true

theorem wp_setPlan {status : PlanStatus} (hstatus : status ≠ .cancelled) :
    wp (rounds drives planID) (updateEvacuationPlanStatus planID status) (fun _ _ => True) (.round planID) := by
  exact ⟨⟨rfl, rfl, hstatus⟩, forall_result fun _ _ => wp_reads (reads_getEvacuationPlan planID)⟩

theorem wp_failPlan (planID : String) : wp (rounds drives planID) (failPlan planID) (fun _ _ => True) (.round planID) := by
  refine wp_ok (wp_setPlan nofun) fun _ m _ => ?_
  exact wp_reads (reads_getEvacuationPlan planID)

theorem rounds_executePlan (planID : String) : wp (rounds true planID) (executePlan planID) (fun _ _ => True) .resting := by
  refine wp_seq (wp_ask ⟨rfl, rfl⟩ (forall_result fun started _ => ?_))
  cases started with
  | false =>
    refine wp_then (wp_reads (reads_getEvacuationPlan planID)) fun r m _ => ?_
    cases r <;> trivial
  | true =>
    refine wp_ok (wp_round planID (.inr rfl)) fun plan m hplan => ?_
    obtain rfl := (hplan plan rfl).2 (.inl rfl)
    refine wp_then (wp_items (items_startItems plan.2 _)) fun r m hm => ?_
    subst hm
    cases r with
    | error => exact wp_failPlan planID
    | ok => exact wp_reads (reads_getEvacuationPlan planID)

theorem rounds_observePlan (planID : String) : ∀ n : Nat, wp (rounds true planID) (observePlan planID n) (fun _ _ => True) .resting
  | 0 => trivial
  | n + 1 => by
    refine wp_ok (wp_round planID (.inl rfl)) fun plan m hplan => ?_
    dsimp only
    split
    · trivial
    rename_i hrun
    obtain rfl := (hplan plan rfl).2 (.inr (by simpa using hrun))
    refine wp_then (wp_items (items_reconcileItems plan.2)) fun r m hm => ?_
    subst hm
    cases r with
    | error => exact wp_then (wp_failPlan planID) fun _ _ _ => trivial
    | ok =>
    refine wp_ok (wp_round planID (.inr rfl)) fun plan m hplan => ?_
    obtain ⟨rfl, hround⟩ := hplan plan rfl
    obtain rfl := hround (.inl rfl)
    dsimp only
    split
    · refine wp_then (wp_setPlan ?_) fun _ _ _ => trivial
      split <;> exact nofun
    refine wp_then (wp_items (items_startItems plan.2 _)) fun r m hm => ?_
    subst hm
    cases r with
    | error => exact wp_then (wp_failPlan _) fun _ _ _ => trivial
    | ok => exact ⟨trivial, fun _ _ => rounds_observePlan _ n⟩

theorem rounds_cancelItems : ∀ items : List Item, wp (rounds false plan) (cancelItems items)
    (fun r m => r = .ok () → m = .cancelling plan []) (.cancelling plan (activeMigrations items))
  | [] => fun _ => rfl
  | item :: items => by
    unfold cancelItems
    split
    · rename_i hactive
      rw [activeMigrations_skip items fun h => by simp [h] at hactive]
      exact rounds_cancelItems items
    rename_i hactive
    split
    · rename_i hid
      rw [activeMigrations_skip items fun _ => hid]
      exact rounds_cancelItems items
    · rename_i id hid
      rw [activeMigrations_cons items (by simpa using hactive) hid]
      exact ⟨⟨_, rfl⟩, forall_result (fun _ _ => rounds_cancelItems items) fun _ _ => nofun⟩

theorem rounds_cancelPlan (planID : String) : wp (rounds false planID) (cancelPlan planID) (fun _ _ => True) .resting := by
  refine wp_ask ⟨rfl, rfl⟩ (forall_result fun row _ => ?_)
  refine wp_ask ⟨rfl, rfl⟩ (forall_result fun items _ => ?_)
  change wp (rounds false planID) (if row.status ≠ .running then _ else _) _ (.cancelling planID (activeMigrations items))
  split
  · trivial
  refine wp_ok (rounds_cancelItems items) fun _ m hm => ?_
  obtain rfl := hm rfl
  refine ⟨⟨rfl, rfl⟩, fun r _ => ?_⟩
  match r with
  | .error e => trivial
  | .ok false => trivial
  | .ok true => exact wp_reads (reads_getEvacuationPlan planID)

theorem rounds_program (t : Task) : wp (rounds t.drives t.planID) t.program (fun _ _ => True) .resting := by
  cases t with
  | execute planID => exact wp_then (rounds_executePlan planID) fun _ _ _ => trivial
  | observe process planID n => exact rounds_observePlan planID n
  | cancel planID => exact wp_then (rounds_cancelPlan planID) fun _ _ _ => trivial
  | progress => exact ⟨trivial, fun _ _ => trivial⟩

theorem phased_resting {p : Action Unit} (h : wp (rounds t.drives t.planID) p (fun _ _ => True) .resting) :
    Phased (t, p) .resting := ⟨h, trivial, nofun, nofun⟩

theorem rounds_rest (h : (rounds drives plan).admits m c)
    (hc : c.calm = true ∨ m.isCancelling = true) : c.cancels = true ∨
      ((rounds drives plan).admits .resting c ∧ ∀ r, (rounds drives plan).next m c r = (rounds drives plan).next .resting c r) := by
  cases c with
  | cancelMigration | cancelPlan => exact .inl rfl
  | startPlan => exact .inr ⟨h, fun r => by cases r with | error e => rfl | ok b => cases b <;> rfl⟩
  | sleep | setMigration => exact .inr ⟨trivial, fun _ => rfl⟩
  | planRow planID acts =>
    cases acts with
    | false => exact .inr ⟨trivial, fun _ => rfl⟩
    | true =>
      obtain hc | hc := hc
      · cases hc
      · exact absurd (h.1.symm.trans hc) Bool.false_ne_true
  | planItems planID acts =>
    cases acts with
    | false => exact .inr ⟨trivial, fun _ => rfl⟩
    | true =>
      obtain hc | hc := hc
      · cases hc
      · exact absurd (h.1.symm.trans hc) Bool.false_ne_true
  | setPlan =>
    obtain ⟨rfl, -⟩ := h
    obtain hc | hc := hc <;> cases hc
  | setItem | createMigration | prepareMigration | executeMigration | migrationStatus => obtain rfl : m = .round plan := h; obtain hc | hc := hc <;> cases hc

theorem phased_of_wp {p : Action Unit} (hwp : wp (rounds t.drives t.planID) p (fun _ _ => True) m)
    (hof : m.Of t.drives t.planID) : ∃ m', Phased (t, p) m' ∧ (m' = m ∨ m' = .resting) := by
  cases p with
  | ret => exact ⟨.resting, phased_resting trivial, .inr rfl⟩
  | call c k =>
    have rest : (rounds t.drives t.planID).admits .resting c ∧
        (∀ r, (rounds t.drives t.planID).next m c r = (rounds t.drives t.planID).next .resting c r) →
        ∃ m', Phased (t, .call c k) m' ∧ (m' = m ∨ m' = .resting) := by
      rintro ⟨hadmits, hnext⟩
      refine ⟨.resting, phased_resting ⟨hadmits, fun r hr => ?_⟩, .inr rfl⟩
      rw [← hnext]
      exact hwp.2 r hr
    cases m with
    | resting => exact ⟨.resting, phased_resting hwp, .inl rfl⟩
    | round =>
      by_cases hc : c.calm = true
      · obtain hcancels | hrest := rounds_rest hwp.1 (.inl hc)
        · exact absurd ((Call.cancels_of_calm hc).symm.trans hcancels) Bool.false_ne_true
        · exact rest hrest
      · exact ⟨_, ⟨hwp, hof, fun _ _ => ⟨c, k, rfl, by simpa using hc⟩, nofun⟩, .inl rfl⟩
    | cancelling =>
      obtain hcancels | hrest := rounds_rest hwp.1 (.inr rfl)
      · exact ⟨_, ⟨hwp, hof, nofun, fun _ _ _ => ⟨c, k, rfl, hcancels⟩⟩, .inl rfl⟩
      · exact rest hrest

theorem rounds_of {r : Resp c} (h : (rounds drives plan).admits m c) (hm : m.Of drives plan) :
    ((rounds drives plan).next m c r).Of drives plan := by
  cases c with
  | startPlan =>
    match r with
    | .error e => trivial
    | .ok false => trivial
    | .ok true => exact h
  | planRow planID acts =>
    cases acts with
    | false => trivial
    | true =>
      cases r with
      | error => exact hm
      | ok =>
        simp only [rounds]
        split
        · rename_i hrun
          exact ⟨(Bool.and_eq_true_iff.mp hrun).1, h.2⟩
        · exact hm
  | planItems planID acts =>
    cases acts with
    | false => trivial
    | true =>
      cases r with
      | error => exact hm
      | ok =>
        simp only [rounds]
        split
        · exact hm
        · rename_i hdrives
          exact ⟨by simpa using hdrives, h.2⟩
  | cancelMigration =>
    obtain ⟨todo, rfl⟩ := h
    cases r with
    | error => trivial
    | ok => exact hm
  | setPlan | setItem | createMigration | prepareMigration | executeMigration | migrationStatus => exact hm
  | cancelPlan | setMigration | sleep => trivial

theorem Phased.call {k : Resp c → Action Unit} (h : Phased (t, .call c k) m) (r : Resp c)
    (hr : (rounds t.drives t.planID).expects m c r) :
    ∃ m', Phased (t, k r) m' ∧ (m' = (rounds t.drives t.planID).next m c r ∨ m' = .resting) :=
  phased_of_wp (h.follows.2 r hr) (rounds_of h.follows.1 h.of)

end

end ForgePlane.Evacuation
