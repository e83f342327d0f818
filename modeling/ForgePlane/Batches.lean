import ForgePlane.Evacuation

/-!
# What a driver of an evacuation plan knows

`ExecutePlan` and the observers drive a plan: each works through the items it has read, whose rows it knows
exactly as long as nobody else writes them.
-/

namespace ForgePlane.Evacuation

structure Batch where
  planID : String
  known : List Item
  fresh : Option Nat := none
  ended : List Nat := []

inductive Work where
  | idle
  | batch (b : Batch)
  | record (b : Batch) (itemID : String)

def Work.Recording : Work → Prop
  | .record .. => True
  | _ => False

def setRow (itemID : String) (migrationID : Option Nat) (status : ItemStatus) (error : Option Err) (rows : List Item) :
    List Item :=
  updateWhere (fun i => i.id = itemID) (Item.set migrationID status error) rows

namespace Batch

def set (b : Batch) (itemID : String) (migrationID : Option Nat) (status : ItemStatus) (error : Option Err) : Batch :=
  { b with known := setRow itemID migrationID status error b.known }

def Records (b : Batch) (migrationID : Option Nat) (status : ItemStatus) : Prop :=
  migrationID = b.fresh ∧ status = if migrationID.isSome then .preparing else .failed

/-- The other changes of a row. Where `strict`, the migration of an item that is settled has ended or was not
executed. -/
def Settles (strict : Bool) (b : Batch) (row : Item) (migrationID : Option Nat) (status : ItemStatus) : Prop :=
  (row.status = .pending ∧ migrationID = none ∧ status = .failed) ∨
  (row.isActive = true ∧ row.migrationID = migrationID ∧
    (status = .running ∨ ((status = .completed ∨ status = .failed) ∧
      ∃ id, migrationID = some id ∧ (strict = true → id ∈ b.ended ∨ b.fresh = some id))))

end Batch

def Call.isItem : Call → Bool
  | .setItem .. => true
  | .createMigration _ => true
  | .prepareMigration _ => true
  | .executeMigration _ => true
  | .migrationStatus _ => true
  | _ => false

variable {error : Option Err} {itemID : String} {migrationID : Option Nat}

section
variable (strict : Bool) (plan : String)

def works : Monitor Resp Work where
  admits m
    | .createMigration item => ∃ b, m = .batch b ∧ item ∈ b.known ∧ item.status = .pending ∧
        activeCount b.known < maxConcurrentEvacuationMigrations
    | .setItem itemID migrationID status _ => (∃ b, m = .record b itemID ∧ b.Records migrationID status) ∨
        ∃ b, m = .batch b ∧ ∃ row ∈ b.known, row.id = itemID ∧ b.Settles strict row migrationID status
    | .prepareMigration _ => ∃ b, m = .batch b
    | .executeMigration id => ∃ b, m = .batch b ∧ ∃ row ∈ b.known, row.migrationID = some id ∧ row.isActive = true
    | .migrationStatus id => ∃ b, m = .batch b ∧ ∃ row ∈ b.known, row.migrationID = some id
    | .planItems planID true => ¬ m.Recording ∧ planID = plan
    | _ => ¬ m.Recording
  expects _ c r :=
    match c, r with
    | .planItems planID true, .ok items => (items.map (·.id)).Nodup ∧ ∀ i ∈ items, i.planID = planID
    | .migrationStatus _, .error _ => strict = false
    | _, _ => True
  next m c r :=
    match c, r with
    | .createMigration item, r =>
      match m with
      | .batch b => .record { b with fresh := r.toOption } item.id
      | m => m
    | .setItem itemID migrationID status error, .ok _ =>
      match m with
      | .batch b => .batch (b.set itemID migrationID status error)
      | .record b _ => .batch (b.set itemID migrationID status error)
      | .idle => .idle
    | .prepareMigration _, _ => m
    | .executeMigration _, .ok _ =>
      match m with
      | .batch b => .batch { b with fresh := none }
      | m => m
    | .executeMigration _, .error _ => m
    | .migrationStatus id, .ok status =>
      match m with
      | .batch b => if status.terminal then .batch { b with ended := id :: b.ended } else m
      | m => m
    | .migrationStatus _, .error _ => m
    | .planItems planID true, .ok items => .batch { planID := planID, known := items }
    | _, _ => .idle

variable {strict plan}

section
variable {item row : Item} {items known : List Item}

structure Rest (items known : List Item) : Prop where
  nodup : (items.map (·.id)).Nodup
  unique : (known.map (·.id)).Nodup
  read : ∀ i ∈ items, i ∈ known

theorem Rest.tail (h : Rest (item :: items) known) : Rest items known :=
  ⟨(List.nodup_cons.mp h.nodup).2, h.unique, fun i hi => h.read i (List.mem_cons_of_mem _ hi)⟩

theorem Rest.new (h : Rest (item :: items) known) : item.id ∉ items.map (·.id) := (List.nodup_cons.mp h.nodup).1

theorem setRow_ids (itemID : String) (migrationID : Option Nat) (status : ItemStatus) (error : Option Err) (rows : List Item) :
    (setRow itemID migrationID status error rows).map (·.id) = rows.map (·.id) :=
  map_key_updateWhere _ _ fun _ => rfl

theorem Rest.set (h : Rest items known) (hnew : itemID ∉ items.map (·.id)) (migrationID : Option Nat) (status : ItemStatus)
    (error : Option Err) : Rest items (setRow itemID migrationID status error known) where
  nodup := h.nodup
  read i hi := by
    refine mem_updateWhere.mpr ⟨i, h.read i hi, if_neg ?_⟩
    simp
    exact fun he => hnew (List.mem_map.mpr ⟨i, hi, he⟩)
  unique := by
    rw [setRow_ids]
    exact h.unique

theorem mem_setRow (h : row ∈ known) (migrationID : Option Nat) (status : ItemStatus) (error : Option Err) :
    Item.set migrationID status error row ∈ setRow row.id migrationID status error known :=
  mem_updateWhere.mpr ⟨row, h, by simp⟩

theorem activeCount_setRow (h : (known.map (·.id)).Nodup) (hrow : row ∈ known) (migrationID : Option Nat) (status : ItemStatus)
    (error : Option Err) :
    activeCount (setRow row.id migrationID status error known) + (if row.isActive then 1 else 0) =
      activeCount known + (if status.isActive then 1 else 0) :=
  countP_updateAt Item.isActive (Item.set migrationID status error) h hrow

section
variable (status : ItemStatus)

variable (h : (known.map (·.id)).Nodup)
include h

variable (hrow : row ∈ known)
include hrow

theorem activeCount_same (hs : row.isActive = status.isActive) :
    activeCount (setRow row.id migrationID status error known) = activeCount known := by
  have := activeCount_setRow h hrow migrationID status error
  rw [hs] at this
  omega

theorem activeCount_start (hr : row.isActive = false)
    (hs : status.isActive = true) : activeCount (setRow row.id migrationID status error known) = activeCount known + 1 := by
  have := activeCount_setRow h hrow migrationID status error
  simpa [hr, hs] using this

theorem activeCount_settle (hr : row.isActive = true)
    (hs : status.isActive = false) : activeCount (setRow row.id migrationID status error known) + 1 = activeCount known := by
  have := activeCount_setRow h hrow migrationID status error
  simpa [hr, hs] using this

end

end

/-! ## Starting items -/

variable {m : Work} {t : Task} {c : Call} {k : Resp c → Action Unit}

theorem wp_setItem {status : ItemStatus}
    (hm : (works strict plan).admits m (.setItem itemID migrationID status error)) {f : Except Err Unit → Action (Except Err Unit)}
    (hstop : ∀ e, f (.error e) = pure (.error e))
    (h : wp (works strict plan) (f (.ok ())) (fun _ m => ¬ m.Recording)
      ((works strict plan).next m (.setItem itemID migrationID status error) (.ok ()))) :
    wp (works strict plan) (updateEvacuationItemExecution itemID migrationID status error >>= f) (fun _ m => ¬ m.Recording) m := by
  refine wp_ask hm fun r _ => ?_
  cases r with
  | error =>
    rw [hstop]
    exact fun h => h
  | ok => exact h

theorem wp_startItems : ∀ (items : List Item) (active : Nat) (b : Batch), Rest items b.known → active = activeCount b.known →
    wp (works strict plan) (startItems active items) (fun _ m => ¬ m.Recording) (.batch b)
  | [], _, _, _, _ => fun h => h
  | item :: items, active, b, hrest, hactive => by
    have hitem := hrest.read item List.mem_cons_self
    unfold startItems
    split
    · exact fun h => h
    rename_i hslot
    split
    · exact wp_startItems items active b hrest.tail hactive
    rename_i hpending
    have hpending : item.status = .pending := by
      simp at hpending
      exact hpending.2
    have hinactive : item.isActive = false := by rw [Item.isActive, hpending]; rfl
    split
    · -- no target: the item is failed and takes no slot
      refine wp_setItem (.inr ⟨b, rfl, item, hitem, rfl, .inl ⟨hpending, rfl, rfl⟩⟩) (fun _ => rfl) ?_
      refine wp_startItems items active _ (hrest.tail.set hrest.new _ _ _) ?_
      exact hactive.trans (activeCount_same .failed hrest.unique hitem hinactive).symm
    refine wp_ask ⟨b, rfl, hitem, hpending, Nat.lt_of_not_le (hactive ▸ hslot)⟩ fun r _ => ?_
    cases r with
    | error =>
      refine wp_setItem (.inl ⟨_, rfl, rfl, rfl⟩) (fun _ => rfl) ?_
      refine wp_startItems items active _ (hrest.tail.set hrest.new _ _ _) ?_
      exact hactive.trans (activeCount_same .failed hrest.unique hitem hinactive).symm
    | ok migrationID =>
    refine wp_setItem (.inl ⟨_, rfl, rfl, rfl⟩) (fun _ => rfl) ?_
    -- the item is preparing from here on and takes a slot
    have hrest₁ := hrest.tail.set hrest.new (some migrationID) .preparing none
    have hrow := mem_setRow hitem (some migrationID) .preparing none
    have hcount : activeCount (setRow item.id (some migrationID) .preparing none b.known) = active + 1 := by
      rw [hactive]
      exact activeCount_start .preparing hrest.unique hitem hinactive rfl
    have hfailed : ∀ error, active = activeCount (setRow item.id (some migrationID) .failed error
        (setRow item.id (some migrationID) .preparing none b.known)) := fun error =>
      Nat.succ.inj (hcount.symm.trans (activeCount_settle .failed hrest₁.unique hrow rfl rfl).symm)
    change wp (works strict plan) _ _ (.batch (Batch.set { b with fresh := some migrationID } item.id (some migrationID) .preparing none))
    refine wp_ask ⟨_, rfl⟩ fun r _ => ?_
    cases r with
    | error =>
      refine wp_setItem (.inr ⟨_, rfl, Item.set (some migrationID) .preparing none item, hrow, rfl, ?_⟩) (fun _ => rfl) ?_
      · exact .inr ⟨rfl, rfl, .inr ⟨.inr rfl, migrationID, rfl, fun _ => .inr rfl⟩⟩
      · exact wp_startItems items active _ (hrest₁.set hrest.new _ _ _) (hfailed _)
    | ok =>
    refine wp_ask ⟨_, rfl, _, hrow, rfl, rfl⟩ fun r _ => ?_
    cases r with
    | error =>
      refine wp_setItem (.inr ⟨_, rfl, Item.set (some migrationID) .preparing none item, hrow, rfl, ?_⟩) (fun _ => rfl) ?_
      · exact .inr ⟨rfl, rfl, .inr ⟨.inr rfl, migrationID, rfl, fun _ => .inr rfl⟩⟩
      · exact wp_startItems items active _ (hrest₁.set hrest.new _ _ _) (hfailed _)
    | ok =>
      refine wp_setItem (.inr ⟨_, rfl, Item.set (some migrationID) .preparing none item, hrow, rfl, ?_⟩) (fun _ => rfl) ?_
      · exact .inr ⟨rfl, rfl, .inl rfl⟩
      refine wp_startItems items (active + 1) _ (hrest₁.set hrest.new _ _ _) ?_
      exact hcount.symm.trans (activeCount_same .running hrest₁.unique hrow rfl).symm

/-! ## Settling items -/

theorem wp_reconcileItems : ∀ (items : List Item) (b : Batch), Rest items b.known →
    wp (works strict plan) (reconcileItems items) (fun _ m => ¬ m.Recording) (.batch b)
  | [], _, _ => fun h => h
  | item :: items, b, hrest => by
    have hitem := hrest.read item List.mem_cons_self
    unfold reconcileItems
    split
    · exact wp_reconcileItems items b hrest.tail
    rename_i hactive
    have hactive : item.isActive = true := by simpa using hactive
    split
    · exact wp_reconcileItems items b hrest.tail
    rename_i migrationID hid
    refine wp_ask ⟨b, rfl, item, hitem, hid⟩ fun r hr => ?_
    cases r with
    | error =>
      -- where this can happen, nothing is asked of the migration
      have hlax : strict = false := hr
      refine ⟨.inr ⟨b, rfl, item, hitem, rfl, .inr ⟨hactive, hid, .inr ⟨.inr rfl, migrationID, rfl, fun h => ?_⟩⟩⟩, fun r _ => ?_⟩
      · rw [hlax] at h
        cases h
      · cases r <;> exact fun h => h
    | ok status =>
    cases hout : evacuationMigrationOutcome status with
    | none =>
      have hopen : status.terminal = false := by cases status <;> first | rfl | cases hout
      have hnext : (works strict plan).next (.batch b) (.migrationStatus migrationID) (.ok status) = .batch b := by
        simp [works, hopen]
      rw [hnext]
      simp [hout]
      exact wp_reconcileItems items b hrest.tail
    | some outcome =>
      have hended : status.terminal = true := by cases status <;> first | rfl | cases hout
      have hsettled : outcome = .completed ∨ outcome = .failed := by
        cases status <;> cases hout
        · exact .inl rfl
        · exact .inr rfl
        · exact .inr rfl
      have hnext : (works strict plan).next (.batch b) (.migrationStatus migrationID) (.ok status) =
          .batch { b with ended := migrationID :: b.ended } := by simp [works, hended]
      rw [hnext]
      simp [hout]
      refine wp_setItem (.inr ⟨{ b with ended := migrationID :: b.ended }, rfl, item, hitem, rfl, ?_⟩) (fun _ => rfl) ?_
      · exact .inr ⟨hactive, hid, .inr ⟨hsettled, migrationID, rfl, fun _ => .inl List.mem_cons_self⟩⟩
      · exact wp_reconcileItems items _ (hrest.tail.set hrest.new _ _ _)

/-! ## The programs -/

def Call.Apart (c : Call) : Prop := c.isItem = false ∧ ∀ planID, c ≠ .planItems planID true

theorem wp_apart {α : Type} {p : Action α} (hp : All Call.Apart p) (hm : ¬ m.Recording) :
    wp (works strict plan) p (fun _ m => ¬ m.Recording) m := by
  refine All.keeps (hp.mono fun c hc m hm => ?_) hm
  obtain ⟨hc, hread⟩ := hc
  cases c with
  | setItem | createMigration | prepareMigration | executeMigration | migrationStatus => cases hc
  | planItems planID acts =>
    cases acts with
    | true => exact absurd rfl (hread planID)
    | false => exact ⟨hm, fun r _ h => h⟩
  | _ => exact ⟨hm, fun r _ h => h⟩

theorem apart_getEvacuationPlan (planID : String) : All Call.Apart (getEvacuationPlan planID false) := by
  refine All.ok ⟨⟨rfl, nofun⟩, fun _ => trivial⟩ (fun row => ?_) fun _ => trivial
  refine ⟨⟨rfl, nofun⟩, fun r => ?_⟩
  cases r <;> trivial

theorem apart_updateEvacuationPlanStatus (planID : String) (status : PlanStatus) :
    All Call.Apart (updateEvacuationPlanStatus planID status) := by
  refine All.ok ⟨⟨rfl, nofun⟩, fun _ => trivial⟩ (fun _ => ?_) fun _ => trivial
  exact apart_getEvacuationPlan planID

theorem apart_failPlan (planID : String) : All Call.Apart (failPlan planID) := by
  refine (apart_updateEvacuationPlanStatus planID .failed).ok (fun _ => ?_) fun _ => trivial
  exact apart_getEvacuationPlan planID

theorem apart_cancelItems : ∀ items, All Call.Apart (cancelItems items)
  | [] => trivial
  | item :: items => by
    unfold cancelItems
    split
    · exact apart_cancelItems items
    split
    · exact apart_cancelItems items
    refine All.ok ⟨⟨rfl, nofun⟩, fun _ => trivial⟩ (fun _ => ?_) fun _ => trivial
    exact apart_cancelItems items

theorem apart_cancelEvacuationPlan (planID : String) : All Call.Apart (cancelEvacuationPlan planID) := by
  refine ⟨⟨rfl, nofun⟩, fun r => ?_⟩
  match r with
  | .error e => trivial
  | .ok false => trivial
  | .ok true => exact apart_getEvacuationPlan planID

theorem wp_getEvacuationPlan (planID : String) (hm : ¬ m.Recording) :
    wp (works strict planID) (getEvacuationPlan planID true) (fun r m => ¬ m.Recording ∧ ∀ plan, r = .ok plan →
      ∃ b : Batch, m = .batch b ∧ b.planID = planID ∧ b.known = plan.2 ∧ Rest plan.2 b.known) m := by
  refine ⟨hm, forall_result (fun row _ => ?_) fun _ _ => ⟨fun h => h, nofun⟩⟩
  refine ⟨⟨fun h => h, rfl⟩, forall_result (fun items hr => ?_) fun _ _ => ⟨fun h => h, nofun⟩⟩
  refine ⟨fun h => h, fun plan h => ?_⟩
  cases h
  exact ⟨{ planID := planID, known := items }, rfl, rfl, rfl, hr.1, hr.1, fun _ h => h⟩

theorem wp_startAvailableItems {planID : String} {plan : Plan} {b : Batch} (hknown : b.known = plan.2)
    (hrest : Rest plan.2 b.known) : wp (works strict planID) (startAvailableItems plan) (fun _ m => ¬ m.Recording) (.batch b) :=
  wp_startItems plan.2 _ b hrest (by rw [hknown])

theorem wp_executePlan (planID : String) : wp (works strict planID) (executePlan planID) (fun _ m => ¬ m.Recording) .idle := by
  refine wp_seq (wp_ask (fun h => h) (forall_result (fun started _ => ?_) fun _ _ => fun h => h))
  cases started with
  | false =>
    refine wp_then (wp_apart (apart_getEvacuationPlan planID) fun h => h) ?_
    intro r m hm
    cases r <;> exact hm
  | true =>
    refine wp_ok (wp_getEvacuationPlan planID fun h => h) ?_ fun _ _ ⟨hm, _⟩ => hm
    rintro plan m ⟨hm, hplan⟩
    obtain ⟨b, rfl, -, hknown, hrest⟩ := hplan plan rfl
    refine wp_ok (wp_startAvailableItems hknown hrest) ?_ fun _ _ hm => wp_apart (apart_failPlan planID) hm
    intro _ m hm
    exact wp_apart (apart_getEvacuationPlan planID) hm

theorem wp_observePlan (planID : String) : ∀ (rounds : Nat) {m : Work}, ¬ m.Recording →
    wp (works strict planID) (observePlan planID rounds) (fun _ m => ¬ m.Recording) m
  | 0, _, hm => hm
  | rounds + 1, m, hm => by
    refine wp_ok (wp_getEvacuationPlan planID hm) ?_ fun _ _ ⟨hm, _⟩ => hm
    rintro plan m ⟨hm, hplan⟩
    obtain ⟨b, rfl, -, hknown, hrest⟩ := hplan plan rfl
    dsimp only
    split
    · exact hm
    refine wp_then (wp_reconcileItems plan.2 b hrest) ?_
    intro r m hm
    cases r with
    | error => exact wp_then (wp_apart (apart_failPlan planID) hm) fun _ _ h => h
    | ok =>
    refine wp_ok (wp_getEvacuationPlan planID hm) ?_ fun _ _ ⟨hm, _⟩ => hm
    rintro plan m ⟨hm, hplan⟩
    obtain ⟨b, rfl, -, hknown, hrest⟩ := hplan plan rfl
    dsimp only
    split
    · exact wp_then (wp_apart (apart_updateEvacuationPlanStatus _ _) hm) fun _ _ h => h
    refine wp_then (wp_startAvailableItems hknown hrest) ?_
    intro r m hm
    cases r with
    | error => exact wp_then (wp_apart (apart_failPlan planID) hm) fun _ _ h => h
    | ok => exact ⟨hm, fun _ _ => wp_observePlan planID rounds fun h => h⟩

theorem wp_cancelPlan (planID : String) : wp (works strict planID) (cancelPlan planID) (fun _ m => ¬ m.Recording) .idle := by
  refine wp_ok (wp_getEvacuationPlan planID fun h => h) ?_ fun _ _ ⟨hm, _⟩ => hm
  rintro plan m ⟨hm, -⟩
  dsimp only
  split
  · exact hm
  refine wp_ok (wp_apart (apart_cancelItems plan.2) hm) ?_ fun _ _ hm => hm
  intro _ m hm
  exact wp_apart (apart_cancelEvacuationPlan planID) hm

def Task.planID : Task → String
  | .execute planID => planID
  | .observe _ planID _ => planID
  | .cancel planID => planID
  | .progress .. => ""

theorem wp_program (t : Task) : wp (works strict t.planID) t.program (fun _ m => ¬ m.Recording) .idle := by
  cases t with
  | execute planID => exact wp_then (wp_executePlan planID) fun _ _ h => h
  | observe process planID rounds => exact wp_observePlan planID rounds fun h => h
  | cancel planID => exact wp_then (wp_cancelPlan planID) fun _ _ h => h
  | progress => exact ⟨fun h => h, fun _ _ h => h⟩

def Task.drives : Task → Bool
  | .execute _ => true
  | .observe .. => true
  | _ => false

theorem quiet_program (h : t.drives = false) : All (fun c => c.isItem = false) t.program := by
  cases t with
  | execute | observe => cases h
  | progress => exact ⟨rfl, fun _ => trivial⟩
  | cancel planID =>
    have quiet : ∀ {α : Type} {p : Action α}, All Call.Apart p →
        All (fun c => c.isItem = false) p := fun hp => hp.mono fun _ hc => hc.1
    refine All.bind (All.bind ⟨rfl, fun r => ?_⟩ fun r => ?_) fun _ => trivial
    · cases r with
      | error => trivial
      | ok =>
        refine ⟨rfl, fun r => ?_⟩
        cases r <;> trivial
    · cases r with
      | error => trivial
      | ok plan =>
        dsimp only
        split
        · trivial
        refine (quiet (apart_cancelItems plan.2)).ok (fun _ => ?_) fun _ => trivial
        exact quiet (apart_cancelEvacuationPlan planID)

def Work.batch? : Work → Option Batch
  | .idle => none
  | .batch b => some b
  | .record b _ => some b

structure Driving (strict : Bool) (x : Task × Action Unit) (m : Work) : Prop where
  follows : wp (works strict x.1.planID) x.2 (fun _ m => ¬ m.Recording) m
  quiet : x.1.drives = false → All (fun c => c.isItem = false) x.2
  busy : m ≠ .idle → ∃ c k, x.2 = .call c k ∧ c.isItem = true
  plan : ∀ b, m.batch? = some b → b.planID = x.1.planID

theorem driving_start (t : Task) : Driving strict (t, t.program) .idle where
  follows := wp_program t
  quiet := quiet_program
  busy h := absurd rfl h
  plan _ h := nomatch h

theorem driving_stop (t : Task) : Driving strict (t, .ret ()) .idle where
  follows := fun h => h
  quiet _ := trivial
  busy h := absurd rfl h
  plan _ h := nomatch h

theorem works_idle (hc : c.isItem = false) (h : (works strict plan).admits m c) :
    ¬ m.Recording ∧ (works strict plan).admits .idle c ∧ ∀ r, (works strict plan).next m c r = (works strict plan).next .idle c r := by
  cases c with
  | setItem | createMigration | prepareMigration | executeMigration | migrationStatus => cases hc
  | planItems planID acts =>
    cases acts with
    | false => exact ⟨h, fun h => h, fun _ => rfl⟩
    | true => exact ⟨h.1, ⟨fun h => h, h.2⟩, fun r => by cases r <;> rfl⟩
  | _ => exact ⟨h, fun h => h, fun _ => rfl⟩

theorem driving_of_wp {p : Action Unit} (hwp : wp (works strict t.planID) p (fun _ m => ¬ m.Recording) m)
    (hquiet : t.drives = false → All (fun c => c.isItem = false) p) (hplan : ∀ b, m.batch? = some b → b.planID = t.planID) :
    ∃ m', Driving strict (t, p) m' ∧ (m' = m ∨ (m' = .idle ∧ ¬ m.Recording)) := by
  cases p with
  | ret => exact ⟨.idle, driving_stop t, .inr ⟨rfl, hwp⟩⟩
  | call c k =>
    by_cases hc : c.isItem = true
    · exact ⟨m, ⟨hwp, hquiet, fun _ => ⟨c, k, rfl, hc⟩, hplan⟩, .inl rfl⟩
    · obtain ⟨hm, hadmits, hnext⟩ := works_idle (by simpa using hc) hwp.1
      refine ⟨.idle, ⟨⟨hadmits, fun r hr => ?_⟩, hquiet, fun h => absurd rfl h, nofun⟩, .inr ⟨rfl, hm⟩⟩
      rw [← hnext]
      exact hwp.2 r hr

theorem works_plan {r : Resp c} (h : (works strict plan).admits m c)
    (hm : ∀ b, m.batch? = some b → b.planID = plan) :
    ∀ b, ((works strict plan).next m c r).batch? = some b → b.planID = plan := by
  intro b hb
  cases c with
  | createMigration =>
    obtain ⟨b', rfl, -⟩ := h
    cases hb
    exact hm b' rfl
  | setItem itemID migrationID status error =>
    cases r with
    | error => cases hb
    | ok =>
      obtain ⟨b', rfl, -⟩ | ⟨b', rfl, -⟩ := h
      · cases hb
        exact hm b' rfl
      · cases hb
        exact hm b' rfl
  | prepareMigration => exact hm b hb
  | executeMigration =>
    obtain ⟨b', rfl, -⟩ := h
    cases r with
    | error => exact hm b hb
    | ok =>
      cases hb
      exact hm b' rfl
  | migrationStatus =>
    obtain ⟨b', rfl, -⟩ := h
    cases r with
    | error => exact hm b hb
    | ok =>
      simp [works] at hb
      split at hb
      · cases hb
        exact hm b' rfl
      · exact hm b hb
  | planItems planID acts =>
    cases acts with
    | false => cases hb
    | true =>
      cases r with
      | error => cases hb
      | ok =>
        cases hb
        exact h.2
  | _ => cases hb

theorem Driving.call (h : Driving strict (t, .call c k) m) (r : Resp c)
    (hr : (works strict t.planID).expects m c r) :
    ∃ m', Driving strict (t, k r) m' ∧ (m' = (works strict t.planID).next m c r ∨
      (m' = .idle ∧ ¬ ((works strict t.planID).next m c r).Recording)) :=
  driving_of_wp (h.follows.2 r hr) (fun ht => (h.quiet ht).2 r) (works_plan h.follows.1 h.plan)

theorem Driving.idle_of (h : Driving strict (t, .call c k) m)
    (hc : c.isItem = false) : m = .idle := by
  by_contra hm
  obtain ⟨c', k', hp, hitem⟩ := h.busy hm
  cases hp
  exact Bool.false_ne_true (hc.symm.trans hitem)

end

end ForgePlane.Evacuation
