import ForgePlane.Coordinator
import ForgePlane.Ghosts

/-!
# Who restores an item of a recovery plan

`StartRecoveryPlan` turns the planned items of a plan into executing ones, and an executor restores every
executing item it then reads.
-/

namespace ForgePlane.Coordinator

open System List

/-- Where an executor stands; `todo` are the items it has read and not yet begun to restore. -/
inductive Claim where
  | idle
  | started (planID : String)
  | running (todo : List String)

def executingIDs (items : List RecoveryItem) : List String :=
  (items.filter fun i => i.status = .executing).map (·.id)

def claims : Monitor Resp Claim where
  admits m
    | .startPlan _ => m = .idle
    | .planItems planID => ∀ p, m = .started p → planID = p
    | .beginRestore item => ∃ rest, m = .running (item.id :: rest)
    | c => c.Quiet
  next m c r :=
    match c, r with
    | .startPlan planID, .ok _ => .started planID
    | .planItems _, .ok items =>
      match m with
      | .started _ => .running (executingIDs items)
      | m => m
    | .beginRestore _, _ =>
      match m with
      | .running (_ :: rest) => .running rest
      | m => m
    | _, _ => m

/-! ## The programs -/

def Settled (m : Claim) : Prop := ∀ planID, m ≠ .started planID

theorem settled_idle : Settled .idle := nofun

theorem settled_running (todo : List String) : Settled (.running todo) := nofun

theorem silent_of_quiet (c : Call) (h : c.Quiet) : claims.Silent Settled c := by
  intro m hm
  cases c with
  | startPlan | beginRestore => exact h.elim
  | planItems =>
    refine ⟨fun p hp => absurd hp (hm p), forall_result fun items _ => ?_⟩
    cases m with
    | started p => exact absurd rfl (hm p)
    | _ => rfl
  | _ => exact ⟨h, fun _ _ => rfl⟩

variable {m : Claim} {planID : String}

theorem wp_quiet {α : Type} {p : Action α} (h : All Call.Quiet p) (hm : Settled m) {Φ : α → Claim → Prop}
    (hΦ : ∀ a, Φ a m) : wp claims p Φ m :=
  (h.mono silent_of_quiet).wp hm hΦ

theorem wp_verifyAndRestore (item : RecoveryItem) (rest : List String) :
    wp claims (verifyAndRestore item) (fun _ m => m = .running rest) (.running (item.id :: rest)) :=
  ⟨⟨_, rfl⟩, fun _ _ => ⟨trivial, fun _ _ => rfl⟩⟩

theorem wp_executeItems (planID : String) : ∀ items,
    wp claims (executeItems planID items) (fun _ _ => True) (.running (executingIDs items))
  | [] => wp_quiet (quiet_finishBackupRestorePlan planID) (settled_running _) fun _ => trivial
  | item :: items => by
    unfold executeItems
    split
    · rename_i hstatus
      simpa [executingIDs, filter_cons, hstatus] using wp_executeItems planID items
    · rename_i hstatus
      have hids : executingIDs (item :: items) = item.id :: executingIDs items := by
        simp [executingIDs, not_not.mp hstatus]
      rw [hids]
      refine wp_then (wp_verifyAndRestore item _) ?_
      rintro r m rfl
      -- whatever the restore answers, only quiet calls come before the next item
      cases r with
      | error e =>
        refine wp_seq
          (wp_quiet (quiet_updateRecoveryItemStatus item.id .failed rfl _) (settled_running _) fun r => ?_)
        cases r with
        | error => trivial
        | ok => exact wp_quiet (quiet_failPlan planID _) (settled_running _) fun _ => trivial
      | ok =>
        refine wp_seq
          (wp_quiet (quiet_updateRecoveryItemStatus item.id .restored rfl _) (settled_running _) fun r => ?_)
        cases r with
        | error => trivial
        | ok => exact wp_executeItems planID items

theorem wp_executePlan (planID : String) : wp claims (executePlan planID) (fun _ _ => True) .idle := by
  refine ⟨rfl, forall_result fun _ _ => ?_⟩
  refine ⟨trivial, forall_result fun row _ => ?_⟩
  refine ⟨fun p hp => by cases hp; rfl, forall_result fun items _ => ?_⟩
  change wp claims (if items.isEmpty then _ else _) _ (.running (executingIDs items))
  split
  · exact wp_quiet (quiet_updateRecoveryPlanStatus row.id _ rfl _) (settled_running _) fun _ => trivial
  · exact wp_executeItems row.id items

theorem wp_program (executor : Bool) (t : Task) : wp claims (t.program executor) (fun _ _ => True) .idle := by
  by_cases ht : ∀ planID, t ≠ .execute planID
  · exact wp_quiet (quiet_program executor ht) settled_idle fun _ => trivial
  · push Not at ht
    obtain ⟨planID, rfl⟩ := ht
    exact wp_then (wp_executePlan planID) fun _ _ _ => trivial

def Claims (items : List RecoveryItem) : Claim → String → Prop
  | .idle, _ => False
  | .started planID, id => ∃ i ∈ items, i.id = id ∧ i.planID = planID ∧ i.status = .executing
  | .running todo, id => id ∈ todo

def Planned (items : List RecoveryItem) (id : String) : Prop := ∃ i ∈ items, i.id = id ∧ i.status = .planned

structure OneExecutor (w : World) (g : List Claim) : Prop where
  unique : (w.db.recoveryItems.map (·.id)).Nodup
  once : w.restores.Nodup
  begun : ∀ id ∈ w.restores, ¬ Planned w.db.recoveryItems id
  todo : ∀ todo, .running todo ∈ g → todo.Nodup
  waiting : ∀ planID, .started planID ∈ g → ∀ i ∈ w.db.recoveryItems, i.planID = planID → i.status ≠ .planned
  unbegun : ∀ m ∈ g, ∀ id, Claims w.db.recoveryItems m id → id ∉ w.restores ∧ ¬ Planned w.db.recoveryItems id
  apart : ∀ (i j : Nat) m n, i ≠ j → g[i]? = some m → g[j]? = some n → ∀ id, Claims w.db.recoveryItems m id →
    ¬ Claims w.db.recoveryItems n id

section
variable {w w' : World} {g : List Claim} {i : Nat} {m : Claim}

theorem item_eq {items : List RecoveryItem} (h : (items.map (·.id)).Nodup) {i j : RecoveryItem} (hi : i ∈ items) (hj : j ∈ items)
    (hid : i.id = j.id) : i = j :=
  inj_on_of_nodup_map h hi hj hid

variable (h : OneExecutor w g)
include h

theorem OneExecutor.set (htodo : ∀ todo, m = .running todo → todo.Nodup)
    (hwaiting : ∀ planID, m = .started planID → ∀ i ∈ w.db.recoveryItems, i.planID = planID → i.status ≠ .planned)
    (hopen : ∀ id, Claims w.db.recoveryItems m id → id ∉ w.restores ∧ ¬ Planned w.db.recoveryItems id)
    (hapart : ∀ (j : Nat) n, j ≠ i → g[j]? = some n → ∀ id, Claims w.db.recoveryItems m id → ¬ Claims w.db.recoveryItems n id) :
    OneExecutor w (g.set i m) where
  unique := h.unique
  once := h.once
  begun := h.begun
  todo todo ht := by
    obtain ht | ht := mem_or_eq_of_mem_set ht
    · exact h.todo todo ht
    · exact htodo todo ht.symm
  waiting planID hp := by
    obtain hp | hp := mem_or_eq_of_mem_set hp
    · exact h.waiting planID hp
    · exact hwaiting planID hp.symm
  unbegun := forall_set h.unbegun hopen
  apart a b n n' hne ha hb := by
    refine pair_set (R := fun m n => ∀ id, Claims w.db.recoveryItems m id → ¬ Claims w.db.recoveryItems n id) h.apart ?_ hne ha hb
    exact fun j n hj hn => ⟨hapart j n hj hn, fun id hid hid' => hapart j n hj hn id hid' hid⟩

theorem OneExecutor.idle (i : Nat) : OneExecutor w (g.set i .idle) :=
  h.set nofun nofun (fun _ h => h.elim) fun _ _ _ _ _ h => h.elim

theorem OneExecutor.snoc : OneExecutor w (g ++ [.idle]) where
  unique := h.unique
  once := h.once
  begun := h.begun
  todo todo ht := h.todo todo (by simpa using ht)
  waiting planID hp := h.waiting planID (by simpa using hp)
  unbegun := forall_snoc h.unbegun fun _ h => h.elim
  -- the new executor claims nothing
  apart a b n n' hne ha hb := by
    refine pair_snoc (R := fun m n => ∀ id, Claims w.db.recoveryItems m id → ¬ Claims w.db.recoveryItems n id) h.apart ?_ hne ha hb
    exact fun _ _ => ⟨fun _ h => h.elim, fun _ _ h => h⟩

theorem OneExecutor.rows (hids : w'.db.recoveryItems.map (·.id) = w.db.recoveryItems.map (·.id))
    (hrestores : w'.restores = w.restores)
    (hplanned : ∀ i ∈ w'.db.recoveryItems, i.status = .planned → i ∈ w.db.recoveryItems)
    (hclaims : ∀ m ∈ g, ∀ id, Claims w'.db.recoveryItems m id → Claims w.db.recoveryItems m id) : OneExecutor w' g := by
  have hpl : ∀ id, Planned w'.db.recoveryItems id → Planned w.db.recoveryItems id :=
    fun id ⟨i, hi, hid, hs⟩ => ⟨i, hplanned i hi hs, hid, hs⟩
  refine ⟨hids ▸ h.unique, hrestores ▸ h.once, fun id hid hp => ?_, h.todo, fun planID hp i hi hplan hs => ?_,
    fun m hm id hid => ?_, fun a b m n hne ha hb id hid hid' => ?_⟩
  · rw [hrestores] at hid
    exact h.begun id hid (hpl id hp)
  · exact h.waiting planID hp i (hplanned i hi hs) hplan hs
  · rw [hrestores]
    obtain ⟨hr, hp⟩ := h.unbegun m hm id (hclaims m hm id hid)
    exact ⟨hr, fun h => hp (hpl id h)⟩
  · exact h.apart a b m n hne ha hb id (mem_at hclaims ha id hid)
      (mem_at hclaims hb id hid')

omit h

variable {db : DB} {status : RecoveryItemStatus} {planID reason id : String}

theorem mem_setRecoveryItems {p : RecoveryItem → Bool}
    {i : RecoveryItem} (h : i ∈ (db.setRecoveryItems p status reason).recoveryItems) :
    i ∈ db.recoveryItems ∨ ∃ j ∈ db.recoveryItems, p j = true ∧ i.id = j.id ∧ i.planID = j.planID ∧ i.status = status := by
  obtain ⟨j, hj, rfl⟩ := mem_updateWhere.mp h
  by_cases hp : p j = true
  · rw [if_pos hp]
    exact .inr ⟨j, hj, hp, rfl, rfl, rfl⟩
  · rw [if_neg hp]
    exact .inl hj

theorem setRecoveryItems_ids (db : DB) (p : RecoveryItem → Bool) (status : RecoveryItemStatus) (reason : String) :
    (db.setRecoveryItems p status reason).recoveryItems.map (·.id) = db.recoveryItems.map (·.id) :=
  map_key_updateWhere p _ fun _ => rfl

theorem OneExecutor.outcome (h : OneExecutor w g) (p : RecoveryItem → Bool)
    (hs : isItemOutcome status) (reason : String) :
    OneExecutor { w with db := w.db.setRecoveryItems p status reason } g := by
  have hold : ∀ i ∈ (w.db.setRecoveryItems p status reason).recoveryItems, ¬ isItemOutcome i.status → i ∈ w.db.recoveryItems := by
    intro i hi hst
    obtain hi | ⟨j, -, -, -, -, hj⟩ := mem_setRecoveryItems hi
    · exact hi
    · exact absurd (hj ▸ hs) hst
  refine h.rows (setRecoveryItems_ids _ _ _ _) rfl (fun i hi hst => hold i hi (by rw [hst]; nofun)) fun m hm id hid => ?_
  cases m with
  | idle | running => exact hid
  | started =>
    obtain ⟨i, hi, hid, hplan, hst⟩ := hid
    exact ⟨i, hold i hi (by rw [hst]; nofun), hid, hplan, hst⟩

theorem OneExecutor.same_items (h : OneExecutor w g) (hitems : w'.db.recoveryItems = w.db.recoveryItems)
    (hrestores : w'.restores = w.restores) : OneExecutor w' g := by
  refine h.rows (by rw [hitems]) hrestores (fun i hi _ => hitems ▸ hi) fun m _ id hid => ?_
  rwa [hitems] at hid

theorem setReservation_items (db : DB) (id : String) (status : ReservationStatus) :
    (commit db (db.updatePlacementReservationStatus id status)).2.recoveryItems = db.recoveryItems := by
  unfold DB.updatePlacementReservationStatus
  split <;> rfl

theorem OneExecutor.quiet (h : OneExecutor w g) {c : Call} (hc : c.Quiet) : OneExecutor (w.handle c).2 g := by
  cases c with
  | startPlan | beginRestore => exact hc.elim
  | setItem itemID status reason => exact h.outcome _ hc reason
  | setItems planID status reason => exact h.outcome _ hc reason
  | setReservation => exact h.same_items (setReservation_items _ _ _) rfl
  | _ => exact h.same_items rfl rfl

def unclaimed (db : DB) (planID : String) : Bool :=
  db.recoveryItems.all fun i => i.planID ≠ planID || i.status ≠ .executing

theorem startPlan_rows {i : RecoveryItem} (h : i ∈ (World.startPlan db planID).2.recoveryItems) :
    i ∈ db.recoveryItems ∨ ∃ j ∈ db.recoveryItems, j.planID = planID ∧ j.status = .planned ∧ i.id = j.id ∧
      i.planID = planID ∧ i.status = .executing := by
  obtain ⟨e, he⟩ | ⟨plan, -, -, hok⟩ := World.startPlan_cases db planID
  · rw [he] at h
    exact .inl h
  rw [hok] at h
  obtain hi | ⟨j, hj, hp, hid, hplan, hst⟩ := mem_setRecoveryItems h
  · exact .inl hi
  · simp at hp
    exact .inr ⟨j, hj, hp.1, hp.2, hid, hplan.trans hp.1, hst⟩

theorem startPlan_ids (db : DB) (planID : String) :
    (World.startPlan db planID).2.recoveryItems.map (·.id) = db.recoveryItems.map (·.id) := by
  obtain ⟨e, he⟩ | ⟨plan, -, -, hok⟩ := World.startPlan_cases db planID
  · rw [he]
  · rw [hok]
    exact setRecoveryItems_ids _ _ _ _

theorem startPlan_planned (hok : (World.startPlan db planID).1 = .ok ())
    {i : RecoveryItem} (h : i ∈ (World.startPlan db planID).2.recoveryItems) (hplan : i.planID = planID) : i.status ≠ .planned := by
  obtain ⟨e, he⟩ | ⟨plan, -, -, hstarted⟩ := World.startPlan_cases db planID
  · rw [he] at hok
    cases hok
  rw [hstarted] at h
  obtain ⟨j, -, rfl⟩ := mem_updateWhere.mp h
  split at hplan
  · rename_i hp
    rw [if_pos hp]
    exact nofun
  · rename_i hp
    rw [if_neg hp]
    intro hs
    exact hp (by simp [hplan, hs])

variable (h : OneExecutor w g)
include h

theorem OneExecutor.claims_startPlan (hm : m ∈ g)
    (hid : Claims (World.startPlan w.db planID).2.recoveryItems m id) : Claims w.db.recoveryItems m id := by
  cases m with
  | idle | running => exact hid
  | started p =>
    obtain ⟨i, hi, hid, hplan, hst⟩ := hid
    obtain hi | ⟨j, hj, hjp, hjs, -, hip, -⟩ := startPlan_rows hi
    · exact ⟨i, hi, hid, hplan, hst⟩
    · -- a plan somebody has started has no planned items
      exact absurd hjs (h.waiting p hm j hj (hjp.trans (hip.symm.trans hplan)))

theorem OneExecutor.startPlan (planID : String) : OneExecutor { w with db := (World.startPlan w.db planID).2 } g := by
  refine h.rows (startPlan_ids _ _) rfl (fun i hi hst => ?_) fun m hm id hid => h.claims_startPlan hm hid
  obtain hi | ⟨j, -, -, -, -, -, hex⟩ := startPlan_rows hi
  · exact hi
  · rw [hst] at hex
    cases hex

theorem OneExecutor.started (hfree : unclaimed w.db planID = true) (hok : (World.startPlan w.db planID).1 = .ok ()) :
    OneExecutor { w with db := (World.startPlan w.db planID).2 } (g.set i (.started planID)) := by
  have h' : OneExecutor { w with db := (World.startPlan w.db planID).2 } g := h.startPlan planID
  -- what the new executor claims was planned before, so nobody else does
  have hplanned : ∀ id, Claims (World.startPlan w.db planID).2.recoveryItems (.started planID) id →
      Planned w.db.recoveryItems id := by
    rintro id ⟨i, hi, hid, hplan, hst⟩
    obtain hi | ⟨j, hj, -, hjs, hij, -, -⟩ := startPlan_rows hi
    · have := all_eq_true.mp hfree i hi
      simp [hplan, hst] at this
    · exact ⟨j, hj, hij ▸ hid, hjs⟩
  refine h'.set nofun (fun p hp i hi hplan => ?_) (fun id hid => ⟨fun hr => ?_, fun hp => ?_⟩) ?_
  · cases hp
    exact startPlan_planned hok hi hplan
  · exact h.begun id hr (hplanned id hid)
  · obtain ⟨i, hi, hid, -, hst⟩ := hid
    obtain ⟨j, hj, hjd, hjs⟩ := hp
    have : i = j := item_eq h'.unique hi hj (hid.trans hjd.symm)
    rw [this, hjs] at hst
    cases hst
  · intro j n _ hn id hid hid'
    have hn' := mem_of_getElem? hn
    exact (h.unbegun n hn' id (h.claims_startPlan hn' hid')).2 (hplanned id hid)

theorem OneExecutor.read (hm : g[i]? = some (.started planID)) :
    OneExecutor w (g.set i (.running (executingIDs (w.db.recoveryItems.filter fun x => x.planID = planID)))) := by
  have hsame : ∀ id, id ∈ executingIDs (w.db.recoveryItems.filter fun x => x.planID = planID) →
      Claims w.db.recoveryItems (.started planID) id := by
    intro id hid
    obtain ⟨x, hx, rfl⟩ := mem_map.mp hid
    simp only [mem_filter, decide_eq_true_eq] at hx
    exact ⟨x, hx.1.1, rfl, hx.1.2, hx.2⟩
  have hmem := mem_of_getElem? hm
  refine h.set (fun todo ht => ?_) nofun (fun id hid => h.unbegun _ hmem id (hsame id hid)) ?_
  · cases ht
    exact h.unique.sublist ((filter_sublist.trans filter_sublist).map _)
  · intro j n hj hn id hid
    exact h.apart i j _ n hj.symm hm hn id (hsame id hid)

theorem OneExecutor.beginRestore {item : RecoveryItem} {rest : List String}
    (hm : g[i]? = some (.running (item.id :: rest))) :
    OneExecutor (w.handle (.beginRestore item)).2 (g.set i (.running rest)) := by
  have hmem := mem_of_getElem? hm
  obtain ⟨hnew, hplanned⟩ := h.unbegun _ hmem item.id mem_cons_self
  have hnodup := nodup_cons.mp (h.todo _ hmem)
  have hset : OneExecutor w (g.set i (.running rest)) := by
    refine h.set (fun todo ht => ?_) nofun
      (fun id hid => h.unbegun _ hmem id (mem_cons_of_mem _ hid)) fun j n hj hn id hid => ?_
    · cases ht
      exact hnodup.2
    · exact h.apart i j _ n hj.symm hm hn id (mem_cons_of_mem _ hid)
  -- no executor but this one claimed the item, and it is off its list now
  have hfree : ∀ m ∈ g.set i (.running rest), ¬ Claims w.db.recoveryItems m item.id := by
    intro m hmg hid
    obtain ⟨j, hj⟩ := List.getElem?_of_mem hmg
    obtain ⟨-, rfl⟩ | ⟨hji, hj⟩ := set_cases hj
    · exact hnodup.1 hid
    · exact h.apart i j _ m hji.symm hm hj item.id mem_cons_self hid
  exact { hset with
    once := nodup_cons.mpr ⟨hnew, h.once⟩
    begun := fun id hid => by
      obtain rfl | hid := mem_cons.mp hid
      · exact hplanned
      · exact h.begun id hid
    unbegun := fun m hmg id hid => by
      obtain ⟨hr, hp⟩ := hset.unbegun m hmg id hid
      refine ⟨fun hmem => ?_, hp⟩
      obtain rfl | hmem := mem_cons.mp hmem
      · exact hfree m hmg hid
      · exact hr hmem }

end

def startsUnclaimed (s : Config Resp Task World) (l : Label Task) : Bool :=
  match s.sends l with
  | some (_, .startPlan planID) => unclaimed s.world.db planID
  | _ => true

section
variable (executor : Bool) {s : Config Resp Task World} {i : Nat} {o : Outcome} {t : Task} {g : List Claim}
variable {w : World}

theorem OneExecutor.call_startPlan {r : Except Err Unit}
    (ha : startsUnclaimed s (.call i o) = true) (hsends : s.sends (.call i o) = some (t, .startPlan planID))
    (h : OneExecutor s.world g) (hr : (panels executor).answer s.world (.startPlan planID) o = some (r, w)) :
    OneExecutor w (g.set i (claims.next .idle (.startPlan planID) r)) := by
  have hfree : unclaimed s.world.db planID = true := by
    simp [startsUnclaimed, hsends] at ha
    exact ha
  obtain ⟨-, hr⟩ | ⟨e, -, hf, rfl⟩ | ⟨e, -, hf, rfl⟩ := answer_cases hr
  · cases hr
    obtain ⟨e, he⟩ | ⟨plan, -, -, hok⟩ := World.startPlan_cases s.world.db planID
    · have := (h.startPlan planID).idle i
      simp [he] at this ⊢
      exact this
    · have := h.started (i := i) hfree (by rw [hok])
      simp [hok] at this ⊢
      exact this
  · cases hf
    exact h.idle i
  · cases hf
    exact (h.startPlan planID).idle i

theorem OneExecutor.call_planItems {r : Except Err (List RecoveryItem)}
    (hm : g[i]? = some m) (hadmits : claims.admits m (.planItems planID)) (h : OneExecutor s.world g)
    (hr : (panels executor).answer s.world (.planItems planID) o = some (r, w)) :
    OneExecutor w (g.set i (claims.next m (.planItems planID) r)) := by
  obtain ⟨-, hr⟩ | ⟨e, -, hf, rfl⟩ | ⟨e, -, hf, rfl⟩ := answer_cases hr
  · cases hr
    cases m with
    | started p =>
      obtain rfl : planID = p := hadmits p rfl
      exact h.read hm
    | _ => exact (set_same hm).symm ▸ h
  · cases hf
    exact (set_same hm).symm ▸ h
  · cases hf
    exact (set_same hm).symm ▸ h

theorem one_executor :
    GhostInv (panels executor) (fun s l => startsUnclaimed s l = true) (Watched claims) OneExecutor where
  start s t g _ _ h := ⟨.idle, wp_program executor t, h.snoc⟩
  tick _ _ _ _ _ h := h
  crash s i t p g m _ _ _ _ _ h := ⟨.idle, trivial, h.idle i⟩
  call s i o t c k r w g m ha hi _ hm hwp h hr := by
    obtain ⟨hadmits, hk⟩ := hwp
    have hsends := Config.sends_eq o hi
    refine ⟨claims.next m c r, hk r trivial, ?_⟩
    -- a call the claim does not notice is a quiet one
    have quiet : c.Quiet → claims.next m c r = m → OneExecutor w (g.set i (claims.next m c r)) := by
      intro hc hnext
      rw [hnext, set_same hm]
      obtain rfl | rfl := answer_world hr
      · exact h
      · exact h.quiet hc
    cases c with
    | startPlan =>
      obtain rfl : m = .idle := hadmits
      exact h.call_startPlan executor ha hsends hr
    | planItems => exact h.call_planItems executor hm hadmits hr
    | beginRestore =>
      obtain ⟨rest, rfl⟩ := hadmits
      have hr := answer_delivered hr nofun
      cases hr
      exact h.beginRestore hm
    | _ => exact quiet hadmits rfl

end

/-- No two restores of one item: as no item returns to planned, the log of restores has it once. -/
theorem item_is_restored_once {executor : Bool} {db : DB} {ls : List (Label Task)} {s : Config Resp Task World}
    (hids : (db.recoveryItems.map (·.id)).Nodup)
    (hr : Run (panels executor).next (fun s l => startsUnclaimed s l = true) ⟨{ db := db }, []⟩ ls s) :
    s.world.restores.Nodup := by
  have hstart : OneExecutor { db := db } [] :=
    ⟨hids, nodup_nil, nofun, nofun,
      nofun, nofun, fun _ _ _ _ _ h => by simp at h⟩
  obtain ⟨g, -, hG⟩ := (one_executor executor).run ⟨[], .nil, hstart⟩ hr
  exact hG.once

theorem item_is_restored_once_refused : ∃ s : Config Resp Task World,
    s.world.restores = ["a"] ∧ s.world.planStatus "p" = some .restored ∧ s.world.restores.Nodup := by
  obtain ⟨s, hs, hrestores, hstatus⟩ : ∃ s, Run (panels true).next (fun s l => startsUnclaimed s l = true)
      ⟨{ db := twoServers }, []⟩ (.start (.execute "p") :: List.replicate 12 (.call 0 .delivered) ++
        [.start (.execute "p"), .call 1 .delivered]) s ∧
      s.world.restores = ["a"] ∧ s.world.planStatus "p" = some .restored := by decide +kernel
  exact ⟨s, hrestores, hstatus, item_is_restored_once (by decide) hs⟩

/-- The plan is executing already: a second execution is let in and restores the same item
while the first restore of it runs. -/
theorem executing_plan_is_started_again : ∃ s : Config Resp Task World,
    Run (panels true).next (fun _ _ => True) ⟨{ db := twoServers }, []⟩
      ([.start (.execute "p"), .start (.execute "p")] ++ List.replicate 4 (.call 0 .delivered) ++
        List.replicate 4 (.call 1 .delivered)) s ∧
    s.world.restoring = ["a", "a"] ∧ ¬ s.world.restores.Nodup := by decide +kernel

end ForgePlane.Coordinator
