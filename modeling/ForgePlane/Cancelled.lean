import ForgePlane.Rounds
import ForgePlane.Underway

/-!
# Cancelled plans

A cancellation settles its plan where no driver is in a round meanwhile: then the items it
has read name every migration under way, and no driver starts another one or writes a
status of its own over the one of the plan.
-/

namespace ForgePlane.Evacuation

open System List

theorem planStatus_setPlans (w : World) (planID id : String) (p : PlanStatus → Bool) (status : PlanStatus) :
    (w.setPlans planID p status).planStatus id =
      (w.planStatus id).map fun s => if id = planID ∧ p s = true then status else s := by
  simp [World.planStatus, World.setPlans]
  rw [rowAt_updateWhere]
  swap
  · exact fun _ => rfl
  cases hrow : rowAt (·.id) w.plans id with
  | none => rfl
  | some row =>
    have hid : row.id = id := rowAt_key hrow
    by_cases hcond : id = planID ∧ p row.status = true
    · simp [hid, hcond.1, hcond.2]
    · simp [hid, hcond]

def World.answered (w : World) (id : Nat) : Prop := id ∈ w.asked ∨ w.ended id = true

def atRest (planID : String) (x : Task × Action Unit) : Bool :=
  !(x.1.drives && decide (x.1.planID = planID)) ||
    match x.2 with
    | .call c _ => c.calm
    | .ret _ => true

def cancelUnderway (planID : String) (x : Task × Action Unit) : Bool :=
  decide (x.1.planID = planID) &&
    match x.2 with
    | .call c _ => c.cancels
    | .ret _ => false

/-- A cancellation reads the items while every driver of the plan is at rest, and until it has closed
the plan no driver finds it running or claims it. -/
def cancelsAlone (s : Config Resp Task World) : Label Task → Bool
  | .call i _ =>
    match s.pending i with
    | some (t, .planItems planID true) => t.drives || s.threads.all (atRest planID)
    | some (_, .startPlan planID) =>
      decide (s.world.planStatus planID ≠ some .pending) || !s.threads.any (cancelUnderway planID)
    | some (t, .planRow planID true) =>
      !t.drives || decide (s.world.planStatus planID ≠ some .running) || !s.threads.any (cancelUnderway planID)
    | _ => true
  | _ => true

def orderly (s : Config Resp Task World) (l : Label Task) : Bool := takesTurns s l && informed s l && cancelsAlone s l

variable {l : Label Task} {x : Task × Action Unit}
variable {planID : String} {c : Call} {t : Task} {s s' : Config Resp Task World} {k : Resp c → Action Unit}

theorem atRest_of_phased (h : Phased x (.round planID)) : atRest planID x = false := by
  obtain ⟨hdrives, hplan⟩ := h.of
  obtain ⟨c, k, hx, hc⟩ := h.round planID rfl
  simp [atRest, hdrives, hplan, hx, hc]

theorem underway_of_phased {todo : List Nat} (h : Phased x (.cancelling planID todo)) : cancelUnderway planID x = true := by
  obtain ⟨-, hplan⟩ := h.of
  obtain ⟨c, k, hx, hc⟩ := h.cancelling planID todo rfl
  simp [cancelUnderway, hplan, hx, hc]

structure Settled (w : World) (g : List Phase) : Prop where
  quiet : ∀ planID, w.planStatus planID = some .cancelled → .round planID ∉ g
  apart : ∀ planID todo, .cancelling planID todo ∈ g → .round planID ∉ g
  asked : ∀ planID todo, .cancelling planID todo ∈ g → ∀ e ∈ w.created, e.planID = planID → e.migrationID ∈ w.executed →
    w.answered e.migrationID ∨ e.migrationID ∈ todo
  done : ∀ planID, w.planStatus planID = some .cancelled → ∀ e ∈ w.created, e.planID = planID → e.migrationID ∈ w.executed →
    w.answered e.migrationID

section
variable {w w' : World} {g : List Phase} {i : Nat} {m n : Phase}

variable (h : Settled w g)
include h

theorem Settled.set
    (hround : ∀ planID, n = .round planID → w.planStatus planID ≠ some .cancelled ∧ ∀ todo, .cancelling planID todo ∉ g)
    (hcancel : ∀ planID todo, n = .cancelling planID todo → .round planID ∉ g ∧ ∀ e ∈ w.created, e.planID = planID →
      e.migrationID ∈ w.executed → w.answered e.migrationID ∨ e.migrationID ∈ todo) : Settled w (g.set i n) where
  quiet planID hstatus hmem := by
    obtain hmem | hmem := mem_or_eq_of_mem_set hmem
    · exact h.quiet planID hstatus hmem
    · exact (hround planID hmem.symm).1 hstatus
  apart planID todo hmem hmem' := by
    obtain hmem | hmem := mem_or_eq_of_mem_set hmem
    · obtain hmem' | hmem' := mem_or_eq_of_mem_set hmem'
      · exact h.apart planID todo hmem hmem'
      · exact (hround planID hmem'.symm).2 todo hmem
    · obtain hmem' | hmem' := mem_or_eq_of_mem_set hmem'
      · exact (hcancel planID todo hmem.symm).1 hmem'
      · cases hmem.trans hmem'.symm
  asked planID todo hmem := by
    obtain hmem | hmem := mem_or_eq_of_mem_set hmem
    · exact h.asked planID todo hmem
    · exact (hcancel planID todo hmem.symm).2
  done := h.done

theorem Settled.rest : Settled w (g.set i .resting) := h.set nofun nofun

theorem Settled.keep (hm : m ∈ g) : Settled w (g.set i m) := by
  refine h.set (fun planID he => ?_) fun planID todo he => ?_
  · subst he
    exact ⟨fun hstatus => h.quiet planID hstatus hm, fun todo hmem => h.apart planID todo hmem hm⟩
  · subst he
    exact ⟨h.apart planID todo hm, h.asked planID todo hm⟩

theorem Settled.snoc : Settled w (g ++ [.resting]) where
  quiet planID hstatus hmem := h.quiet planID hstatus (mem_of_snoc hmem nofun)
  apart planID todo hmem hmem' := h.apart planID todo (mem_of_snoc hmem nofun) (mem_of_snoc hmem' nofun)
  asked planID todo hmem := h.asked planID todo (mem_of_snoc hmem nofun)
  done := h.done

theorem Settled.world (hplans : ∀ planID, w'.planStatus planID = some .cancelled → w.planStatus planID = some .cancelled)
    (hmore : ∀ e ∈ w'.created, e.migrationID ∈ w'.executed → (e ∈ w.created ∧ e.migrationID ∈ w.executed) ∨ .round e.planID ∈ g)
    (hanswered : ∀ id, w.answered id → w'.answered id) : Settled w' g where
  quiet planID hstatus := h.quiet planID (hplans planID hstatus)
  apart := h.apart
  asked planID todo hmem e he hplan hid := by
    obtain ⟨he, hid⟩ | hround := hmore e he hid
    · exact (h.asked planID todo hmem e he hplan hid).imp_left (hanswered _)
    · exact absurd (hplan ▸ hround) (h.apart planID todo hmem)
  done planID hstatus e he hplan hid := by
    obtain ⟨he, hid⟩ | hround := hmore e he hid
    · exact hanswered _ (h.done planID (hplans planID hstatus) e he hplan hid)
    · exact absurd (hplan ▸ hround) (h.quiet planID (hplans planID hstatus))

omit h

/-! ## What the rows say -/

def Accounted (s : Config Resp Task World) : Prop := Ghosted (Driving true) (fun w g => OneShot w g ∧ Live w g) s

section
variable {e : Creation} {id : Nat}

variable (hs : Accounted s)
include hs

theorem Accounted.creates {item : Item} {k : Resp (.createMigration item) → Action Unit}
    (hi : s.threads[i]? = some (t, .call (.createMigration item) k)) : item.planID = t.planID := by
  obtain ⟨g, hg, hO, -⟩ := hs
  obtain ⟨m, hm, hF⟩ := hg.at hi
  obtain ⟨b, rfl, hitem, -⟩ := hF.follows.1
  rw [(mem_planItems.mp (mem_at hO.exact hm b rfl ▸ hitem)).2]
  exact hF.plan b rfl

theorem Accounted.executes {k : Resp (.executeMigration id) → Action Unit}
    (hi : s.threads[i]? = some (t, .call (.executeMigration id) k)) (he : e ∈ s.world.created)
    (hid : e.migrationID = id) : e.planID = t.planID := by
  obtain ⟨g, hg, hO, hL⟩ := hs
  obtain ⟨m, hm, hF⟩ := hg.at hi
  obtain ⟨b, rfl, row, hrow, hrid, -⟩ := hF.follows.1
  obtain ⟨hitem, hplan⟩ := mem_planItems.mp (mem_at hO.exact hm b rfl ▸ hrow)
  rw [hL.creation_eq he (hL.linked row hitem id hrid) hid]
  exact hplan.trans (hF.plan b rfl)

theorem Accounted.covered (he : e ∈ s.world.created) (hid : e.migrationID ∈ s.world.executed) :
    s.world.ended e.migrationID = true ∨ e.migrationID ∈ activeMigrations (s.world.planItems e.planID) := by
  obtain ⟨g, -, -, hL⟩ := hs
  refine (hL.covered e he hid).imp_right ?_
  rintro ⟨row, hrow, -, hactive, hmig⟩
  have hplan : row.planID = e.planID := congrArg Creation.planID (hL.creation_eq (hL.linked row hrow _ hmig) he rfl)
  exact mem_filterMap.mpr ⟨row, mem_planItems.mpr ⟨hrow, hplan⟩, by simp [hactive, hmig]⟩

theorem Accounted.new : s.world.nextID ∉ s.world.executed := by
  obtain ⟨g, -, -, hL⟩ := hs
  exact fun h => Nat.lt_irrefl _ (hL.started _ h)

omit hs

variable {o : Outcome} {r : Resp c}

theorem answered_handle (w : World) (c : Call) (h : w.answered id) : (w.handle c).2.answered id := by
  refine h.imp (fun h => ?_) ((grows_handle w c).ended id)
  cases c with
  | cancelMigration =>
    simp [World.handle]
    split <;> exact mem_cons_of_mem _ h
  | prepareMigration | executeMigration => simp [World.handle]; split <;> exact h
  | _ => exact h

theorem Settled.handle (h : Settled s.world g) (hs : Accounted s) (hi : s.threads[i]? = some (t, .call c k)) (hm : m ∈ g)
    (hF : Phased (t, .call c k) m) (hr : panels.answer s.world c o = some (r, w')) (hne : ∀ planID, c ≠ .cancelPlan planID) :
    Settled w' g := by
  have hadmits := hF.follows.1
  obtain rfl | rfl := answer_world hr
  · exact h
  refine h.world (fun planID hstatus => ?_) (fun e he hid => ?_) fun id => answered_handle s.world c
  · cases c with
    | cancelPlan planID' => exact absurd rfl (hne planID')
    | startPlan planID' =>
      change (s.world.setPlans planID' _ _).planStatus planID = _ at hstatus
      rw [planStatus_setPlans] at hstatus
      obtain ⟨status, hold, hnew⟩ := Option.map_eq_some_iff.mp hstatus
      split at hnew
      · cases hnew
      · rw [hold, hnew]
    | setPlan planID' =>
      change (s.world.setPlans planID' _ _).planStatus planID = _ at hstatus
      rw [planStatus_setPlans] at hstatus
      obtain ⟨status, hold, hnew⟩ := Option.map_eq_some_iff.mp hstatus
      split at hnew
      · exact absurd hnew hadmits.2.2
      · rw [hold, hnew]
    | prepareMigration | executeMigration | cancelMigration => simp [panels, World.handle] at hstatus; split at hstatus <;> exact hstatus
    | _ => exact hstatus
  · cases c with
    | createMigration =>
      obtain rfl | he := mem_cons.mp he
      · exact absurd hid hs.new
      · exact .inl ⟨he, hid⟩
    | executeMigration =>
      simp [panels, World.handle] at he hid
      split at hid
      · rename_i hprep
        simp [hprep] at he
        obtain heq | hid := mem_cons.mp hid
        · rw [hs.executes hi he heq]
          exact .inr (hadmits ▸ hm)
        · exact .inl ⟨he, hid⟩
      · rename_i hprep
        simp [hprep] at he
        exact .inl ⟨he, hid⟩
    | prepareMigration id =>
      obtain ⟨-, hcreated, hexecuted, -⟩ := handle_kept (c := .prepareMigration id) rfl (by simp) s.world
      exact .inl ⟨hcreated ▸ he, hexecuted ▸ hid⟩
    | cancelMigration id =>
      obtain ⟨-, hcreated, hexecuted, -⟩ := handle_kept (c := .cancelMigration id) rfl (by simp) s.world
      exact .inl ⟨hcreated ▸ he, hexecuted ▸ hid⟩
    | _ => exact .inl ⟨he, hid⟩

theorem Settled.begins (h : Settled w' g) (hg : Follows Phased s.threads g)
    (hfree : s.threads.any (cancelUnderway planID) = false) (hstatus : w'.planStatus planID ≠ some .cancelled) :
    Settled w' (g.set i (.round planID)) := by
  refine h.set (fun planID' he => ?_) nofun
  cases he
  refine ⟨hstatus, fun todo hmem => ?_⟩
  obtain ⟨j, hj⟩ := List.getElem?_of_mem hmem
  obtain ⟨x, hx, hF⟩ := hg.of hj
  exact any_eq_false.mp hfree x (mem_of_getElem? hx) (underway_of_phased hF)

theorem Settled.close (h : Settled w g) (hm : .cancelling planID [] ∈ g) :
    Settled (w.setPlans planID (fun s => s = .running) .cancelled) g := by
  have hplans : ∀ id, (w.setPlans planID (fun s => s = .running) .cancelled).planStatus id = some .cancelled →
      w.planStatus id = some .cancelled ∨ id = planID := by
    intro id hstatus
    rw [planStatus_setPlans] at hstatus
    obtain ⟨status, hold, hnew⟩ := Option.map_eq_some_iff.mp hstatus
    split at hnew
    · rename_i hcond
      exact .inr hcond.1
    · exact .inl (by rw [hold, hnew])
  refine ⟨fun id hstatus => ?_, h.apart, h.asked, fun id hstatus e he hplan hid => ?_⟩
  · obtain hold | rfl := hplans id hstatus
    · exact h.quiet id hold
    · exact h.apart _ _ hm
  · obtain hold | rfl := hplans id hstatus
    · exact h.done id hold e he hplan hid
    · exact (h.asked _ _ hm e he hplan hid).resolve_right not_mem_nil

theorem Settled.call (h : Settled s.world g) (hs : Accounted s) (ha : cancelsAlone s (.call i o) = true)
    (hi : s.threads[i]? = some (t, .call c k)) (hg : Follows Phased s.threads g) (hm : g[i]? = some m)
    (hF : Phased (t, .call c k) m) (hr : panels.answer s.world c o = some (r, w')) :
    Settled w' (g.set i ((rounds t.drives t.planID).next m c r)) := by
  have hmem := mem_of_getElem? hm
  have hadmits := hF.follows.1
  by_cases hne : ∀ planID, c ≠ .cancelPlan planID
  swap
  · push Not at hne
    obtain ⟨planID, rfl⟩ := hne
    obtain ⟨hphase, hplan⟩ := hadmits
    obtain rfl | rfl := answer_world hr
    · exact h.rest
    · refine (h.close ?_).rest
      rw [hplan, ← hphase]
      exact hmem
  have hnext := h.handle hs hi hmem hF hr hne
  cases c with
  | cancelPlan planID => exact absurd rfl (hne planID)
  | startPlan planID =>
    cases r with
    | error => exact hnext.rest
    | ok b =>
    cases b with
    | false => exact hnext.rest
    | true =>
      have hr := answer_delivered hr fun _ h => by cases h
      have hpending : s.world.planStatus planID = some .pending :=
        of_decide_eq_true (Except.ok.inj (congrArg Prod.fst hr)).symm
      have hfree : s.threads.any (cancelUnderway planID) = false := by
        simpa [cancelsAlone, Config.pending_eq hi, hpending] using ha
      refine hnext.begins hg hfree ?_
      obtain rfl : w' = s.world.setPlans planID (fun s => s = .pending) .running := congrArg Prod.snd hr
      rw [planStatus_setPlans, hpending]
      simp
  | planRow planID acts =>
    cases acts with
    | false => exact hnext.rest
    | true =>
      cases r with
      | error => exact hnext.keep hmem
      | ok =>
        simp only [rounds]
        split
        · rename_i hrun
          obtain ⟨hdrives, hrun⟩ := Bool.and_eq_true_iff.mp hrun
          have hr := answer_delivered hr fun _ h => by cases h
          simp only [panels, World.handle] at hr
          split at hr
          · rename_i hrow
            cases hr
            have hstatus : s.world.planStatus planID = some .running := by
              simp [World.planStatus, hrow, of_decide_eq_true hrun]
            refine hnext.begins hg ?_ (by rw [hstatus]; simp)
            simpa [cancelsAlone, Config.pending_eq hi, hdrives, hstatus] using ha
          · cases hr
        · exact hnext.keep hmem
  | planItems planID acts =>
    cases acts with
    | false => exact hnext.rest
    | true =>
      cases r with
      | error => exact hnext.keep hmem
      | ok =>
        simp only [rounds]
        split
        · exact hnext.keep hmem
        · rename_i hdrives
          have hrest : s.threads.all (atRest planID) = true := by
            simpa [cancelsAlone, Config.pending_eq hi, hdrives] using ha
          have hr := answer_delivered hr fun _ h => by cases h
          cases hr
          refine hnext.set (by simp) fun planID' todo he => ?_
          cases he
          refine ⟨fun hround => ?_, fun e he hplan hid => ?_⟩
          · obtain ⟨j, hj⟩ := List.getElem?_of_mem hround
            obtain ⟨x, hx, hF'⟩ := hg.of hj
            have := all_eq_true.mp hrest x (mem_of_getElem? hx)
            rw [atRest_of_phased hF'] at this
            cases this
          · rw [← hplan]
            exact (hs.covered he hid).imp_left .inr
  | cancelMigration =>
    obtain ⟨todo, rfl⟩ := hadmits
    cases r with
    | error => exact hnext.rest
    | ok =>
      refine hnext.set (fun _ h => by cases h) fun planID' todo' he => ?_
      cases he
      refine ⟨h.apart _ _ hmem, fun e he hplan hid => ?_⟩
      obtain hanswered | hid' := hnext.asked _ _ hmem e he hplan hid
      · exact .inl hanswered
      · obtain rfl | hid' := mem_cons.mp hid'
        · refine .inl (.inl ?_)
          have hr := answer_delivered hr fun _ h => by cases h
          simp only [panels, World.handle] at hr
          split at hr <;> cases hr
          exact mem_cons_self
        · exact .inr hid'
  | setPlan | setItem | createMigration | prepareMigration | executeMigration | migrationStatus => exact hnext.keep hmem
  | setMigration | sleep => exact hnext.rest

theorem expects_row (hr : panels.answer w c o = some (r, w')) : (rounds t.drives t.planID).expects m c r := by
  cases c with
  | planRow planID acts =>
    cases acts with
    | false => trivial
    | true =>
      cases r with
      | error => trivial
      | ok =>
        have hr := answer_delivered hr nofun
        simp only [panels, World.handle] at hr
        split at hr
        · rename_i hrow
          cases hr
          exact rowAt_key hrow
        · cases hr
  | _ => trivial

end

theorem settled_run : GhostInv panels (fun s l => Accounted s ∧ orderly s l = true) Phased Settled where
  start s t g _ _ hG := ⟨.resting, phased_resting (rounds_program t), hG.snoc⟩
  tick _ _ _ _ _ hG := hG
  crash s i t p g m ha hi hg hm hF hG := ⟨.resting, phased_resting trivial, hG.rest⟩
  call s i o t c k r w g m ha hi hg hm hF hG hr := by
    obtain ⟨m', hF', hm'⟩ := hF.call r (expects_row hr)
    have hcall := hG.call ha.1 (Bool.and_eq_true_iff.mp ha.2).2 hi hg hm hF hr
    refine ⟨m', hF', ?_⟩
    obtain rfl | rfl := hm'
    · exact hcall
    · have := hcall.rest (i := i)
      rwa [set_set] at this

/-! ## Afterwards -/

structure Closed (planID : String) (w w' : World) : Prop where
  status : w'.planStatus planID = some .cancelled
  created : w'.created.filter (fun e => e.planID = planID) = w.created.filter fun e => e.planID = planID
  executed : ∀ e ∈ w.created, e.planID = planID → (e.migrationID ∈ w'.executed ↔ e.migrationID ∈ w.executed)

theorem Closed.refl (h : w.planStatus planID = some .cancelled) : Closed planID w w :=
  ⟨h, rfl, fun _ _ _ => Iff.rfl⟩

section
variable {s' : Config Resp Task World}

theorem Closed.handle (h : Closed planID w s.world) (hs : Accounted s) (hsettled : Ghosted Phased Settled s)
    (hi : s.threads[i]? = some (t, .call c k)) : Closed planID w (s.world.handle c).2 := by
  obtain ⟨g, hg, hG⟩ := hsettled
  obtain ⟨m, hm, hF⟩ := hg.at hi
  have hadmits := hF.follows.1
  -- a round is one of another plan
  have other : m = .round t.planID → t.planID ≠ planID := by
    rintro hround rfl
    exact hG.quiet _ h.status (hround ▸ mem_of_getElem? hm)
  cases c with
  | startPlan planID' =>
    refine ⟨?_, h.created, h.executed⟩
    change (s.world.setPlans planID' _ _).planStatus planID = _
    rw [planStatus_setPlans, h.status]
    simp
  | setPlan planID' =>
    refine ⟨?_, h.created, h.executed⟩
    change (s.world.setPlans planID' _ _).planStatus planID = _
    rw [planStatus_setPlans, h.status]
    simp [hadmits.2.1, (other hadmits.1).symm]
  | cancelPlan planID' =>
    refine ⟨?_, h.created, h.executed⟩
    change (s.world.setPlans planID' _ _).planStatus planID = _
    rw [planStatus_setPlans, h.status]
    simp
  | createMigration item =>
    have hitem : item.planID ≠ planID := hs.creates hi ▸ other hadmits
    refine ⟨h.status, ?_, h.executed⟩
    rw [← h.created]
    exact filter_cons_of_neg (by simpa using hitem)
  | executeMigration =>
    simp [World.handle]
    split
    · refine ⟨h.status, h.created, fun e he hplan => ?_⟩
      rw [← h.executed e he hplan]
      refine ⟨fun hid => ?_, mem_cons_of_mem _⟩
      obtain heq | hid := mem_cons.mp hid
      · have he' : e ∈ s.world.created := by
          have : e ∈ s.world.created.filter fun e => e.planID = planID := by
            rw [h.created]
            exact mem_filter.mpr ⟨he, by simpa using hplan⟩
          exact (mem_filter.mp this).1
        exact absurd ((hs.executes hi he' heq).symm.trans hplan) (other hadmits)
      · exact hid
    · exact h
  | prepareMigration =>
    simp [World.handle]
    split
    · exact ⟨h.status, h.created, h.executed⟩
    · exact h
  | cancelMigration =>
    simp [World.handle]
    split <;> exact ⟨h.status, h.created, h.executed⟩
  | _ => exact ⟨h.status, h.created, h.executed⟩

theorem Closed.next (h : Closed planID w s.world) (hs : Accounted s) (hsettled : Ghosted Phased Settled s)
    (hn : panels.next s l = some s') : Closed planID w s'.world := by
  obtain hw | ⟨d, hw⟩ | ⟨t, c, hsend, hw⟩ := next_world hn
  · exact hw ▸ h
  · exact hw ▸ h
  · obtain ⟨k, hk⟩ := Config.sends_mem hsend
    obtain ⟨i, hi⟩ := List.getElem?_of_mem hk
    exact hw ▸ h.handle hs hsettled hi

end

structure World.Unstarted (w : World) : Prop where
  unique : (w.items.map (·.id)).Nodup
  blank : ∀ i ∈ w.items, i.isActive = false ∧ i.migrationID = none
  created : w.created = []
  executed : w.executed = []

theorem World.Unstarted.settled (h : w.Unstarted) : Ghosted Phased Settled ⟨w, []⟩ :=
  ⟨[], .nil, nofun, nofun,
    nofun, by simp [h.created]⟩

def Kept (s : Config Resp Task World) : Prop := Accounted s ∧ Ghosted Phased Settled s

theorem Kept.step (h : Kept s) (ha : orderly s l = true)
    (hn : panels.next s l = some s') : Kept s' := by
  obtain ⟨hturns, -⟩ := Bool.and_eq_true_iff.mp ha
  exact ⟨live_run.step h.1 (Bool.and_eq_true_iff.mp hturns) hn, settled_run.step h.2 ⟨h.1, ha⟩ hn⟩

end

end ForgePlane.Evacuation
