import ForgePlane.OneShot

/-!
# Migrations under way

As long as drivers take turns, hear of what they execute and get to see how it went, an
executed migration that has not ended is the one of a row that is preparing or running.
-/

namespace ForgePlane.Evacuation

open List

/-! ## The migration service -/

theorem migration_setMigration (w : World) (id id' : Nat) (status : MigrationStatus) :
    (w.setMigration id status).migration id' =
      (w.migration id').map fun s => if id' = id ∧ s.terminal = false then status else s := by
  simp [World.migration, World.setMigration]
  rw [rowAt_updateWhere]
  swap
  · exact fun _ => rfl
  cases hrow : rowAt (·.1) w.migrations id' with
  | none => rfl
  | some m =>
    have hid : m.1 = id' := rowAt_key hrow
    by_cases hcond : id' = id ∧ m.2.terminal = false
    · simp [hid, hcond.1, hcond.2]
    · simp [hid, hcond]

structure World.Grows (w w' : World) : Prop where
  known : ∀ id, (w.migration id).isSome = true → (w'.migration id).isSome = true
  ended : ∀ id, w.ended id = true → w'.ended id = true

theorem World.Grows.refl (w : World) : w.Grows w := ⟨fun _ h => h, fun _ h => h⟩

theorem grows_setMigration (w : World) (id : Nat) (status : MigrationStatus) : w.Grows (w.setMigration id status) where
  known id' h := by
    rw [migration_setMigration, Option.isSome_map]
    exact h
  ended id' h := by
    unfold World.ended at h ⊢
    rw [migration_setMigration]
    obtain ⟨s, hs, hterminal⟩ := (Option.any_eq_true _ _).mp h
    rw [hs]
    simp [hterminal]

theorem migration_create (w : World) (item : Item) (id : Nat) :
    (w.handle (.createMigration item)).2.migration id =
      (w.migration id).or (if id = w.nextID then some .planned else none) := by
  simp [World.handle, World.migration, rowAt, List.find?_append, List.find?_singleton]
  cases List.find? (fun v => decide (v.1 = id)) w.migrations with
  | some m => rfl
  | none =>
    by_cases h : id = w.nextID
    · simp [h]
    · simp [h, Ne.symm h]

theorem grows_handle (w : World) (c : Call) : w.Grows (w.handle c).2 := by
  cases c with
  | createMigration item =>
    refine ⟨fun id h => ?_, fun id h => ?_⟩
    · rw [migration_create]
      simp [h]
    · unfold World.ended at h ⊢
      obtain ⟨s, hs, hterminal⟩ := (Option.any_eq_true _ _).mp h
      simp [migration_create, hs, hterminal]
  | prepareMigration id =>
    simp [World.handle]
    split
    · exact grows_setMigration w id .preparing
    · exact .refl w
  | executeMigration id =>
    simp [World.handle]
    split
    · exact ⟨(grows_setMigration w id .preparing).known, (grows_setMigration w id .preparing).ended⟩
    · exact .refl w
  | cancelMigration id =>
    simp [World.handle]
    split
    · exact ⟨fun _ h => h, fun _ h => h⟩
    · exact ⟨(grows_setMigration w id .cancelled).known, (grows_setMigration w id .cancelled).ended⟩
  | setMigration id status => exact grows_setMigration w id status
  | _ => exact ⟨fun _ h => h, fun _ h => h⟩

variable {c : Call} {o : Outcome} {r : Resp c} {w w' : World}

theorem handle_kept (hc : c.isRow = false) (hne : ∀ id, c ≠ .executeMigration id) (w : World) :
    (w.handle c).2.items = w.items ∧ (w.handle c).2.created = w.created ∧ (w.handle c).2.executed = w.executed ∧
      (w.handle c).2.nextID = w.nextID := by
  cases c with
  | setItem | createMigration => cases hc
  | executeMigration id => exact absurd rfl (hne id)
  | prepareMigration | cancelMigration => simp [World.handle]; split <;> exact ⟨rfl, rfl, rfl, rfl⟩
  | _ => exact ⟨rfl, rfl, rfl, rfl⟩

theorem grows_answer (hr : panels.answer w c o = some (r, w')) : w.Grows w' := by
  obtain rfl | rfl := System.answer_world hr
  · exact .refl _
  · exact grows_handle w c

structure Work.Good (w : World) (n : Work) : Prop where
  seen : ∀ b, n.batch? = some b → ∀ id ∈ b.ended, w.ended id = true
  fresh : ∀ b, n.batch? = some b → ∀ id, b.fresh = some id → id ∉ w.executed ∧ ∃ itemID, ⟨b.planID, itemID, id⟩ ∈ w.created
  next : ∀ b itemID, n = .record b itemID → ∀ id, b.fresh = some id → ⟨b.planID, itemID, id⟩ ∈ w.created

structure Live (w : World) (g : List Work) : Prop where
  known : ∀ e ∈ w.created, e.migrationID < w.nextID ∧ (w.migration e.migrationID).isSome = true
  distinct : (w.created.map (·.migrationID)).Nodup
  started : ∀ id ∈ w.executed, id < w.nextID
  linked : ∀ row ∈ w.items, ∀ id, row.migrationID = some id → ⟨row.planID, row.id, id⟩ ∈ w.created
  covered : ∀ e ∈ w.created, e.migrationID ∈ w.executed → w.ended e.migrationID = true ∨
    ∃ row ∈ w.items, row.id = e.itemID ∧ row.isActive = true ∧ row.migrationID = some e.migrationID
  good : ∀ n ∈ g, n.Good w

section
variable {w w' : World} {g : List Work} {i id : Nat} {m n : Work} {e e' : Creation}

theorem Work.good_idle : Work.Good w .idle :=
  ⟨fun _ h => (nomatch h), fun _ h => (nomatch h), nofun⟩

theorem Work.Good.grow (h : n.Good w) (hgrows : w.Grows w') (hexecuted : w'.executed = w.executed)
    (hcreated : ∀ e ∈ w.created, e ∈ w'.created) : n.Good w' where
  seen b hb id hid := hgrows.ended id (h.seen b hb id hid)
  fresh b hb id hid := by
    obtain ⟨hnew, itemID, hmem⟩ := h.fresh b hb id hid
    exact ⟨hexecuted ▸ hnew, itemID, hcreated _ hmem⟩
  next b itemID he id hid := hcreated _ (h.next b itemID he id hid)

variable (h : Live w g)
include h

theorem Live.creation_eq (he : e ∈ w.created) (he' : e' ∈ w.created)
    (hid : e.migrationID = e'.migrationID) : e = e' := inj_on_of_nodup_map h.distinct he he' hid

theorem Live.set (hn : n.Good w) : Live w (g.set i n) :=
  { h with
    good := forall_set h.good hn }

theorem Live.snoc : Live w (g ++ [.idle]) :=
  { h with
    good := forall_snoc h.good Work.good_idle }

theorem Live.same (hgrows : w.Grows w') (hitems : w'.items = w.items) (hcreated : w'.created = w.created)
    (hexecuted : w'.executed = w.executed) (hnext : w'.nextID = w.nextID) : Live w' g where
  known e he := by
    obtain ⟨hlt, hknown⟩ := h.known e (hcreated ▸ he)
    exact ⟨hnext ▸ hlt, hgrows.known _ hknown⟩
  distinct := hcreated ▸ h.distinct
  started := hnext ▸ hexecuted ▸ h.started
  linked := hitems ▸ hcreated ▸ h.linked
  covered e he hid := by
    rw [hitems]
    exact (h.covered e (hcreated ▸ he) (hexecuted ▸ hid)).imp_left (hgrows.ended _)
  good n hn := (h.good n hn).grow hgrows hexecuted fun e he => hcreated ▸ he

omit h

section
variable {plan itemID : String} {b : Batch}

theorem Live.call_create (h : Live w g) {item : Item} {r : Except Err Nat} (hb : m.batch? = some b) (hm : m ∈ g)
    (hplan : item.planID = b.planID) (hr : panels.answer w (.createMigration item) o = some (r, w')) :
    Live w' (g.set i (.record { b with fresh := r.toOption } item.id)) := by
  have hold := h.good m hm
  have hgood : ∀ w', w.Grows w' → w'.executed = w.executed → (∀ e ∈ w.created, e ∈ w'.created) →
      (∀ id, r.toOption = some id → id ∉ w.executed ∧ ⟨b.planID, item.id, id⟩ ∈ w'.created) →
      Work.Good w' (.record { b with fresh := r.toOption } item.id) := by
    intro w' hgrows hexecuted hcreated hr
    refine ⟨fun b' hb' id hid => ?_, fun b' hb' id hid => ?_, fun b' itemID he id hid => ?_⟩
    · cases hb'
      exact hgrows.ended id (hold.seen b hb id hid)
    · cases hb'
      exact ⟨hexecuted ▸ (hr id hid).1, item.id, (hr id hid).2⟩
    · cases he
      exact (hr id hid).2
  have hnew : ∀ e ∈ w.created, e.migrationID ≠ w.nextID := fun e he => (h.known e he).1.ne
  have hcreate : Live (w.handle (.createMigration item)).2 g := by
    have hgrows := grows_handle w (.createMigration item)
    refine ⟨fun e he => ?_, ?_, fun id hid => Nat.lt_succ_of_lt (h.started id hid), fun row hrow id hid => ?_,
      fun e he hid => ?_, fun n hn => (h.good n hn).grow hgrows rfl fun e he => mem_cons_of_mem _ he⟩
    · obtain rfl | he := mem_cons.mp he
      · refine ⟨Nat.lt_succ_self _, ?_⟩
        rw [migration_create]
        simp
      · obtain ⟨hlt, hknown⟩ := h.known e he
        exact ⟨Nat.lt_succ_of_lt hlt, hgrows.known _ hknown⟩
    · refine nodup_cons.mpr ⟨fun hmem => ?_, h.distinct⟩
      obtain ⟨e, he, hid⟩ := mem_map.mp hmem
      exact hnew e he hid
    · exact mem_cons_of_mem _ (h.linked row hrow id hid)
    · obtain rfl | he := mem_cons.mp he
      · exact absurd (h.started _ hid) (Nat.lt_irrefl _)
      · exact (h.covered e he hid).imp_left (hgrows.ended _)
  obtain ⟨-, hr⟩ | ⟨e, -, hf, rfl⟩ | ⟨e, -, hf, rfl⟩ := System.answer_cases hr
  · cases hr
    refine hcreate.set (hgood _ (grows_handle w (.createMigration item)) rfl (fun e he => mem_cons_of_mem _ he) ?_)
    intro id hid
    cases hid
    refine ⟨fun hid => absurd (h.started _ hid) (Nat.lt_irrefl _), ?_⟩
    rw [← hplan]
    exact mem_cons_self
  · cases hf
    exact h.set (hgood _ (.refl _) rfl (fun _ he => he) nofun)
  · cases hf
    exact hcreate.set (hgood _ (grows_handle w (.createMigration item)) rfl (fun e he => mem_cons_of_mem _ he) nofun)

variable {row : Item} {migrationID : Option Nat} {status : ItemStatus} {error : Option Err}

theorem Live.write (h : Live w g) (hunique : (w.items.map (·.id)).Nodup) (hrow : row ∈ w.items)
    (hlinked : ∀ id, migrationID = some id → ⟨row.planID, row.id, id⟩ ∈ w.created)
    (hcovered : ∀ id, row.isActive = true → row.migrationID = some id → id ∈ w.executed →
      w.ended id = true ∨ (status.isActive = true ∧ migrationID = some id)) :
    Live (w.setItem row.id migrationID status error) g := by
  have hgrows : w.Grows (w.setItem row.id migrationID status error) := ⟨fun _ h => h, fun _ h => h⟩
  refine ⟨h.known, h.distinct, h.started, fun x hx id hid => ?_, fun e he hid => ?_,
    fun n hn => (h.good n hn).grow hgrows rfl fun _ he => he⟩
  · obtain ⟨y, hy, rfl⟩ := mem_updateWhere.mp hx
    split at hid
    · rename_i hyid
      obtain rfl : y = row := inj_on_of_nodup_map hunique hy hrow (of_decide_eq_true hyid)
      rw [if_pos hyid]
      exact hlinked id hid
    · rename_i hyid
      rw [if_neg hyid]
      exact h.linked y hy id hid
  · obtain hended | ⟨x, hx, hxid, hactive, hmig⟩ := h.covered e he hid
    · exact .inl hended
    · by_cases hne : x.id = row.id
      · obtain rfl : x = row := inj_on_of_nodup_map hunique hx hrow hne
        obtain hended | ⟨hstatus, hmig'⟩ := hcovered _ hactive hmig hid
        · exact .inl hended
        · refine .inr ⟨Item.set migrationID status error x, mem_updateWhere.mpr ⟨x, hx, by simp⟩, hxid, hstatus, hmig'⟩
      · exact .inr ⟨x, mem_updateWhere.mpr ⟨x, hx, by simp [hne]⟩, hxid, hactive, hmig⟩

theorem Live.call_setItem (h : Live w g) (hO : OneShot w g) (hm : g[i]? = some m)
    {r : Except Err Unit}
    (hadmits : (works true plan).admits m (.setItem itemID migrationID status error))
    (hr : panels.answer w (.setItem itemID migrationID status error) o = some (r, w')) :
    Live w' (g.set i ((works true plan).next m (.setItem itemID migrationID status error) r)) := by
  have hmem := mem_of_getElem? hm
  have hgood := h.good m hmem
  -- the rows of a batch are those of its plan
  have hrows : ∀ b, m.batch? = some b → ∀ row ∈ b.known, row ∈ w.items ∧ row.planID = b.planID :=
    fun b hb row hrow => mem_planItems.mp (hO.exact m hmem b hb ▸ hrow)
  have hwrite : Live (w.setItem itemID migrationID status error) g := by
    obtain ⟨b, rfl, rfl, -⟩ | ⟨b, rfl, row, hrow, rfl, hsettles⟩ := hadmits
    · obtain ⟨⟨row, hrow, rfl, hpending⟩, -⟩ := hO.slot b itemID hmem
      obtain ⟨hitem, hplan⟩ := hrows b rfl row hrow
      refine h.write hO.unique hitem (fun id hid => hplan ▸ hgood.next b row.id rfl id hid) fun id hactive => ?_
      rw [Item.isActive, hpending] at hactive
      cases hactive
    · obtain ⟨hitem, hplan⟩ := hrows b rfl row hrow
      obtain ⟨hpending, rfl, -⟩ | ⟨hactive, rfl, rfl | ⟨-, id, hid, hstrict⟩⟩ := hsettles
      · refine h.write hO.unique hitem (by simp) fun id hactive => ?_
        rw [Item.isActive, hpending] at hactive
        cases hactive
      · exact h.write hO.unique hitem (h.linked row hitem) fun id _ hid _ => .inr ⟨rfl, hid⟩
      · refine h.write hO.unique hitem (h.linked row hitem) fun id' _ hid' hexecuted => .inl ?_
        obtain rfl : id' = id := Option.some.inj (hid'.symm.trans hid)
        obtain hended | hfresh := hstrict rfl
        · exact hgood.seen b rfl id' hended
        · exact absurd hexecuted (hgood.fresh b rfl id' hfresh).1
  have hbatch : ∀ b, m.batch? = some b → Work.Good w (.batch (b.set itemID migrationID status error)) := by
    refine fun b hb => ⟨fun b' hb' => ?_, fun b' hb' => ?_, (by simp)⟩
    · cases hb'
      exact hgood.seen b hb
    · cases hb'
      exact hgood.fresh b hb
  obtain ⟨-, hr⟩ | ⟨e, -, hf, rfl⟩ | ⟨e, -, hf, rfl⟩ := System.answer_cases hr
  · cases hr
    cases m with
    | idle => exact hwrite.set Work.good_idle
    | batch b => exact hwrite.set ((hbatch b rfl).grow ⟨fun _ h => h, fun _ h => h⟩ rfl fun _ he => he)
    | record b id => exact hwrite.set ((hbatch b rfl).grow ⟨fun _ h => h, fun _ h => h⟩ rfl fun _ he => he)
  · cases hf
    exact h.set Work.good_idle
  · cases hf
    exact hwrite.set Work.good_idle

theorem Live.call_execute (h : Live w g) (hO : OneShot w g) (hm : g[i]? = some (.batch b))
    (hrow : row ∈ b.known) (hid : row.migrationID = some id) (hactive : row.isActive = true) :
    Live { w.setMigration id .preparing with executed := id :: w.executed } (g.set i (.batch { b with fresh := none })) := by
  obtain ⟨hitem, hplan⟩ := mem_planItems.mp (mem_at hO.exact hm b rfl ▸ hrow)
  have hcreated := h.linked row hitem id hid
  have hgrows := grows_setMigration w id .preparing
  refine ⟨fun e he => ⟨(h.known e he).1, hgrows.known _ (h.known e he).2⟩, h.distinct, fun id' hid' => ?_, h.linked,
    fun e he hid' => ?_, fun n hn => ?_⟩
  · obtain rfl | hid' := mem_cons.mp hid'
    · exact (h.known _ hcreated).1
    · exact h.started id' hid'
  · obtain heq | hid' := mem_cons.mp hid'
    · obtain rfl := h.creation_eq he hcreated heq
      exact .inr ⟨row, hitem, rfl, hactive, hid⟩
    · exact (h.covered e he hid').imp_left (hgrows.ended _)
  · obtain ⟨j, hj⟩ := List.getElem?_of_mem hn
    by_cases hij : i = j
    · subst hij
      rw [List.getElem?_set_self (lt_at hm)] at hj
      cases hj
      have hgood := mem_at h.good hm
      refine ⟨fun b' hb' id' hid' => ?_, fun b' hb' id' hid' => ?_, nofun⟩
      · cases hb'
        exact hgrows.ended id' (hgood.seen b rfl id' hid')
      · cases hb'
        cases hid'
    · rw [List.getElem?_set_ne hij] at hj
      have hgood := mem_at h.good hj
      refine ⟨fun b' hb' id' hid' => hgrows.ended id' (hgood.seen b' hb' id' hid'), fun b' hb' id' hid' => ?_, hgood.next⟩
      obtain ⟨hnew, itemID, hmem⟩ := hgood.fresh b' hb' id' hid'
      refine ⟨fun hexecuted => ?_, itemID, hmem⟩
      obtain rfl | hexecuted := mem_cons.mp hexecuted
      · have hsame := h.creation_eq hmem hcreated rfl
        have hplans : b'.planID = row.planID := congrArg Creation.planID hsame
        exact hO.apart i j _ n b b' hij hm hj rfl hb' (hplan.symm.trans hplans.symm)
      · exact hnew hexecuted

end

def informed (s : Config Resp Task World) : Label Task → Bool
  | .call i o =>
    match s.pending i, o with
    | some (_, .executeMigration _), .ambiguous _ => false
    | some (_, .migrationStatus _), .lost _ => false
    | some (_, .migrationStatus _), .ambiguous _ => false
    | _, _ => true
  | _ => true

section
variable {s : Config Resp Task World} {t : Task}

variable {k : Resp c → Action Unit}

theorem Live.expects_item (h : Live s.world g) (hO : OneShot s.world g)
    (ha : informed s (.call i o) = true) (hi : s.threads[i]? = some (t, .call c k)) (hm : m ∈ g)
    (hadmits : (works true t.planID).admits m c) (hr : panels.answer s.world c o = some (r, w')) (hc : c.isItem = true) :
    (works true t.planID).expects m c r := by
  cases c with
  | migrationStatus id =>
    cases r with
    | ok status => trivial
    | error e =>
      obtain ⟨b, rfl, row, hrow, hid⟩ := hadmits
      have hitem := (mem_planItems.mp (hO.exact _ hm b rfl ▸ hrow)).1
      obtain ⟨status, hstatus⟩ := Option.isSome_iff_exists.mp (h.known _ (h.linked row hitem id hid)).2
      cases o with
      | delivered =>
        have hok : panels.handle s.world (.migrationStatus id) = (.ok status, s.world) := by
          simp [panels, World.handle]
          rw [hstatus]
        cases hok.symm.trans (Option.some.inj hr)
      | lost | ambiguous => simp [informed, Config.pending_eq hi] at ha
  | createMigration | setItem | prepareMigration | executeMigration => trivial
  | _ => cases hc

theorem Live.other (h : Live w g) (hc : c.isRow = false) (hne : ∀ id, c ≠ .executeMigration id)
    (hr : panels.answer w c o = some (r, w')) : Live w' g := by
  have hgrows := grows_answer hr
  obtain rfl | rfl := System.answer_world hr
  · exact h
  obtain ⟨hitems, hcreated, hexecuted, hnext⟩ := handle_kept hc hne w
  exact h.same hgrows hitems hcreated hexecuted hnext

theorem Live.call (h : Live s.world g) (hO : OneShot s.world g)
    (ha : informed s (.call i o) = true) (hi : s.threads[i]? = some (t, .call c k)) (hm : g[i]? = some m)
    (hF : Driving true (t, .call c k) m) (hr : panels.answer s.world c o = some (r, w')) :
    Live w' (g.set i ((works true t.planID).next m c r)) := by
  have hmem := mem_of_getElem? hm
  have hadmits := hF.follows.1
  by_cases hc : c.isItem = true
  · cases c with
    | createMigration item =>
      obtain ⟨b, rfl, hitem, -, -⟩ := hadmits
      exact h.call_create rfl hmem (mem_planItems.mp (hO.exact _ hmem b rfl ▸ hitem)).2 hr
    | setItem itemID migrationID status error => exact h.call_setItem hO hm hadmits hr
    | prepareMigration id =>
      have hlive := h.other (c := .prepareMigration id) rfl (by simp) hr
      exact hlive.set (hlive.good m hmem)
    | executeMigration id =>
      obtain ⟨b, rfl, row, hrow, hid, hactive⟩ := hadmits
      obtain ⟨-, hr⟩ | ⟨e, -, hf, rfl⟩ | ⟨e, rfl, -, -⟩ := System.answer_cases hr
      · simp only [panels, World.handle] at hr
        split at hr
        · cases hr
          exact h.call_execute hO hm hrow hid hactive
        · cases hr
          exact h.set (h.good _ hmem)
      · cases hf
        exact h.set (h.good _ hmem)
      · simp [informed, Config.pending_eq hi] at ha
    | migrationStatus id =>
      obtain ⟨b, rfl, -⟩ := hadmits
      have hlive := h.other (c := .migrationStatus id) rfl (by simp) hr
      have hgood := hlive.good _ hmem
      cases r with
      | error e => exact hlive.set hgood
      | ok status =>
        simp only [works]
        split
        · rename_i hterminal
          have hended : w'.ended id = true := by
            have hr := System.answer_delivered hr fun _ h => by cases h
            simp only [panels, World.handle] at hr
            split at hr
            · rename_i hstatus
              cases hr
              simp [World.ended, hstatus, hterminal]
            · cases hr
          refine hlive.set ⟨fun b' hb' id' hid' => ?_, fun b' hb' => ?_, fun _ _ h => by cases h⟩
          · cases hb'
            obtain rfl | hid' := mem_cons.mp hid'
            · exact hended
            · exact hgood.seen b rfl id' hid'
          · cases hb'
            exact hgood.fresh b rfl
        · exact hlive.set hgood
    | _ => cases hc
  · have hc : c.isItem = false := by simpa using hc
    obtain rfl := hF.idle_of hc
    have hlive := h.other (isRow_of_isItem hc) (fun id he => by subst he; cases hc) hr
    refine hlive.set ?_
    cases c with
    | planItems planID acts =>
      cases acts with
      | false => exact Work.good_idle
      | true =>
        cases r with
        | error e => exact Work.good_idle
        | ok items =>
          refine ⟨fun b hb id hid => ?_, fun b hb id hid => ?_, fun _ _ h => by cases h⟩
          · cases hb
            cases hid
          · cases hb
            cases hid
    | setItem | createMigration | prepareMigration | executeMigration | migrationStatus => cases hc
    | _ => exact Work.good_idle

end

theorem live_run : GhostInv panels (fun s l => takesTurns s l = true ∧ informed s l = true) (Driving true)
    (fun w g => OneShot w g ∧ Live w g) where
  start s t g _ _ hG := ⟨.idle, driving_start t, hG.1.snoc, hG.2.snoc⟩
  tick _ _ _ _ _ hG := hG
  crash s i t p g m ha hi hg hm hF hG := ⟨.idle, driving_stop t, hG.1.crash ha.1 hi hm hF, hG.2.set Work.good_idle⟩
  call s i o t c k r w g m ha hi hg hm hF hG hr := by
    have hexpects := hG.2.expects_item hG.1 ha.2 hi (mem_of_getElem? hm) hF.follows.1 hr
    obtain ⟨m', hF', hO, hm'⟩ := hG.1.call ha.1 hi hg hm hF hr hexpects
    have hlive := hG.2.call hG.1 ha.2 hi hm hF hr
    refine ⟨m', hF', hO, ?_⟩
    obtain rfl | rfl := hm'
    · exact hlive
    · have := hlive.set (i := i) Work.good_idle
      rwa [set_set] at this

end

end ForgePlane.Evacuation
