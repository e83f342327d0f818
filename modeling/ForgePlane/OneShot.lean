import ForgePlane.Batches
import ForgePlane.Ghosts

/-!
# One migration for each item

Drivers of one plan that take turns with its items know the rows they work on exactly, so a pending
item they meet has no migration yet. A migration that its driver does not get to record breaks this.
-/

namespace ForgePlane.Evacuation

open List

def World.unrecorded (w : World) (itemID : String) : Bool :=
  (w.created.any fun e => e.itemID = itemID) && w.items.any fun i => decide (i.id = itemID) && decide (i.status = .pending)

variable {w : World} {itemID : String} {strict : Bool} {s s' : Config Resp Task World} {t : Task} {g : List Work} {i : Nat}
variable {m : Work} {c : Call}

theorem World.unrecorded_iff : w.unrecorded itemID = true ↔
    (∃ e ∈ w.created, e.itemID = itemID) ∧ ∃ row ∈ w.items, row.id = itemID ∧ row.status = .pending := by
  simp [World.unrecorded]

structure OneShot (w : World) (g : List Work) : Prop where
  unique : (w.items.map (·.id)).Nodup
  blank : ∀ i ∈ w.items, i.status = .pending → i.migrationID = none
  bound : ∀ planID, activeCount (w.planItems planID) ≤ maxConcurrentEvacuationMigrations
  once : (w.created.map (·.itemID)).Nodup
  begun : ∀ id, w.unrecorded id = true → ∃ (j : Nat) (b : Batch), g[j]? = some (.record b id)
  exact : ∀ m ∈ g, ∀ b, m.batch? = some b → w.planItems b.planID = b.known
  slot : ∀ b id, .record b id ∈ g → (∃ row ∈ b.known, row.id = id ∧ row.status = .pending) ∧
    activeCount b.known < maxConcurrentEvacuationMigrations
  apart : ∀ (i j : Nat) m n b b', i ≠ j → g[i]? = some m → g[j]? = some n → m.batch? = some b → n.batch? = some b' →
    b.planID ≠ b'.planID

variable {b b' : Batch} {error : Option Err} {id : String} {item : Item} {migrationID : Option Nat} {o : Outcome} {r : Resp c}
variable {status : ItemStatus} {k : Resp c → Action Unit} {p : Action Unit}

section
variable {w' : World}

variable {planID : String} {row : Item}
variable {n : Work}

theorem mem_planItems : item ∈ w.planItems planID ↔ item ∈ w.items ∧ item.planID = planID := by
  simp [World.planItems]

theorem OneShot.turn (h : OneShot w g) (hm : g[i]? = some m) (hunique : (w'.items.map (·.id)).Nodup)
    (hblank : ∀ i ∈ w'.items, i.status = .pending → i.migrationID = none)
    (hbound : ∀ planID, activeCount (w'.planItems planID) ≤ maxConcurrentEvacuationMigrations)
    (honce : (w'.created.map (·.itemID)).Nodup)
    (hbegun : ∀ id, w'.unrecorded id = true → (∃ b, n = .record b id) ∨ w.unrecorded id = true ∧ ∀ b, m ≠ .record b id)
    (hexact : ∀ b, n.batch? = some b → w'.planItems b.planID = b.known)
    (hslot : ∀ b id, n = .record b id → (∃ row ∈ b.known, row.id = id ∧ row.status = .pending) ∧
      activeCount b.known < maxConcurrentEvacuationMigrations)
    (hothers : ∀ (j : Nat) n' b', j ≠ i → g[j]? = some n' → n'.batch? = some b' →
      w'.planItems b'.planID = w.planItems b'.planID ∧ ∀ b, n.batch? = some b → b.planID ≠ b'.planID) :
    OneShot w' (g.set i n) where
  unique := hunique
  blank := hblank
  bound := hbound
  once := honce
  begun id hid := by
    obtain ⟨b, rfl⟩ | ⟨hid, hne⟩ := hbegun id hid
    · exact ⟨i, b, List.getElem?_set_self (lt_at hm)⟩
    · obtain ⟨j, b, hj⟩ := h.begun id hid
      have hij : i ≠ j := by
        rintro rfl
        exact hne b (Option.some.inj (hm.symm.trans hj))
      exact ⟨j, b, by rw [List.getElem?_set_ne hij, hj]⟩
  exact n' hn' b hb := by
    obtain ⟨j, hj⟩ := List.getElem?_of_mem hn'
    obtain ⟨-, rfl⟩ | ⟨hji, hj⟩ := set_cases hj
    · exact hexact b hb
    · exact (hothers j n' b hji hj hb).1.trans (mem_at h.exact hj b hb)
  slot b id hb := by
    obtain hb | hb := mem_or_eq_of_mem_set hb
    · exact h.slot b id hb
    · exact hslot b id hb.symm
  apart a c x y b b' hac ha hc hb hb' := by
    refine pair_set (R := fun m n => ∀ b b', m.batch? = some b → n.batch? = some b' → b.planID ≠ b'.planID)
      (fun a c x y hac ha hc b b' => h.apart a c x y b b' hac ha hc) (fun j y hj hy => ?_) hac ha hc b b' hb hb'
    exact ⟨fun b b' hb hb' => (hothers j y b' hj hy hb').2 b hb, fun b' b hb' hb => ((hothers j y b' hj hy hb').2 b hb).symm⟩

theorem OneShot.set (h : OneShot w g) (hm : g[i]? = some m)
    (hmn : ∀ b id, m = .record b id → w.unrecorded id = true → ∃ b', n = .record b' id)
    (hexact : ∀ b, n.batch? = some b → w.planItems b.planID = b.known)
    (hslot : ∀ b id, n = .record b id → (∃ row ∈ b.known, row.id = id ∧ row.status = .pending) ∧
      activeCount b.known < maxConcurrentEvacuationMigrations)
    (hapart : ∀ (j : Nat) n' b b', j ≠ i → g[j]? = some n' → n.batch? = some b → n'.batch? = some b' → b.planID ≠ b'.planID) :
    OneShot w (g.set i n) := by
  refine h.turn hm h.unique h.blank h.bound h.once (fun id hid => ?_) hexact hslot
    fun j n' b' hj hn hb' => ⟨rfl, fun b hb => hapart j n' b b' hj hn hb hb'⟩
  by_cases hrec : ∃ b, m = .record b id
  · exact .inl (hmn _ id hrec.choose_spec hid)
  · exact .inr ⟨hid, not_exists.mp hrec⟩

theorem OneShot.idle (h : OneShot w g) (hm : g[i]? = some m) (hrec : ∀ b id, m = .record b id → w.unrecorded id = false) :
    OneShot w (g.set i .idle) := by
  refine h.set hm (fun b id he hid => ?_) nofun nofun nofun
  exact absurd hid (by rw [hrec b id he]; exact Bool.false_ne_true)

theorem Work.not_record (h : ¬ m.Recording) : m ≠ .record b id := by
  rintro rfl
  exact h trivial

theorem OneShot.snoc (h : OneShot w g) : OneShot w (g ++ [.idle]) where
  unique := h.unique
  blank := h.blank
  bound := h.bound
  once := h.once
  begun id hid := by
    obtain ⟨j, b, hj⟩ := h.begun id hid
    exact ⟨j, b, by rw [List.getElem?_append_left (lt_at hj), hj]⟩
  exact := forall_snoc h.exact nofun
  slot b id hb := h.slot b id (mem_of_snoc hb nofun)
  -- the new thread has no batch
  apart a c x y b b' hac ha hc := by
    refine pair_snoc (R := fun m n => ∀ b b', m.batch? = some b → n.batch? = some b' → b.planID ≠ b'.planID)
      (fun a c x y hac ha hc b b' => h.apart a c x y b b' hac ha hc) (fun _ _ => ⟨?_, ?_⟩) hac ha hc b b'
    · exact fun _ _ hb => nomatch hb
    · exact fun _ _ _ hb => nomatch hb

theorem OneShot.same (h : OneShot w g) (hitems : w'.items = w.items) (hcreated : w'.created = w.created) : OneShot w' g where
  unique := hitems ▸ h.unique
  blank := hitems ▸ h.blank
  bound planID := by
    rw [World.planItems, hitems]
    exact h.bound planID
  once := hcreated ▸ h.once
  begun id hid := by
    rw [World.unrecorded, hcreated, hitems] at hid
    exact h.begun id hid
  exact n hn b hb := by
    rw [World.planItems, hitems]
    exact h.exact n hn b hb
  slot := h.slot
  apart := h.apart

def Call.isRow : Call → Bool
  | .setItem .. => true
  | .createMigration _ => true
  | _ => false

theorem isRow_of_isItem (h : c.isItem = false) : c.isRow = false := by
  cases c with
  | setItem | createMigration => cases h
  | _ => rfl

variable (h : OneShot w g)
include h

theorem OneShot.other (hc : c.isRow = false) (hr : panels.answer w c o = some (r, w')) : OneShot w' g := by
  have hrows : (w.handle c).2.items = w.items ∧ (w.handle c).2.created = w.created := by
    cases c with
    | setItem | createMigration => cases hc
    | prepareMigration | executeMigration | cancelMigration => simp [World.handle]; split <;> exact ⟨rfl, rfl⟩
    | _ => exact ⟨rfl, rfl⟩
  obtain rfl | rfl := System.answer_world hr
  · exact h
  · exact h.same hrows.1 hrows.2

theorem OneShot.uncreated (hm : g[i]? = some (.batch b)) (hitem : item ∈ b.known)
    (hpending : item.status = .pending) : item.id ∉ w.created.map (·.itemID) := by
  intro hid
  have hexact := mem_at h.exact hm b rfl
  obtain ⟨hmem, hplan⟩ := mem_planItems.mp (hexact ▸ hitem)
  obtain ⟨j, b', hj⟩ := h.begun item.id (World.unrecorded_iff.mpr ⟨mem_map.mp hid, item, hmem, rfl, hpending⟩)
  -- whoever has to record it works on the same plan
  obtain ⟨⟨row, hrow, hrid, -⟩, -⟩ := h.slot b' item.id (mem_of_getElem? hj)
  have hexact' := mem_at h.exact hj b' rfl
  obtain ⟨hrmem, hrplan⟩ := mem_planItems.mp (hexact' ▸ hrow)
  obtain rfl : row = item := inj_on_of_nodup_map h.unique hrmem hmem hrid
  have hij : i ≠ j := by
    rintro rfl
    cases hm.symm.trans hj
  exact h.apart i j _ _ b b' hij hm hj rfl rfl (hplan.symm.trans hrplan)

theorem OneShot.keep (hm : g[i]? = some (.batch b)) (hn : n.batch? = some b')
    (hplan : b'.planID = b.planID) (hknown : b'.known = b.known)
    (hslot : ∀ b id, n = .record b id → (∃ row ∈ b.known, row.id = id ∧ row.status = .pending) ∧
      activeCount b.known < maxConcurrentEvacuationMigrations) : OneShot w (g.set i n) := by
  refine h.set hm nofun (fun c hc => ?_) hslot fun j n c c' hj hn' hc hc' => ?_
  · obtain rfl := Option.some.inj (hn.symm.trans hc)
    rw [hplan, hknown]
    exact mem_at h.exact hm b rfl
  · obtain rfl := Option.some.inj (hn.symm.trans hc)
    rw [hplan]
    exact h.apart i j _ n b c' hj.symm hm hn' rfl hc'

theorem OneShot.create (hm : g[i]? = some (.record b item.id))
    (hnew : item.id ∉ w.created.map (·.itemID)) : OneShot (w.handle (.createMigration item)).2 g where
  unique := h.unique
  blank := h.blank
  bound := h.bound
  once := nodup_cons.mpr ⟨hnew, h.once⟩
  begun id hid := by
    obtain ⟨⟨e, he, rfl⟩, hrow⟩ := World.unrecorded_iff.mp hid
    obtain rfl | he := mem_cons.mp he
    · exact ⟨i, b, hm⟩
    · exact h.begun e.itemID (World.unrecorded_iff.mpr ⟨⟨e, he, rfl⟩, hrow⟩)
  exact := h.exact
  slot := h.slot
  apart := h.apart

omit h

theorem planItems_setItem (w : World) (planID itemID : String) (migrationID : Option Nat) (status : ItemStatus)
    (error : Option Err) :
    (w.setItem itemID migrationID status error).planItems planID = setRow itemID migrationID status error (w.planItems planID) :=
  filter_updateWhere_comm fun _ => rfl

theorem planItems_setItem_ne (h : (w.items.map (·.id)).Nodup) (hrow : row ∈ w.items)
    (hne : row.planID ≠ planID) (migrationID : Option Nat) (status : ItemStatus) (error : Option Err) :
    (w.setItem row.id migrationID status error).planItems planID = w.planItems planID := by
  rw [planItems_setItem]
  refine updateWhere_none (any_eq_false.mpr fun i hi hid => hne ?_) _
  obtain ⟨hi, hplan⟩ := mem_planItems.mp hi
  have hid : i.id = row.id := by simpa using hid
  rw [← inj_on_of_nodup_map h hi hrow hid]
  exact hplan

theorem OneShot.write (h : OneShot w g) (hm : g[i]? = some m) (hb : m.batch? = some b)
    (hrow : row ∈ b.known)
    (hrec : ∀ b' id, m = .record b' id → id = row.id) (hstatus : status ≠ .pending)
    (hbound : activeCount (setRow row.id migrationID status error b.known) ≤ maxConcurrentEvacuationMigrations) :
    OneShot (w.setItem row.id migrationID status error) (g.set i (.batch (b.set row.id migrationID status error))) := by
  have hexact := mem_at h.exact hm b hb
  obtain ⟨hmem, hplan⟩ := mem_planItems.mp (hexact ▸ hrow)
  refine h.turn hm ((setRow_ids row.id migrationID status error w.items).symm ▸ h.unique) (fun x hx hs => ?_) (fun planID => ?_)
    h.once (fun id hid => ?_) (fun b' hb' => ?_) nofun fun j n b' hj hn hb' => ?_
  · obtain ⟨y, hy, rfl⟩ := mem_updateWhere.mp hx
    split at hs
    · exact absurd hs hstatus
    · rename_i hne
      rw [if_neg hne]
      exact h.blank y hy hs
  · by_cases hp : b.planID = planID
    · rw [planItems_setItem, ← hp, hexact]
      exact hbound
    · rw [planItems_setItem_ne h.unique hmem (hplan.trans_ne hp)]
      exact h.bound planID
  · obtain ⟨hc, x, hx, hxid, hs⟩ := World.unrecorded_iff.mp hid
    obtain ⟨y, hy, rfl⟩ := mem_updateWhere.mp hx
    split at hs
    · exact absurd hs hstatus
    · rename_i hne
      rw [if_neg hne] at hxid
      refine .inr ⟨World.unrecorded_iff.mpr ⟨hc, y, hy, hxid, hs⟩, fun b' he => ?_⟩
      exact hne (decide_eq_true (hxid.trans (hrec b' _ he)))
  · cases hb'
    rw [planItems_setItem]
    exact congrArg _ hexact
  · have hne := h.apart i j m n b b' hj.symm hm hn hb hb'
    refine ⟨planItems_setItem_ne h.unique hmem (hplan.trans_ne hne) _ _ _, fun c hc => ?_⟩
    cases hc
    exact hne

section
variable {plan : String}

variable (h : OneShot w g)
include h

variable (hm : g[i]? = some m)
include hm

theorem OneShot.call_create {r : Except Err Nat}
    (hadmits : (works strict plan).admits m (.createMigration item)) (hr : panels.answer w (.createMigration item) o = some (r, w')) :
    OneShot w' (g.set i ((works strict plan).next m (.createMigration item) r)) := by
  obtain ⟨b, rfl, hitem, hpending, hslot⟩ := hadmits
  have hlt := lt_at hm
  have hrec : OneShot w (g.set i (.record { b with fresh := r.toOption } item.id)) :=
    h.keep hm rfl rfl rfl fun _ _ he => by cases he; exact ⟨⟨item, hitem, rfl, hpending⟩, hslot⟩
  obtain rfl | rfl := System.answer_world hr
  · exact hrec
  · exact hrec.create (List.getElem?_set_self hlt) (h.uncreated hm hitem hpending)

variable (hadmits : (works strict plan).admits m (.setItem itemID migrationID status error))
include hadmits

theorem OneShot.written
    :
    ∃ b row, m.batch? = some b ∧ row ∈ b.known ∧ row.id = itemID ∧ (∀ b' id, m = .record b' id → id = itemID) ∧
      status ≠ .pending ∧ (row.migrationID = none ∨ row.migrationID = migrationID) ∧
      activeCount (setRow itemID migrationID status error b.known) ≤ maxConcurrentEvacuationMigrations := by
  have hmem := mem_of_getElem? hm
  have hfacts : ∀ b, m.batch? = some b → (b.known.map (·.id)).Nodup ∧ activeCount b.known ≤ maxConcurrentEvacuationMigrations ∧
      ∀ row ∈ b.known, row.status = .pending → row.migrationID = none := by
    intro b hb
    have hexact := h.exact m hmem b hb
    refine ⟨hexact ▸ h.unique.sublist (filter_sublist.map _), hexact ▸ h.bound b.planID, fun row hrow hs => ?_⟩
    exact h.blank row (mem_planItems.mp (hexact ▸ hrow)).1 hs
  obtain ⟨b, rfl, hmig, hst⟩ | ⟨b, rfl, row, hrow, rfl, hsettles⟩ := hadmits
  · obtain ⟨⟨row, hrow, rfl, hpending⟩, hslot⟩ := h.slot b itemID hmem
    obtain ⟨hnodup, hbound, hblank⟩ := hfacts b rfl
    have hinactive : row.isActive = false := by rw [Item.isActive, hpending]; rfl
    refine ⟨b, row, rfl, hrow, rfl, fun b' id he => by cases he; rfl, ?_, .inl (hblank row hrow hpending), ?_⟩
    · rw [hst]
      split <;> simp
    · rw [hst]
      split
      · rw [activeCount_start .preparing hnodup hrow hinactive rfl]
        exact hslot
      · rw [activeCount_same .failed hnodup hrow hinactive]
        exact hbound
  · obtain ⟨hnodup, hbound, hblank⟩ := hfacts b rfl
    refine ⟨b, row, rfl, hrow, rfl, (by simp), ?_⟩
    obtain ⟨hpending, -, rfl⟩ | ⟨hactive, hid, rfl | ⟨hst, -⟩⟩ := hsettles
    · refine ⟨(by simp), .inl (hblank row hrow hpending), ?_⟩
      rw [activeCount_same .failed hnodup hrow (by rw [Item.isActive, hpending]; rfl)]
      exact hbound
    · refine ⟨(by simp), .inr hid, ?_⟩
      rw [activeCount_same .running hnodup hrow hactive]
      exact hbound
    · have hinactive : status.isActive = false := by obtain rfl | rfl := hst <;> rfl
      have hne : status ≠ .pending := by obtain rfl | rfl := hst <;> simp
      refine ⟨hne, .inr hid, ?_⟩
      have hsettle : activeCount (setRow row.id migrationID status error b.known) + 1 = activeCount b.known :=
        activeCount_settle status hnodup hrow hactive hinactive
      omega

theorem OneShot.call_setItem
    {r : Except Err Unit}
    (hlost : o.isLost = true → w.unrecorded itemID = false)
    (hr : panels.answer w (.setItem itemID migrationID status error) o = some (r, w')) :
    OneShot w' (g.set i ((works strict plan).next m (.setItem itemID migrationID status error) r)) := by
  obtain ⟨b, row, hb, hrow, rfl, hrec, hstatus, -, hbound⟩ := h.written hm hadmits
  have hwrite := h.write hm hb hrow hrec hstatus hbound
  have hlt := lt_at hm
  obtain ⟨-, hr⟩ | ⟨e, rfl, hf, rfl⟩ | ⟨e, -, hf, rfl⟩ := System.answer_cases hr
  · cases hr
    cases m with
    | idle => cases hb
    | batch | record => cases hb; exact hwrite
  · cases hf
    refine h.idle hm fun b' id he => ?_
    rw [hrec b' id he]
    exact hlost rfl
  · cases hf
    have hidle := hwrite.idle (List.getElem?_set_self hlt) nofun
    rwa [set_set] at hidle

omit hadmits

theorem OneShot.call_item (hc : c.isItem = true)
    (hadmits : (works strict plan).admits m c)
    (hlost : ∀ itemID migrationID status error, c = .setItem itemID migrationID status error → o.isLost = true →
      w.unrecorded itemID = false)
    (hr : panels.answer w c o = some (r, w')) : OneShot w' (g.set i ((works strict plan).next m c r)) := by
  cases c with
  | createMigration => exact h.call_create hm hadmits hr
  | setItem => exact h.call_setItem hm hadmits (hlost _ _ _ _ rfl) hr
  | prepareMigration =>
    obtain ⟨b, rfl⟩ := hadmits
    exact (h.other rfl hr).keep hm rfl rfl rfl fun _ _ h => by cases h
  | executeMigration =>
    obtain ⟨b, rfl, -⟩ := hadmits
    cases r <;> exact (h.other rfl hr).keep hm rfl rfl rfl fun _ _ h => by cases h
  | migrationStatus =>
    obtain ⟨b, rfl, -⟩ := hadmits
    cases r with
    | error => exact (h.other rfl hr).keep hm rfl rfl rfl fun _ _ h => by cases h
    | ok =>
      simp [works]
      split <;> exact (h.other rfl hr).keep hm rfl rfl rfl fun _ _ h => by cases h
  | _ => cases hc

end

end

def busyOn (planID : String) (x : Task × Action Unit) : Bool :=
  decide (x.1.planID = planID) &&
    match x.2 with
    | .call c _ => c.isItem
    | .ret _ => false

/-- A driver reads the items of its plan only while no other is busy with them, and the row that records a migration
is not lost. -/
def takesTurns (s : Config Resp Task World) : Label Task → Bool
  | .call i o =>
    match s.pending i with
    | some (t, .planItems planID true) => !t.drives || s.threads.all fun x => !busyOn planID x
    | some (_, .setItem itemID ..) => !(o.isLost && s.world.unrecorded itemID)
    | _ => true
  | .crash i =>
    match s.pending i with
    | some (_, .setItem itemID ..) => !s.world.unrecorded itemID
    | _ => true
  | _ => true

section
variable {w' : World}
theorem busyOn_of_driving {x : Task × Action Unit} (h : Driving strict x m) (hb : m.batch? = some b) :
    busyOn b.planID x = true := by
  obtain ⟨c, k, hp, hitem⟩ := h.busy (by rintro rfl; cases hb)
  simp [busyOn, h.plan b hb, hp, hitem]

theorem Driving.records (h : Driving strict (t, p) (.record b id)) :
    ∃ migrationID status error k, p = .call (.setItem id migrationID status error) k := by
  obtain ⟨c, k, hp, hitem⟩ := h.busy nofun
  cases hp
  have hadmits := h.follows.1
  cases c with
  | setItem itemID migrationID status error =>
    obtain ⟨b', he, -⟩ | ⟨b', he, -⟩ := hadmits
    · cases he
      exact ⟨migrationID, status, error, k, rfl⟩
    · cases he
  | prepareMigration => obtain ⟨b', he⟩ := hadmits; cases he
  | createMigration | executeMigration | migrationStatus => obtain ⟨b', he, -⟩ := hadmits; cases he
  | _ => cases hitem

theorem expects_item (hc : c.isItem = true) (r : Resp c) : (works false t.planID).expects m c r := by
  cases c with
  | migrationStatus => cases r <;> trivial
  | createMigration | setItem | prepareMigration | executeMigration => trivial
  | _ => cases hc

theorem OneShot.expects_other (h : OneShot w g) (hc : c.isItem = false)
    (hr : panels.answer w c o = some (r, w')) : (works strict t.planID).expects m c r := by
  cases c with
  | migrationStatus => cases hc
  | planItems planID acts =>
    cases acts with
    | false => trivial
    | true =>
      cases r with
      | error => trivial
      | ok =>
        have hr := System.answer_delivered hr nofun
        cases hr
        exact ⟨h.unique.sublist (filter_sublist.map _), fun i hi => (mem_planItems.mp hi).2⟩
  | _ => trivial

theorem OneShot.begin (h : OneShot s.world g)
    (ha : takesTurns s (.call i o) = true) (hi : s.threads[i]? = some (t, .call c k)) (hg : Follows (Driving strict) s.threads g)
    (hm : g[i]? = some .idle) (hc : c.isItem = false) (hr : panels.answer s.world c o = some (r, w'))
    (hdrives : (works strict t.planID).next .idle c r ≠ .idle → t.drives = true) :
    OneShot w' (g.set i ((works strict t.planID).next .idle c r)) := by
  refine (h.set hm nofun (fun b hb => ?_) (fun b id hb => ?_) fun j n b b' hj hn hb hb' => ?_).other
    (isRow_of_isItem hc) hr
  all_goals
    obtain ⟨planID, rfl⟩ : ∃ planID, c = .planItems planID true := by
      cases c with
      | planItems planID acts =>
        cases acts with
        | true => exact ⟨planID, rfl⟩
        | false => cases hb
      | setItem | createMigration | prepareMigration | executeMigration | migrationStatus => cases hc
      | _ => cases hb
    cases r with
    | error => cases hb
    | ok => ?_
  · cases hb
    have hr := System.answer_delivered hr nofun
    cases hr
    rfl
  · cases hb
  · cases hb
    obtain ⟨x, hx, hF⟩ := hg.of hn
    intro he
    have hfree : (s.threads.all fun x => !busyOn planID x) = true := by
      simpa [takesTurns, Config.pending_eq hi, hdrives nofun] using ha
    have := all_eq_true.mp hfree x (mem_of_getElem? hx)
    rw [show planID = b'.planID from he, busyOn_of_driving hF hb'] at this
    cases this

end

theorem OneShot.call
    (hG : OneShot s.world g)
    (ha : takesTurns s (.call i o) = true) (hi : s.threads[i]? = some (t, .call c k)) (hg : Follows (Driving strict) s.threads g)
    (hm : g[i]? = some m) (hF : Driving strict (t, .call c k) m) (hr : panels.answer s.world c o = some (r, w))
    (hexpects : c.isItem = true → (works strict t.planID).expects m c r) :
    ∃ m', Driving strict (t, k r) m' ∧ OneShot w (g.set i m') ∧ (m' = (works strict t.planID).next m c r ∨ m' = .idle) := by
  have hlt := lt_at hm
  have settle : ∀ n m', OneShot w (g.set i n) → (m' = n ∨ (m' = .idle ∧ ¬ n.Recording)) → OneShot w (g.set i m') := by
    intro n m' hn hm'
    obtain rfl | ⟨rfl, hrec⟩ := hm'
    · exact hn
    · have := hn.idle (List.getElem?_set_self hlt) fun b id he => absurd he (Work.not_record hrec)
      rwa [set_set] at this
  by_cases hc : c.isItem = true
  · obtain ⟨m', hF', hm'⟩ := hF.call r (hexpects hc)
    refine ⟨m', hF', settle _ m' (hG.call_item hm hc hF.follows.1 (fun itemID migrationID status error he hlost => ?_) hr) hm',
      hm'.imp_right And.left⟩
    subst he
    simpa [takesTurns, Config.pending_eq hi, hlost] using ha
  · have hc : c.isItem = false := by simpa using hc
    obtain rfl := hF.idle_of hc
    obtain ⟨m', hF', hm'⟩ := hF.call r (hG.expects_other hc hr)
    refine ⟨m', hF', ?_, hm'.imp_right And.left⟩
    by_cases hidle : m' = .idle
    · subst hidle
      exact (hG.idle hm nofun).other (isRow_of_isItem hc) hr
    · refine settle _ m' (hG.begin ha hi hg hm hc hr fun _ => ?_) hm'
      -- a thread that goes on with an item drives the plan
      obtain ⟨c', k', hp, hitem⟩ := hF'.busy hidle
      by_contra hdrives
      have hquiet := hF'.quiet (by simpa using hdrives)
      rw [show k r = .call c' k' from hp] at hquiet
      rw [hquiet.1] at hitem
      cases hitem

theorem OneShot.crash
    (hG : OneShot s.world g) (ha : takesTurns s (.crash i) = true) (hi : s.threads[i]? = some (t, p)) (hm : g[i]? = some m)
    (hF : Driving strict (t, p) m) : OneShot s.world (g.set i .idle) := by
  refine hG.idle hm fun b id he => ?_
  subst he
  obtain ⟨migrationID, status, error, k, rfl⟩ := hF.records
  simpa [takesTurns, Config.pending_eq hi] using ha

theorem one_shot : GhostInv panels (fun s l => takesTurns s l = true) (Driving false) OneShot where
  start s t g _ _ hG := ⟨.idle, driving_start t, hG.snoc⟩
  tick _ _ _ _ _ hG := hG
  crash s i t p g m ha hi hg hm hF hG := ⟨.idle, driving_stop t, hG.crash ha hi hm hF⟩
  call s i o t c k r w g m ha hi hg hm hF hG hr := by
    obtain ⟨m', hF', hG', -⟩ := hG.call ha hi hg hm hF hr fun hc => expects_item hc r
    exact ⟨m', hF', hG'⟩

def World.Records (w : World) (itemID : String) (id : Nat) : Prop := ∃ row ∈ w.items, row.id = itemID ∧ row.migrationID = some id

instance (w : World) (itemID : String) (id : Nat) : Decidable (w.Records itemID id) :=
  inferInstanceAs (Decidable (∃ row ∈ w.items, _))

theorem items_handle_other (h : ∀ itemID migrationID status error, c ≠ .setItem itemID migrationID status error)
    (w : World) : (w.handle c).2.items = w.items := by
  cases c with
  | setItem => exact absurd rfl (h _ _ _ _)
  | prepareMigration | executeMigration | cancelMigration => simp [World.handle]; split <;> rfl
  | _ => rfl

theorem records_next {l : Label Task} {id : Nat}
    (hs : Ghosted (Driving false) OneShot s) (hn : panels.next s l = some s') (h : s.world.Records itemID id) :
    s'.world.Records itemID id := by
  obtain hw | ⟨d, hw⟩ | ⟨t, c, hsend, hw⟩ := System.next_world hn
  · rwa [hw]
  · rwa [hw]
  rw [hw]
  by_cases hset : ∀ itemID migrationID status error, c ≠ .setItem itemID migrationID status error
  · rw [World.Records]
    exact (items_handle_other hset s.world) ▸ h
  · push Not at hset
    obtain ⟨itemID', migrationID, status, error, rfl⟩ := hset
    obtain ⟨g, hg, hG⟩ := hs
    obtain ⟨k, hk⟩ := Config.sends_mem hsend
    obtain ⟨i, hi⟩ := List.getElem?_of_mem hk
    obtain ⟨m, hm, hF⟩ := hg.at hi
    obtain ⟨b, row, hb, hrow, rfl, -, -, hid, -⟩ := hG.written hm hF.follows.1
    have hrow := (mem_planItems.mp (mem_at hG.exact hm b hb ▸ hrow)).1
    obtain ⟨x, hx, rfl, hxid⟩ := h
    by_cases he : x.id = row.id
    · obtain rfl : x = row := inj_on_of_nodup_map hG.unique hx hrow he
      have hmig : migrationID = some id := by
        obtain hnone | hsame := hid
        · rw [hnone] at hxid
          cases hxid
        · rw [← hsame, hxid]
      exact ⟨_, mem_updateWhere.mpr ⟨x, hx, rfl⟩, by simp [Item.set], by simp [Item.set, hmig]⟩
    · exact ⟨x, mem_updateWhere.mpr ⟨x, hx, by simp [he]⟩, rfl, hxid⟩

/-- The rows as they are written by `CreatePlan`, or by an execution that was not interrupted. -/
structure World.Sound (w : World) : Prop where
  unique : (w.items.map (·.id)).Nodup
  blank : ∀ i ∈ w.items, i.status = .pending → i.migrationID = none
  bound : ∀ planID, activeCount (w.planItems planID) ≤ maxConcurrentEvacuationMigrations

theorem evacuation_is_single_shot {w : World} {ls ls' : List (Label Task)} {s s' : Config Resp Task World} (hw : w.Sound)
    (hnew : w.created = []) (hr : Run panels.next (fun s l => takesTurns s l = true) ⟨w, []⟩ ls s)
    (hr' : Run panels.next (fun s l => takesTurns s l = true) s ls' s') :
    (s.world.created.map (·.itemID)).Nodup ∧
      (∀ planID, activeCount (s.world.planItems planID) ≤ maxConcurrentEvacuationMigrations) ∧
      ∀ itemID id, s.world.Records itemID id → s'.world.Records itemID id := by
  have hstart : OneShot w [] := by
    refine ⟨hw.unique, hw.blank, hw.bound, by simp [hnew], fun id hid => ?_, nofun,
      nofun, fun _ _ _ _ _ _ _ h => by simp at h⟩
    simp [World.unrecorded, hnew] at hid
  have hs := one_shot.run ⟨[], .nil, hstart⟩ hr
  have hkeep := Run.with_invariant (I := Ghosted (Driving false) OneShot) (fun _ _ _ hs ha hn => one_shot.step hs ha hn) hs hr'
  obtain ⟨g, -, hG⟩ := hs
  exact ⟨hG.once, hG.bound, fun itemID id h =>
    Run.invariant (I := fun s => s.world.Records itemID id) (fun _ _ _ h ha hn => records_next ha.1 hn h) h hkeep⟩

def threeItems : World where
  plans := [{ id := "p" }]
  items := [{ id := "a", planID := "p", targetNodeID := "m" }, { id := "b", planID := "p", targetNodeID := "m" },
    { id := "c", planID := "p", targetNodeID := "n" }]

theorem threeItems_sound : threeItems.Sound where
  unique := by decide
  blank := by decide
  bound planID := by
    have hnone : ∀ i ∈ threeItems.planItems planID, i.isActive = false := by
      intro i hi
      have : ∀ i ∈ threeItems.items, i.isActive = false := by decide
      exact this i (mem_planItems.mp hi).1
    rw [activeCount, countP_eq_zero.mpr fun i hi => by simp [hnone i hi]]
    exact Nat.zero_le _

theorem evacuation_is_single_shot_observed : ∃ s : Config Resp Task World,
    s.world.created.map (·.itemID) = ["c", "b", "a"] ∧ s.world.Records "a" 0 ∧
      activeCount (s.world.planItems "p") ≤ maxConcurrentEvacuationMigrations := by
  obtain ⟨s, hs, hcreated, hrec⟩ : ∃ s, Run panels.next (fun s l => takesTurns s l = true) ⟨threeItems, []⟩
      (.start (.execute "p") :: List.replicate 15 (.call 0 .delivered) ++
        [.start (.progress 0 .completed), .call 1 .delivered, .start (.observe 0 "p" 1)] ++
        List.replicate 12 (.call 2 .delivered)) s ∧
      s.world.created.map (·.itemID) = ["c", "b", "a"] ∧ s.world.Records "a" 0 := by decide +kernel
  obtain ⟨-, hbound, hkeep⟩ := evacuation_is_single_shot threeItems_sound rfl hs (Run.nil s)
  exact ⟨s, hcreated, hkeep "a" 0 hrec, hbound "p"⟩

/-- An observer finds the plan running after `ExecutePlan` has read the items: both start the first item, and the
second migration replaces the id of the first. -/
theorem item_is_evacuated_twice : ∃ s s' : Config Resp Task World,
    Run panels.next (fun s l => registry s l = true) ⟨threeItems, []⟩
      ([.start (.execute "p"), .start (.observe 1 "p" 1)] ++ List.replicate 3 (.call 0 .delivered) ++
        List.replicate 4 (.call 1 .delivered) ++ List.replicate 2 (.call 0 .delivered)) s ∧
    Run panels.next (fun s l => registry s l = true) s (List.replicate 2 (.call 1 .delivered)) s' ∧
    s.world.Records "a" 0 ∧ ¬ s'.world.Records "a" 0 ∧ ¬ (s'.world.created.map (·.itemID)).Nodup := by
  simp
  decide +kernel

end ForgePlane.Evacuation
