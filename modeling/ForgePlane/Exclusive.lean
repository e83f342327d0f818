import ForgePlane.Panel

/-!
# One migration at a time

Nothing in the schema keeps a server from having two unfinished migrations: a
row is inserted before the reservation that may refuse it is asked for, the
reservation ends after half an hour, and a status write can reopen a migration
that had ended.
-/

namespace ForgePlane

open DB

def unfinishedOf (server : String) (m : MigrationRow) : Bool := decide (m.serverID = server) && !m.status.terminal

def DB.unfinished (db : DB) (server : String) : Nat := db.migrations.countP (unfinishedOf server)

structure DB.Exclusive (db : DB) : Prop where
  keyed : (db.migrations.map (·.id)).Nodup
  one : ∀ server, db.unfinished server ≤ 1

/-- A creation, and a status write that reopens a migration, find no unfinished migration of
the server. -/
def exclusive (db : DB) : Tx → Bool
  | .createMigration _ req => decide (db.unfinished req.serverID = 0)
  | .updateMigrationStatus id st _ =>
    st.terminal || (db.migration id).all fun m => !m.status.terminal || decide (db.unfinished m.serverID = 0)
  | _ => true

section
variable {now : Nat} {db db' : DB} {t : Tx} {server id : String}
variable {f : MigrationRow → MigrationRow}

theorem unfinished_updateWhere {p : MigrationRow → Bool} {rows : List MigrationRow}
    (hserver : ∀ m, (f m).serverID = m.serverID)
    (hopen : ∀ m ∈ rows, p m = true → m.serverID = server → (f m).status.terminal = false → m.status.terminal = false) :
    (updateWhere p f rows).countP (unfinishedOf server) ≤ rows.countP (unfinishedOf server) := by
  rw [updateWhere, List.countP_map]
  refine List.countP_mono_left fun m hm hu => ?_
  simp [Function.comp, unfinishedOf] at hu ⊢
  by_cases hp : p m = true
  · rw [if_pos hp] at hu
    have hs : m.serverID = server := (hserver m).symm.trans hu.1
    exact ⟨hs, hopen m hm hp hs hu.2⟩
  · rwa [if_neg hp] at hu

theorem Effect.keyed (h : Effect now db t db') (hk : (db.migrations.map (·.id)).Nodup) :
    (db'.migrations.map (·.id)).Nodup := by
  cases h with
  | rest _ _ hrest => rwa [hrest.1]
  | create id req hnew =>
    exact nodup_snoc hk (rowAt_eq_none.mp hnew)
  | status =>
    simp only
    rwa [map_key_updateWhere _ _ fun _ => by rfl]
  | commit =>
    simp [commitOwnership]
    rwa [map_key_updateWhere _ _ fun _ => by rfl]
  | _ => exact hk

theorem unfinished_status {st : MigrationStatus}
    (hserver : ∀ m, (f m).serverID = m.serverID) (hst : ∀ m, (f m).status = st) (he : db.Exclusive) {m : MigrationRow}
    (hm : db.migration id = some m) (hx : exclusive db (.updateMigrationStatus id st "") = true) :
    (updateWhere (fun m => m.id = id) f db.migrations).countP (unfinishedOf server) ≤ 1 := by
  have hrow : ∀ u ∈ db.migrations, u.id = id → u = m := fun u hu hid =>
    List.inj_on_of_nodup_map he.keyed hu (rowAt_mem hm) (hid.trans (rowAt_key hm).symm)
  simp [exclusive, hm] at hx
  by_cases hreopen : m.serverID = server ∧ db.unfinished m.serverID = 0
  · -- the reopened migration is the server's only unfinished one
    obtain ⟨rfl, hnone⟩ := hreopen
    have hle := countP_updateAt_le (unfinishedOf m.serverID) f id he.keyed
    rw [unfinished] at hnone
    omega
  · refine le_trans (unfinished_updateWhere hserver fun u hu hid hs hopen => ?_) (he.one server)
    obtain rfl := hrow u hu (of_decide_eq_true hid)
    obtain hterm | hlive | hnone := hx
    · rw [hst u, hterm] at hopen
      cases hopen
    · exact hlive
    · exact absurd ⟨hs, hnone⟩ hreopen

theorem Effect.exclusive (h : Effect now db t db') (hx : exclusive db t = true) (he : db.Exclusive) : db'.Exclusive := by
  refine ⟨h.keyed he.keyed, fun server => ?_⟩
  have hsame := he.one server
  cases h with
  | rest _ _ hrest => rw [unfinished, hrest.1]; exact hsame
  | create id req =>
    have hnone : db.unfinished req.serverID = 0 := of_decide_eq_true hx
    simp only [unfinished, List.countP_append, List.countP_singleton] at hnone hsame ⊢
    by_cases hs : req.serverID = server
    · subst hs
      rw [hnone]
      split <;> omega
    · simpa [unfinishedOf, hs] using hsame
  | status id st reason m hm => exact unfinished_status (fun _ => rfl) (fun _ => rfl) he hm hx
  | commit => exact le_trans (unfinished_updateWhere (fun _ => rfl) fun _ _ _ _ hst => by cases hst) hsame
  | _ => exact hsame

end

def settled : Config Resp Task (World Unit) :=
  ⟨{ db := { movingDB with migrations := [], runs := [], allocationReservations := [] }, now := 1000, fleet := () }, []⟩

end ForgePlane
