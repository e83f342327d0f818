import ForgePlane.Panel

/-!
# Where a migration finds its nodes

A worker learns the addresses of its two nodes once, from the rows of its
migration. These rows do not change; the node of the server does, at the commit.
-/

namespace ForgePlane

open DB

structure Route where
  migrationID : String
  serverID : String
  source : String
  target : String
  sourceURL : String
  targetURL : String

def Route.Expected (ρ : Route) : (c : Call) → Resp c → Prop
  | .tx (.selectMigration id), .ok (x : Migration) =>
    id = ρ.migrationID → x.serverID = ρ.serverID ∧ x.targetNodeID = ρ.target
  | .tx (.serverProvisionTarget id), .ok (t : ServerProvisionTarget) =>
    id = ρ.serverID → t.nodeURL = ρ.sourceURL ∧ t.serverID = ρ.serverID
  | .tx (.nodeBaseURL id), .ok (url : String) => id = ρ.target → url = ρ.targetURL
  | _, _ => True

def Route.Found (ρ : Route) (t : ServerProvisionTarget × ServerProvisionTarget) : Prop :=
  t.1.nodeURL = ρ.sourceURL ∧ t.1.serverID = ρ.serverID ∧ t.2.nodeURL = ρ.targetURL ∧ t.2.serverID = ρ.serverID

variable {ρ : Route}

theorem wp_migrationProvisionTargets {μ : Type} {M : Monitor Resp μ} {m : μ}
    (hread : ∀ t : Tx, t.reads = true → M.admits m (.tx t) ∧ ∀ r, M.expects m (.tx t) r → M.next m (.tx t) r = m)
    (hexpect : ∀ c r, M.expects m c r → ρ.Expected c r) :
    wp M (Store.migrationProvisionTargets ρ.migrationID) (fun r m' => m' = m ∧ ∀ t, r = .ok t → ρ.Found t) m := by
  have hstep : ∀ {t : Tx} {k : Except Err t.Val → Action (Except Err (ServerProvisionTarget × ServerProvisionTarget))},
      t.reads = true → (∀ e, k (.error e) = .ret (.error e)) → (∀ v, ρ.Expected (.tx t) (.ok v) →
        wp M (k (.ok v)) (fun r m' => m' = m ∧ ∀ t, r = .ok t → ρ.Found t) m) →
      wp M (.call (.tx t) k) (fun r m' => m' = m ∧ ∀ t, r = .ok t → ρ.Found t) m := by
    intro t k ht herr hok
    refine ⟨(hread t ht).1, fun r hr => ?_⟩
    rw [(hread t ht).2 r hr]
    cases r with
    | error =>
      rw [herr]
      exact ⟨rfl, fun _ h => nomatch h⟩
    | ok v => exact hok v (hexpect _ _ hr)
  refine hstep rfl (fun _ => rfl) fun migration hr => ?_
  obtain ⟨hserver, htarget⟩ := hr rfl
  refine hstep rfl (fun _ => rfl) fun _ _ => ?_
  refine hstep rfl (fun _ => rfl) fun run _ => ?_
  refine hstep rfl (fun _ => rfl) fun t hr => ?_
  obtain ⟨hurl, hid⟩ := hr hserver
  refine hstep rfl (fun _ => rfl) fun url hr => ?_
  have hto := hr htarget
  refine hstep rfl (fun _ => rfl) fun token _ => ?_
  refine hstep rfl (fun _ => rfl) fun address _ => ?_
  refine ⟨rfl, fun t' ht => ?_⟩
  cases ht
  exact ⟨hurl, hid, hto, hid⟩

/-! ## The rows of a route -/

namespace DB

structure Follows (db : DB) (ρ : Route) : Prop where
  migration : ∃ m, db.migration ρ.migrationID = some m ∧ m.serverID = ρ.serverID ∧ m.sourceNodeID = ρ.source ∧
    m.targetNodeID = ρ.target
  source : (db.node ρ.source).map (·.baseURL) = some ρ.sourceURL
  target : (db.node ρ.target).map (·.baseURL) = some ρ.targetURL

def Hosts (db : DB) (n v : String) : Prop := ∃ s, db.server v = some s ∧ s.nodeID = n

end DB

section
variable {now : Nat} {db db' : DB} {t : Tx} {id n v : String}

theorem Effect.follows (h : Effect now db t db') (hf : db.Follows ρ) : db'.Follows ρ := by
  refine ⟨?_, ?_, ?_⟩
  · obtain ⟨m, hm, hv, ha, hb⟩ := hf.migration
    obtain hm' | ⟨m', hw, hm'⟩ := h.migration hm
    · exact ⟨m, hm', hv, ha, hb⟩
    · cases hw with
      | status | commit => exact ⟨_, hm', hv, ha, hb⟩
  · rw [node, h.nodes]
    exact hf.source
  · rw [node, h.nodes]
    exact hf.target

theorem DB.Hosts.eq (h : db.Hosts n v) {s : ServerRow} (hs : db.server v = some s) : s.nodeID = n := by
  obtain ⟨s', hs', hn⟩ := h
  cases hs.symm.trans hs'
  exact hn

theorem Effect.hosts (h : Effect now db t db') (ht : ∀ i, t ≠ .finalizeMigration i) (hh : db.Hosts n v) :
    db'.Hosts n v := by
  obtain ⟨s, hs, hn⟩ := hh
  obtain hs' | ⟨i, m, a, rfl, -⟩ := h.server hs
  · exact ⟨s, hs', hn⟩
  · exact absurd rfl (ht i)

def Tx.completes : Tx → Bool
  | .finalizeMigration _ => true
  | .updateMigrationRun _ phase _ _ _ => phase = .completed
  | _ => false

theorem Effect.not_completed (h : Effect now db t db') (ht : t.completes = false)
    (hp : db.phase id ≠ some .completed) : db'.phase id ≠ some .completed := by
  cases hr : db.run id with
  | some r =>
    have hphase : r.phase ≠ .completed := by simpa [DB.phase, hr] using hp
    obtain hr' | ⟨r', hw, hr'⟩ := h.run hr
    · simpa [DB.phase, hr'] using hphase
    · cases hw with
      | progress phase =>
        have hne : phase ≠ .completed := by simpa [Tx.completes] using ht
        simpa [DB.phase, hr'] using hne
      | commit => cases ht
      | cancel | fail => simp [DB.phase, hr']
      | _ => simpa [DB.phase, hr'] using hphase
  | none =>
    -- a run that is not there can only be inserted, as planned
    by_cases hn : db'.run id = none
    · simp [DB.phase, hn]
    cases h with
    | insertRun i version key r res hid hplanned =>
      simp only [DB.run] at hr
      simp only [DB.phase, DB.run, rowAt_append, hr, Option.none_or]
      split
      · simp [hplanned]
      · simp
    | rest _ _ hrest => exact absurd (by rw [DB.run, hrest.2.1]; exact hr) hn
    | claim i => exact absurd (by rw [DB.run_updateRun db i id fun _ => by rfl, hr]; simp) hn
    | progress i =>
      exact absurd (by rw [DB.updateMigrationRun, DB.run_updateRun db i id fun _ => by rfl, hr]; simp) hn
    | hashes i =>
      exact absurd (by rw [DB.setMigrationCredentialHashes, DB.run_updateRun db i id fun _ => by rfl, hr]; simp) hn
    | commit => cases ht
    | cleaned => exact absurd (by rw [DB.run_cleaned, hr]; rfl) hn
    | cancelRun i => exact absurd (by rw [DB.cancelMigrationRun, DB.run_endRun db i id _ fun _ => by rfl, hr]; rfl) hn
    | failRun i => exact absurd (by rw [DB.failMigrationRun, DB.run_endRun db i id _ fun _ => by rfl, hr]; rfl) hn
    | _ => exact absurd hr hn

end

/-! ## What the worker reads -/

section
variable {D : Type} {H : Sha256} {P : Platform D} {w w' : World D} {o : Outcome}

theorem answer_ok {t : Tx} {x : t.Val} (h : (panel H P).answer w (.tx t) o = some (.ok x, w')) :
    t.exec w.now w.db = (.ok x, w'.db) := by
  have h := System.answer_delivered h nofun
  obtain ⟨hx, rfl⟩ := Prod.mk.inj h
  exact Prod.ext hx.symm rfl

theorem answer_expected {c : Call} {r : Resp c} (h : (panel H P).answer w c o = some (r, w')) (hf : w.db.Follows ρ)
    (hh : c = .tx (.serverProvisionTarget ρ.serverID) → ∀ sv, w.db.server ρ.serverID = some sv → sv.nodeID = ρ.source) :
    ρ.Expected c r := by
  unfold Route.Expected
  split
  · rename_i id x
    rintro rfl
    have hx : w.db.selectMigration ρ.migrationID = .ok x := congrArg Prod.fst (answer_ok h)
    obtain ⟨m, hm, hv, -, hb⟩ := hf.migration
    rw [selectMigration, hm] at hx
    cases hx
    exact ⟨hv, hb⟩
  · rename_i id t
    rintro rfl
    have ht : w.db.serverProvisionTarget ρ.serverID = .ok t := congrArg Prod.fst (answer_ok h)
    obtain ⟨n, hnode, hurl⟩ := Option.map_eq_some_iff.mp hf.source
    cases hs : w.db.server ρ.serverID with
    | none =>
      rw [serverProvisionTarget, hs] at ht
      cases ht
    | some sv =>
      rw [serverProvisionTarget, hs] at ht
      simp [hh rfl sv hs, hnode] at ht
      cases ht
      have hkey : sv.id = ρ.serverID := rowAt_key hs
      exact ⟨hurl, hkey⟩
  · rename_i id url
    rintro rfl
    have hu : orNoRows ((w.db.node ρ.target).map (·.baseURL)) = .ok url := congrArg Prod.fst (answer_ok h)
    rw [hf.target] at hu
    cases hu
    rfl
  · trivial

end

end ForgePlane
