import ForgePlane.Capacity

/-!
# One live reservation for a server, one for a migration

A creation asks whether its server or its migration already holds a live reservation, and inserts the row
later. In between another creation for the same one can do the same, unless both want the row of one node.
-/

namespace ForgePlane

open List

inductive Holder where
  | server
  | migration
  deriving DecidableEq, Repr

def PlacementReservation.holder (r : PlacementReservation) : Holder → String
  | .server => r.serverID
  | .migration => r.migrationID

def CreatePlacementReservationRequest.holder (req : CreatePlacementReservationRequest) : Holder → String
  | .server => req.serverID
  | .migration => req.migrationID

namespace Postgres

open List

def Conflict (now : Nat) (r r' : PlacementReservation) : Prop :=
  DB.holds now r = true ∧ DB.holds now r' = true ∧ ∃ h, r.holder h ≠ "" ∧ r.holder h = r'.holder h

instance (now : Nat) (r r' : PlacementReservation) : Decidable (Conflict now r r') :=
  decidable_of_iff (DB.holds now r = true ∧ DB.holds now r' = true ∧
      (r.holder .server ≠ "" ∧ r.holder .server = r'.holder .server ∨
        r.holder .migration ≠ "" ∧ r.holder .migration = r'.holder .migration)) <| by
    refine and_congr_right fun _ => and_congr_right fun _ => ⟨?_, ?_⟩
    · rintro (h | h)
      · exact ⟨.server, h⟩
      · exact ⟨.migration, h⟩
    · rintro ⟨_ | _, h⟩
      · exact .inl h
      · exact .inr h

def OneEach (now : Nat) (rows : List PlacementReservation) : Prop := rows.Pairwise fun r r' => ¬ Conflict now r r'

instance (now : Nat) (rows : List PlacementReservation) : Decidable (OneEach now rows) :=
  inferInstanceAs (Decidable (rows.Pairwise _))

def Know.free (m : Know) : Holder → Option String
  | .server => m.freeServer
  | .migration => m.freeMigration

def question : Stmt → Option Holder
  | .serverReserved _ => some .server
  | .migrationReserved _ => some .migration
  | _ => none

section
variable {now now' : Nat} {r r' : PlacementReservation} {rows : List PlacementReservation} {h : Holder}

variable {f : PlacementReservation → PlacementReservation}

theorem Conflict.mono
    (hholder : ∀ r h, (f r).holder h = r.holder h) (hlive : ∀ r, DB.holds now' (f r) = true → DB.holds now r = true)
    (hc : Conflict now' (f r) (f r')) : Conflict now r r' := by
  obtain ⟨hr, hr', h, hne, heq⟩ := hc
  refine ⟨hlive r hr, hlive r' hr', h, ?_, ?_⟩
  · rw [← hholder]; exact hne
  · rw [← hholder r, ← hholder r']; exact heq

theorem OneEach.map (h1 : OneEach now rows)
    (hholder : ∀ r h, (f r).holder h = r.holder h) (hlive : ∀ r, DB.holds now' (f r) = true → DB.holds now r = true) :
    OneEach now' (rows.map f) :=
  pairwise_map.mpr (h1.imp fun hno hc => hno (hc.mono hholder hlive))

theorem OneEach.tick (h1 : OneEach now rows) (hle : now ≤ now') : OneEach now' rows := by
  have := h1.map (f := id) (fun _ _ => rfl) fun r => holds_mono hle
  rwa [map_id] at this

theorem Closing.holder (hf : Closing f) (r : PlacementReservation)
    (h : Holder) : (f r).holder h = r.holder h := by
  obtain hr | ⟨-, st, hr⟩ := hf r
  · rw [hr]
  · rw [hr]
    cases h <;> rfl

theorem closing_expireIf (ids : List String) : Closing (expireIf ids) := by
  intro r
  unfold expireIf
  split
  · rename_i h
    exact .inr ⟨(Bool.and_eq_true_iff.mp h).2, _, rfl⟩
  · exact .inl rfl

theorem OneEach.concat (h1 : OneEach now rows) (hnew : ∀ r' ∈ rows, ∀ h, r.holder h ≠ "" → r'.holder h = r.holder h →
    DB.holds now r' = false) : OneEach now (rows ++ [r]) := by
  refine pairwise_append.mpr ⟨h1, pairwise_singleton .., ?_⟩
  rintro r' hr' _ hr ⟨hlive, -, h, hne, heq⟩
  rw [mem_singleton.mp hr] at heq
  rw [hnew r' hr' h (heq ▸ hne) heq] at hlive
  cases hlive

end

/-! ## What a creation has asked -/

def Asked (t : Tables) (x : Sql.Open Change RowLock) (m : Know) : Prop :=
  ∀ h i, m.free h = some i → ∀ r ∈ seen x t, r.holder h = i → DB.holds x.start r = false

section
variable {now : Nat} {id : String} {req : CreatePlacementReservationRequest} {x x' : Sql.Open Change RowLock} {m : Know}
variable {t t' : Tables} {task : ReservationTask} {q : Stmt} {others : List RowLock}
variable {h : Holder} {m' : Know} {i : String}

theorem Begun.free (hb : Begun now task x m) (hi : m.free h = some i) :
    i ≠ "" ∧ ∃ id req, task = .create id req ∧ i = req.holder h ∧ m.node = some req.nodeID := by
  cases h with
  | server => exact hb.server i hi
  | migration => exact hb.migration i hi

variable (ha : Asked t x m)
include ha

theorem Asked.settles {added : List PlacementReservation}
    (hadd : ∀ h i, m.free h = some i → ∀ r ∈ added, r.holder h ≠ i) (hs : Settles added t t') : Asked t' x m := by
  obtain ⟨f, hf, rfl⟩ := hs
  intro h i hi r' hr' heq
  obtain ⟨r, hr, rfl⟩ := mem_map.mp hr'
  rw [(closing_expireIf _).holder] at heq
  obtain hr | hr := mem_append.mp hr
  · obtain ⟨r₀, hr₀, rfl⟩ := mem_map.mp hr
    rw [hf.holder] at heq
    have := ha h i hi _ (mem_map_of_mem hr₀) (by rw [(closing_expireIf _).holder]; exact heq)
    rw [holds_expireIf, Bool.and_eq_false_iff] at this ⊢
    rw [hf.id]
    exact this.imp (fun h => by rw [← Bool.not_eq_true] at h ⊢; exact fun h' => h (hf.holds h')) fun h => h
  · exact absurd heq (hadd h i hi r hr)

theorem Asked.expire (ids : List String) (ls : List RowLock) :
    Asked t ⟨x.start, x.changes ++ ids.map fun id => .reservationStatus id .expired, ls⟩ m := by
  intro h i hi r' hr' heq
  obtain ⟨r, hr, rfl⟩ := mem_map.mp hr'
  rw [(closing_expireIf _).holder] at heq
  have := ha h i hi _ (mem_map_of_mem hr) (by rw [(closing_expireIf _).holder]; exact heq)
  rw [holds_expireIf, Bool.and_eq_false_iff] at this ⊢
  simp at this ⊢
  rw [expiredIn_append]
  exact this.imp_right (mem_append_left ids)

theorem Asked.of_eq (hstart : x'.start = x.start)
    (hexp : expiredIn x'.changes = expiredIn x.changes) (hfree : ∀ h, m'.free h = m.free h) : Asked t x' m' := by
  intro h i hi r hr heq
  rw [seen, hexp] at hr
  rw [hstart]
  exact ha h i (hfree h ▸ hi) r hr heq

theorem Asked.learn (hb : Begun now task x m) (hi : m.inserted = none)
    (hno : (database.changed t x.changes).reserved x.start (fun r => r.holder h = i) = false)
    (hfree : ∀ h', m'.free h' = if h' = h then some i else m.free h') : Asked t x m' := by
  intro h' i' hi' r hr heq
  rw [hfree] at hi'
  split at hi'
  · rename_i hh
    cases hi'
    rw [hb.view hi, DB.reserved, any_eq_false] at hno
    simpa [← hh, heq] using hno r hr
  · exact ha h' i' hi' r hr heq

theorem Asked.exec {cs : List Change} (hb : Begun now (.create id req) x m)
    (hl : Learns id req ⟨x.start, database.changed t x.changes, others⟩ m q cs m') (ls : List RowLock) :
    Asked t ⟨x.start, x.changes ++ cs, ls⟩ m' := by
  have hsame : ∀ {m'}, Asked t x m' → Asked t ⟨x.start, x.changes ++ [], ls⟩ m' :=
    fun h => h.of_eq rfl (by rw [append_nil]) fun _ => rfl
  cases hl with
  | nothing => exact hsame ha
  | expired => exact ha.expire _ ls
  | server hn hne hi hno => exact hsame (ha.learn (h := .server) hb hi hno fun h => by cases h <;> rfl)
  | migration hn hne hi hno => exact hsame (ha.learn (h := .migration) hb hi hno fun h => by cases h <;> rfl)
  | node | usage | reserved => exact hsame (ha.of_eq rfl rfl fun h => by cases h <;> rfl)
  | inserted => exact ha.of_eq rfl (expiredIn_new ..) fun h => by cases h <;> rfl

end

def rival (h : Holder) : ReservationTask → ReservationTask → Bool
  | .create _ req, .create _ req' => decide (req.holder h = req'.holder h) && decide (req.nodeID ≠ req'.nodeID)
  | _, _ => false

def unrivalled (s : ReservationState) : Label ReservationTask → Bool
  | .call i o =>
    match s.sends (.call i o) with
    | some (t, .exec q) =>
      match question q with
      | some h => (s.sessions.eraseIdx i).all fun y => y.tx.isNone || !rival h t y.task
      | none => true
    | _ => true
  | _ => true

structure Asking (now : Nat) (db : Tables) (t : ReservationTask) (tx : Option (Sql.Open Change RowLock)) (m : Know) : Prop where
  base : Base now t tx m
  asked : ∀ x, tx = some x → Asked db x m

def Distinct (_ : ReservationTask) (m : Know) (_ : ReservationTask) (m' : Know) : Prop :=
  ∀ h i, m.free h = some i → m'.free h ≠ some i

section
variable {now j k : Nat} {id : String} {req : CreatePlacementReservationRequest} {x : Sql.Open Change RowLock} {m m' : Know}
variable {t t' : Tables} {task : ReservationTask} {q : Stmt} {others : List RowLock}
variable {tx tx' : Option (Sql.Open Change RowLock)} {db db' : Tables} {c : Sql.Call Stmt} {o : Outcome}
variable {r : Sql.Resp Stmt.Val c} {h : Holder} {i : String}

theorem free_default (h : Holder) : (default : Know).free h = none := by
  cases h <;> rfl

theorem Distinct.idle (t t' : ReservationTask) (m : Know) : Distinct t default t' m ∧ Distinct t' m t default := by
  refine ⟨fun h i hi => ?_, fun h i _ => ?_⟩
  · rw [free_default] at hi
    cases hi
  · rw [free_default]
    exact nofun

theorem free_next_exec {r : Except Err q.Val} (hadm : m.admits id req q) (hi : (m.next (.exec q) r).free h = some i) :
    m.free h = some i ∨ question q = some h ∧ i = req.holder h ∧ m.node = some req.nodeID := by
  cases r with
  | error e =>
    rw [Know.next_exec_error] at hi
    exact .inl hi
  | ok v =>
  cases q with
  | serverReserved j =>
    cases v with
    | true => exact .inl hi
    | false =>
      cases h with
      | server =>
        cases hi
        exact .inr ⟨rfl, hadm.2.1, hadm.1⟩
      | migration => exact .inl hi
  | migrationReserved j =>
    cases v with
    | true => exact .inl hi
    | false =>
      cases h with
      | server => exact .inl hi
      | migration =>
        cases hi
        exact .inr ⟨rfl, hadm.2.1, hadm.1⟩
  | expireReservations => exact .inl hi
  | lockNode | nodeUsage | reservedCapacity | insertReservation => cases h <;> exact .inl hi
  | _ => exact hadm.elim

theorem Asking.none (now : Nat) (db : Tables) (t : ReservationTask) : Asking now db t none {} := ⟨Base.none now t, nofun⟩

variable (ha : Asking now db task tx m)
include ha

theorem Asking.free (hi : m.free h = some i) : ∃ x id req, tx = some x ∧ i ≠ "" ∧
    task = .create id req ∧ i = req.holder h ∧ ⟨.node req.nodeID, .update⟩ ∈ x.locks := by
  cases tx with
  | none =>
    rw [ha.base.idle rfl] at hi
    cases (free_default h).symm.trans hi
  | some x =>
    have hb := ha.base.begun x rfl
    obtain ⟨hne, id, req, ht, heq, hn⟩ := hb.free hi
    exact ⟨x, id, req, rfl, hne, ht, heq, (hb.node _ hn).1⟩

theorem Asking.inserted {new : PlacementReservation} (hnew : m.inserted = some new)
    (hne : new.holder h ≠ "") : m.free h = some (new.holder h) := by
  cases tx with
  | none =>
    rw [ha.base.idle rfl] at hnew
    cases hnew
  | some x =>
    obtain ⟨id, req, e, -, rfl, -, hs, hm⟩ := (ha.base.begun x rfl).inserted new hnew
    cases h with
    | server => exact hs hne
    | migration => exact hm hne

theorem Asking.call (hadm : (reserving task).admits m c) (hans : database.answer now db others tx c o = some (r, db', tx')) :
    Asking now db' task tx' ((reserving task).next m c r) := by
  refine ⟨ha.base.call hadm hans, ?_⟩
  cases c with
  | begin =>
    intro x _ h i hi
    cases (free_default h).symm.trans hi
  | exec q =>
    obtain ⟨rfl, ⟨⟨e, rfl⟩, rfl⟩ | ⟨x, rfl, -, rfl, rfl⟩⟩ := Sql.answer_exec hans
    · rw [show (reserving task).next m (.exec q) (.error e) = m from Know.next_exec_error q e]
      exact ha.asked
    · obtain ⟨id, req, rfl, hadm⟩ := hadm
      rintro _ ⟨⟩
      exact (ha.asked x rfl).exec (ha.base.begun x rfl) (learns hadm) _
  | commit => obtain ⟨rfl, -⟩ := Sql.answer_commit hans; exact nofun
  | rollback => obtain ⟨-, rfl⟩ := Sql.answer_rollback hans; exact nofun
  | auto =>
    obtain hs | ⟨_, ⟨⟩, -⟩ := ha.base.settles hadm hans
    obtain ⟨rfl, -⟩ := Sql.answer_auto hans
    exact fun x hx => (ha.asked x hx).settles (by simp) hs

theorem Asking.oneEach (h1 : OneEach now db.placementReservations)
    (hadm : (reserving task).admits m c) (hans : database.answer now db others tx c o = some (r, db', tx')) :
    OneEach now db'.placementReservations := by
  obtain ⟨f, hf, rfl⟩ | ⟨new, rfl, hnew, -⟩ := ha.base.settles hadm hans
  · rw [append_nil]
    exact h1.map hf.holder fun _ => hf.holds
  · obtain ⟨-, ⟨-, rfl⟩ | ⟨x, rfl, rfl⟩⟩ := Sql.answer_commit hans
    · exact h1
    have hb := ha.base.begun x rfl
    rw [hb.view_inserted hnew]
    refine OneEach.concat (h1.map (closing_expireIf _).holder fun _ => (closing_expireIf _).holds) fun r hr h hne heq => ?_
    have hfalse := ha.asked x rfl h _ (ha.inserted hnew hne) r hr heq
    rw [← Bool.not_eq_true] at hfalse ⊢
    exact fun hlive => hfalse (holds_mono hb.start hlive)

omit ha

theorem Asking.distinct {s : ReservationState} {p : Sql.Resp Stmt.Val c → Prog (Sql.Resp Stmt.Val) Unit}
    {y : Sql.Session Stmt.Val ReservationTask Change RowLock} (hapart : database.Apart s) (hkj : k ≠ j)
    (hk : s.sessions[k]? = some ⟨task, .call c p, tx⟩) (hj : s.sessions[j]? = some y)
    (ha : Asking now db task tx m) (hy : Asking now db' y.task y.tx m') (hallowed : unrivalled s (.call k o) = true)
    (hadm : (reserving task).admits m c) (hans : database.answer now t others tx c o = some (r, t', tx'))
    (hold : Distinct task m y.task m') : Distinct task ((reserving task).next m c r) y.task m' := by
  intro h i hi hi'
  cases c with
  | begin | commit | rollback => cases (free_default h).symm.trans hi
  | auto => exact hold h i hi hi'
  | exec =>
    obtain ⟨id, req, rfl, hadm⟩ := hadm
    obtain hfree | ⟨hq, rfl, hn⟩ := free_next_exec hadm hi
    · exact hold h i hfree hi'
    obtain ⟨x', _, req', hx', -, ht', heq, hlock'⟩ := hy.free hi'
    cases tx with
    | none =>
      rw [ha.base.idle rfl] at hn
      cases hn
    | some x =>
      have hlock := ((ha.base.begun x rfl).node _ hn).1
      have hne : req.nodeID ≠ req'.nodeID := by
        refine node_ne_of_apart hapart hkj hk hj hlock ?_
        rw [Sql.Session.held, hx']
        exact hlock'
      simp [unrivalled, Sql.State.sends, hk, hq] at hallowed
      have := hallowed y (mem_eraseIdx_iff_getElem?.mpr ⟨j, Ne.symm hkj, hj⟩)
      simp [hx', ht', rival, heq, hne] at this

end

theorem asking_tracks :
    Sql.Tracks database ReservationTask.program (fun s l => unrivalled s l = true) reserving
      (fun now db _ => OneEach now db.placementReservations) Asking Distinct where
  start s t _ := ⟨wp_program t, Asking.none _ _ t⟩
  stop now db t _ _ _ := Asking.none now db t
  idle_pair := Distinct.idle
  join _ _ _ _ h := h
  leave _ _ _ _ _ _ h _ := h
  tick now db gs d h := h.tick (Nat.le_add_right now d)
  tick_each now db t tx m d h := ⟨⟨h.base.idle, fun x hx => (h.base.begun x hx).tick d⟩, h.asked⟩
  call := by
    intro s g i o t c k tx m r db' tx' hapart hg hI hallowed hi hans hadm ha
    refine ⟨trivial, ha.oneEach hI hadm hans, ha.call hadm hans, fun j y m' hji hj => ?_⟩
    obtain ⟨-, hy⟩ := hg.each j y m' hj
    refine ⟨⟨hy.base, fun x hx => ?_⟩, ?_⟩
    · obtain hs | ⟨new, rfl, hnew, hs⟩ := ha.base.settles hadm hans
      · exact (hy.asked x hx).settles (by simp) hs
      · refine (hy.asked x hx).settles (fun h i' hi' r hr heq => ?_) hs
        rw [mem_singleton.mp hr] at heq
        obtain ⟨-, -, -, -, hne, -⟩ := hy.free hi'
        subst heq
        exact hg.pair i j _ m y m' (Ne.symm hji) hi hj h _ (ha.inserted hnew hne) hi'
    · have hno := Asking.distinct hapart (Ne.symm hji) (hg.session hi) (hg.session hj) ha hy hallowed hadm hans
        (hg.pair i j _ m y m' (Ne.symm hji) hi hj)
      exact ⟨hno, fun h i' hi' hi'' => hno h i' hi'' hi'⟩

/-- Where no rival has a transaction open while a creation asks, a server or a migration holds at most one live
reservation in every state. -/
theorem one_live_reservation_each {s₀ s : ReservationState} {ls : List (Label ReservationTask)} (hs : s₀.sessions = [])
    (h1 : OneEach s₀.now s₀.db.placementReservations)
    (hrun : Run (database.next ReservationTask.program) (fun s l => unrivalled s l = true) s₀ ls s) :
    OneEach s.now s.db.placementReservations := by
  obtain ⟨-, _, -, h⟩ := asking_tracks.run (Sql.Kept.init hs h1) hrun
  exact h

def twoNodes : ReservationState where
  now := 0
  db := {
    nodes := [{ id := "a", baseURL := "" }, { id := "b", baseURL := "" }]
    servers := [{ id := "s", name := "", nodeID := "a" }] }

def onNode (n : String) : CreatePlacementReservationRequest := { nodeID := n, serverID := "s", expiresAt := some 100 }

theorem one_live_reservation_each_twoNodes :
    ∃ ls s, Run (database.next ReservationTask.program) (fun s l => unrivalled s l = true) twoNodes ls s ∧
      s.db.placementReservations.length = 1 ∧ OneEach s.now s.db.placementReservations := by
  refine ⟨.start (.create "x" (onNode "a")) :: List.replicate 9 (.call 0 .delivered) ++
    .start (.create "y" (onNode "b")) :: List.replicate 5 (.call 1 .delivered), ?_⟩
  exact exists_run_and (by decide +kernel) fun s hs _ => one_live_reservation_each rfl (by decide +kernel) hs

theorem rival_creations_both_reserve :
    ∃ ls s, Run (database.next ReservationTask.program) (fun _ _ => True) twoNodes ls s ∧
      OneEach twoNodes.now twoNodes.db.placementReservations ∧ ¬ OneEach s.now s.db.placementReservations := by
  refine ⟨[.start (.create "x" (onNode "a")), .start (.create "y" (onNode "b"))] ++
    List.replicate 4 (.call 0 .delivered) ++ List.replicate 8 (.call 1 .delivered) ++ List.replicate 4 (.call 0 .delivered), ?_⟩
  decide +kernel

/-! ## What becomes of a reservation -/

/-- Every row is still there, and only one that was open can have another status. -/
def Grown (rows rows' : List PlacementReservation) : Prop := ∃ f, Closing f ∧ rows.map f <+: rows'

theorem Grown.settles {rows added : List PlacementReservation} {db db' : Tables}
    (h : Grown rows db.placementReservations) (hs : Settles added db db') : Grown rows db'.placementReservations := by
  obtain ⟨f, hf, hrows⟩ := h
  obtain ⟨g, hg, rfl⟩ := hs
  refine ⟨g ∘ f, hf.comp hg, ?_⟩
  rw [← map_map]
  exact (hrows.map g).trans (prefix_append _ _)

theorem grown_tracks (rows : List PlacementReservation) :
    Sql.Tracks database ReservationTask.program (fun _ _ => True) reserving
      (fun _ db _ => Grown rows db.placementReservations) (fun now _ => Base now) (fun _ _ _ _ => True) where
  start _ t _ := ⟨wp_program t, Base.none _ t⟩
  stop now _ t _ _ _ := Base.none now t
  idle_pair _ _ _ := ⟨trivial, trivial⟩
  join _ _ _ _ h := h
  leave _ _ _ _ _ _ h _ := h
  tick _ _ _ _ h := h
  tick_each _ _ _ _ _ d h := ⟨h.idle, fun x hx => (h.begun x hx).tick d⟩
  call := by
    intro s g i o t c k tx m r db' tx' _ hg hI _ _ hans hadm hbase
    refine ⟨trivial, ?_, hbase.call hadm hans, fun j y m' _ hj => ⟨(hg.each j y m' hj).2, trivial, trivial⟩⟩
    obtain hs | ⟨_, -, -, hs⟩ := hbase.settles hadm hans
    · exact hI.settles hs
    · exact hI.settles hs

/-- Whatever sessions run, fail and crash between two moments of a run, no reservation is lost, and only one that was
open at the first has another status at the second. -/
theorem reservations_only_close {s₀ s s' : ReservationState} {ls ls' : List (Label ReservationTask)} (hs : s₀.sessions = [])
    (hrun : Run (database.next ReservationTask.program) (fun _ _ => True) s₀ ls s)
    (hrun' : Run (database.next ReservationTask.program) (fun _ _ => True) s ls' s') :
    Grown s.db.placementReservations s'.db.placementReservations := by
  obtain ⟨hapart, g, hg, -⟩ := (grown_tracks []).run (Sql.Kept.init hs ⟨id, fun _ => .inl rfl, nil_prefix⟩) hrun
  obtain ⟨-, _, -, h⟩ := (grown_tracks s.db.placementReservations).run
    ⟨hapart, g, ⟨hg.sessions, hg.each, hg.pair⟩, id, fun _ => .inl rfl, by simp⟩ hrun'
  exact h

def heldByServer : ReservationState :=
  { twoNodes with db := { twoNodes.db with placementReservations := [(onNode "a").row "x" 100] } }

theorem reservations_only_close_expired :
    ∃ s', Run (database.next ReservationTask.program) (fun _ _ => True) heldByServer
      [.tick 200, .start .expire, .call 0 .delivered] s' ∧ s'.db.placementReservations.map (·.status) = [.expired] ∧
      Grown heldByServer.db.placementReservations s'.db.placementReservations :=
  exists_run_and (by decide +kernel) fun _ h _ => @reservations_only_close heldByServer heldByServer _ [] _ rfl rfl h

end Postgres

end ForgePlane
