import ForgePlane.Ghosts
import Mathlib.Data.List.Basic

/-!
# Sessions of a database

A session runs a program whose calls are statements, each alone or inside the transaction the session has
open. A statement sees what is committed when it runs, and waits for the locks of other transactions.
-/

namespace ForgePlane.Sql

open List

inductive Call (Stmt : Type) where
  | begin
  | exec (q : Stmt)
  | commit
  | rollback
  | auto (q : Stmt)

abbrev Resp {Stmt : Type} (Val : Stmt → Type) : Call Stmt → Type
  | .begin => Except String Unit
  | .exec q => Except String (Val q)
  | .commit => Except String Unit
  | .rollback => Unit
  | .auto q => Except String (Val q)

structure Sight (D Lock : Type) where
  now : Nat
  db : D
  others : List Lock

structure Database {Stmt : Type} (Val : Stmt → Type) (D Change Lock : Type) where
  apply : D → Change → D
  run : Sight D Lock → (q : Stmt) → Except String (Val q) × List Change
  locks : Sight D Lock → Stmt → List Lock
  clash : Lock → Lock → Bool
  clash_comm : ∀ a b, clash a b = clash b a

structure Open (Change Lock : Type) where
  start : Nat
  changes : List Change := []
  locks : List Lock := []

structure Session {Stmt : Type} (Val : Stmt → Type) (τ Change Lock : Type) where
  task : τ
  prog : Prog (Resp Val) Unit
  tx : Option (Open Change Lock) := none

structure State {Stmt : Type} (Val : Stmt → Type) (τ D Change Lock : Type) where
  now : Nat
  db : D
  sessions : List (Session Val τ Change Lock) := []

section
variable {Stmt : Type} {Val : Stmt → Type} {τ D Change Lock : Type}

def Session.held (x : Session Val τ Change Lock) : List Lock :=
  match x.tx with
  | none => []
  | some t => t.locks

def State.others (s : State Val τ D Change Lock) (i : Nat) : List Lock := (s.sessions.eraseIdx i).flatMap Session.held

def State.sends (s : State Val τ D Change Lock) : Label τ → Option (τ × Call Stmt)
  | .call i _ =>
    match s.sessions[i]? with
    | some ⟨t, .call c _, _⟩ => some (t, c)
    | _ => none
  | _ => none

variable (B : Database Val D Change Lock)

def Database.changed (db : D) (cs : List Change) : D := cs.foldl B.apply db

def Database.free (others ls : List Lock) : Bool := ls.all fun a => others.all fun b => !B.clash a b

/-- A statement that fails on the way leaves its transaction as it was; a commit that fails has
ended it, with or without effect. -/
def Database.answer (now : Nat) (db : D) (others : List Lock) (tx : Option (Open Change Lock)) :
    (c : Call Stmt) → Outcome → Option (Resp Val c × D × Option (Open Change Lock))
  | .begin, .delivered => some (.ok (), db, some ⟨now, [], []⟩)
  | .begin, .lost e => some (.error e, db, none)
  | .exec q, .delivered =>
    match tx with
    | none => none
    | some x =>
      if B.free others (B.locks ⟨x.start, B.changed db x.changes, others⟩ q) then
        some ((B.run ⟨x.start, B.changed db x.changes, others⟩ q).1, db,
          some ⟨x.start, x.changes ++ (B.run ⟨x.start, B.changed db x.changes, others⟩ q).2,
            x.locks ++ B.locks ⟨x.start, B.changed db x.changes, others⟩ q⟩)
      else none
  | .exec _, .lost e => some (.error e, db, tx)
  | .commit, .delivered => tx.map fun x => (.ok (), B.changed db x.changes, none)
  | .commit, .lost e => some (.error e, db, none)
  | .commit, .ambiguous e => tx.map fun x => (.error e, B.changed db x.changes, none)
  | .rollback, .delivered => some ((), db, none)
  | .auto q, .delivered =>
    if B.free others (B.locks ⟨now, db, others⟩ q) then
      some ((B.run ⟨now, db, others⟩ q).1, B.changed db (B.run ⟨now, db, others⟩ q).2, tx)
    else none
  | .auto _, .lost e => some (.error e, db, tx)
  | .auto q, .ambiguous e =>
    if B.free others (B.locks ⟨now, db, others⟩ q) then
      some (.error e, B.changed db (B.run ⟨now, db, others⟩ q).2, tx)
    else none
  | _, _ => none

/-- A session that dies takes its transaction with it. -/
def Database.next (program : τ → Prog (Resp Val) Unit) (s : State Val τ D Change Lock) :
    Label τ → Option (State Val τ D Change Lock)
  | .call i o =>
    match s.sessions[i]? with
    | some ⟨t, .call c k, tx⟩ =>
      (B.answer s.now s.db (s.others i) tx c o).map fun a => ⟨s.now, a.2.1, s.sessions.set i ⟨t, k a.1, a.2.2⟩⟩
    | _ => none
  | .start t => some ⟨s.now, s.db, s.sessions ++ [⟨t, program t, none⟩]⟩
  | .tick d => some ⟨s.now + d, s.db, s.sessions⟩
  | .crash i =>
    match s.sessions[i]? with
    | some x => some ⟨s.now, s.db, s.sessions.set i ⟨x.task, .ret (), none⟩⟩
    | none => none

/-! ## What a call can do -/

variable {B} {now : Nat} {db db' : D} {others ls : List Lock} {tx tx' : Option (Open Change Lock)} {o : Outcome}

variable {r : Except String Unit} {q : Stmt} {t : τ} {c : Call Stmt}

theorem answer_begin (h : B.answer now db others tx .begin o = some (r, db', tx')) :
    db' = db ∧ (r = .ok () ∧ tx' = some ⟨now, [], []⟩ ∨ (∃ e, r = .error e) ∧ tx' = none) := by
  cases o with
  | delivered => cases h; exact ⟨rfl, .inl ⟨rfl, rfl⟩⟩
  | lost e => cases h; exact ⟨rfl, .inr ⟨⟨e, rfl⟩, rfl⟩⟩
  | ambiguous => cases h

theorem answer_exec {r : Except String (Val q)} (h : B.answer now db others tx (.exec q) o = some (r, db', tx')) :
    db' = db ∧ ((∃ e, r = .error e) ∧ tx' = tx ∨
      ∃ x, tx = some x ∧ B.free others (B.locks ⟨x.start, B.changed db x.changes, others⟩ q) = true ∧
        r = (B.run ⟨x.start, B.changed db x.changes, others⟩ q).1 ∧
        tx' = some ⟨x.start, x.changes ++ (B.run ⟨x.start, B.changed db x.changes, others⟩ q).2,
          x.locks ++ B.locks ⟨x.start, B.changed db x.changes, others⟩ q⟩) := by
  cases o with
  | delivered =>
    cases tx with
    | none => cases h
    | some x =>
      simp only [Database.answer] at h
      split at h
      · rename_i hfree
        cases h
        exact ⟨rfl, .inr ⟨x, rfl, hfree, rfl, rfl⟩⟩
      · cases h
  | lost e => cases h; exact ⟨rfl, .inl ⟨⟨e, rfl⟩, rfl⟩⟩
  | ambiguous => cases h

variable (h : B.answer now db others tx .commit o = some (r, db', tx'))
include h

theorem answer_commit :
    tx' = none ∧ ((∃ e, r = .error e) ∧ db' = db ∨ ∃ x, tx = some x ∧ db' = B.changed db x.changes) := by
  cases o with
  | lost e => cases h; exact ⟨rfl, .inl ⟨⟨e, rfl⟩, rfl⟩⟩
  | delivered | ambiguous =>
    obtain ⟨x, hx, he⟩ := Option.map_eq_some_iff.mp h
    cases he
    exact ⟨rfl, .inr ⟨x, hx, rfl⟩⟩

theorem answer_commit_effect
    (ho : o.isLost = false) : ∃ x, tx = some x ∧ db' = B.changed db x.changes := by
  cases o with
  | lost => cases ho
  | delivered | ambiguous =>
    obtain ⟨x, hx, he⟩ := Option.map_eq_some_iff.mp h
    cases he
    exact ⟨x, hx, rfl⟩

omit h

theorem answer_rollback {r : Unit} (h : B.answer now db others tx .rollback o = some (r, db', tx')) :
    db' = db ∧ tx' = none := by
  cases o with
  | delivered => cases h; exact ⟨rfl, rfl⟩
  | lost | ambiguous => cases h

theorem answer_auto {r : Except String (Val q)} (h : B.answer now db others tx (.auto q) o = some (r, db', tx')) :
    tx' = tx ∧ ((∃ e, r = .error e) ∧ db' = db ∨
      B.free others (B.locks ⟨now, db, others⟩ q) = true ∧ db' = B.changed db (B.run ⟨now, db, others⟩ q).2 ∧
        ((∃ e, r = .error e) ∨ r = (B.run ⟨now, db, others⟩ q).1)) := by
  cases o with
  | lost e => cases h; exact ⟨rfl, .inl ⟨⟨e, rfl⟩, rfl⟩⟩
  | delivered =>
    simp only [Database.answer] at h
    split at h
    · rename_i hfree
      cases h
      exact ⟨rfl, .inr ⟨hfree, rfl, .inr rfl⟩⟩
    · cases h
  | ambiguous e =>
    simp only [Database.answer] at h
    split at h
    · rename_i hfree
      cases h
      exact ⟨rfl, .inr ⟨hfree, rfl, .inl ⟨e, rfl⟩⟩⟩
    · cases h

@[simp] theorem changed_nil (db : D) : B.changed db [] = db := rfl

theorem changed_append (db : D) (cs cs' : List Change) :
    B.changed db (cs ++ cs') = B.changed (B.changed db cs) cs' := foldl_append

@[simp] theorem changed_singleton (db : D) (c : Change) : B.changed db [c] = B.apply db c := rfl

variable {program : τ → Prog (Resp Val) Unit} {s s' : State Val τ D Change Lock} {i : Nat}
variable {l : Label τ} {b a : Lock} {p p' : Prog (Resp Val) Unit}

theorem next_call (h : B.next program s (.call i o) = some s') :
    ∃ t c k tx r db' tx', s.sessions[i]? = some ⟨t, .call c k, tx⟩ ∧
      B.answer s.now s.db (s.others i) tx c o = some (r, db', tx') ∧
      s' = ⟨s.now, db', s.sessions.set i ⟨t, k r, tx'⟩⟩ := by
  simp [Database.next] at h
  split at h
  · rename_i t c k tx hi
    obtain ⟨⟨r, db', tx'⟩, ha, rfl⟩ := Option.map_eq_some_iff.mp h
    exact ⟨t, c, k, tx, r, db', tx', hi, ha, rfl⟩
  · cases h

theorem sends_call (h : s.sends (.call i o) = some (t, c)) :
    ∃ k tx, s.sessions[i]? = some ⟨t, .call c k, tx⟩ := by
  simp [State.sends] at h
  split at h
  · rename_i k tx hi
    cases h
    exact ⟨k, tx, hi⟩
  · cases h

theorem next_crash (h : B.next program s (.crash i) = some s') :
    ∃ x, s.sessions[i]? = some x ∧ s' = ⟨s.now, s.db, s.sessions.set i ⟨x.task, .ret (), none⟩⟩ := by
  simp [Database.next] at h
  split at h
  · rename_i x hi
    exact ⟨x, hi, (Option.some.inj h).symm⟩
  · cases h

/-! ## Locks held apart -/

theorem mem_others :
    b ∈ s.others i ↔ ∃ j y, j ≠ i ∧ s.sessions[j]? = some y ∧ b ∈ y.held := by
  simp only [State.others, mem_flatMap, mem_eraseIdx_iff_getElem?]
  constructor
  · rintro ⟨y, ⟨j, hj, hy⟩, hb⟩
    exact ⟨j, y, hj, hy, hb⟩
  · rintro ⟨j, y, hj, hy, hb⟩
    exact ⟨y, ⟨j, hj, hy⟩, hb⟩

theorem free_iff : B.free others ls = true ↔ ∀ a ∈ ls, ∀ b ∈ others, B.clash a b = false := by
  simp [Database.free]

def Database.Apart (B : Database Val D Change Lock) (s : State Val τ D Change Lock) : Prop :=
  ∀ (i j : Nat) (x y : Session Val τ Change Lock), i ≠ j → s.sessions[i]? = some x → s.sessions[j]? = some y →
    ∀ a ∈ x.held, ∀ b ∈ y.held, B.clash a b = false

theorem Database.Apart.set {x : Session Val τ Change Lock} (h : B.Apart s)
    (hx : ∀ j y, j ≠ i → s.sessions[j]? = some y → ∀ a ∈ x.held, ∀ b ∈ y.held, B.clash a b = false) :
    B.Apart { s with db := db, sessions := s.sessions.set i x } := by
  intro j k y z hjk hy hz
  refine pair_set (R := fun x y : Session Val τ Change Lock => ∀ a ∈ x.held, ∀ b ∈ y.held, B.clash a b = false) h
    (fun j y hj hy => ⟨hx j y hj hy, ?_⟩) hjk hy hz
  intro a ha b hb
  rw [B.clash_comm]
  exact hx j y hj hy b hb a ha

theorem answer_held {r : Resp Val c}
    (h : B.answer now db others tx c o = some (r, db', tx'))
    (ha : a ∈ (⟨t, p', tx'⟩ : Session Val τ Change Lock).held) :
    a ∈ (⟨t, p, tx⟩ : Session Val τ Change Lock).held ∨ ∀ b ∈ others, B.clash a b = false := by
  cases c with
  | begin =>
    obtain ⟨-, ⟨-, rfl⟩ | ⟨-, rfl⟩⟩ := answer_begin h
    · exact absurd ha not_mem_nil
    · exact absurd ha not_mem_nil
  | exec =>
    obtain ⟨-, ⟨-, rfl⟩ | ⟨x, rfl, hfree, -, rfl⟩⟩ := answer_exec h
    · exact .inl ha
    · obtain ha | ha := mem_append.mp ha
      · exact .inl ha
      · exact .inr (free_iff.mp hfree a ha)
  | commit =>
    obtain ⟨rfl, -⟩ := answer_commit h
    exact absurd ha not_mem_nil
  | rollback =>
    obtain ⟨-, rfl⟩ := answer_rollback h
    exact absurd ha not_mem_nil
  | auto =>
    obtain ⟨rfl, -⟩ := answer_auto h
    exact .inl ha

theorem Database.Apart.next (h : B.Apart s) (hn : B.next program s l = some s') : B.Apart s' := by
  cases l with
  | start =>
    cases hn
    intro i j x y hij hx hy a ha b hb
    obtain ⟨-, rfl⟩ | hx := snoc_cases hx
    · cases ha
    · obtain ⟨-, rfl⟩ | hy := snoc_cases hy
      · cases hb
      · exact h i j x y hij hx hy a ha b hb
  | tick => cases hn; exact h
  | crash =>
    obtain ⟨x, hi, rfl⟩ := next_crash hn
    exact h.set nofun
  | call i =>
    obtain ⟨t, c, k, tx, r, db', tx', hi, ha, rfl⟩ := next_call hn
    refine h.set fun j y hj hy a hheld b hb => ?_
    obtain hold | hnew := answer_held (p := .call c k) ha hheld
    · exact h i j _ y (Ne.symm hj) hi hy a hold b hb
    · exact hnew b (mem_others.mpr ⟨j, y, hj, hy, hb⟩)

/-! ## Invariants of the database and of every session

A monitor follows each session. `R` ties the state it is in to the session's transaction and to the
database, `K` relates the states of two sessions, and `I` is about the database and all of them. -/

variable {μ : Type}

structure Tracked (N : τ → Monitor (Resp Val) μ) (R : Nat → D → τ → Option (Open Change Lock) → μ → Prop)
    (K : τ → μ → τ → μ → Prop) (s : State Val τ D Change Lock) (g : List (Session Val τ Change Lock × μ)) : Prop where
  sessions : g.map (·.1) = s.sessions
  each : ∀ (i : Nat) (x : Session Val τ Change Lock) (m : μ), g[i]? = some (x, m) →
    wp (N x.task) x.prog (fun _ _ => True) m ∧ R s.now s.db x.task x.tx m
  pair : ∀ (i j : Nat) (x : Session Val τ Change Lock) (m : μ) (y : Session Val τ Change Lock) (m' : μ), i ≠ j →
    g[i]? = some (x, m) → g[j]? = some (y, m') → K x.task m y.task m'

def ghosts (g : List (Session Val τ Change Lock × μ)) : List (τ × μ) := g.map fun x => (x.1.task, x.2)

/-- What the steps of a system must preserve; a session that has not begun, or has died, is followed from the
monitor state `default`. -/
structure Tracks [Inhabited μ] (B : Database Val D Change Lock) (program : τ → Prog (Resp Val) Unit)
    (allowed : State Val τ D Change Lock → Label τ → Prop) (N : τ → Monitor (Resp Val) μ)
    (I : Nat → D → List (τ × μ) → Prop) (R : Nat → D → τ → Option (Open Change Lock) → μ → Prop)
    (K : τ → μ → τ → μ → Prop) : Prop where
  start : ∀ s t, allowed s (.start t) → wp (N t) (program t) (fun _ _ => True) default ∧ R s.now s.db t none default
  stop : ∀ now db t tx m, R now db t tx m → R now db t none default
  idle_pair : ∀ t t' m, K t default t' m ∧ K t' m t default
  join : ∀ now db gs t, I now db gs → I now db (gs ++ [(t, default)])
  leave : ∀ now db gs i t m, I now db gs → gs[i]? = some (t, m) → I now db (gs.set i (t, default))
  tick : ∀ now db gs d, I now db gs → I (now + d) db gs
  tick_each : ∀ now db t tx m d, R now db t tx m → R (now + d) db t tx m
  call : ∀ (s : State Val τ D Change Lock) (g : List (Session Val τ Change Lock × μ)) i o t c k tx m r db' tx',
    B.Apart s → Tracked N R K s g → I s.now s.db (ghosts g) → allowed s (.call i o) → g[i]? = some (⟨t, .call c k, tx⟩, m) →
    B.answer s.now s.db (s.others i) tx c o = some (r, db', tx') → (N t).admits m c → R s.now s.db t tx m →
    (N t).expects m c r ∧ I s.now db' ((ghosts g).set i (t, (N t).next m c r)) ∧ R s.now db' t tx' ((N t).next m c r) ∧
      ∀ (j : Nat) (y : Session Val τ Change Lock) (m' : μ), j ≠ i → g[j]? = some (y, m') →
        R s.now db' y.task y.tx m' ∧ K t ((N t).next m c r) y.task m' ∧ K y.task m' t ((N t).next m c r)

def Kept (B : Database Val D Change Lock) (N : τ → Monitor (Resp Val) μ) (I : Nat → D → List (τ × μ) → Prop)
    (R : Nat → D → τ → Option (Open Change Lock) → μ → Prop) (K : τ → μ → τ → μ → Prop)
    (s : State Val τ D Change Lock) : Prop :=
  B.Apart s ∧ ∃ g, Tracked N R K s g ∧ I s.now s.db (ghosts g)

section
variable {N : τ → Monitor (Resp Val) μ} {I : Nat → D → List (τ × μ) → Prop}
variable {R : Nat → D → τ → Option (Open Change Lock) → μ → Prop} {K : τ → μ → τ → μ → Prop}
variable {allowed : State Val τ D Change Lock → Label τ → Prop}
variable {g : List (Session Val τ Change Lock × μ)}
variable {x : Session Val τ Change Lock}

theorem Tracked.getElem? (h : Tracked N R K s g) (hx : s.sessions[i]? = some x) : ∃ m, g[i]? = some (x, m) := by
  rw [← h.sessions, List.getElem?_map] at hx
  obtain ⟨⟨x', m⟩, hg, rfl⟩ := Option.map_eq_some_iff.mp hx
  exact ⟨m, hg⟩

theorem Tracked.session (h : Tracked N R K s g) {m : μ} (hg : g[i]? = some (x, m)) : s.sessions[i]? = some x := by
  rw [← h.sessions, List.getElem?_map, hg]
  rfl

theorem Tracked.set (h : Tracked N R K s g) (db : D)
    (y : Session Val τ Change Lock) (m' : μ)
    (hy : wp (N y.task) y.prog (fun _ _ => True) m' ∧ R s.now db y.task y.tx m')
    (hrest : ∀ j z n, j ≠ i → g[j]? = some (z, n) →
      R s.now db z.task z.tx n ∧ K y.task m' z.task n ∧ K z.task n y.task m') :
    Tracked N R K { s with db := db, sessions := s.sessions.set i y } (g.set i (y, m')) := by
  refine ⟨by simp [h.sessions], fun j z n hz => ?_, fun j k z n z' n' hjk hz hz' => ?_⟩
  · obtain ⟨-, he⟩ | ⟨hji, hz⟩ := set_cases hz
    · cases he
      exact hy
    · exact ⟨(h.each j z n hz).1, (hrest j z n hji hz).1⟩
  · exact pair_set (R := fun x y => K x.1.task x.2 y.1.task y.2) (fun a b y z => h.pair a b _ _ _ _)
      (fun j y hj hy => (hrest j _ _ hj hy).2) hjk hz hz'

theorem Tracks.step [Inhabited μ] (h : Tracks B program allowed N I R K) (hs : Kept B N I R K s)
    (ha : allowed s l) (hn : B.next program s l = some s') : Kept B N I R K s' := by
  refine ⟨hs.1.next hn, ?_⟩
  obtain ⟨hapart, g, hg, hI⟩ := hs
  cases l with
  | start t =>
    cases hn
    refine ⟨g ++ [(⟨t, program t, none⟩, default)], ⟨by simp [hg.sessions], ?_, ?_⟩, ?_⟩
    · intro i x m hx
      obtain ⟨-, hx⟩ | hx := snoc_cases hx
      · cases hx
        exact h.start s t ha
      · exact hg.each i x m hx
    · intro i j x m y m' hij hx hy
      obtain ⟨-, hx⟩ | hx := snoc_cases hx
      · cases hx
        exact (h.idle_pair ..).1
      · obtain ⟨-, hy⟩ | hy := snoc_cases hy
        · cases hy
          exact (h.idle_pair ..).2
        · exact hg.pair i j x m y m' hij hx hy
    · rw [ghosts, map_append]
      exact h.join _ _ _ t hI
  | tick d =>
    cases hn
    exact ⟨g, ⟨hg.sessions, fun i x m hx => ⟨(hg.each i x m hx).1, h.tick_each _ _ _ _ _ d (hg.each i x m hx).2⟩,
      hg.pair⟩, h.tick _ _ _ d hI⟩
  | crash i =>
    obtain ⟨x, hi, rfl⟩ := next_crash hn
    obtain ⟨m, hm⟩ := hg.getElem? hi
    refine ⟨_, hg.set s.db ⟨x.task, .ret (), none⟩ default ⟨trivial, h.stop _ _ _ _ _ (hg.each i x m hm).2⟩ fun j z n _ hz =>
      ⟨(hg.each j z n hz).2, h.idle_pair ..⟩, ?_⟩
    rw [ghosts, map_set]
    exact h.leave _ _ _ i x.task m hI (by simp [hm])
  | call i o =>
    obtain ⟨t, c, k, tx, r, db', tx', hi, hans, rfl⟩ := next_call hn
    obtain ⟨m, hm⟩ := hg.getElem? hi
    obtain ⟨⟨hadm, hk⟩, hR⟩ := hg.each i _ m hm
    obtain ⟨hexp, hI', hR', hrest⟩ := h.call s g i o t c k tx m r db' tx' hapart hg hI ha hm hans hadm hR
    refine ⟨_, hg.set db' ⟨t, k r, tx'⟩ _ ⟨hk r hexp, hR'⟩ hrest, ?_⟩
    rw [ghosts, map_set]
    exact hI'

theorem Tracks.run [Inhabited μ] (h : Tracks B program allowed N I R K) {ls : List (Label τ)} (hs : Kept B N I R K s)
    (hr : Run (B.next program) allowed s ls s') : Kept B N I R K s' :=
  Run.invariant (fun _ _ _ hs ha hn => h.step hs ha hn) hs hr

theorem Kept.init (hs : s.sessions = []) (hI : I s.now s.db []) : Kept B N I R K s := by
  refine ⟨fun i j x y _ hx => ?_, [], ⟨hs.symm, nofun, nofun⟩, hI⟩
  rw [hs] at hx
  cases hx

end

end

end ForgePlane.Sql
