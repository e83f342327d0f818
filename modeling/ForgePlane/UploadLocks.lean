import ForgePlane.Ghosts
import ForgePlane.Table

/-!
# The locks of chunked uploads

`lockUpload` looks the mutex of a key up, or stores a new one, and locks it; the function it returns unlocks
it and deletes the key, whoever else has looked the mutex up in between.
-/

namespace ForgePlane.UploadLocks

open List

inductive LockCall where
  | loadOrStore (key : String)
  | lock (mu : Nat)
  | chunk
  | unlock (mu : Nat)
  | delete (key : String)
  deriving DecidableEq, Repr

abbrev LockResp : LockCall → Type
  | .loadOrStore _ => Nat
  | _ => Unit

abbrev Goroutine := Prog LockResp

def call (c : LockCall) : Goroutine (LockResp c) := .call c .ret

def uploadKey (serverID uploadID : String) : String := serverID ++ "/" ++ uploadID

def unlocker (key : String) (mu : Nat) : Goroutine Unit := do
  call (.unlock mu)
  call (.delete key)

def lockUpload (serverID uploadID : String) : Goroutine (Goroutine Unit) := do
  let key := uploadKey serverID uploadID
  let mu ← call (.loadOrStore key)
  call (.lock mu)
  pure (unlocker key mu)

structure ChunkUpload where
  serverID : String
  uploadID : String
  steps : Nat := 0
  deriving DecidableEq, Repr

def chunks : Nat → Goroutine Unit
  | 0 => pure ()
  | n + 1 => do
    call .chunk
    chunks n

def ChunkUpload.program (u : ChunkUpload) : Goroutine Unit := do
  let unlock ← lockUpload u.serverID u.uploadID
  chunks u.steps
  unlock

def ChunkUpload.key (u : ChunkUpload) : String := uploadKey u.serverID u.uploadID

/-! ## The map and its mutexes -/

structure Locks where
  entries : List (String × Nat) := []
  allocated : Nat := 0
  locked : List Nat := []

def Locks.mutex (w : Locks) (key : String) : Option Nat := (rowAt (·.1) w.entries key).map (·.2)

def Locks.handle (w : Locks) : (c : LockCall) → LockResp c × Locks
  | .loadOrStore key =>
    match w.mutex key with
    | some mu => (mu, { w with allocated := w.allocated + 1 })
    | none => (w.allocated, { w with entries := w.entries ++ [(key, w.allocated)], allocated := w.allocated + 1 })
  | .lock mu => ((), { w with locked := mu :: w.locked })
  | .chunk => ((), w)
  | .unlock mu => ((), { w with locked := w.locked.erase mu })
  | .delete key => ((), { w with entries := deleteWhere (fun e => e.1 = key) w.entries })

def uploads : System LockResp ChunkUpload Locks where
  program := ChunkUpload.program
  handle := Locks.handle
  fault _ _ := none
  tick w _ := w

abbrev State := Config LockResp ChunkUpload Locks

def enabled (s : State) (l : Label ChunkUpload) : Bool :=
  match s.sends l with
  | some (_, .lock mu) => decide (mu ∉ s.world.locked)
  | _ => true

def inside (s : State) (i : Nat) : Option (String × String) :=
  match s.threads[i]? with
  | some (u, .call .chunk _) => some (u.serverID, u.uploadID)
  | some (u, .call (.unlock _) _) => some (u.serverID, u.uploadID)
  | _ => none

def Exclusive (s : State) : Prop := ∀ i j k, inside s i = some k → inside s j = some k → i = j

/-- A key is deleted only while nobody holds the mutex stored under it and nobody is about to
lock it. -/
def deserts (s : State) (l : Label ChunkUpload) : Bool :=
  match s.sends l with
  | some (_, .delete key) =>
    (s.world.mutex key).all fun mu =>
      decide (mu ∉ s.world.locked) && s.threads.all fun x =>
        match x.2 with
        | .call (.lock mu') _ => decide (mu' ≠ mu)
        | _ => true
  | _ => true

/-! ## Where a request is -/

inductive Phase where
  | begun
  | waiting (key : String) (mu : Nat)
  | holding (key : String) (mu : Nat)
  | leaving (key : String)
  | gone
  deriving DecidableEq

def Phase.entry : Phase → Option (String × Nat)
  | .waiting key mu => some (key, mu)
  | .holding key mu => some (key, mu)
  | _ => none

inductive At (u : ChunkUpload) : Goroutine Unit → Phase → Prop
  | begun : At u u.program .begun
  | waiting (mu : Nat) :
    At u (do call (.lock mu); chunks u.steps; unlocker u.key mu) (.waiting u.key mu)
  | holding (mu n : Nat) : At u (do chunks n; unlocker u.key mu) (.holding u.key mu)
  | leaving : At u (call (.delete u.key)) (.leaving u.key)
  | gone : At u (.ret ()) .gone

structure Guarded (w : Locks) (g : List Phase) : Prop where
  entry : ∀ ph ∈ g, ∀ e, ph.entry = some e → w.mutex e.1 = some e.2
  locked : ∀ key mu, Phase.holding key mu ∈ g → mu ∈ w.locked
  alone : ∀ (i j : Nat) key key' mu, g[i]? = some (.holding key mu) → g[j]? = some (.holding key' mu) → i = j

theorem mutex_handle_load (w : Locks) (key : String) :
    (w.handle (.loadOrStore key)).2.mutex key = some (w.handle (.loadOrStore key)).1 := by
  simp [Locks.handle]
  split
  · rename_i mu h
    exact h
  · rename_i h
    have hnone : rowAt (·.1) w.entries key = none := by simpa [Locks.mutex] using h
    simp [Locks.mutex, rowAt_append, hnone]

variable {w : Locks} {key key' : String} {mu i : Nat} {g : List Phase} {u : ChunkUpload} {p : Goroutine Unit}
variable {s : State}

theorem mutex_handle_load_ne (h : w.mutex key' = some mu) :
    (w.handle (.loadOrStore key)).2.mutex key' = some mu := by
  simp [Locks.handle]
  split
  · exact h
  · obtain ⟨e, he, rfl⟩ := Option.map_eq_some_iff.mp h
    simp [Locks.mutex, rowAt_append, he]

theorem mutex_handle_delete (h : key' ≠ key) :
    (w.handle (.delete key)).2.mutex key' = w.mutex key' := by
  simp [Locks.handle, Locks.mutex, rowAt_deleteAt, h]

variable {m : Phase}

section
variable {w' : Locks} {m' : Phase}

theorem Guarded.drop (h : Guarded w g) (hm : ∀ key mu, m' ≠ .holding key mu)
    (hentry : ∀ e, m'.entry = some e → w'.mutex e.1 = some e.2)
    (hrest : ∀ (j : Nat) ph e, j ≠ i → g[j]? = some ph → ph.entry = some e → w'.mutex e.1 = some e.2)
    (hlocked : ∀ (j : Nat) key mu, j ≠ i → g[j]? = some (Phase.holding key mu) → mu ∈ w'.locked) :
    Guarded w' (g.set i m') where
  entry ph hph e he := by
    obtain ⟨j, hj⟩ := List.getElem?_of_mem hph
    obtain ⟨-, rfl⟩ | ⟨hji, hj⟩ := set_cases hj
    · exact hentry e he
    · exact hrest j ph e hji hj he
  locked key mu hmem := by
    obtain ⟨j, hj⟩ := List.getElem?_of_mem hmem
    obtain ⟨-, he⟩ | ⟨hji, hj⟩ := set_cases hj
    · exact absurd he.symm (hm key mu)
    · exact hlocked j key mu hji hj
  alone j j' key key' mu hj hj' := by
    obtain ⟨-, he⟩ | ⟨-, hj⟩ := set_cases hj
    · exact absurd he.symm (hm key mu)
    · obtain ⟨-, he⟩ | ⟨-, hj'⟩ := set_cases hj'
      · exact absurd he.symm (hm key' mu)
      · exact h.alone j j' key key' mu hj hj'

theorem Guarded.lock (h : Guarded w g) (hi : g[i]? = some (.waiting key mu))
    (hfree : mu ∉ w.locked) : Guarded { w with locked := mu :: w.locked } (g.set i (.holding key mu)) where
  entry := forall_set h.entry fun e he => h.entry _ (mem_of_getElem? hi) e he
  locked key' mu' hmem := by
    obtain hmem | he := mem_or_eq_of_mem_set hmem
    · exact mem_cons_of_mem _ (h.locked key' mu' hmem)
    · cases he
      exact mem_cons_self
  alone j j' k k' mu' hj hj' := by
    -- whoever held a mutex before does not hold the free one
    have hother : ∀ (n : Nat) k, g[n]? = some (Phase.holding k mu) → False :=
      fun n k hn => hfree (h.locked k mu (mem_of_getElem? hn))
    obtain ⟨hji, he⟩ | ⟨-, hold⟩ := set_cases hj
    · cases he
      obtain ⟨hji', -⟩ | ⟨-, hold'⟩ := set_cases hj'
      · rw [hji, hji']
      · exact (hother j' k' hold').elim
    · obtain ⟨-, he⟩ | ⟨-, hold'⟩ := set_cases hj'
      · cases he
        exact (hother j k hold).elim
      · exact h.alone j j' k k' mu' hold hold'

theorem Guarded.call {c : LockCall} {k : LockResp c → Goroutine Unit} (h : Guarded w g) (hi : g[i]? = some m)
    (hat : At u (.call c k) m) (hlock : ∀ mu, c = .lock mu → mu ∉ w.locked)
    (hdelete : ∀ key mu, c = .delete key → w.mutex key = some mu →
      mu ∉ w.locked ∧ ∀ key', Phase.waiting key' mu ∉ g) :
    ∃ m', At u (k (w.handle c).1) m' ∧ Guarded (w.handle c).2 (g.set i m') := by
  generalize hp : (Prog.call c k : Goroutine Unit) = p at hat
  cases hat with
  | begun =>
    cases hp
    refine ⟨_, .waiting _, h.drop nofun ?_ ?_ ?_⟩
    · rintro e ⟨⟩
      exact mutex_handle_load w _
    · exact fun j ph e _ hj he => mutex_handle_load_ne (h.entry ph (mem_of_getElem? hj) e he)
    · intro j key mu _ hj
      have := h.locked key mu (mem_of_getElem? hj)
      simp [Locks.handle]
      split <;> exact this
  | waiting mu =>
    cases hp
    exact ⟨_, .holding mu u.steps, h.lock hi (hlock mu rfl)⟩
  | holding mu n =>
    cases n with
    | zero =>
      cases hp
      refine ⟨_, .leaving, h.drop nofun nofun ?_ ?_⟩
      · exact fun j ph e _ hj he => h.entry ph (mem_of_getElem? hj) e he
      · intro j key mu' hji hj
        have hne : mu' ≠ mu := by
          rintro rfl
          exact hji (h.alone j i key _ mu' hj hi)
        exact (mem_erase_of_ne hne).mpr (h.locked key mu' (mem_of_getElem? hj))
    | succ n =>
      cases hp
      refine ⟨_, .holding mu n, ?_⟩
      obtain ⟨hlt, hi⟩ := List.getElem?_eq_some_iff.mp hi
      rw [← hi, set_getElem_self]
      exact h
  | leaving =>
    cases hp
    refine ⟨_, .gone, h.drop nofun nofun ?_ ?_⟩
    · intro j ph e _ hj he
      have hfound := h.entry ph (mem_of_getElem? hj) e he
      -- a request that relies on the deleted entry waits for its mutex or holds it
      have hne : e.1 ≠ u.key := by
        intro hkey
        obtain ⟨hfree, hawaited⟩ := hdelete u.key e.2 rfl (hkey ▸ hfound)
        cases ph with
        | waiting key mu =>
          cases he
          exact hawaited key (mem_of_getElem? hj)
        | holding key mu =>
          cases he
          exact hfree (h.locked key mu (mem_of_getElem? hj))
        | _ => cases he
      rw [mutex_handle_delete hne]
      exact hfound
    · exact fun j key mu _ hj => h.locked key mu (mem_of_getElem? hj)
  | gone => cases hp

end

theorem holding_append
    (h : (g ++ [.begun])[i]? = some (.holding key mu)) : g[i]? = some (.holding key mu) := by
  by_cases hi : i < g.length
  · rwa [List.getElem?_append_left hi] at h
  · rw [List.getElem?_append_right (Nat.le_of_not_lt hi)] at h
    cases mem_singleton.mp (mem_of_getElem? h)

theorem At.waiting_lock (h : At u p (.waiting key mu)) :
    ∃ k, p = .call (.lock mu) k := by
  cases h
  exact ⟨_, rfl⟩

theorem guarded_inv : GhostInv uploads (fun s l => enabled s l = true ∧ deserts s l = true)
    (fun x m => At x.1 x.2 m) Guarded where
  start s t g _ _ h := by
    refine ⟨.begun, .begun, fun ph hph e he => ?_, fun key mu hmem => ?_, fun i j key key' mu hi hj => ?_⟩
    · obtain hph | hph := mem_append.mp hph
      · exact h.entry ph hph e he
      · rw [mem_singleton.mp hph] at he
        cases he
    · obtain hmem | hmem := mem_append.mp hmem
      · exact h.locked key mu hmem
      · cases mem_singleton.mp hmem
    · exact h.alone i j key key' mu (holding_append hi) (holding_append hj)
  tick _ _ _ _ _ h := h
  crash s i t p g m _ _ _ _ _ h := by
    refine ⟨.gone, .gone, h.drop nofun nofun ?_ ?_⟩
    · exact fun j ph e _ hj he => h.entry ph (mem_of_getElem? hj) e he
    · exact fun j key mu _ hj => h.locked key mu (mem_of_getElem? hj)
  call s i o t c k r w g m ha hi hg hm hat h hr := by
    have hw := System.answer_delivered hr nofun
    obtain rfl : r = (s.world.handle c).1 := congrArg Prod.fst hw
    obtain rfl : w = (s.world.handle c).2 := congrArg Prod.snd hw
    have hsends := Config.sends_eq o hi
    refine h.call hm hat ?_ ?_
    · rintro mu rfl
      simpa [enabled, hsends] using ha.1
    · rintro key mu rfl hmu
      have hd := ha.2
      simp only [deserts, hsends, hmu, Option.all_some, Bool.and_eq_true, decide_eq_true_eq, all_eq_true] at hd
      refine ⟨hd.1, fun key' hwait => ?_⟩
      obtain ⟨j, hj⟩ := List.getElem?_of_mem hwait
      obtain ⟨x, hx, hat'⟩ := hg.of hj
      obtain ⟨k', hk'⟩ := hat'.waiting_lock
      have := hd.2 x (mem_of_getElem? hx)
      simp [hk'] at this

theorem At.inside (h : At u p m)
    (hp : (∃ k, p = .call .chunk k) ∨ ∃ mu k, p = .call (.unlock mu) k) : ∃ mu, m = .holding u.key mu := by
  cases h with
  | holding mu n => exact ⟨mu, rfl⟩
  | _ => obtain ⟨k, hp⟩ | ⟨mu, k, hp⟩ := hp <;> cases hp

theorem inside_cases {x : String × String} (h : inside s i = some x) :
    ∃ u p, s.threads[i]? = some (u, p) ∧ x = (u.serverID, u.uploadID) ∧
      ((∃ k, p = .call .chunk k) ∨ ∃ mu k, p = .call (.unlock mu) k) := by
  simp [inside] at h
  split at h
  · rename_i u k hi
    cases h
    exact ⟨u, _, hi, rfl, .inl ⟨k, rfl⟩⟩
  · rename_i u mu k hi
    cases h
    exact ⟨u, _, hi, rfl, .inr ⟨mu, k, rfl⟩⟩
  · cases h

theorem Guarded.exclusive (h : Guarded s.world g)
    (hg : Follows (fun x m => At x.1 x.2 m) s.threads g) : Exclusive s := by
  intro i j k hi hj
  obtain ⟨u, p, hu, rfl, hp⟩ := inside_cases hi
  obtain ⟨v, q, hv, hk, hq⟩ := inside_cases hj
  obtain ⟨hserver, hupload⟩ := Prod.mk.inj hk
  obtain ⟨m, hm, hat⟩ := hg.at hu
  obtain ⟨n, hn, hat'⟩ := hg.at hv
  obtain ⟨mu, rfl⟩ := hat.inside hp
  obtain ⟨mu', rfl⟩ := hat'.inside hq
  have hkey : u.key = v.key := by simp [ChunkUpload.key, hserver, hupload]
  have hmu := mem_at h.entry hm _ rfl
  have hmu' := mem_at h.entry hn _ rfl
  simp [hkey] at hmu hmu'
  obtain rfl := Option.some.inj (hmu.symm.trans hmu')
  exact h.alone i j _ _ mu hm hn

/-- No two requests are inside the same upload, if no key is deleted while its mutex is held or
about to be locked. -/
theorem upload_sections_exclude {s₀ s : State} {ls : List (Label ChunkUpload)} (hidle : s₀.threads = [])
    (h : Run uploads.next (fun s l => enabled s l = true ∧ deserts s l = true) s₀ ls s) : Exclusive s := by
  have hstart : Ghosted (fun x m => At x.1 x.2 m) Guarded s₀ := by
    refine ⟨[], hidle ▸ Follows.nil, nofun, nofun, nofun⟩
  obtain ⟨g, hg, hG⟩ := guarded_inv.run hstart h
  exact hG.exclusive hg

def idle : State := ⟨{}, []⟩

def oneWaits : List (Label ChunkUpload) :=
  [.start ⟨"s", "u", 1⟩, .start ⟨"s", "u", 0⟩, .call 0 .delivered, .call 0 .delivered, .call 1 .delivered]

theorem upload_sections_exclude_oneWaits : ∃ s : State,
    Run uploads.next (fun s l => enabled s l = true ∧ deserts s l = true) idle oneWaits s ∧
      inside s 0 = some ("s", "u") ∧ Exclusive s := exists_run_and (by decide +kernel) fun _ hr _ => upload_sections_exclude rfl hr

def threeRequests : List (Label ChunkUpload) :=
  oneWaits ++ [.call 0 .delivered, .call 0 .delivered, .call 1 .delivered, .call 0 .delivered,
    .start ⟨"s", "u", 0⟩, .call 2 .delivered, .call 2 .delivered]

theorem two_requests_inside : ∃ s : State,
    Run uploads.next (fun s l => enabled s l = true) idle threeRequests s ∧
      inside s 1 = some ("s", "u") ∧ inside s 2 = some ("s", "u") ∧ ¬ Exclusive s := by
  obtain ⟨s, hs, h₁, h₂⟩ : ∃ s : State, Run uploads.next (fun s l => enabled s l = true) idle threeRequests s ∧
      inside s 1 = some ("s", "u") ∧ inside s 2 = some ("s", "u") := by decide +kernel
  refine ⟨s, hs, h₁, h₂, fun hs => ?_⟩
  cases hs 1 2 _ h₁ h₂

end ForgePlane.UploadLocks
