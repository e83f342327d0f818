import ForgePlane.Ghosts
import ForgePlane.Table
import ForgePlane.Wire

/-!
# Webhook deliveries

A worker claims a delivery, sends it and writes the outcome under its own name. A claim that is
older than a minute may be taken over. The attempts are counted by the claim, but looked at only
where a request has failed.
-/

namespace ForgePlane.Webhooks

/-! ## The table -/

inductive DeliveryState where
  | pending
  | processing
  | delivered
  | failed
  deriving DecidableEq, Repr

def DeliveryState.final : DeliveryState → Bool
  | .delivered => true
  | .failed => true
  | _ => false

structure WebhookDelivery where
  id : String
  eventName : String := ""
  targetURL : String := ""
  secret : String := ""
  requestBody : String := ""
  attempts : Nat := 0
  responseStatus : Option Int := none
  responseBodyExcerpt : String := ""
  lastError : Option Err := none
  nextAttemptAt : Nat := 0
  state : DeliveryState := .pending
  lockedAt : Option Nat := none
  lockedBy : Option String := none
  deliveredAt : Option Nat := none
  createdAt : Nat := 0
  deriving DecidableEq, Repr

structure DeliveryTable where
  rows : List WebhookDelivery := []
  ids : (rows.map (·.id)).Nodup := by simp

def WebhookDelivery.stale (now staleAfter : Nat) (d : WebhookDelivery) : Bool :=
  d.lockedAt.all fun lockedAt => decide (lockedAt + staleAfter < now)

def WebhookDelivery.eligible (now staleAfter : Nat) (d : WebhookDelivery) : Bool :=
  !d.state.final && decide (d.nextAttemptAt ≤ now) && d.stale now staleAfter

namespace DeliveryTable

variable (t : DeliveryTable)

def row (id : String) : Option WebhookDelivery := rowAt (·.id) t.rows id

/-- The first row of `ORDER BY next_attempt_at, created_at FOR UPDATE SKIP LOCKED LIMIT 1`; `skip`
are those other transactions have locked. -/
def candidate (now staleAfter : Nat) (skip : List String) : Option WebhookDelivery :=
  ((t.rows.filter fun d => d.eligible now staleAfter && !skip.contains d.id).insertionSort fun a b =>
    a.nextAttemptAt < b.nextAttemptAt ∨ (a.nextAttemptAt = b.nextAttemptAt ∧ a.createdAt ≤ b.createdAt)).head?

def update (id : String) (p : WebhookDelivery → Bool) (f : WebhookDelivery → WebhookDelivery) (hf : ∀ d, (f d).id = d.id) :
    DeliveryTable where
  rows := updateWhere (fun d => decide (d.id = id) && p d) f t.rows
  ids := nodup_updateWhere t.ids hf

def insert (d : WebhookDelivery) (h : d.id ∉ t.rows.map (·.id)) : DeliveryTable where
  rows := t.rows ++ [d]
  ids := nodup_snoc t.ids h

end DeliveryTable

def claimed (workerID : String) (now : Nat) (d : WebhookDelivery) : WebhookDelivery :=
  { d with state := .processing, lockedAt := some now, lockedBy := some workerID, attempts := d.attempts + 1 }

theorem claimed_id (workerID : String) (now : Nat) (d : WebhookDelivery) : (claimed workerID now d).id = d.id := rfl

def completed (status : Int) (excerpt : String) (now : Nat) (d : WebhookDelivery) : WebhookDelivery :=
  { d with state := .delivered, responseStatus := some status, responseBodyExcerpt := excerpt, lastError := none
           deliveredAt := some now, lockedAt := none, lockedBy := none }

def left4000 (s : String) : String := String.ofList (s.toList.take 4000)

def unsuccessful (status : Option Int) (excerpt lastError : String) (retry : Bool) (nextAttemptAt : Nat) (d : WebhookDelivery) :
    WebhookDelivery :=
  { d with state := if retry then .pending else .failed, responseStatus := status, responseBodyExcerpt := left4000 excerpt
           lastError := some (left4000 lastError), nextAttemptAt, lockedAt := none, lockedBy := none }

/-! ## The worker -/

inductive Sent where
  | accepted (status : Int) (excerpt : String)
  | refused (status : Option Int) (excerpt : String) (err : Err)
  deriving DecidableEq, Repr

inductive Call where
  | claim (workerID : String) (staleAfter : Nat)
  | decryptSecret (d : WebhookDelivery)
  | send (d : WebhookDelivery)
  | complete (id workerID : String) (status : Int) (excerpt : String)
  | fail (id workerID : String) (status : Option Int) (excerpt lastError : String) (retry : Bool) (delay : Nat)
  | insert (d : WebhookDelivery)

abbrev Resp : Call → Type
  | .claim .. => Except Err (Option WebhookDelivery)
  | .decryptSecret _ => Except Err String
  | .send _ => Sent
  | .complete .. => Except Err Unit
  | .fail .. => Except Err Unit
  | .insert _ => Except Err Unit

abbrev Action := Prog Resp

def call (c : Call) : Action (Resp c) := .call c .ret

def maxAttempts : Nat := 8

def minute : Nat := 60

/-- `time.Duration(1<<uint(attempt-1)) * time.Minute` between the first and the tenth attempt. -/
def webhookRetryDelay (attempt : Nat) : Nat := 2 ^ (min 10 (max 1 attempt) - 1) * minute

def claimWebhookDelivery (workerID : String) (staleAfter : Int) : Action (Except Err (Option WebhookDelivery)) := do
  match ← call (.claim workerID (if staleAfter ≤ 0 then minute else staleAfter.toNat)) with
  | .error e => pure (.error e)
  | .ok none => pure (.ok none)
  | .ok (some d) =>
    match ← call (.decryptSecret d) with
    | .error e => pure (.error e)
    | .ok secret => pure (.ok (some { d with secret }))

def processOne (workerID : String) : Action Bool := do
  match ← claimWebhookDelivery workerID minute with
  | .error _ => pure false
  | .ok none => pure false
  | .ok (some d) =>
    match ← call (.send d) with
    | .accepted status excerpt =>
      let _ ← call (.complete d.id workerID status excerpt)
      pure true
    | .refused status excerpt err =>
      let retry := decide (d.attempts < maxAttempts)
      let _ ← call (.fail d.id workerID status excerpt err retry (webhookRetryDelay d.attempts))
      pure true

def loop (workerID : String) : Nat → Action Unit
  | 0 => pure ()
  | n + 1 => do
    let _ ← processOne workerID
    loop workerID n

inductive Task where
  | worker (workerID : String) (rounds : Nat)
  | enqueue (id eventName targetURL secret requestBody : String)
  deriving DecidableEq, Repr

def Task.program : Task → Action Unit
  | .worker workerID rounds => loop workerID rounds
  | .enqueue id eventName targetURL secret requestBody => do
    let _ ← call (.insert { id, eventName, targetURL, secret, requestBody })

/-! ## The database -/

structure Claim where
  id : String
  workerID : String
  deriving DecidableEq, Repr

/-- `skips`, `sends` and `opens` are what other transactions have locked, what becomes of a request
and what a secret decrypts to, step by step. `log` has the claims, the newest first. -/
structure World where
  table : DeliveryTable := {}
  now : Nat := 0
  step : Nat := 0
  skips : Nat → List String := fun _ => []
  sends : Nat → WebhookDelivery → Sent := fun _ _ => .accepted 200 ""
  opens : Nat → WebhookDelivery → Except Err String := fun _ d => .ok d.secret
  log : List Claim := []

def heldBy (workerID : String) (d : WebhookDelivery) : Bool := decide (d.lockedBy = some workerID)

namespace World

def settle (w : World) (id workerID : String) (f : WebhookDelivery → WebhookDelivery) (hf : ∀ d, (f d).id = d.id) : World :=
  { w with table := w.table.update id (heldBy workerID) f hf }

def take (w : World) (workerID : String) (d : WebhookDelivery) : World :=
  { w with
    table := w.table.update d.id (fun _ => true) (claimed workerID w.now) (claimed_id workerID w.now)
    step := w.step + 1
    log := ⟨d.id, workerID⟩ :: w.log }

def claim (w : World) (workerID : String) (staleAfter : Nat) : Option WebhookDelivery × World :=
  match w.table.candidate w.now staleAfter (w.skips w.step) with
  | none => (none, { w with step := w.step + 1 })
  | some d => (some (claimed workerID w.now d), w.take workerID d)

def handle (w : World) : (c : Call) → Resp c × World
  | .claim workerID staleAfter => (.ok (w.claim workerID staleAfter).1, (w.claim workerID staleAfter).2)
  | .decryptSecret d => (w.opens w.step d, { w with step := w.step + 1 })
  | .send d => (w.sends w.step d, { w with step := w.step + 1 })
  | .complete id workerID status excerpt => (.ok (), w.settle id workerID (completed status excerpt w.now) fun _ => rfl)
  | .fail id workerID status excerpt lastError retry delay =>
    (.ok (), w.settle id workerID (unsuccessful status excerpt lastError retry (w.now + delay)) fun _ => rfl)
  | .insert d =>
    if h : d.id ∉ w.table.rows.map (·.id) then
      (.ok (), { w with table := w.table.insert { d with nextAttemptAt := w.now, createdAt := w.now } h })
    else (.error "duplicate key value violates unique constraint", w)

end World

def fault : (c : Call) → Err → Option (Resp c)
  | .claim .., e => some (.error e)
  | .decryptSecret _, e => some (.error e)
  | .send _, _ => none
  | .complete .., e => some (.error e)
  | .fail .., e => some (.error e)
  | .insert _, e => some (.error e)

def workers : System Resp Task World where
  program := Task.program
  handle := World.handle
  fault := fault
  tick w d := { w with now := w.now + d }

abbrev State := Config Resp Task World

def Task.workerID : Task → Option String
  | .worker workerID _ => some workerID
  | .enqueue .. => none

def distinct (s : State) : Label Task → Bool
  | .start t => t.workerID.all fun workerID => s.threads.all fun x => decide (x.1.workerID ≠ some workerID)
  | _ => true

def owns (log : List Claim) (id workerID : String) : Bool :=
  decide (log.find? (·.id = id) = some ⟨id, workerID⟩) && decide (log.find? (·.workerID = workerID) = some ⟨id, workerID⟩)

/-! ## What a statement does to a row -/

variable {id k workerID : String} {d : WebhookDelivery} {f : WebhookDelivery → WebhookDelivery} {hf : ∀ d, (f d).id = d.id}

section
variable {t : DeliveryTable} {w : World}
variable {now staleAfter : Nat}

theorem DeliveryTable.row_update {p : WebhookDelivery → Bool} :
    (t.update id p f hf).row k = if k = id then (t.row k).map (fun d => if p d then f d else d) else t.row k := by
  unfold row update
  rw [rowAt_updateWhere _ f hf]
  cases h : rowAt (·.id) t.rows k with
  | none => simp
  | some d =>
    have := rowAt_key h
    by_cases hk : k = id <;> simp [this, hk]

theorem DeliveryTable.row_insert {h : d.id ∉ t.rows.map (·.id)} :
    (t.insert d h).row k = if k = d.id then some d else t.row k := by
  unfold row insert
  rw [rowAt_append]
  by_cases hk : k = d.id
  · rw [hk, rowAt_eq_none.mpr h]
    simp
  · simp [hk, Ne.symm hk]

theorem DeliveryTable.candidate_eligible {skip : List String} (h : t.candidate now staleAfter skip = some d) :
    t.row d.id = some d ∧ d.eligible now staleAfter = true := by
  have hmem := (List.mem_insertionSort _).mp (List.mem_of_head? h)
  obtain ⟨hmem, he⟩ := List.mem_filter.mp hmem
  exact ⟨rowAt_of_mem t.ids hmem, (Bool.and_eq_true_iff.mp he).1⟩

theorem World.claim_cases (w : World) (workerID : String) (staleAfter : Nat) :
    w.claim workerID staleAfter = (none, { w with step := w.step + 1 }) ∨
    ∃ d, w.table.row d.id = some d ∧ d.eligible w.now staleAfter = true ∧
      w.claim workerID staleAfter = (some (claimed workerID w.now d), w.take workerID d) := by
  unfold World.claim
  split
  · exact .inl rfl
  · rename_i d hd
    obtain ⟨hrow, he⟩ := DeliveryTable.candidate_eligible hd
    exact .inr ⟨d, hrow, he, rfl⟩

theorem not_final_of_eligible (h : d.eligible now staleAfter = true) : d.state.final = false := by
  simp [WebhookDelivery.eligible] at h
  exact h.1.1

end

/-! ## What a worker keeps to -/

structure Ghost where
  owner : Option String
  held : Option (String × Nat) := none
  deriving DecidableEq, Repr

def watch (t : Task) : Monitor Resp (Option (String × Nat)) where
  admits m
    | .claim workerID staleAfter => t.workerID = some workerID ∧ staleAfter = minute
    | .decryptSecret _ => True
    | .send _ => True
    | .complete id workerID _ _ => t.workerID = some workerID ∧ ∃ attempts, m = some (id, attempts)
    | .fail id workerID _ _ _ retry _ =>
      t.workerID = some workerID ∧ ∃ attempts, m = some (id, attempts) ∧ retry = decide (attempts < maxAttempts)
    | .insert d => t.workerID = none ∧ d.attempts = 0 ∧ d.state = .pending ∧ d.lockedBy = none
  next m
    | .claim .., .ok (some d) => some (d.id, d.attempts)
    | .claim .., _ => none
    | _, _ => m

theorem wp_processOne (workerID : String) (rounds : Nat) (m : Option (String × Nat)) :
    wp (watch (.worker workerID rounds)) (processOne workerID) (fun _ _ => True) m := by
  refine wp_ask ⟨rfl, rfl⟩ fun r _ => ?_
  match r with
  | .error e => trivial
  | .ok none => trivial
  | .ok (some d) =>
    refine ⟨trivial, forall_result fun secret _ => ?_⟩
    refine ⟨trivial, fun r _ => ?_⟩
    match r with
    | .accepted status excerpt => exact ⟨⟨rfl, d.attempts, rfl⟩, fun _ _ => trivial⟩
    | .refused status excerpt err => exact ⟨⟨rfl, d.attempts, rfl, rfl⟩, fun _ _ => trivial⟩

theorem wp_loop (workerID : String) (rounds : Nat) : ∀ (n : Nat) (m : Option (String × Nat)),
    wp (watch (.worker workerID rounds)) (loop workerID n) (fun _ _ => True) m
  | 0, _ => trivial
  | n + 1, m => wp_then (wp_processOne workerID rounds m) fun _ m _ => wp_loop workerID rounds n m

def Attends (x : Task × Action Unit) (g : Ghost) : Prop :=
  g.owner = x.1.workerID ∧ wp (watch x.1) x.2 (fun _ _ => True) g.held

theorem attends_program (t : Task) : Attends (t, t.program) ⟨t.workerID, none⟩ := by
  refine ⟨rfl, ?_⟩
  cases t with
  | worker workerID rounds => exact wp_loop workerID rounds rounds none
  | enqueue id eventName targetURL secret requestBody => exact ⟨⟨rfl, rfl, rfl, rfl⟩, fun _ _ => trivial⟩

/-! ## Claims are exclusive -/

def Apart (g : List Ghost) : Prop :=
  ∀ (i j : Nat) m n workerID, g[i]? = some m → g[j]? = some n → m.owner = some workerID → n.owner = some workerID → i = j

variable {g : List Ghost} {i attempts : Nat} {m : Ghost} {w w' : World} {o : Outcome} {t : Task} {c : Call} {s s' : State}
variable {m' : Ghost} {held : Option (String × Nat)}

theorem Apart.set (h : Apart g) (hi : g[i]? = some m) (howner : m'.owner = m.owner) : Apart (g.set i m') := by
  intro j k a b v hj hk ha hb
  obtain ⟨hji, rfl⟩ | ⟨hji, hj'⟩ := set_cases hj <;> obtain ⟨hki, rfl⟩ | ⟨hki, hk'⟩ := set_cases hk
  · exact hji.trans hki.symm
  · exact hji.trans (h i k m b v hi hk' (howner ▸ ha) hb)
  · exact (h j i a m v hj' hi ha (howner ▸ hb)).trans hki.symm
  · exact h j k a b v hj' hk' ha hb

structure Exclusive (w : World) (g : List Ghost) : Prop where
  released : ∀ id d, w.table.row id = some d → d.state.final = true → d.lockedBy = none
  latest : ∀ id d workerID, w.table.row id = some d → d.lockedBy = some workerID →
    w.log.find? (·.id = id) = some ⟨id, workerID⟩
  apart : Apart g
  held : ∀ (i : Nat) m workerID id attempts, g[i]? = some m → m.owner = some workerID → m.held = some (id, attempts) →
    w.log.find? (·.workerID = workerID) = some ⟨id, workerID⟩ ∧
    ∀ d, w.table.row id = some d → d.lockedBy = some workerID → d.attempts = attempts

section
variable {w : World}
variable {e : WebhookDelivery}
theorem Exclusive.set (h : Exclusive w g) (hi : g[i]? = some m) (howner : m'.owner = m.owner)
    (hheld : m'.held = m.held ∨ m'.held = none) : Exclusive w (g.set i m') where
  released := h.released
  latest := h.latest
  apart := h.apart.set hi howner
  held j a v id attempts hj ha hheld' := by
    obtain ⟨rfl, rfl⟩ | ⟨-, hj⟩ := set_cases hj
    · obtain he | he := hheld
      · exact h.held j m v id attempts hi (howner ▸ ha) (he ▸ hheld')
      · rw [he] at hheld'
        cases hheld'
    · exact h.held j a v id attempts hj ha hheld'

theorem Exclusive.of_rows (h : Exclusive w g) (hl : w'.log = w.log)
    (hrows : ∀ k e, w'.table.row k = some e → w.table.row k = some e ∨ e.lockedBy = none) : Exclusive w' g where
  released k e hrow hf := (hrows k e hrow).elim (h.released k e · hf) id
  latest k e v hrow hv := by
    obtain hrow | hnone := hrows k e hrow
    · exact hl ▸ h.latest k e v hrow hv
    · rw [hnone] at hv
      cases hv
  apart := h.apart
  held j m v k a hj hm hheld := by
    obtain ⟨hlast, hold⟩ := h.held j m v k a hj hm hheld
    refine ⟨hl ▸ hlast, fun e hrow hv => ?_⟩
    obtain hrow | hnone := hrows k e hrow
    · exact hold e hrow hv
    · rw [hnone] at hv
      cases hv

theorem row_settle (h : (w.settle id workerID f hf).table.row k = some e) :
    w.table.row k = some e ∨ (k = id ∧ ∃ d, w.table.row id = some d ∧ d.lockedBy = some workerID ∧ e = f d) := by
  rw [World.settle, DeliveryTable.row_update] at h
  split at h
  · rename_i hk
    subst hk
    obtain ⟨d, hd, rfl⟩ := Option.map_eq_some_iff.mp h
    by_cases hheld : heldBy workerID d = true
    · exact .inr ⟨rfl, d, hd, of_decide_eq_true hheld, if_pos hheld⟩
    · exact .inl (if_neg hheld ▸ hd)
  · exact .inl h

theorem Exclusive.settle (h : Exclusive w g)
    (hlock : ∀ d, (f d).lockedBy = none) : Exclusive (w.settle id workerID f hf) g := by
  refine h.of_rows rfl fun k e hrow => (row_settle hrow).imp_right ?_
  rintro ⟨-, d, -, -, rfl⟩
  exact hlock d

theorem Exclusive.insert (h : Exclusive w g) {hd : d.id ∉ w.table.rows.map (·.id)}
    (hlock : d.lockedBy = none) : Exclusive { w with table := w.table.insert d hd } g := by
  refine h.of_rows rfl fun k e hrow => ?_
  rw [DeliveryTable.row_insert] at hrow
  split at hrow
  · exact .inr (Option.some.inj hrow ▸ hlock)
  · exact .inl hrow

theorem row_take (hd : w.table.row d.id = some d) (h : (w.take workerID d).table.row k = some e) :
    (k = d.id ∧ e = claimed workerID w.now d) ∨ (k ≠ d.id ∧ w.table.row k = some e) := by
  rw [World.take, DeliveryTable.row_update] at h
  split at h
  · rename_i hk
    subst hk
    rw [hd] at h
    exact .inl ⟨rfl, (Option.some.inj h).symm⟩
  · rename_i hk
    exact .inr ⟨hk, h⟩

theorem Exclusive.take (h : Exclusive w g) (hd : w.table.row d.id = some d)
    (hi : g[i]? = some m) (hm : m.owner = some workerID) (howner : m'.owner = m.owner)
    (hheld : m'.held = none ∨ m'.held = some (d.id, d.attempts + 1)) :
    Exclusive (w.take workerID d) (g.set i m') where
  released k e hrow hf := by
    obtain ⟨-, rfl⟩ | ⟨-, hrow⟩ := row_take hd hrow
    · cases hf
    · exact h.released k e hrow hf
  latest k e v hrow hv := by
    obtain ⟨rfl, rfl⟩ | ⟨hk, hrow⟩ := row_take hd hrow
    · cases hv
      simp [World.take]
    · rw [World.take, List.find?_cons_of_neg (by simpa using Ne.symm hk)]
      exact h.latest k e v hrow hv
  apart := h.apart.set hi howner
  held j a v k attempts hj ha hheld' := by
    obtain ⟨rfl, rfl⟩ | ⟨hji, hj⟩ := set_cases hj
    · obtain rfl : workerID = v := Option.some.inj (hm.symm.trans (howner.symm.trans ha))
      obtain he | he := hheld
      · rw [he] at hheld'
        cases hheld'
      · rw [he] at hheld'
        cases hheld'
        refine ⟨by simp [World.take], fun e hrow _ => ?_⟩
        obtain ⟨-, rfl⟩ | ⟨hk, -⟩ := row_take hd hrow
        · rfl
        · exact absurd rfl hk
    · have hne : workerID ≠ v := fun he => hji (h.apart j i a m workerID hj hi (he ▸ ha) hm)
      obtain ⟨hlast, hold⟩ := h.held j a v k attempts hj ha hheld'
      refine ⟨?_, fun e hrow hv => ?_⟩
      · rw [World.take, List.find?_cons_of_neg (by simpa using hne)]
        exact hlast
      · obtain ⟨-, rfl⟩ | ⟨-, hrow⟩ := row_take hd hrow
        · exact absurd (Option.some.inj hv) hne
        · exact hold e hrow hv

end

inductive Effect (w : World) (m : Ghost) : Call → World → Option (String × Nat) → Prop where
  | nothing {c : Call} {w' : World} {held : Option (String × Nat)} (table : w'.table = w.table) (log : w'.log = w.log)
    (less : held = m.held ∨ held = none) : Effect w m c w' held
  | take {workerID : String} {d : WebhookDelivery} {held : Option (String × Nat)} (owner : m.owner = some workerID)
    (row : w.table.row d.id = some d) (eligible : d.eligible w.now minute = true)
    (given : held = none ∨ held = some (d.id, d.attempts + 1)) : Effect w m (.claim workerID minute) (w.take workerID d) held
  | settle {c : Call} {id workerID : String} {attempts : Nat} {f : WebhookDelivery → WebhookDelivery}
    {hf : ∀ d, (f d).id = d.id} (owner : m.owner = some workerID) (held : m.held = some (id, attempts))
    (unlocks : ∀ d, (f d).lockedBy = none) (keeps : ∀ d, (f d).attempts = d.attempts)
    (retries : ∀ d, (f d).state.final = false → attempts < maxAttempts) : Effect w m c (w.settle id workerID f hf) m.held
  | insert {c : Call} {d : WebhookDelivery} {hd : d.id ∉ w.table.rows.map (·.id)} (owner : m.owner = none)
    (attempts : d.attempts = 0) (state : d.state = .pending) (unlocked : d.lockedBy = none) :
    Effect w m c { w with table := w.table.insert d hd } m.held

theorem effect_claim {r : Resp (.claim workerID minute)}
    (howner : m.owner = some workerID) (hr : workers.answer w (.claim workerID minute) o = some (r, w')) :
    Effect w m (.claim workerID minute) w' ((watch t).next m.held (.claim workerID minute) r) := by
  have hcases := w.claim_cases workerID minute
  obtain ⟨-, he⟩ | ⟨e, -, he, rfl⟩ | ⟨e, -, he, rfl⟩ := System.answer_cases hr
  · cases he
    obtain hnone | ⟨d, hrow, hel, hsome⟩ := hcases
    · simp [hnone]
      exact .nothing rfl rfl (.inr rfl)
    · simp [hsome]
      exact .take howner hrow hel (.inr rfl)
  · cases he
    exact .nothing rfl rfl (.inr rfl)
  · cases he
    obtain hnone | ⟨d, hrow, hel, hsome⟩ := hcases
    · simp [workers, World.handle, hnone]
      exact .nothing rfl rfl (.inr rfl)
    · simp [workers, World.handle, hsome]
      exact .take howner hrow hel (.inl rfl)

theorem effect_of_answer {r : Resp c} (howner : m.owner = t.workerID)
    (hadmits : (watch t).admits m.held c) (hr : workers.answer w c o = some (r, w')) :
    Effect w m c w' ((watch t).next m.held c r) := by
  have hworld := System.answer_world hr
  cases c with
  | claim workerID staleAfter =>
    obtain ⟨hw, rfl⟩ := hadmits
    exact effect_claim (howner.trans hw) hr
  | decryptSecret | send => obtain rfl | rfl := hworld <;> exact .nothing rfl rfl (.inl rfl)
  | complete id workerID status excerpt =>
    obtain ⟨hw, attempts, hheld⟩ := hadmits
    obtain rfl | rfl := hworld
    · exact .nothing rfl rfl (.inl rfl)
    · exact .settle (howner.trans hw) hheld (fun _ => rfl) (fun _ => rfl) nofun
  | fail id workerID status excerpt lastError retry delay =>
    obtain ⟨hw, attempts, hheld, rfl⟩ := hadmits
    obtain rfl | rfl := hworld
    · exact .nothing rfl rfl (.inl rfl)
    · refine .settle (howner.trans hw) hheld (fun _ => rfl) (fun _ => rfl) fun d hopen => ?_
      by_contra hmax
      simp [unsuccessful, hmax, DeliveryState.final] at hopen
  | insert d =>
    obtain ⟨hnone, hattempts, hstate, hlock⟩ := hadmits
    obtain rfl | rfl := hworld
    · exact .nothing rfl rfl (.inl rfl)
    · simp [workers, World.handle]
      split
      · exact .insert (howner.trans hnone) hattempts hstate hlock
      · exact .nothing rfl rfl (.inl rfl)

theorem Exclusive.effect
    (h : Exclusive w g) (hi : g[i]? = some m) (he : Effect w m c w' held) : Exclusive w' (g.set i ⟨m.owner, held⟩) := by
  cases he with
  | nothing htable hlog hless =>
    have hset : Exclusive w (g.set i ⟨m.owner, held⟩) := h.set hi rfl hless
    exact hset.of_rows hlog fun k e hrow => .inl (htable ▸ hrow)
  | take howner hrow _ hgiven => exact h.take hrow hi howner rfl hgiven
  | settle howner hheld hunlocks _ _ => exact (h.set hi rfl (.inl rfl)).settle hunlocks
  | insert _ _ _ hunlocked => exact (h.set hi rfl (.inl rfl)).insert hunlocked

theorem Exclusive.start (h : Exclusive w g) (hnone : m.held = none)
    (hnew : ∀ (j : Nat) n workerID, g[j]? = some n → m.owner = some workerID → n.owner ≠ some workerID) :
    Exclusive w (g ++ [m]) where
  released := h.released
  latest := h.latest
  apart j k a b v hj hk ha hb := by
    obtain ⟨hjl, rfl⟩ | hj := snoc_cases hj <;> obtain ⟨hkl, he⟩ | hk := snoc_cases hk
    · exact hjl.trans hkl.symm
    · exact absurd hb (hnew k b v hk ha)
    · exact absurd ha (hnew j a v hj (he ▸ hb))
    · exact h.apart j k a b v hj hk ha hb
  held j a v id attempts hj ha hheld := by
    obtain ⟨-, rfl⟩ | hj := snoc_cases hj
    · rw [hnone] at hheld
      cases hheld
    · exact h.held j a v id attempts hj ha hheld

theorem Exclusive.begin (h : Exclusive s.world g) (ha : distinct s (.start t) = true)
    (hg : Follows Attends s.threads g) : Exclusive s.world (g ++ [⟨t.workerID, none⟩]) := by
  refine h.start rfl fun j n v hj hv hn => ?_
  obtain ⟨x, hx, hat⟩ := hg.of hj
  have hall := (Option.all_eq_true _ _).mp ha v hv
  have hne := List.all_eq_true.mp hall x (List.mem_of_getElem? hx)
  exact of_decide_eq_true hne (hat.1 ▸ hn)

theorem exclusive_inv : GhostInv workers (fun s l => distinct s l = true) Attends Exclusive where
  start _ t _ ha hg h := ⟨⟨t.workerID, none⟩, attends_program t, h.begin ha hg⟩
  tick _ _ _ _ _ h := h.of_rows rfl fun _ _ hrow => .inl hrow
  crash _ _ _ _ _ m _ _ _ hi hat h := ⟨⟨m.owner, none⟩, ⟨hat.1, trivial⟩, h.set hi rfl (.inr rfl)⟩
  call _ _ _ t c _ r _ _ m _ _ _ hi hat h hr :=
    ⟨⟨m.owner, (watch t).next m.held c r⟩, ⟨hat.1, hat.2.2 r trivial⟩, h.effect hi (effect_of_answer hat.1 hat.2.1 hr)⟩

/-! ## Outcomes are final -/

section
variable {w : World}

theorem Exclusive.final_stays (h : Exclusive w g) (he : Effect w m c w' held) (hrow : w.table.row id = some d)
    (hfinal : d.state.final = true) : w'.table.row id = some d := by
  cases he with
  | nothing htable _ _ => exact htable ▸ hrow
  | @take workerID e _ _ he hel _ =>
    have hne : id ≠ e.id := by
      rintro rfl
      obtain rfl := Option.some.inj (hrow.symm.trans he)
      rw [not_final_of_eligible hel] at hfinal
      cases hfinal
    rw [World.take, DeliveryTable.row_update, if_neg hne]
    exact hrow
  | @settle _ k workerID _ f _ _ _ _ _ _ =>
    have hfree : heldBy workerID d = false := by
      rw [heldBy, h.released id d hrow hfinal]
      rfl
    rw [World.settle, DeliveryTable.row_update, hrow]
    simp [hfree]
  | @insert _ e hd _ _ _ _ =>
    have hne : id ≠ e.id := by
      rintro rfl
      rw [DeliveryTable.row, rowAt_eq_none.mpr hd] at hrow
      cases hrow
    rw [DeliveryTable.row_insert, if_neg hne]
    exact hrow

theorem Exclusive.changes_own (h : Exclusive w g) (hi : g[i]? = some m) (howner : m.owner = some workerID)
    (he : Effect w m c w' held) (hne : w'.table.row id ≠ w.table.row id) :
    w'.log = ⟨id, workerID⟩ :: w.log ∨ owns w.log id workerID = true := by
  cases he with
  | nothing htable _ _ => exact absurd (congrArg (·.row id) htable) hne
  | @take v e _ hv _ _ _ =>
    obtain rfl := Option.some.inj (howner.symm.trans hv)
    refine .inl ?_
    by_cases hk : id = e.id
    · rw [hk, World.take]
    · rw [World.take, DeliveryTable.row_update, if_neg hk] at hne
      exact absurd rfl hne
  | @settle _ k v attempts f _ hv hheld _ _ _ =>
    obtain rfl := Option.some.inj (howner.symm.trans hv)
    rw [World.settle, DeliveryTable.row_update] at hne
    split at hne
    · rename_i hk
      subst hk
      cases hrow : w.table.row id with
      | none =>
        rw [hrow] at hne
        exact absurd rfl hne
      | some d =>
        by_cases hlock : d.lockedBy = some workerID
        · obtain ⟨hlast, -⟩ := h.held i m workerID id attempts hi howner hheld
          exact .inr (Bool.and_eq_true_iff.mpr ⟨decide_eq_true (h.latest id d workerID hrow hlock), decide_eq_true hlast⟩)
        · rw [hrow] at hne
          simp [heldBy, hlock] at hne
    · exact absurd rfl hne
  | insert hnone _ _ _ => rw [howner] at hnone; cases hnone

end

theorem final_stays_step {l : Label Task} (hs : Ghosted Attends Exclusive s)
    (hn : workers.next s l = some s') (hrow : s.world.table.row id = some d) (hfinal : d.state.final = true) :
    s'.world.table.row id = some d := by
  obtain ⟨g, hg, h⟩ := hs
  cases l with
  | start | tick => cases hn; exact hrow
  | crash i =>
    obtain ⟨t, p, -, rfl⟩ := System.next_crash hn
    exact hrow
  | call i o =>
    obtain ⟨t, c, k, r, w, hi, hr, rfl⟩ := System.next_call hn
    obtain ⟨m, hm, hat⟩ := hg.at hi
    exact h.final_stays (effect_of_answer hat.1 hat.2.1 hr) hrow hfinal

def World.fresh (w : World) : Prop := w.table.rows = [] ∧ w.log = []

theorem World.fresh.row (h : w.fresh) (id : String) : w.table.row id = none := by
  rw [DeliveryTable.row, h.1]
  rfl

theorem World.fresh.exclusive (h : w.fresh) : Ghosted Attends Exclusive (⟨w, []⟩ : State) := by
  refine ⟨[], .nil, fun id d hrow => ?_, fun id d v hrow => ?_, fun i j m n v hi => ?_, fun i m v id a hi => ?_⟩
  · rw [h.row id] at hrow
    cases hrow
  · rw [h.row id] at hrow
    cases hrow
  · cases hi
  · cases hi

/-- A row with its outcome stays as it is. Any other row is changed by a worker only where that
worker claims it, or made the last claim of it and has made none since. -/
theorem claims_exclusive_outcomes_final {w₀ : World} {ls : List (Label Task)} {s : State} (h₀ : w₀.fresh)
    (hr : Run workers.next (fun s l => distinct s l = true) ⟨w₀, []⟩ ls s) :
    (∀ ls' s', Run workers.next (fun s l => distinct s l = true) s ls' s' → ∀ id d, s.world.table.row id = some d →
      d.state.final = true → s'.world.table.row id = some d) ∧
    (∀ i o s' workerID rounds p, s.threads[i]? = some (.worker workerID rounds, p) → workers.next s (.call i o) = some s' →
      ∀ id, s'.world.table.row id ≠ s.world.table.row id →
        s'.world.log = ⟨id, workerID⟩ :: s.world.log ∨ owns s.world.log id workerID = true) := by
  have hs : Ghosted Attends Exclusive s := exclusive_inv.run h₀.exclusive hr
  refine ⟨fun ls' s' hr' id d hrow hfinal => ?_, fun i o s' workerID rounds p hi hn id hne => ?_⟩
  · have hkeep := Run.invariant (I := fun s => Ghosted Attends Exclusive s ∧ s.world.table.row id = some d)
      (fun s l s' h ha hn => ⟨exclusive_inv.step h.1 ha hn, final_stays_step h.1 hn h.2 hfinal⟩) ⟨hs, hrow⟩ hr'
    exact hkeep.2
  · obtain ⟨g, hg, h⟩ := hs
    obtain ⟨t, c, k, r, w, hi', hr', rfl⟩ := System.next_call hn
    obtain ⟨m, hm, hat⟩ := hg.at hi'
    obtain ⟨rfl, -⟩ := Prod.mk.inj (Option.some.inj (hi.symm.trans hi'))
    exact h.changes_own hm hat.1 (effect_of_answer hat.1 hat.2.1 hr') hne

def takeover : List (Label Task) :=
  [.start (.enqueue "d" "server.created" "https://hooks.test" "" "\x7b\x7d"), .call 0 .delivered,
    .start (.worker "A" 1), .start (.worker "B" 1), .call 1 .delivered, .tick 61, .call 2 .delivered,
    .call 1 .delivered, .call 1 .delivered, .call 1 .delivered, .call 2 .delivered, .call 2 .delivered, .call 2 .delivered]

theorem claims_exclusive_outcomes_final_takeover : ∃ s,
    Run workers.next (fun s l => distinct s l = true) ⟨{}, []⟩ takeover s ∧
    (s.world.table.row "d").any (fun d => decide (d.state = .delivered ∧ d.deliveredAt = some 61 ∧ d.attempts = 2)) = true ∧
    ∀ ls' s', Run workers.next (fun s l => distinct s l = true) s ls' s' → s'.world.table.row "d" = s.world.table.row "d" := by
  refine exists_run_and (by decide +kernel) fun s hs hrow ls' s' hr' => ?_
  obtain ⟨d, hd, hstate⟩ := (Option.any_eq_true _ _).mp hrow
  have hfinal : d.state.final = true := by rw [(of_decide_eq_true hstate).1]; rfl
  exact ((claims_exclusive_outcomes_final ⟨rfl, rfl⟩ hs).1 ls' s' hr' "d" d hd hfinal).trans hd.symm

/-- Where a worker claims, no delivery that was tried eight times has been locked for over a minute. -/
def inTime (s : State) (l : Label Task) : Bool :=
  match s.sends l with
  | some (_, .claim _ staleAfter) =>
    s.world.table.rows.all fun d => d.lockedBy.isNone || decide (d.attempts < maxAttempts) || !d.stale s.world.now staleAfter
  | _ => true

structure Bounded (w : World) : Prop where
  counted : ∀ id, w.log.countP (·.id = id) = ((w.table.row id).map (·.attempts)).getD 0
  limit : ∀ id d, w.table.row id = some d → d.attempts ≤ maxAttempts
  waiting : ∀ id d, w.table.row id = some d → d.state.final = false → d.lockedBy = none → d.attempts < maxAttempts

section
variable {w : World}
variable (h : Bounded w)
include h

theorem Bounded.take (hrow : w.table.row d.id = some d) (hmax : d.attempts < maxAttempts)
    (workerID : String) : Bounded (w.take workerID d) where
  counted id := by
    by_cases hid : id = d.id
    · subst hid
      have hold := h.counted d.id
      rw [hrow] at hold
      rw [World.take, DeliveryTable.row_update, if_pos rfl, hrow, List.countP_cons_of_pos (by simp), hold]
      rfl
    · rw [World.take, DeliveryTable.row_update, if_neg hid, List.countP_cons_of_neg (by simpa using Ne.symm hid)]
      exact h.counted id
  limit id e he := by
    obtain ⟨-, rfl⟩ | ⟨-, he⟩ := row_take hrow he
    · exact hmax
    · exact h.limit id e he
  waiting id e he hopen hfree := by
    obtain ⟨-, rfl⟩ | ⟨-, he⟩ := row_take hrow he
    · cases hfree
    · exact h.waiting id e he hopen hfree

theorem Bounded.settle
    (hkeeps : ∀ d, (f d).attempts = d.attempts) (hretries : ∀ d, (f d).state.final = false → attempts < maxAttempts)
    (hheld : ∀ d, w.table.row id = some d → d.lockedBy = some workerID → d.attempts = attempts) :
    Bounded (w.settle id workerID f hf) where
  counted k := by
    rw [World.settle, DeliveryTable.row_update]
    split
    · rw [Option.map_map]
      have hsame : ((·.attempts) ∘ fun d => if heldBy workerID d then f d else d) = (·.attempts) := by
        funext d
        simp [Function.comp]
        split
        · exact hkeeps d
        · rfl
      rw [hsame]
      exact h.counted k
    · exact h.counted k
  limit k e he := by
    obtain he | ⟨rfl, d, hd, -, rfl⟩ := row_settle he
    · exact h.limit k e he
    · rw [hkeeps]
      exact h.limit k d hd
  waiting k e he hopen hfree := by
    obtain he | ⟨rfl, d, hd, hlock, rfl⟩ := row_settle he
    · exact h.waiting k e he hopen hfree
    · rw [hkeeps, hheld d hd hlock]
      exact hretries d hopen

theorem Bounded.insert {hd : d.id ∉ w.table.rows.map (·.id)} (hzero : d.attempts = 0) :
    Bounded { w with table := w.table.insert d hd } where
  counted id := by
    rw [DeliveryTable.row_insert]
    split
    · rename_i hid
      subst hid
      have hold := h.counted d.id
      rw [DeliveryTable.row, rowAt_eq_none.mpr hd] at hold
      rw [hold]
      exact hzero.symm
    · exact h.counted id
  limit id e he := by
    rw [DeliveryTable.row_insert] at he
    split at he
    · rw [← Option.some.inj he, hzero]
      exact Nat.zero_le _
    · exact h.limit id e he
  waiting id e he hopen hfree := by
    rw [DeliveryTable.row_insert] at he
    split at he
    · rw [← Option.some.inj he, hzero]
      decide
    · exact h.waiting id e he hopen hfree

theorem Bounded.claimable (hrow : w.table.row d.id = some d) (hel : d.eligible w.now minute = true)
    (hin : (d.lockedBy.isNone || decide (d.attempts < maxAttempts) || !d.stale w.now minute) = true) : d.attempts < maxAttempts := by
  have hopen := not_final_of_eligible hel
  simp [WebhookDelivery.eligible] at hel
  cases hlock : d.lockedBy with
  | none => exact h.waiting d.id d hrow hopen hlock
  | some v => simpa [hlock, hel.2] using hin

theorem Bounded.effect (hx : Exclusive w g) (hi : g[i]? = some m) (he : Effect w m c w' held)
    (hin : ∀ workerID, c = .claim workerID minute → ∀ d ∈ w.table.rows,
      (d.lockedBy.isNone || decide (d.attempts < maxAttempts) || !d.stale w.now minute) = true) : Bounded w' := by
  cases he with
  | nothing htable hlog _ =>
    refine ⟨?_, ?_, ?_⟩ <;> rw [htable]
    · rw [hlog]
      exact h.counted
    · exact h.limit
    · exact h.waiting
  | take _ hrow hel _ => exact h.take hrow (h.claimable hrow hel (hin _ rfl _ (rowAt_mem hrow))) _
  | settle howner hheld _ hkeeps hretries => exact h.settle hkeeps hretries (hx.held i m _ _ _ hi howner hheld).2
  | insert _ hzero _ _ => exact h.insert hzero

end

theorem bounded_inv : GhostInv workers (fun s l => distinct s l = true ∧ inTime s l = true) Attends
    (fun w g => Exclusive w g ∧ Bounded w) where
  start _ t _ ha hg h := ⟨⟨t.workerID, none⟩, attends_program t, h.1.begin ha.1 hg, h.2⟩
  tick _ _ _ _ _ h := ⟨h.1.of_rows rfl fun _ _ hrow => .inl hrow, h.2.counted, h.2.limit, h.2.waiting⟩
  crash _ _ _ _ _ m _ _ _ hi hat h := ⟨⟨m.owner, none⟩, ⟨hat.1, trivial⟩, h.1.set hi rfl (.inr rfl), h.2⟩
  call s i o t c k r w g m ha hi hg hm hat h hr := by
    have heffect := effect_of_answer hat.1 hat.2.1 hr
    refine ⟨⟨m.owner, (watch t).next m.held c r⟩, ⟨hat.1, hat.2.2 r trivial⟩, h.1.effect hm heffect, ?_⟩
    refine h.2.effect h.1 hm heffect fun workerID hc d hd => ?_
    subst hc
    have hsends : s.sends (.call i o) = some (t, .claim workerID minute) := Config.pending_eq hi
    have hin := ha.2
    simp only [inTime, hsends] at hin
    exact List.all_eq_true.mp hin d hd

theorem World.fresh.bounded (h : w.fresh) : Bounded w := by
  refine ⟨fun id => ?_, fun id d hrow => ?_, fun id d hrow => ?_⟩
  · rw [h.row id, h.2]
    rfl
  · rw [h.row id] at hrow
    cases hrow
  · rw [h.row id] at hrow
    cases hrow

/-- If no eighth attempt is left locked until it may be taken over, no delivery is claimed more often. -/
theorem claimed_at_most_eight {w₀ : World} {ls : List (Label Task)} {s : State} (h₀ : w₀.fresh)
    (hr : Run workers.next (fun s l => distinct s l = true ∧ inTime s l = true) ⟨w₀, []⟩ ls s) (id : String) :
    s.world.log.countP (·.id = id) ≤ maxAttempts := by
  obtain ⟨g, -, -, h⟩ := bounded_inv.run (h₀.exclusive.imp fun _ hg => ⟨hg.1, hg.2, h₀.bounded⟩) hr
  rw [h.counted id]
  cases hrow : s.world.table.row id with
  | none => exact Nat.zero_le _
  | some d => exact h.limit id d hrow

def rounds (round : List (Label Task)) (delays : List Nat) : List (Label Task) :=
  [.start (.enqueue "d" "server.created" "https://hooks.test" "" ""), .call 0 .delivered, .start (.worker "A" delays.length)] ++
    delays.flatMap fun d => round ++ [.tick d]

theorem claimed_at_most_eight_refused : ∃ (w₀ s : _) (ls : List (Label Task)), World.fresh w₀ ∧
    Run workers.next (fun s l => distinct s l = true ∧ inTime s l = true) ⟨w₀, []⟩ ls s ∧
    (s.world.table.row "d").any (fun d => decide (d.state = .failed ∧ d.attempts = 8)) = true ∧
    s.world.log.countP (·.id = "d") ≤ maxAttempts := by
  let w₀ : World := { sends := fun _ _ => .refused (some 503) "" "unexpected status" }
  obtain ⟨s, hr, hrow⟩ : ∃ s, Run workers.next (fun s l => distinct s l = true ∧ inTime s l = true) ⟨w₀, []⟩
      (rounds (List.replicate 4 (.call 1 .delivered)) ((List.range 8).map fun n => 60 * 2 ^ n)) s ∧
      (s.world.table.row "d").any (fun d => decide (d.state = .failed ∧ d.attempts = 8)) = true := by decide +kernel
  exact ⟨w₀, s, _, ⟨rfl, rfl⟩, hr, hrow, claimed_at_most_eight ⟨rfl, rfl⟩ hr "d"⟩

/-- The secret cannot be decrypted: each round claims the delivery and ends there, and a minute
later it is claimed again. -/
theorem claimed_nine_times : ∃ (w₀ s : _) (ls : List (Label Task)), World.fresh w₀ ∧
    Run workers.next (fun s l => distinct s l = true) ⟨w₀, []⟩ ls s ∧
    (s.world.table.row "d").any (fun d => decide (d.state = .processing)) = true ∧
    s.world.log.countP (·.id = "d") = 9 := by
  let w₀ : World := { opens := fun _ _ => .error "cipher: message authentication failed" }
  obtain ⟨s, hs, hrow, hcount⟩ : ∃ s, Run workers.next (fun s l => distinct s l = true) ⟨w₀, []⟩
      (rounds (List.replicate 2 (.call 1 .delivered)) (List.replicate 9 61)) s ∧
      (s.world.table.row "d").any (fun d => decide (d.state = .processing)) = true ∧ s.world.log.countP (·.id = "d") = 9 := by
    decide +kernel
  exact ⟨w₀, s, _, ⟨rfl, rfl⟩, hs, hrow, hcount⟩

end ForgePlane.Webhooks
