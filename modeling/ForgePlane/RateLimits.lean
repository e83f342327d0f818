import ForgePlane.Ghosts
import ForgePlane.Wire

/-!
# The rate limit in Redis

A request increments the counter of its key, gives the key an expiry if it has created it and takes its
increment back if it is refused.
-/

namespace ForgePlane.RateLimits

open List

/-! ## The middleware -/

structure RateLimitConfig where
  windowSeconds : Int
  maxRequests : Int
  deriving DecidableEq, Repr

inductive Call where
  | incr (request : String)
  | expire (window : Int)
  | decr (request : String)
  | allow (maxRequests window : Int)

abbrev Resp : Call → Type
  | .incr _ => Except Err Int
  | .expire _ => Except Err Unit
  | .decr _ => Except Err Unit
  | .allow .. => Bool × Int

abbrev Action := Prog Resp

def call (c : Call) : Action (Resp c) := .call c .ret

section
variable (cfg : RateLimitConfig)

def tryRedis (request : String) : Action (Except Err Int) := do
  match ← call (.incr request) with
  | .error e => pure (.error e)
  | .ok count =>
    if count = 1 then
      let _ ← call (.expire cfg.windowSeconds)
    if count > cfg.maxRequests then
      let _ ← call (.decr request)
    pure (.ok count)

def rateLimiter (request : String) : Action Bool := do
  match ← tryRedis cfg request with
  | .error _ =>
    let (allowed, _) ← call (.allow cfg.maxRequests cfg.windowSeconds)
    pure allowed
  | .ok count => pure (decide (count ≤ cfg.maxRequests))

def program (request : String) : Action Unit := do
  let _ ← rateLimiter cfg request

end

structure Entry where
  value : Int
  expiresAt : Option Nat := none
  createdBy : String
  deriving DecidableEq, Repr

structure MemBucket where
  count : Int
  expiresAt : Int
  deriving DecidableEq, Repr

/-- A window opens where an INCR creates the key and closes where the key expires. `counted` is an
INCR with its result. -/
inductive Event where
  | opened
  | closed
  | counted (request : String) (count : Int)
  deriving DecidableEq, Repr

structure World where
  now : Nat := 0
  key : Option Entry := none
  bucket : Option MemBucket := none
  log : List Event := []
  deriving DecidableEq, Repr

namespace World

open List

def incr (w : World) (request : String) : Int × World :=
  match w.key with
  | none => (1, { w with key := some ⟨1, none, request⟩, log := .counted request 1 :: .opened :: w.log })
  | some e => (e.value + 1, { w with key := some { e with value := e.value + 1 }, log := .counted request (e.value + 1) :: w.log })

def expire (w : World) (window : Int) : World :=
  match w.key with
  | none => w
  | some e =>
    if window ≤ 0 then { w with key := none, log := .closed :: w.log }
    else { w with key := some { e with expiresAt := some (w.now + window.toNat) } }

def decr (w : World) (request : String) : World :=
  match w.key with
  | none => { w with key := some ⟨-1, none, request⟩ }
  | some e => { w with key := some { e with value := e.value - 1 } }

def allow (w : World) (maxRequests window : Int) : (Bool × Int) × World :=
  match w.bucket with
  | none => ((true, maxRequests - 1), { w with bucket := some ⟨1, w.now + window⟩ })
  | some b =>
    if b.expiresAt < w.now then ((true, maxRequests - 1), { w with bucket := some ⟨1, w.now + window⟩ })
    else if b.count ≥ maxRequests then ((false, 0), w)
    else ((true, max 0 (maxRequests - (b.count + 1))), { w with bucket := some { b with count := b.count + 1 } })

def handle (w : World) : (c : Call) → Resp c × World
  | .incr request => (.ok (w.incr request).1, (w.incr request).2)
  | .expire window => (.ok (), w.expire window)
  | .decr request => (.ok (), w.decr request)
  | .allow maxRequests window => w.allow maxRequests window

def tick (w : World) (d : Nat) : World :=
  match w.key with
  | some { expiresAt := some t, .. } =>
    if t ≤ w.now + d then { w with now := w.now + d, key := none, log := .closed :: w.log }
    else { w with now := w.now + d }
  | _ => { w with now := w.now + d }

end World

def fault : (c : Call) → Err → Option (Resp c)
  | .incr _, e => some (.error e)
  | .expire _, e => some (.error e)
  | .decr _, e => some (.error e)
  | .allow .., _ => none

def limiter (cfg : RateLimitConfig) : System Resp String World where
  program := program cfg
  handle := World.handle
  fault := fault
  tick := World.tick

abbrev State := Config Resp String World

/-! ## What is asked of it -/

section
variable (cfg : RateLimitConfig)

def admitted : Event → Bool
  | .counted _ count => decide (count ≤ cfg.maxRequests)
  | _ => false

def Event.isCounted : Event → Bool
  | .counted .. => true
  | _ => false

def WithinLimit (log : List Event) : Prop :=
  ∀ later window earlier, log = later ++ window ++ .opened :: earlier → window.all Event.isCounted = true →
    window.countP (admitted cfg) ≤ cfg.maxRequests.toNat

def Expiring (s : State) : Prop :=
  ∀ e, s.world.key = some e → e.expiresAt = none → ∃ i p, s.threads[i]? = some (e.createdBy, p) ∧ s.ended i = false

def owes : Action Unit → Bool
  | .call (.decr _) _ => true
  | .call (.expire _) k =>
    match k (.ok ()) with
    | .call (.decr _) _ => true
    | _ => false
  | _ => false

def unowed (s : State) : Bool := s.threads.all fun x => !owes x.2

def timed (w : World) : Bool := w.key.all fun e => e.expiresAt.isSome

/-- The request that creates the key learns of it and sets its expiry, and a window does not close
while a refused request of it still has to take its increment back. -/
def kept (s : State) : Label String → Bool
  | .tick d => decide ((s.world.tick d).key = s.world.key) || unowed s
  | .crash i =>
    match s.pending i with
    | some (_, .expire _) => timed s.world
    | _ => true
  | .call i o =>
    match s.pending i with
    | some (_, .incr _) => s.world.key.isSome || !o.isAmbiguous
    | some (_, .expire window) => (timed s.world || !o.isLost) && (decide (0 < window) || unowed s)
    | _ => true
  | .start _ => true

end

/-! ## The commands of one request -/

inductive Phase where
  | fresh
  | creating (request : String) (owing : Bool)
  | refused
  | done
  deriving DecidableEq, Repr

def Phase.owes : Phase → Bool
  | .creating _ owing => owing
  | .refused => true
  | _ => false

section
variable (cfg : RateLimitConfig)

def watch (request : String) : Monitor Resp Phase where
  admits m
    | .incr r => r = request ∧ m = .fresh
    | .expire window => window = cfg.windowSeconds ∧ ∃ owing, m = .creating request owing
    | .decr r => r = request ∧ m = .refused
    | .allow .. => m = .done
  next m
    | .incr _, .ok count =>
      if count = 1 then .creating request (decide (cfg.maxRequests < count))
      else if cfg.maxRequests < count then .refused else .done
    | .incr _, .error _ => .done
    | .expire _, _ => if m.owes then .refused else .done
    | .decr _, _ => .done
    | .allow .., _ => .done

theorem wp_tryRedis (request : String) : wp (watch cfg request) (tryRedis cfg request) (fun _ m => m = .done) .fresh := by
  refine wp_ask ⟨rfl, rfl⟩ (forall_result fun count _ => ?_)
  -- what is left once the expiry is settled
  have hrest : wp (watch cfg request) (if count > cfg.maxRequests then call (.decr request) >>= fun _ => .ret (.ok count) else
      .ret (.ok count) : Action (Except Err Int)) (fun _ m => m = .done) (if cfg.maxRequests < count then .refused else .done) := by
    by_cases hmax : cfg.maxRequests < count
    · rw [if_pos hmax, if_pos hmax]
      exact ⟨⟨rfl, rfl⟩, fun _ _ => rfl⟩
    · rw [if_neg hmax, if_neg hmax]
      exact rfl
  change wp _ (if count = 1 then _ else _) _ (if count = 1 then _ else _)
  split
  · refine ⟨⟨rfl, _, rfl⟩, fun _ _ => ?_⟩
    have hphase : (if (Phase.creating request (decide (cfg.maxRequests < count))).owes then Phase.refused else .done) =
        if cfg.maxRequests < count then .refused else .done := by simp [Phase.owes]
    change wp _ _ _ (if (Phase.creating request (decide (cfg.maxRequests < count))).owes then _ else _)
    rw [hphase]
    exact hrest
  · exact hrest

theorem wp_program (request : String) : wp (watch cfg request) (program cfg request) (fun _ m => m = .done) .fresh := by
  refine wp_seq (wp_then (wp_tryRedis cfg request) ?_)
  rintro r m rfl
  match r with
  | .error e => exact ⟨rfl, fun _ _ => rfl⟩
  | .ok count => exact rfl

def Attends (x : String × Action Unit) (m : Phase) : Prop :=
  wp (watch cfg x.1) x.2 (fun _ m => m = .done) m ∧ ∀ request owing, m = .creating request owing → x.1 = request

end

variable {request : String} {g : List Phase} {m : Phase} {w w' : World} {window earlier : List Event}

section
variable {cfg : RateLimitConfig} {p : Action Unit}

theorem owes_of_phase (h : wp (watch cfg request) p (fun _ m => m = .done) m) (hm : m.owes = true) : owes p = true := by
  -- the program of a request that owes its DECR makes that call next
  have hnext : ∀ {p : Action Unit}, wp (watch cfg request) p (fun _ m => m = .done) .refused → ∃ r k, p = .call (.decr r) k := by
    intro p h
    cases p with
    | ret => cases h
    | call c k =>
      cases c with
      | decr r => exact ⟨r, k, rfl⟩
      | incr => cases h.1.2
      | expire => obtain ⟨-, _, he⟩ := h.1; cases he
      | allow => cases h.1
  match m with
  | .refused =>
    obtain ⟨r, k, rfl⟩ := hnext h
    rfl
  | .creating r owing =>
    obtain rfl : owing = true := hm
    cases p with
    | ret => cases h
    | call c =>
      cases c with
      | decr | incr => cases h.1.2
      | allow => cases h.1
      | expire =>
        obtain ⟨r', k', he⟩ := hnext (h.2 (.ok ()) trivial)
        simp [owes, he]

theorem unowed_ghosts {s : State} (hg : Follows (Attends cfg) s.threads g) (h : unowed s = true) :
    g.countP Phase.owes = 0 := by
  refine countP_eq_zero.mpr fun m hm howes => ?_
  obtain ⟨i, hi⟩ := mem_iff_getElem?.mp hm
  obtain ⟨x, hx, hwp, -⟩ := hg.of hi
  have hnot := all_eq_true.mp h x (mem_of_getElem? hx)
  rw [owes_of_phase hwp howes] at hnot
  cases hnot

end

def current (cfg : RateLimitConfig) : List Event → Nat
  | .counted _ count :: log => (if count ≤ cfg.maxRequests then 1 else 0) + current cfg log
  | _ => 0

theorem current_window (cfg : RateLimitConfig) (h : window.all Event.isCounted = true) :
    current cfg (window ++ .opened :: earlier) = window.countP (admitted cfg) := by
  induction window with
  | nil => rfl
  | cons e window ih =>
    simp only [all_cons, Bool.and_eq_true] at h
    match e with
    | .counted r count =>
      rw [cons_append, current, ih h.2, countP_cons, Nat.add_comm]
      simp [admitted]
    | .opened => cases h.1
    | .closed => cases h.1

structure Limited (cfg : RateLimitConfig) (w : World) (g : List Phase) : Prop where
  covered : ∀ e, w.key = some e → (current cfg w.log : Int) + g.countP Phase.owes ≤ e.value
  missing : w.key = none → g.countP Phase.owes = 0
  bound : ∀ log, log <:+ w.log → current cfg log ≤ cfg.maxRequests.toNat
  creator : ∀ e, w.key = some e → e.expiresAt = none → ∃ (i : Nat) (owing : _), g[i]? = some (.creating e.createdBy owing)

theorem Limited.within {cfg : RateLimitConfig} (h : Limited cfg w g) : WithinLimit cfg w.log := by
  intro later window earlier hlog hall
  rw [← current_window cfg hall]
  refine h.bound _ ⟨later, ?_⟩
  rw [hlog, append_assoc]

section
variable {cfg : RateLimitConfig} {i t : Nat} {m' : Phase}
variable {e : Entry}

theorem creator_set (hi : g[i]? = some m) (hm : ∀ r b, m ≠ .creating r b)
    (h : ∃ (j : Nat) (owing : _), g[j]? = some (.creating e.createdBy owing)) :
    ∃ (j : Nat) (owing : _), (g.set i m')[j]? = some (.creating e.createdBy owing) := by
  obtain ⟨j, owing, hj⟩ := h
  have hji : i ≠ j := by
    rintro rfl
    exact hm _ _ (Option.some.inj (hi.symm.trans hj))
  exact ⟨j, owing, by rw [List.getElem?_set_ne hji, hj]⟩

variable (h : Limited cfg w g)
include h

theorem Limited.idle (hi : g[i]? = some m) (howes : m'.owes = true → m.owes = true)
    (htimed : timed w = true ∨ ∀ r b, m ≠ .creating r b) : Limited cfg w (g.set i m') := by
  have hcount : (g.set i m').countP Phase.owes ≤ g.countP Phase.owes := by
    have := countP_exchange (y := m') Phase.owes hi
    by_cases hm' : m'.owes = true
    · simp [hm', howes hm'] at this
      omega
    · simp [hm'] at this
      omega
  refine ⟨fun e he => ?_, fun hnone => ?_, h.bound, fun e he hexp => ?_⟩
  · have := h.covered e he
    omega
  · have := h.missing hnone
    omega
  · obtain htimed | hm := htimed
    · simp [timed, he, hexp] at htimed
    · exact creator_set hi hm (h.creator e he hexp)

theorem Limited.incr_again (hkey : w.key = some e) (hi : g[i]? = some .fresh)
    (howes : m'.owes = true → cfg.maxRequests < e.value + 1) :
    Limited cfg { w with key := some { e with value := e.value + 1 }, log := .counted request (e.value + 1) :: w.log } (g.set i m') := by
  have hcovered := h.covered e hkey
  have hcount := countP_exchange (y := m') Phase.owes hi
  have hcurrent : current cfg (.counted request (e.value + 1) :: w.log) =
      (if e.value + 1 ≤ cfg.maxRequests then 1 else 0) + current cfg w.log := rfl
  simp [show Phase.fresh.owes = false from rfl] at hcount
  refine ⟨fun e' he' => ?_, nofun, fun log hlog => ?_, fun e' he' hexp => ?_⟩
  · cases he'
    rw [hcurrent, hcount]
    by_cases hm' : m'.owes = true
    · have := howes hm'
      rw [if_neg (by omega), if_pos hm']
      push_cast
      omega
    · rw [if_neg hm']
      split <;> push_cast <;> omega
  · obtain rfl | hlog := suffix_cons_iff.mp hlog
    · have hold := h.bound w.log (suffix_refl _)
      rw [hcurrent]
      split <;> omega
    · exact h.bound log hlog
  · cases he'
    exact creator_set hi nofun (h.creator e hkey hexp)

theorem Limited.incr_first (hkey : w.key = none) (hi : g[i]? = some .fresh) :
    Limited cfg { w with key := some ⟨1, none, request⟩, log := .counted request 1 :: .opened :: w.log }
      (g.set i (.creating request (decide (cfg.maxRequests < 1)))) := by
  have hzero := h.missing hkey
  have hcount := countP_exchange (y := .creating request (decide (cfg.maxRequests < 1))) Phase.owes hi
  have hcurrent : current cfg (.counted request 1 :: .opened :: w.log) = if 1 ≤ cfg.maxRequests then 1 else 0 := rfl
  simp [Phase.owes, hzero] at hcount
  have hlt := lt_at hi
  refine ⟨fun e he => ?_, nofun, fun log hlog => ?_, fun e he _ => ?_⟩
  · cases he
    rw [hcurrent, hcount]
    by_cases hmax : cfg.maxRequests < 1
    · rw [if_pos hmax, if_neg (by omega)]
      exact le_refl _
    · rw [if_neg hmax, if_pos (by omega)]
      exact le_refl _
  · obtain rfl | hlog := suffix_cons_iff.mp hlog
    · rw [hcurrent]
      split <;> omega
    · obtain rfl | hlog := suffix_cons_iff.mp hlog
      · exact Nat.zero_le _
      · exact h.bound log hlog
  · cases he
    exact ⟨i, _, List.getElem?_set_self hlt⟩

theorem Limited.close (hzero : g.countP Phase.owes = 0) (w' : World) (hkey : w'.key = none)
    (hlog : w'.log = .closed :: w.log) : Limited cfg w' g := by
  refine ⟨fun e he => ?_, fun _ => hzero, fun log hlog' => ?_, fun e he => ?_⟩
  · rw [hkey] at he
    cases he
  · rw [hlog] at hlog'
    obtain rfl | hlog' := suffix_cons_iff.mp hlog'
    · exact Nat.zero_le _
    · exact h.bound log hlog'
  · rw [hkey] at he
    cases he

theorem Limited.expire (hkey : w.key = some e) : Limited cfg { w with key := some { e with expiresAt := some t } } g where
  covered e' he' := by
    cases he'
    exact h.covered e hkey
  missing := nofun
  bound := h.bound
  creator e' he' hexp := by
    cases he'
    cases hexp

theorem Limited.decr (hkey : w.key = some e) (hi : g[i]? = some .refused) :
    Limited cfg { w with key := some { e with value := e.value - 1 } } (g.set i .done) := by
  have hcount := countP_exchange (y := .done) Phase.owes hi
  simp [Phase.owes] at hcount
  refine ⟨fun e' he' => ?_, nofun, h.bound, fun e' he' hexp => ?_⟩
  · cases he'
    have := h.covered e hkey
    simp only
    omega
  · cases he'
    exact creator_set hi nofun (h.creator e hkey hexp)

end

section
variable {cfg : RateLimitConfig}

variable {g : List Phase} {s : State} {i d : Nat} {o : Outcome} {owing : Bool}

theorem Limited.of_eq (h : Limited cfg w g) (hkey : w'.key = w.key) (hlog : w'.log = w.log) :
    Limited cfg w' g := by
  constructor
  · rw [hkey, hlog]
    exact h.covered
  · rw [hkey]
    exact h.missing
  · rw [hlog]
    exact h.bound
  · rw [hkey]
    exact h.creator

variable (h : Limited cfg s.world g)
include h

theorem Limited.tick (hg : Follows (Attends cfg) s.threads g)
    (hkept : kept s (.tick d) = true) : Limited cfg (s.world.tick d) g := by
  obtain hsame | howed := Bool.or_eq_true_iff.mp hkept
  · replace hsame := of_decide_eq_true hsame
    unfold World.tick at hsame ⊢
    split
    · rename_i heq
      split
      · rename_i ht
        simp [heq, ht] at hsame
      · exact h.of_eq rfl rfl
    · exact h.of_eq rfl rfl
  · unfold World.tick
    split
    · split
      · exact h.close (unowed_ghosts hg howed) _ rfl rfl
      · exact h.of_eq rfl rfl
    · exact h.of_eq rfl rfl

theorem Limited.incr {r : Resp (.incr request)}
    (hm : g[i]? = some .fresh) (hkept : (s.world.key.isSome || !o.isAmbiguous) = true)
    (hr : (limiter cfg).answer s.world (.incr request) o = some (r, w)) :
    Limited cfg w (g.set i ((watch cfg request).next .fresh (.incr request) r)) := by
  obtain ⟨rfl, he⟩ | ⟨e, rfl, he, rfl⟩ | ⟨e, rfl, he, rfl⟩ := System.answer_cases hr
  · cases he
    cases hkey : s.world.key with
    | none =>
      simp [World.incr, hkey]
      exact h.incr_first hkey hm
    | some =>
      simp [World.incr, hkey]
      refine h.incr_again hkey hm fun howes => ?_
      simp only [watch] at howes
      split at howes
      · exact of_decide_eq_true howes
      · split at howes
        · assumption
        · cases howes
  · cases he
    exact h.idle hm nofun (.inr nofun)
  · cases he
    cases hkey : s.world.key with
    | none =>
      rw [hkey] at hkept
      cases hkept
    | some =>
      simp [limiter, World.handle, World.incr, hkey]
      exact h.incr_again hkey hm nofun

theorem Limited.expireStep {window : Int}
    {r : Resp (.expire window)} (hg : Follows (Attends cfg) s.threads g)
    (hm : g[i]? = some (.creating request owing))
    (hkept : ((timed s.world || !o.isLost) && (decide (0 < window) || unowed s)) = true)
    (hr : (limiter cfg).answer s.world (.expire window) o = some (r, w)) :
    Limited cfg w (g.set i (if owing then .refused else .done)) := by
  obtain ⟨hlost, hopen⟩ := Bool.and_eq_true_iff.mp hkept
  have howes : (if owing then Phase.refused else .done).owes = true → (Phase.creating request owing).owes = true := by
    cases owing <;> exact id
  -- the request's own step, once the key has an expiry or is gone
  have hafter : ∀ {w : World}, Limited cfg w g → timed w = true → Limited cfg w (g.set i (if owing then .refused else .done)) :=
    fun h ht => h.idle hm howes (.inl ht)
  have hw : (o.isLost = true ∧ w = s.world) ∨ w = s.world.expire window := by
    obtain ⟨-, he⟩ | ⟨e, rfl, -, rfl⟩ | ⟨e, -, -, rfl⟩ := System.answer_cases hr
    · exact .inr (congrArg Prod.snd he)
    · exact .inl ⟨rfl, rfl⟩
    · exact .inr rfl
  obtain ⟨hl, rfl⟩ | rfl := hw
  · exact hafter h (by simpa [hl] using hlost)
  · unfold World.expire
    split
    · rename_i hkey
      exact hafter h (by simp [timed, hkey])
    · rename_i e hkey
      split
      · rename_i hwindow
        have hzero := unowed_ghosts hg ((Bool.or_eq_true_iff.mp hopen).resolve_left (by simp; omega))
        exact hafter (h.close hzero _ rfl rfl) rfl
      · exact hafter (h.expire hkey) rfl

omit h

theorem next_creating {t : String} {c : Call} {r : Resp c}
    (h : (watch cfg t).next m c r = .creating request owing) : t = request := by
  cases c with
  | incr =>
    cases r with
    | error => cases h
    | ok =>
      simp [watch] at h
      split at h
      · cases h; rfl
      · split at h <;> cases h
  | expire =>
    simp [watch] at h
    split at h <;> cases h
  | decr | allow => cases h

theorem allow_quiet (w : World) (maxRequests window : Int) :
    (w.allow maxRequests window).2.key = w.key ∧ (w.allow maxRequests window).2.log = w.log := by
  unfold World.allow
  split
  · exact ⟨rfl, rfl⟩
  · split
    · exact ⟨rfl, rfl⟩
    · split <;> exact ⟨rfl, rfl⟩

theorem limited_inv : GhostInv (limiter cfg) (fun s l => kept s l = true) (Attends cfg) (Limited cfg) where
  start s t g _ _ h := by
    refine ⟨.fresh, ⟨wp_program cfg t, nofun⟩, ⟨fun e he => ?_, fun hnone => ?_, h.bound, fun e he hexp => ?_⟩⟩
    · rw [countP_append]
      exact h.covered e he
    · rw [countP_append]
      exact h.missing hnone
    · obtain ⟨i, owing, hi⟩ := h.creator e he hexp
      exact ⟨i, owing, by rw [List.getElem?_append_left (lt_at hi), hi]⟩
  tick _ _ _ ha hg h := h.tick hg ha
  crash s i t p g m ha hi _ hm hat h := by
    refine ⟨.done, ⟨rfl, nofun⟩, h.idle hm nofun ?_⟩
    by_cases hc : ∃ r b, m = .creating r b
    · obtain ⟨r, b, rfl⟩ := hc
      -- its next call is the EXPIRE, and the condition says what a crash may do then
      cases p with
      | ret => cases hat.1
      | call c =>
        cases c with
        | expire => exact .inl (by simpa [kept, Config.pending_eq hi] using ha)
        | incr | decr => cases hat.1.1.2
        | allow => cases hat.1.1
    · exact .inr fun r b he => hc ⟨r, b, he⟩
  call s i o t c k r w g m ha hi hg hm hat h hr := by
    have hpending : s.pending i = some (t, c) := Config.pending_eq hi
    refine ⟨(watch cfg t).next m c r, ⟨hat.1.2 r trivial, ?_⟩, ?_⟩
    · exact fun request owing he => next_creating he
    · cases c with
      | incr =>
        obtain ⟨rfl, rfl⟩ := hat.1.1
        exact h.incr hm (by simpa [kept, hpending] using ha) hr
      | expire =>
        obtain ⟨-, owing, rfl⟩ := hat.1.1
        exact h.expireStep hg hm (by simpa [kept, hpending] using ha) hr
      | decr request =>
        obtain ⟨-, rfl⟩ := hat.1.1
        obtain rfl | rfl := System.answer_world hr
        · exact h.idle hm nofun (.inr nofun)
        · change Limited cfg (s.world.decr request) (g.set i .done)
          unfold World.decr
          split
          · rename_i hkey
            have hpos : 0 < g.countP Phase.owes := countP_pos_iff.mpr ⟨_, mem_of_getElem? hm, rfl⟩
            have := h.missing hkey
            omega
          · rename_i e hkey
            exact h.decr hkey hm
      | allow maxRequests window =>
        obtain rfl := hat.1.1
        have hidle : Limited cfg s.world (g.set i .done) := h.idle hm nofun (.inr nofun)
        obtain rfl | rfl := System.answer_world hr
        · exact hidle
        · exact hidle.of_eq (allow_quiet s.world maxRequests window).1 (allow_quiet s.world maxRequests window).2

/-- If the request that creates a key gives it its expiry, and no window closes before the requests refused in it are
through, no window admits more requests than the limit. -/
theorem admitted_within_limit {w₀ : World} {ls : List (Label String)} {s : State} (hkey : w₀.key = none) (hlog : w₀.log = [])
    (hr : Run (limiter cfg).next (fun s l => kept s l = true) ⟨w₀, []⟩ ls s) : WithinLimit cfg s.world.log ∧ Expiring s := by
  have hstart : Ghosted (Attends cfg) (Limited cfg) (⟨w₀, []⟩ : State) := by
    refine ⟨[], .nil, fun e he => ?_, fun _ => rfl, fun log hsuffix => ?_, fun e he => ?_⟩
    · rw [hkey] at he
      cases he
    · rw [hlog] at hsuffix
      rw [suffix_nil.mp hsuffix]
      exact Nat.zero_le _
    · rw [hkey] at he
      cases he
  obtain ⟨g, hg, h⟩ := limited_inv.run hstart hr
  refine ⟨h.within, fun e he hexp => ?_⟩
  obtain ⟨i, owing, hi⟩ := h.creator e he hexp
  obtain ⟨⟨t, p⟩, hx, hwp, ht⟩ := hg.of hi
  obtain rfl : t = e.createdBy := ht _ _ rfl
  refine ⟨i, p, hx, ?_⟩
  cases p with
  | ret => cases hwp
  | call => simp [Config.ended, hx]

end

theorem admitted_within_limit_run : ∃ s,
    Run (limiter ⟨60, 2⟩).next (fun s l => kept s l = true) ⟨{}, []⟩
      [.start "a", .start "b", .start "c", .call 0 .delivered, .call 1 .delivered, .call 0 .delivered, .call 2 .delivered,
        .call 2 .delivered, .tick 60] s ∧
    s.world.log = [.closed, .counted "c" 3, .counted "b" 2, .counted "a" 1, .opened] ∧
    WithinLimit ⟨60, 2⟩ s.world.log ∧ Expiring s := exists_run_and (by decide +kernel) fun _ hs _ => admitted_within_limit rfl rfl hs

/-- With a limit of one: a DECR that comes after its window makes room for a second request in the next one; and an
EXPIRE that fails leaves the key without an expiry. -/
theorem admitted_beyond_limit :
    (∃ s, Run (limiter ⟨60, 1⟩).next (fun _ _ => True) ⟨{}, []⟩
      [.start "a", .start "b", .start "c", .start "d", .call 0 .delivered, .call 0 .delivered, .call 1 .delivered, .tick 60,
        .call 2 .delivered, .call 2 .delivered, .call 1 .delivered, .call 3 .delivered] s ∧ ¬ WithinLimit ⟨60, 1⟩ s.world.log) ∧
    (∃ s, Run (limiter ⟨60, 1⟩).next (fun _ _ => True) ⟨{}, []⟩
      [.start "a", .call 0 .delivered, .call 0 (.lost "i/o timeout")] s ∧ ¬ Expiring s) := by
  constructor
  · obtain ⟨s, hs, hlog⟩ : ∃ s, Run (limiter ⟨60, 1⟩).next (fun _ _ => True) ⟨{}, []⟩
        [.start "a", .start "b", .start "c", .start "d", .call 0 .delivered, .call 0 .delivered, .call 1 .delivered, .tick 60,
          .call 2 .delivered, .call 2 .delivered, .call 1 .delivered, .call 3 .delivered] s ∧
        s.world.log = [.counted "d" 1, .counted "c" 1, .opened, .closed, .counted "b" 2, .counted "a" 1, .opened] := by
      decide +kernel
    refine ⟨s, hs, fun h => ?_⟩
    exact absurd (h [] [.counted "d" 1, .counted "c" 1] _ hlog rfl) (by decide)
  · obtain ⟨s, hs, hkey, hlen, hend⟩ : ∃ s, Run (limiter ⟨60, 1⟩).next (fun _ _ => True) ⟨{}, []⟩
        [.start "a", .call 0 .delivered, .call 0 (.lost "i/o timeout")] s ∧
        s.world.key = some ⟨1, none, "a"⟩ ∧ s.threads.length = 1 ∧ s.ended 0 = true := by decide +kernel
    refine ⟨s, hs, fun h => ?_⟩
    obtain ⟨i, p, hi, hended⟩ := h _ hkey rfl
    obtain rfl : i = 0 := by
      have := lt_at hi
      omega
    rw [hend] at hended
    cases hended

end ForgePlane.RateLimits
