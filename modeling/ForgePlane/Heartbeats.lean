import ForgePlane.Threads
import ForgePlane.Wire

/-!
# Heartbeats

The monitor classifies a node by the time since it was last seen, by what it was classified as
before, and by how many of the newest heartbeats in a row were successful; it does not ask when
those were received.
-/

namespace ForgePlane.Heartbeats

structure Config where
  warningThreshold : Int
  offlineThreshold : Int
  recoveryThreshold : Int
  interval : Int
  deriving DecidableEq, Repr

def second : Int := 1000000000

def defaultConfig : Config where
  warningThreshold := 30 * second
  offlineThreshold := 90 * second
  recoveryThreshold := 2
  interval := 30 * second

def positiveOr (value fallback : Int) : Int := if value ≤ 0 then fallback else value

def normalizeConfig (config : Config) : Config :=
  let warning := positiveOr config.warningThreshold defaultConfig.warningThreshold
  let offline := positiveOr config.offlineThreshold defaultConfig.offlineThreshold
  { warningThreshold := warning
    offlineThreshold := if offline < warning then warning else offline
    recoveryThreshold := positiveOr config.recoveryThreshold defaultConfig.recoveryThreshold
    interval := positiveOr config.interval defaultConfig.interval }

inductive HeartbeatState where
  | healthy
  | suspected
  | unreachable
  | offline
  | recovering
  deriving DecidableEq, Repr

inductive ActualState where
  | online
  | degraded
  | offline
  deriving DecidableEq, Repr

structure Node where
  lastSeenAt : Option Int := none
  heartbeatState : HeartbeatState := .offline
  actualState : ActualState := .offline
  recoveryCount : Nat := 0
  deriving DecidableEq, Repr

structure Heartbeat where
  observedAt : Int
  success : Bool
  failureReason : String := ""
  deriving DecidableEq, Repr

structure Classification where
  state : HeartbeatState
  actualState : ActualState
  recoveryCount : Nat
  ageSeconds : Int
  reason : String
  deriving DecidableEq, Repr

/-! ## The monitor -/

def consecutiveSuccessfulHeartbeats : List Heartbeat → Nat
  | [] => 0
  | item :: rest => if item.success then consecutiveSuccessfulHeartbeats rest + 1 else 0

def normalizeTimelineLimit (limit : Int) : Nat :=
  if limit ≤ 0 then 100 else if 500 < limit then 500 else limit.toNat

def listNodeHeartbeatHistory (history : List Heartbeat) (limit : Int) : List Heartbeat :=
  history.take (normalizeTimelineLimit limit)

def age (now lastSeenAt : Int) : Int := if now - lastSeenAt < 0 then 0 else now - lastSeenAt

def latestFailed (history : List Heartbeat) : Bool := history.head?.any fun item => !item.success

def classifySeen (config : Config) (node : Node) (history : List Heartbeat) (age : Int) : Classification :=
  let successes := consecutiveSuccessfulHeartbeats history
  let ageSeconds := age / second
  if latestFailed history ∧ age < config.offlineThreshold then
    ⟨.suspected, .degraded, 0, ageSeconds, "latest heartbeat reported failure"⟩
  else if config.offlineThreshold * 2 ≤ age then
    ⟨.offline, .offline, 0, ageSeconds, "heartbeat expired beyond offline threshold"⟩
  else if config.offlineThreshold ≤ age then
    if node.heartbeatState = .unreachable ∨ node.heartbeatState = .offline then
      ⟨.offline, .offline, 0, ageSeconds, "heartbeat remained unreachable"⟩
    else ⟨.unreachable, .degraded, 0, ageSeconds, "heartbeat exceeded offline threshold"⟩
  else if config.warningThreshold ≤ age then
    ⟨.suspected, .degraded, 0, ageSeconds, "heartbeat exceeded warning threshold"⟩
  else if node.heartbeatState = .offline ∨ node.heartbeatState = .unreachable ∨ node.heartbeatState = .suspected ∨
      node.heartbeatState = .recovering then
    if config.recoveryThreshold ≤ successes then
      ⟨.healthy, .online, successes, ageSeconds, "recovery threshold satisfied"⟩
    else
      ⟨.recovering, .degraded, successes, ageSeconds, "successful heartbeat observed but recovery threshold not met"⟩
  else ⟨.healthy, .online, successes, ageSeconds, "heartbeat healthy"⟩

def classify (config : Config) (node : Node) (history : List Heartbeat) (now : Int) : Classification :=
  match node.lastSeenAt with
  | none => ⟨.offline, .offline, 0, 0, "node has never reported heartbeat"⟩
  | some lastSeenAt => classifySeen config node history (age now lastSeenAt)

/-! ## A node over time -/

/-- What `evaluate` does with a classification: it returns it without storing it, stores it and
returns it, or stores it and fails on the records of the transition. -/
inductive Mode where
  | inspect
  | persist
  | interrupted
  deriving DecidableEq, Repr

inductive Step where
  | elapse (d : Nat)
  | updateNodeHeartbeat (seenAt : Int)
  | createHistory (success : Bool) (failureReason : String)
  | evaluate (mode : Mode)
  deriving DecidableEq, Repr

inductive Event where
  | heartbeat (success : Bool)
  | classified (state : HeartbeatState)
  deriving DecidableEq, Repr

structure World where
  now : Int := 0
  node : Node := {}
  history : List Heartbeat := []
  log : List Event := []
  deriving DecidableEq, Repr

def setNodeHeartbeatClassification (node : Node) (c : Classification) : Node :=
  { node with heartbeatState := c.state, actualState := c.actualState, recoveryCount := c.recoveryCount }

namespace World

variable (config : Config)

def classification (w : World) : Classification :=
  classify config w.node (listNodeHeartbeatHistory w.history (config.recoveryThreshold + 3)) w.now

def evaluate (w : World) : Mode → World
  | .inspect => { w with log := .classified (w.classification config).state :: w.log }
  | .persist => { w with
      node := setNodeHeartbeatClassification w.node (w.classification config)
      log := .classified (w.classification config).state :: w.log }
  | .interrupted => { w with node := setNodeHeartbeatClassification w.node (w.classification config) }

def next (w : World) : Step → Option World
  | .elapse d => some { w with now := w.now + d }
  | .updateNodeHeartbeat seenAt => some { w with node := { w.node with lastSeenAt := some seenAt } }
  | .createHistory success failureReason => some { w with
      history := ⟨w.now, success, failureReason⟩ :: w.history
      log := .heartbeat success :: w.log }
  | .evaluate mode => some (w.evaluate config mode)

end World

/-! ## What is asked of it -/

def received (log : List Event) : List Bool :=
  log.filterMap fun
    | .heartbeat success => some success
    | .classified _ => none

def HeartbeatState.isOutage (s : HeartbeatState) : Prop := s = .unreachable ∨ s = .offline

def RecoversFresh (k : Nat) (log : List Event) : Prop :=
  ∀ later between earlier state, log = later ++ .classified .healthy :: between ++ .classified state :: earlier →
    state.isOutage → List.replicate k true <+: received between

def silent (config : Config) (w : World) : Bool :=
  match w.node.lastSeenAt with
  | none => true
  | some lastSeenAt => decide (config.offlineThreshold ≤ age w.now lastSeenAt)

/-- A node that is silent is not merely inspected, and by then its newest heartbeat is a failure
or it has none; a failed heartbeat is classified before the next successful one. -/
def noticed (config : Config) (w : World) : Step → Bool
  | .evaluate mode =>
    !silent config w || (decide (mode ≠ .inspect) && (latestFailed w.history || w.history.isEmpty))
  | .createHistory true _ => !(latestFailed w.history && decide (w.node.heartbeatState = .healthy))
  | _ => true

section
variable {config : Config} {node : Node} {history : List Heartbeat} {now : Int}
variable {w : World}

theorem not_healthy_iff (state : HeartbeatState) :
    (state = .offline ∨ state = .unreachable ∨ state = .suspected ∨ state = .recovering) ↔ state ≠ .healthy := by
  cases state <;> simp

theorem silent_of_outage (h : (w.classification config).state.isOutage) : silent config w = true := by
  unfold World.classification classify at h
  unfold silent
  split at h
  · rfl
  · rename_i lastSeenAt _
    refine decide_eq_true (not_lt.mp fun hlt => ?_)
    unfold classifySeen at h
    simp [HeartbeatState.isOutage] at h
    split at h
    · simp at h
    split at h
    · rename_i h2
      have : 0 ≤ age w.now lastSeenAt := by unfold age; split <;> omega
      omega
    split at h
    · omega
    split at h
    · simp at h
    split at h
    · split at h <;> simp at h
    · simp at h

theorem healthy_cases (h : (classify config node history now).state = .healthy) :
    latestFailed history = false ∧
      (node.heartbeatState = .healthy ∨ config.recoveryThreshold ≤ consecutiveSuccessfulHeartbeats history) := by
  unfold classify at h
  split at h
  · cases h
  rename_i lastSeenAt _
  unfold classifySeen at h
  dsimp only at h
  split at h
  · cases h
  rename_i hfailed
  split at h
  · cases h
  split at h
  · split at h <;> cases h
  rename_i honline
  have hlatest : latestFailed history = false := by
    refine Bool.eq_false_iff.mpr fun hl => hfailed ⟨hl, ?_⟩
    omega
  refine ⟨hlatest, ?_⟩
  split at h
  · cases h
  split at h
  · split at h
    · rename_i hk
      exact .inr hk
    · cases h
  · rename_i hstate
    exact .inl (not_not.mp ((not_healthy_iff _).not.mp hstate))

theorem consecutive_take_le (n : Nat) : ∀ history : List Heartbeat,
    consecutiveSuccessfulHeartbeats (history.take n) ≤ consecutiveSuccessfulHeartbeats history := by
  induction n with
  | zero => exact fun _ => Nat.zero_le _
  | succ n ih =>
    intro history
    cases history with
    | nil => exact le_refl _
    | cons item rest =>
      simp [consecutiveSuccessfulHeartbeats]
      split
      · exact Nat.succ_le_succ (ih rest)
      · exact le_refl _

theorem latestFailed_list (limit : Int) (hlimit : 0 < limit) :
    latestFailed (listNodeHeartbeatHistory history limit) = latestFailed history := by
  have hpos : 0 < normalizeTimelineLimit limit := by
    unfold normalizeTimelineLimit
    split
    · omega
    · split <;> omega
  obtain ⟨n, hn⟩ := Nat.exists_eq_succ_of_ne_zero hpos.ne'
  unfold latestFailed listNodeHeartbeatHistory
  rw [hn]
  cases history <;> rfl

theorem healthy_history (hk : 0 < config.recoveryThreshold) (h : (w.classification config).state = .healthy) :
    latestFailed w.history = false ∧ (w.node.heartbeatState = .healthy ∨
      config.recoveryThreshold ≤ consecutiveSuccessfulHeartbeats w.history) := by
  obtain ⟨hlatest, hstate⟩ := healthy_cases h
  refine ⟨?_, hstate.imp_right fun hsucc => ?_⟩
  · rwa [latestFailed_list _ (by omega)] at hlatest
  · have := consecutive_take_le (normalizeTimelineLimit (config.recoveryThreshold + 3)) w.history
    unfold listNodeHeartbeatHistory at hsucc
    omega

theorem consecutive_eq_zero (h : (latestFailed history || history.isEmpty) = true) :
    consecutiveSuccessfulHeartbeats history = 0 := by
  cases history with
  | nil => rfl
  | cons =>
    simp [latestFailed, List.head?_cons] at h
    simp [consecutiveSuccessfulHeartbeats, h]

end

/-! ## Heartbeats since an outage -/

def leading : List Bool → Nat
  | true :: rest => leading rest + 1
  | _ => 0

theorem replicate_isPrefix {k : Nat} : ∀ {l : List Bool}, k ≤ leading l → List.replicate k true <+: l := by
  induction k with
  | zero => exact fun _ => List.nil_prefix
  | succ k ih =>
    intro l h
    match l with
    | [] => exact absurd h (Nat.not_succ_le_zero k)
    | false :: rest => exact absurd h (Nat.not_succ_le_zero k)
    | true :: rest =>
      rw [List.replicate_succ, List.cons_prefix_cons]
      exact ⟨rfl, ih (Nat.le_of_succ_le_succ h)⟩

structure Tracked (config : Config) (w : World) : Prop where
  since : ∀ between earlier state, w.log = between ++ .classified state :: earlier → state.isOutage →
    consecutiveSuccessfulHeartbeats w.history = leading (received between)
  stored : (∃ state, Event.classified state ∈ w.log ∧ state.isOutage) → w.node.heartbeatState = .healthy →
    latestFailed w.history = false → config.recoveryThreshold ≤ consecutiveSuccessfulHeartbeats w.history
  fresh : RecoversFresh config.recoveryThreshold.toNat w.log

section
variable {config : Config} {w w' : World}

variable (h : Tracked config w)
include h

theorem Tracked.recovered (hk : 0 < config.recoveryThreshold) (hs : (w.classification config).state = .healthy)
    (ho : ∃ state, Event.classified state ∈ w.log ∧ state.isOutage) :
    config.recoveryThreshold ≤ consecutiveSuccessfulHeartbeats w.history := by
  obtain ⟨hlatest, hstate | hsucc⟩ := healthy_history hk hs
  · exact h.stored ho hstate hlatest
  · exact hsucc

theorem Tracked.receive {success : Bool} {reason : String} (ha : noticed config w (.createHistory success reason) = true) :
    Tracked config { w with history := ⟨w.now, success, reason⟩ :: w.history, log := .heartbeat success :: w.log } where
  since between earlier state hlog ho := by
    cases between with
    | nil => cases hlog
    | cons e between =>
      obtain ⟨rfl, htail⟩ := List.cons.inj hlog
      have hold := h.since between earlier state htail ho
      cases success with
      | true => exact congrArg (· + 1) hold
      | false => rfl
  stored ho hstate hlatest := by
    obtain ⟨state, hmem, hout⟩ := ho
    have hold : ∃ state, Event.classified state ∈ w.log ∧ state.isOutage := by
      obtain he | hmem := List.mem_cons.mp hmem
      · cases he
      · exact ⟨state, hmem, hout⟩
    cases success with
    | false => cases hlatest
    | true =>
      -- no success is recorded on top of a failure while the node counts as healthy
      have hnot : latestFailed w.history = false := by
        refine Bool.eq_false_iff.mpr fun hl => ?_
        simp [noticed, hl, show w.node.heartbeatState = .healthy from hstate] at ha
      have hprev := h.stored hold hstate hnot
      simp [consecutiveSuccessfulHeartbeats]
      omega
  fresh later between earlier state hlog ho := by
    cases later with
    | nil => cases hlog
    | cons e later =>
      obtain ⟨-, hlog⟩ := List.cons.inj hlog
      exact h.fresh later between earlier state hlog ho

variable (hk : 0 < config.recoveryThreshold)
include hk

theorem Tracked.report (hzero : (w.classification config).state.isOutage → consecutiveSuccessfulHeartbeats w.history = 0) :
    (∀ between earlier state, Event.classified (w.classification config).state :: w.log =
        between ++ .classified state :: earlier → state.isOutage →
      consecutiveSuccessfulHeartbeats w.history = leading (received between)) ∧
    RecoversFresh config.recoveryThreshold.toNat (.classified (w.classification config).state :: w.log) := by
  refine ⟨fun between earlier state hlog ho => ?_, fun later between earlier state hlog ho => ?_⟩
  · cases between with
    | nil =>
      obtain ⟨he, -⟩ := List.cons.inj hlog
      cases he
      exact hzero ho
    | cons e between =>
      obtain ⟨rfl, htail⟩ := List.cons.inj hlog
      exact h.since between earlier state htail ho
  · cases later with
    | nil =>
      obtain ⟨he, hlog⟩ := List.cons.inj hlog
      injection he with he
      have hout : ∃ state, Event.classified state ∈ w.log ∧ state.isOutage :=
        ⟨state, by rw [hlog]; exact List.mem_append_right _ List.mem_cons_self, ho⟩
      have hsucc := h.recovered hk he hout
      rw [h.since between earlier state hlog ho] at hsucc
      exact replicate_isPrefix (by omega)
    | cons e later =>
      obtain ⟨-, hlog⟩ := List.cons.inj hlog
      exact h.fresh later between earlier state hlog ho

theorem Tracked.evaluate {mode : Mode} (ha : noticed config w (.evaluate mode) = true) :
    Tracked config (w.evaluate config mode) := by
  have hsilent : (w.classification config).state.isOutage →
      mode ≠ .inspect ∧ consecutiveSuccessfulHeartbeats w.history = 0 := by
    intro ho
    simp only [noticed, silent_of_outage ho, Bool.not_true, Bool.false_or, Bool.and_eq_true, decide_eq_true_eq] at ha
    exact ⟨ha.1, consecutive_eq_zero ha.2⟩
  obtain ⟨hsince, hfresh⟩ := h.report hk fun ho => (hsilent ho).2
  have hout : (∃ state, Event.classified state ∈ Event.classified (w.classification config).state :: w.log ∧ state.isOutage) →
      ¬ (w.classification config).state.isOutage → ∃ state, Event.classified state ∈ w.log ∧ state.isOutage := by
    rintro ⟨state, hmem, ho⟩ hnot
    obtain he | hmem := List.mem_cons.mp hmem
    · injection he with he
      exact absurd (he ▸ ho) hnot
    · exact ⟨state, hmem, ho⟩
  have hhealthy : (w.classification config).state = .healthy → ¬ (w.classification config).state.isOutage := by
    intro hs ho
    rw [hs] at ho
    obtain ho | ho := ho <;> cases ho
  cases mode with
  | inspect =>
    refine ⟨hsince, fun ho hstate hlatest => ?_, hfresh⟩
    exact h.stored (hout ho fun hs => (hsilent hs).1 rfl) hstate hlatest
  | persist =>
    refine ⟨hsince, fun ho hstate _ => ?_, hfresh⟩
    exact h.recovered hk hstate (hout ho (hhealthy hstate))
  | interrupted => exact ⟨h.since, fun ho hstate _ => h.recovered hk hstate ho, h.fresh⟩

theorem Tracked.step {l : Step} (ha : noticed config w l = true) (hn : w.next config l = some w') : Tracked config w' := by
  cases l with
  | elapse | updateNodeHeartbeat =>
    cases hn
    exact ⟨h.since, h.stored, h.fresh⟩
  | createHistory =>
    cases hn
    exact h.receive ha
  | evaluate =>
    cases hn
    exact h.evaluate hk ha

omit hk

omit h

theorem normalizeConfig_recovery (c : Config) : 0 < (normalizeConfig c).recoveryThreshold := by
  simp [normalizeConfig, positiveOr, defaultConfig]
  split <;> omega

/-- If every outage is noticed, a node is reported healthy after one only when the last heartbeats, as many as the
threshold asks for, were received since and successful. -/
theorem recovery_needs_fresh_heartbeats {c : Config} {w₀ w : World} {ls : List Step} (hlog : w₀.log = [])
    (h : Run (World.next (normalizeConfig c)) (fun w l => noticed (normalizeConfig c) w l = true) w₀ ls w) :
    RecoversFresh (normalizeConfig c).recoveryThreshold.toNat w.log := by
  have hstart : Tracked (normalizeConfig c) w₀ := by
    refine ⟨fun between earlier state he _ => ?_, ?_, fun later between earlier state he _ => ?_⟩
    · rw [hlog] at he
      simp at he
    · rintro ⟨state, hmem, -⟩
      rw [hlog] at hmem
      cases hmem
    · rw [hlog] at he
      simp at he
  exact (Run.invariant (I := Tracked (normalizeConfig c))
    (fun _ _ _ hi ha hn => hi.step (normalizeConfig_recovery c) ha hn) hstart h).fresh

end

def steady : World where
  node := { lastSeenAt := some 0, heartbeatState := .healthy, actualState := .online }
  history := [⟨0, true, ""⟩, ⟨0, true, ""⟩]

def hundredSeconds : Step := .elapse 100000000000

def recordedOutage : List Step :=
  [hundredSeconds, .createHistory false "timeout", .evaluate .persist, .updateNodeHeartbeat 100000000000,
    .createHistory true "", .evaluate .persist, .createHistory true "", .evaluate .persist]

theorem recovery_needs_fresh_heartbeats_recorded : ∃ w, Run (World.next (normalizeConfig defaultConfig))
    (fun w l => noticed (normalizeConfig defaultConfig) w l = true) steady recordedOutage w ∧
    w.log = [.classified .healthy, .heartbeat true, .classified .recovering, .heartbeat true, .classified .unreachable,
      .heartbeat false] ∧ RecoversFresh 2 w.log := exists_run_and (by decide +kernel) fun _ hr _ => recovery_needs_fresh_heartbeats rfl hr

def silentOutage : List Step :=
  [hundredSeconds, .evaluate .persist, .updateNodeHeartbeat 100000000000, .createHistory true "", .evaluate .persist]

theorem recovers_on_old_heartbeats : ∃ w, Run (World.next (normalizeConfig defaultConfig)) (fun _ _ => True) steady silentOutage w ∧
    (normalizeConfig defaultConfig).recoveryThreshold = 2 ∧
    w.log = [.classified .healthy, .heartbeat true, .classified .unreachable] ∧ ¬ RecoversFresh 2 w.log := by
  obtain ⟨w, hw, hlog⟩ : ∃ w, Run (World.next (normalizeConfig defaultConfig)) (fun _ _ => True) steady silentOutage w ∧
      w.log = [.classified .healthy, .heartbeat true, .classified .unreachable] := by decide +kernel
  refine ⟨w, hw, rfl, hlog, fun hfresh => ?_⟩
  have hprefix := hfresh [] [.heartbeat true] [] .unreachable hlog (.inl rfl)
  have hle := List.IsPrefix.length_le hprefix
  simp [received] at hle

end ForgePlane.Heartbeats
