import ForgePlane.DiskQuota
import Mathlib.Logic.Function.Basic

/-!
# Failover policies

`RecordFailure` keeps the failures of a node that lie in the window of the policy, and the
background loop keeps those of the last 300 seconds, whatever the window is.
-/

namespace ForgePlane.Failover

open DiskQuota List

inductive FailoverAction where
  | evacuate
  | restart
  | notify
  deriving DecidableEq, Repr

structure Policy where
  id : String
  enabled : Bool := true
  maxFailures : Int
  failureWindowSec : Int
  action : FailoverAction := .notify
  deriving DecidableEq, Repr

structure Event where
  policyID : String
  nodeID : String
  action : FailoverAction
  message : String
  deriving DecidableEq, Repr

abbrev Failures := String → List Int

def seconds (sec : Int) : Int := int64 (sec * 10 ^ 9)

def since (windowStart : Int) (times : List Int) : List Int := times.filter (windowStart < ·)

def executeAction (policy : Policy) (nodeID message : String) : Event := ⟨policy.id, nodeID, policy.action, message⟩

def recordFailure (failures : Failures) (policies : Except Err (List Policy)) (nodeID : String) (now : Int) :
    Except Err (Option Event) × Failures :=
  if nodeID = "" then (.error "nodeId is required", failures)
  else
    match policies with
    | .error e => (.error e, failures)
    | .ok policies =>
      match policies.find? (·.enabled) with
      | none => (.ok none, failures)
      | some policy =>
        let recent := since (now - seconds policy.failureWindowSec) (failures nodeID ++ [now])
        (if recent.length < policy.maxFailures then .ok none
          else .ok (some (executeAction policy nodeID s!"node {nodeID} failed {recent.length} times")),
          Function.update failures nodeID recent)

def pruneAll (failures : Failures) (now : Int) : Failures := fun id => since (now - seconds 300) (failures id)

inductive Op where
  | record (nodeID : String) (policies : Except Err (List Policy)) (now : Int)
  | tick (now : Int)

def Op.time : Op → Int
  | .record _ _ now | .tick now => now

def Op.policy (node : String) : Op → Option Policy
  | .record nodeID (.ok policies) _ => if nodeID = node then policies.find? (·.enabled) else none
  | _ => none

def Op.exec (failures : Failures) : Op → Failures
  | .record nodeID policies now => (recordFailure failures policies nodeID now).2
  | .tick now => pruneAll failures now

def run (ops : List Op) : Failures := ops.foldl Op.exec fun _ => []

def recorded (node : String) (ops : List Op) : List Int := (ops.filter fun op => (op.policy node).isSome).map Op.time

/-! ## Small windows -/

theorem since_since {a b : Int} (h : a ≤ b) (times : List Int) : since b (since a times) = since b times := by
  rw [since, since, filter_filter]
  refine filter_congr fun t _ => ?_
  simp only [← Bool.decide_and, decide_eq_decide]
  omega

theorem since_append (a : Int) (l l' : List Int) : since a (l ++ l') = since a l ++ since a l' := filter_append ..

section
variable {policy : Policy} {node : String} (hnode : node ≠ "")
include hnode

theorem exec_cases (failures : Failures) {op : Op} (hp : ∀ q, op.policy node = some q → q = policy) :
    op.policy node = none ∧ op.exec failures node = failures node ∨
      op.policy node = none ∧ op.exec failures node = since (op.time - seconds 300) (failures node) ∨
      op.policy node = some policy ∧
        op.exec failures node = since (op.time - seconds policy.failureWindowSec) (failures node ++ [op.time]) := by
  cases op with
  | tick => exact .inr (.inl ⟨rfl, rfl⟩)
  | record nodeID policies =>
    by_cases hid : nodeID = node
    · subst hid
      cases policies with
      | error => exact .inl ⟨rfl, by simp [Op.exec, recordFailure, hnode]⟩
      | ok policies =>
        cases hfind : policies.find? (·.enabled) with
        | none => exact .inl ⟨by simp [Op.policy, hfind], by simp [Op.exec, recordFailure, hnode, hfind]⟩
        | some q =>
          obtain rfl := hp q (by simp [Op.policy, hfind])
          exact .inr (.inr ⟨by simp [Op.policy, hfind], by simp [Op.exec, recordFailure, hnode, hfind, Op.time]⟩)
    · refine .inl ⟨?_, ?_⟩
      · cases policies <;> simp [Op.policy, hid]
      · simp only [Op.exec, recordFailure]
        repeat' split
        all_goals simp [Function.update_of_ne (Ne.symm hid)]

/-- What the map keeps of a node and what was recorded of it agree on the window before any later time. -/
theorem run_recorded (hw : seconds policy.failureWindowSec ≤ seconds 300) {ops : List Op}
    (hp : ∀ op ∈ ops, ∀ q, op.policy node = some q → q = policy) {now : Int} (hnow : ∀ op ∈ ops, op.time ≤ now) :
    since (now - seconds policy.failureWindowSec) (run ops node) =
      since (now - seconds policy.failureWindowSec) (recorded node ops) := by
  induction ops using List.reverseRecOn with
  | nil => rfl
  | append_singleton ops op ih =>
    obtain ⟨hp, hop⟩ := forall_mem_append.mp hp
    obtain ⟨hnow, hlast⟩ := forall_mem_append.mp hnow
    specialize ih hp hnow
    specialize hlast op (mem_singleton_self op)
    rw [run, foldl_append, ← run, foldl_cons, foldl_nil, recorded, filter_append, map_append, ← recorded]
    obtain ⟨hnone, hexec⟩ | ⟨hnone, hexec⟩ | ⟨hsome, hexec⟩ := exec_cases hnode (run ops) (hop op (mem_singleton_self op))
    · simpa [hexec, hnone] using ih
    · rw [hexec, since_since (by omega), ih]
      simp [hnone]
    · rw [hexec, since_since (by omega), since_append, ih, ← since_append]
      simp [hsome]

/-- With a window of at most 300 seconds, a failure triggers the action just when enough of them were recorded within
it. -/
theorem fires_on_window (hpos : 0 < policy.failureWindowSec)
    (hw : policy.failureWindowSec ≤ 300) {ops : List Op} {policies : List Policy} {now : Int}
    (hp : ∀ op ∈ ops, ∀ q, op.policy node = some q → q = policy) (hnow : ∀ op ∈ ops, op.time ≤ now)
    (hpolicy : policies.find? (·.enabled) = some policy) :
    (∃ event, (recordFailure (run ops) (.ok policies) node now).1 = .ok (some event)) ↔
      policy.maxFailures ≤ (since (now - policy.failureWindowSec * 10 ^ 9) (recorded node ops ++ [now])).length := by
  have hsec : seconds policy.failureWindowSec = policy.failureWindowSec * 10 ^ 9 :=
    int64_eq (by omega) (by unfold maxInt64; omega)
  have hmin : seconds 300 = 300 * 10 ^ 9 := rfl
  have hrun := run_recorded hnode (by omega) hp hnow
  rw [hsec] at hrun
  simp only [recordFailure, if_neg hnode, hpolicy, hsec, since_append, hrun]
  split
  next => exact iff_of_false (by simp) (by omega)
  next => exact iff_of_true ⟨_, rfl⟩ (by omega)

end

def twice (window : Int) : Policy := ⟨"p", true, 2, window, .notify⟩

def failureAndTick (window now : Int) : List Op := [.record "n" (.ok [twice window]) 0, .tick now]

theorem fires_on_window_twice :
    (∃ event, (recordFailure (run (failureAndTick 60 1)) (.ok [twice 60]) "n" 2).1 = .ok (some event)) ↔
      2 ≤ ((since (2 - 60 * 10 ^ 9) (recorded "n" (failureAndTick 60 1) ++ [2])).length : Int) :=
  @fires_on_window (twice 60) "n" (by decide) (by decide) (by decide) _ _ _
    (by simp [failureAndTick, Op.policy, twice]) (by simp [failureAndTick, Op.time]) rfl

theorem long_window_pruned :
    (recordFailure (run (failureAndTick 600 (301 * 10 ^ 9))) (.ok [twice 600]) "n" (302 * 10 ^ 9)).1 = .ok none ∧
      (since (302 * 10 ^ 9 - 600 * 10 ^ 9) (recorded "n" (failureAndTick 600 (301 * 10 ^ 9)) ++ [302 * 10 ^ 9])).length = 2 := by
  decide +kernel

end ForgePlane.Failover
