import ForgePlane.Threads
import ForgePlane.Wire

/-!
# The outbox and its dead letters

A batch that comes to an event delivers it, with retries, and writes the outcome in up to three statements
without a transaction. Once the time of the event is over, nothing is written at all.
-/

namespace ForgePlane.Outbox

def maxFailureCount : Nat := 5

def maxRetries : Nat := 3

structure StoredEvent where
  id : String
  dispatched : Bool := false
  failureCount : Nat := 0
  lastError : String := ""
  deriving DecidableEq, Repr

def StoredEvent.pending (e : StoredEvent) : Bool := !e.dispatched && decide (e.failureCount < maxFailureCount)

/-- `MoveToDeadLetter` is `insertDead` and then `deleteEvent`. -/
inductive Statement where
  | markDispatched
  | markFailed (lastErr : String)
  | insertDead
  | deleteEvent
  deriving DecidableEq, Repr

structure Attempt where
  result : Except Err Unit
  expired : Bool := false

/-- The statements that follow the deliveries; an attempt is given by the number of retries that are left. -/
def deliverWithRetries (attempt : Nat → Attempt) (stored : StoredEvent) : Nat → List Statement
  | 0 =>
    match attempt 0 with
    | ⟨.ok (), _⟩ => [.markDispatched]
    | ⟨.error _, true⟩ => []
    | ⟨.error e, false⟩ =>
      .markFailed ("handler error for event " ++ stored.id ++ ": " ++ e) ::
        if maxFailureCount ≤ stored.failureCount + (maxRetries + 1) then [.insertDead, .deleteEvent] else []
  | n + 1 =>
    match attempt (n + 1) with
    | ⟨.ok (), _⟩ => [.markDispatched]
    | ⟨.error _, true⟩ => []
    | ⟨.error _, false⟩ => deliverWithRetries attempt stored n

/-- The rows of one event, the statements its batch still has to make, and how many batches came to its end. -/
structure State where
  event : Option StoredEvent
  dead : Option StoredEvent := none
  left : List Statement := []
  processed : Nat := 0
  deriving DecidableEq, Repr

/-- `none` is an error: the key of the dead letter is there already. -/
def State.exec (s : State) : Statement → Option State
  | .markDispatched => some { s with event := s.event.map ({ · with dispatched := true }) }
  | .markFailed lastErr =>
    some { s with event := s.event.map fun e => { e with failureCount := e.failureCount + 1, lastError := lastErr } }
  | .insertDead => if s.event.isSome && s.dead.isSome then none else some { s with dead := s.event.or s.dead }
  | .deleteEvent => some { s with event := none }

def State.proceed (s : State) (left : List Statement) : State :=
  { s with left := left, processed := if left = [] then s.processed + 1 else s.processed }

inductive Label where
  | batch (attempt : Nat → Attempt)
  | statement
  | crash

def next (s : State) : Label → Option State
  | .batch attempt =>
    match s.left, s.event.filter (·.pending) with
    | [], some e => some (s.proceed (deliverWithRetries attempt e maxRetries))
    | _, _ => none
  | .statement =>
    match s.left with
    | [] => none
    | q :: rest =>
      match s.exec q with
      | none => some (s.proceed [])
      | some s' => some (s'.proceed rest)
  | .crash => some { s with left := [] }

def State.stored (s : State) : Bool :=
  match s.event, s.dead with
  | some e, none => e.dispatched || e.pending
  | none, some _ => true
  | _, _ => false

/-- Every delivery fails before the time of the event is over, and nothing crashes once a move has begun. -/
def inTime (s : State) : Label → Prop
  | .batch attempt => ∀ k, ∃ e, attempt k = ⟨.error e, false⟩
  | .statement => True
  | .crash => .insertDead ∉ s.left.head? ∧ .deleteEvent ∉ s.left.head?

theorem deliverWithRetries_failed {attempt : Nat → Attempt} (h : ∀ k, ∃ e, attempt k = ⟨.error e, false⟩)
    (stored : StoredEvent) (n : Nat) : ∃ e, deliverWithRetries attempt stored n = .markFailed e ::
      if 1 ≤ stored.failureCount then [.insertDead, .deleteEvent] else [] := by
  induction n with
  | zero =>
    obtain ⟨e, he⟩ := h 0
    simp [deliverWithRetries, he, maxFailureCount, maxRetries]
  | succ n ih =>
    obtain ⟨e, he⟩ := h (n + 1)
    simpa only [deliverWithRetries, he] using ih

inductive Inv : State → Prop where
  | waiting (e : StoredEvent) (n : Nat) (h : e.pending = true) (hn : n ≤ 1 ∧ n ≤ e.failureCount) :
    Inv ⟨some e, none, [], n⟩
  | failing (e : StoredEvent) (n : Nat) (err : String) (h : e.pending = true) (hn : n ≤ 1 ∧ n ≤ e.failureCount) :
    Inv ⟨some e, none, .markFailed err :: if 1 ≤ e.failureCount then [.insertDead, .deleteEvent] else [], n⟩
  | moving (e : StoredEvent) (n : Nat) : Inv ⟨some e, none, [.insertDead, .deleteEvent], n⟩
  | deleting (e d : StoredEvent) (n : Nat) : Inv ⟨some e, some d, [.deleteEvent], n⟩
  | moved (d : StoredEvent) (n : Nat) : Inv ⟨none, some d, [], n⟩

theorem next_inv {s s' : State} {l : Label} (h : Inv s) (hl : inTime s l) (hn : next s l = some s') : Inv s' := by
  cases l with
  | batch =>
    cases h with
    | waiting e n h hcount =>
      obtain ⟨err, herr⟩ := deliverWithRetries_failed hl e maxRetries
      simp only [next, Option.filter_some, h, if_true, herr, Option.some.injEq] at hn
      subst hn
      exact .failing e n err h hcount
    | moved => cases hn
    | failing | moving | deleting => cases hn
  | statement =>
    cases h with
    | waiting | moved => cases hn
    | failing e n err h =>
      cases hn
      by_cases hfirst : 1 ≤ e.failureCount
      · simpa [hfirst, State.proceed] using Inv.moving _ n
      · obtain rfl : n = 0 := by omega
        have hzero : e.failureCount = 0 := by omega
        simp [StoredEvent.pending] at h
        simpa [State.proceed, hzero] using Inv.waiting _ 1 (by simp [StoredEvent.pending, h.1, maxFailureCount]) (by simp)
    | moving e n =>
      cases hn
      exact .deleting e e n
    | deleting e d n =>
      cases hn
      exact .moved d (n + 1)
  | crash =>
    cases hn
    cases h with
    | waiting e n h hcount | failing e n _ h hcount => exact .waiting e n h hcount
    | moving => exact absurd rfl hl.1
    | deleting => exact absurd rfl hl.2
    | moved d n => exact .moved d n

/-- Where every delivery fails in time and no move is cut short, an event is in one table between batches, and not
pending after two of them. -/
theorem poison_event_leaves {e : StoredEvent} (he : e.pending = true) {ls : List Label} {s : State}
    (hr : Run next inTime { event := some e } ls s) (hidle : s.left = []) :
    s.stored = true ∧ (2 ≤ s.processed → s.event.all (!·.pending) = true) := by
  have h : Inv s := Run.invariant (fun _ _ _ => next_inv) (.waiting e 0 he (by simp)) hr
  cases h with
  | waiting e n h =>
    refine ⟨by simp [State.stored, h], fun h2 => ?_⟩
    have h2 : 2 ≤ n := h2
    omega
  | moved => exact ⟨rfl, fun _ => rfl⟩
  | failing | moving | deleting => cases hidle

def refuses : Nat → Attempt := fun _ => ⟨.error "refused", false⟩

theorem poison_event_leaves_refused : ∃ s, Run next inTime { event := some { id := "e" } }
    [.batch refuses, .statement, .batch refuses, .statement, .statement, .statement] s ∧ s.left = [] ∧
      s.stored = true ∧ (2 ≤ s.processed → s.event.all (!·.pending) = true) :=
  exists_run_and ⟨_, ⟨fun _ => ⟨_, rfl⟩, _, rfl, trivial, _, rfl, fun _ => ⟨_, rfl⟩, _, rfl, trivial, _, rfl,
    trivial, _, rfl, trivial, _, rfl, rfl⟩, rfl⟩ fun _ hr hidle => poison_event_leaves rfl hr hidle

/-- An event whose deliveries take too long is pending after any number of batches, and a crash within the move leaves
an event in both tables. -/
theorem event_never_leaves :
    (∀ n, ∃ s, Run next (fun _ _ => True) { event := some { id := "e" } }
      (List.replicate n (.batch fun _ => ⟨.error "timeout", true⟩)) s ∧ s.processed = n ∧ s.event.any (·.pending)) ∧
    ∃ s, Run next (fun _ _ => True) { event := some { id := "e" } }
      [.batch refuses, .statement, .batch refuses, .statement, .statement, .crash] s ∧
        s.event.isSome ∧ s.dead.isSome := by
  refine ⟨fun n => ⟨{ event := some { id := "e" }, processed := n }, ?_, rfl, rfl⟩,
    ⟨_, ⟨trivial, _, rfl, trivial, _, rfl, trivial, _, rfl, trivial, _, rfl, trivial, _, rfl, trivial, _, rfl, rfl⟩,
      rfl, rfl⟩⟩
  induction n with
  | zero => rfl
  | succ n ih =>
    rw [List.replicate_succ']
    exact ih.append ⟨trivial, _, rfl, rfl⟩

inductive Remaining (e : StoredEvent) (d : Option StoredEvent) : List Statement → Prop where
  | nothing : Remaining e d []
  | delivered : Remaining e d [.markDispatched]
  | failed (h : e.failureCount < maxFailureCount) (err : String) (move : Bool) :
    Remaining e d (.markFailed err :: if move then [.insertDead, .deleteEvent] else [])
  | moving : Remaining e d [.insertDead, .deleteEvent]
  | deleting (h : d.isSome) : Remaining e d [.deleteEvent]

/-- The event is deleted only after its dead letter is there. -/
inductive Held (id : String) : State → Prop where
  | event (e : StoredEvent) (d : Option StoredEvent) (left : List Statement) (n : Nat) (he : e.id = id)
    (hcount : e.failureCount ≤ maxFailureCount) (hd : ∀ x ∈ d, x.id = id) (hleft : Remaining e d left) :
    Held id ⟨some e, d, left, n⟩
  | dead (d : StoredEvent) (n : Nat) (hd : d.id = id) : Held id ⟨none, some d, [], n⟩

theorem remaining_deliverWithRetries {e : StoredEvent} (d : Option StoredEvent) (h : e.failureCount < maxFailureCount)
    (attempt : Nat → Attempt) (n : Nat) : Remaining e d (deliverWithRetries attempt e n) := by
  induction n with
  | zero =>
    unfold deliverWithRetries
    split
    · exact .delivered
    · exact .nothing
    · simpa using Remaining.failed h _ (maxFailureCount ≤ e.failureCount + (maxRetries + 1))
  | succ n ih =>
    unfold deliverWithRetries
    split
    · exact .delivered
    · exact .nothing
    · exact ih

theorem next_held {id : String} {s s' : State} {l : Label} (h : Held id s) (hn : next s l = some s') : Held id s' := by
  cases h with
  | dead d n hd =>
    cases l with
    | crash => cases hn; exact .dead d n hd
    | batch | statement => cases hn
  | event e d left n he hcount hd hleft =>
    cases l with
    | crash => cases hn; exact .event e d [] n he hcount hd .nothing
    | batch attempt =>
      cases left with
      | cons => cases hn
      | nil =>
        by_cases hp : e.pending = true
        · simp only [next, Option.filter_some, hp, if_true, Option.some.injEq] at hn
          subst hn
          simp only [StoredEvent.pending, Bool.and_eq_true, decide_eq_true_eq] at hp
          exact .event e d _ _ he hcount hd (remaining_deliverWithRetries d hp.2 attempt maxRetries)
        · simp [next, hp] at hn
    | statement =>
      cases hleft with
      | nothing => cases hn
      | delivered => cases hn; exact .event _ d [] _ he hcount hd .nothing
      | failed h err move =>
        cases hn
        refine .event _ d _ _ he h hd ?_
        cases move with
        | true => exact .moving
        | false => exact .nothing
      | moving =>
        cases d with
        | none => cases hn; exact .event e _ _ _ he hcount (by simpa using he) (.deleting rfl)
        | some => cases hn; exact .event e _ [] _ he hcount hd .nothing
      | deleting h =>
        obtain ⟨d, rfl⟩ := Option.isSome_iff_exists.mp h
        cases hn
        exact .dead d _ (hd d rfl)

/-- Whatever is delivered, takes too long or crashes, the event is in the outbox or among the dead letters, under its
own id, and never counts more than five failures. -/
theorem event_never_lost {e : StoredEvent} (hcount : e.failureCount ≤ maxFailureCount) {ls : List Label} {s : State}
    (hr : Run next (fun _ _ => True) { event := some e } ls s) :
    (s.event.or s.dead).map (·.id) = some e.id ∧ (∀ x ∈ s.event, x.failureCount ≤ maxFailureCount) ∧
      ∀ x ∈ s.dead, x.id = e.id := by
  have h : Held e.id s := Run.invariant (fun _ _ _ h _ hn => next_held h hn)
    (.event e none [] 0 rfl hcount nofun .nothing) hr
  cases h with
  | event x d left n he hcount hd => exact ⟨by simp [he], by simpa using hcount, hd⟩
  | dead d n hd => exact ⟨by simp [hd], nofun, by simpa using hd⟩

theorem event_never_lost_crashed : ∃ s, Run next (fun _ _ => True) { event := some { id := "e", failureCount := 1 } }
    [.batch refuses, .statement, .statement, .crash] s ∧ s.dead.isSome ∧ (s.event.or s.dead).map (·.id) = some "e" :=
  exists_run_and ⟨_, ⟨trivial, _, rfl, trivial, _, rfl, trivial, _, rfl, trivial, _, rfl, rfl⟩, rfl⟩ fun _ hr _ =>
    (event_never_lost (by decide) hr).1

end ForgePlane.Outbox
