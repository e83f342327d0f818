import ForgePlane.Manager

/-!
# Requested stops and crashes

An exit that was asked for may be reported by several events, all of them after the action that
asked for it has given the lock back. `ExpectedStop` covers the first of them, if nothing has
cleared it before.
-/

namespace ForgePlane.Manager

variable (settings : Settings)

def owed (e : ContainerEvent) : Bool := e.requested && looksCrashed settings e

def Node.settled (n : Node) (events : List ContainerEvent) : Bool := !n.doomed && events.all fun e => !owed settings e

/-- The step clears `ExpectedStop` only where no event of a requested exit is left. -/
def heeded (n : Node) : Label → Bool
  | .release =>
    match n.action with
    | some (.start, .ret (_, st)) => st.expectedStop || n.settled settings n.events
    | some (.restart, .ret (_, st)) => st.expectedStop || n.settled settings n.events
    | _ => true
  | .deliver =>
    match n.events with
    | [] => true
    | e :: rest => !(e.action = .start || n.state.expectedStop) || n.settled settings rest
  | _ => true

/-! ## What actions leave of the flag -/

def called : Monitor Resp Bool where
  admits _ _ := True
  next _ _ _ := true

theorem wp_called {α : Type} (p : Action α) : ∀ m, wp called p (fun _ m' => m = true → m' = true) m := by
  induction p with
  | ret => exact fun m h => h
  | call c k ih => exact fun m => ⟨trivial, fun r _ => wp_mono (fun _ _ h _ => h rfl) (ih r true)⟩

@[simp] theorem unmark_expectedStop (signal : Signal) (st : ServerState) : (unmark signal st).expectedStop = st.expectedStop := by
  unfold unmark
  split <;> rfl

theorem ending_expectedStop (st done : ServerState) {b : Bool} (hst : st.expectedStop = b) (hdone : done.expectedStop = b)
    (r : Except Err Unit) : (ending st done r).2.expectedStop = b := by
  cases r with
  | ok => exact hdone
  | error =>
    simp [ending]
    split <;> exact hst

def Leaves (signal : Signal) (st : ServerState) (a : Except Err Unit × ServerState) (m : Bool) : Prop :=
  (m = false → st.expectedStop = true → a.2.expectedStop = true) ∧
    (m = true → signal = .stop ∨ signal = .kill → a.2.expectedStop = true)

theorem leaves_performStop (signal : Signal) (st : ServerState) (takeDown : Action (Except Err Unit)) :
    wp called (performStop st takeDown) (Leaves signal st) false := by
  refine wp_then (wp_called takeDown false) fun r m _ => ?_
  have hset := ending_expectedStop { st with powerState := .stopping, expectedStop := true }
    { st with powerState := .offline, expectedStop := true } rfl rfl r
  exact ⟨fun _ _ => hset, fun _ _ => hset⟩

theorem leaves_performStart (st : ServerState) : wp called (performStart st) (Leaves .start st) false := by
  refine wp_then (wp_called (onBeforeStart st) false) fun r m _ => ?_
  cases r with
  | error => exact ⟨fun _ h => h, fun _ h => by simp at h⟩
  | ok => exact ⟨trivial, fun r _ => ⟨fun h => (by cases h), fun _ h => by simp at h⟩⟩

theorem leaves_performRestart (st : ServerState) : wp called (performRestart settings st) (Leaves .restart st) false := by
  refine wp_then (wp_called (onBeforeStart st) false) fun r m _ => ?_
  cases r with
  | error => exact ⟨fun _ h => h, fun _ h => by simp at h⟩
  | ok =>
    refine wp_then (wp_called (stopServer settings _) m) fun r m' _ => ?_
    cases r with
    | error e =>
      have hset := ending_expectedStop { st with powerState := .stopping, expectedStop := true }
        { st with powerState := .stopping, expectedStop := true } rfl rfl (.error e)
      exact ⟨fun _ _ => hset, fun _ h => by simp at h⟩
    | ok => exact ⟨trivial, fun r _ => ⟨fun h => (by cases h), fun _ h => by simp at h⟩⟩

theorem leaves_handlePower (signal : Signal) (st : ServerState) :
    wp called (handlePower settings signal st) (Leaves signal st) false := by
  unfold handlePower
  split
  · exact ⟨fun _ h => h, fun h => by cases h⟩
  split
  · exact ⟨fun _ h => h, fun h => by cases h⟩
  have hperform : wp called (perform settings signal { st with runningAction := some (.power signal) }) (Leaves signal st) false := by
    cases signal with
    | start => exact leaves_performStart _
    | stop | kill => exact leaves_performStop _ _ _
    | restart => exact leaves_performRestart settings _
  refine wp_then hperform fun a m h => ?_
  obtain ⟨r, st'⟩ := a
  simpa [Leaves] using h

structure Sound (n : Node) : Prop where
  free : n.action = none → n.state.expectedStop = true ∨ n.settled settings n.events = true
  busy : ∀ signal p, n.action = some (signal, p) → signal = .stop ∨ signal = .kill →
    ∃ m, wp called p (fun a m => m = true → a.2.expectedStop = true) m ∧ (m = true ∨ ∃ c k, p = .call c k)

variable {settings} {n n' : Node}
variable {e : ContainerEvent}

theorem settled_cons {events : List ContainerEvent} (h : n.settled settings (e :: events) = true) :
    owed settings e = false ∧ n.settled settings events = true := by
  simp [Node.settled] at h ⊢
  exact ⟨h.2.1, h.1, h.2.2⟩

variable (h : Sound settings n)
include h

theorem Sound.start (hfree : n.action = none) (signal : Signal) : Sound settings (n.start settings signal) := by
  have hleaves := leaves_handlePower settings signal n.state
  unfold Node.start
  split
  · rename_i r st heq
    rw [heq] at hleaves
    refine ⟨fun _ => ?_, fun _ _ ha => absurd (hfree.symm.trans ha) (by simp)⟩
    obtain hset | hsettled := h.free hfree
    · exact .inl (hleaves.1 rfl hset)
    · exact .inr hsettled
  · rename_i p hret
    refine ⟨fun ha => (by cases ha), fun signal' p' ha hsignal => ?_⟩
    cases ha
    refine ⟨false, wp_mono (fun a m hm ht => hm.2 ht hsignal) hleaves, .inr ?_⟩
    cases heq : handlePower settings signal n.state with
    | ret a => exact absurd heq (hret a.1 a.2)
    | call c k => exact ⟨c, k, rfl⟩

theorem Sound.request (signal : Signal) : Sound settings (n.request settings signal) := by
  unfold Node.request
  split
  · exact h
  · rename_i hfree
    exact h.start (by simpa using hfree) signal

theorem Sound.step {l : Label} (hl : heeded settings n l = true) (hn : n.next settings l = some n') :
    Sound settings n' := by
  cases l with
  | power signal => cases hn; exact h.request signal
  | tick => cases hn; exact ⟨h.free, h.busy⟩
  | autostart =>
    simp only [Node.next] at hn
    split at hn
    · cases hn
      exact ⟨(h.request .start).free, (h.request .start).busy⟩
    · cases hn
  | act =>
    simp only [Node.next] at hn
    split at hn
    · rename_i signal c k ha
      obtain ⟨⟨r, m⟩, -, rfl⟩ := Option.map_eq_some_iff.mp hn
      refine ⟨fun ha => (by cases ha), fun signal' p' ha' hsignal => ?_⟩
      cases ha'
      obtain ⟨m, hp, -⟩ := h.busy signal _ ha hsignal
      exact ⟨true, hp.2 r trivial, .inl rfl⟩
    · cases hn
  | release =>
    simp only [Node.next] at hn
    split at hn
    · rename_i signal r st ha
      cases hn
      refine ⟨fun _ => ?_, fun _ _ ha => by cases ha⟩
      simp only [heeded, ha] at hl
      have hstop : signal = .stop ∨ signal = .kill → st.expectedStop = true := by
        intro hsignal
        obtain ⟨m, hp, hm | ⟨c, k, hcall⟩⟩ := h.busy signal _ ha hsignal
        · exact hp hm
        · cases hcall
      cases signal with
      | start | restart => exact Bool.or_eq_true_iff.mp hl
      | stop => exact .inl (hstop (.inl rfl))
      | kill => exact .inl (hstop (.inr rfl))
    · cases hn
  | exit caused =>
    simp only [Node.next] at hn
    split at hn
    · rename_i hwhen
      cases hn
      refine ⟨fun ha => ?_, h.busy⟩
      obtain hset | hsettled := h.free ha
      · exact .inl hset
      -- nothing is in progress and nothing is to come, so the exit is the container's own
      · right
        simp only [Node.settled, Bool.and_eq_true, Bool.not_eq_true'] at hsettled hwhen
        have hcaused : caused = false := by simpa [hsettled.1] using hwhen.1.2
        have hidle : n.stopping = false := by simp [Node.stopping, show n.action = none from ha]
        have hown : ∀ e : ContainerEvent, e.requested = false → owed settings e = false := by
          intro e he
          simp [owed, he]
        refine Bool.and_eq_true_iff.mpr ⟨rfl, List.all_eq_true.mpr fun e he => ?_⟩
        obtain he | he := List.mem_append.mp he
        · exact List.all_eq_true.mp hsettled.2 e he
        · obtain ⟨x, -, rfl⟩ := List.mem_map.mp he
          simp [hown, hcaused, hidle]
    · cases hn
  | deliver =>
    simp only [Node.next] at hn
    split at hn
    · cases hn
    rename_i hfree
    split at hn
    · cases hn
    rename_i e rest hevents
    cases hn
    simp only [heeded, hevents] at hl
    have haction : n.action = none := by
      simp at hfree
      exact hfree.1
    refine ⟨fun _ => .inr ?_, fun _ _ ha => absurd (haction.symm.trans ha) (by simp)⟩
    by_cases hclears : (decide (e.action = .start) || n.state.expectedStop) = true
    · have hrest : n.settled settings rest = true := by simpa [hclears] using hl
      exact hrest
    -- the flag was clear already, and what was settled stays so
    · simp at hclears
      obtain hset | hsettled := h.free haction
      · exact absurd (hclears.2.symm.trans hset) (by simp)
      · exact (settled_cons (hevents ▸ hsettled)).2

omit h

theorem crashed_of_handled {now : Nat} {st : ServerState}
    (h : (handleContainerEvent settings now e st).2 = true) : st.expectedStop = false ∧ looksCrashed settings e = true := by
  unfold handleContainerEvent at h
  split at h
  · cases h
  split at h
  · cases h
  split at h
  · cases h
  rename_i hflag
  split at h
  · cases h
  rename_i hcrash
  simp at hcrash
  exact ⟨by simpa using hflag, hcrash.1⟩

/-- As long as the flag is cleared only where no event of a requested exit is left, the watcher
treats as a crash only an exit that nobody asked for. -/
theorem requested_stop_is_no_crash {n₀ n n' : Node} {ls : List Label} {e : ContainerEvent} {rest : List ContainerEvent}
    (hidle : n₀.action = none) (hquiet : n₀.events = []) (hwell : n₀.doomed = false)
    (hr : Run (Node.next settings) (fun n l => heeded settings n l = true) n₀ ls n)
    (hn : n.next settings .deliver = some n') (he : n.events = e :: rest) (hcrash : n'.restarting = true) :
    e.requested = false := by
  have h₀ : Sound settings n₀ := by
    refine ⟨fun _ => .inr ?_, fun _ _ ha => absurd (hidle.symm.trans ha) (by simp)⟩
    simp [Node.settled, hquiet, hwell]
  have h : Sound settings n := Run.invariant (fun _ _ _ h hl hn => h.step hl hn) h₀ hr
  simp only [Node.next, he] at hn
  split at hn
  · cases hn
  rename_i hfree
  simp at hfree
  cases hn
  obtain ⟨hflag, hlooks⟩ := crashed_of_handled hcrash
  obtain hset | hsettled := h.free hfree.1
  · exact absurd (hflag.symm.trans hset) (by simp)
  · have howed := (settled_cons (he ▸ hsettled)).1
    simpa [owed, hlooks] using howed

/-! ## A stop and a restart -/

def playing : Node where
  state := { powerState := .running, configurationSynced := true, rootDir := "/srv", containerExists := true }
  running := true

def terminated : Label := .exit true ⟨.die, 143, false⟩ []

theorem requested_stop_is_no_crash_stop : ∃ n : Node, ∃ e rest, n.events = e :: rest ∧ e.exitCode = 1 ∧ e.requested = false := by
  obtain ⟨n, hn, hcode, n', hnext, hcrash⟩ : ∃ n, Run (Node.next {}) (fun n l => heeded {} n l = true) playing
      [.power .stop, .act .delivered, terminated, .act .delivered, .release, .deliver,
       .power .start, .act .delivered, .release, .deliver, .exit false ⟨.die, 1, false⟩ []] n ∧
      n.events.head?.any (fun e => decide (e.exitCode = 1)) = true ∧
      ∃ n', n.next {} .deliver = some n' ∧ n'.restarting = true := by decide +kernel
  obtain ⟨e, he, hcode⟩ := (Option.any_eq_true _ _).mp hcode
  obtain ⟨rest, he⟩ := List.head?_eq_some_iff.mp he
  exact ⟨n, e, rest, he, of_decide_eq_true hcode, requested_stop_is_no_crash rfl rfl rfl hn hnext he hcrash⟩

/-- A restart: the one event of the exit it asked for is handled after the flag is cleared, and
the running server is reported as crashed. -/
theorem restart_reported_as_crash : ∃ n n' : Node, ∃ e rest,
    Run (Node.next {}) (fun _ _ => True) playing
      [.power .restart, .act .delivered, terminated, .act .delivered, .act .delivered, .release] n ∧
    n.next {} .deliver = some n' ∧ n.events = e :: rest ∧ e.requested = true ∧ n'.restarting = true := by
  obtain ⟨n, hn, n', hnext, hreq, hcrash⟩ : ∃ n, Run (Node.next {}) (fun _ _ => True) playing
      [.power .restart, .act .delivered, terminated, .act .delivered, .act .delivered, .release] n ∧
      ∃ n', n.next {} .deliver = some n' ∧ n.events.head?.any (·.requested) = true ∧ n'.restarting = true := by
    decide +kernel
  obtain ⟨e, he, hreq⟩ := (Option.any_eq_true _ _).mp hreq
  obtain ⟨rest, he⟩ := List.head?_eq_some_iff.mp he
  exact ⟨n, n', e, rest, hn, hnext, he, hreq, hcrash⟩

end ForgePlane.Manager
