import ForgePlane.Prog

/-!
# Runs of programs sharing a world

Threads interleave call by call. A call is answered by the world, or its caller gets an error instead: `lost`
before the call took effect, `ambiguous` after it.
-/

namespace ForgePlane

open System

variable {i : Nat} {μ : Type}

section
variable {α : Type} {P : α → Prop} {l : List α} {a b : α}

theorem mem_at (h : ∀ a ∈ l, P a) (hi : l[i]? = some a) : P a := h a (List.mem_of_getElem? hi)

theorem lt_at (hi : l[i]? = some a) : i < l.length := (List.getElem?_eq_some_iff.mp hi).1

theorem forall_snoc (h : ∀ a ∈ l, P a) (hb : P b) : ∀ a ∈ l ++ [b], P a :=
  List.forall_mem_append.mpr ⟨h, List.forall_mem_singleton.mpr hb⟩

theorem mem_of_snoc (h : a ∈ l ++ [b]) (hne : a ≠ b) : a ∈ l :=
  (List.mem_append.mp h).resolve_right fun hb => hne (List.mem_singleton.mp hb)

theorem forall_set (h : ∀ a ∈ l, P a) (hb : P b) : ∀ a ∈ l.set i b, P a := by
  intro a ha
  obtain ha | rfl := List.mem_or_eq_of_mem_set ha
  · exact h a ha
  · exact hb

theorem mem_of_set (h : a ∈ l.set i b) (hne : a ≠ b) : a ∈ l := (List.mem_or_eq_of_mem_set h).resolve_right hne

end

/-! ## Labelled runs -/

section
variable {S L : Type}

def Run (next : S → L → Option S) (allowed : S → L → Prop) : S → List L → S → Prop
  | s, [], s' => s = s'
  | s, l :: ls, s' => allowed s l ∧ ∃ m, next s l = some m ∧ Run next allowed m ls s'

variable {next : S → L → Option S} {allowed allowed' : S → L → Prop}

theorem Run.nil (s : S) : Run next allowed s [] s := rfl

theorem Run.invariant {I : S → Prop} (step : ∀ s l s', I s → allowed s l → next s l = some s' → I s') :
    ∀ {ls : List L} {s s' : S}, I s → Run next allowed s ls s' → I s'
  | [], _, _, hi, h => h ▸ hi
  | l :: _, s, _, hi, ⟨ha, m, hm, h⟩ => Run.invariant step (step s l m hi ha hm) h

variable {P Q : S → Prop} {ls ls' : List L} {s s' m : S} {l : L}

theorem Run.enters : ∀ {ls : List L} {s s' : S}, Run next allowed s ls s' → ¬ P s → P s' →
    ∃ before l after m m', Run next allowed s before m ∧ ¬ P m ∧ allowed m l ∧ next m l = some m' ∧ P m' ∧
      Run next allowed m' after s'
  | [], s, _, h, hs, hs' => absurd ((show s = _ from h) ▸ hs') hs
  | l :: ls, s, s', ⟨ha, m, hm, h⟩, hs, hs' => by
    by_cases hP : P m
    · exact ⟨[], l, ls, s, m, Run.nil s, hs, ha, hm, hP, h⟩
    · obtain ⟨before, l', after, m₁, m₂, hbefore, hrest⟩ := Run.enters h hP hs'
      exact ⟨l :: before, l', after, m₁, m₂, ⟨ha, m, hm, hbefore⟩, hrest⟩

theorem Run.append (h : Run next allowed s ls m) (h' : Run next allowed m ls' s') :
    Run next allowed s (ls ++ ls') s' := by
  induction ls generalizing s with
  | nil => exact (show s = m from h) ▸ h'
  | cons l ls ih =>
    obtain ⟨ha, n, hn, h⟩ := h
    exact ⟨ha, n, hn, ih h⟩

theorem Run.snoc (h : Run next allowed s (ls ++ [l]) s') :
    ∃ m, Run next allowed s ls m ∧ allowed m l ∧ next m l = some s' := by
  induction ls generalizing s with
  | nil =>
    obtain ⟨ha, m, hm, rfl⟩ := h
    exact ⟨s, rfl, ha, hm⟩
  | cons l' ls ih =>
    obtain ⟨ha, n, hn, h⟩ := h
    obtain ⟨m, hm, hrest⟩ := ih h
    exact ⟨m, ⟨ha, n, hn, hm⟩, hrest⟩

def follow (next : S → L → Option S) (allowed : S → L → Bool) : S → List L → Option S
  | s, [] => some s
  | s, l :: ls => if allowed s l then (next s l).bind fun m => follow next allowed m ls else none

theorem Run.of_follow {allowed : S → L → Bool} : ∀ {ls : List L} {s s' : S}, follow next allowed s ls = some s' →
    Run next (fun s l => allowed s l = true) s ls s'
  | [], _, _, h => Option.some.inj h
  | l :: ls, s, s', h => by
    simp only [follow] at h
    split at h
    · rename_i ha
      obtain ⟨m, hm, h⟩ := Option.bind_eq_some_iff.mp h
      exact ⟨ha, m, hm, Run.of_follow h⟩
    · cases h

theorem follow_append {allowed : S → L → Bool} : ∀ {ls ls' : List L} {s m : S}, follow next allowed s ls = some m →
    follow next allowed s (ls ++ ls') = follow next allowed m ls'
  | [], _, _, _, h => by cases h; rfl
  | l :: ls, ls', s, m, h => by
    simp only [follow] at h
    split at h
    · rename_i ha
      obtain ⟨n, hn, h⟩ := Option.bind_eq_some_iff.mp h
      simp [follow, ha, hn]
      exact follow_append h
    · cases h

theorem Run.follow_eq [∀ s l, Decidable (allowed s l)] : ∀ {ls : List L} {s s' : S},
    Run next allowed s ls s' → follow next (fun s l => decide (allowed s l)) s ls = some s'
  | [], _, _, h => congrArg some h
  | l :: _, s, _, ⟨ha, m, hm, h⟩ => by simp [follow, ha, hm, Run.follow_eq h]

theorem exists_run_iff [∀ s l, Decidable (allowed s l)] [DecidablePred P] :
    (∃ s', Run next allowed s ls s' ∧ P s') ↔
      ((follow next (fun s l => decide (allowed s l)) s ls).any fun s' => decide (P s')) = true := by
  rw [Option.any_eq_true]
  constructor
  · rintro ⟨s', h, hP⟩
    exact ⟨s', h.follow_eq, decide_eq_true hP⟩
  · rintro ⟨s', h, hP⟩
    exact ⟨s', by simpa using Run.of_follow h, of_decide_eq_true hP⟩

theorem exists_run_and (h : ∃ s', Run next allowed s ls s' ∧ P s')
    (hQ : ∀ s', Run next allowed s ls s' → P s' → Q s') : ∃ s', Run next allowed s ls s' ∧ P s' ∧ Q s' := by
  obtain ⟨s', hr, hP⟩ := h
  exact ⟨s', hr, hP, hQ s' hr hP⟩

instance {s : S} {ls : List L} [∀ s l, Decidable (allowed s l)] {P : S → Prop} [DecidablePred P] :
    Decidable (∃ s', Run next allowed s ls s' ∧ P s') :=
  decidable_of_iff _ exists_run_iff.symm

instance decidableSome {o : Option S} {P : S → Prop} [DecidablePred P] : Decidable (∃ s, o = some s ∧ P s) :=
  decidable_of_iff (o.any fun s => decide (P s)) (by simp [Option.any_eq_true])

instance decidableAll {o : Option S} {P : S → Prop} [DecidablePred P] : Decidable (∀ s, o = some s → P s) :=
  decidable_of_iff (o.all fun s => decide (P s)) (by simp [Option.all_eq_true])

theorem Run.mono (hle : ∀ s l, allowed s l → allowed' s l) :
    ∀ {ls : List L} {s s' : S}, Run next allowed s ls s' → Run next allowed' s ls s'
  | [], _, _, h => h
  | l :: _, s, _, ⟨ha, m, hm, h⟩ => ⟨hle s l ha, m, hm, Run.mono hle h⟩

end

/-! ## Threads over a world -/

inductive Outcome where
  | delivered
  | lost (err : String)
  | ambiguous (err : String)
  deriving DecidableEq, Repr

def Outcome.isLost : Outcome → Bool
  | .lost _ => true
  | _ => false

def Outcome.isAmbiguous : Outcome → Bool
  | .ambiguous _ => true
  | _ => false

inductive Label (τ : Type) where
  | call (i : Nat) (o : Outcome)
  | start (t : τ)
  | tick (d : Nat)
  | crash (i : Nat)
  deriving DecidableEq, Repr

/-- `fault c e` is what the caller of `c` sees when the call fails with `e`; a call that
cannot fail on the way has none. -/
structure System {Call : Type} (Resp : Call → Type) (τ W : Type) where
  program : τ → Prog Resp Unit
  handle : W → (c : Call) → Resp c × W
  fault : (c : Call) → String → Option (Resp c)
  tick : W → Nat → W

structure Config {Call : Type} (Resp : Call → Type) (τ W : Type) where
  world : W
  threads : List (τ × Prog Resp Unit)

section
variable {Call : Type} {Resp : Call → Type} {τ W : Type}

def System.answer (M : System Resp τ W) (w : W) (c : Call) : Outcome → Option (Resp c × W)
  | .delivered => some (M.handle w c)
  | .lost e => (M.fault c e).map fun r => (r, w)
  | .ambiguous e => (M.fault c e).map fun r => (r, (M.handle w c).2)

def System.next (M : System Resp τ W) (s : Config Resp τ W) : Label τ → Option (Config Resp τ W)
  | .call i o =>
    match s.threads[i]? with
    | some (t, .call c k) => (M.answer s.world c o).map fun a => ⟨a.2, s.threads.set i (t, k a.1)⟩
    | _ => none
  | .start t => some ⟨s.world, s.threads ++ [(t, M.program t)]⟩
  | .tick d => some ⟨M.tick s.world d, s.threads⟩
  | .crash i =>
    match s.threads[i]? with
    | some (t, _) => some ⟨s.world, s.threads.set i (t, .ret ())⟩
    | none => none

def Config.pending (s : Config Resp τ W) (i : Nat) : Option (τ × Call) :=
  match s.threads[i]? with
  | some (t, .call c _) => some (t, c)
  | _ => none

def Config.sends (s : Config Resp τ W) : Label τ → Option (τ × Call)
  | .call i _ => s.pending i
  | _ => none

def Config.ended (s : Config Resp τ W) (i : Nat) : Bool :=
  match s.threads[i]? with
  | some (_, .ret _) => true
  | _ => false

variable {M : System Resp τ W} {s s' : Config Resp τ W}

variable {o : Outcome} {t : τ} {c : Call} {l : Label τ} {w w' : W} {r : Resp c} {Q : Call → Prop}
variable {allowed : Config Resp τ W → Label τ → Prop} {ls : List (Label τ)} {I : W → Prop}
variable {J : W → τ → Prog Resp Unit → Prop}
variable {k : Resp c → Prog Resp Unit}

theorem System.next_call (h : M.next s (.call i o) = some s') :
    ∃ t c k r w, s.threads[i]? = some (t, .call c k) ∧ M.answer s.world c o = some (r, w) ∧
      s' = ⟨w, s.threads.set i (t, k r)⟩ := by
  simp [next] at h
  split at h
  · rename_i t c k hi
    obtain ⟨⟨r, w⟩, ha, rfl⟩ := Option.map_eq_some_iff.mp h
    exact ⟨t, c, k, r, w, hi, ha, rfl⟩
  · cases h

theorem System.next_crash (h : M.next s (.crash i) = some s') :
    ∃ t p, s.threads[i]? = some (t, p) ∧ s' = ⟨s.world, s.threads.set i (t, .ret ())⟩ := by
  simp [next] at h
  split at h
  · rename_i t p hi
    exact ⟨t, p, hi, (Option.some.inj h).symm⟩
  · cases h

theorem Config.pending_eq (h : s.threads[i]? = some (t, .call c k)) : s.pending i = some (t, c) := by
  simp [Config.pending, h]

theorem Config.sends_eq (o : Outcome) (h : s.threads[i]? = some (t, .call c k)) : s.sends (.call i o) = some (t, c) :=
  Config.pending_eq h

theorem Config.sends_mem (h : s.sends l = some (t, c)) :
    ∃ k, (t, Prog.call c k) ∈ s.threads := by
  cases l with
  | call i o =>
    simp [Config.sends, Config.pending] at h
    split at h
    · rename_i hi
      cases h
      exact ⟨_, List.mem_of_getElem? hi⟩
    · cases h
  | _ => cases h

variable (h : M.answer w c o = some (r, w'))
include h

theorem System.answer_cases : (o = .delivered ∧ (r, w') = M.handle w c) ∨
    (∃ e, o = .lost e ∧ M.fault c e = some r ∧ w' = w) ∨
    (∃ e, o = .ambiguous e ∧ M.fault c e = some r ∧ w' = (M.handle w c).2) := by
  cases o with
  | delivered => exact .inl ⟨rfl, (Option.some.inj h).symm⟩
  | lost e =>
    obtain ⟨r', hr, he⟩ := Option.map_eq_some_iff.mp h
    cases he
    exact .inr (.inl ⟨e, rfl, hr, rfl⟩)
  | ambiguous e =>
    obtain ⟨r', hr, he⟩ := Option.map_eq_some_iff.mp h
    cases he
    exact .inr (.inr ⟨e, rfl, hr, rfl⟩)

theorem System.answer_told : (r, w') = M.handle w c ∨ ∃ e, M.fault c e = some r := by
  obtain ⟨-, h⟩ | ⟨e, -, hf, -⟩ | ⟨e, -, hf, -⟩ := answer_cases h
  · exact .inl h
  · exact .inr ⟨e, hf⟩
  · exact .inr ⟨e, hf⟩

theorem System.answer_delivered (hr : ∀ e, M.fault c e ≠ some r) : (r, w') = M.handle w c :=
  (answer_told h).resolve_right fun ⟨e, hf⟩ => hr e hf

theorem System.answer_world : w' = w ∨ w' = (M.handle w c).2 := by
  obtain ⟨-, h⟩ | ⟨e, -, -, h⟩ | ⟨e, -, -, h⟩ := answer_cases h
  · exact .inr (congrArg Prod.snd h)
  · exact .inl h
  · exact .inr h

omit h

variable (hn : M.next s l = some s')
include hn

theorem System.next_world :
    s'.world = s.world ∨ (∃ d, s'.world = M.tick s.world d) ∨
      ∃ t c, s.sends l = some (t, c) ∧ s'.world = (M.handle s.world c).2 := by
  cases l with
  | start t => cases hn; exact .inl rfl
  | tick d => cases hn; exact .inr (.inl ⟨d, rfl⟩)
  | crash i => obtain ⟨t, p, -, rfl⟩ := next_crash hn; exact .inl rfl
  | call i o =>
    obtain ⟨t, c, k, r, w, hi, hr, rfl⟩ := next_call hn
    obtain hw | hw := answer_world hr
    · exact .inl hw
    · exact .inr (.inr ⟨t, c, Config.pending_eq hi, hw⟩)

theorem System.next_thread {p : Prog Resp Unit} (hi : s.threads[i]? = some (t, p)) :
    s'.threads[i]? = some (t, p) ∨ s'.threads[i]? = some (t, .ret ()) ∨
      ∃ o c k r w, l = .call i o ∧ p = .call c k ∧ M.answer s.world c o = some (r, w) ∧ s'.threads[i]? = some (t, k r) := by
  have hlt := lt_at hi
  cases l with
  | start t' => cases hn; exact .inl (by simp [List.getElem?_append_left hlt, hi])
  | tick d => cases hn; exact .inl hi
  | crash j =>
    obtain ⟨t', p', hj, rfl⟩ := next_crash hn
    by_cases hij : j = i
    · subst hij
      cases hi.symm.trans hj
      exact .inr (.inl (by simp [hlt]))
    · exact .inl (by simp [List.getElem?_set_ne hij, hi])
  | call j o =>
    obtain ⟨t', c, k, r, w, hj, hr, rfl⟩ := next_call hn
    by_cases hij : j = i
    · subst hij
      cases hi.symm.trans hj
      exact .inr (.inr ⟨o, c, k, r, w, rfl, rfl, hr, by simp [hlt]⟩)
    · exact .inl (by simp [List.getElem?_set_ne hij, hi])

omit hn

/-- What the clock and every call keep to holds between the first world of a run and the last. -/
theorem Run.related {R : W → W → Prop} (refl : ∀ w, R w w) (trans : ∀ {a b c}, R a b → R b c → R a c)
    (tick : ∀ w d, R w (M.tick w d)) (handle : ∀ w c, R w (M.handle w c).2) (hr : Run M.next allowed s ls s') :
    R s.world s'.world := by
  refine Run.invariant (I := fun x => R s.world x.world) (fun a l b hI _ hn => ?_) (refl _) hr
  obtain hw | ⟨d, hw⟩ | ⟨t, c, -, hw⟩ := System.next_world hn
  · exact hw ▸ hI
  · exact hw ▸ trans hI (tick _ d)
  · exact hw ▸ trans hI (handle _ c)

/-! ## Invariants of a world and of each thread

`J w t p` speaks of one thread's task and what is left of its program. -/

/-- What every step must preserve for `J` to hold of all threads in all reached states. -/
structure ThreadInv (M : System Resp τ W) (allowed : Config Resp τ W → Label τ → Prop)
    (I : W → Prop) (J : W → τ → Prog Resp Unit → Prop) : Prop where
  start : ∀ s t, I s.world → allowed s (.start t) → J s.world t (M.program t)
  stop : ∀ w t, I w → J w t (.ret ())
  tick : ∀ w d, I w → I (M.tick w d) ∧ ∀ t p, J w t p → J (M.tick w d) t p
  call : ∀ s i o t c k r w, I s.world → (∀ x ∈ s.threads, J s.world x.1 x.2) → allowed s (.call i o) →
    s.threads[i]? = some (t, .call c k) → M.answer s.world c o = some (r, w) →
    I w ∧ J w t (k r) ∧ ∀ j t' p, j ≠ i → s.threads[j]? = some (t', p) → J w t' p

theorem ThreadInv.step
    (h : ThreadInv M allowed I J)
    (hs : I s.world ∧ ∀ x ∈ s.threads, J s.world x.1 x.2) (ha : allowed s l) (hn : M.next s l = some s') :
    I s'.world ∧ ∀ x ∈ s'.threads, J s'.world x.1 x.2 := by
  obtain ⟨hI, hJ⟩ := hs
  cases l with
  | start t =>
    cases hn
    exact ⟨hI, forall_snoc hJ (h.start s t hI ha)⟩
  | tick d =>
    cases hn
    obtain ⟨hI', hJ'⟩ := h.tick s.world d hI
    exact ⟨hI', fun x hx => hJ' _ _ (hJ x hx)⟩
  | crash i =>
    obtain ⟨t, p, hi, rfl⟩ := System.next_crash hn
    exact ⟨hI, forall_set hJ (h.stop s.world t hI)⟩
  | call i o =>
    obtain ⟨t, c, k, r, w, hi, hr, rfl⟩ := System.next_call hn
    obtain ⟨hI', hk, hrest⟩ := h.call s i o t c k r w hI hJ ha hi hr
    refine ⟨hI', fun x hx => ?_⟩
    obtain ⟨j, hj⟩ := List.getElem?_of_mem hx
    by_cases hji : j = i
    · subst hji
      rw [List.getElem?_set_self (List.getElem?_eq_some_iff.mp hi).1] at hj
      cases hj; exact hk
    · rw [List.getElem?_set_ne (Ne.symm hji)] at hj
      exact hrest j x.1 x.2 hji hj

theorem ThreadInv.run
    (h : ThreadInv M allowed I J)
    (hs : I s.world ∧ ∀ x ∈ s.threads, J s.world x.1 x.2) (hr : Run M.next allowed s ls s') :
    I s'.world ∧ ∀ x ∈ s'.threads, J s'.world x.1 x.2 :=
  Run.invariant (I := fun s => I s.world ∧ ∀ x ∈ s.threads, J s.world x.1 x.2)
    (fun _ _ _ hs ha hn => h.step hs ha hn) hs hr

theorem ThreadInv.monitored {N : Monitor Resp μ} {Φ : Unit → μ → Prop}
    (hstop : ∃ m, Φ () m) (hexpects : ∀ m c r, N.expects m c r)
    (hstart : ∀ s t, allowed s (.start t) → ∃ m, wp N (M.program t) Φ m) :
    ThreadInv M allowed (fun _ => True) (fun _ _ p => ∃ m, wp N p Φ m) where
  start s t _ ha := hstart s t ha
  stop _ _ _ := hstop
  tick _ _ _ := ⟨trivial, fun _ _ h => h⟩
  call s i o t c k r w _ hJ _ hi _ := by
    obtain ⟨m, hm⟩ := mem_at hJ hi
    exact ⟨trivial, ⟨_, hm.2 r (hexpects m c r)⟩, fun j t' p _ hj => hJ _ (List.mem_of_getElem? hj)⟩

/-! ## One thread among bystanders

The first thread is followed by a monitor whose state `R` ties to the world; of the
others only the calls `Q` they may make are known. -/

structure LeaderInv {μ : Type} (M : System Resp τ W) (allowed : Config Resp τ W → Label τ → Prop) (N : Monitor Resp μ)
    (Q : Call → Prop) (R : μ → W → Prop) (F : μ → Prop) : Prop where
  start : ∀ s t, allowed s (.start t) → All Q (M.program t)
  tick : ∀ m w d, R m w → R m (M.tick w d)
  crash : ∀ s m, allowed s (.crash 0) → R m s.world → ∃ m', R m' s.world ∧ F m'
  lead : ∀ s o t c m r w, allowed s (.call 0 o) → s.sends (.call 0 o) = some (t, c) → N.admits m c → R m s.world →
    M.answer s.world c o = some (r, w) → N.expects m c r ∧ R (N.next m c r) w
  follow : ∀ s i o t c m r w, allowed s (.call i o) → s.sends (.call i o) = some (t, c) → Q c → R m s.world →
    M.answer s.world c o = some (r, w) → R m w

def Led {μ : Type} (N : Monitor Resp μ) (Q : Call → Prop) (R : μ → W → Prop) (F : μ → Prop) (s : Config Resp τ W) : Prop :=
  ∃ t p rest m, s.threads = (t, p) :: rest ∧ (∀ x ∈ rest, All Q x.2) ∧ wp N p (fun _ => F) m ∧ R m s.world

section
variable {N : Monitor Resp μ} {Q : Call → Prop} {R : μ → W → Prop} {F : μ → Prop}
variable {allowed : Config Resp τ W → Label τ → Prop}

theorem Led.ended (h : Led N Q R F s) (hend : s.ended 0 = true) : ∃ m, F m ∧ R m s.world := by
  obtain ⟨t, p, rest, m, hs, -, hp, hR⟩ := h
  simp [Config.ended, hs] at hend
  cases p with
  | ret a => exact ⟨m, hp, hR⟩
  | call c k => cases hend

theorem LeaderInv.step (h : LeaderInv M allowed N Q R F) (hs : Led N Q R F s) (ha : allowed s l)
    (hn : M.next s l = some s') : Led N Q R F s' := by
  obtain ⟨t, p, rest, m, hthreads, hrest, hp, hR⟩ := hs
  cases l with
  | start t' =>
    cases hn
    exact ⟨t, p, rest ++ [(t', M.program t')], m, by simp [hthreads], forall_snoc hrest (h.start s t' ha), hp, hR⟩
  | tick d =>
    cases hn
    exact ⟨t, p, rest, m, hthreads, hrest, hp, h.tick m _ d hR⟩
  | crash i =>
    obtain ⟨t', p', hi, rfl⟩ := System.next_crash hn
    cases i with
    | zero =>
      obtain ⟨m', hR', hF⟩ := h.crash s m ha hR
      exact ⟨t', .ret (), rest, m', by simp [hthreads], hrest, hF, hR'⟩
    | succ j =>
      exact ⟨t, p, rest.set j (t', .ret ()), m, by simp [hthreads], forall_set hrest trivial, hp, hR⟩
  | call i o =>
    obtain ⟨t', c, k, r, w, hi, hr, rfl⟩ := System.next_call hn
    have hsends := Config.sends_eq o hi
    cases i with
    | zero =>
      rw [hthreads] at hi
      cases hi
      obtain ⟨hexp, hR'⟩ := h.lead s o t c m r w ha hsends hp.1 hR hr
      exact ⟨t, k r, rest, _, by simp [hthreads], hrest, hp.2 r hexp, hR'⟩
    | succ j =>
      rw [hthreads] at hi
      have hc := mem_at hrest hi
      exact ⟨t, p, rest.set j (t', k r), m, by simp [hthreads], forall_set hrest (hc.2 r), hp,
        h.follow s (j + 1) o t' c m r w ha hsends hc.1 hR hr⟩

theorem LeaderInv.run (h : LeaderInv M allowed N Q R F) {ls : List (Label τ)} (hs : Led N Q R F s)
    (hr : Run M.next allowed s ls s') : Led N Q R F s' :=
  Run.invariant (I := Led N Q R F) (fun _ _ _ hs ha hn => h.step hs ha hn) hs hr

end

end

end ForgePlane
