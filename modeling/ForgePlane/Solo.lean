import ForgePlane.Threads

/-!
# One thread inside at a time

Where a program begins only while no other is past its first call, the one inside is judged as if it
ran alone, with what the short programs of the others do to the world happening between its calls.
-/

namespace ForgePlane

open Config

/-! ## Programs under interference -/

variable {Call : Type} {Resp : Call → Type}

section
variable {α β W : Type}

/-- Whatever `R` does to the world before each call and after the last one, `G` holds
throughout and `Φ` where the program stops. -/
def Relies (handle : W → (c : Call) → Resp c × W) (R : W → W → Prop) (G : W → Prop) :
    Prog Resp α → (α → W → Prop) → W → Prop
  | .ret a, Φ, w => ∀ w', R w w' → G w' ∧ Φ a w'
  | .call c k, Φ, w => ∀ w', R w w' → G w' ∧ Relies handle R G (k (handle w' c).1) Φ (handle w' c).2

variable {handle : W → (c : Call) → Resp c × W} {R : W → W → Prop} {G P : W → Prop}

variable {p : Prog Resp α} {Φ Ψ : α → W → Prop} {w w' : W}

theorem Relies.rely (htrans : ∀ a b c, R a b → R b c → R a c)
    (h : Relies handle R G p Φ w) (hw : R w w') : Relies handle R G p Φ w' := by
  cases p with
  | ret | call => exact fun w'' hw' => h w'' (htrans w w' w'' hw hw')

theorem Relies.here (hrefl : ∀ w, R w w)
    (h : Relies handle R G p Φ w) : G w := by
  cases p with
  | ret | call => exact (h w (hrefl w)).1

theorem Relies.mono (hΦ : ∀ a w, Φ a w → Ψ a w)
    (h : Relies handle R G p Φ w) : Relies handle R G p Ψ w := by
  induction p generalizing w with
  | ret a => exact fun w' hw => ⟨(h w' hw).1, hΦ a w' (h w' hw).2⟩
  | call c k ih => exact fun w' hw => ⟨(h w' hw).1, ih _ (h w' hw).2⟩

theorem Relies.bind (hrefl : ∀ w, R w w) {f : α → Prog Resp β} {Φ : β → W → Prop}
    (h : Relies handle R G p (fun a w => Relies handle R G (f a) Φ w) w) : Relies handle R G (p >>= f) Φ w := by
  induction p generalizing w with
  | ret a => exact (h w (hrefl w)).2
  | call c k ih => exact fun w' hw => ⟨(h w' hw).1, ih _ (h w' hw).2⟩

theorem Relies.invariant (hstable : ∀ w w', P w → R w w' → P w') (hG : ∀ w, P w → G w)
    (hp : All (fun c => ∀ w, P w → P (handle w c).2) p)
    (hΦ : ∀ a w, P w → Φ a w) (hw : P w) : Relies handle R G p Φ w := by
  induction p generalizing w with
  | ret a =>
    intro w' hR
    have hP := hstable w w' hw hR
    exact ⟨hG w' hP, hΦ a w' hP⟩
  | call c k ih =>
    intro w' hR
    have hP := hstable w w' hw hR
    exact ⟨hG w' hP, ih _ (hp.2 _) (hp.1 w' hP)⟩

end

/-! ## Threads that take turns -/

section
variable {τ W : Type}

def Prog.inside (begins : Call → Bool) : Prog Resp Unit → Bool
  | .ret _ => false
  | .call c _ => !begins c

def Config.busy (begins : Call → Bool) (s : Config Resp τ W) : Bool := s.threads.any fun x => x.2.inside begins

def Prog.stopped : Prog Resp Unit → Bool
  | .ret _ => true
  | .call _ _ => false

def Config.allEnded (s : Config Resp τ W) : Bool := s.threads.all fun x => x.2.stopped

structure Solo (M : System Resp τ W) (allowed : Config Resp τ W → Label τ → Prop) (begins : Call → Bool)
    (R : W → W → Prop) (G I : W → Prop) : Prop where
  refl : ∀ w, R w w
  trans : ∀ a b c, R a b → R b c → R a c
  tick : ∀ w d, R w (M.tick w d)
  stable : ∀ w w', I w → R w w' → I w'
  holds : ∀ w, I w → G w
  sure : ∀ c e, M.fault c e = none
  crash : ∀ s i, ¬ allowed s (.crash i)
  shape : ∀ t, ∃ c k, M.program t = .call c k ∧ begins c = true ∧ ∀ r, All (fun c => begins c = false) (k r)
  enter : ∀ s i t c k, allowed s (.call i .delivered) → s.threads[i]? = some (t, .call c k) → M.program t = .call c k →
    ((∀ r, k r = .ret ()) ∧ R s.world (M.handle s.world c).2) ∨
    (s.busy begins = false ∧ (I s.world →
      Relies M.handle R G (k (M.handle s.world c).1) (fun _ => I) (M.handle s.world c).2))

def Shaped (M : System Resp τ W) (begins : Call → Bool) (s : Config Resp τ W) : Prop :=
  ∀ x ∈ s.threads, x.2 = M.program x.1 ∨ All (fun c => begins c = false) x.2

def Alone (begins : Call → Bool) (s : Config Resp τ W) (i : Nat) : Prop :=
  ∀ j (x : τ × Prog Resp Unit), j ≠ i → s.threads[j]? = some x → x.2.inside begins = false

inductive Turns (M : System Resp τ W) (begins : Call → Bool) (R : W → W → Prop) (G I : W → Prop)
    (s : Config Resp τ W) : Prop where
  | idle (free : s.busy begins = false) (holds : I s.world)
  | taken (i : Nat) (t : τ) (p : Prog Resp Unit) (at_ : s.threads[i]? = some (t, p)) (inside : p.inside begins = true)
      (alone : Alone begins s i) (relies : Relies M.handle R G p (fun _ => I) s.world)

variable {M : System Resp τ W} {allowed : Config Resp τ W → Label τ → Prop} {begins : Call → Bool}
variable {R : W → W → Prop} {G I : W → Prop} {s s' : Config Resp τ W} {i j : Nat} {t : τ}

theorem Config.busy_eq_false : s.busy begins = false ↔ ∀ x ∈ s.threads, x.2.inside begins = false := by
  simp [busy]

theorem Config.alone_of_free (h : s.busy begins = false) (i : Nat) : Alone begins s i := by
  intro j x _ hj
  exact busy_eq_false.mp h x (List.mem_of_getElem? hj)

variable (h : Alone begins s i)
include h

theorem Alone.free {p : Prog Resp Unit} (hi : s.threads[i]? = some (t, p))
    (hp : p.inside begins = false) : s.busy begins = false := by
  rw [busy_eq_false]
  intro x hx
  obtain ⟨j, hj⟩ := List.getElem?_of_mem hx
  by_cases hji : j = i
  · subst hji
    rw [hi] at hj
    cases hj
    exact hp
  · exact h j x hji hj

theorem Alone.set (w : W) (t : τ) (p : Prog Resp Unit) :
    Alone begins ⟨w, s.threads.set i (t, p)⟩ i := by
  intro j x hji hj
  rw [List.getElem?_set_ne (Ne.symm hji)] at hj
  exact h j x hji hj

theorem Alone.set_ret (w : W) (t : τ) :
    Alone begins ⟨w, s.threads.set j (t, .ret ())⟩ i := by
  intro l x hli hl
  by_cases hlj : l = j
  · subst hlj
    have hlt : l < s.threads.length := by simpa using (lt_at hl)
    rw [List.getElem?_set_self hlt] at hl
    cases hl
    rfl
  · rw [List.getElem?_set_ne (Ne.symm hlj)] at hl
    exact h l x hli hl

omit h

namespace Solo

variable (hS : Solo M allowed begins R G I)
variable {o : Outcome} {p : Prog Resp Unit} {w w' : W}

include hS

theorem program_inside (t : τ) : (M.program t).inside begins = false := by
  obtain ⟨c, k, hp, hc, -⟩ := hS.shape t
  simp [hp, Prog.inside, hc]

theorem answer_eq {c : Call} {r : Resp c} (h : M.answer w c o = some (r, w')) :
    o = .delivered ∧ (r, w') = M.handle w c := by
  obtain h | ⟨e, -, hf, -⟩ | ⟨e, -, hf, -⟩ := System.answer_cases h
  · exact h
  · simp [hS.sure] at hf
  · simp [hS.sure] at hf

theorem turns_set (halone : Alone begins s i) (hlt : i < s.threads.length)
    (hp : All (fun c => begins c = false) p) (hrel : Relies M.handle R G p (fun _ => I) w) :
    Turns M begins R G I ⟨w, s.threads.set i (t, p)⟩ := by
  have hi : (Config.mk w (s.threads.set i (t, p))).threads[i]? = some (t, p) := by simp [hlt]
  cases p with
  | ret a => exact .idle ((halone.set w t (.ret a)).free hi rfl) (hrel w (hS.refl w)).2
  | call c k => exact .taken i t _ hi (by simp [Prog.inside, hp.1]) (halone.set w t _) hrel

variable (ht : Turns M begins R G I s)
include ht

theorem turns_over (hi : s.threads[i]? = some (t, p))
    (hp : p.inside begins = false) (hR : R s.world w) : Turns M begins R G I ⟨w, s.threads.set i (t, .ret ())⟩ := by
  cases ht with
  | idle hfree hI =>
    exact .idle (busy_eq_false.mpr (forall_set (busy_eq_false.mp hfree) rfl)) (hS.stable _ _ hI hR)
  | taken j t' p' hj hin halone hrel =>
    have hij : i ≠ j := by
      rintro rfl
      rw [hi] at hj
      cases hj
      simp [hp] at hin
    exact .taken j t' p' (by simp [List.getElem?_set_ne hij, hj]) hin (halone.set_ret w t) (hrel.rely hS.trans hR)

theorem turns_start (t : τ) : Turns M begins R G I ⟨s.world, s.threads ++ [(t, M.program t)]⟩ := by
  cases ht with
  | idle hfree hI =>
    exact .idle (busy_eq_false.mpr (forall_snoc (busy_eq_false.mp hfree) (hS.program_inside t))) hI
  | taken i t' p hi hin halone hrel =>
    have hlt := lt_at hi
    refine .taken i t' p (by simp [List.getElem?_append_left hlt, hi]) hin (fun j x hji hj => ?_) hrel
    by_cases hlj : j < s.threads.length
    · exact halone j x hji (by simpa [List.getElem?_append_left hlj] using hj)
    · simp [List.getElem?_append_right (Nat.le_of_not_lt hlj)] at hj
      rw [List.mem_singleton.mp (List.mem_of_getElem? hj)]
      exact hS.program_inside t

theorem turns_tick (d : Nat) : Turns M begins R G I ⟨M.tick s.world d, s.threads⟩ := by
  cases ht with
  | idle hfree hI => exact .idle hfree (hS.stable _ _ hI (hS.tick _ d))
  | taken i t p hi hin halone hrel => exact .taken i t p hi hin halone (hrel.rely hS.trans (hS.tick _ d))

omit ht

variable (hs : Shaped M begins s)
include hs

theorem shaped_call (hn : M.next s (.call i o) = some s') : Shaped M begins s' := by
  obtain ⟨t, c, k, r, w, hi, -, rfl⟩ := System.next_call hn
  refine forall_set hs (.inr ?_)
  obtain hp | hp := mem_at hs hi
  · obtain ⟨c', k', hp', -, hk⟩ := hS.shape t
    obtain ⟨rfl, hk'⟩ := Prog.call.inj (hp.trans hp')
    rw [eq_of_heq hk']
    exact hk r
  · exact hp.2 r

theorem shaped_step {l : Label τ} (ha : allowed s l) (hn : M.next s l = some s') :
    Shaped M begins s' := by
  cases l with
  | start t =>
    cases hn
    exact forall_snoc hs (.inl rfl)
  | tick d => cases hn; exact hs
  | crash i => exact absurd ha (hS.crash s i)
  | call i o => exact hS.shaped_call hs hn

theorem turns_call (ht : Turns M begins R G I s) (ha : allowed s (.call i o))
    (hn : M.next s (.call i o) = some s') : Turns M begins R G I s' := by
  obtain ⟨t, c, k, r, w, hi, hr, rfl⟩ := System.next_call hn
  obtain ⟨rfl, hrw⟩ := hS.answer_eq hr
  obtain ⟨rfl, rfl⟩ := Prod.mk.inj hrw
  have hlt := lt_at hi
  obtain hp | hp := hs _ (List.mem_of_getElem? hi)
  · obtain ⟨c', k', hp', hc', hk⟩ := hS.shape t
    obtain ⟨rfl, hk'⟩ := Prog.call.inj (hp.trans hp')
    obtain rfl := eq_of_heq hk'
    obtain ⟨hret, hR⟩ | ⟨hfree, henter⟩ := hS.enter s i t c k ha hi hp.symm
    · rw [hret]
      exact hS.turns_over ht hi (by simp [Prog.inside, hc']) hR
    · cases ht with
      | idle _ hI => exact hS.turns_set (alone_of_free hfree i) hlt (hk _) (henter hI)
      | taken j t' p' hj hin _ _ =>
        exact absurd (busy_eq_false.mp hfree _ (List.mem_of_getElem? hj)) (by simp [hin])
  · cases ht with
    | idle hfree _ =>
      exact absurd (busy_eq_false.mp hfree _ (List.mem_of_getElem? hi)) (by simp [Prog.inside, hp.1])
    | taken j t' p' hj hin halone hrel =>
      by_cases hij : i = j
      · subst hij
        obtain ⟨rfl, rfl⟩ := Prod.mk.inj (Option.some.inj (hi.symm.trans hj))
        exact hS.turns_set halone hlt (hp.2 _) (hrel _ (hS.refl _)).2
      · exact absurd (halone i _ hij hi) (by simp [Prog.inside, hp.1])

omit hs

theorem run {ls : List (Label τ)} (hs : Shaped M begins s ∧ Turns M begins R G I s)
    (hr : Run M.next allowed s ls s') : Shaped M begins s' ∧ Turns M begins R G I s' := by
  refine Run.invariant (I := fun s => Shaped M begins s ∧ Turns M begins R G I s) ?_ hs hr
  rintro s l s' ⟨hs, ht⟩ ha hn
  refine ⟨hS.shaped_step hs ha hn, ?_⟩
  cases l with
  | start t => cases hn; exact hS.turns_start ht t
  | tick d => cases hn; exact hS.turns_tick ht d
  | crash i => exact absurd ha (hS.crash s i)
  | call i o => exact hS.turns_call hs ht ha hn

theorem always (ht : Turns M begins R G I s) : G s.world := by
  cases ht with
  | idle _ hI => exact hS.holds _ hI
  | taken _ _ _ _ _ _ hrel => exact hrel.here hS.refl

end Solo

theorem Config.allEnded_eq (h : s.allEnded = true) : ∀ x ∈ s.threads, x.2 = .ret () := by
  intro x hx
  have hx := List.all_eq_true.mp h x hx
  cases hp : x.2 with
  | ret a => rfl
  | call c k => simp [hp, Prog.stopped] at hx

theorem Turns.ended (ht : Turns M begins R G I s) (h : s.allEnded = true) : I s.world := by
  cases ht with
  | idle _ hI => exact hI
  | taken i t p hi hin _ _ =>
    have hp : p = .ret () := allEnded_eq h _ (List.mem_of_getElem? hi)
    simp [hp, Prog.inside] at hin

end

end ForgePlane
