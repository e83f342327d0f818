import ForgePlane.Threads

/-!
# A ghost for each thread

An invariant that ties several threads to each other, such as who may still do what,
is stated over the monitor states of all threads in their order. What one call of
one thread does to its own ghost and to the world is all that has to be shown.
-/

namespace ForgePlane

open List

section
variable {S L : Type} {next : S → L → Option S} {allowed : S → L → Prop}

theorem Run.with_invariant {I : S → Prop} (step : ∀ s l s', I s → allowed s l → next s l = some s' → I s') :
    ∀ {ls : List L} {s s' : S}, I s → Run next allowed s ls s' → Run next (fun s l => I s ∧ allowed s l) s ls s'
  | [], _, _, _, h => h
  | l :: _, s, _, hi, ⟨ha, m, hm, h⟩ => ⟨⟨hi, ha⟩, m, hm, Run.with_invariant step (step s l m hi ha hm) h⟩

end

variable {a b j : Nat} {α : Type} {l : List α} {y z x : α} {p : α → Bool} {R : α → α → Prop}
variable {i : Nat}

theorem set_cases (h : (l.set i x)[j]? = some y) : (j = i ∧ y = x) ∨ (j ≠ i ∧ l[j]? = some y) := by
  by_cases hji : j = i
  · subst hji
    rw [List.getElem?_set_self'] at h
    obtain ⟨-, -, rfl⟩ := Option.map_eq_some_iff.mp h
    exact .inl ⟨rfl, rfl⟩
  · rw [List.getElem?_set_ne (Ne.symm hji)] at h
    exact .inr ⟨hji, h⟩

theorem set_same (h : l[i]? = some x) : l.set i x = l := by
  obtain ⟨hlt, rfl⟩ := List.getElem?_eq_some_iff.mp h
  exact set_getElem_self hlt

theorem snoc_cases (h : (l ++ [x])[j]? = some y) : (j = l.length ∧ y = x) ∨ l[j]? = some y := by
  by_cases hlt : j < l.length
  · rw [List.getElem?_append_left hlt] at h
    exact .inr h
  · rw [List.getElem?_append_right (Nat.le_of_not_lt hlt), List.getElem?_singleton] at h
    split at h
    · rename_i hz
      exact .inl ⟨by omega, (Option.some.inj h).symm⟩
    · cases h

theorem pair_set (h : ∀ (a b : Nat) y z, a ≠ b → l[a]? = some y → l[b]? = some z → R y z)
    (hnew : ∀ (j : Nat) y, j ≠ i → l[j]? = some y → R x y ∧ R y x) (hab : a ≠ b)
    (ha : (l.set i x)[a]? = some y) (hb : (l.set i x)[b]? = some z) : R y z := by
  obtain ⟨rfl, rfl⟩ | ⟨hai, hold⟩ := set_cases ha
  · obtain ⟨rfl, -⟩ | ⟨hbi, hold⟩ := set_cases hb
    · exact absurd rfl hab
    · exact (hnew b z hbi hold).1
  · obtain ⟨rfl, rfl⟩ | ⟨-, hold'⟩ := set_cases hb
    · exact (hnew a y hai hold).2
    · exact h a b y z hab hold hold'

theorem pair_snoc
    (h : ∀ (a b : Nat) y z, a ≠ b → l[a]? = some y → l[b]? = some z → R y z) (hnew : ∀ y ∈ l, R x y ∧ R y x)
    (hab : a ≠ b) (ha : (l ++ [x])[a]? = some y) (hb : (l ++ [x])[b]? = some z) : R y z := by
  obtain ⟨rfl, rfl⟩ | hold := snoc_cases ha
  · obtain ⟨rfl, -⟩ | hold := snoc_cases hb
    · exact absurd rfl hab
    · exact (mem_at hnew hold).1
  · obtain ⟨-, rfl⟩ | hold' := snoc_cases hb
    · exact (mem_at hnew hold).2
    · exact h a b y z hab hold hold'

theorem countP_exchange (p : α → Bool) (h : l[i]? = some x) :
    (l.set i y).countP p + (if p x then 1 else 0) = l.countP p + (if p y then 1 else 0) := by
  obtain ⟨hi, rfl⟩ := List.getElem?_eq_some_iff.mp h
  have hpos : p l[i] = true → 0 < l.countP p := fun hp => countP_pos_iff.mpr ⟨l[i], getElem_mem hi, hp⟩
  rw [countP_set hi]
  by_cases hp : p l[i] = true
  · have := hpos hp
    simp [hp]
    omega
  · simp only [hp, if_false, Bool.false_eq_true]
    omega

theorem countP_set_only : ∀ {l : List α} {i : Nat} {x y : α}, l[i]? = some x →
    (∀ (j : Nat) z, j ≠ i → l[j]? = some z → p z = false) → (l.set i y).countP p = if p y then 1 else 0
  | [], _, _, _, hi, _ => by cases hi
  | a :: l, 0, _, y, _, h => by
    have hzero : l.countP p = 0 := by
      refine countP_eq_zero.mpr fun z hz => ?_
      obtain ⟨j, hj⟩ := List.getElem?_of_mem hz
      exact Bool.eq_false_iff.mp (h (j + 1) z (Nat.succ_ne_zero j) hj)
    rw [set_cons_zero, countP_cons, hzero, Nat.zero_add]
  | a :: l, i + 1, _, y, hi, h => by
    rw [set_cons_succ, countP_cons, h 0 a (Nat.succ_ne_zero i).symm rfl]
    exact countP_set_only (l := l) hi fun j z hj hz => h (j + 1) z (fun he => hj (Nat.succ.inj he)) hz

theorem countP_alone : ∀ {l : List α} {i j : Nat} {x y : α}, l.countP p ≤ 1 → l[i]? = some x →
    p x = true → j ≠ i → l[j]? = some y → p y = false
  | [], _, _, _, _, _, hi, _, _, _ => by cases hi
  | a :: l, i, j, x, y, h, hi, hx, hji, hj => by
    rw [countP_cons] at h
    match i, j with
    | 0, 0 => exact absurd rfl hji
    | 0, j + 1 =>
      cases hi
      rw [if_pos hx] at h
      have hzero : l.countP p = 0 := by omega
      exact Bool.eq_false_iff.mpr (countP_eq_zero.mp hzero y (mem_of_getElem? hj))
    | i + 1, 0 =>
      cases hj
      have hpos : 0 < l.countP p := countP_pos_iff.mpr ⟨x, mem_of_getElem? hi, hx⟩
      refine Bool.eq_false_iff.mpr fun hy => ?_
      rw [if_pos hy] at h
      omega
    | i + 1, j + 1 => exact countP_alone (l := l) (by omega) hi hx (fun he => hji (congrArg (· + 1) he)) hj

section
variable {Call : Type} {Resp : Call → Type} {τ W μ : Type}

def Follows (F : τ × Prog Resp Unit → μ → Prop) (threads : List (τ × Prog Resp Unit)) (g : List μ) : Prop :=
  g.length = threads.length ∧ ∀ (i : Nat) x m, threads[i]? = some x → g[i]? = some m → F x m

variable {F : τ × Prog Resp Unit → μ → Prop} {threads : List (τ × Prog Resp Unit)} {g : List μ}

theorem Follows.nil : Follows F ([] : List (τ × Prog Resp Unit)) [] := ⟨rfl, fun _ _ _ h => by simp at h⟩

variable {x : τ × Prog Resp Unit} {m : μ}

variable (h : Follows F threads g)
include h

theorem Follows.at (hi : threads[i]? = some x) : ∃ m, g[i]? = some m ∧ F x m := by
  have hlt : i < g.length := h.1 ▸ lt_at hi
  exact ⟨g[i], List.getElem?_eq_getElem hlt, h.2 i x _ hi (List.getElem?_eq_getElem hlt)⟩

theorem Follows.of (hi : g[i]? = some m) : ∃ x, threads[i]? = some x ∧ F x m := by
  have hlt : i < threads.length := h.1 ▸ lt_at hi
  exact ⟨threads[i], List.getElem?_eq_getElem hlt, h.2 i _ m (List.getElem?_eq_getElem hlt) hi⟩

theorem Follows.snoc (hm : F x m) : Follows F (threads ++ [x]) (g ++ [m]) := by
  refine ⟨by simp [h.1], fun j y n hy hn => ?_⟩
  by_cases hj : j < threads.length
  · rw [List.getElem?_append_left hj] at hy
    rw [List.getElem?_append_left (h.1 ▸ hj)] at hn
    exact h.2 j y n hy hn
  · rw [List.getElem?_append_right (Nat.le_of_not_lt hj)] at hy
    rw [List.getElem?_append_right (h.1 ▸ Nat.le_of_not_lt hj), h.1] at hn
    rw [mem_singleton.mp (mem_of_getElem? hy), mem_singleton.mp (mem_of_getElem? hn)]
    exact hm

theorem Follows.set (hm : F x m) : Follows F (threads.set i x) (g.set i m) := by
  refine ⟨by simp [h.1], fun j y n hy hn => ?_⟩
  by_cases hij : i = j
  · subst hij
    rw [List.getElem?_set_self'] at hy hn
    obtain ⟨y', -, rfl⟩ := Option.map_eq_some_iff.mp hy
    obtain ⟨n', -, rfl⟩ := Option.map_eq_some_iff.mp hn
    exact hm
  · rw [List.getElem?_set_ne hij] at hy hn
    exact h.2 j y n hy hn

omit h

def Ghosted (F : τ × Prog Resp Unit → μ → Prop) (G : W → List μ → Prop) (s : Config Resp τ W) : Prop :=
  ∃ g, Follows F s.threads g ∧ G s.world g

structure GhostInv (M : System Resp τ W) (allowed : Config Resp τ W → Label τ → Prop) (F : τ × Prog Resp Unit → μ → Prop)
    (G : W → List μ → Prop) : Prop where
  start : ∀ s t g, allowed s (.start t) → Follows F s.threads g → G s.world g →
    ∃ m, F (t, M.program t) m ∧ G s.world (g ++ [m])
  tick : ∀ s d g, allowed s (.tick d) → Follows F s.threads g → G s.world g → G (M.tick s.world d) g
  crash : ∀ s i t p g m, allowed s (.crash i) → s.threads[i]? = some (t, p) → Follows F s.threads g → g[i]? = some m →
    F (t, p) m → G s.world g → ∃ m', F (t, .ret ()) m' ∧ G s.world (g.set i m')
  call : ∀ s i o t c k r w g m, allowed s (.call i o) → s.threads[i]? = some (t, .call c k) → Follows F s.threads g →
    g[i]? = some m → F (t, .call c k) m → G s.world g → M.answer s.world c o = some (r, w) →
    ∃ m', F (t, k r) m' ∧ G w (g.set i m')

variable {M : System Resp τ W} {allowed : Config Resp τ W → Label τ → Prop} {G : W → List μ → Prop}
variable {s s' : Config Resp τ W}

theorem GhostInv.step (h : GhostInv M allowed F G) {l : Label τ} (hs : Ghosted F G s) (ha : allowed s l)
    (hn : M.next s l = some s') : Ghosted F G s' := by
  obtain ⟨g, hg, hG⟩ := hs
  cases l with
  | start t =>
    cases hn
    obtain ⟨m, hm, hG'⟩ := h.start s t g ha hg hG
    exact ⟨g ++ [m], hg.snoc hm, hG'⟩
  | tick d =>
    cases hn
    exact ⟨g, hg, h.tick s d g ha hg hG⟩
  | crash i =>
    obtain ⟨t, p, hi, rfl⟩ := System.next_crash hn
    obtain ⟨m, hm, hF⟩ := hg.at hi
    obtain ⟨m', hF', hG'⟩ := h.crash s i t p g m ha hi hg hm hF hG
    exact ⟨g.set i m', hg.set hF', hG'⟩
  | call i o =>
    obtain ⟨t, c, k, r, w, hi, hr, rfl⟩ := System.next_call hn
    obtain ⟨m, hm, hF⟩ := hg.at hi
    obtain ⟨m', hF', hG'⟩ := h.call s i o t c k r w g m ha hi hg hm hF hG hr
    exact ⟨_, hg.set hF', hG'⟩

theorem GhostInv.run (h : GhostInv M allowed F G) {ls : List (Label τ)} (hs : Ghosted F G s)
    (hr : Run M.next allowed s ls s') : Ghosted F G s' :=
  Run.invariant (I := Ghosted F G) (fun _ _ _ hs ha hn => h.step hs ha hn) hs hr

def Watched (N : Monitor Resp μ) (x : τ × Prog Resp Unit) (m : μ) : Prop := wp N x.2 (fun _ _ => True) m

end

end ForgePlane
