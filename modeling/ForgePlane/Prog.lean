import Mathlib.Tactic.Common

/-!
# Interaction programs

A program is a tree of typed calls: it stops with a value, or makes a call and continues with the
response. What a call does is left to the world the program runs in.
-/

namespace ForgePlane

inductive Prog {Call : Type} (Resp : Call → Type) (α : Type) where
  | ret (a : α)
  | call (c : Call) (k : Resp c → Prog Resp α)

variable {Call W ε Call' : Type} {Resp : Call → Type} {w w' : W} {Resp' : Call' → Type} {emb : Call → Call'}
variable {handle : W → (c : Call) → Resp c × W} {back : (c : Call) → Resp' (emb c) → Resp c}

theorem forall_result {α : Type} {P : Except ε α → Prop} (hok : ∀ a, P (.ok a))
    (herror : ∀ e, P (.error e) := by intros; trivial) : ∀ r, P r
  | .error e => herror e
  | .ok a => hok a

namespace Prog

variable {α β γ : Type}

def bind : Prog Resp α → (α → Prog Resp β) → Prog Resp β
  | ret a, f => f a
  | call c k, f => call c fun r => (k r).bind f

instance : Monad (Prog Resp) where
  pure := ret
  bind := bind

@[simp] theorem pure_def (a : α) : (pure a : Prog Resp α) = ret a := rfl

@[simp] theorem ret_bind (a : α) (f : α → Prog Resp β) : (ret a : Prog Resp α) >>= f = f a := rfl

@[simp] theorem call_bind (c : Call) (k : Resp c → Prog Resp α) (f : α → Prog Resp β) :
    call c k >>= f = call c fun r => k r >>= f := rfl

theorem bind_assoc (p : Prog Resp α) (f : α → Prog Resp β) (g : β → Prog Resp γ) :
    p >>= f >>= g = p >>= fun a => f a >>= g := by
  induction p with
  | ret => rfl
  | call c k ih => simp [ih]

def exec {W : Type} (handle : W → (c : Call) → Resp c × W) : Prog Resp α → W → α × W
  | ret a, w => (a, w)
  | call c k, w => exec handle (k (handle w c).1) (handle w c).2

def calls {W : Type} (handle : W → (c : Call) → Resp c × W) : Prog Resp α → W → List Call
  | ret _, _ => []
  | call c k, w => c :: calls handle (k (handle w c).1) (handle w c).2

def lift {Call' : Type} {Resp' : Call' → Type} (emb : Call → Call') (back : (c : Call) → Resp' (emb c) → Resp c) :
    Prog Resp α → Prog Resp' α
  | ret a => ret a
  | call c k => call (emb c) fun r => lift emb back (k (back c r))

@[simp] theorem exec_ret (a : α) : exec handle (ret a) w = (a, w) := rfl

@[simp] theorem exec_call (c : Call) (k : Resp c → Prog Resp α) :
    exec handle (call c k) w = exec handle (k (handle w c).1) (handle w c).2 := rfl

theorem exec_bind (p : Prog Resp α) (f : α → Prog Resp β) :
    exec handle (p >>= f) w = exec handle (f (exec handle p w).1) (exec handle p w).2 := by
  induction p generalizing w with
  | ret => rfl
  | call c k ih => exact ih _

theorem exec_ok {p : Prog Resp (Except ε α)} {f : Except ε α → Prog Resp (Except ε β)} {b : β}
    (h : exec handle (p >>= f) w = (.ok b, w')) (herror : ∀ e, f (.error e) = ret (.error e)) :
    ∃ a m, exec handle p w = (.ok a, m) ∧ exec handle (f (.ok a)) m = (.ok b, w') := by
  rw [exec_bind] at h
  rcases hp : exec handle p w with ⟨_ | a, m⟩
  · rw [hp, herror] at h
    cases h
  · rw [hp] at h
    exact ⟨a, m, rfl, h⟩

theorem calls_bind (p : Prog Resp α) (f : α → Prog Resp β) :
    calls handle (p >>= f) w = calls handle p w ++ calls handle (f (exec handle p w).1) (exec handle p w).2 := by
  induction p generalizing w with
  | ret => rfl
  | call c k ih => exact congrArg (c :: ·) (ih _)

end Prog

/-! ## Monitors

A monitor watches the calls of one program and the answers they get; `wp M p Φ m`
says that from the monitor state `m` every call of `p` is one the monitor admits,
whatever it is answered among the answers the monitor expects, and that `Φ` holds
where `p` stops. -/

structure Monitor {Call : Type} (Resp : Call → Type) (μ : Type) where
  admits : μ → Call → Prop
  expects : μ → (c : Call) → Resp c → Prop := fun _ _ _ => True
  next : μ → (c : Call) → Resp c → μ

section
variable {α β μ : Type} {M : Monitor Resp μ}

def wp (M : Monitor Resp μ) : Prog Resp α → (α → μ → Prop) → μ → Prop
  | .ret a, Φ, m => Φ a m
  | .call c k, Φ, m => M.admits m c ∧ ∀ r, M.expects m c r → wp M (k r) Φ (M.next m c r)

variable {p : Prog Resp α} {Φ : α → μ → Prop} {Ψ : β → μ → Prop} {m : μ}
variable {f : α → Prog Resp β}

@[simp] theorem wp_ret (a : α) (Φ : α → μ → Prop) (m : μ) : wp M (.ret a : Prog Resp α) Φ m ↔ Φ a m := Iff.rfl

@[simp] theorem wp_call (c : Call) (k : Resp c → Prog Resp α) (Φ : α → μ → Prop) (m : μ) :
    wp M (.call c k) Φ m ↔ M.admits m c ∧ ∀ r, M.expects m c r → wp M (k r) Φ (M.next m c r) := Iff.rfl

theorem wp_mono {Ψ : α → μ → Prop} (h : ∀ a m, Φ a m → Ψ a m) :
    ∀ {m : μ}, wp M p Φ m → wp M p Ψ m := by
  induction p with
  | ret a => exact fun {m} hp => h a m hp
  | call c k ih => exact fun {m} hp => ⟨hp.1, fun r hr => ih r (hp.2 r hr)⟩

theorem wp_bind (p : Prog Resp α) (f : α → Prog Resp β) (Φ : β → μ → Prop) :
    ∀ m, wp M (p >>= f) Φ m ↔ wp M p (fun a m => wp M (f a) Φ m) m := by
  induction p with
  | ret => exact fun m => Iff.rfl
  | call c k ih =>
    intro m
    simp [ih]

theorem wp_seq (h : wp M p (fun a m => wp M (f a) Ψ m) m) : wp M (p >>= f) Ψ m :=
  (wp_bind p f Ψ m).mpr h

theorem wp_then (hp : wp M p Φ m) (hf : ∀ a m', Φ a m' → wp M (f a) Ψ m') : wp M (p >>= f) Ψ m :=
  wp_seq (wp_mono hf hp)

theorem wp_ok {p : Prog Resp (Except ε α)} {Φ : Except ε α → μ → Prop} {f : Except ε α → Prog Resp β}
    (hp : wp M p Φ m) (hok : ∀ a m', Φ (.ok a) m' → wp M (f (.ok a)) Ψ m')
    (herror : ∀ e m', Φ (.error e) m' → wp M (f (.error e)) Ψ m' := by intros; trivial) : wp M (p >>= f) Ψ m :=
  wp_then hp (forall_result hok herror)

theorem wp_ask {c : Call} {f : Resp c → Prog Resp β} (hc : M.admits m c)
    (hf : ∀ r, M.expects m c r → wp M (f r) Ψ (M.next m c r)) : wp M (.call c .ret >>= f) Ψ m :=
  ⟨hc, hf⟩

def Monitor.pull {Call' : Type} {Resp' : Call' → Type} (M : Monitor Resp' μ) (emb : Call → Call')
    (forth : (c : Call) → Resp c → Resp' (emb c)) : Monitor Resp μ where
  admits m c := M.admits m (emb c)
  expects m c r := M.expects m (emb c) (forth c r)
  next m c r := M.next m (emb c) (forth c r)

theorem wp_lift {N : Monitor Resp' μ} {forth : (c : Call) → Resp c → Resp' (emb c)} (hback : ∀ c r, forth c (back c r) = r) :
    ∀ {m : μ}, wp (N.pull emb forth) p Φ m → wp N (p.lift emb back) Φ m := by
  induction p with
  | ret => exact fun h => h
  | call c k ih =>
    refine fun {m} h => ⟨h.1, fun r hr => ih _ ?_⟩
    have hk := h.2 (back c r)
    simp [Monitor.pull, hback] at hk
    exact hk hr

end

/-! ## Calls a program can still make -/

section
variable {α β : Type}

def All (P : Call → Prop) : Prog Resp α → Prop
  | .ret _ => True
  | .call c k => P c ∧ ∀ r, All P (k r)

variable {P Q : Call → Prop} {p : Prog Resp α} {μ : Type} {M : Monitor Resp μ} {L : μ → Prop} {m : μ}
@[simp] theorem All_ret (P : Call → Prop) (a : α) : All P (.ret a : Prog Resp α) := trivial

@[simp] theorem All_call (P : Call → Prop) (c : Call) (k : Resp c → Prog Resp α) :
    All P (.call c k) ↔ P c ∧ ∀ r, All P (k r) := Iff.rfl

theorem All.bind {f : α → Prog Resp β}
    (hp : All P p) (hf : ∀ a, All P (f a)) : All P (p >>= f) := by
  induction p with
  | ret a => exact hf a
  | call c k ih => exact ⟨hp.1, fun r => ih r (hp.2 r)⟩

theorem All.ok {p : Prog Resp (Except ε α)} {f : Except ε α → Prog Resp β} (hp : All P p)
    (hok : ∀ a, All P (f (.ok a))) (herror : ∀ e, All P (f (.error e)) := by intros; trivial) : All P (p >>= f) :=
  hp.bind (forall_result hok herror)

theorem All.lift {P : Call' → Prop} (hp : All (fun c => P (emb c)) p) : All P (p.lift emb back) := by
  induction p with
  | ret => trivial
  | call c k ih => exact ⟨hp.1, fun r => ih _ (hp.2 _)⟩

theorem All.mono (h : ∀ c, P c → Q c) (hp : All P p) : All Q p := by
  induction p with
  | ret => trivial
  | call c k ih => exact ⟨h c hp.1, fun r => ih r (hp.2 r)⟩

theorem All.exec {I : W → Prop} (hstep : ∀ w c, P c → I w → I (handle w c).2) (hp : All P p) (hw : I w) :
    I (p.exec handle w).2 := by
  induction p generalizing w with
  | ret => exact hw
  | call c k ih => exact ih _ (hp.2 _) (hstep w c hp.1 hw)

theorem All.calls (hp : All P p) : ∀ c ∈ p.calls handle w, P c := by
  induction p generalizing w with
  | ret => exact nofun
  | call c k ih => exact List.forall_mem_cons.mpr ⟨hp.1, ih _ (hp.2 _)⟩

def Monitor.Silent {μ : Type} (M : Monitor Resp μ) (L : μ → Prop) (c : Call) : Prop :=
  ∀ m, L m → M.admits m c ∧ ∀ r, M.expects m c r → M.next m c r = m

theorem All.wp (hp : All (M.Silent L) p)
    {Φ : α → μ → Prop} (hL : L m) (hΦ : ∀ a, Φ a m) : wp M p Φ m := by
  induction p with
  | ret a => exact hΦ a
  | call c k ih =>
    refine ⟨(hp.1 m hL).1, fun r hr => ?_⟩
    rw [(hp.1 m hL).2 r hr]
    exact ih r (hp.2 r)

def Monitor.Keeps {μ : Type} (M : Monitor Resp μ) (L : μ → Prop) (c : Call) : Prop :=
  ∀ m, L m → M.admits m c ∧ ∀ r, M.expects m c r → L (M.next m c r)

theorem All.keeps (hp : All (M.Keeps L) p)
    (hL : L m) : ForgePlane.wp M p (fun _ => L) m := by
  induction p generalizing m with
  | ret => exact hL
  | call c k ih => exact ⟨(hp.1 m hL).1, fun r hr => ih r (hp.2 r) ((hp.1 m hL).2 r hr)⟩

def Monitor.always (P : Call → Prop) : Monitor Resp Unit where
  admits _ c := P c
  next m _ _ := m

theorem wp.all {Φ : α → Unit → Prop}
    (h : ForgePlane.wp (.always P) p Φ ()) : All P p := by
  induction p with
  | ret => trivial
  | call c k ih => exact ⟨h.1, fun r => ih r (h.2 r trivial)⟩

end

end ForgePlane
