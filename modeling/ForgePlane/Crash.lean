import ForgePlane.Prog

/-!
# Programs that fail and crash

A call comes back in one of several ways, and a run can be cut off at any call. A
program survives if a crash condition holds wherever it is cut off, and what it
promises holds where it returns.
-/

namespace ForgePlane

variable {Call : Type} {Resp : Call → Type} {W α β ε : Type}

/-- `D w c r w'`: the call `c` can come back with `r` and leave `w'`. -/
abbrev Device (Resp : Call → Type) (W : Type) := W → (c : Call) → Resp c → W → Prop

/-- A run ends with a value, or with none if it was cut off. A call that is cut off leaves the world as it was, or as
one of its returns does. -/
def RunsTo (D : Device Resp W) : Prog Resp α → W → Option α → W → Prop
  | .ret a, w, o, w' => o = some a ∧ w' = w
  | .call c k, w, o, w' => (o = none ∧ (w' = w ∨ ∃ r, D w c r w')) ∨ ∃ r m, D w c r m ∧ RunsTo D (k r) m o w'

variable {c : Call} {k : Resp c → Prog Resp α} {w w' m : W} {o : Option α} {p : Prog Resp α} {P : Call → Prop}
variable {I : W → Prop} {f : α → Prog Resp (Except ε β)} {D : Device Resp W}

theorem RunsTo.step {r : Resp c}
    (hr : D w c r m) (h : RunsTo D (k r) m o w') : RunsTo D (.call c k) w o w' := .inr ⟨r, m, hr, h⟩

theorem RunsTo.cut : RunsTo D (.call c k) w none w :=
  .inl ⟨rfl, .inl rfl⟩

/-- `C` holds wherever the program can be cut off, and `Φ` where it returns. -/
def Survives (D : Device Resp W) (C : W → Prop) (Φ : α → W → Prop) : Prog Resp α → W → Prop
  | .ret a, w => Φ a w
  | .call c k, w => C w ∧ ∀ r w', D w c r w' → C w' ∧ Survives D C Φ (k r) w'

variable {D : Device Resp W} {C C' : W → Prop} {Φ Ψ : α → W → Prop}

variable (hp : Survives D C Φ p w)
include hp

theorem Survives.runsTo (h : RunsTo D p w o w') :
    (o = none ∧ C w') ∨ ∃ a, o = some a ∧ Φ a w' := by
  induction p generalizing w with
  | ret a =>
    obtain ⟨rfl, rfl⟩ := h
    exact .inr ⟨a, rfl, hp⟩
  | call c k ih =>
    obtain ⟨hnow, hnext⟩ := hp
    rcases h with ⟨rfl, rfl | ⟨r, hr⟩⟩ | ⟨r, m, hr, hrest⟩
    · exact .inl ⟨rfl, hnow⟩
    · exact .inl ⟨rfl, (hnext r _ hr).1⟩
    · exact ih r (hnext r m hr).2 hrest

theorem Survives.mono (hC : ∀ w, C w → C' w)
    (hΦ : ∀ a w, Φ a w → Ψ a w) : Survives D C' Ψ p w := by
  induction p generalizing w with
  | ret a => exact hΦ a w hp
  | call c k ih => exact ⟨hC w hp.1, fun r w' hr => ⟨hC w' (hp.2 r w' hr).1, ih r (hp.2 r w' hr).2⟩⟩

theorem Survives.bind {f : α → Prog Resp β} {Θ : β → W → Prop}
    (hf : ∀ a w', Φ a w' → Survives D C Θ (f a) w') : Survives D C Θ (p >>= f) w := by
  induction p generalizing w with
  | ret a => exact hf a w hp
  | call c k ih => exact ⟨hp.1, fun r w' hr => ⟨(hp.2 r w' hr).1, ih r (hp.2 r w' hr).2⟩⟩

omit hp

theorem All.survives (hkeep : ∀ w c r w', P c → I w → D w c r w' → I w')
    (hp : All P p) (hw : I w) : Survives D I (fun _ => I) p w := by
  induction p generalizing w with
  | ret => exact hw
  | call c k ih =>
    refine ⟨hw, ?_⟩
    intro r w' hr
    have hw' := hkeep w c r w' hp.1 hw hr
    exact ⟨hw', ih r (hp.2 r) hw'⟩

/-! ## One program after another -/

def Attempts (D : Device Resp W) : List (Prog Resp α) → W → W → Prop
  | [], w, w' => w' = w
  | p :: ps, w, w' => ∃ o m, RunsTo D p w o m ∧ Attempts D ps m w'

theorem Attempts.invariant {ps : List (Prog Resp α)}
    (hps : ∀ p ∈ ps, ∀ w, I w → Survives D I (fun _ => I) p w) (hw : I w) (h : Attempts D ps w w') :
    I w' := by
  induction ps generalizing w with
  | nil =>
    obtain rfl := h
    exact hw
  | cons p ps ih =>
    obtain ⟨o, m, hrun, hrest⟩ := h
    have hm : I m := by
      obtain ⟨-, hm⟩ | ⟨a, -, hm⟩ := (hps p (by simp) w hw).runsTo hrun
      · exact hm
      · exact hm
    exact ih (fun p hp => hps p (by simp [hp])) hm hrest

/-! ## Results that can be errors -/

def Prog.andThen (p : Prog Resp (Except ε α)) (f : α → Prog Resp (Except ε β)) : Prog Resp (Except ε β) :=
  p >>= fun
    | .error e => .ret (.error e)
    | .ok a => f a

theorem All.andThen {p : Prog Resp (Except ε α)} (hp : All P p)
    (hf : ∀ a, All P (f a)) : All P (p.andThen f) := by
  refine hp.bind ?_
  intro res
  cases res with
  | error => trivial
  | ok a => exact hf a

theorem Survives.andThen {p : Prog Resp (Except ε α)} {Θ : Except ε α → W → Prop}
    {Ω : Except ε β → W → Prop} (hp : Survives D C Θ p w) (herr : ∀ e w', Θ (.error e) w' → Ω (.error e) w')
    (hok : ∀ a w', Θ (.ok a) w' → Survives D C Ω (f a) w') : Survives D C Ω (p.andThen f) w := by
  refine hp.bind ?_
  intro res w' hres
  cases res with
  | error e => exact herr e w' hres
  | ok a => exact hok a w' hres

end ForgePlane
