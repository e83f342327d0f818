import Mathlib.Data.List.Basic
import Mathlib.Data.List.Nodup

/-!
# Tables

A table is the list of its rows. `UPDATE … WHERE` maps over the rows that match,
`DELETE … WHERE` filters them out, and a lookup by key takes the first match.
-/

namespace ForgePlane

open List

section
variable {V κ : Type} [DecidableEq κ]

def rowAt (key : V → κ) (t : List V) (k : κ) : Option V := t.find? fun v => key v = k

def updateWhere (p : V → Bool) (f : V → V) (t : List V) : List V := t.map fun v => if p v then f v else v

def deleteWhere (p : V → Bool) (t : List V) : List V := t.filter fun v => !p v

variable {key : V → κ} {t : List V} {k : κ} {v : V}

omit [DecidableEq κ] in
variable {p q : V → Bool} {f : V → V}

theorem mem_updateWhere : v ∈ updateWhere p f t ↔ ∃ u ∈ t, (if p u then f u else u) = v :=
  mem_map

omit [DecidableEq κ] in
theorem updateWhere_none (h : t.any p = false) (f : V → V) : updateWhere p f t = t := by
  refine (map_congr_left fun u hu => if_neg ?_).trans t.map_id
  exact fun hp => Bool.false_ne_true (h.symm.trans (any_eq_true.mpr ⟨u, hu, hp⟩))

theorem rowAt_key (h : rowAt key t k = some v) : key v = k := by
  simpa using List.find?_some h

theorem rowAt_mem (h : rowAt key t k = some v) : v ∈ t := mem_of_find?_eq_some h

theorem rowAt_of_mem (h : (t.map key).Nodup) (hv : v ∈ t) : rowAt key t (key v) = some v := by
  cases hrow : rowAt key t (key v) with
  | none =>
    have := List.find?_eq_none.mp hrow v hv
    simp at this
  | some u => exact congrArg some (inj_on_of_nodup_map h (rowAt_mem hrow) hv (rowAt_key hrow))

theorem rowAt_updateWhere (p : V → Bool) (f : V → V) (hf : ∀ v, key (f v) = key v) :
    rowAt key (updateWhere p f t) k = (rowAt key t k).map fun v => if p v then f v else v := by
  have hk : ∀ v, key (if p v then f v else v) = key v := by
    intro v
    split
    · exact hf v
    · rfl
  induction t with
  | nil => rfl
  | cons v t ih =>
    simp [rowAt, updateWhere, List.find?_cons, hk] at ih ⊢
    by_cases h : key v = k
    · simp [h]
    · simpa [h] using ih

theorem rowAt_updateAt (k' : κ) (f : V → V) (hf : ∀ v, key (f v) = key v) :
    rowAt key (updateWhere (fun v => key v = k') f t) k =
      if k = k' then (rowAt key t k).map f else rowAt key t k := by
  rw [rowAt_updateWhere _ f hf]
  cases h : rowAt key t k with
  | none => simp
  | some v =>
    have := rowAt_key h
    by_cases hk : k = k' <;> simp [this, hk]

theorem rowAt_append (v : V) :
    rowAt key (t ++ [v]) k = (rowAt key t k).or (if key v = k then some v else none) := by
  simp [rowAt, List.find?_append, List.find?_cons, List.find?_nil]
  by_cases h : key v = k <;> simp [h]

omit [DecidableEq κ] in
theorem map_key_updateWhere (p : V → Bool) (f : V → V) (hf : ∀ v, key (f v) = key v) :
    (updateWhere p f t).map key = t.map key := by
  rw [updateWhere, map_map]
  refine map_congr_left fun v _ => ?_
  simp [Function.comp]
  split
  · exact hf v
  · rfl

omit [DecidableEq κ] in
theorem filter_updateWhere (h : ∀ v, p v = true → q v = false ∧ q (f v) = false) :
    (updateWhere p f t).filter q = t.filter q := by
  induction t with
  | nil => rfl
  | cons v t ih =>
    rw [updateWhere, map_cons, ← updateWhere]
    by_cases hp : p v = true
    · rw [if_pos hp, filter_cons_of_neg (by simp [(h v hp).2]), filter_cons_of_neg (by simp [(h v hp).1]), ih]
    · rw [if_neg hp, filter_cons, filter_cons, ih]

omit [DecidableEq κ] in
theorem filter_updateWhere_comm (h : ∀ v, q (f v) = q v) :
    (updateWhere p f t).filter q = updateWhere p f (t.filter q) := by
  induction t with
  | nil => rfl
  | cons v t ih =>
    have hq : q (if p v then f v else v) = q v := by
      split
      · exact h v
      · rfl
    simp [updateWhere, filter_cons, hq] at ih ⊢
    by_cases hv : q v = true
    · simp [hv, ih]
    · simp [hv, ih]

theorem countP_updateAt (p : V → Bool) (f : V → V) (h : (t.map key).Nodup) (hv : v ∈ t) :
    (updateWhere (fun u => key u = key v) f t).countP p + (if p v then 1 else 0) =
      t.countP p + (if p (f v) then 1 else 0) := by
  induction t with
  | nil => cases hv
  | cons u t ih =>
    obtain ⟨hu, ht⟩ := nodup_cons.mp h
    by_cases hk : key u = key v
    · obtain rfl : v = u := by
        obtain rfl | hv := mem_cons.mp hv
        · rfl
        · exact absurd (mem_map.mpr ⟨v, hv, hk.symm⟩) hu
      -- no later row has the key, so the tail is left alone
      have hrest : updateWhere (fun u => key u = key v) f t = t := by
        refine updateWhere_none (any_eq_false.mpr fun u' hu' hk' => hu ?_) f
        exact mem_map.mpr ⟨u', hu', by simpa using hk'⟩
      simp only [updateWhere, map_cons, countP_cons, decide_true, if_true] at hrest ⊢
      rw [hrest]
      omega
    · have ih := ih ht ((mem_cons.mp hv).resolve_left fun he => hk (he ▸ rfl))
      simp [updateWhere, countP_cons, hk] at ih ⊢
      omega

theorem rowAt_eq_none : rowAt key t k = none ↔ k ∉ t.map key := by
  simp [rowAt, List.find?_eq_none]

theorem nodup_snoc (h : (t.map key).Nodup) (hv : key v ∉ t.map key) : ((t ++ [v]).map key).Nodup := by
  rw [map_append]
  refine nodup_append.mpr ⟨h, nodup_singleton _, ?_⟩
  rintro a ha b hb rfl
  exact hv (mem_singleton.mp hb ▸ ha)

theorem nodup_updateWhere (h : (t.map key).Nodup) (hf : ∀ v, key (f v) = key v) :
    ((updateWhere p f t).map key).Nodup := by
  rw [map_key_updateWhere p f hf]
  exact h

theorem countP_updateAt_le (p : V → Bool) (f : V → V) (k : κ) (h : (t.map key).Nodup) :
    (updateWhere (fun v => key v = k) f t).countP p ≤ t.countP p + 1 := by
  by_cases hk : k ∈ t.map key
  · obtain ⟨v, hv, rfl⟩ := mem_map.mp hk
    have := countP_updateAt p f h hv
    split at this <;> split at this <;> omega
  · rw [updateWhere_none (any_eq_false.mpr fun u hu hku => ?_)]
    · exact Nat.le_succ _
    · exact hk (mem_map.mpr ⟨u, hu, of_decide_eq_true hku⟩)

theorem rowAt_deleteAt (k' : κ) :
    rowAt key (deleteWhere (fun v => key v = k') t) k = if k = k' then none else rowAt key t k := by
  simp [rowAt, deleteWhere, List.find?_filter]
  by_cases hk : k = k'
  · subst hk
    simp [List.find?_eq_none]
  · rw [if_neg hk]
    congr 1
    funext v
    by_cases hv : key v = k <;> simp [hv, hk]

end

end ForgePlane
