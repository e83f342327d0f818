import Mathlib.Tactic.Common

/-!
# Slash-separated paths

A path as a text and as the list of its components. Components without slashes
are read back from the text they are joined to.
-/

namespace ForgePlane

open List

abbrev Text := List Char

def splitSlash : Text → List Text
  | [] => [[]]
  | c :: s =>
    if c = '/' then [] :: splitSlash s
    else
      match splitSlash s with
      | [] => [[c]]
      | x :: xs => (c :: x) :: xs

def joinSlash : List Text → Text
  | [] => []
  | [x] => x
  | x :: y :: xs => x ++ '/' :: joinSlash (y :: xs)

attribute [local simp] splitSlash joinSlash

variable {x c n s : Text} {xs p cs q stack dir : List Text} {rooted : Bool}

theorem splitSlash_of_not_mem (h : '/' ∉ x) : splitSlash x = [x] := by
  induction x with
  | nil => rfl
  | cons c x ih =>
    simp at h
    simp [splitSlash, Ne.symm h.1, ih h.2]

theorem splitSlash_append (h : '/' ∉ x) (s : Text) : splitSlash (x ++ '/' :: s) = x :: splitSlash s := by
  induction x with
  | nil => simp [splitSlash]
  | cons c x ih =>
    simp at h
    simp [splitSlash, Ne.symm h.1, ih h.2]

theorem splitSlash_ne_nil (s : Text) : splitSlash s ≠ [] := by
  cases s with
  | nil => simp [splitSlash]
  | cons =>
    rw [splitSlash]
    split
    · exact cons_ne_nil _ _
    · split <;> exact cons_ne_nil _ _

theorem splitSlash_slash (a s : Text) : splitSlash (a ++ '/' :: s) = splitSlash a ++ splitSlash s := by
  induction a with
  | nil => simp [splitSlash]
  | cons c a ih =>
    rw [cons_append, splitSlash, splitSlash, ih]
    split
    · rfl
    · cases ha : splitSlash a with
      | nil => exact absurd ha (splitSlash_ne_nil a)
      | cons => rfl

theorem splitSlash_joinSlash (hne : xs ≠ []) (h : ∀ x ∈ xs, '/' ∉ x) :
    splitSlash (joinSlash xs) = xs := by
  induction xs with
  | nil => exact absurd rfl hne
  | cons x xs ih =>
    cases xs with
    | nil => exact splitSlash_of_not_mem (h x (by simp))
    | cons =>
      rw [joinSlash, splitSlash_append (h x (by simp)), ih (by simp) fun z hz => h z (by simp [hz])]

theorem joinSlash_append (hne : xs ≠ []) (x : Text) : joinSlash (xs ++ [x]) = joinSlash xs ++ '/' :: x := by
  induction xs with
  | nil => exact absurd rfl hne
  | cons y ys ih =>
    cases ys with
    | nil => rfl
    | cons =>
      rw [cons_append, cons_append, joinSlash, ← cons_append, ih (by simp)]
      simp [joinSlash]

theorem mem_joinSlash {c : Char} (h : c ∈ joinSlash xs) : c = '/' ∨ ∃ x ∈ xs, c ∈ x := by
  induction xs with
  | nil => cases h
  | cons x xs ih =>
    cases xs with
    | nil => exact .inr ⟨x, by simp, h⟩
    | cons =>
      rw [joinSlash, mem_append, mem_cons] at h
      obtain h | h | h := h
      · exact .inr ⟨x, by simp, h⟩
      · exact .inl h
      · obtain h | ⟨z, hz, hc⟩ := ih h
        · exact .inl h
        · exact .inr ⟨z, by simp [hz], hc⟩

def legalName (x : Text) : Bool := x ≠ [] && x ≠ ['.'] && x ≠ ['.', '.'] && !x.contains '/' && !x.contains '\x00'

theorem legalName_slash (h : legalName x = true) : '/' ∉ x := by
  simp [legalName] at h
  exact h.1.2

theorem legalName_ne (h : legalName c = true) : c ≠ [] ∧ c ≠ ['.'] ∧ c ≠ ['.', '.'] ∧ '\x00' ∉ c := by
  simp [legalName] at h
  obtain ⟨⟨⟨⟨h1, h2⟩, h3⟩, -⟩, h4⟩ := h
  exact ⟨h1, h2, h3, h4⟩

theorem joinSlash_head (xs : List Text) (h : x ≠ []) : (joinSlash (x :: xs)).head? = x.head? := by
  cases x with
  | nil => exact absurd rfl h
  | cons => cases xs <;> rfl

theorem joinSlash_ne_nil (hne : xs ≠ []) (h : ∀ x ∈ xs, x ≠ []) : joinSlash xs ≠ [] := by
  cases xs with
  | nil => exact absurd rfl hne
  | cons x xs =>
    intro hnil
    have hhead := joinSlash_head xs (h x (by simp))
    rw [hnil] at hhead
    cases x with
    | nil => exact h [] (by simp) rfl
    | cons => cases hhead

theorem legal_concat (hp : ∀ c ∈ p, legalName c = true) (hn : legalName n = true) :
    ∀ c ∈ p ++ [n], legalName c = true := by
  intro c hc
  obtain hc | hc := mem_append.mp hc
  · exact hp c hc
  · exact mem_singleton.mp hc ▸ hn

section
variable (hne : p ≠ []) (hp : ∀ c ∈ p, legalName c = true)
include hne hp

theorem splitSlash_legal : splitSlash (joinSlash p) = p := splitSlash_joinSlash hne fun c hc => legalName_slash (hp c hc)

theorem joinSlash_nonempty : joinSlash p ≠ [] := joinSlash_ne_nil hne fun c hc => (legalName_ne (hp c hc)).1

theorem joinSlash_not_rooted : ¬ (joinSlash p).head? = some '/' := by
  obtain ⟨c, p', rfl⟩ := exists_cons_of_ne_nil hne
  rw [joinSlash_head p' (legalName_ne (hp c (by simp))).1]
  intro hhead
  exact legalName_slash (hp c (by simp)) (mem_of_mem_head? hhead)

theorem joinSlash_last : ¬ (joinSlash p).getLast? = some '/' := by
  obtain ⟨dir, n, rfl⟩ : ∃ dir n, p = dir ++ [n] := ⟨_, _, (dropLast_concat_getLast hne).symm⟩
  have hn := hp n (by simp)
  have hlast : (joinSlash (dir ++ [n])).getLast? = n.getLast? := by
    cases dir with
    | nil => rfl
    | cons =>
      obtain ⟨d, n', rfl⟩ := exists_cons_of_ne_nil (legalName_ne hn).1
      rw [joinSlash_append (by simp), List.getLast?_append, List.getLast?_cons_cons, List.getLast?_cons]
      rfl
  rw [hlast]
  intro hslash
  exact legalName_slash hn (mem_of_mem_getLast? hslash)

theorem joinSlash_ne_dot : joinSlash p ≠ ['.'] := by
  intro hdot
  have hsplit := splitSlash_legal hne hp
  rw [hdot, splitSlash_of_not_mem (by decide)] at hsplit
  exact (legalName_ne (hp ['.'] (by simp [← hsplit]))).2.1 rfl

end

def cleanOnto (rooted : Bool) (stack : List Text) (c : Text) : List Text :=
  if c = [] || c = ['.'] then stack
  else if c ≠ ['.', '.'] then c :: stack
  else
    match stack with
    | [] => if rooted then [] else [c]
    | top :: rest => if top = ['.', '.'] then c :: stack else rest

def cleanText (p : Text) : Text :=
  let rooted := p.head? = some '/'
  let cs := ((splitSlash p).foldl (cleanOnto rooted) []).reverse
  if rooted then '/' :: joinSlash cs else if cs.isEmpty then ['.'] else joinSlash cs

theorem cleanOnto_legal (h : legalName c = true) :
    cleanOnto rooted stack c = c :: stack := by
  simp [legalName] at h
  obtain ⟨⟨⟨⟨h1, h2⟩, h3⟩, -⟩, -⟩ := h
  simp [cleanOnto, h1, h2, h3]

theorem foldl_cleanOnto_legal (h : ∀ c ∈ cs, legalName c = true) (stack : List Text) :
    cs.foldl (cleanOnto rooted) stack = cs.reverse ++ stack := by
  induction cs generalizing stack with
  | nil => rfl
  | cons c cs ih =>
    rw [foldl_cons, cleanOnto_legal (h c (by simp)), ih fun c hc => h c (by simp [hc])]
    simp

theorem cleanText_joinSlash (hne : cs ≠ []) (h : ∀ c ∈ cs, legalName c = true) :
    cleanText (joinSlash cs) = joinSlash cs := by
  have hslash : ∀ c ∈ cs, '/' ∉ c := fun c hc => legalName_slash (h c hc)
  have hrooted := joinSlash_not_rooted hne h
  unfold cleanText
  simp [splitSlash_joinSlash hne hslash, foldl_cleanOnto_legal h, hrooted]
  simp [hne]

/-! ## Parts of a path -/

def joinName (directory n : Text) : Text := cleanText (if directory = [] then n else directory ++ '/' :: n)

theorem joinName_joinSlash (hdir : ∀ c ∈ dir, legalName c = true) (hn : legalName n = true) :
    joinName (joinSlash dir) n = joinSlash (dir ++ [n]) := by
  have hlegal := legal_concat hdir hn
  rw [joinName]
  by_cases hnil : dir = []
  · subst hnil
    exact cleanText_joinSlash (by simp) hlegal
  · have hne : joinSlash dir ≠ [] := joinSlash_nonempty hnil hdir
    rw [if_neg hne, ← joinSlash_append hnil, cleanText_joinSlash (by simp) hlegal]

def trimSlash (name : Text) : Text := if name.getLast? = some '/' then name.dropLast else name

theorem trimSlash_dir (name : Text) : trimSlash (name ++ ['/']) = name := by simp [trimSlash]

theorem trimSlash_file (hne : p ≠ []) (hlegal : ∀ c ∈ p, legalName c = true) :
    trimSlash (joinSlash p) = joinSlash p := by
  rw [trimSlash, if_neg (joinSlash_last hne hlegal)]

def dirText (name : Text) : Text :=
  let cs := (splitSlash name).dropLast
  cleanText (if cs.isEmpty then [] else joinSlash cs ++ ['/'])

theorem splitSlash_joinSlash_append (hne : p ≠ []) (hp : ∀ c ∈ p, '/' ∉ c) (s : Text) :
    splitSlash (joinSlash p ++ '/' :: s) = p ++ splitSlash s := by
  induction p with
  | nil => exact absurd rfl hne
  | cons x p ih =>
    have hx := hp x (by simp)
    cases p with
    | nil => exact splitSlash_append hx s
    | cons =>
      rw [joinSlash, append_assoc, cons_append, splitSlash_append hx,
        ih (by simp) fun c hc => hp c (by simp [hc])]
      rfl

theorem cleanText_slash (hne : p ≠ []) (hp : ∀ c ∈ p, legalName c = true) :
    cleanText (joinSlash p ++ ['/']) = joinSlash p := by
  have hslash : ∀ c ∈ p, '/' ∉ c := fun c hc => legalName_slash (hp c hc)
  have hrooted : ¬ (joinSlash p ++ ['/']).head? = some '/' := by
    have hnot := joinSlash_not_rooted hne hp
    obtain ⟨c, name, heq⟩ := exists_cons_of_ne_nil (joinSlash_nonempty hne hp)
    rwa [heq] at hnot ⊢
  unfold cleanText
  simp only [splitSlash_joinSlash_append hne hslash, hrooted, splitSlash, foldl_append, foldl_cleanOnto_legal hp,
    foldl_cons, foldl_nil, cleanOnto]
  simp [hne]

theorem dirText_joinSlash (hne : p ≠ []) (hp : ∀ c ∈ p, legalName c = true) :
    dirText (joinSlash p) = if p.dropLast = [] then ['.'] else joinSlash p.dropLast := by
  rw [dirText, splitSlash_legal hne hp]
  by_cases hnil : p.dropLast = []
  · simp [hnil, cleanText, splitSlash, cleanOnto]
  · simp [hnil]
    exact cleanText_slash hnil fun c hc => hp c (dropLast_subset p hc)

theorem joinSlash_below (hp : p ≠ []) (hlegal : ∀ c ∈ p, legalName c = true) (hq : q ≠ [])
    (hlegal' : ∀ c ∈ q, legalName c = true) (h : joinSlash p ++ ['/'] <+: joinSlash q) : p <+: q := by
  obtain ⟨s, hs⟩ := h
  have hsplit := splitSlash_legal hq hlegal'
  rw [← hs, append_assoc, singleton_append,
    splitSlash_joinSlash_append hp fun c hc => legalName_slash (hlegal c hc)] at hsplit
  exact ⟨splitSlash s, hsplit⟩

theorem joinSlash_inj (hp : p ≠ []) (hlegal : ∀ c ∈ p, legalName c = true) (hq : q ≠ [])
    (hlegal' : ∀ c ∈ q, legalName c = true) (h : joinSlash p = joinSlash q) : p = q := by
  rw [← splitSlash_legal hp hlegal, h,
    splitSlash_legal hq hlegal']

end ForgePlane
