import ForgePlane.Paths

/-!
# Directory trees and their listings

A directory tree, the list of everything in it with a directory before what it
holds, and what a tree written entry by entry in that order comes out as.
-/

namespace ForgePlane.Folders

open List

abbrev Location := List Text

mutual

inductive Object (β κ : Type)
  | dir (entries : Folder β κ)
  | file (body : β)
  | symlink
  | special (kind : κ)

inductive Folder (β κ : Type)
  | nil
  | cons (name : Text) (object : Object β κ) (rest : Folder β κ)

end

inductive Item (β κ : Type)
  | dir
  | file (body : β)
  | symlink
  | special (kind : κ)

variable {β κ : Type}

def Folder.names : Folder β κ → List Text
  | .nil => []
  | .cons n _ rest => n :: rest.names

mutual

def Object.legal : Object β κ → Bool
  | .dir f => f.legal
  | _ => true

def Folder.legal : Folder β κ → Bool
  | .nil => true
  | .cons n x rest => legalName n && !rest.names.contains n && x.legal && rest.legal

end

structure FileTree (β κ : Type) where
  root : Folder β κ
  legal : root.legal = true

mutual

def Object.listing (path : Location) : Object β κ → List (Location × Item β κ)
  | .dir f => (path, .dir) :: f.listing path
  | .file b => [(path, .file b)]
  | .symlink => [(path, .symlink)]
  | .special k => [(path, .special k)]

def Folder.listing (dir : Location) : Folder β κ → List (Location × Item β κ)
  | .nil => []
  | .cons n x rest => x.listing (dir ++ [n]) ++ rest.listing dir

end

mutual

def Object.at : Object β κ → Location → Option (Item β κ)
  | .dir _, [] => some .dir
  | .dir f, n :: p => f.at (n :: p)
  | .file b, [] => some (.file b)
  | .symlink, [] => some .symlink
  | .special k, [] => some (.special k)
  | _, _ :: _ => none

def Folder.at : Folder β κ → Location → Option (Item β κ)
  | .nil, _ => none
  | .cons _ _ _, [] => none
  | .cons n x rest, m :: p => if m = n then x.at p else rest.at (m :: p)

end

mutual

def Object.prune (skip : Location → Object β κ → Bool) (path : Location) : Object β κ → Object β κ
  | .dir f => .dir (f.prune skip path)
  | x => x

def Folder.prune (skip : Location → Object β κ → Bool) (dir : Location) : Folder β κ → Folder β κ
  | .nil => .nil
  | .cons n x rest =>
    if skip (dir ++ [n]) x then rest.prune skip dir
    else .cons n (x.prune skip (dir ++ [n])) (rest.prune skip dir)

end

variable {dir p done rest path : Location} {n c : Text} {x : Object β κ} {i j : Item β κ} {before l₁ l₂ l : List (Location × Item β κ)}

theorem Folder.mem_names_prune {skip : Location → Object β κ → Bool} :
    ∀ f : Folder β κ, n ∈ (f.prune skip dir).names → n ∈ f.names
  | .nil, h => h
  | .cons m x rest, h => by
    rw [Folder.prune] at h
    rw [Folder.names]
    split at h
    · exact mem_cons_of_mem _ (Folder.mem_names_prune rest h)
    · obtain rfl | h := mem_cons.mp h
      · exact mem_cons_self
      · exact mem_cons_of_mem _ (Folder.mem_names_prune rest h)

theorem Folder.legal_cons {rest : Folder β κ} :
    (Folder.cons n x rest).legal = true ↔
      legalName n = true ∧ n ∉ rest.names ∧ x.legal = true ∧ rest.legal = true := by
  simp [Folder.legal, and_assoc]

mutual

theorem Object.legal_prune (skip : Location → Object β κ → Bool) (path : Location) :
    ∀ x : Object β κ, x.legal = true → (x.prune skip path).legal = true
  | .dir f, h => Folder.legal_prune skip path f h
  | .file _, h => h
  | .symlink, h => h
  | .special _, h => h

theorem Folder.legal_prune (skip : Location → Object β κ → Bool) (dir : Location) :
    ∀ f : Folder β κ, f.legal = true → (f.prune skip dir).legal = true
  | .nil, h => h
  | .cons n x rest, h => by
    obtain ⟨hn, hnew, hx, hrest⟩ := Folder.legal_cons.mp h
    have hkept := Folder.legal_prune skip dir rest hrest
    rw [Folder.prune]
    split
    · exact hkept
    · exact Folder.legal_cons.mpr ⟨hn, fun hm => hnew (Folder.mem_names_prune rest hm),
        Object.legal_prune skip (dir ++ [n]) x hx, hkept⟩

end

def FileTree.prune (skip : Location → Object β κ → Bool) (t : FileTree β κ) : FileTree β κ where
  root := t.root.prune skip []
  legal := Folder.legal_prune skip [] t.root t.legal

/-! ## The listing against the tree -/

theorem Folder.at_name :
    ∀ f : Folder β κ, f.at (n :: p) = some i → n ∈ f.names
  | .nil, h => by cases h
  | .cons m x rest, h => by
    rw [Folder.at] at h
    split at h
    next heq => exact heq ▸ mem_cons_self
    next => exact mem_cons_of_mem _ (Folder.at_name rest h)

theorem Folder.at_nil (f : Folder β κ) : f.at [] = none := by cases f <;> rfl

theorem Object.leaf_at (htop : x.at [] = some i)
    (hbelow : ∀ n q, x.at (n :: q) = none) : (∃ q, p = path ++ q ∧ x.at q = some j) ↔ p = path ∧ j = i := by
  constructor
  · rintro ⟨q, rfl, hq⟩
    cases q with
    | nil =>
      rw [htop, Option.some.injEq] at hq
      exact ⟨append_nil path, hq.symm⟩
    | cons =>
      rw [hbelow] at hq
      cases hq
  · rintro ⟨rfl, rfl⟩
    exact ⟨[], (append_nil p).symm, htop⟩

mutual

theorem Object.mem_listing (path : Location) :
    ∀ x : Object β κ, x.legal = true → ((p, i) ∈ x.listing path ↔ ∃ q, p = path ++ q ∧ x.at q = some i)
  | .dir f, h => by
    rw [Object.listing, mem_cons, Folder.mem_listing path f h]
    constructor
    · rintro (heq | ⟨n, q, rfl, hq⟩)
      · obtain ⟨rfl, rfl⟩ := Prod.mk.inj heq
        exact ⟨[], by simp, rfl⟩
      · exact ⟨n :: q, rfl, hq⟩
    · rintro ⟨q, rfl, hq⟩
      cases q with
      | nil =>
        rw [Object.at, Option.some.injEq] at hq
        exact .inl (by simp [hq])
      | cons n q => exact .inr ⟨n, q, rfl, hq⟩
  | .file b, _ => by simp [Object.listing, Object.leaf_at (x := .file b) (i := .file b) rfl fun _ _ => rfl]
  | .symlink, _ => by simp [Object.listing, Object.leaf_at (x := .symlink) (i := .symlink) rfl fun _ _ => rfl]
  | .special k, _ => by simp [Object.listing, Object.leaf_at (x := .special k) (i := .special k) rfl fun _ _ => rfl]

theorem Folder.mem_listing (dir : Location) : ∀ f : Folder β κ, f.legal = true →
      ((p, i) ∈ f.listing dir ↔ ∃ n q, p = dir ++ n :: q ∧ f.at (n :: q) = some i)
  | .nil, _ => by simp [Folder.listing, Folder.at]
  | .cons m x rest, h => by
    obtain ⟨-, hnew, hx, hrest⟩ := Folder.legal_cons.mp h
    rw [Folder.listing, mem_append, Object.mem_listing (dir ++ [m]) x hx, Folder.mem_listing dir rest hrest]
    constructor
    · rintro (⟨q, rfl, hq⟩ | ⟨n, q, rfl, hq⟩)
      · exact ⟨m, q, by simp, by rw [Folder.at, if_pos rfl, hq]⟩
      · have hne : n ≠ m := fun heq => hnew (heq ▸ Folder.at_name rest hq)
        exact ⟨n, q, rfl, by rw [Folder.at, if_neg hne, hq]⟩
    · rintro ⟨n, q, rfl, hq⟩
      rw [Folder.at] at hq
      split at hq
      next heq => exact .inl ⟨q, by simp [heq], hq⟩
      next => exact .inr ⟨n, q, rfl, hq⟩

end

/-! ## Directories first -/

/-- An entry that comes after `before`: it lies in no place taken yet, and the directories on its way are there. -/
structure Next (before : List (Location × Item β κ)) (e : Location × Item β κ) : Prop where
  below : e.1 ≠ []
  free : ∀ a ∈ before, ¬ e.1 <+: a.1
  parents : ∀ q, q ≠ [] → q <+: e.1 → q ≠ e.1 → (q, .dir) ∈ before

def Traversal (before : List (Location × Item β κ)) : List (Location × Item β κ) → Prop
  | [] => True
  | e :: rest => Next before e ∧ Traversal (before ++ [e]) rest

theorem Traversal.append
    (h₁ : Traversal before l₁) (h₂ : Traversal (before ++ l₁) l₂) : Traversal before (l₁ ++ l₂) := by
  induction l₁ generalizing before with
  | nil => simpa using h₂
  | cons e l₁ ih => exact ⟨h₁.1, ih h₁.2 (by simpa using h₂)⟩

mutual

theorem Object.listing_below (path : Location) :
    ∀ x : Object β κ, ∀ e ∈ x.listing path, path <+: e.1
  | .dir f, e, he => by
    obtain rfl | he := mem_cons.mp he
    · exact prefix_rfl
    · obtain ⟨n, -, hn⟩ := Folder.listing_below path f e he
      exact (prefix_append path [n]).trans hn
  | .file _, e, he => by simp_all [Object.listing]
  | .symlink, e, he => by simp_all [Object.listing]
  | .special _, e, he => by simp_all [Object.listing]

theorem Folder.listing_below (dir : Location) :
    ∀ f : Folder β κ, ∀ e ∈ f.listing dir, ∃ n ∈ f.names, dir ++ [n] <+: e.1
  | .nil, _, he => by cases he
  | .cons m x rest, e, he => by
    obtain he | he := mem_append.mp he
    · exact ⟨m, mem_cons_self, Object.listing_below (dir ++ [m]) x e he⟩
    · obtain ⟨n, hn, hbelow⟩ := Folder.listing_below dir rest e he
      exact ⟨n, mem_cons_of_mem _ hn, hbelow⟩

end

mutual

theorem Object.listing_legal {path : Location} (hpath : ∀ c ∈ path, legalName c = true) :
    ∀ x : Object β κ, x.legal = true → ∀ e ∈ x.listing path, ∀ c ∈ e.1, legalName c = true
  | .dir f, h, e, he => by
    obtain rfl | he := mem_cons.mp he
    · exact hpath
    · exact Folder.listing_legal hpath f h e he
  | .file _, _, e, he => by simp_all [Object.listing]
  | .symlink, _, e, he => by simp_all [Object.listing]
  | .special _, _, e, he => by simp_all [Object.listing]

theorem Folder.listing_legal {dir : Location} (hdir : ∀ c ∈ dir, legalName c = true) :
    ∀ f : Folder β κ, f.legal = true → ∀ e ∈ f.listing dir, ∀ c ∈ e.1, legalName c = true
  | .nil, _, _, he => by cases he
  | .cons n x rest, h, e, he => by
    obtain ⟨hn, -, hx, hrest⟩ := Folder.legal_cons.mp h
    obtain he | he := mem_append.mp he
    · exact Object.listing_legal (legal_concat hdir hn) x hx e he
    · exact Folder.listing_legal hdir rest hrest e he

end

theorem prefix_concat {q : Location} (h : q <+: dir ++ [n]) : q = dir ++ [n] ∨ q <+: dir :=
  prefix_concat_iff.mp h

theorem next_entry
    (hfree : ∀ a ∈ before, ¬ dir ++ [n] <+: a.1) (hdirs : ∀ q, q ≠ [] → q <+: dir → (q, .dir) ∈ before) :
    Next before (dir ++ [n], i) where
  below := by simp
  free := hfree
  parents := by
    intro q hne hq hproper
    exact hdirs q hne ((prefix_concat hq).resolve_left hproper)

mutual

theorem Object.listing_traversal {dir : Location} {n : Text} :
    ∀ (x : Object β κ) (before : List (Location × Item β κ)), x.legal = true →
      (∀ a ∈ before, ¬ dir ++ [n] <+: a.1) → (∀ q, q ≠ [] → q <+: dir → (q, .dir) ∈ before) →
      Traversal before (x.listing (dir ++ [n]))
  | .dir f, before, hx, hfree, hdirs => by
    refine ⟨next_entry hfree hdirs, Folder.listing_traversal f _ hx ?_ ?_⟩
    · -- Nothing lies below the directory yet, only the directory itself is new.
      intro a ha m _ hm
      obtain ha | ha := mem_append.mp ha
      · exact hfree a ha ((prefix_append _ _).trans hm)
      · obtain rfl := mem_singleton.mp ha
        have := hm.length_le
        simp at this
    · intro q hne hq
      obtain rfl | hq := prefix_concat hq
      · simp
      · exact mem_append_left _ (hdirs q hne hq)
  | .file _, _, _, hfree, hdirs => ⟨next_entry hfree hdirs, trivial⟩
  | .symlink, _, _, hfree, hdirs => ⟨next_entry hfree hdirs, trivial⟩
  | .special _, _, _, hfree, hdirs => ⟨next_entry hfree hdirs, trivial⟩

theorem Folder.listing_traversal {dir : Location} :
    ∀ (f : Folder β κ) (before : List (Location × Item β κ)), f.legal = true →
      (∀ a ∈ before, ∀ n ∈ f.names, ¬ dir ++ [n] <+: a.1) → (∀ q, q ≠ [] → q <+: dir → (q, .dir) ∈ before) →
      Traversal before (f.listing dir)
  | .nil, _, _, _, _ => trivial
  | .cons n x rest, before, h, hfree, hdirs => by
    obtain ⟨-, hnew, hx, hrest⟩ := Folder.legal_cons.mp h
    refine Traversal.append (Object.listing_traversal x before hx (fun a ha => hfree a ha n mem_cons_self) hdirs)
      (Folder.listing_traversal rest _ hrest ?_ ?_)
    · intro a ha m hm hbelow
      obtain ha | ha := mem_append.mp ha
      · exact hfree a ha m (mem_cons_of_mem _ hm) hbelow
      · -- Two names of one directory, and one location below both.
        have hother := Object.listing_below (dir ++ [n]) x a ha
        have heq := (prefix_of_prefix_length_le hbelow hother (by simp)).eq_of_length (by simp)
        rw [append_cancel_left_eq, List.cons.injEq] at heq
        exact hnew (heq.1 ▸ hm)
    · exact fun q hne hq => mem_append_left _ (hdirs q hne hq)

end

theorem FileTree.listing_traversal (t : FileTree β κ) : Traversal [] (t.root.listing []) := by
  refine t.root.listing_traversal [] t.legal (by simp) ?_
  intro q hne hq
  exact absurd (prefix_nil.mp hq) hne

/-! ## Folds that can fail -/

section
variable {α γ σ ε : Type}
variable {l : List α} {r : List γ} {f : α → Except ε γ} {s s' : σ}

theorem foldlM_mapM {g : σ → γ → Except ε σ} (h : l.mapM f = .ok r)
    (s : σ) : r.foldlM g s = l.foldlM (fun s a => f a >>= g s) s := by
  induction l generalizing r s with
  | nil =>
    cases h
    rfl
  | cons a l ih =>
    rw [mapM_cons] at h
    cases hfirst : f a with
    | error =>
      rw [hfirst] at h
      cases h
    | ok =>
      cases hrest : l.mapM f with
      | error =>
        rw [hfirst, hrest] at h
        cases h
      | ok =>
        rw [hfirst, hrest] at h
        cases h
        rw [foldlM_cons, foldlM_cons, hfirst]
        exact bind_congr fun s => ih hrest s

theorem mem_foldlM_ok {step : σ → α → Except ε σ} (h : l.foldlM step s = .ok s') :
    ∀ a ∈ l, ∃ s₁ s₂, step s₁ a = .ok s₂ := by
  induction l generalizing s with
  | nil => simp
  | cons b l ih =>
    rw [foldlM_cons] at h
    intro a ha
    cases hstep : step s b with
    | error =>
      rw [hstep] at h
      cases h
    | ok s₁ =>
      rw [hstep] at h
      obtain rfl | ha := mem_cons.mp ha
      · exact ⟨s, s₁, hstep⟩
      · exact ih h a ha

theorem mem_mapM_ok (h : l.mapM f = .ok r) : ∀ a ∈ l, ∃ b, f a = .ok b := by
  induction l generalizing r with
  | nil => simp
  | cons b l ih =>
    rw [mapM_cons] at h
    intro a ha
    cases hfirst : f b with
    | error =>
      rw [hfirst] at h
      cases h
    | ok c =>
      cases hrest : l.mapM f with
      | error =>
        rw [hfirst, hrest] at h
        cases h
      | ok =>
        obtain rfl | ha := mem_cons.mp ha
        · exact ⟨c, hfirst⟩
        · exact ih hrest a ha

end

theorem Traversal.foldlM {step : σ → Location × Item β κ → Except ε σ}
    {R : σ → List (Location × Item β κ) → Prop} {fits : Location × Item β κ → Prop}
    (hstep : ∀ s before e, R s before → Next before e → fits e → ∃ s', step s e = .ok s' ∧ R s' (before ++ [e]))
    {s : σ} (hs : R s before)
    (hl : Traversal before l) (hfits : ∀ e ∈ l, fits e) :
    ∃ s', l.foldlM step s = .ok s' ∧ R s' (before ++ l) := by
  induction l generalizing before s with
  | nil => exact ⟨s, rfl, by simpa using hs⟩
  | cons e l ih =>
    obtain ⟨s', hok, hs'⟩ := hstep s before e hs hl.1 (hfits e (by simp))
    obtain ⟨s'', hrest, hs''⟩ := ih hs' hl.2 fun e he => hfits e (by simp [he])
    refine ⟨s'', ?_, by simpa using hs''⟩
    rw [foldlM_cons, hok]
    exact hrest

/-! ## Writing entries -/

abbrev Target (β κ : Type) := Location → Option (Item β κ)

def Target.put (m : Target β κ) (p : Location) (i : Item β κ) : Target β κ := Function.update m p (some i)

def Target.mkdirAll (m : Target β κ) (done : Location) : Location → Except String (Target β κ)
  | [] => .ok m
  | c :: rest =>
    match m (done ++ [c]) with
    | some .dir => m.mkdirAll (done ++ [c]) rest
    | some _ => .error "not a directory"
    | none => (m.put (done ++ [c]) .dir).mkdirAll (done ++ [c]) rest

def Target.Holds (m : Target β κ) (l : List (Location × Item β κ)) : Prop := ∀ p i, m p = some i ↔ (p, i) ∈ l

def Target.Paved (m : Target β κ) (done path : Location) : Prop :=
  ∀ q, q ≠ done → done <+: q → q <+: path → m q = some .dir

variable {m : Target β κ}

theorem Target.Paved.head (h : m.Paved done (done ++ c :: rest)) :
    m (done ++ [c]) = some .dir :=
  h _ (by simp) (prefix_append _ _) ⟨rest, by simp⟩

theorem Target.Paved.tail (h : m.Paved done (done ++ c :: rest)) :
    m.Paved (done ++ [c]) (done ++ [c] ++ rest) := by
  intro q hne hq hbelow
  refine h q ?_ ((prefix_append _ _).trans hq) (by simpa using hbelow)
  rintro rfl
  have := hq.length_le
  simp only [length_append, length_cons, length_nil] at this
  omega

theorem Target.mkdirAll_present (h : m.Paved done (done ++ rest)) :
    m.mkdirAll done rest = .ok m := by
  induction rest generalizing done with
  | nil => rfl
  | cons c rest ih =>
    rw [Target.mkdirAll, h.head]
    exact ih h.tail

theorem Target.mkdirAll_new (done : Location) (h : m.Paved done (done ++ rest))
    (hfree : m (done ++ rest ++ [c]) = none) :
    m.mkdirAll done (rest ++ [c]) = .ok (m.put (done ++ rest ++ [c]) .dir) := by
  induction rest generalizing done with
  | nil =>
    rw [append_nil] at hfree
    rw [nil_append, Target.mkdirAll, hfree, append_nil]
    rfl
  | cons d rest ih =>
    rw [cons_append, Target.mkdirAll, h.head]
    simpa using ih _ h.tail (by simpa using hfree)

section
variable {m : Target β κ} {before : List (Location × Item β κ)} {e : Location × Item β κ}

variable (hm : m.Holds before)
include hm

variable (he : Next before e)
include he

theorem Target.Holds.free : m e.1 = none := by
  rw [Option.eq_none_iff_forall_ne_some]
  intro i hi
  exact he.free _ ((hm _ _).mp hi) prefix_rfl

theorem Target.Holds.paved : m.Paved [] e.1.dropLast := by
  intro q hne _ hq
  refine (hm _ _).mpr (he.parents q hne (hq.trans ⟨_, dropLast_concat_getLast he.below⟩) ?_)
  rintro rfl
  have hlen := hq.length_le
  rw [length_dropLast] at hlen
  have := length_pos_iff.mpr hne
  omega

theorem Target.Holds.put : (m.put e.1 e.2).Holds (before ++ [e]) := by
  intro p i
  rw [mem_append, mem_singleton, Target.put, Function.update_apply]
  split
  next heq =>
    subst heq
    have hnew : (e.1, i) ∉ before := fun hi => he.free _ hi prefix_rfl
    simp [hnew, Prod.ext_iff, eq_comm]
  next hne =>
    have : (p, i) ≠ e := fun heq => hne (congrArg Prod.fst heq)
    simp [this, hm p i]

theorem Target.Holds.mkdirAll : m.mkdirAll [] e.1 = .ok (m.put e.1 .dir) := by
  obtain ⟨dir, c, heq⟩ : ∃ dir c, e.1 = dir ++ [c] := ⟨_, _, (dropLast_concat_getLast he.below).symm⟩
  have hpaved := hm.paved he
  have hfree := hm.free he
  rw [heq] at hpaved hfree ⊢
  rw [dropLast_concat] at hpaved
  exact Target.mkdirAll_new [] hpaved hfree

theorem Target.Holds.mkdirParent : m.mkdirAll [] e.1.dropLast = .ok m :=
  Target.mkdirAll_present (hm.paved he)

end

theorem Target.Holds.eq_at {t : FileTree β κ} (h : m.Holds (t.root.listing [])) : m = t.root.at := by
  funext p
  refine Option.ext fun i => ?_
  rw [h p i, t.root.mem_listing [] t.legal]
  cases p with
  | nil => simp [t.root.at_nil]
  | cons => simp

end ForgePlane.Folders
