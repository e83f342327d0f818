import ForgePlane.Table
import Mathlib.Algebra.Order.BigOperators.Group.List
import Mathlib.Algebra.Order.Ring.Nat
import Mathlib.Data.List.Infix

/-!
# A directory tree as a table of paths

Entries below an opened root, each under its path of names. No path has two entries and the
directory an entry is in has one itself. The operations are the system calls: they fail as those do,
and what they leave is again such a tree.
-/

namespace ForgePlane

open List

variable {α β κ : Type} {n : Nat} {q p l : List α}

theorem prefix_dropLast (hq : q <+: p) (hne : q ≠ p) : q <+: p.dropLast := by
  have hp : p ≠ [] := by
    rintro rfl
    exact hne (prefix_nil.mp hq)
  rw [← dropLast_concat_getLast hp] at hq hne
  exact (prefix_concat_iff.mp hq).resolve_left hne

theorem sum_filter (l : List α) (p : α → Bool) (f : α → Nat) :
    ((l.filter p).map f).sum = (l.map fun x => if p x then f x else 0).sum := by
  induction l with
  | nil => rfl
  | cons x l ih =>
    rw [filter_cons, map_cons, sum_cons, ← ih]
    split
    · rw [map_cons, sum_cons]
    · rw [Nat.zero_add]

theorem sum_at_key {key : α → κ} {k : κ} {f : α → Nat} (hl : (l.map key).Nodup)
    (hzero : ∀ x ∈ l, key x ≠ k → f x = 0) (hn : ∀ x ∈ l, key x = k → f x ≤ n) : (l.map f).sum ≤ n := by
  induction l with
  | nil => exact Nat.zero_le n
  | cons x l ih =>
    obtain ⟨hx, hl⟩ := nodup_cons.mp hl
    obtain ⟨hzx, hzl⟩ := forall_mem_cons.mp hzero
    obtain ⟨hnx, hnl⟩ := forall_mem_cons.mp hn
    rw [map_cons, sum_cons]
    by_cases hk : key x = k
    · -- the key occurs only here, so the rest adds nothing
      have hrest : (l.map f).sum = 0 := by
        refine sum_eq_zero fun y hy => ?_
        obtain ⟨z, hz, rfl⟩ := mem_map.mp hy
        exact hzl z hz fun hzk => hx (mem_map.mpr ⟨z, hz, hzk.trans hk.symm⟩)
      rw [hrest, Nat.add_zero]
      exact hnx hk
    · rw [hzx hk, Nat.zero_add]
      exact ih hl hzl hnl

inductive DiskEntry (β : Type) where
  | dir
  | link
  | file (content : β)
  deriving DecidableEq, Repr

variable {e e' : DiskEntry β}

namespace DiskEntry

open List

def isDir : DiskEntry β → Bool
  | dir => true
  | _ => false

theorem isDir_iff : e.isDir = true ↔ e = dir := by
  cases e <;> simp [isDir]

end DiskEntry

structure DiskTree (ν β : Type) where
  entries : List (List ν × DiskEntry β)
  unique : (entries.map (·.1)).Nodup
  below : ∀ x ∈ entries, x.1 ≠ []
  closed : ∀ x ∈ entries, x.1.dropLast = [] ∨ (x.1.dropLast, DiskEntry.dir) ∈ entries

namespace DiskTree

open List

variable {ν γ : Type} [DecidableEq ν] {t t' : DiskTree ν β}

def entry (t : DiskTree ν β) (p : List ν) : Option (DiskEntry β) := (rowAt (·.1) t.entries p).map (·.2)

def isDirAt (t : DiskTree ν β) (p : List ν) : Bool := p = [] || (t.entry p).any (·.isDir)

section
variable {t : DiskTree ν β} {p q a : List ν}

theorem entry_eq_some : t.entry p = some e ↔ (p, e) ∈ t.entries := by
  constructor
  · intro h
    obtain ⟨x, hx, rfl⟩ := Option.map_eq_some_iff.mp h
    have hp := rowAt_key hx
    subst hp
    exact rowAt_mem hx
  · intro h
    rw [entry, rowAt_of_mem t.unique h]
    rfl

theorem entry_eq_none : t.entry p = none ↔ ∀ e, (p, e) ∉ t.entries := by
  constructor
  · intro h e he
    rw [entry_eq_some.mpr he] at h
    cases h
  · intro h
    cases he : t.entry p with
    | none => rfl
    | some e => exact absurd (entry_eq_some.mp he) (h e)

theorem isDirAt_iff : t.isDirAt p = true ↔ p = [] ∨ t.entry p = some .dir := by
  simp only [isDirAt, Bool.or_eq_true, decide_eq_true_eq, Option.any_eq_true, DiskEntry.isDir_iff]
  exact or_congr_right ⟨fun ⟨e, he, hd⟩ => hd ▸ he, fun h => ⟨_, h, rfl⟩⟩

variable (h : t.entry p = some e)
include h

theorem parent_isDirAt : t.isDirAt p.dropLast = true := by
  rw [isDirAt_iff]
  exact (t.closed _ (entry_eq_some.mp h)).imp_right entry_eq_some.mpr

theorem isDirAt_above (hq : q <+: p) (hne : q ≠ p) : t.isDirAt q = true := by
  -- on the length of `p`: its parent is a directory, and `q` is that or above it
  induction hn : p.length generalizing p e with
  | zero =>
    obtain rfl := eq_nil_of_length_eq_zero hn
    exact absurd (prefix_nil.mp hq) hne
  | succ n ih =>
    have hparent := parent_isDirAt h
    have hq' := prefix_dropLast hq hne
    by_cases heq : q = p.dropLast
    · rw [heq]
      exact hparent
    · obtain hnil | hdir := isDirAt_iff.mp hparent
      · rw [hnil] at hq' heq
        exact absurd (prefix_nil.mp hq') heq
      · exact ih hdir hq' heq (by rw [length_dropLast, hn]; rfl)

theorem leaf (he : e.isDir = false) (hq : t.entry q = some e') (hpq : p <+: q) :
    q = p := by
  by_contra hne
  have hp : p ≠ [] := t.below _ (entry_eq_some.mp h)
  obtain hnil | hdir := isDirAt_iff.mp (isDirAt_above hq hpq (Ne.symm hne))
  · exact hp hnil
  · rw [h] at hdir
    cases hdir
    cases he

end

def insert (t : DiskTree ν β) (p : List ν) (e : DiskEntry β) (hp : p ≠ []) (hfree : t.entry p = none)
    (hparent : t.isDirAt p.dropLast = true) : DiskTree ν β where
  entries := t.entries ++ [(p, e)]
  unique := by
    rw [map_append, map_singleton]
    refine nodup_append_comm.mp (nodup_cons.mpr ⟨fun hmem => ?_, t.unique⟩)
    obtain ⟨x, hx, rfl⟩ := mem_map.mp hmem
    exact entry_eq_none.mp hfree x.2 hx
  below x hx := by
    obtain hx | hx := mem_append.mp hx
    · exact t.below x hx
    · obtain rfl := mem_singleton.mp hx
      exact hp
  closed x hx := by
    obtain hx | hx := mem_append.mp hx
    · exact (t.closed x hx).imp_right fun h => mem_append_left _ h
    · obtain rfl := mem_singleton.mp hx
      exact (isDirAt_iff.mp hparent).imp_right fun h => mem_append_left _ (entry_eq_some.mp h)

section
variable {t : DiskTree ν β} {p q : List ν}

theorem entry_insert {hp : p ≠ []} {hfree : t.entry p = none} {hparent : t.isDirAt p.dropLast = true} :
    (t.insert p e hp hfree hparent).entry q = if q = p then some e else t.entry q := by
  have hrow : rowAt (·.1) t.entries p = none := Option.map_eq_none_iff.mp hfree
  simp [entry, insert, rowAt_append]
  by_cases hq : q = p
  · subst hq
    simp [hrow]
  · simp [hq, Ne.symm hq]

end

/-- `mkdirat` unless the directory is there already; a file or a link in its place is an error, and
so is a missing parent. -/
def mkdir (t : DiskTree ν β) (p : List ν) : Except String (DiskTree ν β) :=
  if h : p ≠ [] ∧ t.entry p = none ∧ t.isDirAt p.dropLast = true then .ok (t.insert p .dir h.1 h.2.1 h.2.2)
  else if t.isDirAt p then .ok t
  else .error "not a directory"

/-- `MkdirAll`: one component after the other; those made before an error stay. -/
def mkdirs (t : DiskTree ν β) : List (List ν) → Except String Unit × DiskTree ν β
  | [] => (.ok (), t)
  | p :: ps =>
    match t.mkdir p with
    | .error e => (.error e, t)
    | .ok t => t.mkdirs ps

def mkdirAll (t : DiskTree ν β) (p : List ν) : Except String Unit × DiskTree ν β := t.mkdirs p.inits.tail

def create (t : DiskTree ν β) (p : List ν) (b : β) : Except String (DiskTree ν β) :=
  if h : p ≠ [] ∧ t.entry p = none ∧ t.isDirAt p.dropLast = true then .ok (t.insert p (.file b) h.1 h.2.1 h.2.2)
  else .error "file exists or its directory does not"

theorem create_ok {p : List ν} {b : β} (h : t.create p b = .ok t') :
    ∃ (hp : p ≠ []) (hfree : t.entry p = none) (hparent : t.isDirAt p.dropLast = true),
      t' = t.insert p (.file b) hp hfree hparent := by
  unfold create at h
  split at h
  · rename_i hp
    exact ⟨hp.1, hp.2.1, hp.2.2, (Except.ok.inj h).symm⟩
  · cases h

def removeAll (t : DiskTree ν β) (p : List ν) : DiskTree ν β where
  entries := t.entries.filter fun x => !decide (p <+: x.1)
  unique := t.unique.sublist ((filter_sublist).map _)
  below x hx := t.below x (mem_of_mem_filter hx)
  closed x hx := by
    obtain ⟨hmem, hx⟩ := mem_filter.mp hx
    refine (t.closed x hmem).imp_right fun h => mem_filter.mpr ⟨h, ?_⟩
    simp at hx ⊢
    exact fun hp => hx (hp.trans ( dropLast_prefix _))

theorem entry_removeAll {p q : List ν} :
    (t.removeAll p).entry q = if p <+: q then none else t.entry q := by
  split
  · rename_i hpq
    refine entry_eq_none.mpr fun e he => ?_
    have := (mem_filter.mp he).2
    simp [hpq] at this
  · rename_i hpq
    cases he : t.entry q with
    | none => exact entry_eq_none.mpr fun e hmem => entry_eq_none.mp he e (mem_of_mem_filter hmem)
    | some => exact entry_eq_some.mpr (mem_filter.mpr ⟨entry_eq_some.mp he, by simp [hpq]⟩)

def moved (a b p : List ν) : List ν := if a <+: p then b ++ p.drop a.length else p

def Movable (t : DiskTree ν β) (e : DiskEntry β) (a b : List ν) : Prop :=
  b ≠ [] ∧ t.isDirAt b.dropLast = true ∧ ¬ a <+: b ∧ (∀ x ∈ t.entries, b <+: x.1 → x.1 = b) ∧
    (t.entry b).all (fun e' => e'.isDir == e.isDir) = true

instance (t : DiskTree ν β) (e : DiskEntry β) (a b : List ν) : Decidable (t.Movable e a b) :=
  inferInstanceAs (Decidable (_ ∧ _ ∧ _ ∧ _ ∧ _))

section
variable {t t' : DiskTree ν β} {p q a b : List ν}

theorem moved_below (r : List ν) : moved a b (a ++ r) = b ++ r := by
  rw [moved, if_pos (prefix_append a r), drop_left]

theorem moved_of_not (h : ¬ a <+: p) : moved a b p = p := if_neg h

theorem moved_cases (hm : t.Movable e a b) {x : List ν × DiskEntry β} (hx : x ∈ t.entries) (hne : x.1 ≠ b) :
    (∃ r, x.1 = a ++ r ∧ moved a b x.1 = b ++ r) ∨ ¬ a <+: x.1 ∧ moved a b x.1 = x.1 ∧ ¬ b <+: x.1 := by
  by_cases ha : a <+: x.1
  · obtain ⟨r, hr⟩ := ha
    exact .inl ⟨r, hr.symm, hr ▸ moved_below r⟩
  · exact .inr ⟨ha, moved_of_not ha, fun hb => hne (hm.2.2.2.1 x hx hb)⟩

def move (t : DiskTree ν β) (e : DiskEntry β) (a b : List ν) (hm : t.Movable e a b) : DiskTree ν β where
  entries := (t.entries.filter fun x => x.1 ≠ b).map fun x => (moved a b x.1, x.2)
  unique := by
    rw [map_map]
    refine List.Nodup.map_on (fun x hx y hy heq => ?_) ((List.Nodup.of_map _ t.unique).filter _)
    obtain ⟨hx, hxb⟩ := mem_filter.mp hx
    obtain ⟨hy, hyb⟩ := mem_filter.mp hy
    have heq : moved a b x.1 = moved a b y.1 := heq
    refine inj_on_of_nodup_map t.unique hx hy ?_
    obtain ⟨r, hr, hxr⟩ | ⟨-, hxs, hxn⟩ := moved_cases hm hx (by simpa using hxb)
    · obtain ⟨r', hr', hyr⟩ | ⟨-, hys, hyn⟩ := moved_cases hm hy (by simpa using hyb)
      · rw [hxr, hyr] at heq
        rw [hr, hr', append_cancel_left heq]
      · rw [hxr, hys] at heq
        exact absurd (heq ▸ prefix_append b r) hyn
    · obtain ⟨r', hr', hyr⟩ | ⟨-, hys, hyn⟩ := moved_cases hm hy (by simpa using hyb)
      · rw [hxs, hyr] at heq
        exact absurd (heq ▸ prefix_append b r') hxn
      · rw [hxs, hys] at heq
        exact heq
  below x hx := by
    obtain ⟨y, hy, rfl⟩ := mem_map.mp hx
    obtain ⟨hy, hyb⟩ := mem_filter.mp hy
    obtain ⟨r, -, hyr⟩ | ⟨-, hys, -⟩ := moved_cases hm hy (by simpa using hyb)
    · rw [hyr]
      exact fun h => hm.1 (append_eq_nil_iff.mp h).1
    · rw [hys]
      exact t.below y hy
  closed x hx := by
    obtain ⟨y, hy, rfl⟩ := mem_map.mp hx
    obtain ⟨hy, hyb⟩ := mem_filter.mp hy
    -- a directory that neither is the target nor moves is still there
    have hstays : ∀ d, (d, DiskEntry.dir) ∈ t.entries → d ≠ b → ¬ a <+: d →
        (d, DiskEntry.dir) ∈ (t.entries.filter fun x => x.1 ≠ b).map fun x => (moved a b x.1, x.2) := by
      intro d hd hdb had
      refine mem_map.mpr ⟨(d, .dir), mem_filter.mpr ⟨hd, by simpa using hdb⟩, ?_⟩
      rw [moved_of_not had]
    obtain ⟨r, hr, hyr⟩ | ⟨hna, hys, hnb⟩ := moved_cases hm hy (by simpa using hyb)
    · dsimp only
      rw [hyr]
      obtain rfl | hne := eq_or_ne r []
      · rw [append_nil]
        refine (isDirAt_iff.mp hm.2.1).imp_right fun hd => hstays _ (entry_eq_some.mp hd) ?_ ?_
        · intro heq
          have := congrArg List.length heq
          rw [length_dropLast] at this
          have := length_pos_of_ne_nil hm.1
          omega
        · exact fun ha => hm.2.2.1 (ha.trans ( dropLast_prefix b))
      · refine .inr (mem_map.mpr ⟨(a ++ r.dropLast, .dir), mem_filter.mpr ⟨?_, ?_⟩, ?_⟩)
        · obtain hnil | hd := t.closed y hy
          · rw [hr, dropLast_append_of_ne_nil hne, append_eq_nil_iff] at hnil
            exact absurd (hnil.1 ▸ nil_prefix) hm.2.2.1
          · rwa [hr, dropLast_append_of_ne_nil hne] at hd
        · simp
          exact fun heq => hm.2.2.1 (heq ▸ prefix_append a _)
        · rw [moved_below, dropLast_append_of_ne_nil hne]
    · dsimp only
      rw [hys]
      refine (t.closed y hy).imp_right fun hd => hstays _ hd ?_ ?_
      · exact fun heq => hnb (heq ▸ dropLast_prefix y.1)
      · exact fun ha => hna (ha.trans ( dropLast_prefix y.1))

theorem entry_move (hm : t.Movable e a b) :
    (t.move e a b hm).entry q =
      if b <+: q then t.entry (a ++ q.drop b.length) else if a <+: q then none else t.entry q := by
  have hmem : ∀ e', (q, e') ∈ (t.move e a b hm).entries ↔ ∃ x ∈ t.entries, x.1 ≠ b ∧ moved a b x.1 = q ∧ x.2 = e' := by
    intro e'
    simp [move, and_assoc]
  refine Option.ext fun e' => ?_
  rw [entry_eq_some, hmem]
  by_cases hb : b <+: q
  · obtain ⟨r, rfl⟩ := hb
    rw [if_pos (prefix_append b r), drop_left, entry_eq_some]
    constructor
    · rintro ⟨x, hx, hxb, hq, rfl⟩
      obtain ⟨s, hs, hmoved⟩ | ⟨-, hmoved, hnb⟩ := moved_cases hm hx hxb
      · rw [hmoved] at hq
        rw [← append_cancel_left hq, ← hs]
        exact hx
      · rw [hmoved] at hq
        exact absurd (hq ▸ prefix_append b r) hnb
    · intro hx
      exact ⟨_, hx, fun heq => hm.2.2.1 (heq ▸ prefix_append a r), moved_below r, rfl⟩
  · rw [if_neg hb]
    by_cases ha : a <+: q
    · rw [if_pos ha]
      refine ⟨?_, nofun⟩
      rintro ⟨x, hx, hxb, hq, rfl⟩
      obtain ⟨s, hs, hmoved⟩ | ⟨hna, hmoved, -⟩ := moved_cases hm hx hxb
      · exact absurd (hq ▸ hmoved ▸ prefix_append b s) hb
      · rw [hmoved] at hq
        exact absurd (hq.symm ▸ ha) hna
    · rw [if_neg ha, entry_eq_some]
      constructor
      · rintro ⟨x, hx, hxb, hq, rfl⟩
        obtain ⟨s, hs, hmoved⟩ | ⟨-, hmoved, -⟩ := moved_cases hm hx hxb
        · exact absurd (hq ▸ hmoved ▸ prefix_append b s) hb
        · rw [← hq, hmoved]
          exact hx
      · intro hx
        exact ⟨_, hx, fun heq => hb (heq ▸ prefix_refl _), moved_of_not ha, rfl⟩

def rename (t : DiskTree ν β) (a b : List ν) : Except String (DiskTree ν β) :=
  match t.entry a with
  | none => .error "no such file or directory"
  | some e =>
    if a = b then .ok t
    else if hm : t.Movable e a b then .ok (t.move e a b hm)
    else .error "rename"

theorem rename_ok (h : t.rename a b = .ok t') :
    ∃ e, t.entry a = some e ∧ (a = b ∧ t' = t ∨ a ≠ b ∧ ∃ hm : t.Movable e a b, t' = t.move e a b hm) := by
  unfold rename at h
  cases he : t.entry a with
  | none => rw [he] at h; cases h
  | some e =>
    refine ⟨e, rfl, ?_⟩
    simp [he] at h
    split at h
    · rename_i heq
      cases h
      exact .inl ⟨heq, rfl⟩
    · rename_i hne
      split at h
      · rename_i hm
        cases h
        exact .inr ⟨hne, hm, rfl⟩
      · cases h

theorem rename_file {f : β} (h : t.rename a b = .ok t') (hq : t'.entry q = some (.file f)) :
    ∃ p, t.entry p = some (.file f) := by
  obtain ⟨e, -, ⟨-, rfl⟩ | ⟨-, hm, rfl⟩⟩ := rename_ok h
  · exact ⟨q, hq⟩
  · rw [entry_move] at hq
    split at hq
    · exact ⟨_, hq⟩
    · split at hq
      · cases hq
      · exact ⟨q, hq⟩

end

def readDir (t : DiskTree ν β) (d : List ν) : Except String (List (ν × Bool)) :=
  if t.isDirAt d then
    .ok (t.entries.filterMap fun x =>
      if x.1.dropLast = d then x.1.getLast?.map fun c => (c, match x.2 with | .link => true | _ => false) else none)
  else .error "not a directory"

/-! ## Changing contents -/

def modify (t : DiskTree ν β) (f : β → β) : DiskTree ν β where
  entries := t.entries.map fun x => (x.1, match x.2 with | .file b => .file (f b) | e => e)
  unique := by
    rw [map_map]
    exact t.unique
  below x hx := by
    obtain ⟨y, hy, rfl⟩ := mem_map.mp hx
    exact t.below y hy
  closed x hx := by
    obtain ⟨y, hy, rfl⟩ := mem_map.mp hx
    exact (t.closed y hy).imp_right fun h => mem_map.mpr ⟨_, h, rfl⟩

variable {f : β → β}

theorem entry_modify {t : DiskTree ν β} {q : List ν} :
    (t.modify f).entry q = (t.entry q).map fun e => match e with | .file b => .file (f b) | e => e := by
  cases he : t.entry q with
  | none =>
    refine entry_eq_none.mpr fun e hmem => ?_
    obtain ⟨y, hy, heq⟩ := mem_map.mp hmem
    obtain ⟨rfl, -⟩ := Prod.mk.inj heq
    exact entry_eq_none.mp he _ hy
  | some e => exact entry_eq_some.mpr (mem_map.mpr ⟨(q, e), entry_eq_some.mp he, rfl⟩)

/-! ## Weighing the files -/

def weigh (w : List ν → β → Nat) (t : DiskTree ν β) : Nat :=
  (t.entries.map fun x => match x.2 with | .file b => w x.1 b | _ => 0).sum

section
variable {t : DiskTree ν β} {w w' : List ν → β → Nat} {p q a b d : List ν}

theorem weigh_mono (h : ∀ p b, t.entry p = some (.file b) → w p b ≤ w' p b) : t.weigh w ≤ t.weigh w' := by
  refine sum_le_sum fun x hx => ?_
  obtain ⟨p, e⟩ := x
  cases e with
  | file b => exact h p b (entry_eq_some.mpr hx)
  | _ => exact Nat.le_refl _

theorem weigh_congr (h : ∀ p b, t.entry p = some (.file b) → w p b = w' p b) : t.weigh w = t.weigh w' :=
  Nat.le_antisymm (weigh_mono fun p b hb => Nat.le_of_eq (h p b hb)) (weigh_mono fun p b hb => Nat.le_of_eq (h p b hb).symm)

omit [DecidableEq ν] in
theorem weigh_add : t.weigh (fun p b => w p b + w' p b) = t.weigh w + t.weigh w' := by
  simp [weigh]
  induction t.entries with
  | nil => rfl
  | cons x l ih =>
    obtain ⟨p, e⟩ := x
    cases e <;> simp [ih] <;> omega

theorem weigh_single {f : β} (h : t.entry p = some (.file f)) : w p f ≤ t.weigh w := by
  refine single_le_sum (fun _ _ => Nat.zero_le _) _ (mem_map.mpr ⟨(p, .file f), entry_eq_some.mp h, rfl⟩)

theorem weigh_at (h : ∀ q b, t.entry q = some (.file b) → q ≠ p → w q b = 0)
    (hn : ∀ b, t.entry p = some (.file b) → w p b ≤ n) : t.weigh w ≤ n := by
  refine sum_at_key t.unique (k := p) (fun x hx hne => ?_) fun x hx heq => ?_
  · obtain ⟨q, e⟩ := x
    cases e with
    | file b => exact h q b (entry_eq_some.mpr hx) hne
    | _ => rfl
  · obtain ⟨q, e⟩ := x
    obtain rfl : q = p := heq
    cases e with
    | file b => exact hn b (entry_eq_some.mpr hx)
    | _ => exact Nat.zero_le _

theorem weigh_insert {hp : p ≠ []} {hfree : t.entry p = none} {hparent : t.isDirAt p.dropLast = true} :
    (t.insert p e hp hfree hparent).weigh w = t.weigh w + match e with | .file b => w p b | _ => 0 := by
  simp [weigh, insert]

omit [DecidableEq ν] in
theorem weigh_modify : (t.modify f).weigh w = t.weigh fun p b => w p (f b) := by
  rw [weigh, modify, map_map, weigh]
  refine congrArg List.sum (map_congr_left fun x _ => ?_)
  obtain ⟨p, e⟩ := x
  cases e <;> rfl

theorem weigh_move (hm : t.Movable e a b) :
    (t.move e a b hm).weigh w = t.weigh fun p f => if p = b then 0 else w (moved a b p) f := by
  rw [weigh, move, map_map, weigh, sum_filter]
  refine congrArg List.sum (map_congr_left fun x _ => ?_)
  obtain ⟨p, e⟩ := x
  by_cases hp : p = b <;> cases e <;> simp [hp]

def weighBelow (w : β → Nat) (t : DiskTree ν β) (p : List ν) : Nat := t.weigh fun q b => if p <+: q then w b else 0

theorem weighBelow_nil {w : β → Nat} : t.weighBelow w [] = t.weigh fun _ => w := by
  simp [weighBelow]

theorem weighBelow_file {w : β → Nat} {f : β} (h : t.entry p = some (.file f)) : t.weighBelow w p ≤ w f := by
  refine weigh_at (p := p) (fun q b hq hne => if_neg fun hpq => hne (leaf h rfl hq hpq)) fun b hb => ?_
  rw [h] at hb
  cases hb
  rw [if_pos (prefix_refl p)]

theorem sum_le_sum_cover (l : List α) (cs : List γ) (f : α → Nat) (g : γ → α → Nat)
    (h : ∀ x ∈ l, f x = 0 ∨ ∃ c ∈ cs, f x ≤ g c x) : (l.map f).sum ≤ (cs.map fun c => (l.map (g c)).sum).sum := by
  induction l with
  | nil => exact Nat.zero_le _
  | cons x l ih =>
    obtain ⟨hx, hl⟩ := forall_mem_cons.mp h
    have hsplit : (cs.map fun c => ((x :: l).map (g c)).sum).sum =
        (cs.map fun c => g c x).sum + (cs.map fun c => (l.map (g c)).sum).sum := by
      simp only [map_cons, sum_cons]
      exact sum_map_add
    rw [hsplit, map_cons, sum_cons]
    refine Nat.add_le_add ?_ (ih hl)
    obtain hzero | ⟨c, hc, hle⟩ := hx
    · rw [hzero]
      exact Nat.zero_le _
    · exact hle.trans (single_le_sum (fun _ _ => Nat.zero_le _) _ (mem_map.mpr ⟨c, hc, rfl⟩))

theorem weighBelow_readDir {w : β → Nat} {names : List (ν × Bool)} (h : t.readDir d = .ok names) :
    t.weighBelow w d ≤ ((names.filter fun n => !n.2).map fun n => t.weighBelow w (d ++ [n.1])).sum := by
  unfold readDir at h
  split at h
  · rename_i hdir
    cases h
    refine sum_le_sum_cover t.entries _ _ _ fun x hx => ?_
    obtain ⟨q, e⟩ := x
    cases e with
    | file b =>
      by_cases hdq : d <+: q
      · refine .inr ?_
        have hfile := entry_eq_some.mpr hx
        -- the file is not the directory itself, so it is below one of its names
        have hne : d ≠ q := by
          rintro rfl
          obtain rfl | hd := isDirAt_iff.mp hdir
          · exact t.below _ hx rfl
          · rw [hfile] at hd
            cases hd
        obtain ⟨c, r, rfl⟩ : ∃ c r, q = d ++ [c] ++ r := by
          obtain ⟨r, rfl⟩ := hdq
          cases r with
          | nil => exact absurd (append_nil d).symm hne
          | cons c r => exact ⟨c, r, by simp⟩
        obtain ⟨e', he', hlink⟩ : ∃ e', (d ++ [c], e') ∈ t.entries ∧ e' ≠ .link := by
          obtain rfl | hr := eq_or_ne r []
          · exact ⟨.file b, by simpa using hx, nofun⟩
          · have hproper : d ++ [c] ≠ d ++ [c] ++ r := fun h => hr (append_right_eq_self.mp h.symm)
            obtain hnil | hd := isDirAt_iff.mp (isDirAt_above hfile (prefix_append _ r) hproper)
            · simp at hnil
            · exact ⟨.dir, entry_eq_some.mp hd, nofun⟩
        refine ⟨(c, false), mem_filter.mpr ⟨mem_filterMap.mpr ⟨(d ++ [c], e'), he', ?_⟩, rfl⟩, ?_⟩
        · cases e' with
          | link => exact absurd rfl hlink
          | _ => simp
        · simp
      · exact .inl (if_neg hdq)
    | _ => exact .inl rfl
  · cases h

end

/-! ## Making directories changes no file -/

structure Grown (t t' : DiskTree ν β) : Prop where
  kept : ∀ q e, t.entry q = some e → t'.entry q = some e
  added : ∀ q, t.entry q = none → t'.entry q = none ∨ t'.entry q = some .dir
  weight : ∀ w, t'.weigh w = t.weigh w

section
variable {t t' t'' : DiskTree ν β} {p q : List ν}

theorem Grown.refl (t : DiskTree ν β) : Grown t t := ⟨fun _ _ h => h, fun _ h => .inl h, fun _ => rfl⟩

theorem Grown.trans (h : Grown t t') (h' : Grown t' t'') : Grown t t'' where
  kept q e hq := h'.kept q e (h.kept q e hq)
  added q hq := by
    obtain hnone | hdir := h.added q hq
    · exact h'.added q hnone
    · exact .inr (h'.kept q _ hdir)
  weight w := (h'.weight w).trans (h.weight w)

theorem Grown.file (h : Grown t t') {f : β} (hq : t'.entry q = some (.file f)) : t.entry q = some (.file f) := by
  cases he : t.entry q with
  | some e => rw [← hq, ← h.kept q e he]
  | none =>
    obtain hnone | hdir := h.added q he
    · rw [hnone] at hq
      cases hq
    · rw [hdir] at hq
      cases hq

theorem mkdir_grown (h : t.mkdir p = .ok t') : Grown t t' := by
  unfold mkdir at h
  split at h
  · rename_i hp
    cases h
    refine ⟨fun q e hq => ?_, fun q hq => ?_, fun w => weigh_insert⟩
    · rw [entry_insert, if_neg, hq]
      rintro rfl
      rw [hp.2.1] at hq
      cases hq
    · rw [entry_insert]
      split
      · exact .inr rfl
      · exact .inl hq
  · split at h
    · cases h
      exact Grown.refl t
    · cases h

theorem mkdirs_grown : ∀ {ps : List (List ν)} {t : DiskTree ν β}, Grown t (t.mkdirs ps).2
  | [], t => Grown.refl t
  | p :: ps, t => by
    unfold mkdirs
    split
    · exact Grown.refl t
    · rename_i t' h
      exact (mkdir_grown h).trans mkdirs_grown

end

end DiskTree

end ForgePlane
