import ForgePlane.Restore

/-!
# Recovery from the restore journal

The journal and the directories it names say which tree is complete. Recovery puts
that one in its place, and it can be cut off and run again.
-/

namespace ForgePlane.LocalBackup

open Folders List

variable {κ : Type}

variable {j : Journal}

section
variable {parent base : Text}
variable {r s : Text}

theorem confined_iff : confined parent base j = true ↔
    j.staging.dir = parent ∧ j.rollback.dir = parent ∧ stagingPattern base <+: j.staging.base ∧
      rollbackPattern base <+: j.rollback.base := by
  simp [confined, and_assoc]

theorem base_ne_staging (h : stagingPattern base <+: s) : base ≠ s := by
  rintro rfl
  have hlen := h.length_le
  simp only [stagingPattern, length_cons, length_append] at hlen
  omega

theorem base_ne_rollback (h : rollbackPattern base <+: r) : base ≠ r := by
  rintro rfl
  have hlen := h.length_le
  simp only [rollbackPattern, length_cons, length_append] at hlen
  omega

theorem staging_ne_rollback (hs : stagingPattern base <+: s) (hr : rollbackPattern base <+: r) : s ≠ r := by
  rintro rfl
  have hlen : (stagingPattern base).length ≤ (rollbackPattern base).length := by
    simp only [stagingPattern, rollbackPattern, length_cons, length_append]
    have : "restore-".toList.length ≤ "rollback-".toList.length := by decide
    omega
  have hle := prefix_of_prefix_length_le hs hr hlen
  rw [stagingPattern, rollbackPattern, cons_prefix_cons, prefix_append_right_inj] at hle
  exact absurd hle.2 (by decide)

end

/-! ## What the disk says -/

section
variable (parent base : Text) (orig : Target Bytes κ) (files : List ZipFile)

def Whole (w : Parent κ) : Prop := w.dirs base = some orig ∨ ∃ t, extractArchive files = .ok t ∧ w.dirs base = some t

inductive Pending (j : Journal) (w : Parent κ) : Prop
  | undone (hphase : j.phase = .prepared ∨ j.phase = .liveMoved) (hroot : w.dirs base = some orig)
      (hrollback : w.dirs j.rollback.base = none)
  | aside (hphase : j.phase = .prepared ∨ j.phase = .liveMoved) (hrollback : w.dirs j.rollback.base = some orig)
  | done (t : Target Bytes κ) (hphase : j.phase = .activated) (ht : extractArchive files = .ok t)
      (hroot : w.dirs base = some t)

structure Journaled (j : Journal) (w : Parent κ) : Prop where
  file : w.files (restoreJournalPath base) = some (.decoded j)
  confined : confined parent base j = true
  pending : Pending base orig files j w

structure Clean (w : Parent κ) : Prop where
  file : w.files (restoreJournalPath base) = none
  whole : Whole base orig files w

structure Settled (j : Journal) (w : Parent κ) : Prop extends Clean base orig files w where
  staging : w.dirs j.staging.base = none
  rollback : w.dirs j.rollback.base = none

def Consistent (w : Parent κ) : Prop := Clean base orig files w ∨ ∃ j, Journaled parent base orig files j w

end

section
variable {parent base n : Text} {orig : Target Bytes κ} {files : List ZipFile} {w : Parent κ}

variable (h : Journaled parent base orig files j w)
include h

theorem Journaled.names :
    base ≠ j.staging.base ∧ base ≠ j.rollback.base ∧ j.staging.base ≠ j.rollback.base := by
  obtain ⟨-, -, hs, hr⟩ := confined_iff.mp h.confined
  exact ⟨base_ne_staging hs, base_ne_rollback hr, staging_ne_rollback hs hr⟩

theorem Journaled.setDir (d : Option (Target Bytes κ))
    (hbase : base ≠ n) (hrollback : j.rollback.base ≠ n) : Journaled parent base orig files j (w.setDir n d) where
  file := h.file
  confined := h.confined
  pending := by
    cases h.pending with
    | undone hphase hroot hroll =>
      exact .undone hphase (by rw [w.setDir_ne d hbase, hroot]) (by rw [w.setDir_ne d hrollback, hroll])
    | aside hphase hroll => exact .aside hphase (by rw [w.setDir_ne d hrollback, hroll])
    | done t hphase ht hroot => exact .done t hphase ht (by rw [w.setDir_ne d hbase, hroot])

omit h

structure Placed (parent base : Text) (orig : Target Bytes κ) (files : List ZipFile) (j : Journal) (w : Parent κ) : Prop
    extends Journaled parent base orig files j w where
  whole : Whole base orig files w
  rollback : w.dirs j.rollback.base = none

theorem Placed.setDir_staging (h : Placed parent base orig files j w) (d : Option (Target Bytes κ)) :
    Placed parent base orig files j (w.setDir j.staging.base d) := by
  obtain ⟨hbs, hbr, hsr⟩ := h.names
  refine ⟨h.toJournaled.setDir d hbs hsr.symm, ?_, ?_⟩
  · rw [Whole, w.setDir_ne d hbs]
    exact h.whole
  · rw [w.setDir_ne d hsr.symm, h.rollback]

variable (h : Journaled parent base orig files j w)
include h

theorem rename_back (hphase : j.phase = .prepared ∨ j.phase = .liveMoved)
    (hroll : w.dirs j.rollback.base = some orig) :
    Survives Returns (Journaled parent base orig files j)
      (fun res w => Journaled parent base orig files j w ∧ (res = .ok () → Placed parent base orig files j w))
      (ask (.rename j.rollback.base base)) w := by
  obtain ⟨-, hbr, -⟩ := h.names
  refine ⟨h, ?_⟩
  rintro r w' (⟨e, rfl, rfl⟩ | ⟨t, ht, -, rfl, rfl⟩)
  · exact ⟨h, h, nofun⟩
  · obtain rfl : orig = t := Option.some.inj (hroll.symm.trans ht)
    have hroot : ((w.setDir j.rollback.base none).setDir base (some orig)).dirs base = some orig := by simp
    have hgone : ((w.setDir j.rollback.base none).setDir base (some orig)).dirs j.rollback.base = none := by
      rw [Parent.setDir_ne _ _ hbr.symm, Parent.setDir_self]
    have hback : Journaled parent base orig files j ((w.setDir j.rollback.base none).setDir base (some orig)) :=
      ⟨h.file, h.confined, .undone hphase hroot hgone⟩
    exact ⟨hback, hback, fun _ => ⟨hback, .inl hroot, hgone⟩⟩

theorem settle_placed :
    Survives Returns (Journaled parent base orig files j)
      (fun res w => Journaled parent base orig files j w ∧ (res = .ok () → Placed parent base orig files j w))
      (settle base j (w.dirs base).isSome (w.dirs j.rollback.base).isSome) w := by
  obtain ⟨hbs, hbr, hsr⟩ := h.names
  cases h.pending with
  | done t hphase ht hroot =>
    rw [settle, hphase]
    simp [hroot]
    cases hroll : w.dirs j.rollback.base with
    | none => exact ⟨h, fun _ => ⟨h, .inr ⟨t, ht, hroot⟩, hroll⟩⟩
    | some =>
      have hkept : ∀ d, Journaled parent base orig files j (w.setDir j.rollback.base d) := fun d =>
        ⟨h.file, h.confined, .done t hphase ht (by rw [w.setDir_ne d hbr, hroot])⟩
      refine ⟨h, ?_⟩
      rintro r w' (⟨rfl, rfl⟩ | ⟨e, d, rfl, rfl, -⟩)
      · refine ⟨hkept none, hkept none, fun _ => ⟨hkept none, .inr ⟨t, ht, ?_⟩, by simp⟩⟩
        rw [w.setDir_ne none hbr, hroot]
      · exact ⟨hkept d, hkept d, nofun⟩
  | undone hphase hroot hroll =>
    have heq : settle base j (w.dirs base).isSome (w.dirs j.rollback.base).isSome = .ret (.ok ()) := by
      rw [hroot, hroll, settle]
      rcases hphase with hphase | hphase <;> rw [hphase] <;> rfl
    rw [heq]
    exact ⟨h, fun _ => ⟨h, .inl hroot, hroll⟩⟩
  | aside hphase hroll =>
    have heq : settle base j (w.dirs base).isSome (w.dirs j.rollback.base).isSome =
        (if (w.dirs base).isSome then ask (.removeAll base) else return .ok ()).andThen
          fun _ => ask (.rename j.rollback.base base) := by
      rw [hroll, settle]
      rcases hphase with hphase | hphase <;> rw [hphase] <;> rfl
    rw [heq]
    have haside : ∀ d, Journaled parent base orig files j (w.setDir base d) := fun d =>
      ⟨h.file, h.confined, .aside hphase (by rw [w.setDir_ne d hbr.symm, hroll])⟩
    -- The removal of what was activated can stop half way; the original is still aside.
    have hcleared : Survives Returns (Journaled parent base orig files j)
        (fun _ w => Journaled parent base orig files j w ∧ w.dirs j.rollback.base = some orig)
        (if (w.dirs base).isSome then ask (.removeAll base) else return .ok () : Steps (Except String Unit)) w := by
      by_cases hlive : (w.dirs base).isSome = true
      · rw [if_pos hlive]
        refine ⟨h, ?_⟩
        rintro r w' (⟨rfl, rfl⟩ | ⟨e, d, rfl, rfl, -⟩)
        · exact ⟨haside none, haside none, by rw [w.setDir_ne none hbr.symm, hroll]⟩
        · exact ⟨haside d, haside d, by rw [w.setDir_ne d hbr.symm, hroll]⟩
      · rw [if_neg hlive]
        exact ⟨h, hroll⟩
    refine hcleared.andThen ?_ ?_
    · exact fun e w' hw => ⟨hw.1, nofun⟩
    · exact fun _ w' hw => rename_back hw.1 hphase hw.2

omit h

def Recovering (parent base : Text) (orig : Target Bytes κ) (files : List ZipFile) (j : Journal) (w : Parent κ) : Prop :=
  Journaled parent base orig files j w ∨ Settled base orig files j w

def Recovered (parent base : Text) (orig : Target Bytes κ) (files : List ZipFile) (j : Journal)
    (res : Except String Unit) (w : Parent κ) : Prop :=
  Recovering parent base orig files j w ∧ (res = .ok () → Settled base orig files j w)

theorem clear_settled (h : Placed parent base orig files j w) :
    Survives Returns (Recovering parent base orig files j)
      (Recovered parent base orig files j)
      ((ask (.removeAll j.staging.base)).andThen fun _ =>
        (ask (.remove (restoreJournalPath base))).andThen fun _ => ask .sync) w := by
  have hremoved : Survives Returns (Recovering parent base orig files j)
      (fun res w => Placed parent base orig files j w ∧ (res = .ok () → w.dirs j.staging.base = none))
      (ask (.removeAll j.staging.base)) w := by
    refine ⟨.inl h.toJournaled, ?_⟩
    rintro r w' (⟨rfl, rfl⟩ | ⟨e, d, rfl, rfl, -⟩)
    · have hplaced := h.setDir_staging none
      exact ⟨.inl hplaced.toJournaled, hplaced, fun _ => w.setDir_self _ _⟩
    · have hplaced := h.setDir_staging d
      exact ⟨.inl hplaced.toJournaled, hplaced, nofun⟩
  refine hremoved.andThen (fun e w' hw => ⟨.inl hw.1.toJournaled, nofun⟩) ?_
  rintro _ w₁ ⟨hw₁, hgone⟩
  have hstaging := hgone rfl
  have hjournal : Survives Returns (Recovering parent base orig files j)
      (Recovered parent base orig files j)
      (ask (.remove (restoreJournalPath base))) w₁ := by
    refine ⟨.inl hw₁.toJournaled, ?_⟩
    rintro r w' (⟨e, rfl, rfl⟩ | ⟨-, rfl, rfl⟩)
    · exact ⟨.inl hw₁.toJournaled, .inl hw₁.toJournaled, nofun⟩
    · have hsettled : Settled base orig files j (w₁.setFile (restoreJournalPath base) none) :=
        ⟨⟨by simp, hw₁.whole⟩, hstaging, hw₁.rollback⟩
      exact ⟨.inr hsettled, .inr hsettled, fun _ => hsettled⟩
  refine hjournal.andThen (fun e w' hw => ⟨hw.1, nofun⟩) ?_
  rintro _ w₂ ⟨-, hsettled⟩
  refine ⟨.inr (hsettled rfl), ?_⟩
  rintro r w' rfl
  exact ⟨.inr (hsettled rfl), .inr (hsettled rfl), fun _ => hsettled rfl⟩

theorem recover_journaled (h : Journaled parent base orig files j w) :
    Survives Returns (Recovering parent base orig files j)
      (Recovered parent base orig files j)
      (recoverInterruptedRestore parent base) w := by
  have hread : Survives Returns (Recovering parent base orig files j)
      (fun res w' => w' = w ∧ (res = .ok (some (.decoded j)) ∨ ∃ e, res = .error e))
      (ask (.readFile (restoreJournalPath base))) w := by
    refine ⟨.inl h, ?_⟩
    rintro r w' ⟨rfl, hr⟩
    rw [h.file] at hr
    exact ⟨.inl h, rfl, hr⟩
  refine hread.andThen ?_ ?_
  · rintro e w' ⟨rfl, -⟩
    exact ⟨.inl h, nofun⟩
  · rintro found w' ⟨rfl, hfound | ⟨e, he⟩⟩
    · cases hfound
      simp [h.confined]
      refine ⟨.inl h, ?_⟩
      rintro _ w' ⟨rfl, rfl⟩
      refine ⟨.inl h, .inl h, ?_⟩
      rintro _ w' ⟨rfl, rfl⟩
      refine ⟨.inl h, ?_⟩
      refine ((settle_placed h).mono (fun w hw => .inl hw) fun res w hw => hw).andThen
        (fun e w' hw => ⟨.inl hw.1, nofun⟩) ?_
      exact fun _ w' hw => clear_settled (hw.2 rfl)
    · cases he

theorem recover_nothing {I : Parent κ → Prop} (hI : ∀ w, I w → w.files (restoreJournalPath base) = none) (hw : I w) :
    Survives Returns I (fun _ => I) (recoverInterruptedRestore parent base) w := by
  have hread : Survives Returns I (fun res w' => w' = w ∧ (res = .ok none ∨ ∃ e, res = .error e))
      (ask (.readFile (restoreJournalPath base))) w := by
    refine ⟨hw, ?_⟩
    rintro r w' ⟨rfl, hr⟩
    rw [hI w' hw] at hr
    exact ⟨hw, rfl, hr⟩
  refine hread.andThen ?_ ?_
  · rintro e w' ⟨rfl, -⟩
    exact hw
  · rintro found w' ⟨rfl, hfound | ⟨e, he⟩⟩
    · cases hfound
      exact hw
    · cases he

end

/-! ## Recovery of other servers -/

def NamedAfter (n x : Text) : Prop := ∃ rest, x = '.' :: (n ++ '.' :: rest)

variable {n x m base parent : Text}

theorem namedAfter_staging (h : stagingPattern n <+: x) : NamedAfter n x := by
  obtain ⟨rest, rfl⟩ := h
  exact ⟨"restore-".toList ++ rest, by rw [stagingPattern, cons_append, append_assoc, cons_append]⟩

theorem namedAfter_rollback (h : rollbackPattern n <+: x) : NamedAfter n x := by
  obtain ⟨rest, rfl⟩ := h
  exact ⟨"rollback-".toList ++ rest, by rw [rollbackPattern, cons_append, append_assoc, cons_append]⟩

theorem namedAfter_journal (n : Text) : NamedAfter n (restoreJournalPath n) := ⟨_, rfl⟩

theorem validNamespace_dot (h : validNamespace n = true) : '.' ∉ n := by
  simp [validNamespace] at h
  intro hdot
  exact absurd (h.2 _ hdot) (by decide)

theorem namedAfter_unique (hn : validNamespace n = true) (hm : validNamespace m = true)
    (h : NamedAfter n x) (h' : NamedAfter m x) : n = m := by
  have hcut : ∀ {k rest : Text}, validNamespace k = true → (k ++ '.' :: rest).takeWhile (· ≠ '.') = k := by
    intro k rest hk
    rw [takeWhile_append_of_pos]
    · simp
    · intro c hc
      have : c ≠ '.' := fun heq => validNamespace_dot hk (heq ▸ hc)
      simpa using this
  obtain ⟨rest, rfl⟩ := h
  obtain ⟨rest', heq⟩ := h'
  rw [List.cons.injEq] at heq
  rw [← hcut hn, heq.2, hcut hm]

theorem not_namedAfter (hm : validNamespace m = true) : ¬ NamedAfter n m := by
  rintro ⟨rest, rfl⟩
  exact validNamespace_dot hm (by simp)

def Ours (base x : Text) : Prop := x = base ∨ stagingPattern base <+: x ∨ rollbackPattern base <+: x

theorem ours_cases (h : Ours base x) : x = base ∨ NamedAfter base x := by
  obtain rfl | h | h := h
  · exact .inl rfl
  · exact .inr (namedAfter_staging h)
  · exact .inr (namedAfter_rollback h)

def Foreign (base : Text) : FileStep → Prop
  | .rename source target => ¬ Ours base source ∧ ¬ Ours base target
  | .removeAll n => ¬ Ours base n
  | .remove n => n ≠ restoreJournalPath base
  | .mkdirTemp _ => False
  | .extract _ _ => False
  | .renameTemp _ _ => False
  | _ => True

def Local (base : Text) (I : Parent κ → Prop) : Prop :=
  ∀ w w' : Parent κ, (∀ x, Ours base x → w'.dirs x = w.dirs x) →
    w'.files (restoreJournalPath base) = w.files (restoreJournalPath base) → I w → I w'

theorem setDir_ours {w : Parent κ} {d : Option (Target Bytes κ)} (hn : ¬ Ours base n) :
    ∀ x, Ours base x → (w.setDir n d).dirs x = w.dirs x := by
  intro x hx
  refine w.setDir_ne d ?_
  rintro rfl
  exact hn hx

theorem foreign_keeps {I : Parent κ → Prop} (hI : Local base I) (w : Parent κ) (c : FileStep)
    (r : c.Answer) (w' : Parent κ) (hc : Foreign base c) (hw : I w) (hr : Returns w c r w') : I w' := by
  cases c with
  | verifyBackup | writeTemp | sync => exact hr ▸ hw
  | canonical | readFile | lstat | readDir => exact hr.1 ▸ hw
  | mkdirTemp | extract | renameTemp => exact hc.elim
  | unixNano =>
    obtain ⟨-, -, rfl, -⟩ := hr
    exact hw
  | rename =>
    obtain ⟨-, -, rfl⟩ | ⟨t, -, -, -, rfl⟩ := hr
    · exact hw
    · refine hI w _ ?_ rfl hw
      intro x hx
      rw [setDir_ours hc.2 x hx, setDir_ours hc.1 x hx]
  | removeAll =>
    obtain ⟨-, rfl⟩ | ⟨-, d, -, rfl, -⟩ := hr
    · exact hI w _ (setDir_ours hc) rfl hw
    · exact hI w _ (setDir_ours hc) rfl hw
  | remove =>
    obtain ⟨-, -, rfl⟩ | ⟨-, -, rfl⟩ := hr
    · exact hw
    · exact hI w _ (fun _ _ => rfl) (w.setFile_ne none (Ne.symm hc)) hw

theorem foreign_ask {c : FileStep} (h : Foreign base c) : All (Foreign base) (ask c) := ⟨h, fun _ => trivial⟩

theorem foreign_recover (hbase : validNamespace base = true) (hn : validNamespace n = true)
    (hne : n ≠ base) : All (Foreign base) (recoverInterruptedRestore parent n) := by
  have hself : ¬ Ours base n := by
    intro h
    obtain rfl | h := ours_cases h
    · exact hne rfl
    · exact not_namedAfter hn h
  have hnamed : ∀ x, NamedAfter n x → ¬ Ours base x := by
    intro x hx h
    obtain rfl | h := ours_cases h
    · exact not_namedAfter hbase hx
    · exact hne (namedAfter_unique hn hbase hx h)
  have hjournal : restoreJournalPath n ≠ restoreJournalPath base := by
    intro heq
    exact hne (namedAfter_unique hn hbase (namedAfter_journal n) (heq ▸ namedAfter_journal base))
  refine All.andThen (foreign_ask trivial) ?_
  intro found
  cases found with
  | none => trivial
  | some file =>
    cases file with
    | undecodable => trivial
    | decoded j =>
      by_cases hj : confined parent n j = true
      · obtain ⟨-, -, hs, hr⟩ := confined_iff.mp hj
        have hstaging := hnamed _ (namedAfter_staging hs)
        have hrollback := hnamed _ (namedAfter_rollback hr)
        simp [hj]
        refine ⟨trivial, fun rootExists => ⟨trivial, fun rollbackExists => ?_⟩⟩
        refine All.andThen ?_ fun _ => All.andThen (foreign_ask hstaging) fun _ =>
          All.andThen (foreign_ask hjournal) fun _ => foreign_ask trivial
        have hrename : All (Foreign base) (ask (.rename j.rollback.base n)) := foreign_ask ⟨hrollback, hself⟩
        have hremove : All (Foreign base) (ask (.removeAll n)) := foreign_ask hself
        unfold settle
        cases j.phase with
        | activated =>
          cases rootExists <;> cases rollbackExists
          · trivial
          · exact hrename
          · trivial
          · exact foreign_ask hrollback
        | unknown => trivial
        | prepared | liveMoved =>
          cases rollbackExists <;> cases rootExists
          · trivial
          · trivial
          · exact hrename
          · exact All.andThen hremove fun _ => hrename
      · simp only [hj, Bool.not_false, if_true]
        trivial

theorem journalNamespace_path (n : Text) : journalNamespace (restoreJournalPath n) = some n := by
  have hsuffix : journalSuffix.isSuffixOf (n ++ journalSuffix) = true :=
    isSuffixOf_iff_suffix.mpr ⟨n, rfl⟩
  have hpath : journalSuffix.isSuffixOf (restoreJournalPath n) = true :=
    isSuffixOf_iff_suffix.mpr ⟨'.' :: n, rfl⟩
  have hdrop : (restoreJournalPath n).drop 1 = n ++ journalSuffix := rfl
  have hhead : (restoreJournalPath n).head? = some '.' := rfl
  rw [journalNamespace]
  simp [hpath, hdrop, hhead, hsuffix]

section
variable {parent base : Text} {orig : Target Bytes κ} {files : List ZipFile} {w : Parent κ}

theorem Clean.isLocal : Local base (Clean base orig files) := by
  rintro w w' hdirs hfile ⟨h, hwhole⟩
  refine ⟨hfile.trans h, ?_⟩
  rw [Whole, hdirs base (.inl rfl)]
  exact hwhole

theorem Journaled.isLocal : Local base (Journaled parent base orig files j) := by
  intro w w' hdirs hfile h
  obtain ⟨-, -, -, hr⟩ := confined_iff.mp h.confined
  have hroot := hdirs base (.inl rfl)
  have hrollback := hdirs j.rollback.base (.inr (.inr hr))
  refine ⟨hfile.trans h.file, h.confined, ?_⟩
  cases h.pending with
  | undone hphase h1 h2 => exact .undone hphase (hroot.trans h1) (hrollback.trans h2)
  | aside hphase h1 => exact .aside hphase (hrollback.trans h1)
  | done t hphase ht h1 => exact .done t hphase ht (hroot.trans h1)

theorem Settled.isLocal (hj : confined parent base j = true) : Local base (Settled base orig files j) := by
  intro w w' hdirs hfile h
  obtain ⟨-, -, hs, hr⟩ := confined_iff.mp hj
  exact ⟨Clean.isLocal w w' hdirs hfile h.toClean, (hdirs _ (.inr (.inl hs))).trans h.staging,
    (hdirs _ (.inr (.inr hr))).trans h.rollback⟩

theorem Recovering.isLocal (hj : confined parent base j = true) : Local base (Recovering parent base orig files j) := by
  rintro w w' hdirs hfile (h | h)
  · exact .inl (Journaled.isLocal w w' hdirs hfile h)
  · exact .inr (Settled.isLocal hj w w' hdirs hfile h)

theorem recover_recovering (h : Recovering parent base orig files j w) :
    Survives Returns (Recovering parent base orig files j) (Recovered parent base orig files j)
      (recoverInterruptedRestore parent base) w := by
  obtain h | h := h
  · exact recover_journaled h
  · have hnothing : Survives Returns (Settled base orig files j) (fun _ => Settled base orig files j)
        (recoverInterruptedRestore parent base) w := recover_nothing (fun w hw => hw.file) h
    exact hnothing.mono (fun w hw => .inr hw) fun _ w hw => ⟨.inr hw, fun _ => hw⟩

theorem recoverEach_keeps {I : Parent κ → Prop} (hbase : validNamespace base = true) (hI : Local base I)
    (hours : ∀ w, I w → Survives Returns I (fun _ => I) (recoverInterruptedRestore parent base) w) :
    ∀ (names : List Text) (errs : List String) (w : Parent κ), I w →
      Survives Returns I (fun _ => I) (recoverEach parent names errs) w
  | [], _, _, hw => hw
  | name :: rest, errs, w, hw => by
    rw [recoverEach]
    cases journalNamespace name with
    | none => exact recoverEach_keeps hbase hI hours rest errs w hw
    | some n =>
      by_cases hn : validNamespace n = true
      · simp [hn]
        have hone : Survives Returns I (fun _ => I) (recoverInterruptedRestore parent n) w := by
          by_cases heq : n = base
          · exact heq ▸ hours w hw
          · exact (foreign_recover hbase hn heq).survives (foreign_keeps hI) hw
        refine hone.bind ?_
        intro res w' hw'
        cases res with
        | error => exact recoverEach_keeps hbase hI hours rest _ w' hw'
        | ok => exact recoverEach_keeps hbase hI hours rest errs w' hw'
      · simp [hn]
        exact recoverEach_keeps hbase hI hours rest _ w hw

theorem recoverEach_settles (hbase : validNamespace base = true) (hj : confined parent base j = true) :
    ∀ (names : List Text) (errs : List String) (w : Parent κ), Recovering parent base orig files j w →
      (errs = [] → restoreJournalPath base ∈ names ∨ Settled base orig files j w) →
      Survives Returns (Recovering parent base orig files j) (Recovered parent base orig files j)
        (recoverEach parent names errs) w
  | [], errs, w, hw, hdue => by
    refine ⟨hw, ?_⟩
    intro hok
    by_cases herrs : errs = []
    · obtain hmem | hsettled := hdue herrs
      · cases hmem
      · exact hsettled
    · rw [if_neg herrs] at hok
      cases hok
  | name :: rest, errs, w, hw, hdue => by
    rw [recoverEach]
    cases hname : journalNamespace name with
    | none =>
      refine recoverEach_settles hbase hj rest errs w hw fun herrs => ?_
      refine (hdue herrs).imp_left fun hmem => ?_
      obtain rfl | hmem := mem_cons.mp hmem
      · rw [journalNamespace_path] at hname
        cases hname
      · exact hmem
    | some n =>
      by_cases hn : validNamespace n = true
      · simp [hn]
        by_cases heq : n = base
        · rw [heq]
          refine (recover_recovering hw).bind ?_
          intro res w' hres
          cases res with
          | error => exact recoverEach_settles hbase hj rest _ w' hres.1 fun herrs => by simp at herrs
          | ok => exact recoverEach_settles hbase hj rest errs w' hres.1 fun _ => .inr (hres.2 rfl)
        · -- Another server: this one's journal is still to come, or settled already.
          have hmem : restoreJournalPath base ∈ name :: rest → restoreJournalPath base ∈ rest := by
            intro hmem
            obtain rfl | hmem := mem_cons.mp hmem
            · rw [journalNamespace_path] at hname
              exact absurd (Option.some.inj hname).symm heq
            · exact hmem
          have hforeign : All (Foreign base) (recoverInterruptedRestore parent n) := foreign_recover hbase hn heq
          by_cases hsettled : Settled base orig files j w
          · refine ((hforeign.survives (foreign_keeps (Settled.isLocal hj)) hsettled).mono (fun w hw => Or.inr hw)
              fun _ w hw => hw).bind ?_
            intro res w' hw'
            cases res with
            | error => exact recoverEach_settles hbase hj rest _ w' (.inr hw') fun herrs => by simp at herrs
            | ok => exact recoverEach_settles hbase hj rest errs w' (.inr hw') fun _ => .inr hw'
          · refine (hforeign.survives (foreign_keeps (Recovering.isLocal hj)) hw).bind ?_
            intro res w' hw'
            cases res with
            | error => exact recoverEach_settles hbase hj rest _ w' hw' fun herrs => by simp at herrs
            | ok =>
              exact recoverEach_settles hbase hj rest errs w' hw' fun herrs =>
                .inl (hmem ((hdue herrs).resolve_right hsettled))
      · simp [hn]
        exact recoverEach_settles hbase hj rest _ w hw fun herrs => by simp at herrs

end

/-! ## The two ways to recover -/

inductive Recovery
  | server
  | dataRoot
  deriving DecidableEq

def Recovery.program (parent base : Text) : Recovery → Steps (Except String Unit)
  | .server => recoverInterruptedRestore parent base
  | .dataRoot => recoverRestoreJournals parent

section
variable {parent base : Text} {orig : Target Bytes κ} {files : List ZipFile} {w : Parent κ}
variable {a : Recovery}

variable (hbase : a = .dataRoot → validNamespace base = true)
include hbase

theorem recovery_clean (h : Clean base orig files w) :
    Survives Returns (Clean base orig files) (fun _ => Clean base orig files) (a.program parent base) w := by
  cases a with
  | server => exact recover_nothing (fun w hw => hw.file) h
  | dataRoot =>
    have hlisted : Survives Returns (Clean base orig files) (fun _ => Clean base orig files) (ask .readDir) w := by
      refine ⟨h, ?_⟩
      rintro r w' ⟨rfl, -⟩
      exact ⟨h, h⟩
    refine hlisted.andThen (fun e w' hw => hw) ?_
    intro names w' hw'
    exact recoverEach_keeps (hbase rfl) Clean.isLocal (fun w hw => recover_nothing (fun w hw => hw.file) hw) names [] w' hw'

theorem recovery_recovering
    (hj : confined parent base j = true) (h : Recovering parent base orig files j w) :
    Survives Returns (Recovering parent base orig files j) (Recovered parent base orig files j)
      (a.program parent base) w := by
  cases a with
  | server => exact recover_recovering h
  | dataRoot =>
    have hlisted : Survives Returns (Recovering parent base orig files j)
        (fun res w' => Recovering parent base orig files j w' ∧
          ∀ names, res = .ok names → restoreJournalPath base ∈ names ∨ Settled base orig files j w')
        (ask .readDir) w := by
      refine ⟨h, ?_⟩
      rintro r w' ⟨rfl, hnames⟩
      refine ⟨h, h, fun names hr => ?_⟩
      obtain h | h := h
      · exact .inl ((hnames names hr _).mpr (by simp [h.file]))
      · exact .inr h
    refine hlisted.andThen (fun e w' hw => ⟨hw.1, nofun⟩) ?_
    rintro names w' ⟨hw', hdue⟩
    exact recoverEach_settles (hbase rfl) hj names [] w' hw' fun _ => hdue names rfl

end

end ForgePlane.LocalBackup
