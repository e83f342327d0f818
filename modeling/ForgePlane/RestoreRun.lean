import ForgePlane.RestoreRecovery

/-!
# What a backup restores to

A restore in which no step fails, of an archive that was created from a tree.
-/

namespace ForgePlane

open Prog

section
variable {Call : Type} {Resp : Call → Type} {W α β ε : Type} {handle : W → (c : Call) → Resp c × W}

variable {p : Prog Resp (Except ε α)} {f : α → Prog Resp (Except ε β)} {w w' : W}

theorem Prog.exec_andThen_ok {a : α}
    (h : p.exec handle w = (.ok a, w')) : (p.andThen f).exec handle w = (f a).exec handle w' := by
  rw [andThen, exec_bind, h]

theorem Prog.exec_andThen_error {e : ε}
    (h : p.exec handle w = (.error e, w')) : (p.andThen f).exec handle w = (.error e, w') := by
  rw [andThen, exec_bind, h]
  rfl

end

namespace LocalBackup

open Folders

variable {κ : Type}

structure Naming where
  random : Text
  nanos : Text
  listing : List Text

def Parent.handle (naming : Naming) (w : Parent κ) : (c : FileStep) → c.Answer × Parent κ
  | .verifyBackup => (.ok (), w)
  | .canonical n => (if (w.dirs n).isSome then .ok () else .error "no such file or directory", w)
  | .readFile n => (.ok (w.files n), w)
  | .lstat n => ((w.dirs n).isSome, w)
  | .mkdirTemp pattern =>
    if (w.dirs (pattern ++ naming.random)).isSome then (.error "file exists", w)
    else (.ok (pattern ++ naming.random), w.setDir (pattern ++ naming.random) (some fun _ => none))
  | .extract n file =>
    match w.dirs n with
    | none => (.error "no such file or directory", w.setDir n none)
    | some t =>
      match extractEntry t file with
      | .error e => (.error e, w.setDir n (some t))
      | .ok t' => (.ok (), w.setDir n (some t'))
  | .unixNano _ => (naming.nanos, w)
  | .writeTemp _ => (.ok (), w)
  | .renameTemp n j => (.ok (), w.setFile n (some (.decoded j)))
  | .rename source target =>
    match w.dirs source, w.dirs target with
    | none, _ => (.error "no such file or directory", w)
    | some _, some _ => (.error "file exists", w)
    | some t, none => (.ok (), (w.setDir source none).setDir target (some t))
  | .removeAll n => (.ok (), w.setDir n none)
  | .remove n => if (w.files n).isSome then (.ok (), w.setFile n none) else (.error "no such file or directory", w)
  | .sync => (.ok (), w)
  | .readDir => (.ok naming.listing, w)

/-! ## A restore that is not disturbed -/

section
variable {naming : Naming} {w : Parent κ} {parent base : Text} {files : List ZipFile}
variable {e : String} {t t' orig : Target Bytes κ} {r s source target pattern : Text}

theorem exec_ask (c : FileStep) : (ask c).exec (Parent.handle naming) w = w.handle naming c := rfl

theorem exec_extractAll_ok (ht : w.dirs s = some t) (h : files.foldlM extractEntry t = .ok t') :
    (extractAll s files).exec (Parent.handle naming) w = (.ok (), w.setDir s (some t')) := by
  induction files generalizing w t with
  | nil =>
    cases h
    rw [Parent.setDir, ← ht, Function.update_eq_self]
    rfl
  | cons file files ih =>
    rw [List.foldlM_cons] at h
    cases hfirst : extractEntry t file with
    | error =>
      rw [hfirst] at h
      cases h
    | ok t₁ =>
      rw [hfirst] at h
      have hstep : (ask (.extract s file)).exec (Parent.handle naming) w = (.ok (), w.setDir s (some t₁)) := by
        rw [exec_ask, Parent.handle, ht]
        simp [hfirst]
      rw [extractAll, exec_andThen_ok hstep, ih (w.setDir_self s _) h, Parent.setDir_setDir]

theorem exec_extractAll_error (ht : w.dirs s = some t) (h : files.foldlM extractEntry t = .error e) :
    ∃ w', (extractAll s files).exec (Parent.handle naming) w = (.error e, w') := by
  induction files generalizing w t with
  | nil => cases h
  | cons file files ih =>
    rw [List.foldlM_cons] at h
    cases hfirst : extractEntry t file with
    | error =>
      rw [hfirst] at h
      cases h
      have hstep : (ask (.extract s file)).exec (Parent.handle naming) w = (.error e, w.setDir s (some t)) := by
        rw [exec_ask, Parent.handle, ht]
        simp [hfirst]
      exact ⟨_, exec_andThen_error hstep⟩
    | ok t₁ =>
      rw [hfirst] at h
      have hstep : (ask (.extract s file)).exec (Parent.handle naming) w = (.ok (), w.setDir s (some t₁)) := by
        rw [exec_ask, Parent.handle, ht]
        simp [hfirst]
      obtain ⟨w', hrest⟩ := ih (w.setDir_self s _) h
      exact ⟨w', (exec_andThen_ok hstep).trans hrest⟩

theorem exec_writeRestoreJournal (j : Journal) :
    (writeRestoreJournal base j).exec (Parent.handle naming) w =
      (.ok (), w.setFile (restoreJournalPath base) (some (.decoded j))) := rfl

theorem exec_rename (hsource : w.dirs source = some t) (htarget : w.dirs target = none) :
    (ask (.rename source target)).exec (Parent.handle naming) w =
      (.ok (), (w.setDir source none).setDir target (some t)) := by
  rw [exec_ask, Parent.handle, hsource, htarget]

theorem exec_finish (hbr : base ≠ r) (hroot : w.dirs base = some t) (j : Journal) :
    ∃ w', (finish base r j).exec (Parent.handle naming) w = (.ok (), w') ∧ w'.dirs base = some t := by
  let w₁ := (w.setFile (restoreJournalPath base) (some (.decoded { j with phase := .activated }))).setDir r none
  refine ⟨w₁.setFile (restoreJournalPath base) none, ?_, ?_⟩
  · have hremove : (ask (.remove (restoreJournalPath base))).exec (Parent.handle naming) w₁ =
        (.ok (), w₁.setFile (restoreJournalPath base) none) := by
      rw [exec_ask, Parent.handle]
      simp [w₁]
    rw [finish, exec_andThen_ok (exec_writeRestoreJournal _)]
    exact exec_andThen_ok hremove
  · rw [Parent.setFile_dirs, Parent.setDir_ne _ _ hbr]
    exact hroot

theorem exec_activate (hbr : base ≠ r) (hstaging : w.dirs s = some t) (hfree : w.dirs base = none) (j : Journal) :
    ∃ w', (activate base s r j).exec (Parent.handle naming) w = (.ok (), w') ∧ w'.dirs base = some t := by
  rw [activate, exec_bind, exec_rename hstaging hfree]
  exact exec_finish hbr (Parent.setDir_self _ _ _) j

theorem exec_swap (hbs : base ≠ s) (hbr : base ≠ r) (hsr : s ≠ r)
    (hroot : w.dirs base = some orig) (hstaging : w.dirs s = some t) (hrollback : w.dirs r = none) (j : Journal) :
    ∃ w', (swap base s r j).exec (Parent.handle naming) w = (.ok (), w') ∧ w'.dirs base = some t := by
  have hmoved : ((w.setDir base none).setDir r (some orig)).dirs s = some t := by
    rw [Parent.setDir_ne _ _ hsr, Parent.setDir_ne _ _ hbs.symm, hstaging]
  have hfree : ((w.setDir base none).setDir r (some orig)).dirs base = none := by
    rw [Parent.setDir_ne _ _ hbr, Parent.setDir_self]
  rw [swap, exec_bind, exec_writeRestoreJournal]
  dsimp only
  rw [exec_bind, exec_rename (w := w.setFile _ _) hroot hrollback]
  dsimp only
  rw [exec_bind, exec_writeRestoreJournal]
  refine exec_activate hbr ?_ ?_ j
  · exact hmoved
  · exact hfree

theorem exec_recover_nothing (hfile : w.files (restoreJournalPath base) = none) :
    (recoverInterruptedRestore parent base).exec (Parent.handle naming) w = (.ok (), w) := by
  have hread : (ask (.readFile (restoreJournalPath base))).exec (Parent.handle naming) w = (.ok none, w) := by
    rw [exec_ask, Parent.handle, hfile]
  rw [recoverInterruptedRestore, exec_andThen_ok hread]
  rfl

theorem exec_mkdirTemp (hfree : w.dirs (pattern ++ naming.random) = none) :
    (ask (.mkdirTemp pattern)).exec (Parent.handle naming) w =
      (.ok (pattern ++ naming.random), w.setDir (pattern ++ naming.random) (some fun _ => none)) := by
  rw [exec_ask, Parent.handle, hfree]
  rfl

structure Undisturbed (naming : Naming) (base : Text) (orig : Target Bytes κ) (w : Parent κ) : Prop where
  file : w.files (restoreJournalPath base) = none
  root : w.dirs base = some orig
  staging : w.dirs (stagingPattern base ++ naming.random) = none
  rollback : w.dirs (rollbackPattern base ++ naming.nanos) = none

section
variable {orig : Target Bytes κ} (h : Undisturbed naming base orig w) (hvalid : validateArchive files = .ok ())
include h hvalid

theorem exec_restore_eq :
    (restore parent base files true).exec (Parent.handle naming) w =
      (replaceTree parent base files).exec (Parent.handle naming) w := by
  have hcanonical : (ask (.canonical base)).exec (Parent.handle naming) w = (.ok (), w) := by
    rw [exec_ask, Parent.handle, h.root]
    rfl
  have hverified : (ask .verifyBackup).exec (Parent.handle naming) w = (.ok (), w) := rfl
  rw [restore, exec_andThen_ok hverified, exec_andThen_ok (exec_recover_nothing h.file),
    exec_andThen_ok hcanonical, hvalid]
  rfl

theorem exec_restore_error (hex : (extractArchive files : Except String (Target Bytes κ)) = .error e) :
    ((restore parent base files true).exec (Parent.handle naming) w).1 = .error e := by
  have hfails : ∃ w', (extractAll (stagingPattern base ++ naming.random) files).exec (Parent.handle naming)
      (w.setDir (stagingPattern base ++ naming.random) (some fun _ => none)) = (.error e, w') :=
    exec_extractAll_error (w.setDir_self _ _) hex
  obtain ⟨w', hfails⟩ := hfails
  rw [exec_restore_eq h hvalid, replaceTree, exec_andThen_ok (exec_mkdirTemp h.staging), exec_bind, hfails]
  rfl

theorem exec_restore_ok (hex : extractArchive files = .ok t) :
    ∃ w', (restore parent base files true).exec (Parent.handle naming) w = (.ok (), w') ∧ w'.dirs base = some t := by
  have hs : stagingPattern base <+: stagingPattern base ++ naming.random := List.prefix_append _ _
  have hr : rollbackPattern base <+: rollbackPattern base ++ naming.nanos := List.prefix_append _ _
  have hbs := base_ne_staging hs
  have hbr := base_ne_rollback hr
  have hsr := staging_ne_rollback hs hr
  have hextracted : (extractAll (stagingPattern base ++ naming.random) files).exec (Parent.handle naming)
      (w.setDir (stagingPattern base ++ naming.random) (some fun _ => none)) =
      (.ok (), w.setDir (stagingPattern base ++ naming.random) (some t)) := by
    rw [exec_extractAll_ok (w.setDir_self _ _) hex, Parent.setDir_setDir]
  rw [exec_restore_eq h hvalid, replaceTree, exec_andThen_ok (exec_mkdirTemp h.staging), exec_bind, hextracted]
  dsimp only
  rw [exec_bind, exec_ask, Parent.handle]
  exact exec_swap hbs hbr hsr ((w.setDir_ne _ hbs).trans h.root) (w.setDir_self _ _)
    ((w.setDir_ne _ hsr.symm).trans h.rollback) _

end

/-! ## Backup and restore -/

/-- A backup is accepted, and an undisturbed restore yields what it did not skip, just when every directory it did not
skip has a name the restore can use. -/
theorem backup_restores_iff (ignored : Text → Bool) (t : FileTree Bytes κ) (hcreate : create ignored t = .ok files)
    {orig : Target Bytes κ} (h : Undisturbed naming base orig w) :
    (validateArchive files = .ok () ∧
      ((restore parent base files true).exec (Parent.handle naming) w).1 = .ok () ∧
      ((restore parent base files true).exec (Parent.handle naming) w).2.dirs base = some (kept ignored t).root.at) ↔
      ∀ e ∈ (kept ignored t).root.listing [], holdsDir e.2 = true → Rootfs.portable e.1 = true := by
  rw [← archive_accepted_iff ignored t hcreate]
  have hrestored : ∀ {t' : Target Bytes κ}, validateArchive files = .ok () → extractArchive files = .ok t' →
      ∃ w', (restore parent base files true).exec (Parent.handle naming) w = (.ok (), w') ∧ w'.dirs base = some t' :=
    fun hvalid hex => exec_restore_ok h hvalid hex
  constructor
  · rintro ⟨hvalid, hok, hroot⟩
    refine ⟨hvalid, ?_⟩
    cases hex : (extractArchive files : Except String (Target Bytes κ)) with
    | error =>
      rw [exec_restore_error h hvalid hex] at hok
      cases hok
    | ok =>
      obtain ⟨w', hrun, hlive⟩ := hrestored hvalid hex
      rw [hrun, hlive] at hroot
      rw [Option.some.inj hroot]
  · rintro ⟨hvalid, hex⟩
    obtain ⟨w', hrun, hlive⟩ := hrestored hvalid hex
    rw [hrun]
    exact ⟨hvalid, rfl, hlive⟩

end

def worldTree : FileTree Bytes Unit where
  root := .cons ['w'] (.dir (.cons ['a'] (.file [1]) (.cons ['b'] .symlink .nil))) .nil
  legal := by decide

def worldServer : Parent Unit where
  dirs := fun n => if n = ['s'] then some worldTree.root.at else none
  files := fun _ => none

theorem backup_restores_iff_world :
    ∃ files, create (fun _ => false) worldTree = .ok files ∧
      ((validateArchive files = .ok () ∧
        ((restore [] ['s'] files true).exec (Parent.handle ⟨['1'], ['2'], []⟩) worldServer).1 = .ok () ∧
        ((restore [] ['s'] files true).exec (Parent.handle ⟨['1'], ['2'], []⟩) worldServer).2.dirs ['s'] =
          some (kept (fun _ => false) worldTree).root.at) ↔
        ∀ e ∈ (kept (fun _ => false) worldTree).root.listing [], holdsDir e.2 = true → Rootfs.portable e.1 = true) :=
  ⟨_, rfl, backup_restores_iff (fun _ => false) worldTree rfl ⟨rfl, rfl, by decide +kernel, by decide +kernel⟩⟩

def backslashTree : FileTree Bytes Unit where
  root := .cons ['a', '\\', 'b'] (.dir .nil) .nil
  legal := by decide

theorem created_backup_refused :
    ∃ files, create (fun _ => false) backslashTree = .ok files ∧ ∀ u, validateArchive files ≠ .ok u :=
  ⟨_, rfl, nofun⟩

end LocalBackup

end ForgePlane
