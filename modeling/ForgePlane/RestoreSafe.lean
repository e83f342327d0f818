import ForgePlane.RestoreRecovery

/-!
# A restore survives crashes

Whatever step of a restore fails and wherever it is cut off, what it leaves is
something recovery can go on from.
-/

namespace ForgePlane.LocalBackup

open Folders RunsTo

variable {κ : Type} {parent base : Text} {orig : Target Bytes κ} {files : List ZipFile} {j : Journal} {w : Parent κ}

variable {s : Text} {t : Target Bytes κ}

abbrev Safe (parent base : Text) (orig : Target Bytes κ) (files : List ZipFile) (p : Steps (Except String Unit))
    (w : Parent κ) : Prop :=
  Survives Returns (Consistent parent base orig files) (fun _ => Consistent parent base orig files) p w

variable (h : Consistent parent base orig files w)
include h

theorem Consistent.setDir_staging (hs : stagingPattern base <+: s)
    (d : Option (Target Bytes κ)) : Consistent parent base orig files (w.setDir s d) := by
  obtain h | ⟨j, h⟩ := h
  · refine .inl ⟨h.file, ?_⟩
    rw [Whole, w.setDir_ne d (base_ne_staging hs)]
    exact h.whole
  · obtain ⟨-, -, -, hr⟩ := confined_iff.mp h.confined
    exact .inr ⟨j, h.setDir d (base_ne_staging hs) (staging_ne_rollback hs hr).symm⟩

theorem survives_dropStaging (hs : stagingPattern base <+: s) (err : String) :
    Safe parent base orig files (dropStaging s err) w := by
  refine ⟨h, ?_⟩
  rintro r w' (⟨rfl, rfl⟩ | ⟨e, d, rfl, rfl, -⟩)
  · exact ⟨h.setDir_staging hs none, h.setDir_staging hs none⟩
  · exact ⟨h.setDir_staging hs d, h.setDir_staging hs d⟩

theorem survives_dropJournal (hwhole : Whole base orig files w) (hs : stagingPattern base <+: s) (err : String) :
    Safe parent base orig files (dropJournal base s err) w := by
  refine ⟨h, ?_⟩
  rintro r w' (⟨e, rfl, rfl⟩ | ⟨-, rfl, rfl⟩)
  · exact ⟨h, survives_dropStaging h hs err⟩
  · have hclean : Consistent parent base orig files (w.setFile (restoreJournalPath base) none) := .inl ⟨by simp, hwhole⟩
    exact ⟨hclean, survives_dropStaging hclean hs err⟩

omit h

theorem survives_moveBack (h : Journaled parent base orig files j w)
    (hphase : j.phase = .prepared ∨ j.phase = .liveMoved) (hroll : w.dirs j.rollback.base = some orig)
    (hs : stagingPattern base <+: s) (err : String) :
    Safe parent base orig files (moveBack base s j.rollback.base err) w := by
  refine ((rename_back h hphase hroll).mono (fun w hw => Or.inr ⟨j, hw⟩) fun _ _ hw => hw).bind ?_
  intro res w' hres
  cases res with
  | error => exact survives_dropStaging (.inr ⟨j, hres.1⟩) hs err
  | ok => exact survives_dropJournal (.inr ⟨j, hres.1⟩) (hres.2 rfl).whole hs err

theorem survives_writeRestoreJournal {C : Parent κ → Prop} (hbefore : C w)
    (hafter : C (w.setFile (restoreJournalPath base) (some (.decoded j)))) :
    Survives Returns C
      (fun res w' => w' = w ∧ (∃ e, res = .error e) ∨ w' = w.setFile (restoreJournalPath base) (some (.decoded j)))
      (writeRestoreJournal base j) w := by
  have hwritten : Survives Returns C (fun _ w' => w' = w) (ask (.writeTemp j)) w := by
    refine ⟨hbefore, ?_⟩
    rintro r w' rfl
    exact ⟨hbefore, rfl⟩
  refine hwritten.andThen (fun e w' hw => .inl ⟨hw, e, rfl⟩) ?_
  rintro _ w' rfl
  have hrenamed : Survives Returns C
      (fun res w'' => w'' = w' ∧ (∃ e, res = .error e) ∨
        w'' = w'.setFile (restoreJournalPath base) (some (.decoded j)) ∧ res = .ok ())
      (ask (.renameTemp (restoreJournalPath base) j)) w' := by
    refine ⟨hbefore, ?_⟩
    rintro r w'' (⟨e, rfl, rfl⟩ | ⟨rfl, rfl⟩)
    · exact ⟨hbefore, .inl ⟨rfl, e, rfl⟩⟩
    · exact ⟨hafter, .inr ⟨rfl, rfl⟩⟩
  refine hrenamed.andThen ?_ ?_
  · rintro e w'' (⟨rfl, -⟩ | ⟨-, hok⟩)
    · exact .inl ⟨rfl, e, rfl⟩
    · cases hok
  · rintro _ w'' (⟨-, e, he⟩ | ⟨rfl, -⟩)
    · cases he
    · refine ⟨hafter, ?_⟩
      rintro r w'' rfl
      exact ⟨hafter, .inr rfl⟩

theorem survives_finish (h : Consistent parent base orig files w)
    (hj : confined parent base j = true) (ht : extractArchive files = .ok t) (hroot : w.dirs base = some t) :
    Safe parent base orig files (finish base j.rollback.base j) w := by
  obtain ⟨-, -, hs, hr⟩ := confined_iff.mp hj
  have hbr := base_ne_rollback hr
  have hdone : ∀ w' : Parent κ, w'.files (restoreJournalPath base) = some (.decoded { j with phase := .activated }) →
      w'.dirs base = some t → Consistent parent base orig files w' := fun w' hfile hlive =>
    .inr ⟨_, hfile, hj, .done t rfl ht hlive⟩
  have hafter := hdone (w.setFile (restoreJournalPath base) (some (.decoded { j with phase := .activated }))) (by simp) hroot
  refine (survives_writeRestoreJournal h hafter).andThen ?_ ?_
  · rintro e w' (⟨rfl, -⟩ | rfl)
    · exact h
    · exact hafter
  rintro _ w₁ (⟨-, e, he⟩ | hw₁)
  · cases he
  rw [← hw₁] at hafter
  have hsync : Survives Returns (Consistent parent base orig files) (fun _ w' => w' = w₁) (ask .sync) w₁ := by
    refine ⟨hafter, ?_⟩
    rintro r w' rfl
    exact ⟨hafter, rfl⟩
  refine hsync.andThen (fun e w' hw => hw ▸ hafter) ?_
  rintro _ w₁ rfl
  have hremoved : Survives Returns (Consistent parent base orig files)
      (fun _ w' => w'.files (restoreJournalPath base) = some (.decoded { j with phase := .activated }) ∧
        w'.dirs base = some t) (ask (.removeAll j.rollback.base)) w₁ := by
    have hkept : ∀ d, (w₁.setDir j.rollback.base d).dirs base = some t := by
      intro d
      rw [Parent.setDir_ne _ d hbr, hw₁]
      exact hroot
    refine ⟨hafter, ?_⟩
    rintro r w' (⟨rfl, rfl⟩ | ⟨e, d, rfl, rfl, -⟩)
    · exact ⟨hdone _ (by simp [hw₁]) (hkept none), by simp [hw₁], hkept none⟩
    · exact ⟨hdone _ (by simp [hw₁]) (hkept d), by simp [hw₁], hkept d⟩
  refine hremoved.andThen (fun e w' hw => hdone w' hw.1 hw.2) ?_
  rintro _ w₂ ⟨hfile, hlive⟩
  have hclean : Consistent parent base orig files (w₂.setFile (restoreJournalPath base) none) :=
    .inl ⟨by simp, .inr ⟨t, ht, hlive⟩⟩
  have hjournal : Safe parent base orig files (ask (.remove (restoreJournalPath base))) w₂ := by
    refine ⟨hdone w₂ hfile hlive, ?_⟩
    rintro r w' (⟨e, rfl, rfl⟩ | ⟨-, rfl, rfl⟩)
    · exact ⟨hdone _ hfile hlive, hdone _ hfile hlive⟩
    · exact ⟨hclean, hclean⟩
  refine hjournal.andThen (fun e w' hw => hw) ?_
  intro _ w₃ hw₃
  refine ⟨hw₃, ?_⟩
  rintro r w' rfl
  exact ⟨hw₃, hw₃⟩

theorem survives_activate (hj : confined parent base j = true)
    (h : Journaled parent base orig files { j with phase := .liveMoved } w) (hroll : w.dirs j.rollback.base = some orig)
    (ht : extractArchive files = .ok t) (hstaging : w.dirs j.staging.base = some t) :
    Safe parent base orig files (activate base j.staging.base j.rollback.base j) w := by
  obtain ⟨-, hbr, hsr⟩ := h.names
  obtain ⟨-, -, hs, -⟩ := confined_iff.mp hj
  refine ⟨.inr ⟨_, h⟩, ?_⟩
  rintro r w' (⟨e, rfl, rfl⟩ | ⟨t', ht', -, rfl, rfl⟩)
  · exact ⟨.inr ⟨_, h⟩, survives_moveBack h (.inr rfl) hroll hs _⟩
  · obtain rfl : t = t' := Option.some.inj (hstaging.symm.trans ht')
    have haside : ((w.setDir j.staging.base none).setDir base (some t)).dirs j.rollback.base = some orig := by
      rw [Parent.setDir_ne _ _ hbr.symm, Parent.setDir_ne _ _ hsr.symm, hroll]
    have hmoved : Consistent parent base orig files ((w.setDir j.staging.base none).setDir base (some t)) :=
      .inr ⟨_, h.file, hj, .aside (.inr rfl) haside⟩
    exact ⟨hmoved, survives_finish hmoved hj ht (by simp)⟩

structure Ready (base : Text) (orig : Target Bytes κ) (files : List ZipFile) (j : Journal) (w : Parent κ) : Prop where
  file : w.files (restoreJournalPath base) = none
  root : w.dirs base = some orig
  staging : ∃ t, extractArchive files = .ok t ∧ w.dirs j.staging.base = some t
  rollback : w.dirs j.rollback.base = none

theorem survives_swap (hj : confined parent base j = true) (h : Ready base orig files j w) :
    Safe parent base orig files (swap base j.staging.base j.rollback.base j) w := by
  obtain ⟨-, -, hs, hr⟩ := confined_iff.mp hj
  have hbs := base_ne_staging hs
  have hbr := base_ne_rollback hr
  have hsr := staging_ne_rollback hs hr
  obtain ⟨t, ht, hstaging⟩ := h.staging
  have hclean : Consistent parent base orig files w := .inl ⟨h.file, .inl h.root⟩
  have hprepared : Journaled parent base orig files { j with phase := .prepared }
      (w.setFile (restoreJournalPath base) (some (.decoded { j with phase := .prepared }))) :=
    ⟨by simp, hj, .undone (.inl rfl) h.root h.rollback⟩
  refine (survives_writeRestoreJournal hclean (.inr ⟨_, hprepared⟩)).bind ?_
  rintro (e | _) w₁ hw₁
  · obtain ⟨rfl, -⟩ | rfl := hw₁
    · exact survives_dropStaging hclean hs _
    · exact survives_dropStaging (.inr ⟨_, hprepared⟩) hs _
  obtain ⟨-, e, he⟩ | rfl := hw₁
  · cases he
  refine ⟨.inr ⟨_, hprepared⟩, ?_⟩
  rintro r w₂ (⟨e, rfl, rfl⟩ | ⟨t', ht', -, rfl, rfl⟩)
  · exact ⟨.inr ⟨_, hprepared⟩, survives_dropJournal (.inr ⟨_, hprepared⟩) (.inl h.root) hs _⟩
  -- The original is aside; the journal still says prepared.
  obtain rfl : orig = t' := Option.some.inj (h.root.symm.trans ht')
  generalize hw₂ : ((w.setFile (restoreJournalPath base) (some (.decoded { j with phase := .prepared }))).setDir base
    none).setDir j.rollback.base (some orig) = w₂
  have hfile : w₂.files (restoreJournalPath base) = some (.decoded { j with phase := .prepared }) := by simp [← hw₂]
  have hroll : w₂.dirs j.rollback.base = some orig := by simp [← hw₂]
  have hstaged : w₂.dirs j.staging.base = some t := by
    rw [← hw₂, Parent.setDir_ne _ _ hsr, Parent.setDir_ne _ _ hbs.symm]
    exact hstaging
  have haside : Journaled parent base orig files { j with phase := .prepared } w₂ := ⟨hfile, hj, .aside (.inl rfl) hroll⟩
  have hmoved : Journaled parent base orig files { j with phase := .liveMoved }
      (w₂.setFile (restoreJournalPath base) (some (.decoded { j with phase := .liveMoved }))) :=
    ⟨by simp, hj, .aside (.inr rfl) hroll⟩
  refine ⟨.inr ⟨_, haside⟩, ?_⟩
  refine (survives_writeRestoreJournal (.inr ⟨_, haside⟩) (.inr ⟨_, hmoved⟩)).bind ?_
  rintro (e | _) w₃ hw₃
  · obtain ⟨rfl, -⟩ | rfl := hw₃
    · exact survives_moveBack haside (.inl rfl) hroll hs _
    · exact survives_moveBack hmoved (.inr rfl) hroll hs _
  obtain ⟨-, e, he⟩ | rfl := hw₃
  · cases he
  exact survives_activate hj hmoved hroll ht hstaged

structure Untouched (base : Text) (orig : Target Bytes κ) (w : Parent κ) : Prop where
  file : w.files (restoreJournalPath base) = none
  root : w.dirs base = some orig

theorem Untouched.consistent (h : Untouched base orig w) : Consistent parent base orig files w := .inl ⟨h.file, .inl h.root⟩

theorem Untouched.setDir_staging (h : Untouched base orig w) (hs : stagingPattern base <+: s)
    (d : Option (Target Bytes κ)) : Untouched base orig (w.setDir s d) :=
  ⟨h.file, by rw [w.setDir_ne d (base_ne_staging hs), h.root]⟩

theorem survives_extractAll (hs : stagingPattern base <+: s) (h : Untouched base orig w)
    (ht : w.dirs s = some t) (files : List ZipFile) :
    Survives Returns (Untouched base orig)
      (fun res w' => Untouched base orig w' ∧
        (res = .ok () → ∃ t', files.foldlM extractEntry t = .ok t' ∧ w'.dirs s = some t'))
      (extractAll s files) w := by
  induction files generalizing w t with
  | nil => exact ⟨h, fun _ => ⟨t, rfl, ht⟩⟩
  | cons file files ih =>
    have hfirst : Survives Returns (Untouched base orig)
        (fun res w' => Untouched base orig w' ∧ (res = .ok () → ∃ t', extractEntry t file = .ok t' ∧ w'.dirs s = some t'))
        (ask (.extract s file)) w := by
      refine ⟨h, ?_⟩
      rintro r w' (⟨e, d, rfl, rfl⟩ | ⟨t₀, t', ht₀, hex, rfl, rfl⟩)
      · exact ⟨h.setDir_staging hs d, h.setDir_staging hs d, nofun⟩
      · obtain rfl : t = t₀ := Option.some.inj (ht.symm.trans ht₀)
        exact ⟨h.setDir_staging hs _, h.setDir_staging hs _, fun _ => ⟨t', hex, by simp⟩⟩
    refine hfirst.andThen (fun e w' hw => ⟨hw.1, nofun⟩) ?_
    rintro _ w' ⟨hw', hok⟩
    obtain ⟨t', hex, ht'⟩ := hok rfl
    refine (ih hw' ht').mono (fun _ hw => hw) ?_
    rintro res w'' ⟨hw'', hrest⟩
    refine ⟨hw'', fun hok => ?_⟩
    obtain ⟨t'', hfold, ht''⟩ := hrest hok
    refine ⟨t'', ?_, ht''⟩
    rw [List.foldlM_cons, hex]
    exact hfold

theorem survives_replaceTree (h : Untouched base orig w) :
    Safe parent base orig files (replaceTree parent base files) w := by
  have hmade : Survives Returns (Consistent parent base orig files)
      (fun res w' => Untouched base orig w' ∧
        ∀ s, res = .ok s → stagingPattern base <+: s ∧ w'.dirs s = some fun _ => none)
      (ask (.mkdirTemp (stagingPattern base))) w := by
    refine ⟨h.consistent, ?_⟩
    rintro r w' (⟨e, rfl, rfl⟩ | ⟨random, -, rfl, rfl⟩)
    · exact ⟨h.consistent, h, nofun⟩
    · have hs : stagingPattern base <+: stagingPattern base ++ random := List.prefix_append _ _
      refine ⟨(h.setDir_staging hs _).consistent, h.setDir_staging hs _, ?_⟩
      rintro s ⟨⟩
      exact ⟨hs, by simp⟩
  refine hmade.andThen (fun e w' hw => hw.1.consistent) ?_
  rintro s w₁ ⟨hw₁, hnew⟩
  obtain ⟨hs, hempty⟩ := hnew s rfl
  refine ((survives_extractAll hs hw₁ hempty files).mono (fun _ hw => hw.consistent) fun _ _ hw => hw).bind ?_
  rintro (e | _) w₂ ⟨hw₂, hok⟩
  · exact survives_dropStaging hw₂.consistent hs e
  obtain ⟨t, hex, ht⟩ := hok rfl
  refine ⟨hw₂.consistent, ?_⟩
  rintro nanos w₃ ⟨_, rfl, rfl, hfree⟩
  have hr : rollbackPattern base <+: rollbackPattern base ++ nanos := List.prefix_append _ _
  have hj : confined parent base ⟨⟨parent, s⟩, ⟨parent, rollbackPattern base ++ nanos⟩, .prepared⟩ = true :=
    confined_iff.mpr ⟨rfl, rfl, hs, hr⟩
  exact ⟨hw₂.consistent, survives_swap hj ⟨hw₂.file, hw₂.root, ⟨t, hex, ht⟩, hfree⟩⟩

theorem survives_restore (h : Untouched base orig w) :
    Safe parent base orig files (restore parent base files true) w := by
  have hverified : Survives Returns (Consistent parent base orig files) (fun _ => Untouched base orig)
      (ask .verifyBackup) w := by
    refine ⟨h.consistent, ?_⟩
    rintro r w' rfl
    exact ⟨h.consistent, h⟩
  refine hverified.andThen (fun e w' hw => hw.consistent) ?_
  intro _ w₁ hw₁
  have hrecovered : Survives Returns (Untouched base orig) (fun _ => Untouched base orig)
      (recoverInterruptedRestore parent base) w₁ := recover_nothing (fun w hw => hw.file) hw₁
  refine (hrecovered.mono (fun _ hw => hw.consistent) fun _ _ hw => hw).andThen (fun e w' hw => hw.consistent) ?_
  intro _ w₂ hw₂
  have hcanonical : Survives Returns (Consistent parent base orig files) (fun _ => Untouched base orig)
      (ask (.canonical base)) w₂ := by
    refine ⟨hw₂.consistent, ?_⟩
    rintro r w' ⟨rfl, -⟩
    exact ⟨hw₂.consistent, hw₂⟩
  refine hcanonical.andThen (fun e w' hw => hw.consistent) ?_
  intro _ w₃ hw₃
  cases validateArchive files with
  | error => exact hw₃.consistent
  | ok => exact survives_replaceTree hw₃

/-- After a truncating restore and recoveries that are cut off or fail anywhere, a recovery that ends without error
leaves the original or the restored tree, and nothing that the journal named. -/
theorem restore_crash_safe {w₀ w₁ w₂ w₃ : Parent κ} (hroot : w₀.dirs base = some orig)
    (hfile : w₀.files (restoreJournalPath base) = none) {o : Option (Except String Unit)}
    (hrestore : RunsTo Returns (restore parent base files true) w₀ o w₁) {attempts : List Recovery}
    (hattempts : Attempts Returns (attempts.map (Recovery.program parent base)) w₁ w₂) {last : Recovery}
    (hlast : RunsTo Returns (last.program parent base) w₂ (some (.ok ())) w₃)
    (hbase : .dataRoot ∈ last :: attempts → validNamespace base = true) :
    (w₃.dirs base = some orig ∨ ∃ t, extractArchive files = .ok t ∧ w₃.dirs base = some t) ∧
      ∀ file, w₁.files (restoreJournalPath base) = some file →
        w₃.files (restoreJournalPath base) = none ∧
          ∃ j, file = .decoded j ∧ w₃.dirs j.staging.base = none ∧ w₃.dirs j.rollback.base = none := by
  have hvalid : ∀ a ∈ attempts, a = .dataRoot → validNamespace base = true := fun a ha heq =>
    hbase (heq ▸ List.mem_cons_of_mem _ ha)
  have hlastValid : last = .dataRoot → validNamespace base = true := fun heq => hbase (heq ▸ List.mem_cons_self)
  have hconsistent : Consistent parent base orig files w₁ := by
    obtain ⟨-, h⟩ | ⟨-, -, h⟩ := (survives_restore ⟨hfile, hroot⟩).runsTo hrestore
    · exact h
    · exact h
  obtain hclean | ⟨j, hjournaled⟩ := hconsistent
  · have hw₂ : Clean base orig files w₂ := by
      refine Attempts.invariant ?_ hclean hattempts
      intro p hp w hw
      obtain ⟨a, ha, rfl⟩ := List.mem_map.mp hp
      exact recovery_clean (hvalid a ha) hw
    obtain ⟨hnone, -⟩ | ⟨-, -, hw₃⟩ := (recovery_clean hlastValid hw₂).runsTo hlast
    · cases hnone
    · refine ⟨hw₃.whole, fun file hfound => ?_⟩
      rw [hclean.file] at hfound
      cases hfound
  · have hw₂ : Recovering parent base orig files j w₂ := by
      refine Attempts.invariant ?_ (.inl hjournaled) hattempts
      intro p hp w hw
      obtain ⟨a, ha, rfl⟩ := List.mem_map.mp hp
      exact (recovery_recovering (hvalid a ha) hjournaled.confined hw).mono (fun _ hw => hw) fun _ _ hw => hw.1
    obtain ⟨hnone, -⟩ | ⟨res, hres, -, hw₃⟩ :=
        (recovery_recovering hlastValid hjournaled.confined hw₂).runsTo hlast
    · cases hnone
    · cases hres
      have hsettled := hw₃ rfl
      refine ⟨hsettled.whole, fun file hfound => ⟨hsettled.file, j, ?_, hsettled.staging, hsettled.rollback⟩⟩
      rw [hjournaled.file] at hfound
      exact (Option.some.inj hfound).symm

/-! A restore that is cut off while the original is aside. -/

def savedTree : Target Bytes Unit := fun p => if p = [['a']] then some .dir else none

def savedServer : Parent Unit where
  dirs := fun n => if n = ['s'] then some savedTree else none
  files := fun _ => none

def cutStaging : Text := stagingPattern ['s'] ++ ['1']

def cutRollback : Text := rollbackPattern ['s'] ++ ['2']

def cutJournal : Journal := ⟨⟨[], cutStaging⟩, ⟨[], cutRollback⟩, .prepared⟩

def preparedServer : Parent Unit :=
  (savedServer.setDir cutStaging (some fun _ => none)).setFile (restoreJournalPath ['s']) (some (.decoded cutJournal))

def cutServer : Parent Unit := (preparedServer.setDir ['s'] none).setDir cutRollback (some savedTree)

def backServer : Parent Unit := (cutServer.setDir cutRollback none).setDir ['s'] (some savedTree)

def recoveredServer : Parent Unit := (backServer.setDir cutStaging none).setFile (restoreJournalPath ['s']) none

theorem cutServer_runs : RunsTo Returns (restore [] ['s'] [] true) savedServer none cutServer := by
  refine step (r := .ok ()) rfl ?_
  refine step (r := .ok none) ⟨rfl, .inl rfl⟩ ?_
  refine step (r := .ok ()) ⟨rfl, fun _ => rfl⟩ ?_
  refine step (r := .ok cutStaging) (.inr ⟨['1'], by decide, rfl, rfl⟩) ?_
  refine step (r := ['2']) ⟨['2'], rfl, rfl, by decide +kernel⟩ ?_
  refine step (r := .ok ()) rfl ?_
  refine step (r := .ok ()) (.inr ⟨rfl, rfl⟩) ?_
  refine step (r := .ok ()) rfl ?_
  refine step (r := .ok ()) (.inr ⟨savedTree, ?_, .inl (by decide +kernel), rfl, rfl⟩) cut
  rw [Parent.setFile_dirs, Parent.setDir_ne _ _ (by decide)]
  rfl

theorem recoveredServer_runs : RunsTo Returns (Recovery.program [] ['s'] .server) cutServer (some (.ok ())) recoveredServer := by
  refine step (r := .ok (some (.decoded cutJournal))) ⟨rfl, .inl (by simp [cutServer, preparedServer])⟩ ?_
  refine step (r := false) ⟨rfl, by decide +kernel⟩ ?_
  refine step (r := true) ⟨rfl, by decide +kernel⟩ ?_
  refine step (r := .ok ()) (.inr ⟨savedTree, by simp [cutServer, cutJournal], .inl (by decide +kernel), rfl, rfl⟩) ?_
  refine step (r := .ok ()) (.inl ⟨rfl, rfl⟩) ?_
  refine step (r := .ok ()) (.inr ⟨?_, rfl, rfl⟩) ?_
  · decide +kernel
  · exact step (r := .ok ()) rfl ⟨rfl, rfl⟩

theorem restore_crash_safe_cut :
    cutServer.dirs ['s'] = none ∧
      (recoveredServer.dirs ['s'] = some savedTree ∨
        ∃ t, extractArchive [] = .ok t ∧ recoveredServer.dirs ['s'] = some t) ∧
      recoveredServer.files (restoreJournalPath ['s']) = none ∧ recoveredServer.dirs cutStaging = none ∧
      recoveredServer.dirs cutRollback = none := by
  have hjournal : cutServer.files (restoreJournalPath ['s']) = some (.decoded cutJournal) := by
    simp [cutServer, preparedServer]
  have hnone : Attempts Returns (([] : List Recovery).map (Recovery.program [] ['s'])) cutServer cutServer := rfl
  have hsafe := restore_crash_safe rfl rfl cutServer_runs hnone recoveredServer_runs (by decide)
  obtain ⟨hgone, j, hj, hstaging, hrollback⟩ := hsafe.2 _ hjournal
  cases hj
  exact ⟨by decide +kernel, hsafe.1, hgone, hstaging, hrollback⟩

end ForgePlane.LocalBackup
