import ForgePlane.Crash
import ForgePlane.LocalBackup

/-!
# Restoring a backup

A truncating restore extracts the archive beside the server directory and swaps the
two, with a journal that says how far it got. Recovery reads the journal and goes
back to the original or on to the restored tree.
-/

namespace ForgePlane.LocalBackup

open Folders

/-! ## The directory that holds the servers -/

inductive Phase
  | prepared
  | liveMoved
  | activated
  | unknown (text : String)

structure HostPath where
  dir : Text
  base : Text
  deriving DecidableEq

structure Journal where
  staging : HostPath
  rollback : HostPath
  phase : Phase

inductive JournalFile
  | undecodable
  | decoded (journal : Journal)

structure Parent (κ : Type) where
  dirs : Text → Option (Target Bytes κ)
  files : Text → Option JournalFile

namespace Parent

variable {κ : Type}
variable {m n : Text}

def setDir (w : Parent κ) (n : Text) (d : Option (Target Bytes κ)) : Parent κ :=
  { w with dirs := Function.update w.dirs n d }

def setFile (w : Parent κ) (n : Text) (f : Option JournalFile) : Parent κ :=
  { w with files := Function.update w.files n f }

variable (w : Parent κ)

@[simp] theorem setDir_files (n : Text) (d : Option (Target Bytes κ)) : (w.setDir n d).files = w.files := rfl

@[simp] theorem setFile_dirs (n : Text) (f : Option JournalFile) : (w.setFile n f).dirs = w.dirs := rfl

@[simp] theorem setDir_self (n : Text) (d : Option (Target Bytes κ)) : (w.setDir n d).dirs n = d := by
  simp [setDir]

theorem setDir_ne (d : Option (Target Bytes κ)) (h : m ≠ n) : (w.setDir n d).dirs m = w.dirs m := by
  simp [setDir, h]

@[simp] theorem setDir_setDir (n : Text) (d d' : Option (Target Bytes κ)) :
    (w.setDir n d).setDir n d' = w.setDir n d' := by
  simp [setDir]

@[simp] theorem setFile_self (n : Text) (f : Option JournalFile) : (w.setFile n f).files n = f := by
  simp [setFile]

theorem setFile_ne (f : Option JournalFile) (h : m ≠ n) : (w.setFile n f).files m = w.files m := by
  simp [setFile, h]

end Parent

inductive FileStep
  | verifyBackup
  | canonical (name : Text)
  | readFile (name : Text)
  | lstat (name : Text)
  | mkdirTemp (pattern : Text)
  | extract (name : Text) (file : ZipFile)
  | unixNano (pattern : Text)
  | writeTemp (journal : Journal)
  | renameTemp (name : Text) (journal : Journal)
  | rename (source target : Text)
  | removeAll (name : Text)
  | remove (name : Text)
  | sync
  | readDir

abbrev FileStep.Answer : FileStep → Type
  | .readFile _ => Except String (Option JournalFile)
  | .lstat _ => Bool
  | .mkdirTemp _ => Except String Text
  | .unixNano _ => Text
  | .readDir => Except String (List Text)
  | _ => Except String Unit

def Remnant {κ : Type} (t' t : Target Bytes κ) : Prop := ∀ p i, t' p = some i → t p = some i

/-- How a step can come back. Every step that changes something can also fail; a rename is done or not done, a
removal can stop half way, and nothing is said of the directory an extraction failed in. -/
def Returns {κ : Type} (w : Parent κ) : (c : FileStep) → c.Answer → Parent κ → Prop
  | .verifyBackup, _, w' => w' = w
  | .canonical n, r, w' => w' = w ∧ (r = .ok () → (w.dirs n).isSome)
  | .readFile n, r, w' => w' = w ∧ (r = .ok (w.files n) ∨ ∃ e, r = .error e)
  | .lstat n, r, w' => w' = w ∧ r = (w.dirs n).isSome
  | .mkdirTemp pattern, r, w' =>
    (∃ e, r = .error e ∧ w' = w) ∨
    ∃ random, w.dirs (pattern ++ random) = none ∧ r = .ok (pattern ++ random) ∧
      w' = w.setDir (pattern ++ random) (some fun _ => none)
  | .extract n file, r, w' =>
    (∃ e d, r = .error e ∧ w' = w.setDir n d) ∨
    ∃ t t', w.dirs n = some t ∧ extractEntry t file = .ok t' ∧ r = .ok () ∧ w' = w.setDir n (some t')
  -- The clock does not repeat the name of a directory that is still there.
  | .unixNano pattern, r, w' => ∃ nanos : Text, r = nanos ∧ w' = w ∧ w.dirs (pattern ++ nanos) = none
  | .writeTemp _, _, w' => w' = w
  | .renameTemp n j, r, w' => (∃ e, r = .error e ∧ w' = w) ∨ (r = .ok () ∧ w' = w.setFile n (some (.decoded j)))
  | .rename source target, r, w' =>
    (∃ e, r = .error e ∧ w' = w) ∨
    ∃ t, w.dirs source = some t ∧ (w.dirs target = none ∨ w.dirs target = some fun _ => none) ∧ r = .ok () ∧
      w' = (w.setDir source none).setDir target (some t)
  | .removeAll n, r, w' =>
    (r = .ok () ∧ w' = w.setDir n none) ∨
    ∃ e d, r = .error e ∧ w' = w.setDir n d ∧ ∀ t', d = some t' → ∃ t, w.dirs n = some t ∧ Remnant t' t
  | .remove n, r, w' =>
    (∃ e, r = .error e ∧ w' = w) ∨ ((w.files n).isSome ∧ r = .ok () ∧ w' = w.setFile n none)
  | .sync, _, w' => w' = w
  | .readDir, r, w' => w' = w ∧ ∀ names, r = .ok names → ∀ n, n ∈ names ↔ (w.files n).isSome

abbrev Steps (α : Type) := Prog FileStep.Answer α

def ask (c : FileStep) : Steps c.Answer := .call c .ret

def journalSuffix : Text := '.' :: "restore-journal.json".toList

def restoreJournalPath (base : Text) : Text := '.' :: (base ++ journalSuffix)

def stagingPattern (base : Text) : Text := '.' :: (base ++ '.' :: "restore-".toList)

def rollbackPattern (base : Text) : Text := '.' :: (base ++ '.' :: "rollback-".toList)

def confined (parent base : Text) (j : Journal) : Bool :=
  j.staging.dir = parent && j.rollback.dir = parent && (stagingPattern base).isPrefixOf j.staging.base &&
    (rollbackPattern base).isPrefixOf j.rollback.base

def settle (base : Text) (j : Journal) (rootExists rollbackExists : Bool) : Steps (Except String Unit) :=
  match j.phase with
  | .activated =>
    if !rootExists then
      if !rollbackExists then return .error "activated restore has neither live nor rollback data"
      else ask (.rename j.rollback.base base)
    else if rollbackExists then ask (.removeAll j.rollback.base)
    else return .ok ()
  | .unknown text => return .error ("unknown restore journal phase " ++ text)
  | _ =>
    if rollbackExists then
      (if rootExists then ask (.removeAll base) else return .ok ()).andThen fun _ => ask (.rename j.rollback.base base)
    else if !rootExists then return .error "interrupted restore has neither live nor rollback data"
    else return .ok ()

def recoverInterruptedRestore (parent base : Text) : Steps (Except String Unit) :=
  (ask (.readFile (restoreJournalPath base))).andThen fun
    | none => return .ok ()
    | some .undecodable => return .error "invalid restore journal"
    | some (.decoded j) =>
      if !confined parent base j then return .error "restore journal contains paths outside the server parent"
      else do
        let rootExists ← ask (.lstat base)
        let rollbackExists ← ask (.lstat j.rollback.base)
        (settle base j rootExists rollbackExists).andThen fun _ =>
          (ask (.removeAll j.staging.base)).andThen fun _ =>
            (ask (.remove (restoreJournalPath base))).andThen fun _ => ask .sync

def namespaceChar (c : Char) : Bool :=
  'a' ≤ c && c ≤ 'z' || 'A' ≤ c && c ≤ 'Z' || '0' ≤ c && c ≤ '9' || c = '-' || c = '_'

def validNamespace (n : Text) : Bool := n ≠ [] && n.length ≤ 128 && n.all namespaceChar

def journalNamespace (name : Text) : Option Text :=
  if name.head? = some '.' && journalSuffix.isSuffixOf name then
    let rest := name.drop 1
    some (if journalSuffix.isSuffixOf rest then rest.take (rest.length - journalSuffix.length) else rest)
  else none

def recoverEach (parent : Text) : List Text → List String → Steps (Except String Unit)
  | [], errs => return if errs = [] then .ok () else .error (String.intercalate "\n" errs)
  | name :: rest, errs =>
    match journalNamespace name with
    | none => recoverEach parent rest errs
    | some n =>
      if !validNamespace n then recoverEach parent rest (errs ++ ["invalid restore journal name " ++ quoted name])
      else do
        match ← recoverInterruptedRestore parent n with
        | .error e => recoverEach parent rest (errs ++ ["recover " ++ String.ofList n ++ ": " ++ e])
        | .ok () => recoverEach parent rest errs

def recoverRestoreJournals (parent : Text) : Steps (Except String Unit) :=
  (ask .readDir).andThen fun names => recoverEach parent names []

/-! ## Restore -/

def writeRestoreJournal (base : Text) (j : Journal) : Steps (Except String Unit) :=
  (ask (.writeTemp j)).andThen fun _ => (ask (.renameTemp (restoreJournalPath base) j)).andThen fun _ => ask .sync

def extractAll (staging : Text) : List ZipFile → Steps (Except String Unit)
  | [] => return .ok ()
  | file :: files => (ask (.extract staging file)).andThen fun _ => extractAll staging files

def dropStaging (staging : Text) (err : String) : Steps (Except String Unit) := do
  let _ ← ask (.removeAll staging)
  return .error err

def dropJournal (base staging : Text) (err : String) : Steps (Except String Unit) := do
  let _ ← ask (.remove (restoreJournalPath base))
  dropStaging staging err

def moveBack (base staging rollback : Text) (err : String) : Steps (Except String Unit) := do
  match ← ask (.rename rollback base) with
  | .ok () => dropJournal base staging err
  | .error _ => dropStaging staging err

def finish (base rollback : Text) (j : Journal) : Steps (Except String Unit) :=
  (writeRestoreJournal base { j with phase := .activated }).andThen fun _ =>
    (ask .sync).andThen fun _ =>
      (ask (.removeAll rollback)).andThen fun _ =>
        (ask (.remove (restoreJournalPath base))).andThen fun _ => ask .sync

def activate (base staging rollback : Text) (j : Journal) : Steps (Except String Unit) := do
  match ← ask (.rename staging base) with
  | .error e => moveBack base staging rollback ("activate restored data: " ++ e)
  | .ok () => finish base rollback j

def swap (base staging rollback : Text) (j : Journal) : Steps (Except String Unit) := do
  match ← writeRestoreJournal base { j with phase := .prepared } with
  | .error e => dropStaging staging ("prepare restore journal: " ++ e)
  | .ok () =>
    match ← ask (.rename base rollback) with
    | .error e => dropJournal base staging ("move live data to rollback directory: " ++ e)
    | .ok () =>
      match ← writeRestoreJournal base { j with phase := .liveMoved } with
      | .error e => moveBack base staging rollback ("record live-data move: " ++ e)
      | .ok () => activate base staging rollback j

def replaceTree (parent base : Text) (files : List ZipFile) : Steps (Except String Unit) :=
  (ask (.mkdirTemp (stagingPattern base))).andThen fun staging => do
    match ← extractAll staging files with
    | .error e => dropStaging staging e
    | .ok () =>
      let nanos : Text ← ask (.unixNano (rollbackPattern base))
      let rollback := rollbackPattern base ++ nanos
      swap base staging rollback ⟨⟨parent, staging⟩, ⟨parent, rollback⟩, .prepared⟩

def restore (parent base : Text) (files : List ZipFile) (truncate : Bool) : Steps (Except String Unit) :=
  (ask .verifyBackup).andThen fun _ =>
    (recoverInterruptedRestore parent base).andThen fun _ =>
      (ask (.canonical base)).andThen fun _ =>
        match validateArchive files with
        | .error e => return .error e
        | .ok () =>
          if truncate then replaceTree parent base files
          else (extractAll base files).andThen fun _ => ask .sync

end ForgePlane.LocalBackup
