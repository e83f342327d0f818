import ForgePlane.Folders
import ForgePlane.Rootfs
import ForgePlane.Sections

/-!
# Backup archives

What a backup of a server directory holds, which archives a restore accepts, and
what it extracts from them.
-/

namespace ForgePlane.LocalBackup

open Folders Rootfs List

inductive FileMode
  | dir
  | regular
  | irregular
  deriving DecidableEq

structure ZipFile where
  name : Text
  mode : FileMode
  body : Bytes

variable {κ : Type}

def withheld : List Text := [".backups".toList, ".uploads".toList]

section
variable (ignored : Text → Bool)

def excludes (rel : Text) : Bool := withheld.contains ((splitSlash rel).headD []) || ignored rel

mutual

def walkEntry (rel : Text) : Object Bytes κ → Except String (List ZipFile)
  | .dir f =>
    if excludes ignored rel then return []
    else do
      let inner ← walkFolder rel f
      return ⟨rel ++ ['/'], .dir, []⟩ :: inner
  | .file b =>
    if excludes ignored rel then return []
    else do
      let _ ← Rootfs.clean rel
      return [⟨rel, .regular, b⟩]
  | .symlink => return []
  | .special _ => return []

def walkFolder (directory : Text) : Folder Bytes κ → Except String (List ZipFile)
  | .nil => return []
  | .cons n x rest => do
    let first ← walkEntry (joinName directory n) x
    let others ← walkFolder directory rest
    return first ++ others

end

def create (t : FileTree Bytes κ) : Except String (List ZipFile) := walkFolder ignored [] t.root

end

def ancestors (name : Text) : List Text :=
  ((splitSlash name).dropLast.inits.filter (· ≠ [])).reverse.map joinSlash

def quoted (name : Text) : String := String.ofList ('"' :: name ++ ['"'])

def validateEntry (seen : List (Text × Bool)) (file : ZipFile) : Except String (List (Text × Bool)) :=
  let name := file.name
  let cleaned := trimSlash (cleanText name)
  let slash : Bool := name.getLast? = some '/'
  let isDir := slash && file.mode = .dir
  if name = [] || name.contains '\\' || name.head? = some '/' || cleanText name = ['.'] then
    .error ("invalid archive path " ++ quoted name)
  else if cleaned = [] || cleaned = ['.', '.'] || ['.', '.', '/'].isPrefixOf cleaned || cleaned ≠ trimSlash name then
    .error ("invalid archive path " ++ quoted name)
  else if !isDir && file.mode ≠ .regular then .error ("unsupported archive entry type for " ++ quoted name)
  else if slash ≠ isDir then .error ("conflicting archive entry type for " ++ quoted name)
  else if (seen.lookup cleaned).isSome then .error ("duplicate archive entry " ++ quoted name)
  else
    match (ancestors cleaned).find? fun a => seen.lookup a = some false with
    | some a => .error ("archive entry " ++ quoted name ++ " is beneath file " ++ quoted a)
    | none =>
      match if isDir then none else seen.find? fun prior => (cleaned ++ ['/']).isPrefixOf prior.1 with
      | some prior => .error ("archive file " ++ quoted name ++ " conflicts with child " ++ quoted prior.1)
      | none => .ok ((cleaned, isDir) :: seen)

def validateArchive (files : List ZipFile) : Except String Unit := do
  let _ ← files.foldlM validateEntry []
  return ()

def mkdirAll (m : Target Bytes κ) (name : Text) : Except String (Target Bytes κ) := do
  match ← Rootfs.clean name with
  | [] => return m
  | c :: cleaned => m.mkdirAll [] (splitSlash (c :: cleaned))

def isDir (m : Target Bytes κ) (path : Location) : Bool :=
  path = [] || match m path with
    | some .dir => true
    | _ => false

def writeFile (m : Target Bytes κ) (name : Text) (body : Bytes) : Except String (Target Bytes κ) := do
  match ← Rootfs.clean name with
  | [] => .error "is a directory"
  | c :: cleaned =>
    let path := splitSlash (c :: cleaned)
    if isDir m path then .error "is a directory"
    else if !isDir m path.dropLast then .error "no such file or directory"
    else .ok (m.put path (.file body))

def mkdirParent (m : Target Bytes κ) (name : Text) : Except String (Target Bytes κ) :=
  let parent := dirText name
  if parent = ['.'] then .ok m else mkdirAll m parent

def extractEntry (m : Target Bytes κ) (file : ZipFile) : Except String (Target Bytes κ) := do
  let name := trimSlash file.name
  if file.mode = .dir then mkdirAll m name
  else
    let m ← mkdirParent m name
    writeFile m name file.body

def extractArchive (files : List ZipFile) : Except String (Target Bytes κ) := files.foldlM extractEntry fun _ => none

/-! ## The archive is the listing of what is kept -/

def leavesOut (ignored : Text → Bool) (p : Location) : Object Bytes κ → Bool
  | .symlink => true
  | .special _ => true
  | _ => withheld.contains (p.headD []) || ignored (joinSlash p)

def kept (ignored : Text → Bool) (t : FileTree Bytes κ) : FileTree Bytes κ := t.prune (leavesOut ignored)

def zipEntry (e : Location × Item Bytes κ) : Except String ZipFile :=
  let rel := joinSlash e.1
  match e.2 with
  | .dir => return ⟨rel ++ ['/'], .dir, []⟩
  | .file b => do
    let _ ← Rootfs.clean rel
    return ⟨rel, .regular, b⟩
  | _ => .error "not a regular file"

variable {p : Location} {seen : List (Text × Bool)} {file : ZipFile} {k a : Text}

theorem excludes_eq {ignored : Text → Bool} (hne : p ≠ []) (hp : ∀ c ∈ p, legalName c = true) :
    excludes ignored (joinSlash p) = (withheld.contains (p.headD []) || ignored (joinSlash p)) := by
  rw [excludes, splitSlash_legal hne hp]

mutual

theorem walkEntry_eq {ignored : Text → Bool} {path : Location} (hne : path ≠ [])
    (hpath : ∀ c ∈ path, legalName c = true) :
    ∀ x : Object Bytes κ, x.legal = true →
      walkEntry ignored (joinSlash path) x =
        if leavesOut ignored path x then .ok []
        else ((x.prune (leavesOut ignored) path).listing path).mapM zipEntry
  | .dir f, h => by
    simp [walkEntry, excludes_eq hne hpath, leavesOut, Object.prune, Object.listing, walkFolder_eq hpath f h, zipEntry, pure_bind]
    rfl
  | .file b, _ => by
    simp [walkEntry, excludes_eq hne hpath, leavesOut, Object.prune, Object.listing, zipEntry]
    rfl
  | .symlink, _ => rfl
  | .special _, _ => rfl

theorem walkFolder_eq {ignored : Text → Bool} {dir : Location} (hdir : ∀ c ∈ dir, legalName c = true) :
    ∀ f : Folder Bytes κ, f.legal = true →
      walkFolder ignored (joinSlash dir) f = ((f.prune (leavesOut ignored) dir).listing dir).mapM zipEntry
  | .nil, _ => rfl
  | .cons n x rest, h => by
    obtain ⟨hn, -, hx, hrest⟩ := Folder.legal_cons.mp h
    rw [walkFolder, joinName_joinSlash hdir hn, walkFolder_eq hdir rest hrest,
      walkEntry_eq (by simp) (legal_concat hdir hn) x hx, Folder.prune]
    split
    · exact bind_pure (m := Except String) _
    · rw [Folder.listing, mapM_append]

end

/-! ## What is written can be read -/

def holdsDir : Item Bytes κ → Bool
  | .dir => true
  | _ => false

structure Remembers (seen : List (Text × Bool)) (before : List (Location × Item Bytes κ)) : Prop where
  legal : ∀ a ∈ before, a.1 ≠ [] ∧ ∀ c ∈ a.1, legalName c = true
  unique : ∀ a ∈ before, ∀ b ∈ before, a.1 = b.1 → a = b
  entries : ∀ s, s ∈ seen ↔ ∃ a ∈ before, s = (joinSlash a.1, holdsDir a.2)

theorem mem_of_lookup {v : Bool} (h : seen.lookup k = some v) : (k, v) ∈ seen := by
  obtain ⟨l₁, l₂, rfl, -⟩ := lookup_eq_some_iff.mp h
  simp

theorem ancestors_joinSlash (hne : p ≠ []) (hp : ∀ c ∈ p, legalName c = true)
    (h : a ∈ ancestors (joinSlash p)) : ∃ q, q ≠ [] ∧ q <+: p ∧ q ≠ p ∧ a = joinSlash q := by
  rw [ancestors, splitSlash_legal hne hp] at h
  simp at h
  obtain ⟨q, ⟨hq, hqne⟩, rfl⟩ := h
  refine ⟨q, hqne, hq.trans ⟨_, dropLast_concat_getLast hne⟩, ?_, rfl⟩
  rintro rfl
  have hlen := hq.length_le
  rw [length_dropLast] at hlen
  have := length_pos_iff.mpr hne
  omega

theorem not_dotdot (hne : p ≠ []) (hp : ∀ c ∈ p, legalName c = true) :
    joinSlash p ≠ ['.', '.'] ∧ ¬ ['.', '.', '/'] <+: joinSlash p := by
  have hsplit := splitSlash_legal hne hp
  constructor
  · intro heq
    rw [heq, splitSlash_of_not_mem (by decide)] at hsplit
    exact (legalName_ne (hp ['.', '.'] (by simp [← hsplit]))).2.2.1 rfl
  · rintro ⟨s, hs⟩
    have hcut : splitSlash (['.', '.'] ++ '/' :: s) = ['.', '.'] :: splitSlash s := splitSlash_append (by decide) s
    rw [← hs] at hsplit
    rw [show ['.', '.', '/'] ++ s = ['.', '.'] ++ '/' :: s from rfl, hcut] at hsplit
    exact (legalName_ne (hp ['.', '.'] (by simp [← hsplit]))).2.2.1 rfl

def entryName (p : Location) (d : Bool) : Text := if d then joinSlash p ++ ['/'] else joinSlash p

variable {body : Bytes}

section
variable (hne : p ≠ []) (hp : ∀ c ∈ p, legalName c = true) (d : Bool)
include hne hp

theorem trimSlash_entryName : trimSlash (entryName p d) = joinSlash p := by
  cases d with
  | true => exact trimSlash_dir _
  | false => exact trimSlash_file hne hp

theorem cleanText_entryName : cleanText (entryName p d) = joinSlash p := by
  cases d with
  | true => exact cleanText_slash hne hp
  | false => exact cleanText_joinSlash hne hp

theorem entryName_last : ((entryName p d).getLast? = some '/') = (d = true) := by
  cases d with
  | true => simp [entryName]
  | false => simp [entryName, joinSlash_last hne hp]

theorem entryName_head : ¬ (entryName p d).head? = some '/' := by
  have hnot := joinSlash_not_rooted hne hp
  cases d with
  | false => exact hnot
  | true =>
    obtain ⟨c, name, heq⟩ := exists_cons_of_ne_nil (joinSlash_nonempty hne hp)
    rw [entryName, if_pos rfl]
    rwa [heq] at hnot ⊢

theorem entryName_ne_nil : entryName p d ≠ [] := by
  have := joinSlash_nonempty hne hp
  cases d <;> simp [entryName, this]

theorem validateEntry_named (hback : '\\' ∉ joinSlash p)
    (hnew : seen.lookup (joinSlash p) = none) (habove : ∀ a ∈ ancestors (joinSlash p), ¬ seen.lookup a = some false)
    (hbelow : d = false → ∀ s ∈ seen, ¬ joinSlash p ++ ['/'] <+: s.1) :
    validateEntry seen ⟨entryName p d, if d then .dir else .regular, body⟩ = .ok ((joinSlash p, d) :: seen) := by
  have hback' : '\\' ∉ entryName p d := by cases d <;> simp [entryName, hback]
  have habove' : ((ancestors (joinSlash p)).find? fun a => seen.lookup a = some false) = none := by
    simpa [List.find?_eq_none] using habove
  have hbelow' : (if d then none else seen.find? fun prior => (joinSlash p ++ ['/']).isPrefixOf prior.1) = none := by
    cases d with
    | true => rfl
    | false => simpa [List.find?_eq_none] using hbelow rfl
  have hnil := joinSlash_nonempty hne hp
  obtain ⟨hdots, hup⟩ := not_dotdot hne hp
  rw [validateEntry]
  simp only [trimSlash_entryName hne hp, cleanText_entryName hne hp, trimSlash_file hne hp, entryName_last hne hp,
    entryName_head hne hp, entryName_ne_nil hne hp, joinSlash_ne_dot hne hp, hnil, hdots, hnew]
  have hnodots : ['.', '.', '/'].isPrefixOf (joinSlash p) = false :=
    Bool.eq_false_iff.mpr fun h => hup ( isPrefixOf_iff_prefix.mp h)
  have hback'' : (entryName p d).contains '\\' = false := by simpa using hback'
  simp only [hnodots, hback'', habove']
  cases d with
  | true => simp
  | false =>
    simp only [Bool.false_eq_true, if_false] at hbelow'
    simp [hbelow']

end

theorem zipEntry_ok {e : Location × Item Bytes κ} (h : zipEntry e = .ok file) :
    (e.2 = .dir ∧ file = ⟨entryName e.1 true, .dir, []⟩) ∨
      ∃ b name, e.2 = .file b ∧ clean (joinSlash e.1) = .ok name ∧ file = ⟨entryName e.1 false, .regular, b⟩ := by
  obtain ⟨p, i⟩ := e
  cases i with
  | dir =>
    cases h
    exact .inl ⟨rfl, rfl⟩
  | file b =>
    simp [zipEntry] at h
    cases hclean : clean (joinSlash p) with
    | error =>
      rw [hclean] at h
      cases h
    | ok name =>
      rw [hclean] at h
      cases h
      exact .inr ⟨b, name, rfl, rfl, rfl⟩
  | symlink | special => cases h

theorem Remembers.snoc {before : List (Location × Item Bytes κ)}
    {e : Location × Item Bytes κ} (hseen : Remembers seen before) (he : Next before e)
    (hlegal : ∀ c ∈ e.1, legalName c = true) :
    Remembers ((joinSlash e.1, holdsDir e.2) :: seen) (before ++ [e]) where
  legal := by
    intro a ha
    obtain ha | ha := mem_append.mp ha
    · exact hseen.legal a ha
    · obtain rfl := mem_singleton.mp ha
      exact ⟨he.below, hlegal⟩
  unique := by
    intro a ha b hb heq
    rw [mem_append, mem_singleton] at ha hb
    obtain ha | rfl := ha <;> obtain hb | rfl := hb
    · exact hseen.unique a ha b hb heq
    · exact absurd (heq ▸ prefix_rfl) (he.free a ha)
    · exact absurd (heq ▸ prefix_rfl) (he.free b hb)
    · rfl
  entries := by
    intro s
    rw [mem_cons, hseen.entries]
    simp only [mem_append, mem_singleton]
    constructor
    · rintro (rfl | ⟨a, ha, rfl⟩)
      · exact ⟨e, .inr rfl, rfl⟩
      · exact ⟨a, .inl ha, rfl⟩
    · rintro ⟨a, ha | rfl, rfl⟩
      · exact .inr ⟨a, ha, rfl⟩
      · exact .inl rfl

theorem validate_next {before : List (Location × Item Bytes κ)}
    {e : Location × Item Bytes κ} (hseen : Remembers seen before) (he : Next before e)
    (hlegal : ∀ c ∈ e.1, legalName c = true) (hport : portable e.1 = true) (hfile : zipEntry e = .ok file) :
    ∃ seen', validateEntry seen file = .ok seen' ∧ Remembers seen' (before ++ [e]) := by
  refine ⟨_, ?_, hseen.snoc he hlegal⟩
  have hback : '\\' ∉ joinSlash e.1 := by
    simp [portable] at hport
    exact hport.1
  have hnew : seen.lookup (joinSlash e.1) = none := by
    rw [Option.eq_none_iff_forall_ne_some]
    intro v hv
    obtain ⟨a, ha, heq⟩ := (hseen.entries _).mp (mem_of_lookup hv)
    have := joinSlash_inj he.below hlegal (hseen.legal a ha).1 (hseen.legal a ha).2 (Prod.mk.inj heq).1
    exact he.free a ha (this ▸ prefix_rfl)
  have habove : ∀ a ∈ ancestors (joinSlash e.1), ¬ seen.lookup a = some false := by
    intro a ha hfound
    obtain ⟨q, hqne, hq, hproper, rfl⟩ := ancestors_joinSlash he.below hlegal ha
    obtain ⟨b, hb, heq⟩ := (hseen.entries _).mp (mem_of_lookup hfound)
    obtain ⟨hname, hdir⟩ := Prod.mk.inj heq
    have hqlegal : ∀ c ∈ q, legalName c = true := fun c hc => hlegal c (hq.subset hc)
    have hqb := joinSlash_inj hqne hqlegal (hseen.legal b hb).1 (hseen.legal b hb).2 hname
    -- The directory on the way was remembered under the same name.
    rw [← hseen.unique _ (he.parents q hqne hq hproper) b hb hqb] at hdir
    cases hdir
  have hbelow : ∀ s ∈ seen, ¬ joinSlash e.1 ++ ['/'] <+: s.1 := by
    intro s hs hunder
    obtain ⟨a, ha, rfl⟩ := (hseen.entries _).mp hs
    exact he.free a ha (joinSlash_below he.below hlegal (hseen.legal a ha).1 (hseen.legal a ha).2 hunder)
  obtain ⟨hi, rfl⟩ | ⟨b, -, hi, -, rfl⟩ := zipEntry_ok hfile
  · rw [hi]
    exact validateEntry_named he.below hlegal true hback hnew habove fun _ => hbelow
  · rw [hi]
    exact validateEntry_named he.below hlegal false hback hnew habove fun _ => hbelow

/-! ## What is extracted -/

theorem mkdirAll_named {m : Target Bytes κ} (hne : p ≠ []) (hp : ∀ c ∈ p, legalName c = true)
    (hport : portable p = true) : mkdirAll m (joinSlash p) = m.mkdirAll [] p := by
  obtain ⟨c, name, heq⟩ := exists_cons_of_ne_nil (joinSlash_nonempty hne hp)
  have hsplit := splitSlash_legal hne hp
  rw [mkdirAll, clean_joinSlash hne hp, if_pos hport]
  rw [heq] at hsplit ⊢
  show m.mkdirAll [] (splitSlash (c :: name)) = _
  rw [hsplit]

theorem writeFile_named {m : Target Bytes κ} (hne : p ≠ [])
    (hp : ∀ c ∈ p, legalName c = true) (hport : portable p = true) (hfree : isDir m p = false)
    (hparent : isDir m p.dropLast = true) : writeFile m (joinSlash p) body = .ok (m.put p (.file body)) := by
  obtain ⟨c, name, heq⟩ := exists_cons_of_ne_nil (joinSlash_nonempty hne hp)
  have hsplit := splitSlash_legal hne hp
  rw [writeFile, clean_joinSlash hne hp, if_pos hport]
  rw [heq] at hsplit ⊢
  simp only [bind, Except.bind, hsplit, hfree, hparent]
  rfl

theorem portable_parent (hport : portable p = true) (hne : p.dropLast ≠ []) :
    portable p.dropLast = true := by
  have hp : p ≠ [] := by
    rintro rfl
    exact hne rfl
  have heq : joinSlash p = joinSlash p.dropLast ++ '/' :: p.getLast hp := by
    rw [← joinSlash_append hne, dropLast_concat_getLast hp]
  rw [portable, heq] at hport
  simp at hport
  have hdrive : hasDrivePrefix (joinSlash p.dropLast) = false := by
    rw [Bool.eq_false_iff]
    intro hdrive
    rw [hasDrivePrefix_append _ hdrive] at hport
    cases hport.2
  simp [portable, hport.1.1, hdrive]

structure Fits (e : Location × Item Bytes κ) : Prop where
  legal : ∀ c ∈ e.1, legalName c = true
  archived : ∃ file, zipEntry e = .ok file
  portable : Rootfs.portable e.1 = true

theorem extract_next (m : Target Bytes κ) (before : List (Location × Item Bytes κ)) (e : Location × Item Bytes κ)
    (hm : m.Holds before) (he : Next before e) (hfits : Fits e) :
    ∃ m', (zipEntry e >>= extractEntry m) = .ok m' ∧ m'.Holds (before ++ [e]) := by
  obtain ⟨hlegal, ⟨file, hfile⟩, hport⟩ := hfits
  refine ⟨m.put e.1 e.2, ?_, hm.put he⟩
  rw [hfile]
  show extractEntry m file = _
  obtain ⟨hi, rfl⟩ | ⟨b, -, hi, -, rfl⟩ := zipEntry_ok hfile
  · simp [extractEntry, trimSlash_entryName he.below hlegal]
    rw [mkdirAll_named he.below hlegal hport, hm.mkdirAll he, hi]
  · have hfree : isDir m e.1 = false := by simp [isDir, he.below, hm.free he]
    have hparent : isDir m e.1.dropLast = true := by
      by_cases hnil : e.1.dropLast = []
      · simp [isDir, hnil]
      · have hdir := hm.paved he e.1.dropLast hnil nil_prefix prefix_rfl
        simp [isDir, hdir]
    have hmade : mkdirParent m (joinSlash e.1) = .ok m := by
      rw [mkdirParent, dirText_joinSlash he.below hlegal]
      by_cases hnil : e.1.dropLast = []
      · simp [hnil]
      · have hdirlegal : ∀ c ∈ e.1.dropLast, legalName c = true := fun c hc => hlegal c (dropLast_subset _ hc)
        simp only [if_neg hnil, if_neg (joinSlash_ne_dot hnil hdirlegal)]
        rw [mkdirAll_named hnil hdirlegal (portable_parent hport hnil), hm.mkdirParent he]
    simp only [extractEntry, trimSlash_entryName he.below hlegal]
    rw [if_neg (by decide), hmade, hi]
    exact writeFile_named he.below hlegal hport hfree hparent

theorem extract_portable {m m' : Target Bytes κ} {e : Location × Item Bytes κ} (hne : e.1 ≠ [])
    (hlegal : ∀ c ∈ e.1, legalName c = true) (h : (zipEntry e >>= extractEntry m) = .ok m') :
    portable e.1 = true := by
  by_contra hport
  have hclean : clean (joinSlash e.1) = .error errInvalidPath := by
    rw [clean_joinSlash hne hlegal, if_neg hport]
  cases hfile : zipEntry e with
  | error =>
    rw [hfile] at h
    cases h
  | ok file =>
    rw [hfile] at h
    replace h : extractEntry m file = .ok m' := h
    obtain ⟨hi, rfl⟩ | ⟨b, name, hi, hok, -⟩ := zipEntry_ok hfile
    · simp [extractEntry, trimSlash_entryName hne hlegal, mkdirAll, hclean] at h
      cases h
    · rw [hclean] at hok
      cases hok

theorem archive_accepted_iff (ignored : Text → Bool) (t : FileTree Bytes κ) {files : List ZipFile}
    (hcreate : create ignored t = .ok files) :
    (validateArchive files = .ok () ∧ extractArchive files = .ok (kept ignored t).root.at) ↔
      ∀ e ∈ (kept ignored t).root.listing [], holdsDir e.2 = true → portable e.1 = true := by
  have hmap : ((kept ignored t).root.listing []).mapM zipEntry = .ok files :=
    (walkFolder_eq (forall_mem_nil _) t.root t.legal).symm.trans hcreate
  have hlegal := (kept ignored t).root.listing_legal (forall_mem_nil _) (kept ignored t).legal
  have hbelow : ∀ e ∈ (kept ignored t).root.listing [], e.1 ≠ [] := by
    rintro e he hnil
    obtain ⟨n, -, hn⟩ := (kept ignored t).root.listing_below [] e he
    simp [hnil] at hn
  rw [extractArchive, validateArchive, foldlM_mapM hmap, foldlM_mapM hmap]
  constructor
  · rintro ⟨-, hex⟩ e he -
    obtain ⟨m, m', hstep⟩ := mem_foldlM_ok hex e he
    exact extract_portable (hbelow e he) (hlegal e he) hstep
  · intro hdirs
    have hfits : ∀ e ∈ (kept ignored t).root.listing [], Fits e := by
      intro e he
      obtain ⟨file, hfile⟩ := mem_mapM_ok hmap e he
      refine ⟨hlegal e he, ⟨file, hfile⟩, ?_⟩
      obtain ⟨hi, -⟩ | ⟨b, name, hi, hok, -⟩ := zipEntry_ok hfile
      · exact hdirs e he (by rw [hi]; rfl)
      · -- A file was opened under its name when it was archived.
        by_contra hport
        rw [clean_joinSlash (hbelow e he) (hlegal e he), if_neg hport] at hok
        cases hok
    constructor
    · have hnext : ∀ (seen : List (Text × Bool)) (before : List (Location × Item Bytes κ)) (e : Location × Item Bytes κ),
          Remembers seen before → Next before e → Fits e →
          ∃ seen', (zipEntry e >>= validateEntry seen) = .ok seen' ∧ Remembers seen' (before ++ [e]) := by
        intro seen before e hseen he hfit
        obtain ⟨file, hfile⟩ := hfit.archived
        rw [hfile]
        exact validate_next hseen he hfit.legal hfit.portable hfile
      have hnone : Remembers [] ([] : List (Location × Item Bytes κ)) := ⟨by simp, by simp, by simp⟩
      obtain ⟨seen, hok, -⟩ := Traversal.foldlM hnext hnone (kept ignored t).listing_traversal hfits
      rw [hok]
      rfl
    · have hempty : Target.Holds (fun _ => none : Target Bytes κ) [] := by simp [Target.Holds]
      obtain ⟨m, hex, hm⟩ := Traversal.foldlM extract_next hempty (kept ignored t).listing_traversal hfits
      rw [hex, hm.eq_at]

end ForgePlane.LocalBackup
