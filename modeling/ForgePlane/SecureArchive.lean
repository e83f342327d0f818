import ForgePlane.Folders
import ForgePlane.Rootfs
import ForgePlane.Sections

/-!
# The archive of a server directory

What the source node writes for a server's tree, and what the destination makes
of it in an empty staging directory.
-/

namespace ForgePlane.SecureArchive

open Folders Rootfs

inductive Special
  | socket
  | fifo (writer : Bool)
  | charDevice (driver : Bool)
  | blockDevice (driver : Bool)

abbrev ServerTree := FileTree Bytes Special

inductive TypeFlag
  | dir
  | reg
  | char
  | block
  | fifo
  deriving DecidableEq

def TypeFlag.code : TypeFlag → Char
  | .reg => '0'
  | .char => '3'
  | .block => '4'
  | .dir => '5'
  | .fifo => '6'

structure Header where
  name : Text
  typeflag : TypeFlag
  body : Bytes

/-- The type a special file is archived with: it is opened for its attributes, and not every one opens. -/
def Special.stat : Special → Except String TypeFlag
  | .socket => .error "no such device or address"
  | .fifo true => .ok .fifo
  | .fifo false => .error "no writer yet"
  | .charDevice true => .ok .char
  | .blockDevice true => .ok .block
  | .charDevice false => .error "no such device"
  | .blockDevice false => .error "no such device"

def reserved : List Text := [".backups".toList, ".uploads".toList, ".transfers".toList]

section
variable (ignored : Text → Bool)

def passesOver (directory n : Text) : Object Bytes Special → Bool
  | .symlink => true
  | _ => directory = [] && reserved.contains n || (ignored (joinName directory n) || ignored n)

mutual

def archiveEntry (name : Text) : Object Bytes Special → Except String (List Header)
  | .dir f => do
    let _ ← Rootfs.clean name
    let inner ← archiveDirectory name f
    return ⟨name ++ ['/'], .dir, []⟩ :: inner
  | .file b => do
    let _ ← Rootfs.clean name
    return [⟨name, .reg, b⟩]
  | .special k => do
    let _ ← Rootfs.clean name
    let flag ← k.stat
    return [⟨name, flag, []⟩]
  | .symlink => .error "too many levels of symbolic links"

def archiveDirectory (directory : Text) : Folder Bytes Special → Except String (List Header)
  | .nil => return []
  | .cons n x rest => do
    let first ← if passesOver ignored directory n x then pure [] else archiveEntry (joinName directory n) x
    let others ← archiveDirectory directory rest
    return first ++ others

end

def createSecureArchive (t : ServerTree) : Except String (List Header) := archiveDirectory ignored [] t.root

end

def maxEntry : Nat := 32 * 1024 * 1024 * 1024

def atomicWrite (m : Target Bytes Special) (path : Location) (body : Bytes) : Except String (Target Bytes Special) := do
  let m ← m.mkdirAll [] path.dropLast
  match m path with
  | some .dir => .error "file exists"
  | _ => return m.put path (.file body)

def extractEntry (m : Target Bytes Special) (h : Header) : Except String (Target Bytes Special) :=
  match Rootfs.clean (trimSlash h.name) with
  | .ok (c :: name) =>
    let path := splitSlash (c :: name)
    match h.typeflag with
    | .dir => m.mkdirAll [] path
    | .reg => if maxEntry < h.body.length then .error Engine.errTransferBounds else atomicWrite m path h.body
    | flag => .error ("unsupported archive entry type " ++ toString flag.code.toNat)
  | _ => if h.name = ['.', '/'] then .ok m else .error Rootfs.errInvalidPath

def extractSecureArchive (headers : List Header) : Except String (Target Bytes Special) :=
  headers.foldlM extractEntry fun _ => none

/-! ## What is to be transferred -/

def leaves (ignored : Text → Bool) (p : Location) : Object Bytes Special → Bool
  | .symlink => true
  | _ => p.length = 1 && reserved.contains (p.getLastD []) || (ignored (joinSlash p) || ignored (p.getLastD []))

def carried (ignored : Text → Bool) (t : ServerTree) : ServerTree := t.prune (leaves ignored)

def plain : Item Bytes Special → Bool
  | .dir => true
  | .file _ => true
  | _ => false

def transferred (ignored : Text → Bool) (t : ServerTree) : Target Bytes Special := fun p =>
  ((carried ignored t).root.at p).filter plain

def transferable : Item Bytes Special → Bool
  | .dir => true
  | .file b => b.length ≤ maxEntry
  | _ => false

/-! ## The archive is the listing of what is carried -/

def header (e : Location × Item Bytes Special) : Except String Header := do
  let name := joinSlash e.1
  match e.2 with
  | .dir =>
    let _ ← Rootfs.clean name
    return ⟨name ++ ['/'], .dir, []⟩
  | .file b =>
    let _ ← Rootfs.clean name
    return ⟨name, .reg, b⟩
  | .special k =>
    let _ ← Rootfs.clean name
    let flag ← k.stat
    return ⟨name, flag, []⟩
  | .symlink => .error "too many levels of symbolic links"

variable {ignored : Text → Bool} {h : Header}
variable {dir : Location}

theorem passesOver_eq {n : Text} {x : Object Bytes Special}
    (hdir : ∀ c ∈ dir, legalName c = true) (hn : legalName n = true) :
    passesOver ignored (joinSlash dir) n x = leaves ignored (dir ++ [n]) x := by
  have htop : (decide (joinSlash dir = [])) = decide ((dir ++ [n]).length = 1) := by
    cases dir with
    | nil => rfl
    | cons c dir =>
      have hne : joinSlash (c :: dir) ≠ [] := joinSlash_nonempty (by simp) hdir
      simp [hne]
  have hlast : (dir ++ [n]).getLastD [] = n := by simp [List.getLastD_eq_getLast?]
  cases x <;> simp [passesOver, leaves, joinName_joinSlash hdir hn, htop]

mutual

theorem archiveEntry_eq {ignored : Text → Bool} {path : Location} (hpath : ∀ c ∈ path, legalName c = true) :
    ∀ x : Object Bytes Special, x.legal = true →
      archiveEntry ignored (joinSlash path) x = ((x.prune (leaves ignored) path).listing path).mapM header
  | .dir f, h => by
    rw [archiveEntry, Object.prune, Object.listing, List.mapM_cons, archiveDirectory_eq hpath f h]
    simp [header]
  | .file b, _ => by
    simp [archiveEntry, Object.prune, Object.listing, header]
  | .symlink, _ => by
    rfl
  | .special k, _ => by
    simp [archiveEntry, Object.prune, Object.listing, header]

theorem archiveDirectory_eq {ignored : Text → Bool} {dir : Location} (hdir : ∀ c ∈ dir, legalName c = true) :
    ∀ f : Folder Bytes Special, f.legal = true →
      archiveDirectory ignored (joinSlash dir) f = ((f.prune (leaves ignored) dir).listing dir).mapM header
  | .nil, _ => rfl
  | .cons n x rest, h => by
    obtain ⟨hn, -, hx, hrest⟩ := Folder.legal_cons.mp h
    rw [archiveDirectory, passesOver_eq hdir hn, joinName_joinSlash hdir hn, archiveDirectory_eq hdir rest hrest,
      archiveEntry_eq (legal_concat hdir hn) x hx, Folder.prune]
    split
    · simp
    · rw [Folder.listing, List.mapM_append]

end

/-! ## Reading the archive back -/

theorem header_portable (hne : e.1 ≠ [])
    (hlegal : ∀ c ∈ e.1, legalName c = true) (hok : header e = .ok h) : portable e.1 = true := by
  by_contra hport
  obtain ⟨p, i⟩ := e
  cases i <;> simp [header, clean_joinSlash hne hlegal, hport, bind, Except.bind] at hok

theorem extractEntry_named (hne : p ≠ [])
    (hlegal : ∀ c ∈ p, legalName c = true) (hport : portable p = true) (hname : trimSlash h.name = joinSlash p) :
    extractEntry m h =
      match h.typeflag with
      | .dir => m.mkdirAll [] p
      | .reg => if maxEntry < h.body.length then .error Engine.errTransferBounds else atomicWrite m p h.body
      | flag => .error ("unsupported archive entry type " ++ toString flag.code.toNat) := by
  obtain ⟨c, name, heq⟩ := List.exists_cons_of_ne_nil (joinSlash_nonempty hne hlegal)
  have hsplit := splitSlash_legal hne hlegal
  rw [extractEntry, hname, clean_joinSlash hne hlegal, if_pos hport]
  rw [heq] at hsplit ⊢
  simp [hsplit]

structure Fits (e : Location × Item Bytes Special) : Prop where
  legal : ∀ c ∈ e.1, legalName c = true
  archived : ∃ h, header e = .ok h
  taken : transferable e.2 = true

theorem extract_next (m : Target Bytes Special) (before : List (Location × Item Bytes Special))
    (e : Location × Item Bytes Special) (hm : m.Holds before) (he : Next before e) (hfits : Fits e) :
    ∃ m', (header e >>= extractEntry m) = .ok m' ∧ m'.Holds (before ++ [e]) := by
  obtain ⟨hlegal, ⟨h, hh⟩, htake⟩ := hfits
  have hport := header_portable he.below hlegal hh
  refine ⟨m.put e.1 e.2, ?_, hm.put he⟩
  have hclean : clean (joinSlash e.1) = .ok (joinSlash e.1) := by
    rw [clean_joinSlash he.below hlegal, if_pos hport]
  obtain ⟨p, i⟩ := e
  cases i with
  | dir =>
    simp [header, hclean]
    refine (extractEntry_named he.below hlegal hport (trimSlash_dir _)).trans ?_
    exact hm.mkdirAll he
  | file b =>
    have hsize : ¬ maxEntry < b.length := by simpa [transferable] using htake
    simp [header, hclean]
    refine (extractEntry_named he.below hlegal hport (trimSlash_file he.below hlegal)).trans ?_
    have hfree := hm.free he
    have hparent := hm.mkdirParent he
    simp [hsize, atomicWrite]
    simp only at hparent hfree
    rw [hparent]
    simp [bind, Except.bind, hfree]
    rfl
  | symlink | special => cases htake

theorem Special.stat_flag {k : Special} {flag : TypeFlag} (h : k.stat = .ok flag) : flag ≠ .dir ∧ flag ≠ .reg := by
  cases k with
  | socket => cases h
  | fifo writer =>
    cases writer <;> cases h
    exact ⟨nofun, nofun⟩
  | charDevice driver =>
    cases driver <;> cases h
    exact ⟨nofun, nofun⟩
  | blockDevice driver =>
    cases driver <;> cases h
    exact ⟨nofun, nofun⟩

theorem extract_taken {m' : Target Bytes Special} (hne : e.1 ≠ [])
    (hlegal : ∀ c ∈ e.1, legalName c = true) (h : (header e >>= extractEntry m) = .ok m') : transferable e.2 = true := by
  cases hh : header e with
  | error =>
    rw [hh] at h
    cases h
  | ok hd =>
    have hport := header_portable hne hlegal hh
    have hclean : clean (joinSlash e.1) = .ok (joinSlash e.1) := by
      rw [clean_joinSlash hne hlegal, if_pos hport]
    rw [hh] at h
    replace h : extractEntry m hd = .ok m' := h
    obtain ⟨p, i⟩ := e
    cases i with
    | dir => rfl
    | file b =>
      simp only [header, hclean] at hh
      cases hh
      rw [extractEntry_named hne hlegal hport (trimSlash_file hne hlegal)] at h
      by_contra hbig
      have hsize : maxEntry < b.length := by simpa [transferable] using hbig
      simp only [hsize, if_true] at h
      cases h
    | symlink => cases hh
    | special k =>
      simp only [header, hclean] at hh
      cases hstat : k.stat with
      | error =>
        rw [hstat] at hh
        cases hh
      | ok flag =>
        rw [hstat] at hh
        cases hh
        rw [extractEntry_named hne hlegal hport (trimSlash_file hne hlegal)] at h
        obtain ⟨hdir, hreg⟩ := Special.stat_flag hstat
        cases flag with
        | dir => exact absurd rfl hdir
        | reg => exact absurd rfl hreg
        | char | block | fifo => cases h

theorem transferred_eq {t : ServerTree}
    (h : ∀ e ∈ (carried ignored t).root.listing [], transferable e.2 = true) :
    transferred ignored t = (carried ignored t).root.at := by
  funext p
  unfold transferred
  cases hat : (carried ignored t).root.at p with
  | none => rfl
  | some i =>
    have hplain : plain i = true := by
      cases p with
      | nil =>
        rw [Folder.at_nil] at hat
        cases hat
      | cons n q =>
        have htake := h (n :: q, i) (((carried ignored t).root.mem_listing [] (carried ignored t).legal).mpr ⟨n, q, rfl, hat⟩)
        cases i <;> first | rfl | cases htake
    simp [Option.filter, hplain]

/-- An archive that was created extracts to what is transferred just when nothing carried is special or too large. -/
theorem archive_extracts_iff (ignored : Text → Bool) (t : ServerTree) {headers : List Header}
    (hcreate : createSecureArchive ignored t = .ok headers) :
    extractSecureArchive headers = .ok (transferred ignored t) ↔
      ∀ e ∈ (carried ignored t).root.listing [], transferable e.2 = true := by
  have hmap : ((carried ignored t).root.listing []).mapM header = .ok headers :=
    (archiveDirectory_eq (List.forall_mem_nil _) t.root t.legal).symm.trans hcreate
  have hlegal := (carried ignored t).root.listing_legal (List.forall_mem_nil _) (carried ignored t).legal
  have hbelow : ∀ e ∈ (carried ignored t).root.listing [], e.1 ≠ [] := by
    rintro e he hnil
    obtain ⟨n, -, hn⟩ := (carried ignored t).root.listing_below [] e he
    simp [hnil] at hn
  rw [extractSecureArchive, foldlM_mapM hmap]
  constructor
  · intro hex e he
    obtain ⟨m, m', hstep⟩ := mem_foldlM_ok hex e he
    exact extract_taken (hbelow e he) (hlegal e he) hstep
  · intro htake
    rw [transferred_eq htake]
    have hempty : Target.Holds (fun _ => none : Target Bytes Special) [] := by simp [Target.Holds]
    have hfits : ∀ e ∈ (carried ignored t).root.listing [], Fits e := fun e he =>
      ⟨hlegal e he, mem_mapM_ok hmap e he, htake e he⟩
    obtain ⟨m, hex, hm⟩ := Traversal.foldlM extract_next hempty (carried ignored t).listing_traversal hfits
    rw [hex, hm.eq_at]

def worldTree : ServerTree where
  root := .cons ['w'] (.dir (.cons ['a'] (.file [1]) (.cons ['b'] .symlink .nil))) .nil
  legal := by decide

theorem archive_extracts_iff_world :
    ∃ headers, createSecureArchive (fun _ => false) worldTree = .ok headers ∧
      (extractSecureArchive headers = .ok (transferred (fun _ => false) worldTree) ↔
        ∀ e ∈ (carried (fun _ => false) worldTree).root.listing [], transferable e.2 = true) :=
  ⟨_, rfl, archive_extracts_iff (fun _ => false) worldTree rfl⟩

def pipeTree : ServerTree where
  root := .cons ['p'] (.special (.fifo true)) .nil
  legal := by decide

theorem archived_pipe_refused :
    ∃ headers, createSecureArchive (fun _ => false) pipeTree = .ok headers ∧
      ∀ m, extractSecureArchive headers ≠ .ok m :=
  ⟨_, rfl, nofun⟩

end ForgePlane.SecureArchive
