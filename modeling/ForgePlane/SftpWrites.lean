import ForgePlane.DiskTree
import ForgePlane.Ghosts
import ForgePlane.Rootfs

/-!
# Writes over SFTP and the disk quota

`Filewrite` reads the size of the file it replaces, takes the server's write lock, adds up the usage and
allows the new file what the quota leaves plus the size it read. The lock stays with the writer until `Close`
has renamed the temporary file over the target.
-/

namespace ForgePlane.SftpWrites

open DiskTree List

abbrev Place := List Text

/-! ## Files, writers and calls -/

structure Inode where
  id : Nat
  size : Nat
  deriving DecidableEq, Repr

abbrev Files := DiskTree Text Inode

structure Writer where
  fd : Nat
  temp : Place
  target : Place
  max : Int
  closed : Bool := false
  deriving DecidableEq, Repr

structure Info where
  size : Nat
  isDir : Bool
  deriving DecidableEq, Repr

inductive StatErr where
  | notExist
  | other
  deriving DecidableEq, Repr

/-- `lock` names what its caller has found before it; `commit` is the rename of a closing file. -/
inductive FsCall where
  | stat (name : Place)
  | lock (found : Option (Place × Nat))
  | unlock
  | readDir (directory : Place)
  | mkdirAll (directory : Place)
  | create (name : Place)
  | newWriter (w : Writer)
  | writeAt (handle : Nat) (off : Int) (len : Nat)
  | beginClose (handle : Nat)
  | sync (fd : Nat)
  | closeFd (fd : Nat)
  | commit (temp target : Place)
  | rename (old new : Place)
  | removeAll (name : Place)
  | record
  deriving DecidableEq

abbrev FsResp : FsCall → Type
  | .stat _ => Except StatErr Info
  | .readDir _ => Except String (List (Text × Bool))
  | .create _ => Except String Nat
  | .newWriter _ => Nat
  | .beginClose _ => Option Writer
  | .writeAt .. | .mkdirAll _ | .sync _ | .closeFd _ | .commit .. | .rename .. | .removeAll _ => Except String Unit
  | .lock _ | .unlock | .record => Unit

abbrev Request := Prog FsResp

def call (c : FsCall) : Request (FsResp c) := .call c .ret

def maxInt64 : Nat := 2 ^ 63 - 1

def sumEntries (visit : Place → Request (Except String Nat)) (directory : Place) :
    List (Text × Bool) → Nat → Request (Except String Nat)
  | [], total => pure (.ok total)
  | (name, link) :: rest, total =>
    if link then sumEntries visit directory rest total
    else do
      match ← call (.stat (directory ++ [name])) with
      | .error _ => pure (.error "stat")
      | .ok info =>
        match ← (if info.isDir then visit (directory ++ [name]) else pure (.ok info.size) : Request (Except String Nat)) with
        | .error e => pure (.error e)
        | .ok size =>
          if maxInt64 < total + size then pure (.error "filesystem usage overflow")
          else sumEntries visit directory rest (total + size)

def usageDir : Nat → Place → Request (Except String Nat)
  | 0, _ => pure (.error "too deep")
  | depth + 1, directory => do
    match ← call (.readDir directory) with
    | .error e => pure (.error e)
    | .ok names => sumEntries (usageDir depth) directory names 0

/-! ## Handlers -/

structure Session where
  permissions : List String
  readOnly : Bool := false
  deriving DecidableEq, Repr

def Session.can (h : Session) (permission : String) : Bool := h.permissions.any fun grant => grant = "*" || grant = permission

inductive Status where
  | permissionDenied
  | failure
  deriving DecidableEq, Repr

def placeOf (name : Text) : Place := if name = [] then [] else splitSlash name

def trimLeft (name : Text) : Text := name.dropWhile (· = '/')

def cleanSFTPPath (requested : Text) : Except String Place := (Rootfs.clean (trimLeft requested)).map placeOf

def createAtomic (name : Place) (suffix : Text) : Request (Except String (Nat × Place)) := do
  match ← call (.mkdirAll name.dropLast) with
  | .error e => pure (.error e)
  | .ok _ =>
    let temp := name.dropLast ++ [".rootfs-tmp-".toList ++ suffix]
    match ← call (.create temp) with
    | .error e => pure (.error e)
    | .ok fd => pure (.ok (fd, temp))

def unlockAndFail {α : Type} : Request (Except Status α) := do
  call .unlock
  pure (.error .failure)

def openLocked (quotaBytes : Nat) (name : Place) (oldSize : Nat) (suffix : Text) (depth : Nat) :
    Request (Except Status Nat) := do
  match ← usageDir depth [] with
  | .error _ => unlockAndFail
  | .ok usage =>
    let maxFinal : Int := if 0 < quotaBytes then (quotaBytes : Int) - usage + oldSize else -1
    if 0 < quotaBytes && decide (maxFinal < 0) then unlockAndFail
    else
      match ← call (.mkdirAll name.dropLast) with
      | .error _ => unlockAndFail
      | .ok _ =>
        match ← createAtomic name suffix with
        | .error _ => unlockAndFail
        | .ok (fd, temp) => do
          let handle ← call (.newWriter ⟨fd, temp, name, maxFinal, false⟩)
          pure (.ok handle)

def filewrite (quotaBytes : Nat) (h : Session) (path suffix : Text) (depth : Nat) : Request (Except Status Nat) :=
  if h.readOnly then pure (.error .permissionDenied)
  else
    match cleanSFTPPath path with
    | .error _ => pure (.error .permissionDenied)
    | .ok [] => pure (.error .permissionDenied)
    | .ok name => do
      match ← call (.stat name) with
      | .error .other => pure (.error .failure)
      | .error .notExist =>
        if !h.can "file.create" then pure (.error .permissionDenied)
        else do
          call (.lock (some (name, 0)))
          openLocked quotaBytes name 0 suffix depth
      | .ok info =>
        if !h.can "file.update" then pure (.error .permissionDenied)
        else do
          call (.lock (some (name, info.size)))
          openLocked quotaBytes name info.size suffix depth

def closeAtomic (w : Writer) : Request (Except String Unit) := do
  match ← call (.sync w.fd) with
  | .error e => do
    let _ ← call (.closeFd w.fd)
    let _ ← call (.removeAll w.temp)
    pure (.error e)
  | .ok _ =>
    match ← call (.closeFd w.fd) with
    | .error e => do
      let _ ← call (.removeAll w.temp)
      pure (.error e)
    | .ok _ =>
      match ← call (.commit w.temp w.target) with
      | .error e => do
        let _ ← call (.removeAll w.temp)
        pure (.error e)
      | .ok _ => pure (.ok ())

def close (handle : Nat) : Request (Except String Unit) := do
  match ← call (.beginClose handle) with
  | none => pure (.ok ())
  | some w =>
    let result ← closeAtomic w
    call .unlock
    match result with
    | .error e => pure (.error e)
    | .ok _ => do
      call .record
      pure (.ok ())

def remove (h : Session) (path : Text) : Request (Except Status Unit) :=
  if h.readOnly then pure (.error .permissionDenied)
  else if !h.can "file.delete" then pure (.error .permissionDenied)
  else do
    call (.lock none)
    match Rootfs.clean (trimLeft path) with
    | .error _ => unlockAndFail
    | .ok [] => unlockAndFail
    | .ok name =>
      match ← call (.removeAll (placeOf name)) with
      | .error _ => unlockAndFail
      | .ok _ => do
        call .record
        call .unlock
        pure (.ok ())

def rename (h : Session) (path target : Text) : Request (Except Status Unit) :=
  if h.readOnly then pure (.error .permissionDenied)
  else if !h.can "file.update" then pure (.error .permissionDenied)
  else
    match Rootfs.clean (trimLeft target) with
    | .error _ => pure (.error .permissionDenied)
    | .ok [] => pure (.error .permissionDenied)
    | .ok new => do
      match ← call (.mkdirAll (placeOf new).dropLast) with
      | .error _ => pure (.error .failure)
      | .ok _ =>
        match Rootfs.clean (trimLeft path) with
        | .error _ => pure (.error .failure)
        | .ok [] => pure (.error .failure)
        | .ok old =>
          match ← call (.rename (placeOf old) (placeOf new)) with
          | .error _ => pure (.error .failure)
          | .ok _ => do
            call .record
            pure (.ok ())

inductive Task where
  | filewrite (h : Session) (path suffix : Text) (depth : Nat)
  | writeAt (handle : Nat) (off : Int) (len : Nat)
  | close (handle : Nat)
  | remove (h : Session) (path : Text)
  | rename (h : Session) (path target : Text)
  deriving DecidableEq, Repr

def Task.program (quotaBytes : Nat) : Task → Request Unit
  | .filewrite h path suffix depth => do
    let _ ← SftpWrites.filewrite quotaBytes h path suffix depth
    pure ()
  | .writeAt handle off len => do
    let _ ← call (.writeAt handle off len)
    pure ()
  | .close handle => do
    let _ ← SftpWrites.close handle
    pure ()
  | .remove h path => do
    let _ ← SftpWrites.remove h path
    pure ()
  | .rename h path target => do
    let _ ← SftpWrites.rename h path target
    pure ()

/-! ## The server's directory -/

structure Disk where
  tree : Files
  locked : Bool := false
  writers : List Writer := []
  next : Nat

def statFiles (dirSize : Nat) (t : Files) (name : Place) : Except StatErr Info :=
  match t.entry name with
  | some (.file f) => .ok ⟨f.size, false⟩
  | some .dir => .ok ⟨dirSize, true⟩
  | some .link => .error .other
  | none =>
    if name = [] then .ok ⟨dirSize, true⟩
    else if name.inits.any fun q => (t.entry q).any fun e => !e.isDir then .error .other
    else .error .notExist

def grow (fd off len : Nat) (f : Inode) : Inode :=
  if f.id = fd ∧ len ≠ 0 then { f with size := max f.size (off + len) } else f

def Disk.writeAt (d : Disk) (handle : Nat) (off : Int) (len : Nat) : Except String Unit × Disk :=
  match d.writers[handle]? with
  | none => (.error "failure", d)
  | some w =>
    if w.closed || decide (off < 0) then (.error "failure", d)
    else if decide (0 ≤ w.max) && (decide (w.max < off) || decide (w.max - off < len)) then (.error "failure", d)
    else (.ok (), { d with tree := d.tree.modify (grow w.fd off.toNat len) })

def Disk.handle (dirSize : Nat) (d : Disk) : (c : FsCall) → FsResp c × Disk
  | .stat name => (statFiles dirSize d.tree name, d)
  | .lock _ => ((), { d with locked := true })
  | .unlock => ((), { d with locked := false })
  | .readDir directory => (d.tree.readDir directory, d)
  | .mkdirAll directory => ((d.tree.mkdirAll directory).1, { d with tree := (d.tree.mkdirAll directory).2 })
  | .create name =>
    match d.tree.create name ⟨d.next, 0⟩ with
    | .error e => (.error e, d)
    | .ok t => (.ok d.next, { d with tree := t, next := d.next + 1 })
  | .newWriter w => (d.writers.length, { d with writers := d.writers ++ [w] })
  | .writeAt handle off len => d.writeAt handle off len
  | .beginClose handle =>
    match d.writers[handle]? with
    | none => (none, d)
    | some w =>
      if w.closed then (none, d) else (some w, { d with writers := d.writers.set handle { w with closed := true } })
  | .sync _ => (.ok (), d)
  | .closeFd _ => (.ok (), d)
  | .commit temp target =>
    match d.tree.rename temp target with
    | .error e => (.error e, d)
    | .ok t => (.ok (), { d with tree := t })
  | .rename old new =>
    match d.tree.rename old new with
    | .error e => (.error e, d)
    | .ok t => (.ok (), { d with tree := t })
  | .removeAll name => (.ok (), { d with tree := d.tree.removeAll name })
  | .record => ((), d)

def fault : (c : FsCall) → String → Option (FsResp c)
  | .stat _, _ => some (.error .other)
  | .readDir _, e => some (.error e)
  | .mkdirAll _, e => some (.error e)
  | .create _, e => some (.error e)
  | .writeAt .., e => some (.error e)
  | .sync _, e => some (.error e)
  | .closeFd _, e => some (.error e)
  | .commit .., e => some (.error e)
  | .rename .., e => some (.error e)
  | .removeAll _, e => some (.error e)
  | _, _ => none

def sessions (quotaBytes dirSize : Nat) : System FsResp Task Disk where
  program := Task.program quotaBytes
  handle := Disk.handle dirSize
  fault := fault
  tick d _ := d

abbrev State := Config FsResp Task Disk

def Disk.usage (d : Disk) : Nat := d.tree.weigh fun _ f => f.size

def enabled (s : State) : Label Task → Bool
  | .call i o => !o.isAmbiguous && match s.pending i with
    | some (_, .lock _) => !s.world.locked
    | _ => true
  | .crash _ => false
  | _ => true

def commits (s : State) (l : Label Task) (handle : Nat) : Bool :=
  match l, s.sends l with
  | .call _ .delivered, some (.close h, .commit temp target) =>
    decide (h = handle) && match s.world.tree.rename temp target with | .ok _ => true | .error _ => false
  | _, _ => false

def stillThere (t : Files) (name : Place) (size : Nat) : Bool :=
  match t.entry name with
  | some (.file f) => decide (size ≤ f.size)
  | some .dir => true
  | _ => decide (size = 0)

inductive Phase where
  | free
  | locked (name : Place) (old : Nat)
  | made (fd : Nat) (temp name : Place) (old : Nat)
  | removing
  | closing (w : Writer)
  | spent
  | gone

def Phase.holds : Phase → Bool
  | .free | .gone => false
  | _ => true

def Replaces (t : Files) (fd : Nat) (name : Place) (old : Nat) : Prop :=
  old = 0 ∨ t.entry name = some .dir ∨ ∃ f, t.entry name = some (.file f) ∧ f.id ≠ fd ∧ old ≤ f.size

def admits (quotaBytes : Nat) (B : Place → Nat) : Phase → FsCall → Prop
  | .free, .stat _ | .free, .lock _ | .free, .mkdirAll _ | .free, .rename .. | .free, .writeAt .. | .free, .beginClose _
  | .free, .record => True
  | .locked .., .stat _ | .locked .., .readDir _ | .locked .., .mkdirAll _ | .locked .., .create _ | .locked .., .unlock => True
  | .made fd temp name old, .newWriter w =>
    w.fd = fd ∧ w.temp = temp ∧ w.target = name ∧ w.closed = false ∧ 0 ≤ w.max ∧ B [] + w.max ≤ quotaBytes + old
  | .removing, .removeAll _ | .removing, .record | .removing, .unlock => True
  | .closing w, .commit temp target => temp = w.temp ∧ target = w.target
  | .closing _, .sync _ | .closing _, .closeFd _ | .closing _, .removeAll _ | .closing _, .unlock => True
  | .spent, .removeAll _ | .spent, .unlock => True
  | .gone, .record => True
  | _, _ => False

def advance : Phase → (c : FsCall) → FsResp c → Phase
  | .free, .lock (some (name, old)), _ => .locked name old
  | .free, .lock none, _ => .removing
  | .free, .beginClose _, some w => .closing w
  | .locked name old, .create temp, .ok fd => .made fd temp name old
  | .made .., .newWriter _, _ => .gone
  | .closing _, .commit .., _ => .spent
  | .closing _, .removeAll _, _ => .spent
  | _, .unlock, _ => .gone
  | ph, _, _ => ph

def expects (B : Place → Nat) : Phase → (c : FsCall) → FsResp c → Prop
  | .locked .., .stat p, .ok info => info.isDir = false → B p ≤ info.size
  | .locked .., .readDir d, .ok names => B d ≤ ((names.filter fun n => !n.2).map fun n => B (d ++ [n.1])).sum
  | _, _, _ => True

def keeper (quotaBytes : Nat) (B : Place → Nat) : Monitor FsResp Phase where
  admits := admits quotaBytes B
  expects := expects B
  next := advance

variable {old quotaBytes fd i dirSize : Nat} {B : Place → Nat} {name directory : Place} {ph : Phase} {t t' files : Files} {w : Writer}

theorem wp_sumEntries {visit : Place → Request (Except String Nat)} {names : List (Text × Bool)}
    (hvisit : ∀ d, wp (keeper quotaBytes B) (visit d)
      (fun r ph => ph = .locked name old ∧ ∀ n, r = .ok n → B d ≤ n) (.locked name old)) (total : Nat) :
    wp (keeper quotaBytes B) (sumEntries visit directory names total)
      (fun r ph => ph = .locked name old ∧ ∀ n, r = .ok n →
        total + ((names.filter fun n => !n.2).map fun n => B (directory ++ [n.1])).sum ≤ n) (.locked name old) := by
  induction names generalizing total with
  | nil =>
    refine ⟨rfl, fun n hn => ?_⟩
    cases hn
    exact Nat.le_refl _
  | cons x rest ih =>
    obtain ⟨c, link⟩ := x
    cases link with
    | true => exact ih total
    | false =>
      refine wp_ask trivial (forall_result (fun info hr => ?_) fun _ _ => ⟨rfl, nofun⟩)
      have hentry : wp (keeper quotaBytes B)
          (if info.isDir then visit (directory ++ [c]) else pure (.ok info.size) : Request (Except String Nat))
          (fun r ph => ph = .locked name old ∧ ∀ n, r = .ok n → B (directory ++ [c]) ≤ n) (.locked name old) := by
        split
        · exact hvisit _
        · rename_i hdir
          refine ⟨rfl, fun n hn => ?_⟩
          cases hn
          exact hr (Bool.eq_false_iff.mpr hdir)
      refine wp_ok hentry ?_ fun _ _ ⟨rfl, _⟩ => ⟨rfl, nofun⟩
      rintro size ph ⟨rfl, hsize⟩
      dsimp only
      split
      · exact ⟨rfl, nofun⟩
      · refine wp_mono ?_ (ih (total + size))
        rintro r ph ⟨rfl, hrest⟩
        refine ⟨rfl, fun n hn => ?_⟩
        have hle := hrest n hn
        have := hsize size rfl
        simp
        omega

theorem wp_usageDir (depth : Nat) (directory : Place) :
    wp (keeper quotaBytes B) (usageDir depth directory)
      (fun r ph => ph = .locked name old ∧ ∀ n, r = .ok n → B directory ≤ n) (.locked name old) := by
  induction depth generalizing directory with
  | zero => exact ⟨rfl, nofun⟩
  | succ depth ih =>
    refine ⟨trivial, forall_result (fun names hr => ?_) fun _ _ => ⟨rfl, nofun⟩⟩
    refine wp_mono ?_ (wp_sumEntries ih 0)
    rintro r ph ⟨rfl, hsum⟩
    refine ⟨rfl, fun n hn => ?_⟩
    have hdir : B directory ≤ _ := hr
    have := hsum n hn
    omega

theorem wp_unlockAndFail {α : Type} (h : admits quotaBytes B ph .unlock) :
    wp (keeper quotaBytes B) (@unlockAndFail α) (fun _ _ => True) ph :=
  ⟨h, fun _ _ => trivial⟩

theorem wp_openLocked (hquota : 0 < quotaBytes) (suffix : Text) (depth : Nat) :
    wp (keeper quotaBytes B) (openLocked quotaBytes name old suffix depth) (fun _ _ => True) (.locked name old) := by
  have hfail : wp (keeper quotaBytes B) (@unlockAndFail Nat) (fun _ _ => True) (.locked name old) :=
    wp_unlockAndFail trivial
  refine wp_then (wp_usageDir depth []) ?_
  rintro r ph ⟨rfl, husage⟩
  cases r with
  | error e => exact hfail
  | ok usage =>
    have husage := husage usage rfl
    dsimp only
    by_cases hover : (decide (0 < quotaBytes) && decide ((if 0 < quotaBytes then (quotaBytes : Int) - usage + old else -1) < 0)) = true
    · rw [if_pos hover]
      exact hfail
    rw [if_neg hover]
    refine wp_ask trivial (forall_result (fun _ _ => ?_) fun _ _ => hfail)
    refine wp_seq (wp_ask trivial (forall_result (fun _ _ => ?_) fun _ _ => hfail))
    refine wp_ask trivial (forall_result (fun fd _ => ?_) fun _ _ => hfail)
    simp [hquota] at hover
    refine ⟨⟨rfl, rfl, rfl, rfl, ?_⟩, fun _ _ => trivial⟩
    simp [hquota]
    omega

theorem wp_closeAtomic (w : Writer) :
    wp (keeper quotaBytes B) (closeAtomic w)
      (fun _ ph => admits quotaBytes B ph .unlock ∧ advance ph .unlock () = .gone) (.closing w) := by
  refine wp_ask trivial fun r _ => ?_
  cases r with
  | error e => exact ⟨trivial, fun _ _ => ⟨trivial, fun _ _ => ⟨trivial, rfl⟩⟩⟩
  | ok _ =>
    refine wp_ask trivial (forall_result (fun _ _ => ?_) fun _ _ => ⟨trivial, fun _ _ => ⟨trivial, rfl⟩⟩)
    refine wp_ask ⟨rfl, rfl⟩ fun r _ => ?_
    cases r with
    | error e => exact ⟨trivial, fun _ _ => ⟨trivial, rfl⟩⟩
    | ok _ => exact ⟨trivial, rfl⟩

theorem wp_program (hquota : 0 < quotaBytes) (t : Task) :
    wp (keeper quotaBytes B) (t.program quotaBytes) (fun _ _ => True) .free := by
  cases t with
  | filewrite h path suffix depth =>
    refine wp_seq ?_
    unfold filewrite
    split
    · trivial
    split
    · trivial
    · trivial
    refine wp_ask trivial fun r _ => ?_
    match r with
    | .error .other => trivial
    | .error .notExist =>
      change wp _ (if !h.can "file.create" then _ else _) _ _
      split
      · trivial
      · exact ⟨trivial, fun _ _ => wp_mono (fun _ _ _ => trivial) (wp_openLocked hquota suffix depth)⟩
    | .ok info =>
      change wp _ (if !h.can "file.update" then _ else _) _ _
      split
      · trivial
      · exact ⟨trivial, fun _ _ => wp_mono (fun _ _ _ => trivial) (wp_openLocked hquota suffix depth)⟩
  | writeAt handle off len => exact ⟨trivial, fun _ _ => trivial⟩
  | close handle =>
    refine wp_seq (wp_ask trivial fun r _ => ?_)
    cases r with
    | none => trivial
    | some w =>
      refine wp_then (wp_closeAtomic w) ?_
      intro r ph hunlock
      refine ⟨hunlock.1, fun _ _ => ?_⟩
      rw [show (keeper quotaBytes B).next ph .unlock () = .gone from hunlock.2]
      cases r with
      | error e => trivial
      | ok _ => exact ⟨trivial, fun _ _ => trivial⟩
  | remove h path =>
    refine wp_seq ?_
    unfold remove
    split
    · trivial
    split
    · trivial
    refine wp_ask trivial fun _ _ => ?_
    have hfail : wp (keeper quotaBytes B) (@unlockAndFail Unit) (fun _ _ => True) .removing := wp_unlockAndFail trivial
    split
    · exact hfail
    · exact hfail
    refine wp_ask trivial fun r _ => ?_
    cases r with
    | error e => exact hfail
    | ok _ => exact ⟨trivial, fun _ _ => ⟨trivial, fun _ _ => trivial⟩⟩
  | rename h path target =>
    refine wp_seq ?_
    unfold rename
    split
    · trivial
    split
    · trivial
    split
    · trivial
    · trivial
    refine wp_ask trivial (forall_result fun _ _ => ?_)
    dsimp only
    split
    · trivial
    · trivial
    exact wp_ask trivial (forall_result fun _ _ => ⟨trivial, fun _ _ => trivial⟩)

/-! ## What a writer may still fill -/

def others (fd : Nat) : Place → Inode → Nat := fun _ f => if f.id = fd then 0 else f.size

def own (fd : Nat) : Place → Inode → Nat := fun _ f => if f.id = fd then f.size else 0

structure Writing (quotaBytes : Nat) (t : Files) (w : Writer) : Prop where
  temp : ∃ n, t.entry w.temp = some (.file ⟨w.fd, n⟩)
  own : ∀ p f, t.entry p = some (.file f) → f.id = w.fd → p = w.temp ∧ (f.size : Int) ≤ w.max
  room : ∃ old : Nat, (t.weigh (others w.fd) : Int) + w.max ≤ quotaBytes + old ∧ Replaces t w.fd w.target old

section
variable {len off : Nat}

theorem Replaces.grown (h : Replaces t fd name old) (ht : DiskTree.Grown t t') : Replaces t' fd name old := by
  obtain rfl | hdir | ⟨f, hf, hid, hle⟩ := h
  · exact .inl rfl
  · exact .inr (.inl (ht.kept _ _ hdir))
  · exact .inr (.inr ⟨f, ht.kept _ _ hf, hid, hle⟩)

theorem Writing.grown (h : Writing quotaBytes t w) (ht : DiskTree.Grown t t') : Writing quotaBytes t' w where
  temp := h.temp.imp fun _ hn => ht.kept _ _ hn
  own p f hf hid := h.own p f (ht.file hf) hid
  room := by
    obtain ⟨old, hroom, hrep⟩ := h.room
    exact ⟨old, by rw [ht.weight]; exact hroom, hrep.grown ht⟩

theorem grow_other {f : Inode} (h : f.id ≠ fd) : grow fd off len f = f := if_neg fun hf => h hf.1

theorem grow_id (f : Inode) : (grow fd off len f).id = f.id := by
  unfold grow
  split <;> rfl

theorem Writing.grow (h : Writing quotaBytes t w) (hle : ((off + len : Nat) : Int) ≤ w.max) :
    Writing quotaBytes (t.modify (grow w.fd off len)) w where
  temp := by
    obtain ⟨n, hn⟩ := h.temp
    refine ⟨(SftpWrites.grow w.fd off len ⟨w.fd, n⟩).size, ?_⟩
    rw [entry_modify, hn, Option.map_some]
    refine congrArg (some ∘ DiskEntry.file) ?_
    unfold SftpWrites.grow
    split <;> rfl
  own p f hf hid := by
    rw [entry_modify, Option.map_eq_some_iff] at hf
    obtain ⟨e, he, hf⟩ := hf
    cases e with
    | file f' =>
      cases hf
      rw [grow_id] at hid
      obtain ⟨hp, hsize⟩ := h.own p f' he hid
      refine ⟨hp, ?_⟩
      unfold SftpWrites.grow
      split
      · simp only
        omega
      · exact hsize
    | _ => cases hf
  room := by
    obtain ⟨old, hroom, hrep⟩ := h.room
    have hsame : (fun p f => others w.fd p (SftpWrites.grow w.fd off len f)) = others w.fd := by
      funext p f
      by_cases hid : f.id = w.fd
      · simp [others, grow_id, hid]
      · rw [grow_other hid]
    refine ⟨old, by rw [weigh_modify, hsame]; exact hroom, ?_⟩
    obtain rfl | hdir | ⟨f, hf, hid, hle⟩ := hrep
    · exact .inl rfl
    · refine .inr (.inl ?_)
      rw [entry_modify, hdir]
      rfl
    · refine .inr (.inr ⟨f, ?_, hid, hle⟩)
      rw [entry_modify, hf]
      exact congrArg (some ∘ DiskEntry.file) (grow_other hid)

theorem Writing.own_le (h : Writing quotaBytes t w) : (t.weigh (SftpWrites.own w.fd) : Int) ≤ w.max := by
  obtain ⟨n, hn⟩ := h.temp
  have hmax := (h.own _ _ hn rfl).2
  have hbound : t.weigh (SftpWrites.own w.fd) ≤ w.max.toNat := by
    refine weigh_at (p := w.temp) (fun q f hf hne => if_neg fun hid => hne (h.own q f hf hid).1) fun f hf => ?_
    unfold SftpWrites.own
    split
    · rename_i hid
      have := (h.own _ f hf hid).2
      omega
    · exact Nat.zero_le _
  omega

theorem weigh_commit_le (t : Files) (fd : Nat) (target : Place) :
    t.weigh (fun p f => if p = target then 0 else f.size) +
      t.weigh (fun p f => if p = target then others fd p f else 0) ≤ t.weigh (others fd) + t.weigh (SftpWrites.own fd) := by
  rw [← weigh_add, ← weigh_add]
  refine weigh_mono fun p f _ => ?_
  unfold others SftpWrites.own
  by_cases hid : f.id = fd <;> by_cases hp : p = target <;> simp [hid, hp]

theorem Writing.commit (h : Writing quotaBytes t w) (hr : t.rename w.temp w.target = .ok t') :
    t'.weigh (fun _ f => f.size) ≤ quotaBytes := by
  obtain ⟨n, hn⟩ := h.temp
  obtain ⟨old, hroom, hrep⟩ := h.room
  have hown := h.own_le
  have hall : t.weigh (fun _ f => f.size) ≤ t.weigh (others w.fd) + t.weigh (SftpWrites.own w.fd) := by
    rw [← weigh_add]
    refine weigh_mono fun p f _ => ?_
    unfold others SftpWrites.own
    by_cases hid : f.id = w.fd <;> simp [hid]
  obtain ⟨e, he, ⟨heq, rfl⟩ | ⟨-, hm, rfl⟩⟩ := rename_ok hr
  · -- the temporary name is the target's own, so nothing was there to be replaced
    obtain rfl | hdir | ⟨f, hf, hid, -⟩ := hrep
    · omega
    · rw [← heq, hn] at hdir
      cases hdir
    · rw [← heq, hn] at hf
      cases hf
      exact absurd rfl hid
  · rw [hn] at he
    cases he
    have hle := weigh_commit_le t w.fd w.target
    rw [weigh_move]
    obtain rfl | hdir | ⟨f, hf, hid, hsize⟩ := hrep
    · omega
    · -- a file does not replace a directory
      have hkind := hm.2.2.2.2
      rw [hdir] at hkind
      cases hkind
    · have hsingle := weigh_single (w := fun p f => if p = w.target then others w.fd p f else 0) hf
      simp [others, hid] at hsingle hle
      omega

end

/-! ## All requests together -/

structure Ghost where
  below : Place → Nat
  phase : Phase

def Ghost.holds (m : Ghost) : Bool := m.phase.holds

def Ghost.Fact (quotaBytes : Nat) (d : Disk) (m : Ghost) : Prop :=
  match m.phase with
  | .locked name old => (∀ p, m.below p = d.tree.weighBelow (·.size) p) ∧ stillThere d.tree name old = true
  | .made fd temp name old =>
    d.tree.entry temp = some (.file ⟨fd, 0⟩) ∧ (∀ p f, d.tree.entry p = some (.file f) → f.id = fd → p = temp) ∧
      m.below [] = d.tree.weigh (others fd) ∧ Replaces d.tree fd name old
  | .closing w => Writing quotaBytes d.tree w
  | _ => True

structure Kept (quotaBytes : Nat) (d : Disk) (g : List Ghost) : Prop where
  holders : g.countP Ghost.holds + d.writers.countP (fun w => !w.closed) = if d.locked then 1 else 0
  facts : ∀ m ∈ g, m.Fact quotaBytes d
  writers : ∀ w ∈ d.writers, w.closed = false → Writing quotaBytes d.tree w
  fresh : ∀ p f, d.tree.entry p = some (.file f) → f.id < d.next

variable {g : List Ghost} {s : State}

section
variable {d d' : Disk} {m m' : Ghost}
variable {handle size : Nat}

theorem Ghost.fact_of_free (h : m.holds = false) : m.Fact quotaBytes d := by
  obtain ⟨B, ph⟩ := m
  cases ph <;> trivial

theorem stillThere_grown (h : stillThere t name size = true)
    (ht : DiskTree.Grown t t') : stillThere t' name size = true := by
  unfold stillThere at h ⊢
  cases he : t.entry name with
  | some e =>
    rw [ht.kept _ _ he]
    rwa [he] at h
  | none =>
    rw [he] at h
    obtain hnone | hdir := ht.added _ he
    · rwa [hnone]
    · rw [hdir]

theorem Ghost.Fact.grown (h : m.Fact quotaBytes d) (ht : DiskTree.Grown d.tree d'.tree) : m.Fact quotaBytes d' := by
  obtain ⟨B, ph⟩ := m
  cases ph with
  | locked name old => exact ⟨fun p => (h.1 p).trans (ht.weight _).symm, stillThere_grown h.2 ht⟩
  | made fd temp name old =>
    exact ⟨ht.kept _ _ h.1, fun p f hf hid => h.2.1 p f (ht.file hf) hid, h.2.2.1.trans (ht.weight _).symm, h.2.2.2.grown ht⟩
  | closing w => exact Writing.grown h ht
  | _ => trivial

variable (h : Kept quotaBytes d g)
include h

theorem Kept.alone (hi : g[i]? = some m) (hm : m.holds = true) :
    d.locked = true ∧ (∀ (j : Nat) n, j ≠ i → g[j]? = some n → n.holds = false) ∧ d.writers.countP (fun w => !w.closed) = 0 := by
  have hsum := h.holders
  have hpos : 0 < g.countP Ghost.holds := countP_pos_iff.mpr ⟨m, mem_of_getElem? hi, hm⟩
  split at hsum
  · rename_i hlocked
    exact ⟨hlocked, fun j n hj hn => countP_alone (by omega) hi hm hj hn, by omega⟩
  · omega

theorem Kept.nobody (hfree : d.locked = false) :
    (∀ n ∈ g, n.holds = false) ∧ d.writers.countP (fun w => !w.closed) = 0 := by
  have hzero := h.holders
  rw [hfree, if_neg Bool.false_ne_true, Nat.add_eq_zero_iff, countP_eq_zero] at hzero
  exact ⟨fun n hn => Bool.eq_false_iff.mpr (hzero.1 n hn), hzero.2⟩

theorem Kept.writerAlone (hw : d.writers[handle]? = some w) (hopen : w.closed = false) :
    d.locked = true ∧ (∀ n ∈ g, n.holds = false) ∧ ∀ (j : Nat) x, j ≠ handle → d.writers[j]? = some x → x.closed = true := by
  have hsum := h.holders
  have hp : (!w.closed) = true := by rw [hopen]; rfl
  have hpos : 0 < d.writers.countP (fun w => !w.closed) := countP_pos_iff.mpr ⟨w, mem_of_getElem? hw, hp⟩
  split at hsum
  · rename_i hlocked
    have hzero : g.countP Ghost.holds = 0 := by omega
    refine ⟨hlocked, fun n hn => Bool.eq_false_iff.mpr (countP_eq_zero.mp hzero n hn), fun j x hj hx => ?_⟩
    simpa using countP_alone (p := fun w => !w.closed) (by omega) hw hp hj hx
  · omega

omit h

theorem none_open {P : Writer → Prop} {l : List Writer} (h : l.countP (fun w => !w.closed) = 0) :
    ∀ w ∈ l, w.closed = false → P w := by
  intro w hw hopen
  have := countP_eq_zero.mp h w hw
  rw [hopen] at this
  exact absurd rfl this

theorem Kept.turn (hi : g[i]? = some m) (hothers : ∀ (j : Nat) n, j ≠ i → g[j]? = some n → n.holds = false)
    (hholders : (if m'.holds then 1 else 0) + d'.writers.countP (fun w => !w.closed) = if d'.locked then 1 else 0)
    (hfact : m'.Fact quotaBytes d') (hwriters : ∀ w ∈ d'.writers, w.closed = false → Writing quotaBytes d'.tree w)
    (hfresh : ∀ p f, d'.tree.entry p = some (.file f) → f.id < d'.next) : Kept quotaBytes d' (g.set i m') where
  holders := by rw [countP_set_only hi hothers]; exact hholders
  facts n hn := by
    obtain ⟨j, hj⟩ := List.getElem?_of_mem hn
    obtain ⟨-, rfl⟩ | ⟨hji, hj⟩ := set_cases hj
    · exact hfact
    · exact Ghost.fact_of_free (hothers j n hji hj)
  writers := hwriters
  fresh := hfresh

variable (h : Kept quotaBytes d g)
include h

theorem Kept.hold (hi : g[i]? = some m) (hm : m.holds = true) (hlock : d'.locked = m'.holds)
    (hwriters : d'.writers = d.writers) (hfact : m'.Fact quotaBytes d')
    (hfresh : ∀ p f, d'.tree.entry p = some (.file f) → f.id < d'.next) : Kept quotaBytes d' (g.set i m') := by
  obtain ⟨-, hothers, hnone⟩ := h.alone hi hm
  rw [← hwriters] at hnone
  exact .turn hi hothers (by rw [hnone, hlock, Nat.add_zero]) hfact (none_open hnone) hfresh

theorem Kept.acquire (hi : g[i]? = some m) (hfree : d.locked = false) (hm' : m'.holds = true)
    (hfact : m'.Fact quotaBytes d) : Kept quotaBytes { d with locked := true } (g.set i m') := by
  obtain ⟨hnobody, hnone⟩ := h.nobody hfree
  exact .turn hi (fun j n _ hn => hnobody n (mem_of_getElem? hn)) (by rw [hm']; exact congrArg (1 + ·) hnone) hfact (none_open hnone) h.fresh

theorem Kept.grown (ht : DiskTree.Grown d.tree t) : Kept quotaBytes { d with tree := t } g where
  holders := h.holders
  facts m hm := (h.facts m hm).grown ht
  writers w hw hopen := (h.writers w hw hopen).grown ht
  fresh p f hf := h.fresh p f (ht.file hf)

theorem Kept.unlocked (hfree : d.locked = false)
    (ht : ∀ p f, t.entry p = some (.file f) → ∃ q, d.tree.entry q = some (.file f)) : Kept quotaBytes { d with tree := t } g where
  holders := h.holders
  facts m hm := Ghost.fact_of_free ((h.nobody hfree).1 m hm)
  writers := none_open (h.nobody hfree).2
  fresh p f hf := by
    obtain ⟨q, hq⟩ := ht p f hf
    exact h.fresh q f hq

theorem Kept.write (handle : Nat) (off : Int) (len : Nat) : Kept quotaBytes (d.writeAt handle off len).2 g := by
  unfold Disk.writeAt
  cases hw : d.writers[handle]? with
  | none => exact h
  | some w =>
    dsimp only
    split
    · exact h
    rename_i hready
    simp at hready
    split
    · exact h
    rename_i hbound
    obtain ⟨-, hfree, hclosed⟩ := h.writerAlone hw hready.1
    have hwriting := mem_at h.writers hw hready.1
    have hmax : 0 ≤ w.max := by
      obtain ⟨n, hn⟩ := hwriting.temp
      have := (hwriting.own _ _ hn rfl).2
      omega
    simp [hmax] at hbound
    refine ⟨h.holders, fun m hm => Ghost.fact_of_free (hfree m hm), fun x hx hopen => ?_, fun p f hf => ?_⟩
    · obtain ⟨j, hj⟩ := List.getElem?_of_mem hx
      obtain rfl | hne := eq_or_ne j handle
      · rw [hw] at hj
        cases hj
        exact hwriting.grow (by omega)
      · rw [hclosed j x hne hj] at hopen
        cases hopen
    · rw [entry_modify, Option.map_eq_some_iff] at hf
      obtain ⟨e, he, hf⟩ := hf
      cases e with
      | file f' =>
        cases hf
        rw [grow_id]
        exact h.fresh p f' he
      | _ => cases hf

theorem Kept.handOver (hi : g[i]? = some m) (hm : m.holds = true)
    (hm' : m'.holds = false) (hopen : w.closed = false) (hwriting : Writing quotaBytes d.tree w) :
    Kept quotaBytes { d with writers := d.writers ++ [w] } (g.set i m') := by
  obtain ⟨hlocked, hothers, hnone⟩ := h.alone hi hm
  refine .turn hi hothers ?_ (Ghost.fact_of_free hm') (forall_snoc (none_open hnone) fun _ => hwriting) h.fresh
  simp [hm', hnone, hopen, hlocked]

theorem Kept.takeOver (hi : g[i]? = some m) (hw : d.writers[handle]? = some w) (hopen : w.closed = false) (B : Place → Nat) :
    Kept quotaBytes { d with writers := d.writers.set handle { w with closed := true } } (g.set i ⟨B, .closing w⟩) := by
  obtain ⟨hlocked, hfree, hclosed⟩ := h.writerAlone hw hopen
  have hnone : (d.writers.set handle { w with closed := true }).countP (fun w => !w.closed) = 0 :=
    countP_set_only hw fun j x hj hx => by rw [hclosed j x hj hx]; rfl
  refine .turn hi (fun j n _ hn => hfree n (mem_of_getElem? hn)) ?_ (h.writers w (mem_of_getElem? hw) hopen)
    (none_open hnone) h.fresh
  rw [hnone, hlocked]
  rfl

end

def Obeys (quotaBytes : Nat) (x : Task × Request Unit) (m : Ghost) : Prop :=
  ∀ B, (m.phase = .free ∨ B = m.below) → wp (keeper quotaBytes B) x.2 (fun _ _ => True) m.phase

def Careful (d : Disk) : FsCall → Prop
  | .lock found => d.locked = false ∧ ∀ name size, found = some (name, size) → stillThere d.tree name size = true
  | .rename .. => d.locked = false
  | _ => True

def Keeps (quotaBytes dirSize : Nat) (ph : Phase) : Prop :=
  ∀ {d : Disk} {g : List Ghost} {i : Nat} {B : Place → Nat} {c : FsCall} {k : FsResp c → Request Unit} {t : Task},
    Kept quotaBytes d g → g[i]? = some ⟨B, ph⟩ → Obeys quotaBytes (t, .call c k) ⟨B, ph⟩ → Careful d c →
      ∃ m', Obeys quotaBytes (t, k (d.handle dirSize c).1) m' ∧ Kept quotaBytes (d.handle dirSize c).2 (g.set i m')

section
variable {dirSize : Nat} {d d' : Disk} {c : FsCall}
variable {k : FsResp c → Request Unit} {r : FsResp c} {t : Task} {e : String}

theorem Obeys.admits (h : Obeys quotaBytes (t, .call c k) ⟨B, ph⟩) : SftpWrites.admits quotaBytes B ph c :=
  (h B (.inr rfl)).1

theorem Obeys.next_free (h : Obeys quotaBytes (t, .call c k) ⟨B, .free⟩) (r : FsResp c) (B' : Place → Nat) :
    Obeys quotaBytes (t, k r) ⟨B', advance .free c r⟩ := by
  intro B'' _
  refine (h B'' (.inl rfl)).2 r ?_
  cases c <;> trivial

theorem advance_ne_free (h : ph ≠ .free) (r : FsResp c) : advance ph c r ≠ .free := by
  unfold advance
  split <;> first | exact absurd rfl h | exact h | nofun

theorem Obeys.next (h : Obeys quotaBytes (t, .call c k) ⟨B, ph⟩) (hph : ph ≠ .free) (hr : expects B ph c r) :
    Obeys quotaBytes (t, k r) ⟨B, advance ph c r⟩ := by
  rintro B' (hfree | rfl)
  · exact absurd hfree (advance_ne_free hph r)
  · exact (h _ (.inr rfl)).2 r hr

theorem Kept.stay (h : Kept quotaBytes d g) (hi : g[i]? = some ⟨B, ph⟩) (hF : Obeys quotaBytes (t, k r) ⟨B, advance ph c r⟩)
    (hsame : advance ph c r = ph) : ∃ m', Obeys quotaBytes (t, k r) m' ∧ Kept quotaBytes d (g.set i m') :=
  ⟨⟨B, ph⟩, hsame ▸ hF, (set_same hi).symm ▸ h⟩

theorem Kept.fault (h : Kept quotaBytes d g) (hi : g[i]? = some ⟨B, ph⟩) (hF : Obeys quotaBytes (t, .call c k) ⟨B, ph⟩)
    (hf : fault c e = some r) : ∃ m', Obeys quotaBytes (t, k r) m' ∧ Kept quotaBytes d (g.set i m') := by
  have hF' : Obeys quotaBytes (t, k r) ⟨B, advance ph c r⟩ := by
    by_cases hph : ph = .free
    · subst hph
      exact hF.next_free r B
    · refine hF.next hph ?_
      cases c <;> cases hf <;> cases ph <;> trivial
  have hadmits := hF.admits
  cases ph with
  | closing w =>
    cases c with
    | sync | closeFd =>
      exact h.stay hi hF' rfl
    | removeAll | commit => exact ⟨_, hF', h.hold hi rfl (h.alone hi rfl).1 rfl trivial h.fresh⟩
    | _ => first | exact hadmits.elim | cases hf
  | _ => cases c <;> cases hf <;> exact h.stay hi hF' rfl

theorem keeps_free : Keeps quotaBytes dirSize .free := by
  intro d g i B c k t h hi hF hc
  have hadmits := hF.admits
  -- a call that only passes by
  have hpass : ∀ {d'}, Kept quotaBytes d' g → ∀ r, advance .free c r = .free →
      ∃ m', Obeys quotaBytes (t, k r) m' ∧ Kept quotaBytes d' (g.set i m') :=
    fun h r hsame => h.stay hi (hF.next_free r B) hsame
  cases c with
  | stat | record => exact hpass h _ rfl
  | mkdirAll directory => exact hpass (h.grown mkdirs_grown) _ rfl
  | writeAt handle off len => exact hpass (h.write handle off len) _ rfl
  | rename old new =>
    refine hpass ?_ _ rfl
    simp [Disk.handle]
    cases hrename : d.tree.rename old new with
    | error e => exact h
    | ok t => exact h.unlocked hc fun p f hf => rename_file hrename hf
  | lock found =>
    obtain _ | ⟨name, size⟩ := found
    · exact ⟨_, hF.next_free _ B, h.acquire hi hc.1 rfl trivial⟩
    · exact ⟨_, hF.next_free _ (d.tree.weighBelow (·.size)), h.acquire hi hc.1 rfl ⟨fun _ => rfl, hc.2 _ _ rfl⟩⟩
  | beginClose handle =>
    simp [Disk.handle]
    split
    · exact hpass h _ rfl
    split
    · exact hpass h _ rfl
    · rename_i w hw hopen
      exact ⟨_, hF.next_free _ B, h.takeOver hi hw (Bool.eq_false_iff.mpr hopen) B⟩
  | _ => exact hadmits.elim

variable {temp : Place}

theorem expects_of_weights (hB : ∀ p, B p = d.tree.weighBelow (·.size) p) :
    expects B (.locked name old) c (d.handle dirSize c).1 := by
  cases c with
  | stat p =>
    simp [Disk.handle, statFiles]
    split
    · rename_i f he
      intro _
      rw [hB]
      exact weighBelow_file he
    · rintro ⟨⟩
    · trivial
    · split
      · rintro ⟨⟩
      · split <;> trivial
  | readDir directory =>
    simp [Disk.handle]
    cases hread : d.tree.readDir directory with
    | error e => trivial
    | ok names =>
      have := weighBelow_readDir (w := fun f : Inode => f.size) hread
      simpa [expects, hB] using this
  | _ => trivial

theorem Kept.created (h : Kept quotaBytes d g)
    (hcreate : d.tree.create temp ⟨d.next, 0⟩ = .ok files) (hB : ∀ p, B p = d.tree.weighBelow (·.size) p)
    (hthere : stillThere d.tree name old = true) :
    Ghost.Fact quotaBytes { d with tree := files, next := d.next + 1 } ⟨B, .made d.next temp name old⟩ ∧
      ∀ p f, files.entry p = some (.file f) → f.id < d.next + 1 := by
  obtain ⟨hp, hfree, hparent, rfl⟩ := create_ok hcreate
  -- an entry that was there is still the same
  have hkept : ∀ p e, d.tree.entry p = some e → (d.tree.insert temp (.file ⟨d.next, 0⟩) hp hfree hparent).entry p = some e := by
    intro p e he
    rw [entry_insert, if_neg, he]
    rintro rfl
    rw [hfree] at he
    cases he
  have hnew : ∀ p f, (d.tree.insert temp (.file ⟨d.next, 0⟩) hp hfree hparent).entry p = some (.file f) →
      p = temp ∧ f = ⟨d.next, 0⟩ ∨ f.id < d.next := by
    intro p f hf
    rw [entry_insert] at hf
    split at hf
    · rename_i heq
      cases hf
      exact .inl ⟨heq, rfl⟩
    · exact .inr (h.fresh p f hf)
  refine ⟨⟨?_, fun p f hf hid => ?_, ?_, ?_⟩, fun p f hf => ?_⟩
  · rw [entry_insert, if_pos rfl]
  · obtain ⟨rfl, -⟩ | hlt := hnew p f hf
    · rfl
    · omega
  · have hzero : others d.next temp ⟨d.next, 0⟩ = 0 := if_pos rfl
    dsimp only
    rw [hB, weighBelow_nil, weigh_insert]
    dsimp only
    rw [hzero, Nat.add_zero]
    refine weigh_congr fun p f hf => ?_
    have hlt := h.fresh p f hf
    rw [others, if_neg (by omega)]
  · unfold stillThere at hthere
    cases he : d.tree.entry name with
    | none =>
      rw [he] at hthere
      exact .inl (of_decide_eq_true hthere)
    | some e =>
      rw [he] at hthere
      cases e with
      | dir => exact .inr (.inl (hkept _ _ he))
      | link => exact .inl (of_decide_eq_true hthere)
      | file f => exact .inr (.inr ⟨f, hkept _ _ he, Nat.ne_of_lt (h.fresh _ _ he), of_decide_eq_true hthere⟩)
  · obtain ⟨-, rfl⟩ | hlt := hnew p f hf
    · exact Nat.lt_succ_self _
    · omega

theorem keeps_locked : Keeps quotaBytes dirSize (.locked name old) := by
  intro d g i B c k t h hi hF _
  have hadmits := hF.admits
  obtain ⟨hB, hthere⟩ := mem_at h.facts hi
  have hF' := hF.next (r := (d.handle dirSize c).1) nofun (expects_of_weights hB)
  cases c with
  | stat | readDir => exact h.stay hi hF' rfl
  | mkdirAll directory => exact (h.grown mkdirs_grown).stay hi hF' rfl
  | unlock => exact ⟨_, hF', h.hold hi rfl rfl rfl trivial h.fresh⟩
  | create temp =>
    simp [Disk.handle] at hF' ⊢
    cases hcreate : d.tree.create temp ⟨d.next, 0⟩ with
    | error e =>
      rw [hcreate] at hF'
      exact h.stay hi hF' rfl
    | ok files =>
      rw [hcreate] at hF'
      obtain ⟨hfact, hfresh⟩ := h.created hcreate hB hthere
      exact ⟨_, hF', h.hold hi rfl (h.alone hi rfl).1 rfl hfact hfresh⟩
  | _ => exact hadmits.elim

theorem keeps_made : Keeps quotaBytes dirSize (.made fd temp name old) := by
  intro d g i B c k t h hi hF _
  have hadmits := hF.admits
  obtain ⟨htemp, hown, hB, hrep⟩ := mem_at h.facts hi
  cases c with
  | newWriter w =>
    obtain ⟨rfl, rfl, rfl, hopen, hmax, hroom⟩ := hadmits
    have hwriting : Writing quotaBytes d.tree w := by
      refine ⟨⟨0, htemp⟩, fun p f hf hid => ?_, old, hB ▸ hroom, hrep⟩
      obtain rfl := hown p f hf hid
      rw [htemp] at hf
      cases hf
      exact ⟨rfl, hmax⟩
    exact ⟨_, hF.next nofun trivial, h.handOver hi rfl rfl hopen hwriting⟩
  | _ => exact hadmits.elim

theorem fresh_removeAll (h : Kept quotaBytes d g) (name : Place) :
    ∀ p f, (d.tree.removeAll name).entry p = some (.file f) → f.id < d.next := by
  intro p f hf
  rw [entry_removeAll] at hf
  split at hf
  · cases hf
  · exact h.fresh p f hf

theorem keeps_closing : Keeps quotaBytes dirSize (.closing w) := by
  intro d g i B c k t h hi hF _
  have hadmits := hF.admits
  have hF' := hF.next (r := (d.handle dirSize c).1) nofun (by cases c <;> trivial)
  have hlocked := (h.alone hi rfl).1
  cases c with
  | sync | closeFd => exact h.stay hi hF' rfl
  | unlock => exact ⟨_, hF', h.hold hi rfl rfl rfl trivial h.fresh⟩
  | removeAll name => exact ⟨_, hF', h.hold hi rfl hlocked rfl trivial (fresh_removeAll h name)⟩
  | commit temp target =>
    refine ⟨_, hF', ?_⟩
    simp [Disk.handle]
    cases hrename : d.tree.rename temp target with
    | error e => exact h.hold hi rfl hlocked rfl trivial h.fresh
    | ok files =>
      refine h.hold hi rfl hlocked rfl trivial fun p f hf => ?_
      obtain ⟨q, hq⟩ := rename_file hrename hf
      exact h.fresh q f hq
  | _ => exact hadmits.elim

theorem keeps_removing : Keeps quotaBytes dirSize .removing := by
  intro d g i B c k t h hi hF _
  have hadmits := hF.admits
  have hF' := hF.next (r := (d.handle dirSize c).1) nofun (by cases c <;> trivial)
  cases c with
  | removeAll name => exact ⟨_, hF', h.hold hi rfl (h.alone hi rfl).1 rfl trivial (fresh_removeAll h name)⟩
  | record => exact h.stay hi hF' rfl
  | unlock => exact ⟨_, hF', h.hold hi rfl rfl rfl trivial h.fresh⟩
  | _ => exact hadmits.elim

theorem keeps_spent : Keeps quotaBytes dirSize .spent := by
  intro d g i B c k t h hi hF _
  have hadmits := hF.admits
  have hF' := hF.next (r := (d.handle dirSize c).1) nofun (by cases c <;> trivial)
  cases c with
  | removeAll name => exact ⟨_, hF', h.hold hi rfl (h.alone hi rfl).1 rfl trivial (fresh_removeAll h name)⟩
  | unlock => exact ⟨_, hF', h.hold hi rfl rfl rfl trivial h.fresh⟩
  | _ => exact hadmits.elim

theorem keeps_gone : Keeps quotaBytes dirSize .gone := by
  intro d g i B c k t h hi hF _
  have hadmits := hF.admits
  cases c with
  | record => exact h.stay hi (hF.next nofun trivial) rfl
  | _ => exact hadmits.elim

theorem keeps (ph : Phase) : Keeps quotaBytes dirSize ph := by
  cases ph with
  | free => exact keeps_free
  | locked name old => exact keeps_locked
  | made fd temp name old => exact keeps_made
  | removing => exact keeps_removing
  | closing w => exact keeps_closing
  | spent => exact keeps_spent
  | gone => exact keeps_gone

end

def oneFile : Files := ⟨[(["a".toList], .file ⟨0, 6⟩)], by decide, by decide, by decide⟩

def quiet : State := ⟨{ tree := oneFile, next := 1 }, []⟩

def owner : Session := ⟨["*"], false⟩

end ForgePlane.SftpWrites
