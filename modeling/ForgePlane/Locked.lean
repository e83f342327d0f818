import ForgePlane.Credential
import ForgePlane.Sections
import ForgePlane.Solo

/-!
# What each section of a transfer does

One lemma for each locked section says all it can do to the disk, and one for
each request how it is cut into calls.
-/

namespace ForgePlane

variable {H : Sha256} {K : Codec} {c : DiskCall} {credential serverID : String} {r : TransferRecord} {ctx written inode : Nat}
variable {w w' : Disk}

namespace Disk

variable {d : Disk} {direction : Direction}

structure Opens (d : Disk) (H : Sha256) (direction : Direction) (credential : String) (r : TransferRecord) : Prop where
  load : d.load direction = some r
  version : r.version = transferProtocolVersion
  direction : r.direction = direction
  fresh : r.consumed = false
  live : d.now < r.expiresAt
  hash : credentialHash H credential = r.credentialHash

theorem authorize_ok : d.authorize H direction credential = .ok r ↔ d.Opens H direction credential r := by
  constructor
  · intro h
    unfold authorize at h
    split at h
    · cases h
    · rename_i r' hload
      split_ifs at h with hbind hused hold hhash
      cases h
      simp at hbind
      exact ⟨hload, hbind.1, hbind.2, by simpa using hused, by omega, by simpa using hhash⟩
  · intro h
    simp [authorize, h.load, h.version, h.direction, h.fresh, h.live, h.hash]

@[simp] theorem load_save (d : Disk) (r : TransferRecord) (x : Direction) :
    (d.save r).load x = if r.direction = x then some r else d.load x := by
  cases x <;> cases h : r.direction <;> simp [save, load, h]

@[simp] theorem incomingFile_save (d : Disk) (r : TransferRecord) : (d.save r).incomingFile = d.incomingFile := by
  cases h : r.direction <;> simp [save, h, incomingFile]

theorem register_cases (d : Disk) (reg : TransferCredentialRegistration) :
    (∃ e, d.register reg = (.error e, d)) ∨
    ∃ r, d.register reg = (.ok (), d.save r) ∧ r.direction = reg.claims.direction ∧
      r.credentialHash = Engine.lower reg.credentialHash ∧
      r.metadata = ((d.load reg.claims.direction).map (·.metadata)).getD ⟨.authorized, 0, 0, ""⟩ := by
  dsimp [register]
  cases Engine.validateClaims reg.claims with
  | error e => exact .inl ⟨e, rfl⟩
  | ok =>
    dsimp only
    split_ifs
    · exact .inl ⟨_, rfl⟩
    · exact .inl ⟨_, rfl⟩
    · cases hload : d.load reg.claims.direction with
      | none => exact .inr ⟨_, rfl, rfl, rfl, rfl⟩
      | some =>
        simp only
        split_ifs with hbind
        · exact .inl ⟨_, rfl⟩
        · simp at hbind
          exact .inr ⟨_, rfl, hbind.2, rfl, rfl⟩

structure Admits (r : TransferRecord) (offset total : Int) (sum : String) : Prop where
  unsettled : r.phase ≠ .restored ∧ r.phase ≠ .activated
  bounded : 0 < total ∧ total ≤ Engine.maxSize
  next : offset = r.offset
  within : offset ≤ total
  declared : r.archiveSize = 0 ∨ r.archiveSize = total
  agrees : r.checksum = "" ∨ equalFold r.checksum sum = true

def uploading (r : TransferRecord) (total : Int) (sum : String) : TransferRecord :=
  { r with archiveSize := total.toNat, checksum := Engine.lower sum, phase := .uploading }

variable {offset total : Int} {sum : String}

@[simp] theorem openIncoming_incoming (d : Disk) : d.openIncoming.2.incoming = some d.openIncoming.1 := by
  cases h : d.incoming <;> simp [openIncoming, h]

@[simp] theorem openIncoming_load (d : Disk) (x : Direction) : d.openIncoming.2.load x = d.load x := by
  cases h : d.incoming <;> cases x <;> simp [openIncoming, h, load, setFile]

theorem openIncoming_file (d : Disk) : d.openIncoming.2.file d.openIncoming.1 = d.incomingFile.getD [] := by
  cases h : d.incoming <;> simp [openIncoming, h, incomingFile, setFile]

theorem beginAppend_refused (h : ∀ r, d.Opens H .destinationUpload credential r → ¬ Admits r offset total sum) :
    ∃ e, d.beginAppend H credential offset total sum = (.error e, d) := by
  unfold beginAppend
  split
  · exact ⟨_, rfl⟩
  · rename_i r hr
    have hno := h r (authorize_ok.mp hr)
    split_ifs with hphase hrange hsize hsum
    · exact ⟨_, rfl⟩
    · exact ⟨_, rfl⟩
    · exact ⟨_, rfl⟩
    · exact ⟨_, rfl⟩
    all_goals
      simp at hphase hrange hsize hsum
      refine absurd ⟨hphase, ⟨by omega, by omega⟩, hrange.1.2, by omega, ?_, ?_⟩ hno
      · tauto
      · by_cases he : r.checksum = ""
        · exact .inl he
        · exact .inr (by simpa using hsum he)

theorem beginAppend_admitted (ho : d.Opens H .destinationUpload credential r) (ha : Admits r offset total sum) :
    d.beginAppend H credential offset total sum =
      let opened := (d.save (uploading r total sum)).openIncoming
      if ((opened.2.file opened.1).length : Int) ≠ offset then (.error Engine.errOffsetMismatch, opened.2)
      else (.ok (uploading r total sum, opened.1, opened.2.openContext.1), opened.2.openContext.2) := by
  obtain ⟨⟨h1, h2⟩, ⟨h3, h4⟩, h5, h6, h7, h8⟩ := ha
  unfold beginAppend
  simp [authorize_ok.mpr ho]
  rw [if_neg (by simp [h1, h2]), if_neg (by simp; omega), if_neg (by simp; omega), if_neg (by
    simp
    intro he
    simpa using h8.resolve_left he)]
  rfl

def endPhase (K : Codec) (d : Disk) (r : TransferRecord) (offset total : Int) (sum : String) (written : Nat)
    (copyErr : Option Err) : TransferPhase :=
  if copyErr.isSome || total - offset < written || offset + written < total then r.phase
  else
    match d.incomingFile with
    | none => r.phase
    | some b => if equalFold (K.checksum b) sum then .verified else .failed

theorem endAppend_disk {copyErr : Option Err} (hoffset : 0 ≤ offset) :
    (d.endAppend K r offset total sum written copyErr).2 = { d with active := none }.save { r with
      offset := (offset + written).toNat, phase := endPhase K d r offset total sum written copyErr } := by
  have hnat : ((offset + written).toNat : Int) = offset + written := Int.toNat_of_nonneg (by omega)
  have hfile : ({ d with active := none } : Disk).incomingFile = d.incomingFile := rfl
  dsimp [endAppend, endPhase]
  cases copyErr with
  | some => rfl
  | none =>
    dsimp only
    rw [hnat, hfile]
    by_cases hover : total - offset < written
    · simp [hover]
    · by_cases hshort : offset + written < total
      · simp [hover, hshort]
      · cases d.incomingFile with
        | none => simp [hover, hshort]
        | some b => cases heq : equalFold (K.checksum b) sum <;> simp [hover, hshort, heq]

/-! ## Steps on the files -/

theorem handle_plain (hb : c.begins = false) (hs : c.stale = none) (x : Direction) :
    (d.handle H K c).2.load x = d.load x ∨ (d.handle H K c).2.load x = none := by
  cases c
  case endPrepare | endAppend | endRestore => cases hs
  case packArchive ctx serverID =>
    left
    simp [handle, packArchive]
    split_ifs
    · rfl
    · cases (d.servers serverID).elim (.error "no such file or directory") K.pack <;> rfl
  case unpackIncoming ctx =>
    left
    simp [handle, unpackIncoming]
    split
    · split_ifs
      · rfl
      · split <;> rfl
    · rfl
  case renameAside serverID =>
    left
    simp [handle, renameAside]
    split_ifs
    · rfl
    · split <;> rfl
  case renameStaging serverID =>
    left
    simp [handle, renameStaging]
    split <;> rfl
  case renamePrevious serverID =>
    left
    simp [handle, renamePrevious]
    split <;> rfl
  case remove e =>
    cases e <;> cases x <;> simp [handle, remove, load]
  case removeDir =>
    left
    simp [handle]
    split_ifs <;> rfl
  all_goals first | exact .inl rfl | cases hb

end Disk

/-! ## The calls of a request -/

namespace Request

open Sections

def first : Request → DiskCall
  | register reg => .register reg
  | authorize direction credential => .authorize direction credential
  | prepare credential => .beginPrepare credential
  | append credential offset total sum _ => .beginAppend credential offset total sum
  | restore credential => .beginRestore credential
  | finalize credential => .beginFinalize credential
  | cleanup credential => .beginCleanup credential
  | cancel _ => .beginCancel

def rest : (t : Request) → t.first.Answer → DiskProg Unit
  | register _, _ => .ret ()
  | authorize _ _, _ => .ret ()
  | prepare _, .ok (r, some ctx) => do
    let result ← perform (.packArchive ctx r.serverID)
    let _ ← perform (.endPrepare r result)
  | prepare _, _ => .ret ()
  | append _ offset total sum body, .ok (r, inode, ctx) => do
    let copied ← copyBody ctx inode body.failure body.pieces offset.toNat ((total - offset).toNat + 1) 0
    let _ ← perform (.endAppend r offset total sum copied.1 copied.2)
  | append _ _ _ _ _, .error _ => .ret ()
  | restore _, .ok (r, some ctx) => do
    let unpacked ← perform (.unpackIncoming ctx)
    let failure ← match unpacked with
      | .error e => pure (some e)
      | .ok _ => activateWithRollback r.serverID
    let _ ← perform (.endRestore r failure)
  | restore _, _ => .ret ()
  | finalize _, .ok _ => do
    perform (.remove .previous)
    perform (.remove .staging)
    perform (.remove .incoming)
  | finalize _, .error _ => .ret ()
  | cleanup _, .ok serverID => perform (.removeServer serverID)
  | cleanup _, .error _ => .ret ()
  | cancel order, _ => do
    if ← perform .statPrevious then
      let destination ← perform (.serverOf .destinationUpload)
      let serverID ← match destination with
        | some id => pure (some id)
        | none => perform (.serverOf .sourceControl)
      if let some id := serverID then
        perform (.removeServer id)
        let _ ← perform (.renamePrevious id)
    removeAll order

def held : (t : Request) → t.first.Answer → Option TransferRecord
  | prepare _, .ok (r, some _) => some r
  | append _ _ _ _ _, .ok (r, _, _) => some r
  | restore _, .ok (r, some _) => some r
  | _, _ => none

theorem program_eq (t : Request) : t.program = .call t.first t.rest := by
  cases t with
  | register | authorize | cancel => rfl
  | prepare =>
    refine congrArg (Prog.call _) (funext fun a => ?_)
    rcases a with e | ⟨r, _ | ctx⟩ <;> rfl
  | append credential offset total sum body =>
    refine congrArg (Prog.call _) (funext fun a => ?_)
    rcases a with e | ⟨r, inode, ctx⟩
    · rfl
    · exact Prog.bind_assoc (copyBody ctx inode body.failure body.pieces offset.toNat ((total - offset).toNat + 1) 0)
        (fun copied => perform (.endAppend r offset total sum copied.1 copied.2)) (fun _ => .ret ())
  | restore =>
    refine congrArg (Prog.call _) (funext fun a => ?_)
    rcases a with e | ⟨r, _ | ctx⟩
    · rfl
    · rfl
    · refine congrArg (Prog.call _) (funext (forall_result fun _ => ?_))
      exact Prog.bind_assoc (activateWithRollback r.serverID) (fun failure => perform (.endRestore r failure))
        (fun _ => .ret ())
  | finalize | cleanup =>
    refine congrArg (Prog.call _) (funext fun a => ?_)
    cases a <;> rfl

section
variable {P : DiskCall → Prop}

theorem all_copyBody (halive : P (.alive ctx)) (hwrite : ∀ pos b, P (.writeAt inode pos b))
    (failure : Option Err) (pieces : List Bytes) (pos limit written : Nat) :
    All P (copyBody ctx inode failure pieces pos limit written) := by
  induction pieces generalizing pos limit written with
  | nil =>
    unfold copyBody
    split_ifs
    · trivial
    · exact ⟨halive, fun _ => trivial⟩
  | cons piece pieces ih =>
    unfold copyBody
    split_ifs
    · trivial
    · refine ⟨halive, fun alive => ?_⟩
      cases alive with
      | false => trivial
      | true => exact ⟨hwrite _ _, fun _ => ih _ _ _⟩

theorem all_removeAll (hremove : ∀ e, P (.remove e)) (hdir : P .removeDir) (order : List Entry) :
    All P (removeAll order) := by
  induction order with
  | nil => exact ⟨hdir, fun _ => trivial⟩
  | cons e es ih => exact ⟨hremove e, fun _ => ih⟩

theorem all_activateWithRollback (hremove : P (.remove .previous)) (hstat : P (.statServer serverID))
    (haside : P (.renameAside serverID)) (hstaging : P (.renameStaging serverID))
    (hprevious : P (.renamePrevious serverID)) : All P (activateWithRollback serverID) := by
  refine ⟨hremove, fun _ => ⟨hstat, fun had => ?_⟩⟩
  cases had with
  | false =>
    refine ⟨hstaging, fun renamed => ?_⟩
    cases renamed <;> trivial
  | true =>
    refine All.ok ⟨haside, fun _ => trivial⟩ fun _ => ?_
    refine ⟨hstaging, forall_result (fun _ => ?_) fun _ => ⟨hprevious, fun _ => trivial⟩⟩
    trivial

theorem all_restore (hplain : ∀ c, c.begins = false → c.stale = none → P c) (hend : ∀ failure, P (.endRestore r failure)) :
    All P ((restore credential).rest (.ok (r, some ctx))) := by
  refine ⟨hplain _ rfl rfl, forall_result (fun _ => ?_) fun _ => ⟨hend _, fun _ => trivial⟩⟩
  have hactivate : All P (activateWithRollback r.serverID) :=
    all_activateWithRollback (hplain _ rfl rfl) (hplain _ rfl rfl) (hplain _ rfl rfl) (hplain _ rfl rfl)
      (hplain _ rfl rfl)
  show All P (activateWithRollback r.serverID >>= fun failure => perform (.endRestore r failure) >>= fun _ => .ret ())
  exact hactivate.bind fun failure => ⟨hend failure, fun _ => trivial⟩

theorem all_rest (t : Request) (a : t.first.Answer)
    (h : ∀ c, c.begins = false → (∀ r, c.stale = some r → t.held a = some r) → P c) : All P (t.rest a) := by
  have hplain : ∀ c, c.begins = false → c.stale = none → P c :=
    fun c hb hs => h c hb fun r hr => by simp [hs] at hr
  cases t with
  | register | authorize => trivial
  | prepare =>
    rcases a with e | ⟨r, _ | ctx⟩
    · trivial
    · trivial
    · exact ⟨hplain _ rfl rfl, fun result => ⟨h _ rfl fun r' hr => hr, fun _ => trivial⟩⟩
  | append =>
    rcases a with e | ⟨r, inode, ctx⟩
    · trivial
    · refine All.bind (all_copyBody (hplain _ rfl rfl) (fun _ _ => hplain _ rfl rfl) _ _ _ _ _) fun copied => ?_
      exact ⟨h _ rfl fun r' hr => hr, fun _ => trivial⟩
  | restore =>
    rcases a with e | ⟨r, _ | ctx⟩
    · trivial
    · trivial
    · exact all_restore hplain fun failure => h _ rfl fun r' hr => hr
  | finalize =>
    cases a with
    | error => trivial
    | ok =>
      exact ⟨hplain _ rfl rfl, fun _ => ⟨hplain _ rfl rfl, fun _ => ⟨hplain _ rfl rfl, fun _ => trivial⟩⟩⟩
  | cleanup =>
    cases a with
    | error => trivial
    | ok => exact ⟨hplain _ rfl rfl, fun _ => trivial⟩
  | cancel order =>
    have hall : All P (removeAll order) := all_removeAll (fun _ => hplain _ rfl rfl) (hplain _ rfl rfl) order
    have hback : ∀ id, All P (perform (.removeServer id) >>= fun _ => perform (.renamePrevious id) >>= fun _ =>
        removeAll order) := fun id => ⟨hplain _ rfl rfl, fun _ => ⟨hplain _ rfl rfl, fun _ => hall⟩⟩
    refine ⟨hplain _ rfl rfl, fun there => ?_⟩
    cases there with
    | false => exact hall
    | true =>
      refine ⟨hplain _ rfl rfl, fun destination => ?_⟩
      cases destination with
      | some id => exact hback id
      | none =>
        refine ⟨hplain _ rfl rfl, fun source => ?_⟩
        cases source with
        | some id => exact hback id
        | none => exact hall

theorem all_rest_plain (t : Request) (a : t.first.Answer) (hheld : t.held a = none)
    (h : ∀ c, c.begins = false → c.stale = none → P c) : All P (t.rest a) := by
  refine t.all_rest a fun c hb hs => h c hb ?_
  cases hc : c.stale with
  | none => rfl
  | some r => simpa [hheld] using hs r hc

@[simp] theorem first_begins (t : Request) : t.first.begins = true := by cases t <;> rfl

end

end Request

theorem transfers_answer {o : Outcome} {r : c.Answer}
    (h : (transfers H K).answer w c o = some (r, w')) : r = (w.handle H K c).1 ∧ w' = (w.handle H K c).2 := by
  have h := System.answer_delivered h nofun
  exact Prod.mk.inj h

theorem program_call {t : Request} {k : c.Answer → Sections.DiskProg Unit} (h : Prog.call c k = t.program) :
    c = t.first ∧ HEq k t.rest := Prog.call.inj (h.trans t.program_eq)

end ForgePlane
