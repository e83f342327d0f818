import ForgePlane.Verified

/-!
# Uploads one after the other

Each call takes up the file where the record says it ends. An upload that sends more
than it declared is cut one byte past the end, and that byte stays in the file.
-/

namespace ForgePlane

open Sections Disk List

structure Upload where
  now : Nat
  credential : String
  offset : Int
  total : Int
  sum : String
  body : Body

namespace Upload

open List

variable (u : Upload)

def remaining : Nat := (u.total - u.offset).toNat

def bytes : Bytes := u.body.pieces.flatten

def taken : Bytes := u.bytes.take (u.remaining + 1)

def copyErr : Option Err := if u.remaining < u.bytes.length then none else u.body.failure

end Upload

namespace Disk

open List

def at_ (d : Disk) (now : Nat) : Disk := { d with now := now }

def upload (H : Sha256) (K : Codec) (d : Disk) (u : Upload) : Disk :=
  ((appendDestination u.credential u.offset u.total u.sum u.body).exec (Disk.handle H K) (d.at_ u.now)).2

def uploads (H : Sha256) (K : Codec) (d : Disk) (us : List Upload) : Disk := us.foldl (upload H K) d

def incomingLength (d : Disk) : Nat := (d.incomingFile.getD []).length

end Disk

variable {H : Sha256} {K : Codec} {d : Disk}

theorem setFile_file (d : Disk) (inode : Nat) (b : Bytes) : (d.setFile inode b).file inode = b := by
  simp [setFile]

theorem setFile_setFile (d : Disk) (inode : Nat) (a b : Bytes) :
    (d.setFile inode a).setFile inode b = d.setFile inode b := by
  simp [setFile]
  funext i
  split_ifs <;> rfl

theorem setFile_same (d : Disk) (inode : Nat) : d.setFile inode (d.file inode) = d := by
  simp [setFile]
  congr
  funext i
  split_ifs with h
  · rw [h]
  · rfl

theorem writeAt_end (d : Disk) (inode : Nat) (b : Bytes) :
    d.writeAt inode (d.file inode).length b = d.setFile inode (d.file inode ++ b) := by
  have hdrop : (d.file inode).drop ((d.file inode).length + b.length) = [] := drop_eq_nil_of_le (by omega)
  simp [writeAt, hdrop]

variable {ctx now sent : Nat} {r r' : TransferRecord}

section
variable {inode pos limit written : Nat} {failure : Option Err} {pieces : List Bytes}

theorem copyBody_full : copyBody ctx inode failure pieces pos 0 written = .ret (written, none) := by
  cases pieces <;> rfl

theorem exec_copyBody_nil (hlive : d.live ctx = true) (hlimit : limit ≠ 0) :
    (copyBody ctx inode failure [] pos limit written).exec (handle H K) d = ((written, failure), d) := by
  simp [copyBody, hlimit, perform, handle, hlive]

theorem exec_copyBody_cons (hlive : d.live ctx = true) (hlimit : limit ≠ 0) (piece : Bytes) :
    (copyBody ctx inode failure (piece :: pieces) pos limit written).exec (handle H K) d =
      (copyBody ctx inode failure pieces (pos + (piece.take limit).length) (limit - (piece.take limit).length)
        (written + (piece.take limit).length)).exec (handle H K) (d.writeAt inode pos (piece.take limit)) := by
  simp [copyBody, if_neg hlimit]
  simp [perform, handle, hlive]

end

theorem exec_copyBody (inode : Nat) (failure : Option Err) (pieces : List Bytes) :
    ∀ {d : Disk} (limit written : Nat), d.live ctx = true →
    (copyBody ctx inode failure pieces (d.file inode).length limit written).exec (handle H K) d =
      ((written + (pieces.flatten.take limit).length, if limit ≤ pieces.flatten.length then none else failure),
        d.setFile inode (d.file inode ++ pieces.flatten.take limit)) := by
  induction pieces with
  | nil =>
    intro d limit written hlive
    by_cases hlimit : limit = 0
    · subst hlimit
      simp [copyBody_full, setFile_same]
    · rw [exec_copyBody_nil hlive hlimit]
      simp [hlimit, setFile_same]
  | cons piece pieces ih =>
    intro d limit written hlive
    by_cases hlimit : limit = 0
    · subst hlimit
      simp [copyBody_full, setFile_same]
    · rw [exec_copyBody_cons hlive hlimit, writeAt_end]
      have hrest := ih (d := d.setFile inode (d.file inode ++ piece.take limit)) (limit - (piece.take limit).length)
        (written + (piece.take limit).length) hlive
      rw [setFile_file, setFile_setFile, length_append] at hrest
      rw [hrest]
      have htake : piece.take limit ++ pieces.flatten.take (limit - (piece.take limit).length) =
          (piece ++ pieces.flatten).take limit := by
        rw [take_append, length_take]
        congr 2
        omega
      have hlen := congrArg List.length htake
      simp at hlen
      simp only [flatten_cons, ← htake, append_assoc, length_append, length_take]
      have hcond : limit - min limit piece.length ≤ pieces.flatten.length ↔
          limit ≤ piece.length + pieces.flatten.length := by omega
      simp only [hcond, Nat.add_assoc]

section
variable {u : Upload}

theorem upload_refused (h : ∀ r, (d.at_ u.now).Opens H .destinationUpload u.credential r →
    ¬ Disk.Admits r u.offset u.total u.sum) : d.upload H K u = d.at_ u.now := by
  obtain ⟨e, he⟩ := beginAppend_refused h
  simp [upload, appendDestination, perform, handle, he]

def Disk.opened (d : Disk) (r : TransferRecord) (u : Upload) : Nat × Disk :=
  ((d.at_ u.now).save (Disk.uploading r u.total u.sum)).openIncoming

theorem opened_file (d : Disk) (r : TransferRecord) (u : Upload) :
    (d.opened r u).2.file (d.opened r u).1 = d.incomingFile.getD [] := by
  unfold opened
  rw [openIncoming_file, incomingFile_save]
  rfl

variable (ho : (d.at_ u.now).Opens H .destinationUpload u.credential r)
include ho

variable (ha : Disk.Admits r u.offset u.total u.sum)
include ha

variable (hlen : d.incomingLength = r.offset)
include hlen

theorem beginAppend_opened : (d.at_ u.now).beginAppend H u.credential u.offset u.total u.sum =
      (.ok (uploading r u.total u.sum, (d.opened r u).1, (d.opened r u).2.openContext.1),
        (d.opened r u).2.openContext.2) := by
  rw [beginAppend_admitted ho ha]
  refine if_neg (not_not_intro ?_)
  rw [ha.next, ← hlen]
  exact congrArg (fun b => (List.length b : Int)) (opened_file d r u)

theorem upload_eq : d.upload H K u =
      (((d.opened r u).2.openContext.2.setFile (d.opened r u).1 (d.incomingFile.getD [] ++ u.taken)).endAppend K
        (uploading r u.total u.sum) u.offset u.total u.sum u.taken.length u.copyErr).2 := by
  have hlive : (d.opened r u).2.openContext.2.live (d.opened r u).2.openContext.1 = true := by
    simp [openContext, live]
  have hfile : (d.opened r u).2.openContext.2.file (d.opened r u).1 = d.incomingFile.getD [] := opened_file d r u
  have hpos : u.offset.toNat = ((d.opened r u).2.openContext.2.file (d.opened r u).1).length := by
    rw [hfile, ha.next]
    exact hlen.symm
  have hcopy := exec_copyBody (H := H) (K := K) (d.opened r u).1 u.body.failure u.body.pieces (u.remaining + 1) 0 hlive
  have hrun : d.upload H K u = ((copyBody (d.opened r u).2.openContext.1 (d.opened r u).1 u.body.failure u.body.pieces
      u.offset.toNat (u.remaining + 1) 0 >>= fun copied => perform (.endAppend (uploading r u.total u.sum) u.offset
      u.total u.sum copied.1 copied.2)).exec (handle H K) (d.opened r u).2.openContext.2).2 := by
    unfold upload appendDestination perform
    rw [Prog.call_bind, Prog.exec_call]
    simp [handle, beginAppend_opened ho ha hlen]
    rfl
  rw [hrun, Prog.exec_bind, hpos, hcopy, hfile]
  have herr : (if u.remaining + 1 ≤ u.body.pieces.flatten.length then none else u.body.failure) = u.copyErr := rfl
  rw [herr, Nat.zero_add]
  rfl

theorem upload_admitted : (d.upload H K u).incomingFile = some (d.incomingFile.getD [] ++ u.taken) ∧
    (d.upload H K u).destination = some { uploading r u.total u.sum with
      offset := r.offset + u.taken.length
      phase := if u.copyErr.isSome || u.remaining < u.taken.length || u.taken.length < u.remaining then .uploading
        else if equalFold (K.checksum (d.incomingFile.getD [] ++ u.taken)) u.sum then .verified else .failed } := by
  have hoffset : 0 ≤ u.offset := ha.next ▸ Int.natCast_nonneg _
  rw [upload_eq ho ha hlen, endAppend_disk hoffset]
  have hfile : ((d.opened r u).2.openContext.2.setFile (d.opened r u).1 (d.incomingFile.getD [] ++ u.taken)).incomingFile =
      some (d.incomingFile.getD [] ++ u.taken) := by
    have hincoming : (d.opened r u).2.openContext.2.incoming = some (d.opened r u).1 := openIncoming_incoming _
    simp [incomingFile, setFile, hincoming]
  constructor
  · rw [incomingFile_save]
    exact hfile
  · have hwithin := ha.within
    have hnext := ha.next
    have hover : u.total - u.offset < u.taken.length ↔ u.remaining < u.taken.length := by
      unfold Upload.remaining
      omega
    have hshort : u.offset + u.taken.length < u.total ↔ u.taken.length < u.remaining := by
      unfold Upload.remaining
      omega
    have hnat : (u.offset + u.taken.length).toNat = r.offset + u.taken.length := by omega
    simp [save, uploading, ho.direction, endPhase, hfile, hover, hshort, hnat]

end

/-! ## Resuming -/

structure FreshDestination (d : Disk) : Prop where
  record : ∃ r, d.destination = some r ∧ r.direction = .destinationUpload ∧ r.metadata = ⟨.authorized, 0, 0, ""⟩
  incoming : d.incoming = none

/-- The stored offset is where the file ends and within the declared size, and a client that takes
up there what was declared is let in. -/
def WedgeFree (H : Sha256) (d : Disk) : Prop :=
  ∃ r, d.destination = some r ∧ r.offset = d.incomingLength ∧ r.offset ≤ r.archiveSize ∧
    ∀ (now : Nat) (credential sum : String) (total : Int), (d.at_ now).Opens H .destinationUpload credential r →
      0 < total → total ≤ Engine.maxSize → r.archiveSize = 0 ∨ r.archiveSize = total →
      r.checksum = "" ∨ equalFold r.checksum sum = true →
      ∃ a, ((d.at_ now).beginAppend H credential r.offset total sum).1 = .ok a

def Overruns (H : Sha256) (d : Disk) (u : Upload) : Prop :=
  ∃ r, (d.at_ u.now).Opens H .destinationUpload u.credential r ∧ Disk.Admits r u.offset u.total u.sum ∧
    u.remaining < u.bytes.length

structure Resumable (d : Disk) (r : TransferRecord) : Prop where
  record : d.destination = some r
  offset : r.offset = d.incomingLength
  within : r.offset ≤ r.archiveSize
  unsettled : r.phase ≠ .restored ∧ r.phase ≠ .activated

theorem FreshDestination.resumable (h : FreshDestination d) : ∃ r, Resumable d r := by
  obtain ⟨r, hr, -, hmeta⟩ := h.record
  injection hmeta with hphase hsize hoff hsum
  refine ⟨r, hr, ?_, by omega, by simp [hphase]⟩
  simp [hoff, incomingLength, incomingFile, h.incoming]

section
variable {u : Upload}

theorem Resumable.wedgeFree (h : Resumable d r) : WedgeFree H d := by
  refine ⟨r, h.record, h.offset, h.within, fun now credential sum total ho hpos hmax hsize hsum => ?_⟩
  have hwithin := h.within
  have ha : Disk.Admits r r.offset total sum :=
    ⟨h.unsettled, ⟨hpos, hmax⟩, rfl, by omega, hsize, hsum⟩
  have hbegin := beginAppend_opened (u := ⟨now, credential, r.offset, total, sum, ⟨[], none⟩⟩) ho ha h.offset.symm
  exact ⟨_, congrArg Prod.fst hbegin⟩

theorem Resumable.opens (h : Resumable d r) {credential : String}
    (ho : (d.at_ now).Opens H .destinationUpload credential r') : r' = r :=
  Option.some.inj (ho.load.symm.trans h.record)

theorem Resumable.upload (h : Resumable d r) (hover : ¬ Overruns H d u) : ∃ r', Resumable (d.upload H K u) r' := by
  by_cases hadmit : ∃ r, (d.at_ u.now).Opens H .destinationUpload u.credential r ∧ Disk.Admits r u.offset u.total u.sum
  · obtain ⟨r', ho, ha⟩ := hadmit
    obtain rfl := h.opens ho
    obtain ⟨hfile, hrec⟩ := upload_admitted (K := K) ho ha h.offset.symm
    have hbody : u.bytes.length ≤ u.remaining := by
      by_contra hlong
      exact hover ⟨r', ho, ha, by omega⟩
    have htaken : u.taken.length ≤ u.remaining := by
      unfold Upload.taken
      rw [length_take]
      omega
    refine ⟨_, hrec, ?_, ?_, ?_⟩
    · simp [incomingLength, hfile]
      rw [h.offset]
      rfl
    · have hnext := ha.next
      have hwithin := ha.within
      unfold Upload.remaining at htaken
      simp [uploading]
      omega
    · dsimp only
      split_ifs <;> exact ⟨TransferPhase.noConfusion, TransferPhase.noConfusion⟩
  · rw [upload_refused fun r ho ha => hadmit ⟨r, ho, ha⟩]
    exact ⟨r, h.record, h.offset, h.within, h.unsettled⟩

theorem Overruns.wedges (hover : Overruns H d u) (h : WedgeFree H d) : ¬ WedgeFree H (d.upload H K u) := by
  obtain ⟨r', ho, ha, hlong⟩ := hover
  obtain ⟨r, hr, hoffset, -⟩ := h
  obtain rfl : r' = r := Option.some.inj (ho.load.symm.trans hr)
  obtain ⟨-, hrec⟩ := upload_admitted (K := K) ho ha hoffset.symm
  rintro ⟨r'', hr'', -, hwithin, -⟩
  cases hrec.symm.trans hr''
  have htaken : u.taken.length = u.remaining + 1 := by
    unfold Upload.taken
    rw [length_take]
    omega
  have hnext := ha.next
  have hle := ha.within
  simp [uploading, htaken, Upload.remaining] at hwithin
  omega

end

/-- From a fresh destination every call leaves the transfer resumable exactly if no call that is
let in sends more than it declared. -/
theorem uploads_wedge_free_iff (h : FreshDestination d) (us : List Upload) :
    (∀ before, before <+: us → WedgeFree H (d.uploads H K before)) ↔
      ∀ before u, before ++ [u] <+: us → ¬ Overruns H (d.uploads H K before) u := by
  have hsnoc : ∀ before u, d.uploads H K (before ++ [u]) = (d.uploads H K before).upload H K u := by
    intro before u
    simp [Disk.uploads]
  constructor
  · intro hfree before u hprefix hover
    have hbefore := hfree before ((prefix_append before [u]).trans hprefix)
    refine hover.wedges (K := K) hbefore ?_
    rw [← hsnoc]
    exact hfree _ hprefix
  · intro hover before hprefix
    suffices hres : ∃ r, Resumable (d.uploads H K before) r by
      obtain ⟨r, hr⟩ := hres
      exact hr.wedgeFree
    -- over the calls made so far, from the last
    induction before using List.reverseRecOn with
    | nil => exact h.resumable
    | append_singleton before u ih =>
      obtain ⟨r, hr⟩ := ih ((prefix_append before [u]).trans hprefix)
      rw [hsnoc]
      exact hr.upload (hover before u hprefix)

theorem destinedFor_fresh (original : Option Tree) : FreshDestination (destinedFor original).world :=
  ⟨⟨_, rfl, rfl, rfl⟩, rfl⟩

def twoByteUpload (pieces : List Bytes) (failure : Option Err) : Upload :=
  ⟨0, "secret", 0, 2, firstByteCodec.checksum [1], ⟨pieces, failure⟩⟩

theorem uploads_wedge_free_iff_cut : FreshDestination (destinedFor none).world ∧
    WedgeFree lengthSha
      ((destinedFor none).world.uploads lengthSha firstByteCodec [twoByteUpload [[1]] (some "unexpected EOF")]) := by
  refine ⟨destinedFor_fresh none, ?_⟩
  refine (uploads_wedge_free_iff (destinedFor_fresh none) _).mpr (fun before u hprefix hover => ?_) _ (prefix_refl _)
  obtain ⟨r, -, -, hlong⟩ := hover
  have hu : u ∈ [twoByteUpload [[1]] (some "unexpected EOF")] := hprefix.subset (by simp)
  rw [mem_singleton.mp hu] at hlong
  exact absurd hlong (by decide)

theorem overlong_upload_wedges : FreshDestination (destinedFor none).world ∧
    ¬ WedgeFree lengthSha ((destinedFor none).world.uploads lengthSha firstByteCodec [twoByteUpload [[1, 2, 3]] none]) := by
  refine ⟨destinedFor_fresh none, ?_⟩
  have h : ((destinedFor none).world.uploads lengthSha firstByteCodec [twoByteUpload [[1, 2, 3]] none]).destination.map
      (fun r => (r.offset, r.archiveSize)) = some (3, 2) := by
    decide +kernel
  rintro ⟨r, hr, -, hwithin, -⟩
  rw [hr] at h
  obtain ⟨hoffset, hsize⟩ := Prod.mk.inj (Option.some.inj h)
  omega

/-! ## A payload in any number of calls -/

def delivers (H : Sha256) (payload : Bytes) (sum : String) (d : Disk) (u : Upload) : Bool :=
  match (d.at_ u.now).authorize H .destinationUpload u.credential with
  | .error _ => false
  | .ok r => u.offset = r.offset && u.total = payload.length && u.sum = sum && u.bytes.isPrefixOf (payload.drop r.offset)

variable {payload : Bytes} {sum : String} {u : Upload}

theorem delivers_opens (h : delivers H payload sum d u = true) :
    ∃ r, (d.at_ u.now).Opens H .destinationUpload u.credential r ∧ u.offset = r.offset ∧ u.total = payload.length ∧
      u.sum = sum ∧ u.bytes <+: payload.drop r.offset := by
  unfold delivers at h
  split at h
  · cases h
  · rename_i r hr
    simp at h
    obtain ⟨⟨⟨hnext, htotal⟩, hsum⟩, hpart⟩ := h
    exact ⟨r, authorize_ok.mp hr, hnext, htotal, hsum, hpart⟩

def deliveredPhase (K : Codec) (payload : Bytes) (sum : String) (offset : Nat) (failure : Option Err) : TransferPhase :=
  if failure.isSome || offset < payload.length then .uploading
  else if equalFold (K.checksum payload) sum then .verified else .failed

structure Delivered (payload : Bytes) (sum : String) (sent : Nat) (d : Disk) (r : TransferRecord) : Prop where
  record : d.destination = some r
  offset : r.offset = sent
  within : sent ≤ payload.length
  file : d.incomingFile.getD [] = payload.take sent
  unsettled : r.phase ≠ .restored ∧ r.phase ≠ .activated
  declared : r.archiveSize = 0 ∨ r.archiveSize = payload.length
  agrees : r.checksum = "" ∨ equalFold r.checksum sum = true

theorem FreshDestination.delivered (h : FreshDestination d) (payload : Bytes) (sum : String) :
    ∃ r, Delivered payload sum 0 d r := by
  obtain ⟨r, hr, -, hmeta⟩ := h.record
  injection hmeta with hphase hsize hoff hsum
  exact ⟨r, hr, hoff, Nat.zero_le _, by simp [incomingFile, h.incoming], by simp [hphase], .inl hsize, .inl hsum⟩

theorem Delivered.upload
    (hne : payload ≠ []) (hmax : payload.length ≤ Engine.maxSize) (h : Delivered payload sum sent d r)
    (hu : delivers H payload sum d u = true) :
    ∃ r', Delivered payload sum (sent + u.bytes.length) (d.upload H K u) r' ∧
      (d.upload H K u).incomingFile = some (payload.take (sent + u.bytes.length)) ∧
      r'.phase = deliveredPhase K payload sum (sent + u.bytes.length) u.body.failure := by
  obtain ⟨r₀, ho, hnext, htotal, hsum, hpart⟩ := delivers_opens hu
  obtain rfl : r₀ = r := Option.some.inj (ho.load.symm.trans h.record)
  have hpos : 0 < payload.length := length_pos_iff.mpr hne
  have hoff := h.offset
  have hwithin := h.within
  have ha : Disk.Admits r₀ u.offset u.total u.sum := by
    refine ⟨h.unsettled, ⟨by omega, by omega⟩, hnext, by omega, ?_, hsum ▸ h.agrees⟩
    obtain hd | hd := h.declared
    · exact .inl hd
    · exact .inr (by omega)
  have hlen : d.incomingLength = r₀.offset := by
    simp [incomingLength, h.file]
    omega
  obtain ⟨hfile, hrec⟩ := upload_admitted (K := K) ho ha hlen
  have hremaining : u.remaining = payload.length - sent := by
    unfold Upload.remaining
    omega
  have hbytes : u.bytes.length ≤ u.remaining := by
    have hle := hpart.length_le
    rw [length_drop] at hle
    omega
  have htaken : u.taken = u.bytes := take_of_length_le (by omega)
  have herr : u.copyErr = u.body.failure := if_neg (by omega)
  have hcontent : d.incomingFile.getD [] ++ u.taken = payload.take (sent + u.bytes.length) := by
    rw [h.file, htaken, take_add, ← hoff]
    exact congrArg _ (prefix_iff_eq_take.mp hpart)
  rw [hcontent] at hfile hrec
  rw [htaken, herr] at hrec
  refine ⟨_, ⟨hrec, by rw [← hoff], by omega, by rw [hfile]; rfl, ?_, .inr ?_, .inr ?_⟩, hfile, ?_⟩
  · dsimp only
    split_ifs <;> exact ⟨TransferPhase.noConfusion, TransferPhase.noConfusion⟩
  · simp [uploading, htotal]
  · simp [uploading, hsum]
    exact equalFold_lower sum
  · have hover : ¬ u.remaining < u.bytes.length := by omega
    have hshort : u.bytes.length < u.remaining ↔ sent + u.bytes.length < payload.length := by omega
    simp [deliveredPhase, hover, hshort, hsum]
    by_cases hless : sent + u.bytes.length < payload.length
    · simp [hless]
    · rw [take_of_length_le (by omega)]

theorem delivered_run (hne : payload ≠ []) (hmax : payload.length ≤ Engine.maxSize) :
    ∀ {us : List Upload} {d d' : Disk} {sent : Nat} {r : TransferRecord}, Delivered payload sum sent d r →
      Run (fun d u => some (d.upload H K u)) (fun d u => delivers H payload sum d u = true) d us d' →
      ∃ r', Delivered payload sum (sent + (us.flatMap (·.bytes)).length) d' r'
  | [], d, d', sent, r, h, hr => by
    obtain rfl : d = d' := hr
    exact ⟨r, h⟩
  | u :: us, d, d', sent, r, h, ⟨hu, m, hm, hr⟩ => by
    cases hm
    obtain ⟨r', h', -, -⟩ := h.upload (K := K) hne hmax hu
    obtain ⟨r'', h''⟩ := delivered_run hne hmax h' hr
    rw [Nat.add_assoc, ← length_append, ← flatMap_cons] at h''
    exact ⟨r'', h''⟩

/-- However the payload is cut into calls, once all of it was sent the file is the payload, and the
last call has settled the phase unless its body ended with an error. -/
theorem delivered_payload_stored {payload : Bytes} {sum : String} {d d' : Disk} (us : List Upload) (u : Upload)
    (hfresh : FreshDestination d) (hne : payload ≠ []) (hmax : payload.length ≤ Engine.maxSize)
    (hr : Run (fun d u => some (d.upload H K u)) (fun d u => delivers H payload sum d u = true) d (us ++ [u]) d')
    (hall : ((us ++ [u]).flatMap (·.bytes)).length = payload.length) :
    d'.incomingFile = some payload ∧ ∃ r, d'.destination = some r ∧ r.offset = payload.length ∧
      r.phase = if u.body.failure.isSome then .uploading
        else if equalFold (K.checksum payload) sum then .verified else .failed := by
  obtain ⟨r₀, h₀⟩ := hfresh.delivered payload sum
  obtain ⟨m, hbefore, hu, hm⟩ := hr.snoc
  cases hm
  obtain ⟨r₁, h₁⟩ := delivered_run hne hmax h₀ hbefore
  obtain ⟨r, h, hfile, hphase⟩ := h₁.upload (K := K) hne hmax hu
  have hsent : 0 + (us.flatMap (·.bytes)).length + u.bytes.length = payload.length := by
    simpa [flatMap_append] using hall
  rw [hsent] at h hfile hphase
  refine ⟨by simpa using hfile, r, h.record, h.offset, ?_⟩
  simpa [deliveredPhase] using hphase

def secondByteUpload : Upload := ⟨0, "secret", 1, 2, firstByteCodec.checksum [1], ⟨[[2]], none⟩⟩

theorem delivered_payload_stored_resumed : ∃ d' : Disk,
    Run (fun d u => some (d.upload lengthSha firstByteCodec u))
      (fun d u => delivers lengthSha [1, 2] (firstByteCodec.checksum [1]) d u = true) (destinedFor none).world
      [twoByteUpload [[1]] (some "unexpected EOF"), secondByteUpload] d' ∧
    d'.incomingFile = some [1, 2] ∧ ∃ r, d'.destination = some r ∧ r.offset = 2 ∧ r.phase = .verified := by
  obtain ⟨d', hd', -⟩ : ∃ d', Run (fun d u => some (d.upload lengthSha firstByteCodec u))
      (fun d u => delivers lengthSha [1, 2] (firstByteCodec.checksum [1]) d u = true) (destinedFor none).world
      [twoByteUpload [[1]] (some "unexpected EOF"), secondByteUpload] d' ∧ True := by decide +kernel
  have hsum : equalFold (firstByteCodec.checksum [1, 2]) (firstByteCodec.checksum [1]) = true := by decide +kernel
  obtain ⟨hfile, r, hr, hoffset, hphase⟩ := delivered_payload_stored [twoByteUpload [[1]] (some "unexpected EOF")]
    secondByteUpload (destinedFor_fresh none) (cons_ne_nil _ _) (by decide) hd' rfl
  refine ⟨d', hd', hfile, r, hr, hoffset, ?_⟩
  simpa [secondByteUpload, hsum] using hphase

theorem delivered_payload_unsettled : ∃ d' : Disk,
    Run (fun d u => some (d.upload lengthSha firstByteCodec u))
      (fun d u => delivers lengthSha [1, 2] (firstByteCodec.checksum [1, 2]) d u = true) (destinedFor none).world
      [twoByteUpload [[1, 2]] (some "unexpected EOF")] d' ∧
    d'.incomingFile = some [1, 2] ∧ d'.destination.map (·.phase) = some .uploading := by decide +kernel

end ForgePlane
