import ForgePlane.Locked

/-!
# A verified archive is the declared one

An upload is checked when it has copied the rest of the archive, but the lock is
free while it copies. Uploads that take turns leave behind what they checked; two
that were admitted at the same offset do not.
-/

namespace ForgePlane

open Sections Disk

/-- The archive of a record in phase `verified` is there, has the declared size and checksum. -/
def Declared (K : Codec) (d : Disk) : Prop :=
  ∀ r, d.destination = some r → r.phase = .verified →
    ∃ b, d.incomingFile = some b ∧ b.length = r.archiveSize ∧ K.checksum b = r.checksum

instance (K : Codec) (d : Disk) : Decidable (Declared K d) :=
  inferInstanceAs (Decidable (∀ r, d.destination = some r → r.phase = .verified → ∃ b, d.incomingFile = some b ∧ _))

def Unverified (d : Disk) : Prop := ∀ r, d.destination = some r → r.phase ≠ .verified

theorem Unverified.declared {K : Codec} {d : Disk} (h : Unverified d) : Declared K d :=
  fun r hr hphase => absurd hphase (h r hr)

/-! ## What a registration and the clock do to an upload -/

structure Rotated (d d' : Disk) : Prop where
  incoming : d'.incoming = d.incoming
  file : d'.file = d.file
  progress : ∀ r', d'.destination = some r' →
    (∃ r, d.destination = some r ∧ r.metadata = r'.metadata) ∨ r'.phase = .authorized

variable {r : TransferRecord} {inode length ctx written i : Nat} {sum : String}

namespace Rotated

variable {a b c d : Disk} {K : Codec}

theorem refl (d : Disk) : Rotated d d := ⟨rfl, rfl, fun r' hr => .inl ⟨r', hr, rfl⟩⟩

variable (h : Rotated a b)
include h

theorem trans (h' : Rotated b c) : Rotated a c := by
  refine ⟨h'.incoming.trans h.incoming, h'.file.trans h.file, fun r'' hr'' => ?_⟩
  obtain ⟨r', hr', hmeta⟩ | hphase := h'.progress r'' hr''
  · have heq : r'.phase = r''.phase := congrArg TransferMetadata.phase hmeta
    obtain ⟨r, hr, hmeta'⟩ | hphase := h.progress r' hr'
    · exact .inl ⟨r, hr, hmeta'.trans hmeta⟩
    · exact .inr (heq ▸ hphase)
  · exact .inr hphase

theorem incomingFile : b.incomingFile = a.incomingFile := by
  simp [Disk.incomingFile, h.incoming, h.file]

theorem declared (ha : Declared K a) : Declared K b := by
  intro r' hr' hphase
  obtain ⟨r, hr, hmeta⟩ | hfresh := h.progress r' hr'
  · injection hmeta with hp hsize hoff hsum
    rw [h.incomingFile, ← hsize, ← hsum]
    exact ha r hr (hp.trans hphase)
  · rw [hphase] at hfresh
    cases hfresh

theorem unverified (ha : Unverified a) : Unverified b := by
  intro r' hr' hphase
  obtain ⟨r, hr, hmeta⟩ | hfresh := h.progress r' hr'
  · exact ha r hr ((congrArg TransferMetadata.phase hmeta).trans hphase)
  · rw [hphase] at hfresh
    cases hfresh

omit h

theorem register (d : Disk) (reg : TransferCredentialRegistration) : Rotated d (d.register reg).2 := by
  obtain ⟨e, h⟩ | ⟨r, h, hdir, -, hmeta⟩ := d.register_cases reg
  · rw [h]
    exact refl d
  · rw [h]
    cases hx : r.direction with
    | sourceControl =>
      simp [save, hx]
      exact ⟨rfl, rfl, fun r' hr' => .inl ⟨r', hr', rfl⟩⟩
    | destinationUpload =>
      simp [save, hx]
      refine ⟨rfl, rfl, fun r' hr' => ?_⟩
      cases hr'
      rw [← hdir, hx] at hmeta
      cases hd : d.destination with
      | none =>
        simp [load, hd] at hmeta
        exact .inr (congrArg TransferMetadata.phase hmeta)
      | some r₀ =>
        simp [load, hd] at hmeta
        exact .inl ⟨r₀, rfl, hmeta.symm⟩

theorem save_source (h : r.direction = .sourceControl) : Rotated d (d.save r) := by
  simp [save, h]
  exact ⟨rfl, rfl, fun r' hr' => .inl ⟨r', hr', rfl⟩⟩

end Rotated

/-! ## An upload on its own -/

structure Copying (inode length : Nat) (d : Disk) : Prop where
  incoming : d.incoming = some inode
  length : (d.file inode).length = length
  unverified : Unverified d

variable {H : Sha256} {K : Codec} {d d' : Disk} {failure copyErr : Option Err} {offset total : Int}

theorem Copying.rotated (h : Copying inode length d) (hR : Rotated d d') :
    Copying inode length d' :=
  ⟨hR.incoming.trans h.incoming, by rw [hR.file, h.length], hR.unverified h.unverified⟩

theorem Copying.writeAt (h : Copying inode length d) (b : Bytes) :
    Copying inode (length + b.length) (d.writeAt inode length b) := by
  refine ⟨h.incoming, ?_, h.unverified⟩
  have hlen := h.length
  simp [Disk.writeAt, Disk.setFile]
  omega

theorem relies_copyBody (offset : Nat) (pieces : List Bytes) :
    ∀ {limit written : Nat} {d : Disk}, Copying inode (offset + written) d →
    Relies (handle H K) Rotated (Declared K) (copyBody ctx inode failure pieces (offset + written) limit written)
      (fun copied d => Copying inode (offset + copied.1) d) d := by
  induction pieces with
  | nil =>
    intro limit written d h
    unfold copyBody
    split_ifs
    · intro w hR
      exact ⟨(h.rotated hR).unverified.declared, h.rotated hR⟩
    · intro w hR
      refine ⟨(h.rotated hR).unverified.declared, fun w' hR' => ?_⟩
      have h' := (h.rotated hR).rotated hR'
      exact ⟨h'.unverified.declared, h'⟩
  | cons piece pieces ih =>
    intro limit written d h
    unfold copyBody
    split_ifs
    · intro w hR
      exact ⟨(h.rotated hR).unverified.declared, h.rotated hR⟩
    · intro w hR
      have hw := h.rotated hR
      refine ⟨hw.unverified.declared, ?_⟩
      cases hlive : w.live ctx with
      | false =>
        simp only [handle, hlive]
        intro w' hR'
        exact ⟨(hw.rotated hR').unverified.declared, hw.rotated hR'⟩
      | true =>
        simp only [handle, hlive]
        intro w' hR'
        have hw' := hw.rotated hR'
        refine ⟨hw'.unverified.declared, ?_⟩
        have hnext := hw'.writeAt (piece.take limit)
        rw [Nat.add_assoc] at hnext
        have hrest := @ih (limit - (piece.take limit).length) _ _ hnext
        rw [← Nat.add_assoc] at hrest
        exact hrest

theorem Codec.checksum_of_equalFold {b : Bytes} (h : equalFold (K.checksum b) sum = true) :
    K.checksum b = Engine.lower sum := by
  have hlower : Engine.lower (K.checksum b) = K.checksum b := lower_eq (lowerHex_hexEncode _)
  unfold equalFold at h
  rw [← hlower]
  exact congrArg String.ofList (of_decide_eq_true h)

theorem Copying.endAppend
    (hdir : r.direction = .destinationUpload) (hoffset : 0 ≤ offset) (h : Copying inode (offset.toNat + written) d) :
    Declared K (d.endAppend K (uploading r total sum) offset total sum written copyErr).2 := by
  rw [endAppend_disk hoffset]
  intro r' hr' hphase
  simp [save, uploading, hdir] at hr'
  subst hr'
  have hfile : d.incomingFile = some (d.file inode) := by simp [incomingFile, h.incoming]
  simp [endPhase, hfile] at hphase
  split_ifs at hphase with hpart hsum
  simp at hpart
  refine ⟨d.file inode, ?_, ?_, Codec.checksum_of_equalFold hsum⟩
  · rw [incomingFile_save]
    exact hfile
  · have hlen := h.length
    dsimp only
    omega

section
variable {credential : String} {offset total : Int} {body : Body}
variable {p : DiskProg Unit}

abbrev Leaves (H : Sha256) (K : Codec) (p : DiskProg Unit) (d : Disk) : Prop :=
  Relies (handle H K) Rotated (Declared K) p (fun _ => Declared K) d

theorem relies_ret (h : Declared K d) : Leaves H K (.ret ()) d :=
  fun _ hR => ⟨hR.declared h, hR.declared h⟩

theorem relies_append (h : Declared K d) :
    Leaves H K ((Request.append credential offset total sum body).rest (d.beginAppend H credential offset total sum).1)
      (d.beginAppend H credential offset total sum).2 := by
  by_cases hadmit : ∃ r, d.Opens H .destinationUpload credential r ∧ Disk.Admits r offset total sum
  · obtain ⟨r, ho, ha⟩ := hadmit
    have hoffset : 0 ≤ offset := ha.next ▸ Int.natCast_nonneg _
    have hphase : Unverified (d.save (uploading r total sum)).openIncoming.2 := by
      intro r' hr'
      have hload := openIncoming_load (d.save (uploading r total sum)) .destinationUpload
      have hdir : (uploading r total sum).direction = .destinationUpload := ho.direction
      rw [load_save, if_pos hdir] at hload
      cases hload.symm.trans hr'
      exact TransferPhase.noConfusion
    rw [beginAppend_admitted ho ha]
    dsimp only
    split_ifs with hsize
    · exact relies_ret hphase.declared
    · have hcopy : Copying (d.save (uploading r total sum)).openIncoming.1 (offset.toNat + 0)
          (d.save (uploading r total sum)).openIncoming.2.openContext.2 :=
        ⟨openIncoming_incoming _, by simp [openContext]; omega, hphase⟩
      refine Relies.bind Rotated.refl ((relies_copyBody offset.toNat body.pieces hcopy).mono fun copied w hw => ?_)
      intro w' hR
      have hw' := hw.rotated hR
      exact ⟨hw'.unverified.declared, relies_ret (hw'.endAppend ho.direction hoffset)⟩
  · obtain ⟨e, he⟩ := beginAppend_refused (d := d) fun r ho ha => hadmit ⟨r, ho, ha⟩
    rw [he]
    exact relies_ret h

/-! ## The other operations on their own -/

theorem Unverified.save (h : Unverified d) (hr : r.phase ≠ .verified) : Unverified (d.save r) := by
  intro r' hr'
  have hload := load_save d r .destinationUpload
  rw [show (d.save r).load .destinationUpload = some r' from hr'] at hload
  split_ifs at hload with hdir
  · cases hload
    exact hr
  · exact h r' hload.symm

theorem Unverified.saved (hdir : r.direction = .destinationUpload) (hr : r.phase ≠ .verified) : Unverified (d.save r) := by
  intro r' hr'
  simp [Disk.save, hdir] at hr'
  cases hr'
  exact hr

theorem Unverified.plain (h : Unverified d) {c : DiskCall} (hb : c.begins = false) (hs : c.stale = none) :
    Unverified (d.handle H K c).2 := by
  intro r hr
  obtain heq | heq := d.handle_plain (H := H) (K := K) hb hs .destinationUpload
  · exact h r (heq.symm.trans hr)
  · cases heq.symm.trans hr

theorem relies_unverified (hp : All (fun c => ∀ w, Unverified w → Unverified (handle H K w c).2) p)
    (h : Unverified d) : Leaves H K p d :=
  Relies.invariant (fun _ _ hw hR => hR.unverified hw) (fun _ hw => hw.declared) hp (fun _ _ hw => hw.declared) h

theorem relies_restore (h : Declared K d) :
    Leaves H K ((Request.restore credential).rest (d.beginRestore H credential).1) (d.beginRestore H credential).2 := by
  unfold beginRestore
  split
  · exact relies_ret h
  · rename_i r hr
    have hdir := (authorize_ok.mp hr).direction
    split_ifs
    · exact relies_ret h
    · exact relies_ret h
    · refine relies_unverified (Request.all_restore (fun c hb hs w hw => hw.plain hb hs) fun failure w hw => ?_) ?_
      · cases failure with
        | some | none => exact Unverified.save hw TransferPhase.noConfusion
      · exact .saved hdir TransferPhase.noConfusion

theorem relies_finalize (h : Declared K d) :
    Leaves H K ((Request.finalize credential).rest (d.beginFinalize H credential).1) (d.beginFinalize H credential).2 := by
  unfold beginFinalize
  split
  · exact relies_ret h
  · rename_i r hr
    have hdir := (authorize_ok.mp hr).direction
    split_ifs
    · exact relies_ret h
    · refine relies_unverified (Request.all_rest_plain _ _ rfl fun c hb hs w hw => hw.plain hb hs) ?_
      exact .saved hdir TransferPhase.noConfusion

theorem relies_cancel (order : List Entry) :
    Leaves H K ((Request.cancel order).rest ()) d.beginCancel := by
  refine relies_unverified (Request.all_rest_plain _ _ rfl fun c hb hs w hw => hw.plain hb hs) ?_
  intro r' hr'
  obtain ⟨r, -, rfl⟩ := Option.map_eq_some_iff.mp hr'
  exact TransferPhase.noConfusion

theorem relies_rotated (hp : All (fun c => ∀ w, Rotated w (handle H K w c).2) p)
    (h : Declared K d) : Leaves H K p d :=
  Relies.invariant (fun _ _ hw hR => hR.declared hw) (fun _ hw => hw)
    (hp.mono fun _ hc w hw => (hc w).declared hw) (fun _ _ hw => hw) h

theorem relies_prepare (h : Declared K d) :
    Leaves H K ((Request.prepare credential).rest (d.beginPrepare H credential).1) (d.beginPrepare H credential).2 := by
  unfold beginPrepare
  split
  · exact relies_ret h
  · rename_i r hr
    have hdir := (authorize_ok.mp hr).direction
    split_ifs
    · exact relies_ret h
    · refine relies_rotated ⟨fun w => ?_, fun result => ⟨fun w => ?_, fun _ => trivial⟩⟩ ?_
      · simp [handle, packArchive]
        split_ifs
        · exact .refl w
        · split
          · exact .refl w
          · exact ⟨rfl, rfl, fun r' hr' => .inl ⟨r', hr', rfl⟩⟩
      · have hidle : Rotated w { w with active := none } := ⟨rfl, rfl, fun r' hr' => .inl ⟨r', hr', rfl⟩⟩
        cases result with
        | error | ok => exact hidle.trans (.save_source hdir)
      · have hopen : Rotated d d.openContext.2 := ⟨rfl, rfl, fun r' hr' => .inl ⟨r', hr', rfl⟩⟩
        exact (hopen.trans (Rotated.save_source (r := { r with phase := .archiving }) hdir)).declared h

theorem relies_cleanup (h : Declared K d) :
    Leaves H K ((Request.cleanup credential).rest (d.beginCleanup H credential).1) (d.beginCleanup H credential).2 := by
  unfold beginCleanup
  split
  · exact relies_ret h
  · rename_i r hr
    have hdir := (authorize_ok.mp hr).direction
    refine relies_rotated ⟨fun w => ⟨rfl, rfl, fun r' hr' => .inl ⟨r', hr', rfl⟩⟩, fun _ => trivial⟩ ?_
    exact (Rotated.save_source (r := { r with phase := .cleaned, consumed := true }) hdir).declared h

end

/-! ## Operations that take turns -/

def Request.quick : Request → Bool
  | .register _ | .authorize _ _ => true
  | _ => false

/-- An operation that lets go of the lock begins only while no other is between its first section
and its end; nothing stops in between. -/
def takesTurns (s : Config DiskCall.Answer Request Disk) : Label Request → Bool
  | .call i _ =>
    match s.pending i with
    | some (t, c) => t.quick || !c.begins || !s.busy DiskCall.begins
    | none => true
  | .crash _ => false
  | _ => true

theorem takesTurns_first {s : Config DiskCall.Answer Request Disk} {o : Outcome} {t : Request}
    {k : t.first.Answer → DiskProg Unit} (h : takesTurns s (.call i o) = true) (hi : s.threads[i]? = some (t, .call t.first k)) :
    t.quick = true ∨ s.busy DiskCall.begins = false := by
  simpa [takesTurns, Config.pending_eq hi, t.first_begins] using h

theorem Request.program_shape (H : Sha256) (K : Codec) (t : Request) : ∃ c k, (transfers H K).program t = .call c k ∧
    c.begins = true ∧ ∀ r, All (fun c => c.begins = false) (k r) :=
  ⟨t.first, t.rest, t.program_eq, t.first_begins, fun a => t.all_rest a fun _ hb _ => hb⟩

theorem solo_verified (H : Sha256) (K : Codec) :
    Solo (transfers H K) (fun s l => takesTurns s l = true) DiskCall.begins Rotated (Declared K) (Declared K) where
  refl := .refl
  trans _ _ _ := .trans
  tick w n := ⟨rfl, rfl, fun r' hr' => .inl ⟨r', hr', rfl⟩⟩
  stable _ _ h hR := hR.declared h
  holds _ h := h
  sure _ _ := rfl
  crash s i h := Bool.noConfusion h
  shape := Request.program_shape H K
  enter s i t c k ha hi hp := by
    obtain ⟨rfl, hk⟩ := Prog.call.inj (t.program_eq.symm.trans hp)
    obtain rfl := eq_of_heq hk
    have hfree : t.quick = false → s.busy DiskCall.begins = false :=
      fun hq => (takesTurns_first ha hi).resolve_left (hq ▸ Bool.noConfusion)
    cases t with
    | register reg => exact .inl ⟨fun _ => rfl, .register s.world reg⟩
    | authorize direction credential => exact .inl ⟨fun _ => rfl, .refl s.world⟩
    | prepare credential => exact .inr ⟨hfree rfl, relies_prepare⟩
    | append credential offset total sum body => exact .inr ⟨hfree rfl, relies_append⟩
    | restore credential => exact .inr ⟨hfree rfl, relies_restore⟩
    | finalize credential => exact .inr ⟨hfree rfl, relies_finalize⟩
    | cleanup credential => exact .inr ⟨hfree rfl, relies_cleanup⟩
    | cancel order => exact .inr ⟨hfree rfl, fun _ => relies_cancel order⟩

/-- From a transfer nobody has registered, requests that take turns only verify the archive that
was declared. -/
theorem verified_archive_declared {s s' : Config DiskCall.Answer Request Disk} {ls : List (Label Request)}
    (hidle : s.threads = []) (hfresh : s.world.destination = none)
    (hr : Run (transfers H K).next (fun s l => takesTurns s l = true) s ls s') : Declared K s'.world := by
  have hstart : Declared K s.world := fun r hr' => by simp [hfresh] at hr'
  have hS := solo_verified H K
  have hshaped : Shaped (transfers H K) DiskCall.begins s := by simp [Shaped, hidle]
  have hturns : Turns (transfers H K) DiskCall.begins Rotated (Declared K) (Declared K) s :=
    .idle (by simp [Config.busy, hidle]) hstart
  exact hS.always (hS.run ⟨hshaped, hturns⟩ hr).2

def firstByteCodec : Codec where
  sha b := Vector.replicate 32 (b.headD 0)
  pack _ := .ok [1]
  unpack _ := .ok [(["world"], .dir)]

def lengthSha : Sha256 where
  sum value := Vector.replicate 32 (UInt8.ofNat value.toList.length)

def uploadRegistration (hash : String) : TransferCredentialRegistration where
  claims := ⟨transferProtocolVersion, "m", "s", "a", "b", .destinationUpload, 100⟩
  credentialHash := hash

def blankTransfer : Config DiskCall.Answer Request Disk := ⟨{}, []⟩

def destinedFor (original : Option Tree) : Config DiskCall.Answer Request Disk where
  world := { dir := true
             destination := some { version := transferProtocolVersion, migrationID := "m", serverID := "s"
                                   sourceNodeID := "a", targetNodeID := "b", direction := .destinationUpload
                                   credentialHash := credentialHash lengthSha "secret", expiresAt := 100 }
             servers := fun id => if id = "s" then original else none }
  threads := []

def twoBytes (first second : UInt8) : Request :=
  .append "secret" 0 2 (firstByteCodec.checksum [1]) ⟨[[first], [second]], none⟩

def registered : List (Label Request) :=
  [.start (.register (uploadRegistration (credentialHash lengthSha "secret"))), .call 0 .delivered]

theorem verified_archive_declared_single : ∃ s : Config DiskCall.Answer Request Disk, ∃ r,
    Run (transfers lengthSha firstByteCodec).next (fun s l => takesTurns s l = true) blankTransfer
      (registered ++ .start (twoBytes 1 2) :: List.replicate 7 (.call 1 .delivered)) s ∧
    s.world.destination = some r ∧ r.phase = .verified ∧
    ∃ b, s.world.incomingFile = some b ∧ b.length = r.archiveSize ∧ firstByteCodec.checksum b = r.checksum := by
  obtain ⟨s, hs, r, hr, hverified⟩ : ∃ s, Run (transfers lengthSha firstByteCodec).next (fun s l => takesTurns s l = true)
      blankTransfer (registered ++ .start (twoBytes 1 2) :: List.replicate 7 (.call 1 .delivered)) s ∧
      ∃ r, s.world.destination = some r ∧ r.phase = .verified := by decide +kernel
  exact ⟨s, r, hs, hr, hverified, verified_archive_declared rfl rfl hs r hr hverified⟩

def raced : List (Label Request) :=
  registered ++ [.start (twoBytes 1 2), .start (twoBytes 3 4), .call 1 .delivered, .call 2 .delivered] ++
    List.replicate 6 (.call 1 .delivered) ++ List.replicate 2 (.call 2 .delivered)

theorem verified_archive_overwritten : ∃ s : Config DiskCall.Answer Request Disk,
    Run (transfers lengthSha firstByteCodec).next (fun _ _ => True) blankTransfer raced s ∧
    ¬ Declared firstByteCodec s.world := by decide +kernel

end ForgePlane
