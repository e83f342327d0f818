import ForgePlane.Verified

/-!
# A credential that is gone stays gone

The record an operation read before it let go of the lock is stored again when it
ends, with the credential it had then. A rotation or a consumption lasts where no
such operation is under way when it is made.
-/

namespace ForgePlane

open Sections Disk

def Dead (H : Sha256) (credential : String) (o : Option TransferRecord) : Prop :=
  ∀ r, o = some r → r.consumed = true ∨ r.credentialHash ≠ credentialHash H credential

variable {H : Sha256} {K : Codec} {d : Disk} {direction x : Direction} {credential sum : String}
variable {o o' : Option TransferRecord}

theorem Dead.refused (h : Dead H credential (d.load direction)) (r : TransferRecord) :
    d.authorize H direction credential ≠ .ok r := by
  intro hr
  have ho := authorize_ok.mp hr
  obtain hused | hhash := h r ho.load
  · simp [ho.fresh] at hused
  · exact hhash ho.hash.symm

/-! ## What a step does to the credentials -/

def SameCredential (r r' : TransferRecord) : Prop :=
  r'.credentialHash = r.credentialHash ∧ (r.consumed = true → r'.consumed = true)

theorem SameCredential.refl (r : TransferRecord) : SameCredential r r := ⟨rfl, id⟩

theorem Dead.same (h : Dead H credential o)
    (ho : ∀ r', o' = some r' → ∃ r, o = some r ∧ SameCredential r r') : Dead H credential o' := by
  intro r' hr'
  obtain ⟨r, hr, hhash, hused⟩ := ho r' hr'
  obtain h | h := h r hr
  · exact .inl (hused h)
  · exact .inr (hhash ▸ h)

variable {r r' r'' : TransferRecord} {c : DiskCall} {t : Request} {before after : List (Label Request)}

theorem Disk.save_same (h : (d.save r').load x = some r'') (hload : d.load r.direction = some r)
    (hdir : r'.direction = r.direction) (hsame : SameCredential r r') : ∃ r, d.load x = some r ∧ SameCredential r r'' := by
  rw [load_save] at h
  split_ifs at h with hx
  · cases h
    exact ⟨r, by rw [← hx, hdir, hload], hsame⟩
  · exact ⟨r'', h, .refl r''⟩

theorem Disk.Opens.load_self (h : d.Opens H direction credential r) : d.load r.direction = some r := by
  rw [h.direction, h.load]

section
variable {t : Request} {offset total : Int}

theorem beginAppend_same
    (h : (d.beginAppend H credential offset total sum).2.load x = some r') :
    ∃ r, d.load x = some r ∧ SameCredential r r' := by
  by_cases hadmit : ∃ r, d.Opens H .destinationUpload credential r ∧ Disk.Admits r offset total sum
  · obtain ⟨r, ho, ha⟩ := hadmit
    rw [beginAppend_admitted ho ha] at h
    have hsaved : (d.save (uploading r total sum)).load x = some r' := by
      dsimp only at h
      split_ifs at h
      · exact (openIncoming_load _ x).symm.trans h
      · exact (openIncoming_load _ x).symm.trans h
    exact save_same hsaved ho.load_self rfl ⟨rfl, id⟩
  · obtain ⟨e, he⟩ := beginAppend_refused (d := d) fun r ho ha => hadmit ⟨r, ho, ha⟩
    rw [he] at h
    exact ⟨r', h, .refl r'⟩

theorem handle_first_same (ht : ∀ reg, t ≠ .register reg)
    (h : (d.handle H K t.first).2.load x = some r') : ∃ r, d.load x = some r ∧ SameCredential r r' := by
  have hsame : d.load x = some r' → ∃ r, d.load x = some r ∧ SameCredential r r' := fun h => ⟨r', h, .refl r'⟩
  cases t with
  | register reg => exact absurd rfl (ht reg)
  | authorize => exact hsame h
  | prepare =>
    simp only [Request.first, handle, beginPrepare] at h
    split at h
    · exact hsame h
    · rename_i r hr
      split_ifs at h
      · exact hsame h
      · exact save_same (d := d.openContext.2) h (authorize_ok.mp hr).load_self rfl ⟨rfl, id⟩
  | append => exact beginAppend_same h
  | restore =>
    simp only [Request.first, handle, beginRestore] at h
    split at h
    · exact hsame h
    · rename_i r hr
      split_ifs at h
      · exact hsame h
      · exact hsame h
      · have hsaved : ({ d with dir := true, staging := some [] }.openContext.2.save { r with phase := .restoring }).load x =
            some r' := h
        have hload := (authorize_ok.mp hr).load_self
        exact @save_same { d with dir := true, staging := some [] }.openContext.2 x r { r with phase := .restoring } r'
          hsaved hload rfl ⟨rfl, id⟩
  | finalize =>
    simp only [Request.first, handle, beginFinalize] at h
    split at h
    · exact hsame h
    · rename_i r hr
      split_ifs at h
      · exact hsame h
      · exact save_same h (authorize_ok.mp hr).load_self rfl ⟨rfl, fun _ => rfl⟩
  | cleanup =>
    simp only [Request.first, handle, beginCleanup] at h
    split at h
    · exact hsame h
    · rename_i r hr
      exact save_same h (authorize_ok.mp hr).load_self rfl ⟨rfl, fun _ => rfl⟩
  | cancel =>
    cases x with
    | sourceControl =>
      obtain ⟨r, hr, rfl⟩ := Option.map_eq_some_iff.mp (show d.source.map _ = some r' from h)
      exact ⟨r, hr, rfl, fun _ => rfl⟩
    | destinationUpload =>
      obtain ⟨r, hr, rfl⟩ := Option.map_eq_some_iff.mp (show d.destination.map _ = some r' from h)
      exact ⟨r, hr, rfl, fun _ => rfl⟩

theorem handle_stale (hc : c.stale = some r) (h : (d.handle H K c).2.load x = some r') :
    (r.direction = x ∧ r'.credentialHash = r.credentialHash) ∨ d.load x = some r' := by
  have hsave : ∀ r₁ : TransferRecord, ({ d with active := none }.save r₁).load x = some r' → r₁.direction = r.direction →
      r₁.credentialHash = r.credentialHash →
      (r.direction = x ∧ r'.credentialHash = r.credentialHash) ∨ d.load x = some r' := by
    intro r₁ h hdir hhash
    rw [load_save] at h
    split_ifs at h with hx
    · cases h
      exact .inl ⟨hdir ▸ hx, hhash⟩
    · exact .inr h
  cases c with
  | endPrepare r₀ result =>
    cases hc
    cases result with
    | error => exact hsave { r with phase := .failed } h rfl rfl
    | ok made =>
      exact hsave { r with phase := .archived, checksum := made.1, archiveSize := made.2, offset := 0 } h rfl rfl
  | endAppend r₀ offset total sum written copyErr =>
    cases hc
    have hstored : ∃ r₁, (d.endAppend K r offset total sum written copyErr).2 = { d with active := none }.save r₁ ∧
        r₁.direction = r.direction ∧ r₁.credentialHash = r.credentialHash := by
      simp only [endAppend]
      split
      · exact ⟨_, rfl, rfl, rfl⟩
      · split_ifs
        · exact ⟨_, rfl, rfl, rfl⟩
        · exact ⟨_, rfl, rfl, rfl⟩
        · split
          · exact ⟨_, rfl, rfl, rfl⟩
          · split_ifs <;> exact ⟨_, rfl, rfl, rfl⟩
    obtain ⟨r₁, heq, hdir, hhash⟩ := hstored
    simp only [handle, heq] at h
    exact hsave r₁ h hdir hhash
  | endRestore r₀ failure =>
    cases hc
    cases failure with
    | some => exact hsave { r with phase := .failed } h rfl rfl
    | none => exact hsave { r with phase := .restored } h rfl rfl
  | _ => cases hc

def Request.keeps : Request → Option Direction
  | .prepare _ => some .sourceControl
  | .append _ _ _ _ _ | .restore _ => some .destinationUpload
  | _ => none

theorem held_opens (h : t.held (d.handle H K t.first).1 = some r) :
    ∃ r₀, t.keeps = some r.direction ∧ d.load r.direction = some r₀ ∧ r₀.consumed = false ∧
      r.credentialHash = r₀.credentialHash := by
  cases t with
  | prepare =>
    simp only [Request.first, handle, beginPrepare] at h
    split at h
    · cases h
    · rename_i r₀ hr
      have ho := authorize_ok.mp hr
      split_ifs at h
      · cases h
      · cases h
        exact ⟨r₀, congrArg some ho.direction.symm, ho.load_self, ho.fresh, rfl⟩
  | append credential offset total sum =>
    by_cases hadmit : ∃ r, d.Opens H .destinationUpload credential r ∧ Disk.Admits r offset total sum
    · obtain ⟨r₀, ho, ha⟩ := hadmit
      simp only [Request.first, handle, beginAppend_admitted ho ha] at h
      split_ifs at h
      · cases h
      · cases h
        exact ⟨r₀, congrArg some ho.direction.symm, ho.load_self, ho.fresh, rfl⟩
    · obtain ⟨e, he⟩ := beginAppend_refused (d := d) fun r ho ha => hadmit ⟨r, ho, ha⟩
      simp only [Request.first, handle, he] at h
      cases h
  | restore =>
    simp only [Request.first, handle, beginRestore] at h
    split at h
    · cases h
    · rename_i r₀ hr
      have ho := authorize_ok.mp hr
      split_ifs at h
      · cases h
      · cases h
      · cases h
        exact ⟨r₀, congrArg some ho.direction.symm, ho.load_self, ho.fresh, rfl⟩
  | _ => cases h

end

def revokes (H : Sha256) (direction : Direction) (credential : String) (d : Disk) : DiskCall → Bool
  | .register reg =>
    reg.claims.direction = direction && Engine.lower reg.credentialHash ≠ credentialHash H credential &&
      (d.register reg).1.isOk
  | .beginFinalize other => direction = .destinationUpload && (d.beginFinalize H other).1.isOk
  | .beginCleanup other => direction = .sourceControl && (d.beginCleanup H other).1.isOk
  | .beginCancel => true
  | _ => false

def revokesAt (H : Sha256) (direction : Direction) (credential : String) (s : Config DiskCall.Answer Request Disk)
    (l : Label Request) : Bool :=
  match s.sends l with
  | some (_, c) => revokes H direction credential s.world c
  | none => false

def underWay (direction : Direction) (s : Config DiskCall.Answer Request Disk) : Bool :=
  s.threads.any fun t => t.1.keeps = some direction && t.2.inside DiskCall.begins

def registersOther (H : Sha256) (direction : Direction) (credential : String) (s : Config DiskCall.Answer Request Disk)
    (l : Label Request) : Bool :=
  match s.sends l with
  | some (_, .register reg) =>
    reg.claims.direction ≠ direction || Engine.lower reg.credentialHash ≠ credentialHash H credential
  | _ => true

theorem revokes_dead (h : revokes H direction credential d t.first = true) :
    Dead H credential ((d.handle H K t.first).2.load direction) := by
  intro r' hr'
  cases t with
  | register reg =>
    simp [Request.first, revokes] at h
    obtain ⟨⟨hdir, hhash⟩, hok⟩ := h
    obtain ⟨e, he⟩ | ⟨r, hr, hrdir, hrhash, -⟩ := d.register_cases reg
    · simp [he, Except.isOk, Except.toBool] at hok
    · simp [Request.first, handle, hr, hrdir, hdir] at hr'
      cases hr'
      exact .inr (hrhash.trans_ne hhash)
  | finalize other =>
    simp [Request.first, revokes] at h
    obtain ⟨rfl, hok⟩ := h
    simp only [Request.first, handle, beginFinalize] at hok hr'
    cases hauth : d.authorize H .destinationUpload other with
    | error => simp [hauth, Except.isOk, Except.toBool] at hok
    | ok =>
      simp only [hauth] at hok hr'
      split_ifs at hr' hok
      · cases hok
      · simp [(authorize_ok.mp hauth).direction] at hr'
        cases hr'
        exact .inl rfl
  | cleanup other =>
    simp [Request.first, revokes] at h
    obtain ⟨rfl, hok⟩ := h
    simp only [Request.first, handle, beginCleanup] at hok hr'
    cases hauth : d.authorize H .sourceControl other with
    | error => simp [hauth, Except.isOk, Except.toBool] at hok
    | ok =>
      simp [hauth, (authorize_ok.mp hauth).direction] at hr'
      cases hr'
      exact .inl rfl
  | cancel =>
    cases direction with
    | sourceControl =>
      obtain ⟨r, -, rfl⟩ := Option.map_eq_some_iff.mp (show d.source.map _ = some r' from hr')
      exact .inl rfl
    | destinationUpload =>
      obtain ⟨r, -, rfl⟩ := Option.map_eq_some_iff.mp (show d.destination.map _ = some r' from hr')
      exact .inl rfl
  | _ => cases h

def Keeping (t : Request) (p : DiskProg Unit) : Prop :=
  p = t.program ∨ All (fun c => c.begins = false ∧ ∀ r, c.stale = some r → t.keeps = some r.direction) p

def Sparing (H : Sha256) (direction : Direction) (credential : String) (t : Request) (p : DiskProg Unit) : Prop :=
  p = t.program ∨
  All (fun c => c.begins = false ∧ ∀ r, c.stale = some r → r.direction = direction →
    r.credentialHash ≠ credentialHash H credential) p

theorem keeping_inv (H : Sha256) (K : Codec) :
    ThreadInv (transfers H K) (fun _ _ => True) (fun _ => True) (fun _ => Keeping) where
  start _ t _ _ := .inl rfl
  stop _ _ _ := .inr trivial
  tick _ _ _ := ⟨trivial, fun _ _ h => h⟩
  call s i o t c k r w _ hJ _ hi hr := by
    refine ⟨trivial, .inr ?_, fun j t' p _ hj => hJ _ (List.mem_of_getElem? hj)⟩
    obtain ⟨rfl, rfl⟩ := transfers_answer hr
    have ht : Keeping t (.call c k) := hJ _ (List.mem_of_getElem? hi)
    obtain hp | hp := ht
    · obtain ⟨rfl, hk⟩ := program_call hp
      obtain rfl := eq_of_heq hk
      refine t.all_rest _ fun c hb hs => ⟨hb, fun r hr => ?_⟩
      obtain ⟨r₀, hkeeps, -⟩ := held_opens (hs r hr)
      exact hkeeps
    · exact hp.2 _

theorem Dead.first (hreg : ∀ reg, t = .register reg → reg.claims.direction ≠ direction ∨
    Engine.lower reg.credentialHash ≠ credentialHash H credential) (h : Dead H credential (d.load direction)) :
    Dead H credential ((d.handle H K t.first).2.load direction) := by
  cases t with
  | register reg =>
    obtain ⟨e, he⟩ | ⟨r, hr, hrdir, hrhash, -⟩ := d.register_cases reg
    · simpa [Request.first, handle, he] using h
    · intro r' hr'
      simp [Request.first, handle, hr, hrdir] at hr'
      split_ifs at hr' with hdir
      · cases hr'
        exact .inr (hrhash.trans_ne ((hreg reg rfl).resolve_left (not_not_intro hdir)))
      · exact h r' hr'
  | _ => exact h.same fun r' hr' => handle_first_same (fun _ => Request.noConfusion) hr'

theorem sparing_inv (H : Sha256) (K : Codec) (direction : Direction) (credential : String) :
    ThreadInv (transfers H K) (fun s l => registersOther H direction credential s l = true)
      (fun d => Dead H credential (d.load direction)) (fun _ => Sparing H direction credential) where
  start _ t _ _ := .inl rfl
  stop _ _ _ := .inr trivial
  tick _ _ h := ⟨h, fun _ _ h => h⟩
  call s i o t c k r w hI hJ ha hi hr := by
    obtain ⟨rfl, rfl⟩ := transfers_answer hr
    refine and_assoc.mp ⟨?_, fun j t' p _ hj => hJ _ (List.mem_of_getElem? hj)⟩
    have ht : Sparing H direction credential t (.call c k) := hJ _ (List.mem_of_getElem? hi)
    obtain hp | hp := ht
    · obtain ⟨rfl, hk⟩ := program_call hp
      obtain rfl := eq_of_heq hk
      refine ⟨hI.first fun reg hreg => ?_, .inr (t.all_rest _ fun c hb hs => ⟨hb, fun r hr hdir => ?_⟩)⟩
      · subst hreg
        simpa [registersOther, Config.sends, Config.pending_eq hi, Request.first] using ha
      · obtain ⟨r₀, -, hload, hfresh, hhash⟩ := held_opens (hs r hr)
        rw [hdir] at hload
        obtain hused | hother := hI r₀ hload
        · simp [hfresh] at hused
        · exact hhash.trans_ne hother
    · refine ⟨fun r' hr' => ?_, .inr (hp.2 _)⟩
      obtain ⟨hb, hstale⟩ := hp.1
      cases hc : c.stale with
      | none =>
        obtain heq | heq := s.world.handle_plain (H := H) (K := K) hb hc direction
        · exact hI r' (heq.symm.trans hr')
        · cases heq.symm.trans hr'
      | some r =>
        obtain ⟨hdir, hhash⟩ | hsame := handle_stale hc hr'
        · exact .inr (hhash.trans_ne (hstale r hc hdir))
        · exact hI r' hsame

theorem revokes_begins (h : revokes H direction credential d c = true) : c.begins = true := by
  cases c <;> first | rfl | cases h

theorem revokes_held (h : revokes H direction credential d t.first = true) (a : t.first.Answer) :
    t.held a = none := by
  cases t <;> first | rfl | cases h

theorem Keeping.sparing {p : DiskProg Unit} (h : Keeping t p)
    (hfree : (t.keeps = some direction && p.inside DiskCall.begins) = false) : Sparing H direction credential t p := by
  obtain hp | hp := h
  · exact .inl hp
  · right
    cases p with
    | ret => trivial
    | call c =>
      have hother : t.keeps ≠ some direction := by simpa [Prog.inside, hp.1.1] using hfree
      exact hp.mono fun c hc => ⟨hc.1, fun r hr hdir => absurd (hdir ▸ hc.2 r hr) hother⟩

/-- A credential that is rotated away or consumed while no operation of its direction is under
way is not accepted again until it is registered. -/
theorem revoked_credential_refused {s₀ s m s' : Config DiskCall.Answer Request Disk} {before after : List (Label Request)}
    {l : Label Request} (hidle : s₀.threads = [])
    (hbefore : Run (transfers H K).next (fun _ _ => True) s₀ before s) (hrevokes : revokesAt H direction credential s l = true)
    (hfree : underWay direction s = false) (hstep : (transfers H K).next s l = some m)
    (hafter : Run (transfers H K).next (fun s l => registersOther H direction credential s l = true) m after s') :
    ∀ r, s'.world.authorize H direction credential ≠ .ok r := by
  have hkeeping := ((keeping_inv H K).run ⟨trivial, by simp [hidle]⟩ hbefore).2
  have hsparing : ∀ x ∈ s.threads, Sparing H direction credential x.1 x.2 := by
    intro x hx
    refine (hkeeping x hx).sparing ?_
    simpa using List.any_eq_false.mp hfree x hx
  cases l with
  | call =>
    obtain ⟨t, c, k, r, w, hi, hr, rfl⟩ := System.next_call hstep
    simp [revokesAt, Config.sends, Config.pending_eq hi] at hrevokes
    obtain ⟨rfl, rfl⟩ := transfers_answer hr
    have ht : Keeping t (.call c k) := hkeeping _ (List.mem_of_getElem? hi)
    obtain hp | hp := ht
    · obtain ⟨rfl, hk⟩ := program_call hp
      obtain rfl := eq_of_heq hk
      have hdead := revokes_dead (K := K) hrevokes
      refine ((sparing_inv H K direction credential).run ⟨hdead, fun x hx => ?_⟩ hafter).1.refused
      obtain hx | rfl := List.mem_or_eq_of_mem_set hx
      · exact hsparing x hx
      · refine .inr (t.all_rest_plain _ (revokes_held hrevokes _) fun c hb hs => ⟨hb, fun r hr => ?_⟩)
        cases hs.symm.trans hr
    · have hb := revokes_begins hrevokes
      simp [hp.1.1] at hb
  | _ => cases hrevokes

/-! ## A rotation with and without an upload under way -/

def rotation : Label Request := .start (.register (uploadRegistration (credentialHash lengthSha "rotated")))

def accepted (s : Config DiskCall.Answer Request Disk) : Bool :=
  (s.world.authorize lengthSha .destinationUpload "secret").isOk

def rotated (free : Config DiskCall.Answer Request Disk → Bool) (before : List (Label Request)) (l : Label Request)
    (after : List (Label Request)) : Option Bool :=
  (follow (transfers lengthSha firstByteCodec).next (fun _ _ => true) blankTransfer before).bind fun s =>
    if revokesAt lengthSha .destinationUpload "secret" s l && free s then
      ((transfers lengthSha firstByteCodec).next s l).bind fun m =>
        (follow (transfers lengthSha firstByteCodec).next (registersOther lengthSha .destinationUpload "secret") m after).map accepted
    else none

theorem rotated_run {free : Config DiskCall.Answer Request Disk → Bool}
    {l : Label Request} {b : Bool} (h : rotated free before l after = some b) :
    ∃ s m s' : Config DiskCall.Answer Request Disk,
      Run (transfers lengthSha firstByteCodec).next (fun _ _ => True) blankTransfer before s ∧
      revokesAt lengthSha .destinationUpload "secret" s l = true ∧ free s = true ∧
      (transfers lengthSha firstByteCodec).next s l = some m ∧
      Run (transfers lengthSha firstByteCodec).next
        (fun s l => registersOther lengthSha .destinationUpload "secret" s l = true) m after s' ∧
      accepted s' = b := by
  obtain ⟨s, hs, h⟩ := Option.bind_eq_some_iff.mp h
  split_ifs at h with hcond
  obtain ⟨hrevokes, hfree⟩ := Bool.and_eq_true_iff.mp hcond
  obtain ⟨m, hm, h⟩ := Option.bind_eq_some_iff.mp h
  obtain ⟨s', hs', hb⟩ := Option.map_eq_some_iff.mp h
  exact ⟨s, m, s', (Run.of_follow hs).mono fun _ _ _ => trivial, hrevokes, hfree, hm, Run.of_follow hs', hb⟩

theorem revoked_credential_refused_idle : ∃ s m s' : Config DiskCall.Answer Request Disk,
    Run (transfers lengthSha firstByteCodec).next (fun _ _ => True) blankTransfer (registered ++ [rotation]) s ∧
    (transfers lengthSha firstByteCodec).next s (.call 1 .delivered) = some m ∧
    Run (transfers lengthSha firstByteCodec).next
      (fun s l => registersOther lengthSha .destinationUpload "secret" s l = true) m
      [.start (twoBytes 1 2), .call 2 .delivered] s' ∧
    ∀ r, s'.world.authorize lengthSha .destinationUpload "secret" ≠ .ok r := by
  have h : rotated (fun s => !underWay .destinationUpload s) (registered ++ [rotation]) (.call 1 .delivered)
      [.start (twoBytes 1 2), .call 2 .delivered] = some false := by
    decide +kernel
  obtain ⟨s, m, s', hbefore, hrevokes, hfree, hstep, hafter, -⟩ := rotated_run h
  exact ⟨s, m, s', hbefore, hstep, hafter,
    revoked_credential_refused rfl hbefore hrevokes (by simpa using hfree) hstep hafter⟩

theorem rotated_credential_returns : ∃ s m s' : Config DiskCall.Answer Request Disk,
    Run (transfers lengthSha firstByteCodec).next (fun _ _ => True) blankTransfer
      (registered ++ [.start (twoBytes 1 2), .call 1 .delivered, rotation]) s ∧
    revokesAt lengthSha .destinationUpload "secret" s (.call 2 .delivered) = true ∧
    (transfers lengthSha firstByteCodec).next s (.call 2 .delivered) = some m ∧
    Run (transfers lengthSha firstByteCodec).next
      (fun s l => registersOther lengthSha .destinationUpload "secret" s l = true) m
      (List.replicate 6 (.call 1 .delivered)) s' ∧
    ∃ r, s'.world.authorize lengthSha .destinationUpload "secret" = .ok r := by
  have h : rotated (fun _ => true) (registered ++ [.start (twoBytes 1 2), .call 1 .delivered, rotation])
      (.call 2 .delivered) (List.replicate 6 (.call 1 .delivered)) = some true := by
    decide +kernel
  obtain ⟨s, m, s', hbefore, hrevokes, -, hstep, hafter, haccepted⟩ := rotated_run h
  refine ⟨s, m, s', hbefore, hrevokes, hstep, hafter, ?_⟩
  unfold accepted at haccepted
  cases hauth : s'.world.authorize lengthSha .destinationUpload "secret" with
  | error =>
    rw [hauth] at haccepted
    cases haccepted
  | ok r => exact ⟨r, rfl⟩

end ForgePlane
