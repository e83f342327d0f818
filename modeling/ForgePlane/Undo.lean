import ForgePlane.Verified

/-!
# What a cancellation puts back

A restore sets the server's directory aside and a cancellation moves it back. Where
there was no directory nothing is set aside, and what was restored stays.
-/

namespace ForgePlane

open Sections Disk

/-! ## Before and after a cancellation -/

structure Waiting (server : String) (original : Option Tree) (d : Disk) : Prop where
  record : ∃ r, d.destination = some r ∧ r.serverID = server ∧ r.phase ≠ .restored
  tree : d.servers server = original
  previous : d.previous = none

structure Replaced (server : String) (original : Option Tree) (d : Disk) : Prop where
  record : ∃ r, d.destination = some r ∧ r.serverID = server ∧ r.phase = .restored
  previous : d.previous = original

structure Undone (server : String) (original : Option Tree) (d : Disk) : Prop where
  record : ∀ r, d.destination = some r → r.consumed = true
  tree : d.servers server = original
  previous : d.previous = none

def Ticked (d d' : Disk) : Prop := ∃ now, d' = { d with now := now }

variable {H : Sha256} {K : Codec} {d d' d'' : Disk} {server : String} {original : Option Tree}

theorem Ticked.refl (d : Disk) : Ticked d d := ⟨d.now, rfl⟩

theorem Ticked.trans (h : Ticked d d') (h' : Ticked d' d'') : Ticked d d'' := by
  obtain ⟨n, rfl⟩ := h
  obtain ⟨n', rfl⟩ := h'
  exact ⟨n', rfl⟩

theorem Waiting.ticked (h : Waiting server original d) (hR : Ticked d d') : Waiting server original d' := by
  obtain ⟨n, rfl⟩ := hR
  exact ⟨h.record, h.tree, h.previous⟩

theorem Replaced.ticked (h : Replaced server original d) (hR : Ticked d d') : Replaced server original d' := by
  obtain ⟨n, rfl⟩ := hR
  exact ⟨h.record, h.previous⟩

theorem Undone.ticked (h : Undone server original d) (hR : Ticked d d') : Undone server original d' := by
  obtain ⟨n, rfl⟩ := hR
  exact ⟨h.record, h.tree, h.previous⟩

abbrev Ends (H : Sha256) (K : Codec) (p : DiskProg Unit) (I : Disk → Prop) (d : Disk) : Prop :=
  Relies (Disk.handle H K) Ticked (fun _ => True) p (fun _ => I) d

def Stable (I : Disk → Prop) : Prop := ∀ d d', I d → Ticked d d' → I d'

variable {I : Disk → Prop} {r : TransferRecord} {credential : String} {failure copyErr : Option Err} {t : Tree}
variable {inode pos : Nat}

theorem ends_ret (hstable : Stable I) (h : I d) : Ends H K (.ret ()) I d := fun w hR => ⟨trivial, hstable d w h hR⟩

abbrev Uploads (H : Sha256) (K : Codec) (I : Disk → Prop) (d : Disk) : Prop :=
  ∀ credential offset total sum body, Ends H K
    ((Request.append credential offset total sum body).rest (d.beginAppend H credential offset total sum).1) I
    (d.beginAppend H credential offset total sum).2

abbrev Restores (H : Sha256) (K : Codec) (I : Disk → Prop) (d : Disk) : Prop :=
  ∀ credential, Ends H K ((Request.restore credential).rest (d.beginRestore H credential).1) I (d.beginRestore H credential).2

abbrev Cancels (H : Sha256) (K : Codec) (I : Disk → Prop) (d : Disk) : Prop :=
  ∀ order, Ends H K ((Request.cancel order).rest ()) I d.beginCancel

theorem Waiting.writes (h : Waiting server original d) {b : Bytes} :
    Waiting server original (d.writeAt inode pos b) := ⟨h.record, h.tree, h.previous⟩

theorem Waiting.save (h : Waiting server original d) (hdir : r.direction = .destinationUpload)
    (hserver : r.serverID = server) (hphase : r.phase ≠ .restored) : Waiting server original (d.save r) := by
  simp [Disk.save, hdir]
  exact ⟨⟨r, rfl, hserver, hphase⟩, h.tree, h.previous⟩

variable {sum : String} {offset total : Int} {s s' : Config DiskCall.Answer Request Disk}

theorem Waiting.endAppend (h : Waiting server original d)
    {written : Nat} (hoffset : 0 ≤ offset) (hdir : r.direction = .destinationUpload)
    (hserver : r.serverID = server) :
    Waiting server original (d.endAppend K (uploading r total sum) offset total sum written copyErr).2 := by
  rw [endAppend_disk hoffset]
  have hidle : Waiting server original { d with active := none } := ⟨h.record, h.tree, h.previous⟩
  refine hidle.save hdir hserver ?_
  dsimp only [endPhase]
  split_ifs
  · exact TransferPhase.noConfusion
  · split
    · exact TransferPhase.noConfusion
    · split_ifs <;> exact TransferPhase.noConfusion

theorem Waiting.opens (h : Waiting server original d)
    (ho : d.Opens H .destinationUpload credential r) : r.serverID = server := by
  obtain ⟨r₀, hr₀, hserver, -⟩ := h.record
  cases hr₀.symm.trans ho.load
  exact hserver

theorem Replaced.opens (h : Replaced server original d)
    (ho : d.Opens H .destinationUpload credential r) : r.phase = .restored := by
  obtain ⟨r₀, hr₀, -, hphase⟩ := h.record
  cases hr₀.symm.trans ho.load
  exact hphase

theorem Undone.closed (h : Undone server original d) :
    ¬ d.Opens H .destinationUpload credential r := by
  intro ho
  simpa [ho.fresh] using h.record r ho.load

theorem Waiting.stable : Stable (Waiting server original) := fun _ _ h hR => h.ticked hR

theorem Replaced.stable : Stable (Replaced server original) := fun _ _ h hR => h.ticked hR

theorem Undone.stable : Stable (Undone server original) := fun _ _ h hR => h.ticked hR

theorem Waiting.append (h : Waiting server original d) : Uploads H K (Waiting server original) d := by
  intro credential offset total sum body
  by_cases hadmit : ∃ r, d.Opens H .destinationUpload credential r ∧ Disk.Admits r offset total sum
  · obtain ⟨r, ho, ha⟩ := hadmit
    have hoffset : 0 ≤ offset := ha.next ▸ Int.natCast_nonneg _
    have hserver := h.opens ho
    have hsaved : Waiting server original (d.save (uploading r total sum)) :=
      h.save ho.direction hserver TransferPhase.noConfusion
    have hopened : Waiting server original (d.save (uploading r total sum)).openIncoming.2 := by
      unfold openIncoming
      split
      · exact hsaved
      · exact ⟨hsaved.record, hsaved.tree, hsaved.previous⟩
    rw [beginAppend_admitted ho ha]
    dsimp only
    split_ifs
    · exact ends_ret stable hopened
    · refine Relies.invariant stable (fun _ _ => trivial) ?_ (fun _ _ h => h)
        ⟨hopened.record, hopened.tree, hopened.previous⟩
      refine All.bind (Request.all_copyBody (fun w hw => hw) (fun pos b w hw => hw.writes) _ _ _ _ _) fun copied => ?_
      exact ⟨fun w hw => hw.endAppend hoffset ho.direction hserver, fun _ => trivial⟩
  · obtain ⟨e, he⟩ := beginAppend_refused fun r ho ha => hadmit ⟨r, ho, ha⟩
    rw [he]
    exact ends_ret stable h

theorem Replaced.append (h : Replaced server original d) : Uploads H K (Replaced server original) d := by
  intro credential offset total sum body
  obtain ⟨e, he⟩ := beginAppend_refused fun _ ho ha => ha.unsettled.1 (h.opens ho)
  rw [he]
  exact ends_ret stable h

theorem Undone.append (h : Undone server original d) : Uploads H K (Undone server original) d := by
  intro credential offset total sum body
  obtain ⟨e, he⟩ := beginAppend_refused fun _ ho => absurd ho h.closed
  rw [he]
  exact ends_ret stable h

theorem Replaced.restore (h : Replaced server original d) : Restores H K (Replaced server original) d := by
  intro credential
  unfold beginRestore
  split
  · exact ends_ret stable h
  · rename_i r hr
    rw [if_pos (h.opens (authorize_ok.mp hr))]
    exact ends_ret stable h

theorem Undone.restore (h : Undone server original d) : Restores H K (Undone server original) d := by
  intro credential
  unfold beginRestore
  split
  · exact ends_ret stable h
  · rename_i r hr
    exact absurd (authorize_ok.mp hr) h.closed

def Swapped (server : String) (original : Option Tree) (failure : Option Err) (d : Disk) : Prop :=
  (∃ r, d.destination = some r ∧ r.serverID = server ∧ r.phase ≠ .restored) ∧
  match failure with
  | some _ => d.servers server = original ∧ d.previous = none
  | none => d.previous = original

theorem Swapped.ticked (h : Swapped server original failure d) (hR : Ticked d d') :
    Swapped server original failure d' := by
  obtain ⟨n, rfl⟩ := hR
  exact h

theorem Waiting.unprevious (h : Waiting server original d) : Waiting server original (d.remove .previous) :=
  ⟨h.record, h.tree, rfl⟩

structure Aside (server : String) (t : Tree) (d : Disk) : Prop where
  record : ∃ r, d.destination = some r ∧ r.serverID = server ∧ r.phase ≠ .restored
  tree : d.servers server = none
  previous : d.previous = some t

theorem Aside.ticked (h : Aside server t d) (hR : Ticked d d') : Aside server t d' := by
  obtain ⟨n, rfl⟩ := hR
  exact ⟨h.record, h.tree, h.previous⟩

theorem Waiting.renameAside (h : Waiting server (some t) d) :
    (∃ e, d.renameAside server = (.error e, d)) ∨
    ∃ w, d.renameAside server = (.ok (), w) ∧ Aside server t w := by
  unfold Disk.renameAside
  split_ifs
  · exact .inl ⟨_, rfl⟩
  · rw [h.tree, h.previous]
    exact .inr ⟨_, rfl, h.record, by simp [Disk.setServer], rfl⟩

theorem renameStaging_cases (h : d.servers server = none) :
    (∃ e, d.renameStaging server = (.error e, d)) ∨
    ∃ t, d.renameStaging server = (.ok (), { d.setServer server (some t) with staging := none }) := by
  unfold renameStaging
  rw [h]
  cases d.staging with
  | none => exact .inl ⟨_, rfl⟩
  | some t => exact .inr ⟨t, rfl⟩

theorem renamePrevious_eq (hprevious : d.previous = some t) (htree : d.servers server = none) :
    d.renamePrevious server = (.ok (), { d.setServer server (some t) with previous := none }) := by
  unfold renamePrevious
  rw [hprevious, htree]
  rfl

theorem Aside.renamePrevious {e : Err} (h : Aside server t d) :
    Swapped server (some t) (some e) (d.renamePrevious server).2 := by
  rw [renamePrevious_eq h.previous h.tree]
  exact ⟨h.record, by simp [setServer], rfl⟩

abbrev Swaps (H : Sha256) (K : Codec) (server : String) (original : Option Tree) (p : DiskProg (Option Err)) (d : Disk) :
    Prop :=
  Relies (Disk.handle H K) Ticked (fun _ => True) p (Swapped server original) d

theorem swaps_ret (h : Swapped server original failure d) :
    Swaps H K server original (.ret failure) d := fun _ hR => ⟨trivial, h.ticked hR⟩

theorem Waiting.activate (h : Waiting server original d) : Swaps H K server original (activateWithRollback server) d := by
  intro w₁ hR₁
  refine ⟨trivial, fun w₂ hR₂ => ⟨trivial, ?_⟩⟩
  have h₂ : Waiting server original w₂ := (h.ticked hR₁).unprevious.ticked hR₂
  cases original with
  | none =>
    simp [handle, h₂.tree]
    intro w₃ hR₃
    refine ⟨trivial, ?_⟩
    have h₃ := h₂.ticked hR₃
    obtain ⟨e, he⟩ | ⟨t, ht⟩ := renameStaging_cases h₃.tree
    · simp [handle, he]
      exact swaps_ret ⟨h₃.record, h₃.tree, h₃.previous⟩
    · simp [handle, ht]
      exact swaps_ret ⟨h₃.record, h₃.previous⟩
  | some t =>
    simp [handle, h₂.tree]
    intro w₃ hR₃
    refine ⟨trivial, ?_⟩
    have h₃ := h₂.ticked hR₃
    obtain ⟨e, he⟩ | ⟨w, hw, haside⟩ := h₃.renameAside
    · simp [handle, he]
      exact swaps_ret ⟨h₃.record, h₃.tree, h₃.previous⟩
    · simp [handle, hw]
      intro w₄ hR₄
      refine ⟨trivial, ?_⟩
      have h₄ := haside.ticked hR₄
      obtain ⟨e, he⟩ | ⟨t', ht'⟩ := renameStaging_cases h₄.tree
      · simp [handle, he]
        intro w₅ hR₅
        exact ⟨trivial, swaps_ret (h₄.ticked hR₅).renamePrevious⟩
      · simp [handle, ht']
        exact swaps_ret ⟨h₄.record, h₄.previous⟩

def Pending (server : String) (original : Option Tree) (d : Disk) : Prop :=
  Waiting server original d ∨ Replaced server original d

theorem Pending.stable : Stable (Pending server original) := fun _ _ h hR => h.imp (·.ticked hR) (·.ticked hR)

theorem Swapped.endRestore (h : Swapped server original failure d)
    (hdir : r.direction = .destinationUpload) (hserver : r.serverID = server) :
    Pending server original (d.endRestore r failure).2 := by
  cases failure with
  | some e =>
    have hidle : Waiting server original { d with active := none } := ⟨h.1, h.2.1, h.2.2⟩
    exact .inl (hidle.save (r := { r with phase := .failed }) hdir hserver TransferPhase.noConfusion)
  | none =>
    right
    simp [endRestore, save, hdir]
    exact ⟨⟨_, rfl, hserver, rfl⟩, h.2⟩

theorem Waiting.unpackIncoming (h : Waiting server original d) (ctx : Nat) :
    Waiting server original (d.unpackIncoming K ctx).2 := by
  unfold Disk.unpackIncoming
  split
  · split_ifs
    · exact h
    · split
      · exact h
      · exact ⟨h.record, h.tree, h.previous⟩
  · exact h

theorem Waiting.restore (h : Waiting server original d) : Restores H K (Pending server original) d := by
  intro credential
  unfold beginRestore
  split
  · exact ends_ret Pending.stable (.inl h)
  · rename_i r hr
    have ho := authorize_ok.mp hr
    have hserver := h.opens ho
    split_ifs
    · exact ends_ret Pending.stable (.inl h)
    · exact ends_ret Pending.stable (.inl h)
    · have hopened : Waiting server original { d with dir := true, staging := some [] }.openContext.2 :=
        ⟨h.record, h.tree, h.previous⟩
      have hstart := hopened.save (r := { r with phase := .restoring }) ho.direction hserver TransferPhase.noConfusion
      intro w hR
      refine ⟨trivial, ?_⟩
      have hw := hstart.ticked hR
      have hend : ∀ (failure : Option Err) (w : Disk), Swapped server original failure w →
          Ends H K (perform (.endRestore { r with phase := .restoring } failure) >>= fun _ => .ret ())
            (Pending server original) w :=
        fun failure w hs w' hR' => ⟨trivial, ends_ret Pending.stable ((hs.ticked hR').endRestore ho.direction hserver)⟩
      have hunpacked := hw.unpackIncoming (K := K) d.contexts.length
      simp [handle, openContext]
      generalize w.unpackIncoming K d.contexts.length = out at hunpacked ⊢
      obtain ⟨result, w'⟩ := out
      cases result with
      | error e => exact hend (some e) w' ⟨hunpacked.record, hunpacked.tree, hunpacked.previous⟩
      | ok _ =>
        have hswap : Swaps H K server original (activateWithRollback r.serverID) w' := by
          rw [hserver]
          exact hunpacked.activate
        show Ends H K (activateWithRollback r.serverID >>= fun failure =>
          perform (.endRestore { r with phase := .restoring } failure) >>= fun _ => .ret ()) _ w'
        exact Relies.bind Ticked.refl (hswap.mono hend)

def undoable (d : Disk) : Bool := d.previous.isSome || d.destination.all (·.phase ≠ .restored)

theorem ends_removeAll (h : Undone server original d) (order : List Entry) :
    Ends H K (removeAll order) (Undone server original) d := by
  refine Relies.invariant Undone.stable (fun _ _ => trivial)
    (Request.all_removeAll (fun e w hw => ?_) (fun w hw => ?_) order) (fun _ _ h => h) h
  · cases e with
    | destinationRecord => exact ⟨fun r hr => (nomatch hr), hw.tree, hw.previous⟩
    | previous => exact ⟨hw.record, hw.tree, rfl⟩
    | _ => exact ⟨hw.record, hw.tree, hw.previous⟩
  · simp [handle]
    split_ifs
    · exact ⟨hw.record, hw.tree, hw.previous⟩
    · exact hw

theorem ends_cancel_empty (htree : d.servers server = original) (hprevious : d.previous = none) :
    Cancels H K (Undone server original) d := by
  intro order
  have hundone : Undone server original d.beginCancel := by
    refine ⟨fun r hr => ?_, htree, hprevious⟩
    obtain ⟨r₀, -, rfl⟩ := Option.map_eq_some_iff.mp hr
    rfl
  intro w hR
  refine ⟨trivial, ?_⟩
  have hw := hundone.ticked hR
  simp [handle, hw.previous]
  exact ends_removeAll hw order

structure Cancelled (server : String) (t : Tree) (d : Disk) : Prop where
  record : ∃ r, d.destination = some r ∧ r.serverID = server ∧ r.consumed = true
  previous : d.previous = some t

theorem Cancelled.ticked (h : Cancelled server t d) (hR : Ticked d d') : Cancelled server t d' := by
  obtain ⟨n, rfl⟩ := hR
  exact ⟨h.record, h.previous⟩

theorem Replaced.beginCancel (h : Replaced server (some t) d) : Cancelled server t d.beginCancel := by
  obtain ⟨r, hr, hserver, -⟩ := h.record
  exact ⟨⟨{ r with phase := .cancelled, consumed := true }, by simp [Disk.beginCancel, hr], hserver, rfl⟩, h.previous⟩

theorem Cancelled.serverOf (h : Cancelled server t d) :
    (d.handle H K (.serverOf .destinationUpload)).1 = some server := by
  obtain ⟨r, hr, hserver, -⟩ := h.record
  simp [handle, load, hr, hserver]

theorem Cancelled.renamePrevious (h : Cancelled server t d) (htree : d.servers server = none) :
    Undone server (some t) (d.renamePrevious server).2 := by
  obtain ⟨r, hr, -, hused⟩ := h.record
  rw [renamePrevious_eq h.previous htree]
  refine ⟨fun r' hr' => ?_, by simp [setServer], rfl⟩
  cases hr.symm.trans hr'
  exact hused

theorem ends_cancel_replaced (h : Replaced server (some t) d) : Cancels H K (Undone server (some t)) d := by
  intro order w₁ hR₁
  refine ⟨trivial, ?_⟩
  have h₁ := h.beginCancel.ticked hR₁
  simp [handle, h₁.previous]
  intro w₂ hR₂
  refine ⟨trivial, ?_⟩
  have h₂ := h₁.ticked hR₂
  rw [h₂.serverOf]
  intro w₃ hR₃
  refine ⟨trivial, fun w₄ hR₄ => ⟨trivial, ?_⟩⟩
  have h₃ := h₂.ticked hR₃
  -- the server's directory is gone now, so the rename cannot fail
  have h₄ : Cancelled server t w₄ ∧ w₄.servers server = none := by
    obtain ⟨n, rfl⟩ := hR₄
    exact ⟨⟨h₃.record, h₃.previous⟩, by simp [handle, setServer]⟩
  exact ends_removeAll (h₄.1.renamePrevious h₄.2) order

theorem Pending.cancel (h : Pending server original d) (hundo : undoable d = true) : Cancels H K (Undone server original) d := by
  obtain h | h := h
  · exact ends_cancel_empty h.tree h.previous
  · obtain ⟨r, hr, -, hphase⟩ := h.record
    cases original with
    | none => simp [undoable, h.previous, hr, hphase] at hundo
    | some t => exact ends_cancel_replaced h

theorem Undone.cancel (h : Undone server original d) : Cancels H K (Undone server original) d :=
  ends_cancel_empty h.tree h.previous

/-- Uploads, restores and cancellations that take turns, where a cancellation finds what it has to
put back. -/
def cancelsInTurn (s : Config DiskCall.Answer Request Disk) : Label Request → Bool
  | .call i _ =>
    match s.pending i with
    | some (.append _ _ _ _ _, c) | some (.restore _, c) => !c.begins || !s.busy DiskCall.begins
    | some (.cancel _, c) => !c.begins || (!s.busy DiskCall.begins && undoable s.world)
    | some _ => false
    | none => true
  | .crash _ => false
  | _ => true

theorem solo_undo (hstable : Stable I) (happend : ∀ d, I d → Uploads H K I d) (hrestore : ∀ d, I d → Restores H K I d)
    (hcancel : ∀ d, I d → undoable d = true → Cancels H K I d) :
    Solo (transfers H K) (fun s l => cancelsInTurn s l = true) DiskCall.begins Ticked (fun _ => True) I where
  refl := .refl
  trans _ _ _ := .trans
  tick w n := ⟨_, rfl⟩
  stable := hstable
  holds _ _ := trivial
  sure _ _ := rfl
  crash s i h := Bool.noConfusion h
  shape := Request.program_shape H K
  enter s i t c k ha hi hp := by
    obtain ⟨rfl, hk⟩ := Prog.call.inj (t.program_eq.symm.trans hp)
    obtain rfl := eq_of_heq hk
    simp [cancelsInTurn, Config.pending_eq hi] at ha
    cases t with
    | append credential offset total sum body =>
      exact .inr ⟨by simpa using ha, fun hI => happend s.world hI credential offset total sum body⟩
    | restore credential => exact .inr ⟨by simpa using ha, fun hI => hrestore s.world hI credential⟩
    | cancel order =>
      have ha : s.busy DiskCall.begins = false ∧ undoable s.world = true := by simpa using ha
      exact .inr ⟨ha.1, fun hI => hcancel s.world hI ha.2 order⟩
    | _ => cases ha

theorem solo_pending (H : Sha256) (K : Codec) (server : String) (original : Option Tree) :
    Solo (transfers H K) (fun s l => cancelsInTurn s l = true) DiskCall.begins Ticked (fun _ => True)
      (fun d => Pending server original d ∨ Undone server original d) := by
  refine solo_undo (fun d d' h hR => h.imp (Pending.stable d d' · hR) (·.ticked hR)) (fun d h credential offset total sum body => ?_)
    (fun d h credential => ?_) (fun d h hundo order => ?_)
  · obtain (h | h) | h := h
    · exact (h.append credential offset total sum body).mono fun _ _ h => .inl (.inl h)
    · exact (h.append credential offset total sum body).mono fun _ _ h => .inl (.inr h)
    · exact (h.append credential offset total sum body).mono fun _ _ h => .inr h
  · obtain (h | h) | h := h
    · exact (h.restore credential).mono fun _ _ h => .inl h
    · exact (h.restore credential).mono fun _ _ h => .inl (.inr h)
    · exact (h.restore credential).mono fun _ _ h => .inr h
  · obtain h | h := h
    · exact (h.cancel hundo order).mono fun _ _ h => .inr h
    · exact (h.cancel order).mono fun _ _ h => .inr h

theorem solo_undone (H : Sha256) (K : Codec) (server : String) (original : Option Tree) :
    Solo (transfers H K) (fun s l => cancelsInTurn s l = true) DiskCall.begins Ticked (fun _ => True) (Undone server original) :=
  solo_undo Undone.stable (fun _ h => h.append) (fun _ h => h.restore) fun _ h _ => h.cancel

def Request.isCancel : Request → Bool
  | .cancel _ => true
  | _ => false

def CancelBegun (s : Config DiskCall.Answer Request Disk) : Prop :=
  ∃ x ∈ s.threads, x.1.isCancel = true ∧ x.2 ≠ x.1.program

theorem cancelBegun_step {l : Label Request} (hs : ¬ CancelBegun s)
    (hs' : CancelBegun s') (ha : cancelsInTurn s l = true) (hn : (transfers H K).next s l = some s') :
    ∃ i order, l = .call i .delivered ∧ s.threads[i]? = some (.cancel order, (Request.cancel order).program) ∧
      s' = ⟨s.world.beginCancel, s.threads.set i (.cancel order, (Request.cancel order).rest ())⟩ := by
  obtain ⟨x, hx, hcancel, hpast⟩ := hs'
  cases l with
  | start t =>
    cases hn
    obtain hx | hx := List.mem_append.mp hx
    · exact absurd ⟨x, hx, hcancel, hpast⟩ hs
    · rw [List.mem_singleton.mp hx] at hpast
      exact absurd rfl hpast
  | tick n => cases hn; exact absurd ⟨x, hx, hcancel, hpast⟩ hs
  | crash i => cases ha
  | call i o =>
    obtain ⟨t, c, k, r, w, hi, hr, rfl⟩ := System.next_call hn
    obtain hx | rfl := List.mem_or_eq_of_mem_set hx
    · exact absurd ⟨x, hx, hcancel, hpast⟩ hs
    · obtain ⟨order, rfl⟩ : ∃ order, t = .cancel order := by
        cases t <;> first | exact ⟨_, rfl⟩ | cases hcancel
      have hp : Prog.call c k = (Request.cancel order).program := by
        by_contra hne
        exact hs ⟨_, List.mem_of_getElem? hi, rfl, hne⟩
      obtain ⟨rfl, hk⟩ := program_call hp
      obtain rfl := eq_of_heq hk
      obtain ⟨rfl, rfl⟩ := transfers_answer hr
      cases o with
      | delivered => exact ⟨i, order, rfl, hp ▸ hi, rfl⟩
      | _ => cases hr

/-- Operations that take turns leave the server's directory as it was before the transfer, once a cancellation among
them and all the others have returned. -/
theorem cancel_restores_original {s s' : Config DiskCall.Answer Request Disk} {ls : List (Label Request)}
    {server : String} {original : Option Tree} (hidle : s.threads = [])
    (hrecord : ∃ r, s.world.destination = some r ∧ r.serverID = server ∧ r.phase = .authorized)
    (hprevious : s.world.previous = none) (hserver : s.world.servers server = original)
    (hr : Run (transfers H K).next (fun s l => cancelsInTurn s l = true) s ls s')
    (hended : s'.allEnded = true) (hcancel : ∃ x ∈ s'.threads, x.1.isCancel = true) :
    s'.world.servers server = original := by
  obtain ⟨r, hdest, hid, hphase⟩ := hrecord
  have hstart : Waiting server original s.world :=
    ⟨⟨r, hdest, hid, by simp [hphase]⟩, hserver, hprevious⟩
  have hfresh : ¬ CancelBegun s := by simp [CancelBegun, hidle]
  have hbegun : CancelBegun s' := by
    obtain ⟨x, hx, hxc⟩ := hcancel
    refine ⟨x, hx, hxc, ?_⟩
    rw [Config.allEnded_eq hended x hx, x.1.program_eq]
    nofun
  obtain ⟨before, l, after, m, m', hbefore, hm, hl, hstep, hm', hafter⟩ := hr.enters hfresh hbegun
  obtain ⟨i, order, rfl, hi, rfl⟩ := cancelBegun_step hm hm' hl hstep
  have hP := solo_pending H K server original
  have hU := solo_undone H K server original
  have hshaped : Shaped (transfers H K) DiskCall.begins s := by simp [Shaped, hidle]
  obtain ⟨hshape, hturns⟩ := hP.run ⟨hshaped, .idle (by simp [Config.busy, hidle]) (.inl (.inl hstart))⟩ hbefore
  -- the cancellation begins between operations, and leaves the directory as it was
  have hfree : m.busy DiskCall.begins = false ∧ undoable m.world = true := by
    rw [Request.program_eq] at hi
    simpa [cancelsInTurn, Config.pending_eq hi] using hl
  have hworld : Pending server original m.world ∨ Undone server original m.world := by
    cases hturns with
    | idle _ h => exact h
    | taken j t p hj hin _ _ =>
      have hout := Config.busy_eq_false.mp hfree.1 _ (List.mem_of_getElem? hj)
      simp [hin] at hout
  have hcancels : Cancels H K (Undone server original) m.world := by
    obtain h | h := hworld
    · exact h.cancel hfree.2
    · exact h.cancel
  have hturns' := hU.turns_set (t := .cancel order) (Config.alone_of_free hfree.1 i)
    (lt_at hi) ((Request.cancel order).all_rest () fun _ hb _ => hb) (hcancels order)
  exact ((hU.run ⟨hU.shaped_step hshape hl hstep, hturns'⟩ hafter).2.ended hended).tree

/-! ## A restore that is cancelled -/

def restoredThenCancelled (n k : Nat) : List (Label Request) :=
  .start (twoBytes 1 2) :: List.replicate 7 (.call 0 .delivered) ++
  .start (.restore "secret") :: List.replicate n (.call 1 .delivered) ++
  .start (.cancel [.previous, .incoming, .staging, .destinationRecord]) :: List.replicate k (.call 2 .delivered)

def level : Tree := [(["level"], .dir)]

theorem cancel_restores_original_level : ∃ s : Config DiskCall.Answer Request Disk,
    Run (transfers lengthSha firstByteCodec).next (fun s l => cancelsInTurn s l = true) (destinedFor (some level))
      (restoredThenCancelled 7 10) s ∧
    s.allEnded = true ∧ s.world.servers "s" = some level := by
  obtain ⟨s, hs, hended, hcancel⟩ : ∃ s, Run (transfers lengthSha firstByteCodec).next (fun s l => cancelsInTurn s l = true)
      (destinedFor (some level)) (restoredThenCancelled 7 10) s ∧ s.allEnded = true ∧
      s.threads.any (·.1.isCancel) = true := by decide +kernel
  exact ⟨s, hs, hended, cancel_restores_original rfl ⟨_, rfl, rfl, rfl⟩ rfl rfl hs hended (List.any_eq_true.mp hcancel)⟩

theorem cancel_leaves_restored : ∃ s : Config DiskCall.Answer Request Disk,
    Run (transfers lengthSha firstByteCodec).next (fun _ _ => True) (destinedFor none) (restoredThenCancelled 6 7) s ∧
    s.allEnded = true ∧ (s.world.servers "s").map (·.map (·.1)) = some [["world"]] := by decide +kernel

end ForgePlane
