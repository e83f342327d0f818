import ForgePlane.Workload

/-!
# Replacing a container while Docker fails

`Reconcile` cannot change the mounts of a container in place: it stops and removes the old one,
finds the image, creates the new one and starts it if the old one ran. Any of these calls may fail,
without effect.
-/

namespace ForgePlane

open Host Prog

def HostCall.fault : (c : HostCall) → Err → Option (HostResp c)
  | .serverRoot _, e => some (.error e)
  | .readFile .., e => some (.error e)
  | .writeFile .., e => some (.error e)
  | .makeParent .., e => some (.error e)
  | .hasSpaceForWrite .., e => some (.error e)
  | .diskUsage _, e => some (.error e)
  | .evalSymlinks _, e => some (.error e)
  | .statIsDir _, e => some (.error e)
  | .containerInspect _, e => some (.error e)
  | .containerStop _, e => some (.error e)
  | .containerRemove _, e => some (.error e)
  | .containerCreate .., e => some (.error e)
  | .containerStart _, e => some (.error e)
  | .ensureNetwork _, e => some (.error e)
  | .imageInspect _, _ => some false
  | .imagePull _, e => some (.error e)
  | .effectiveEnv .., _ => none
  | .serverState _, _ => none
  | .setServerState .., _ => none
  | .deleteServerState _, _ => none

abbrev Faults := HostCall → Option Err

namespace Host

def handleFaulty (site : Site) (faults : Faults) (h : Host) (c : HostCall) : HostResp c × Host :=
  match (faults c).bind c.fault with
  | some r => (r, h)
  | none => h.handle site c

variable {site : Site} {faults : Faults} {h : Host} {c : HostCall}

theorem handleFaulty_up (hc : faults c = none) : h.handleFaulty site faults c = h.handle site c := by
  simp [handleFaulty, hc]

theorem handleFaulty_down {e : Err} {r : HostResp c} (hc : faults c = some e) (hr : c.fault e = some r) :
    h.handleFaulty site faults c = (r, h) := by
  simp [handleFaulty, hc, hr]

theorem exec_reads_faulty {α : Type} {p : Handler α} (hp : All (fun c => HostCall.reads c = true) p) :
    (p.exec (handleFaulty site faults) h).2 = h := by
  refine hp.exec (I := fun h' => h' = h) (fun h' c hc hw => ?_) rfl
  unfold handleFaulty
  split
  · exact hw
  · cases c with
    | _ => first | exact hw | cases hc

end Host

namespace Docker

variable (site : Site) (faults : Faults)

def up (c : HostCall) : Bool := (faults c).isNone

def imageReady (image : String) : Bool :=
  (up faults (.imageInspect image) && site.imagePresent image) || (up faults (.imagePull image) && (site.imagePull image).isOk)

/-- The container `Reconcile` sets out to put in the place of `old`, where it gets that far. -/
def replacement (h : Host) (req : CreateRequest) (old : Container) : Option ContainerSpec :=
  match validateCreateRequest site req, ((buildContainerMounts req.rootDir req.mounts).exec (Host.handleFaulty site faults) h).1 with
  | .ok _, .ok mounts =>
    if up faults (.ensureNetwork req) && (site.network req).isOk && up faults (.containerInspect (containerName req.serverID)) &&
        old.spec.hash ≠ site.requestHash req then
      some ⟨req, mounts, site.requestHash req⟩
    else none
  | _, _ => none

def leaves (name : String) (r : Except Err Unit × Host) : Bool × Option Container := (r.1.isOk, r.2.container name)

/-- What `Reconcile` may leave behind when it fails: a container with the old configuration or
the new one, which runs if the old one did. -/
def Keeps (req : CreateRequest) (old : Container) (r : Except Err Unit × Host) : Prop :=
  r.1.isOk = false → ∃ c, r.2.container (containerName req.serverID) = some c ∧
    (c.spec = old.spec ∨ c.spec.request = req) ∧ (old.running = true → c.running = true)

def rebuilds (spec : ContainerSpec) : Bool :=
  up faults (.containerRemove (containerName spec.request.serverID)) && imageReady site faults spec.request.image &&
    up faults (.containerCreate (containerName spec.request.serverID) spec)

/-- Where the replacement begins, either its first call that changes something fails, or none
of its calls does. -/
def spares (h : Host) (req : CreateRequest) (old : Container) : Bool :=
  (replacement site faults h req old).all fun spec =>
    if old.running then
      !up faults (.containerStop (containerName req.serverID)) ||
        (rebuilds site faults spec && up faults (.containerStart (containerName req.serverID)))
    else !up faults (.containerRemove (containerName req.serverID)) || rebuilds site faults spec

section
variable {h : Host}

theorem pull_faulty (image : String) : (((host (.imagePull image) >>= fun r => match r with
    | .error e => pure (.error ("pull image " ++ image ++ ": " ++ e))
    | .ok _ => pure (.ok ())) : Handler (Except Err Unit)).exec (handleFaulty site faults) h).1.isOk =
      (up faults (.imagePull image) && (site.imagePull image).isOk) := by
  obtain hp | ⟨e, hp⟩ := Option.eq_none_or_eq_some (faults (.imagePull image))
  · rw [host_bind, exec_call, handleFaulty_up hp]
    simp [handle, up, hp]
    cases site.imagePull image <;> rfl
  · rw [host_bind, exec_call, handleFaulty_down hp rfl]
    simp [up, hp, Except.isOk, Except.toBool]

theorem ensureImage_faulty (image : String) :
    ((ensureImage image).exec (handleFaulty site faults) h).1.isOk = imageReady site faults image := by
  unfold ensureImage
  rw [imageReady, ← @pull_faulty site faults h, host_bind, exec_call]
  obtain hi | ⟨e, hi⟩ := Option.eq_none_or_eq_some (faults (.imageInspect image))
  · rw [handleFaulty_up hi]
    by_cases hb : site.imagePresent image = true <;> simp [handle, up, hi, hb] <;> rfl
  · rw [handleFaulty_down hi rfl]
    simp only [up, hi]
    rfl

variable {name : String} {c : Container}

theorem start_faulty (hc : h.container name = some c) :
    leaves name (h.handleFaulty site faults (.containerStart name)) =
      if up faults (.containerStart name) then (true, some { c with running := true }) else (false, some c) := by
  obtain hs | ⟨e, hs⟩ := Option.eq_none_or_eq_some (faults (.containerStart name))
  · have hrun := @container_setRunning h name name true
    rw [handleFaulty_up hs]
    simp [handle, onContainer, hc] at hrun ⊢
    simpa [leaves, up, hs, Except.isOk, Except.toBool] using hrun
  · rw [handleFaulty_down hs rfl]
    simp [leaves, up, hs, hc, Except.isOk, Except.toBool]

theorem remove_faulty (hc : h.container name = some c) :
    leaves name (h.handleFaulty site faults (.containerRemove name)) =
      if up faults (.containerRemove name) then (true, none) else (false, some c) := by
  obtain hr | ⟨e, hr⟩ := Option.eq_none_or_eq_some (faults (.containerRemove name))
  · have hgone := @container_removed h name name
    rw [handleFaulty_up hr]
    simp [handle, onContainer, hc] at hgone ⊢
    simpa [leaves, up, hr, container, Except.isOk, Except.toBool] using hgone
  · rw [handleFaulty_down hr rfl]
    simp [leaves, up, hr, hc, Except.isOk, Except.toBool]

theorem createContainer_leaves (spec : ContainerSpec) (restart : Bool)
    (hnone : h.container (containerName spec.request.serverID) = none) :
    leaves (containerName spec.request.serverID) ((createContainer spec restart).exec (handleFaulty site faults) h) =
      if imageReady site faults spec.request.image && up faults (.containerCreate (containerName spec.request.serverID) spec) then
        let started := up faults (.containerStart (containerName spec.request.serverID))
        (!restart || started, some ⟨containerName spec.request.serverID, spec, restart && started⟩)
      else (false, none) := by
  rw [← ensureImage_faulty site faults (h := h)]
  unfold createContainer
  rw [exec_bind, exec_reads_faulty (reads_ensureImage _)]
  cases ((ensureImage spec.request.image).exec (handleFaulty site faults) h).1 with
  | error => simp [leaves, Except.isOk, Except.toBool, hnone]
  | ok =>
  simp only
  rw [host_bind, exec_call]
  obtain hc | ⟨e, hc⟩ := Option.eq_none_or_eq_some (faults (.containerCreate (containerName spec.request.serverID) spec))
  · have hnew : ({ h with containers := h.containers ++ [⟨containerName spec.request.serverID, spec, false⟩] } : Host).container
        (containerName spec.request.serverID) = some ⟨containerName spec.request.serverID, spec, false⟩ := by
      refine (rowAt_append _).trans ?_
      rw [show rowAt (·.name) h.containers (containerName spec.request.serverID) = none from hnone, if_pos rfl]
      rfl
    rw [handleFaulty_up hc]
    simp [handle, hnone]
    cases restart with
    | false => simp [leaves, up, hc, hnew, Except.isOk, Except.toBool]
    | true =>
      have hup : up faults (.containerCreate (containerName spec.request.serverID) spec) = true := by simp [up, hc]
      have hstart := start_faulty site faults hnew
      rw [if_pos rfl, host_bind, exec_call]
      generalize handleFaulty site faults _ (.containerStart (containerName spec.request.serverID)) = a at hstart ⊢
      obtain ⟨r, h'⟩ := a
      by_cases hs : up faults (.containerStart (containerName spec.request.serverID)) = true <;>
        cases r <;> simp_all [leaves, Except.isOk, Except.toBool]
  · rw [handleFaulty_down hc rfl]
    simp [leaves, up, hc, Except.isOk, Except.toBool, hnone]

theorem removed_leaves {h' : Host} (hc' : h'.container name = some { c with running := false }) :
    leaves name ((host (.containerRemove name) >>= fun r => match r with
      | .error e => pure (.error ("remove stale stopped container: " ++ e))
      | .ok _ => pure (.ok ()) : Handler (Except Err Unit)).exec (handleFaulty site faults) h') =
    if up faults (.containerRemove name) then (true, none) else (false, some { c with running := false }) := by
  have hr := remove_faulty site faults hc'
  rw [host_bind, exec_call, ← hr]
  generalize handleFaulty site faults h' (.containerRemove name) = a
  obtain ⟨r, h''⟩ := a
  cases r <;> rfl

theorem removeStale_leaves (hc : h.container name = some c) :
    leaves name ((removeStale name c.running).exec (handleFaulty site faults) h) =
      if c.running && !up faults (.containerStop name) then (false, some c)
      else if up faults (.containerRemove name) then (true, none)
      else (false, some { c with running := false }) := by
  unfold removeStale
  by_cases hrun : c.running = true
  · rw [if_pos hrun, host_bind, exec_call]
    obtain hs | ⟨e, hs⟩ := Option.eq_none_or_eq_some (faults (.containerStop name))
    · have hstop := @container_setRunning h name name false
      rw [handleFaulty_up hs]
      simp [handle, onContainer, hc] at hstop ⊢
      refine (removed_leaves site faults (by simpa using hstop)).trans ?_
      simp [up, hs]
    · rw [handleFaulty_down hs rfl]
      simp [leaves, up, hs, hc, hrun, Except.isOk, Except.toBool]
  · have hcc : ({ c with running := false } : Container) = c := by
      cases c
      simp_all
    rw [if_neg hrun]
    refine (removed_leaves site faults (hc.trans (congrArg some hcc.symm))).trans ?_
    simp [hrun]

theorem replace_leaves (spec : ContainerSpec) (hc : h.container (containerName spec.request.serverID) = some c) :
    leaves (containerName spec.request.serverID)
      ((removeStale (containerName spec.request.serverID) c.running >>= fun r => match r with
        | .error e => pure (.error e)
        | .ok _ => createContainer spec c.running).exec (handleFaulty site faults) h) =
      if c.running && !up faults (.containerStop (containerName spec.request.serverID)) then (false, some c)
      else if !up faults (.containerRemove (containerName spec.request.serverID)) then (false, some { c with running := false })
      else if rebuilds site faults spec then
        let started := up faults (.containerStart (containerName spec.request.serverID))
        (!c.running || started, some ⟨containerName spec.request.serverID, spec, c.running && started⟩)
      else (false, none) := by
  have hstale := removeStale_leaves site faults hc
  rw [exec_bind]
  generalize (removeStale (containerName spec.request.serverID) c.running).exec (handleFaulty site faults) h = r at hstale ⊢
  obtain ⟨r, h'⟩ := r
  by_cases hstop : (c.running && !up faults (.containerStop (containerName spec.request.serverID))) = true
  · rw [if_pos hstop] at hstale ⊢
    cases r with
    | error => exact hstale
    | ok => cases (Prod.mk.inj hstale).1
  rw [if_neg hstop] at hstale ⊢
  by_cases hremove : up faults (.containerRemove (containerName spec.request.serverID)) = true
  · rw [if_pos hremove] at hstale
    cases r with
    | error => cases (Prod.mk.inj hstale).1
    | ok =>
      refine (createContainer_leaves site faults spec c.running (Prod.mk.inj hstale).2).trans ?_
      simp [rebuilds, hremove]
  · rw [if_neg hremove] at hstale
    cases r with
    | error => simpa [hremove] using hstale
    | ok => cases (Prod.mk.inj hstale).1

/-- `Reconcile` on a server that has a container: without a replacement the container stays as
it is, otherwise the stages decide. -/
theorem reconcile_leaves {req : CreateRequest} (hc : h.container (containerName req.serverID) = some c) :
    match replacement site faults h req c with
    | none => (((reconcile site req).exec (handleFaulty site faults) h).2.container (containerName req.serverID)) = some c
    | some spec =>
      spec.request = req ∧
      leaves (containerName req.serverID) ((reconcile site req).exec (handleFaulty site faults) h) =
        if c.running && !up faults (.containerStop (containerName req.serverID)) then (false, some c)
        else if !up faults (.containerRemove (containerName req.serverID)) then (false, some { c with running := false })
        else if rebuilds site faults spec then
          let started := up faults (.containerStart (containerName req.serverID))
          (!c.running || started, some ⟨containerName req.serverID, spec, c.running && started⟩)
        else (false, none) := by
  unfold reconcile replacement
  cases validateCreateRequest site req with
  | error => exact hc
  | ok =>
  simp only
  rw [exec_bind, exec_reads_faulty (reads_buildContainerMounts _ _)]
  cases ((buildContainerMounts req.rootDir req.mounts).exec (handleFaulty site faults) h).1 with
  | error => exact hc
  | ok mounts =>
  simp only
  rw [host_bind, exec_call]
  obtain hn | ⟨e, hn⟩ := Option.eq_none_or_eq_some (faults (.ensureNetwork req))
  · have hnup : up faults (.ensureNetwork req) = true := by simp [up, hn]
    rw [handleFaulty_up hn, hnup]
    simp only [handle]
    cases hnet : site.network req with
    | error => simpa [Except.isOk, Except.toBool] using hc
    | ok =>
    simp only [inspect]
    rw [host_bind, exec_call]
    obtain hi | ⟨e, hi⟩ := Option.eq_none_or_eq_some (faults (.containerInspect (containerName req.serverID)))
    · rw [handleFaulty_up hi]
      simp only [handle, hc, Option.map_some]
      by_cases hhash : c.spec.hash = site.requestHash req
      · simpa [hhash] using hc
      · rw [if_neg hhash, if_pos (by simp [up, hi, hhash, Except.isOk, Except.toBool])]
        exact ⟨rfl, replace_leaves site faults ⟨req, mounts, site.requestHash req⟩ hc⟩
    · rw [handleFaulty_down hi rfl]
      simpa [up, hi, Except.isOk, Except.toBool] using hc
  · rw [handleFaulty_down hn rfl]
    simpa [up, hn] using hc

/-- A failed `Reconcile` keeps the workload exactly when its first call that changes something fails, or none does. -/
theorem reconcile_keeps_workload_iff (h : Host) (req : CreateRequest) (old : Container)
    (hold : h.container (containerName req.serverID) = some old) :
    Keeps req old ((reconcile site req).exec (Host.handleFaulty site faults) h) ↔ spares site faults h req old = true := by
  have hleaves := reconcile_leaves site faults hold
  unfold Keeps spares
  generalize (reconcile site req).exec (Host.handleFaulty site faults) h = r at hleaves ⊢
  cases hrep : replacement site faults h req old with
  | none =>
    rw [hrep] at hleaves
    exact ⟨fun _ => rfl, fun _ _ => ⟨old, hleaves, .inl rfl, id⟩⟩
  | some spec =>
    rw [hrep] at hleaves
    obtain ⟨hreq, hleaves⟩ := hleaves
    have hnot : up faults (.containerRemove (containerName req.serverID)) = false → rebuilds site faults spec = false := by
      intro hdown
      simp [rebuilds, hreq, hdown]
    simp [leaves] at hleaves
    simp
    cases hrun : old.running <;> cases hstop : up faults (.containerStop (containerName req.serverID)) <;>
      cases hremove : up faults (.containerRemove (containerName req.serverID)) <;>
      cases hbuild : rebuilds site faults spec <;> cases hstart : up faults (.containerStart (containerName req.serverID)) <;>
      simp_all

def upgrade : CreateRequest :=
  { serverID := someServer, image := "game:2", networkName := "gamepanel", rootDir := "/srv/" ++ someServer }

def playing : Host where
  trees := [(someServer, [])]
  containers := [⟨containerName someServer, ⟨{ upgrade with image := "game:1" }, [], "game:1"⟩, true⟩]

def offline : Faults
  | .imageInspect _ => some "no such image"
  | .imagePull _ => some "registry unreachable"
  | _ => none

theorem reconcile_keeps_workload_iff_stop : ∃ faults old, playing.container (containerName someServer) = some old ∧
    up faults (.containerStop (containerName someServer)) = false ∧
    Keeps upgrade old ((reconcile workshop upgrade).exec (Host.handleFaulty workshop faults) playing) := by
  refine ⟨fun c => if c.touches.isSome then some "daemon busy" else none, _, rfl, rfl, ?_⟩
  exact (reconcile_keeps_workload_iff _ _ _ _ _ rfl).mpr (by decide +kernel)

theorem reconcile_loses_workload : ∃ old, playing.container (containerName someServer) = some old ∧ old.running = true ∧
    ((reconcile workshop upgrade).exec (Host.handleFaulty workshop offline) playing).1 = .error "pull image game:2: registry unreachable" ∧
    ((reconcile workshop upgrade).exec (Host.handleFaulty workshop offline) playing).2.container (containerName someServer) = none ∧
    ¬ Keeps upgrade old ((reconcile workshop upgrade).exec (Host.handleFaulty workshop offline) playing) := by
  have hgone : ((reconcile workshop upgrade).exec (Host.handleFaulty workshop offline) playing).2.container
      (containerName someServer) = none := by decide +kernel
  refine ⟨_, rfl, rfl, by decide +kernel, hgone, fun hkeeps => ?_⟩
  obtain ⟨c, hc, -⟩ := hkeeps (by decide +kernel)
  exact absurd (hgone.symm.trans hc) (by simp)

end

end Docker

end ForgePlane
