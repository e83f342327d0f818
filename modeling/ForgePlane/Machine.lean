import ForgePlane.Configuration

/-!
# Handlers on a node's machine

What running a handler leaves of the machine: which container it can change, and
for the handlers of the container runtime what they come to exactly.
-/

namespace ForgePlane

open Prog Host

/-! ## Handlers and one container -/

def HostCall.touches : HostCall → Option String
  | .containerStop name | .containerRemove name | .containerCreate name _ | .containerStart name => some name
  | _ => none

variable {h f : Host} {name other : String} {site : Site} {α : Type} {c : HostCall} {p : Handler α}

namespace Host

attribute [local simp] handle

variable {other : String}
@[simp] theorem setTree_container (serverID : String) (t : Option Tree) :
    (h.setTree serverID t).container name = h.container name := rfl

@[simp] theorem setState_container (serverID : String) (st : Option ServerState) :
    (h.setState serverID st).container name = h.container name := rfl

@[simp] theorem rooted_container (serverID : String) : (h.rooted serverID).container name = h.container name := by
  unfold rooted
  split <;> rfl

theorem container_updateContainer (f : Container → Container) (hf : ∀ c, (f c).name = c.name) :
    (h.updateContainer other f).container name = if name = other then (h.container name).map f else h.container name :=
  rowAt_updateAt other f hf

theorem container_removed :
    rowAt (·.name) (deleteWhere (fun c : Container => c.name = other) h.containers) name =
      if name = other then none else h.container name :=
  rowAt_deleteAt other

theorem onContainer_ne (hf : f.container name = h.container name) :
    (h.onContainer other f).2.container name = h.container name := by
  unfold onContainer
  split
  · rfl
  · exact hf

theorem handle_container (hc : c.touches ≠ some name) : (h.handle site c).2.container name = h.container name := by
  cases c with
  | containerStop other =>
    have hne : name ≠ other := fun e => hc (by rw [e]; rfl)
    exact onContainer_ne (by rw [container_updateContainer (fun c => { c with running := false }) fun _ => rfl, if_neg hne])
  | containerStart other =>
    have hne : name ≠ other := fun e => hc (by rw [e]; rfl)
    exact onContainer_ne (by rw [container_updateContainer (fun c => { c with running := true }) fun _ => rfl, if_neg hne])
  | containerRemove other =>
    have hne : name ≠ other := fun e => hc (by rw [e]; rfl)
    exact onContainer_ne (container_removed.trans (if_neg hne))
  | containerCreate other =>
    have hne : other ≠ name := fun e => hc (by rw [e]; rfl)
    simp [handle]
    split
    · rfl
    · simp [container, rowAt_append, hne]
  | serverRoot id =>
    simp [handle]
    split
    · rfl
    · exact rooted_container id
  | writeFile id path =>
    simp [handle, writeFile]
    cases h.safePath id path <;> rfl
  | makeParent =>
    simp [handle]
    split <;> rfl
  | _ => rfl

theorem exec_container (hp : All (fun c => c.touches ≠ some name) p) :
    (p.exec (handle site) h).2.container name = h.container name :=
  hp.exec (I := fun h' : Host => h'.container name = h.container name) (fun _ _ hc hw => (handle_container hc).trans hw) rfl

theorem container_setRunning (b : Bool) :
    (h.onContainer other (h.updateContainer other fun c => { c with running := b })).2.container name =
      if name = other then (h.container name).map fun c => { c with running := b } else h.container name := by
  unfold onContainer
  split
  · rename_i hnone
    split
    · rename_i he
      rw [he, hnone]
      rfl
    · rfl
  · exact container_updateContainer (fun c => { c with running := b }) fun _ => rfl

def startable (site : Site) (h : Host) (serverID : String) : Bool :=
  let st := h.state serverID
  !st.installing && !st.suspended && st.configurationSynced && decide (st.rootDir ≠ "") &&
    (decide (st.diskLimitBytes ≤ 0) || decide ((usage site ((h.tree serverID).getD []) : Int) ≤ st.diskLimitBytes))

theorem startServer_container (serverID : String) :
    ((Daemon.startServer serverID).exec (handle site) h).2.container name =
      if h.startable site serverID = true ∧ name = containerName serverID then
        (h.container name).map fun c => { c with running := true }
      else h.container name := by
  have hstart := @container_setRunning h name (containerName serverID) true
  simp [Daemon.startServer, startable, host, handle]
  by_cases hi : (h.state serverID).installing = true
  · simp [hi]
  by_cases hs : (h.state serverID).suspended = true
  · simp [hi, hs]
  by_cases hc : (h.state serverID).configurationSynced = true
  case neg => simp [hi, hs, hc]
  by_cases hr : (h.state serverID).rootDir = ""
  · simp [hi, hs, hc, hr]
  by_cases hd : (h.state serverID).diskLimitBytes ≤ 0
  · simpa [hi, hs, hc, hr, hd, handle, Int.not_lt.mpr hd] using hstart
  by_cases hu : (usage site ((h.tree serverID).getD []) : Int) ≤ (h.state serverID).diskLimitBytes
  · simpa [hi, hs, hc, hr, hd, hu, handle, Int.not_lt.mpr hu] using hstart
  · simp [hi, hs, hc, hr, hd, hu, handle, Int.not_le.mp hu, Int.not_le.mp hd]

theorem exec_absent (hp : All (fun c => ∀ spec, c ≠ .containerCreate name spec) p)
    (hnone : h.container name = none) : (p.exec (handle site) h).2.container name = none := by
  refine hp.exec (I := fun h' : Host => h'.container name = none) (fun h' c hc hw => ?_) hnone
  by_cases ht : c.touches = some name
  · have hmissing : ∀ f, (h'.onContainer name f).2 = h' := by
      intro f
      rw [onContainer, hw]
    cases c with
    | containerStop | containerStart | containerRemove => cases ht; simp [handle, hmissing, hw]
    | containerCreate n spec => cases ht; exact absurd rfl (hc spec)
    | _ => cases ht
  · rw [handle_container ht, hw]

theorem exec_stops (hp : All (fun c => c.touches ≠ some name ∨ ∃ n, c = .containerStop n) p) :
    (p.exec (handle site) h).2.container name = h.container name ∨
      (p.exec (handle site) h).2.container name = (h.container name).map fun c => { c with running := false } := by
  refine hp.exec (I := fun h' : Host => h'.container name = h.container name ∨
    h'.container name = (h.container name).map fun c => { c with running := false }) (fun h' c hc hw => ?_) (.inl rfl)
  obtain hc | ⟨n, rfl⟩ := hc
  · rw [handle_container hc]
    exact hw
  · have hstop := @container_setRunning h' name n false
    simp [handle]
    rw [hstop]
    split
    · -- stopping twice is stopping once
      refine .inr ?_
      obtain hw | hw := hw <;> rw [hw]
      rw [Option.map_map]
      rfl
    · exact hw

theorem deleteServer_container (serverID : String) :
    ((Daemon.deleteServer serverID).exec (handle site) h).2.container name =
      if name = containerName serverID then none else h.container name := by
  simp [Daemon.deleteServer, host, handle, onContainer]
  cases hc : h.container (containerName serverID) with
  | none =>
    simp only [exec_ret]
    split
    · rename_i he
      rw [he, hc]
    · rfl
  | some =>
    simp [handle]
    exact container_removed

end Host

def HostCall.reads : HostCall → Bool
  | .readFile .. | .hasSpaceForWrite .. | .diskUsage _ | .evalSymlinks _ | .statIsDir _ | .containerInspect _
  | .ensureNetwork _ | .imageInspect _ | .imagePull _ | .effectiveEnv .. | .serverState _ => true
  | _ => false

def HostCall.resolves : HostCall → Bool
  | .evalSymlinks _ => true
  | _ => false

theorem HostCall.reads_of_resolves (h : c.resolves = true) : c.reads = true := by
  cases c <;> first | rfl | cases h

def HostCall.Only (name : String) (c : HostCall) : Prop := ∀ other, c.touches = some other → other = name

theorem HostCall.only_reads (h : c.reads = true) : c.Only name := by
  cases c <;> first | (intro _ ht; cases ht; done) | cases h

def HostCall.About (name : String) (c : HostCall) : Prop := c.reads = true ∨ c.touches = some name

theorem HostCall.About.only (h : c.About name) : c.Only name := by
  obtain h | h := h
  · exact HostCall.only_reads h
  · exact fun _ ht => Option.some.inj (ht.symm.trans h)

theorem HostCall.Only.ne (h : c.Only name) (hne : other ≠ name) :
    c.touches ≠ some other := fun ht => hne (h other ht)

theorem Host.exec_reads (hp : All (fun c => HostCall.reads c = true) p) : (p.exec (handle site) h).2 = h := by
  refine hp.exec (I := fun h' => h' = h) (fun h' c hc hw => ?_) rfl
  cases c with
  | _ => first | exact hw | cases hc

namespace Docker

theorem reads_buildContainerMounts (rootDir : String) (custom : List Mount) :
    All (fun c => HostCall.reads c = true) (buildContainerMounts rootDir custom) := by
  refine All.bind (p := validateRootDir rootDir) ?_ fun r => ?_
  · unfold validateRootDir
    split
    · trivial
    split
    · trivial
    refine ⟨rfl, fun r => ?_⟩
    cases r <;> trivial
  · cases r with
    | error => trivial
    | ok =>
      simp only
      split <;> trivial

theorem reads_ensureImage (image : String) : All (fun c => HostCall.reads c = true) (ensureImage image) := by
  refine ⟨rfl, fun r => ?_⟩
  cases r with
  | true => trivial
  | false =>
    refine ⟨rfl, fun r => ?_⟩
    cases r <;> trivial

def plan (site : Site) (h : Host) (req : CreateRequest) : Except Err ContainerSpec :=
  match validateCreateRequest site req with
  | .error e => .error e
  | .ok _ =>
  match ((buildContainerMounts req.rootDir req.mounts).exec (Host.handle site) h).1 with
  | .error e => .error e
  | .ok mounts =>
  match site.network req with
  | .error e => .error e
  | .ok _ =>
  match ((ensureImage req.image).exec (Host.handle site) h).1 with
  | .error e => .error e
  | .ok _ => .ok ⟨req, mounts, site.requestHash req⟩

theorem reconcile_absent {req : CreateRequest} (hnone : h.container (containerName req.serverID) = none) :
    (reconcile site req).exec (handle site) h =
      match plan site h req with
      | .error e => (.error e, h)
      | .ok spec => (.ok (), { h with containers := h.containers ++ [⟨containerName req.serverID, spec, false⟩] }) := by
  unfold reconcile plan
  cases validateCreateRequest site req with
  | error => rfl
  | ok =>
  simp only
  rw [exec_bind, exec_reads (reads_buildContainerMounts _ _)]
  cases ((buildContainerMounts req.rootDir req.mounts).exec (handle site) h).1 with
  | error => rfl
  | ok =>
  simp [host, handle]
  cases site.network req with
  | error => rfl
  | ok =>
  simp [inspect, host, handle, hnone, createContainer]
  rw [exec_bind, exec_reads (reads_ensureImage _)]
  cases ((ensureImage req.image).exec (handle site) h).1 with
  | error => rfl
  | ok =>
  simp [handle, hnone]

theorem create_exec (req : CreateRequest) :
    (create site req).exec (handle site) h =
      match h.container (containerName req.serverID) with
      | some _ => (.error ("workload " ++ req.serverID ++ " already exists"), h)
      | none =>
        match plan site h req with
        | .error e => (.error e, h)
        | .ok spec => (.ok (), { h with containers := h.containers ++ [⟨containerName req.serverID, spec, false⟩] }) := by
  simp [create, inspect, host, handle]
  cases hc : h.container (containerName req.serverID) with
  | some => rfl
  | none => exact reconcile_absent hc

theorem about_createContainer (spec : ContainerSpec) (restart : Bool) :
    All (HostCall.About (containerName spec.request.serverID)) (createContainer spec restart) := by
  refine ((reads_ensureImage _).mono fun _ => .inl).ok (fun _ => ?_) fun _ => trivial
  refine All.ok ⟨.inr rfl, fun _ => trivial⟩ (fun _ => ?_) fun _ => trivial
  cases restart with
  | false => trivial
  | true =>
    refine ⟨.inr rfl, fun r => ?_⟩
    cases r <;> trivial

theorem about_removeStale (name : String) (running : Bool) : All (HostCall.About name) (removeStale name running) := by
  have hstop : All (HostCall.About name) (if running then host (.containerStop name) else pure (.ok ())) := by
    cases running with
    | false => trivial
    | true => exact ⟨.inr rfl, fun _ => trivial⟩
  refine hstop.ok (fun _ => ?_) fun _ => trivial
  refine ⟨.inr rfl, fun r => ?_⟩
  cases r <;> trivial

theorem about_reconcile (req : CreateRequest) :
    All (HostCall.About (containerName req.serverID)) (reconcile site req) := by
  unfold reconcile
  split
  · trivial
  have hmounts : All (HostCall.About (containerName req.serverID)) (buildContainerMounts req.rootDir req.mounts) :=
    (reads_buildContainerMounts _ _).mono fun _ => .inl
  refine hmounts.ok (fun mounts => ?_) fun _ => trivial
  refine All.ok ⟨.inl rfl, fun _ => trivial⟩ (fun _ => ?_) fun _ => trivial
  refine ⟨.inl rfl, fun r => ?_⟩
  match r with
  | .error e => trivial
  | .ok none => exact about_createContainer _ false
  | .ok (some existing) =>
    simp [Prog.bind]
    split
    · trivial
    refine (about_removeStale _ _).ok (fun _ => ?_) fun _ => trivial
    exact about_createContainer _ _

theorem about_create (req : CreateRequest) : All (HostCall.About (containerName req.serverID)) (create site req) := by
  refine ⟨.inl rfl, fun r => ?_⟩
  match r with
  | .error e => trivial
  | .ok none => exact about_reconcile req
  | .ok (some _) => trivial

end Docker

/-! ## Configuring and creating -/

section
variable {site : Site} {h : Host} {name serverID : String} {payload : Json} {r body : CreateRequest}

namespace Daemon

theorem resolves_withinAllowed (canonical : String) : ∀ allowed, All (fun c => HostCall.resolves c = true) (withinAllowed canonical allowed)
  | [] => trivial
  | permitted :: rest => by
    unfold withinAllowed
    split
    · exact resolves_withinAllowed canonical rest
    refine ⟨rfl, forall_result (fun p => ?_) fun _ => resolves_withinAllowed canonical rest⟩
    simp [Prog.bind]
    split
    · trivial
    · exact resolves_withinAllowed canonical rest

theorem resolves_allowedMountSource (source : String) : All (fun c => HostCall.resolves c = true) (allowedMountSource site source) := by
  unfold allowedMountSource
  split
  · trivial
  split
  · trivial
  refine All.ok ⟨rfl, fun _ => trivial⟩ (fun canonical => ?_) fun _ => trivial
  refine (resolves_withinAllowed canonical site.allowedMounts).bind fun b => ?_
  cases b <;> trivial

theorem resolves_runtimeMounts : ∀ mounts, All (fun c => HostCall.resolves c = true) (runtimeMounts site mounts)
  | [] => trivial
  | m :: rest => by
    have hmount : All (fun c => HostCall.resolves c = true) (runtimeMount site m) := by
      unfold runtimeMount
      refine (resolves_allowedMountSource m.source).ok (fun source => ?_) fun _ => trivial
      dsimp only
      generalize cleanPath (trimSpace m.target) = target
      repeat' split
      all_goals trivial
    unfold runtimeMounts
    refine hmount.ok (fun m => ?_) fun _ => trivial
    refine (resolves_runtimeMounts rest).bind fun r => ?_
    cases r <;> trivial

theorem resolves_runtimeMountsFromConfiguration :
    All (fun c => HostCall.resolves c = true) (runtimeMountsFromConfiguration site payload) := by
  unfold runtimeMountsFromConfiguration
  split
  · trivial
  split
  · trivial
  · exact resolves_runtimeMounts _

theorem reads_runtimeRequestFromConfiguration :
    All (fun c => HostCall.reads c = true) (runtimeRequestFromConfiguration site serverID payload) := by
  refine ⟨rfl, fun r => ?_⟩
  match r with
  | .error e => trivial
  | .ok none => trivial
  | .ok (some contents) =>
  simp [Prog.bind]
  split
  · trivial
  refine (resolves_runtimeMountsFromConfiguration.mono fun _ => HostCall.reads_of_resolves).bind fun r => ?_
  cases r <;> trivial

theorem untouched_storeConfiguration :
    All (fun c => HostCall.touches c = none) (storeConfiguration site serverID payload) := by
  have hfiles : ∀ env files, All (fun c => HostCall.touches c = none) (writeConfigurationFiles site serverID env files) := by
    intro env files
    induction files with
    | nil => trivial
    | cons file rest ih =>
      unfold writeConfigurationFiles
      split
      · exact ih
      iterate 3
        refine All.ok ⟨rfl, fun _ => trivial⟩ (fun _ => ?_) fun _ => trivial
      exact ih
  refine All.ok ⟨rfl, fun _ => trivial⟩ (fun _ => ?_) fun _ => trivial
  simp
  unfold applyConfigurationFiles
  split
  · exact hfiles _ _
  · trivial

def desired (site : Site) (h : Host) (serverID : String) (payload : Json) : Option CreateRequest :=
  let stored := (storeConfiguration site serverID payload).exec (Host.handle site) h
  match stored.1, ((runtimeRequestFromConfiguration site serverID payload).exec (Host.handle site) stored.2).1 with
  | .ok _, .ok r => r
  | _, _ => none

theorem about_reconcileRuntimeConfiguration (r : CreateRequest) :
    All (HostCall.About (containerName r.serverID)) (reconcileRuntimeConfiguration site r) := by
  refine ⟨.inl rfl, fun answer => ?_⟩
  match answer with
  | .error e => trivial
  | .ok none => exact Docker.about_create r
  | .ok (some _) => exact Docker.about_reconcile r

theorem syncConfiguration_container (hdesired : ∀ r, desired site h serverID payload = some r →
    name ≠ containerName r.serverID) :
    ((syncConfiguration site serverID payload).exec (handle site) h).2.container name = h.container name := by
  have hstore : ((storeConfiguration site serverID payload).exec (handle site) h).2.container name =
      h.container name :=
    exec_container (untouched_storeConfiguration.mono fun c hc => by rw [hc]; nofun)
  unfold syncConfiguration
  split
  · rfl
  rw [exec_bind, ← hstore]
  unfold desired at hdesired
  generalize (storeConfiguration site serverID payload).exec (handle site) h = stored at hdesired
  cases hs : stored.1 with
  | error => rfl
  | ok =>
  simp [hs] at hdesired
  simp [applyStoredRequest, bind_assoc]
  rw [exec_bind, exec_reads reads_runtimeRequestFromConfiguration]
  cases hr : ((runtimeRequestFromConfiguration site serverID payload).exec (handle site) stored.2).1 with
  | error => rfl
  | ok request =>
  refine exec_container ?_
  cases request with
  | none => exact ⟨nofun, fun _ => ⟨nofun, fun _ => trivial⟩⟩
  | some r =>
    have hne := hdesired r (by rw [hr])
    dsimp only
    rw [bind_assoc]
    refine All.ok ((about_reconcileRuntimeConfiguration r).mono fun c hc => hc.only.ne hne) (fun _ => ?_) fun _ => trivial
    refine All.ok ⟨nofun, fun _ => trivial⟩ (fun _ => ?_) fun _ => trivial
    exact ⟨nofun, fun _ => ⟨nofun, fun _ => trivial⟩⟩

end Daemon

namespace Host

theorem tree_setTree (other : String) (t : Option Tree) :
    (h.setTree serverID t).tree other = if other = serverID then t else h.tree other := by
  cases t with
  | none =>
    simp [tree, setTree, rowAt_deleteAt]
    split <;> rfl
  | some =>
    simp [tree, setTree, rowAt_append, rowAt_deleteAt]
    by_cases hs : other = serverID
    · simp [hs]
    · simp [hs, Ne.symm hs]

theorem safePath_rooted (path : String) : (h.rooted serverID).safePath serverID path = h.safePath serverID path := by
  have hlook : ∀ q : FilePath, ((h.rooted serverID).tree serverID).bind (·.lookup q) =
      (h.tree serverID).bind (·.lookup q) := by
    intro q
    unfold rooted
    split
    · rename_i hn
      rw [tree_setTree, if_pos rfl, Option.isNone_iff_eq_none.mp hn]
      rfl
    · rfl
  simp only [safePath, hlook]

end Host

namespace Daemon

theorem only_provision (r : CreateRequest) (diskMB : Int) :
    All (HostCall.Only (containerName r.serverID)) (provision site r diskMB) := by
  refine ((Docker.about_create r).mono fun _ => HostCall.About.only).ok (fun _ => ?_) fun _ => trivial
  refine All.ok ⟨nofun, fun _ => trivial⟩ (fun _ => ?_) fun _ => trivial
  exact ⟨nofun, fun _ => ⟨nofun, fun _ => trivial⟩⟩

theorem only_createServer (body : CreateRequest) (diskMB : Int) :
    All (HostCall.Only (containerName body.serverID)) (createServer site body diskMB) := by
  unfold createServer
  split
  · trivial
  split
  · trivial
  refine All.ok ⟨nofun, fun _ => trivial⟩ (fun rootDir => ?_) fun _ => trivial
  have hmounts : All (HostCall.Only (containerName body.serverID)) (runtimeMounts site body.mounts) :=
    (resolves_runtimeMounts body.mounts).mono fun _ hc => HostCall.only_reads (HostCall.reads_of_resolves hc)
  refine hmounts.ok (fun mounts => ?_) fun _ => trivial
  exact ⟨nofun, fun env => only_provision (localRequest body rootDir mounts env) diskMB⟩

theorem provision_exec {p : FilePath} (diskMB : Int)
    (hkeep : h.safePath r.serverID runtimeRequestPath = .ok p) :
    (∃ e, (provision site r diskMB).exec (handle site) h = (.error e, h)) ∨
      ((provision site r diskMB).exec (handle site) h).1 = .ok true := by
  unfold provision
  rw [exec_bind, Docker.create_exec]
  cases h.container (containerName r.serverID) with
  | some => exact .inl ⟨_, rfl⟩
  | none =>
  cases Docker.plan site h r with
  | error e => exact .inl ⟨e, rfl⟩
  | ok =>
    refine .inr ?_
    have hsafe : ∀ cs, ({ h with containers := cs } : Host).safePath r.serverID runtimeRequestPath = .ok p := fun _ => hkeep
    simp [persistRuntimeRequest, host, handle, writeFile, hsafe]

theorem createServer_rejected {diskMB : Int} {p : FilePath}
    (hkeep : h.safePath body.serverID runtimeRequestPath = .ok p)
    (hr : ((createServer site body diskMB).exec (handle site) h).1 ≠ .ok true) :
    ((createServer site body diskMB).exec (handle site) h).2.container name = h.container name := by
  revert hr
  unfold createServer
  split
  · exact fun _ => rfl
  split
  · exact fun _ => rfl
  simp [host, handle]
  cases h.safePath body.serverID "" with
  | error => exact fun _ => rfl
  | ok =>
  have hroot : (h.rooted body.serverID).container name = h.container name := rooted_container _
  rw [← hroot]
  rw [← safePath_rooted] at hkeep
  rw [exec_bind, exec_reads ((resolves_runtimeMounts _).mono fun _ => HostCall.reads_of_resolves)]
  cases ((runtimeMounts site body.mounts).exec (handle site) (h.rooted body.serverID)).1 with
  | error => exact fun _ => rfl
  | ok mounts =>
  intro hr
  let request := localRequest body (site.root body.serverID) mounts (site.effectiveEnv body.serverID body.env)
  obtain ⟨e, he⟩ | hok := @provision_exec site (h.rooted body.serverID) request p diskMB hkeep
  · exact congrArg (fun r => r.2.container name) he
  · exact absurd hok hr

end Daemon

end

end ForgePlane
