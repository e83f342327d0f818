import ForgePlane.Beacon
import ForgePlane.Machine
import ForgePlane.Panel

/-!
# What a request does to a workload

Most requests leave every container of the fleet alone. Of the others each one speaks of the container of one
server on one node.
-/

namespace ForgePlane

open Beacon

/-! ## The engine and the containers -/

def Node.standing (n : Node) : String × List Container := (n.token, n.host.containers)

theorem Node.container_standing {n n' : Node} (h : n'.standing = n.standing) (name : String) :
    n'.host.container name = n.host.container name :=
  congrArg (fun st : String × List Container => rowAt Container.name st.2 name) h

section
variable {H : Sha256} {site : Site} {now offset total : Nat} {n : Node} {id credential sum : String}

namespace Engine

theorem register_standing (reg : TransferCredentialRegistration) : (register now n reg).2.standing = n.standing := by
  simp [register]
  repeat' split
  all_goals rfl

theorem prepareSource_standing : (prepareSource H site now n id credential).2.standing = n.standing := by
  simp [prepareSource]
  repeat' split
  all_goals rfl

theorem restoreDestination_standing : (restoreDestination H site now n id credential).2.standing = n.standing := by
  simp [restoreDestination]
  repeat' split
  all_goals rfl

theorem finalizeDestination_standing : (finalizeDestination H now n id credential).2.standing = n.standing := by
  simp [finalizeDestination]
  repeat' split
  all_goals rfl

theorem cleanupSource_standing : (cleanupSource H now n id credential).2.standing = n.standing := by
  simp [cleanupSource]
  repeat' split
  all_goals rfl

theorem appendDestination_standing {body : Archive} :
    (appendDestination H site now n id credential offset total sum body).2.standing = n.standing := by
  simp [appendDestination]
  repeat' split
  all_goals rfl

theorem cancel_standing : (cancel n id).standing = n.standing := by
  simp [cancel]
  split <;> rfl

end Engine

namespace Beacon

theorem cancelProtocolTransfer_standing : (cancelProtocolTransfer H now n id credential).2.standing = n.standing := by
  simp [cancelProtocolTransfer]
  repeat' split
  all_goals first | exact Engine.cancel_standing | rfl

variable {source destination : Node} {Q : Node → Prop} {dc name token : String} {α : Type}

theorem attempt_standing :
    (attempt H site now source id credential dc destination).2.standing = destination.standing := by
  simp [attempt]
  repeat' split
  all_goals first | exact Engine.appendDestination_standing | rfl

theorem pushArchive_standing : ∀ (attempts : Nat) (destination : Node),
    (pushArchive H site now source id credential dc attempts destination).2.standing = destination.standing
  | 0, _ => rfl
  | attempts + 1, destination => by
    simp [pushArchive]
    split
    · exact attempt_standing
    · exact (pushArchive_standing attempts _).trans attempt_standing

theorem prepareTransferSource_container (name : String) :
    (prepareTransferSource H site now n id credential).2.host.container name = n.host.container name ∨
      (prepareTransferSource H site now n id credential).2.host.container name =
        (n.host.container name).map fun c => { c with running := false } := by
  have hstop : ∀ serverID, All (fun c : HostCall => c.touches ≠ some name ∨ ∃ m, c = .containerStop m)
      (stopIfRunning serverID) := by
    intro serverID
    refine ⟨.inl (fun h => by cases h), forall_result fun o => ?_⟩
    cases o with
    | none => trivial
    | some actual =>
      simp [Prog.bind]
      split
      · trivial
      refine ⟨.inl (fun h => by cases h), fun st => ?_⟩
      simp [Prog.bind]
      split
      · trivial
      refine ⟨.inr ⟨_, rfl⟩, fun r => ?_⟩
      cases r <;> trivial
  unfold prepareTransferSource
  split
  · exact .inl rfl
  · rename_i r _
    have hrun := @Host.exec_stops n.host name site _ _ (hstop r.serverID)
    simp [Node.run]
    split
    · exact hrun
    · rw [Node.container_standing Engine.prepareSource_standing]
      exact hrun

theorem prepareTransferSource_token : (prepareTransferSource H site now n id credential).2.token = n.token := by
  simp [prepareTransferSource]
  repeat' split
  all_goals first | rfl | exact congrArg Prod.fst Engine.prepareSource_standing

theorem cleanupTransferSource_token : (cleanupTransferSource H site now n id credential).2.token = n.token := by
  simp [cleanupTransferSource]
  repeat' split
  all_goals first | rfl | exact congrArg Prod.fst Engine.cleanupSource_standing

theorem cleanupTransferSource_absent (hnone : n.host.container name = none) :
    (cleanupTransferSource H site now n id credential).2.host.container name = none := by
  have hremove : ∀ serverID, All (fun c : HostCall => ∀ spec, c ≠ .containerCreate name spec) (removeWorkload serverID) := by
    intro serverID
    refine ⟨fun _ h => HostCall.noConfusion h, fun r => ?_⟩
    cases r <;> trivial
  unfold cleanupTransferSource
  split
  · exact hnone
  · rename_i r _
    have hrun := @Host.exec_absent n.host name site _ _ (hremove r.serverID) hnone
    simp [Node.run]
    split
    · exact hrun
    · split
      · rw [Node.container_standing Engine.cleanupSource_standing]
        exact hrun
      · simp [host, Host.handle, Host.setState_container]
        rw [Node.container_standing Engine.cleanupSource_standing]
        exact hrun

theorem signed_elim {serve : Except Err α × Node} (hn : Q n)
    (h : token = n.token → Q serve.2) : Q (signed n token serve).2 := by
  unfold signed
  split
  · rename_i ht
    exact h ht
  · exact hn

theorem bearer_elim {serve : String → Except Err α × Node} (hn : Q n)
    (h : ∀ c, Q (serve c).2) : Q (bearer n credential serve).2 := by
  unfold bearer
  split
  · exact hn
  · exact h _

end Beacon

end

/-! ## Requests to the fleet -/

def DaemonReq.keepsWorkloads : DaemonReq → Bool
  | .registerTransferCredential .. | .pushTransferSource .. | .restoreTransferDestination ..
  | .finalizeTransferDestination .. | .cancelTransfer .. => true
  | _ => false

def DaemonReq.makesWorkloads : DaemonReq → Bool
  | .createServer .. | .syncServerConfiguration .. => true
  | _ => false

namespace Fleet

variable {H : Sha256} {sites : String → Site} {now : Nat} {f : Fleet} {u url v id credential : String} {α β : Type}

def token (f : Fleet) (url : String) : Option String := (f.node url).map (·.token)

def workload (f : Fleet) (url serverID : String) : Option Container :=
  (f.node url).bind fun n => n.host.container (containerName serverID)

theorem node_setNode (n : Node) : (f.setNode url n).node u = if u = url then (f.node u).map fun _ => n else f.node u := by
  rw [node, setNode, rowAt_updateAt url (fun r => (r.1, n)) fun _ => rfl]
  split
  · simp [node, Function.comp_def]
  · rfl

theorem node_onNode (serve : Node → Except Err α × Node) :
    (f.onNode url serve).2.node u = if u = url then (f.node u).map fun n => (serve n).2 else f.node u := by
  unfold onNode
  split
  · rename_i hn
    split
    · rename_i he
      simp [he, hn]
    · rfl
  · rename_i n hn
    rw [node_setNode]
    split
    · rename_i he
      simp [he, hn]
    · rfl

theorem map_onNode {view : Node → β} {serve : Node → Except Err α × Node}
    (h : ∀ n, u = url → view (serve n).2 = view n) :
    ((f.onNode url serve).2.node u).map view = (f.node u).map view := by
  rw [node_onNode]
  split
  · rename_i he
    rw [Option.map_map]
    exact Option.map_congr fun n _ => h n he
  · rfl

theorem standing_push {push : TransferPushRequest} :
    ((f.pushTransferSource H sites now url id credential push).2.node u).map Node.standing =
      (f.node u).map Node.standing := by
  unfold pushTransferSource
  -- the four refusals, then the upload to the destination
  iterate 4
    split
    · rfl
  refine map_onNode fun n _ => ?_
  split
  · rfl
  · exact pushArchive_standing 4 n

theorem standing_serve {q : DaemonReq} (h : q.keepsWorkloads = true ∨ u ≠ url) :
    ((f.serve H sites now url q).2.node u).map Node.standing = (f.node u).map Node.standing := by
  let Q (n n' : Node) : Prop := n'.standing = n.standing
  cases q with
  | registerTransferCredential token reg =>
    exact map_onNode fun n _ => signed_elim (Q := Q n) rfl fun _ => Engine.register_standing reg
  | pushTransferSource id credential push => exact standing_push
  | restoreTransferDestination id credential =>
    exact map_onNode fun n _ => bearer_elim (Q := Q n) rfl fun _ => Engine.restoreDestination_standing
  | finalizeTransferDestination id credential =>
    exact map_onNode fun n _ => bearer_elim (Q := Q n) rfl fun _ => Engine.finalizeDestination_standing
  | cancelTransfer id credential =>
    exact map_onNode fun n _ => bearer_elim (Q := Q n) rfl fun _ => cancelProtocolTransfer_standing
  | _ => exact map_onNode fun n he => absurd he (h.resolve_left nofun)

theorem workload_eq_standing :
    f.workload u v = ((f.node u).map Node.standing).bind fun n => rowAt (·.name) n.2 (containerName v) := by
  rw [workload, Option.bind_map]
  rfl

theorem workload_onNode (serve : Node → Except Err α × Node) : (f.onNode url serve).2.workload u v =
    if u = url then (f.node u).bind fun n => (serve n).2.host.container (containerName v) else f.workload u v := by
  rw [workload, node_onNode]
  split
  · exact Option.bind_map
  · rfl

variable {token serverID id credential : String} {q : DaemonReq} {body : CreateRequest} {diskMB : Int}

theorem workload_onHost (p : Handler (Except Err α)) :
    (f.onHost sites url token p).2.workload u v =
      if u = url ∧ f.token u = some token then
        (f.node u).bind fun n => (p.exec (Host.handle (sites u)) n.host).2.container (containerName v)
      else f.workload u v := by
  rw [onHost, workload_onNode]
  by_cases hu : u = url
  · subst hu
    cases hn : f.node u with
    | none => simp [Fleet.token, workload, hn]
    | some n =>
      by_cases ht : token = n.token
      · simp [Fleet.token, hn, signed, ht, Node.run]
      · simp [Fleet.token, hn, signed, ht, Ne.symm ht, workload]
  · simp [hu]

theorem workload_serve (h : q.keepsWorkloads = true ∨ u ≠ url) :
    (f.serve H sites now url q).2.workload u v = f.workload u v := by
  rw [workload_eq_standing, standing_serve h, workload_eq_standing]

theorem workload_prepare :
    (f.serve H sites now url (.prepareTransferSource id credential)).2.workload u v = f.workload u v ∨
      (f.serve H sites now url (.prepareTransferSource id credential)).2.workload u v =
        (f.workload u v).map fun c => { c with running := false } := by
  simp only [serve, workload_onNode]
  split
  · rw [workload]
    cases f.node u with
    | none => exact .inl rfl
    | some n =>
      simp [bearer]
      split
      · exact .inl rfl
      · exact prepareTransferSource_container _
  · exact .inl rfl

def starts (sites : String → Site) (f : Fleet) (url token serverID : String) : Bool :=
  decide (f.token url = some token) && ((f.node url).elim false fun n => n.host.startable (sites url) serverID)

theorem workload_start :
    (f.serve H sites now url (.startServer token serverID)).2.workload u v =
      if u = url ∧ f.starts sites u token serverID = true ∧ v = serverID then
        (f.workload u v).map fun c => { c with running := true }
      else f.workload u v := by
  simp [serve, workload_onHost, Host.startServer_container, containerName_inj]
  by_cases hu : u = url ∧ f.token u = some token
  · obtain ⟨rfl, ht⟩ := hu
    cases hn : f.node u with
    | none => simp [starts, workload, hn]
    | some n => simp [ht, starts, workload, hn]
  · rw [if_neg hu, if_neg]
    rintro ⟨hurl, hs, -⟩
    simp [starts] at hs
    exact hu ⟨hurl, hs.1⟩

theorem workload_delete :
    (f.serve H sites now url (.deleteServer token serverID)).2.workload u v =
      if u = url ∧ f.token u = some token ∧ v = serverID then none else f.workload u v := by
  simp [serve, workload_onHost, Host.deleteServer_container, containerName_inj]
  by_cases hu : u = url ∧ f.token u = some token
  · by_cases hv : v = serverID
    · simp [hu, hv]
    · simp [hv, workload]
  · rw [if_neg hu, if_neg fun h => hu ⟨h.1, h.2.1⟩]

theorem workload_sync {payload : Json}
    (h : u = url → ∀ n, f.node u = some n → ∀ r, Daemon.desired (sites u) n.host serverID payload = some r → r.serverID ≠ v) :
    (f.serve H sites now url (.syncServerConfiguration token serverID payload)).2.workload u v = f.workload u v := by
  simp only [serve, workload_onHost]
  split
  · rename_i hu
    obtain ⟨rfl, -⟩ := hu
    rw [workload]
    cases hn : f.node u with
    | none => rfl
    | some n =>
      refine Daemon.syncConfiguration_container fun r hr hc => ?_
      exact h rfl n hn r hr (containerName_inj.mp hc).symm
  · rfl

theorem workload_create
    (h : body.serverID ≠ v ∨ u ≠ url ∨ (f.serve H sites now url (.createServer token body diskMB)).1 ≠ .ok true ∧
      ∀ n, f.node u = some n → ∃ p, n.host.safePath body.serverID Daemon.runtimeRequestPath = .ok p) :
    (f.serve H sites now url (.createServer token body diskMB)).2.workload u v = f.workload u v := by
  simp only [serve, workload_onHost]
  split
  · rename_i hu
    obtain ⟨rfl, ht⟩ := hu
    rw [workload]
    cases hn : f.node u with
    | none => rfl
    | some n =>
      obtain hv | hne | ⟨hr, hkeep⟩ := h
      · exact Host.exec_container ((Daemon.only_createServer body diskMB).mono fun c hc =>
          hc.ne fun e => hv (containerName_inj.mp e).symm)
      · exact absurd rfl hne
      · obtain ⟨p, hp⟩ := hkeep n hn
        refine Daemon.createServer_rejected hp fun hok => hr ?_
        have htoken : token = n.token := by simpa [Fleet.token, hn, eq_comm] using ht
        simp [serve, onHost, onNode, hn, signed, htoken, Node.run, hok]
  · rfl

theorem workload_absent (hq : q.makesWorkloads = false) (hnone : f.workload u v = none) :
    (f.serve H sites now url q).2.workload u v = none := by
  by_cases hk : q.keepsWorkloads = true ∨ u ≠ url
  · rw [workload_serve hk, hnone]
  cases q with
  | prepareTransferSource id credential =>
    obtain h | h := @workload_prepare H sites now f u url v id credential <;> rw [h, hnone]
    rfl
  | cleanupTransferSource id credential =>
    simp [serve, workload_onNode]
    split
    · rw [workload] at hnone
      cases hn : f.node u with
      | none => rfl
      | some n =>
        rw [hn] at hnone
        exact bearer_elim (Q := fun n' => n'.host.container (containerName v) = none) hnone fun _ =>
          cleanupTransferSource_absent hnone
    · exact hnone
  | deleteServer token serverID => rw [workload_delete, hnone, ite_self]
  | startServer token serverID => rw [workload_start, hnone]; exact ite_self _
  | _ => first | exact absurd (.inl rfl) hk | cases hq

theorem token_create
    (h : (f.serve H sites now url (.createServer token body diskMB)).1 = .ok true) : f.token url = some token := by
  simp [serve, onHost, onNode] at h
  split at h
  · cases h
  · rename_i n hn
    simp [signed] at h
    split at h
    · rename_i ht
      simp [Fleet.token, hn, ht]
    · cases h

theorem token_serve : (f.serve H sites now url q).2.token u = f.token u := by
  let Q (n n' : Node) : Prop := n'.token = n.token
  by_cases hq : q.keepsWorkloads = true
  · have hst := congrArg (Option.map Prod.fst) (@standing_serve H sites now f u url q (.inl hq))
    simpa [Fleet.token, Function.comp_def, Node.standing] using hst
  cases q with
  | prepareTransferSource id credential =>
    exact map_onNode fun n _ => bearer_elim (Q := Q n) rfl fun _ => prepareTransferSource_token
  | cleanupTransferSource id credential =>
    exact map_onNode fun n _ => bearer_elim (Q := Q n) rfl fun _ => cleanupTransferSource_token
  | syncServerConfiguration | createServer =>
    exact map_onNode fun n _ => signed_elim (Q := Q n) rfl fun _ => rfl
  | deleteServer | startServer => exact map_onNode fun n _ => signed_elim (Q := Q n) rfl fun _ => rfl
  | _ => exact absurd rfl hq

end Fleet

/-! ## Steps of the panel over a fleet -/

def Call.isDaemon : Call → Bool
  | .daemon .. => true
  | _ => false

section
variable {H : Sha256} {sites : String → Site} {P : Platform Unit} {w w' : World Fleet} {o : Outcome}

theorem answer_daemon {url : String} {q : DaemonReq} {r : Except Err q.Val}
    (h : (panel H (Fleet.platform H sites P)).answer w (.daemon url q) o = some (r, w')) :
    w'.db = w.db ∧ ((∃ e, o = .lost e ∧ r = .error e ∧ w'.fleet = w.fleet) ∨
      w'.fleet = (w.fleet.serve H sites w.now url q).2 ∧
        (o = .delivered ∧ r = (w.fleet.serve H sites w.now url q).1 ∨ ∃ e, o = .ambiguous e ∧ r = .error e)) := by
  obtain ⟨ho, h⟩ | ⟨e, ho, hr, rfl⟩ | ⟨e, ho, hr, rfl⟩ := System.answer_cases h
  · obtain ⟨rfl, rfl⟩ := Prod.mk.inj h
    exact ⟨rfl, .inr ⟨rfl, .inl ⟨ho, rfl⟩⟩⟩
  · exact ⟨rfl, .inl ⟨e, ho, (Option.some.inj hr).symm, rfl⟩⟩
  · exact ⟨rfl, .inr ⟨rfl, .inr ⟨e, ho, (Option.some.inj hr).symm⟩⟩⟩

theorem answer_fleet {c : Call} {r : Resp c} (hc : c.isDaemon = false)
    (h : (panel H (Fleet.platform H sites P)).answer w c o = some (r, w')) : w'.fleet = w.fleet := by
  obtain rfl | rfl := System.answer_world h
  · rfl
  · cases c with
    | daemon url q => cases hc
    | _ => rfl

end

/-! ## A fleet for small runs -/

def workshop : Site where
  dataDir := "/srv"
  isIP _ := true
  isCIDR _ := true
  subnetContains _ _ := true
  requestHash r := r.image
  sprint
    | .str s => s
    | _ => ""
  render _ _ := .text ""
  ignored _ _ := false
  size a := a.length + 1
  digest _ := zeroDigest
  contentsSize _ := 1
  effectiveEnv _ env := env
  evalSymlinks p := .ok p
  isDir _ := .error "no such file or directory"
  imagePresent _ := true
  imagePull _ := .ok ()
  network _ := .ok ()

def someServer : String := "11111111-1111-4111-8111-111111111111"

def leavingDB : DB where
  nodes := [{ id := "a", baseURL := "http://a", daemonTokenID := "a", daemonToken := "t" },
            { id := "b", baseURL := "http://b", daemonTokenID := "b", daemonToken := "t" }]
  servers := [{ id := someServer, nodeID := "a", primaryAllocationID := some "p", image := "game" }]
  allocations := [{ id := "p", nodeID := "a", serverID := some someServer, ip := "1.1.1.1", port := 25565 },
                  { id := "q", nodeID := "b", ip := "1.1.1.2", port := 25565 }]
  migrations := [{ id := "m", serverID := someServer, sourceNodeID := "a", targetNodeID := "b", status := .preparing }]
  runs := [{ migrationID := "m", idempotencyKey := "k", targetAllocationID := some "q" }]
  allocationReservations := [⟨"q", "m"⟩]

def installed (n : Node) (t : ServerProvisionTarget) : Node :=
  let created := (n.run workshop (Daemon.createServer workshop (Service.runtimeCreateRequest t) t.diskMB)).2
  (created.run workshop (Daemon.syncConfiguration workshop t.serverID (Service.runtimeConfiguration t))).2

def homeNode : Node :=
  match leavingDB.serverProvisionTarget someServer with
  | .ok t => installed { token := "a.t" } t
  | .error _ => {}

def twoNodes : Fleet := [("http://a", homeNode), ("http://b", { token := "b.t" })]

def leaving : Config Resp Task (World Fleet) :=
  ⟨{ db := leavingDB, now := 1000, fleet := twoNodes }, [(.run "w" "m", Task.program zeroSha (.run "w" "m"))]⟩

def sampleFleet : Platform Fleet := Fleet.platform zeroSha (fun _ => workshop) obliging

end ForgePlane
