import ColoManage.ConnectPeer
import ColoManage.RemoteClient

/-!
# After the peer is lost

Where a handler notices that a call has failed it sets `peer_init` to false, and
`colod_colo_enable` means to reset `local_status`: it compares where it should
assign.  The check at its start looks at `local_status` alone, which only a
connection, a status from the peer and a restart change.
-/

namespace ColoManage

open EventSystem Resumption

/-! ## The property -/

/-- The reply of a call that `error_code()` does not report as a success. -/
def rpcFailed : Option ValueT → Bool
  | none => true
  | some reply => decide (reply.code ≠ .success)

/-- The handler comes to a place where it sets `peer_init` to false or means to
reset `local_status`: after a failed call, and in an enable also after a
refusal of the peer or of the save file.  A connect-peer has no such place. -/
def losesPeer (env : Env) (script : Script) (nd : Node) : Request → Bool
  | .connectPeer _ => false
  | .coloEnable domainName =>
      match (colodColoEnable env domainName nd).follow Node.osAfter script with
      | .returned ret nd' => decide (ret.code < 0 ∧ nd'.log ≠ nd.log)
      | .crashed _ => false
  | req => (handle env req nd).hears Node.osAfter rpcFailed script

/-- A successful connect-peer or a status from the peer. -/
def findsPeer (env : Env) (script : Script) (nd : Node) : Request → Bool
  | .connectPeer configFilePath =>
      match (colodConnectPeer env configFilePath nd).follow Node.osAfter script with
      | .returned ret _ => decide (0 ≤ ret.code)
      | .crashed _ => false
  | .peerSaveStatus _ => true
  | _ => false

/-- The role that a request gives to the node, by its document or its argument. -/
def givenRole (nd : Node) (role : ColoNodeStatus) : Request → ColoNodeStatus
  | .connectPeer configFilePath =>
      match nd.loadFile configFilePath with
      | none => role
      | some config => (nd.configured config).currentStatus.localStatus
  | .peerSaveStatus cs => (mirrorStatus cs).localStatus
  | _ => role

/-- A server, whether its peer has been lost and not been found again, and the
role that it was given last. -/
structure Watch where
  server : Server
  lost : Bool
  role : ColoNodeStatus

namespace Watch

def start (server : Server) : Watch := ⟨server, false, server.node.currentStatus.localStatus⟩

def step (w : Watch) (event : ServerEvent) : Watch :=
  let server := w.server.step event
  match event with
  | .request req env script =>
      if w.server.up then
        ⟨server, !findsPeer env script w.server.node req &&
          (w.lost || losesPeer env script w.server.node req), givenRole w.server.node w.role req⟩
      else ⟨server, w.lost, w.role⟩
  | .restart => ⟨server, w.lost, .none⟩
  | _ => ⟨server, w.lost, w.role⟩

end Watch

/-- The enable ends at its connection check: no record is touched, in the table
or the file, and the peer is not called. -/
def RefusedAtCheck (env : Env) (domainName : String) (nd : Node) : Prop :=
  ∃ ret nd', colodColoEnable env domainName nd = .done ret nd' ∧ ret.code < 0 ∧
    nd'.domains = nd.domains ∧ nd'.save = nd.save ∧ nd'.log = nd.log

/-- While the peer is lost every enable is refused at its check. -/
def RefusedWhileLost (w : Watch) : ServerEvent → Prop
  | .request (.coloEnable domainName) env _ => w.server.up = true → w.lost = true →
      RefusedAtCheck env domainName w.server.node
  | _ => True

/-- While the peer is lost an enable comes only to a node that was given no role last. -/
def NoRoleWhileLost (w : Watch) : ServerEvent → Prop
  | .request (.coloEnable _) _ _ => w.server.up = true → w.lost = true →
      w.role = .none ∨ w.role = .error
  | _ => True

/-! ## The check -/

theorem not_done_remoteCall {request : Request} {nd nd' : Node} {k : ValueT → Node → Colod}
    {ret : ColodRetVal} : nd.remoteCall request k ≠ .done ret nd' := by
  cases husable : nd.remoteClient.usable with
  | false =>
      rw [Node.remoteCall_of_not_usable husable]
      nofun
  | true =>
      rw [Node.remoteCall_of_usable husable]
      nofun

theorem refusedAtCheck_iff (env : Env) (domainName : String) (nd : Node) :
    RefusedAtCheck env domainName nd ↔
      nd.currentStatus.localStatus = .none ∨ nd.currentStatus.localStatus = .error := by
  unfold RefusedAtCheck colodColoEnable
  by_cases hrole : nd.currentStatus.localStatus = .none ∨ nd.currentStatus.localStatus = .error
  · simp only [hrole, if_true, iff_true]
    exact ⟨_, nd, rfl, by simp, rfl, rfl, rfl⟩
  · simp only [hrole, if_false, iff_false]
    rintro ⟨ret, nd', hdone, -⟩
    -- Past the check the handler calls the peer or dies on the way.
    rcases (nd.modDom domainName _).ensureRemoteClient_cases env with
      hclient | ⟨-, hclient⟩ | ⟨-, hclient⟩
    · rw [hclient] at hdone
      nomatch hdone
    · rw [hclient] at hdone
      exact not_done_remoteCall hdone
    · rw [hclient] at hdone
      exact not_done_remoteCall hdone

/-! ## The role of the node

No other handler changes the status on record, whatever it notices. -/

abbrev KeepsStatus (cs : ColoStatus) (act : Colod) : Prop :=
  act.Post Node.Meanwhile (fun _ nd => nd.currentStatus = cs) (fun _ nd => nd.currentStatus = cs)
    fun nd => nd.currentStatus = cs

section

variable {nd : Node} {cs : ColoStatus}

theorem keepsStatus_remoteCall {request : Request} {k : ValueT → Node → Colod}
    (h : nd.currentStatus = cs)
    (hk : ∀ ret nd', nd'.currentStatus = cs → KeepsStatus cs (k ret nd')) :
    KeepsStatus cs (nd.remoteCall request k) :=
  Node.post_remoteCall (fun _ hwait => hwait.currentStatus.trans h)
    (fun _ _ hwait => hwait.currentStatus.trans h)
    fun ret nd' hwait => hk ret nd' (hwait.currentStatus.trans h)

theorem keepsStatus_checkReply {failure : String} {ret : ValueT} {k : Node → Colod}
    (h : nd.currentStatus = cs) (hk : KeepsStatus cs (k nd)) :
    KeepsStatus cs (checkReply failure ret nd k) :=
  post_checkReply h h hk

theorem keepsStatus_checkQmp {env : Env} {cmds : List String} {failure : String}
    {k : Node → Colod} (h : nd.currentStatus = cs)
    (hk : ∀ texts, KeepsStatus cs (k (nd.sentQmp texts))) :
    KeepsStatus cs (checkQmp failure (nd.sendQmpCmds env cmds) k) :=
  post_checkQmp (fun _ => h) (fun _ => h) hk

theorem colodConnectStatus_keepsStatus (h : nd.currentStatus = cs) :
    KeepsStatus cs (colodConnectStatus nd) := by
  unfold colodConnectStatus
  split
  · refine keepsStatus_remoteCall h ?_
    intro ret nd' hnd'
    split
    · exact hnd'
    · exact hnd'
  · exact h

theorem colodDefine_keepsStatus (h : nd.currentStatus = cs) (vmFilePath : String) :
    KeepsStatus cs (colodDefine vmFilePath nd) := by
  unfold colodDefine
  split
  · exact h
  · exact h
  · rename_i d nd' hdefine
    obtain ⟨doc, -, -, rfl⟩ := Node.vmDefine_eq_ok hdefine
    have hwrite := (Node.steady_saveNewVmFile doc d.name nd.currentStatus.hostFilePath
      nd).currentStatus.trans h
    dsimp only
    split
    · exact hwrite
    · exact hwrite

theorem colodUndefine_keepsStatus (h : nd.currentStatus = cs) (domainName : String) :
    KeepsStatus cs (colodUndefine domainName nd) := by
  have htest := (Node.steady_testDomainStatus domainName nd).currentStatus.trans h
  unfold colodUndefine
  dsimp only
  split
  · exact htest
  · exact htest

theorem currentStatus_colodListLoop (showAll : Bool) (keys : List String) (retVal : String)
    (nd : Node) : (colodListLoop showAll keys retVal nd).2.currentStatus = nd.currentStatus := by
  induction keys generalizing retVal nd with
  | nil => rfl
  | cons key keys ih =>
      unfold colodListLoop
      dsimp only
      split
      · exact (ih _ _).trans (Node.testDomainStatus_currentStatus key nd)
      · exact (ih _ _).trans (Node.testDomainStatus_currentStatus key nd)

theorem colodList_keepsStatus (h : nd.currentStatus = cs) (showAll : Bool) :
    KeepsStatus cs (colodList showAll nd) := by
  unfold colodList
  split
  · exact h
  · exact (currentStatus_colodListLoop showAll _ _ nd).trans h

theorem startQmp_keepsStatus (h : nd.currentStatus = cs) (env : Env) (domainName : String)
    (role : ColoDomainStatus) (d : Domain) :
    KeepsStatus cs (startQmp env domainName role d nd) := by
  unfold startQmp
  dsimp only
  split
  · refine keepsStatus_remoteCall h ?_
    intro ret nd' hnd'
    exact keepsStatus_checkReply hnd' (keepsStatus_checkQmp hnd' fun _ => hnd')
  · refine keepsStatus_checkQmp h ?_
    intro texts
    refine keepsStatus_remoteCall h ?_
    intro ret nd' hnd'
    exact keepsStatus_checkReply hnd' hnd'
  · exact h

theorem startHost_keepsStatus (h : nd.currentStatus = cs) (env : Env) (domainName : String)
    (role : ColoDomainStatus) (d : Domain) :
    KeepsStatus cs (startHost env domainName role d nd) := by
  have hlaunched := (Node.steady_runNewVm env d.name
    (coloCmd role d nd.currentStatus) nd).currentStatus.trans h
  unfold startHost
  dsimp only
  split
  · exact hlaunched
  · refine startQmp_keepsStatus ?_ env domainName role d
    exact hlaunched

theorem colodStart_keepsStatus (h : nd.currentStatus = cs) (env : Env) (domainName : String)
    (colo : Bool) : KeepsStatus cs (colodStart env domainName colo nd) := by
  have htest := (Node.steady_testDomainStatus domainName nd).currentStatus.trans h
  unfold colodStart
  simp only [Node.testDomainStatus_touch]
  split
  · exact htest
  · split
    · exact htest
    · exact htest
    · rename_i d _
      split
      · exact (Node.steady_runNewVm env d.name (generateVmCmd d).2 _).currentStatus.trans htest
      · split
        · exact htest
        · refine keepsStatus_remoteCall htest ?_
          intro ret nd' hnd'
          exact keepsStatus_checkReply hnd' (startHost_keepsStatus hnd' env domainName _ d)

theorem destroyHost_keepsStatus (h : nd.currentStatus = cs) (env : Env)
    (domainName success : String) : KeepsStatus cs (destroyHost env domainName success nd) := by
  have hdestroyed := (Node.steady_destroyDomain env domainName nd).currentStatus.trans h
  unfold destroyHost
  dsimp only
  split
  · exact hdestroyed
  · exact hdestroyed

theorem colodDestroy_keepsStatus (h : nd.currentStatus = cs) (env : Env) (domainName : String) :
    KeepsStatus cs (colodDestroy env domainName nd) := by
  have htest := (Node.steady_testDomainStatus domainName nd).currentStatus.trans h
  unfold colodDestroy
  dsimp only
  split
  · exact htest
  · split
    · exact destroyHost_keepsStatus htest env domainName _
    · refine keepsStatus_remoteCall htest ?_
      intro ret nd' hnd'
      exact keepsStatus_checkReply hnd' (destroyHost_keepsStatus hnd' env domainName _)
    · exact htest

/-- The handler that means to reset the role does not. -/
theorem colodColoEnable_keepsStatus (h : nd.currentStatus = cs) (env : Env)
    (domainName : String) : KeepsStatus cs (colodColoEnable env domainName nd) := by
  have hanswered : ∀ ret nd', nd'.currentStatus = cs →
      KeepsStatus cs (enableAnswered domainName ret nd') := by
    intro ret nd' hnd'
    unfold enableAnswered enableFailed
    dsimp only
    split
    · exact hnd'
    · split
      · exact hnd'
      · split
        · exact hnd'
        · exact hnd'
  unfold colodColoEnable
  split
  · exact h
  · dsimp only
    generalize hmarked : nd.modDom domainName _ = nd₁
    have h₁ : nd₁.currentStatus = cs := hmarked ▸ h
    rcases nd₁.ensureRemoteClient_cases env with hclient | ⟨-, hclient⟩ | ⟨-, hclient⟩
    · rw [hclient]
      exact h₁
    · rw [hclient]
      exact keepsStatus_remoteCall h₁ hanswered
    · rw [hclient]
      exact keepsStatus_remoteCall h₁ hanswered

theorem colodColoDisable_keepsStatus (h : nd.currentStatus = cs) (domainName : String) :
    KeepsStatus cs (colodColoDisable domainName nd) := by
  unfold colodColoDisable
  dsimp only
  split
  · exact h
  · exact h

theorem colodVmStatus_keepsStatus (h : nd.currentStatus = cs) (domainName : String) :
    KeepsStatus cs (colodVmStatus domainName nd) := by
  unfold colodVmStatus
  split
  · exact h
  · exact h
  · exact h

theorem colodSetParams_keepsStatus (h : nd.currentStatus = cs) (env : Env)
    (domainName property : String) (value : ℤ) :
    KeepsStatus cs (colodSetParams env domainName property value nd) := by
  have htouch : (nd.touch domainName).currentStatus = cs := h
  unfold colodSetParams
  dsimp only
  split
  · exact htouch
  · split
    · exact htouch
    · split
      · exact htouch
      · exact keepsStatus_checkQmp htouch fun _ => htouch

theorem colodDoFailover_keepsStatus (h : nd.currentStatus = cs) (env : Env)
    (domainName : String) : KeepsStatus cs (colodDoFailover env domainName nd) := by
  have htouch : (nd.touch domainName).currentStatus = cs := h
  unfold colodDoFailover failedOver
  dsimp only
  split
  · exact htouch
  · split
    · exact htouch
    · split
      · exact keepsStatus_checkQmp h fun _ => h
      · exact keepsStatus_checkQmp htouch fun _ => htouch
      · exact htouch

theorem peerColodConnectTest_keepsStatus (h : nd.currentStatus = cs) :
    KeepsStatus cs (peerColodConnectTest nd) := by
  unfold peerColodConnectTest
  split
  · refine keepsStatus_remoteCall h ?_
    intro ret nd' hnd'
    split
    · exact hnd'
    · exact hnd'
  · exact h

theorem peerColodSaveDomain_keepsStatus (h : nd.currentStatus = cs) (ds : ColodDomainStatus) :
    KeepsStatus cs (peerColodSaveDomain ds nd) := by
  unfold peerColodSaveDomain
  dsimp only
  split
  · exact h
  · split
    · exact h
    · exact h

theorem peerColodStartDomain_keepsStatus (h : nd.currentStatus = cs) (env : Env)
    (domainName : String) (colo : Bool) :
    KeepsStatus cs (peerColodStartDomain env domainName colo nd) := by
  have htouch : (nd.touch domainName).currentStatus = cs := h
  unfold peerColodStartDomain
  dsimp only
  split
  · exact h
  · split
    · exact htouch
    · split
      · exact htouch
      · exact htouch
      · rename_i d _
        have hlaunched := (Node.steady_runNewVm env d.name
          (coloCmd ((nd.touch domainName).dom domainName).coloStatus d
            (nd.touch domainName).currentStatus) (nd.touch domainName)).currentStatus.trans htouch
        split
        · exact hlaunched
        · exact hlaunched

theorem peerColodDestroyDomain_keepsStatus (h : nd.currentStatus = cs) (env : Env)
    (domainName : String) : KeepsStatus cs (peerColodDestroyDomain env domainName nd) := by
  have htest := (Node.steady_testDomainStatus domainName nd).currentStatus.trans h
  unfold peerColodDestroyDomain
  simp only [Node.testDomainStatus_touch]
  split
  · exact h
  · split
    · exact htest
    · exact destroyHost_keepsStatus htest env domainName _

theorem peerColodSendQmpcmds_keepsStatus (h : nd.currentStatus = cs) (env : Env)
    (domainName : String) (cds : ColoDomainStatus) :
    KeepsStatus cs (peerColodSendQmpcmds env domainName cds nd) := by
  have htest := (Node.steady_testDomainStatus domainName nd).currentStatus.trans h
  unfold peerColodSendQmpcmds
  dsimp only
  split
  · exact htest
  · split
    · exact htest
    · exact htest
    · split
      · exact htest
      · exact keepsStatus_checkQmp htest fun _ => htest
      · exact htest

/-- A connect-peer leaves the status that its document gives, whatever the peer answers. -/
theorem colodConnectPeer_keepsStatus {config : Yaml.Node} {configFilePath : String}
    (hload : nd.loadFile configFilePath = some config) (env : Env) :
    KeepsStatus (nd.configured config).currentStatus (colodConnectPeer env configFilePath nd) := by
  have hanswered : ∀ ret nd', nd'.currentStatus = (nd.configured config).currentStatus →
      KeepsStatus (nd.configured config).currentStatus (connectAnswered ret nd') := by
    intro ret nd' hnd'
    unfold connectAnswered
    split
    · exact hnd'
    · split
      · exact hnd'
      · exact hnd'
  rw [colodConnectPeer_eq, hload]
  dsimp only
  split
  · exact rfl
  · exact rfl
  · split
    · exact keepsStatus_remoteCall rfl hanswered
    · exact rfl

theorem peerColodSaveStatus_keepsStatus (env : Env) (cs : ColoStatus) (nd : Node) :
    KeepsStatus (mirrorStatus cs) (peerColodSaveStatus env cs nd) := by
  unfold peerColodSaveStatus
  dsimp only
  rcases (nd.setStatus (mirrorStatus cs)).ensureRemoteClient_cases env with
    hclient | ⟨-, hclient⟩ | ⟨-, hclient⟩
  · rw [hclient]
    exact rfl
  · rw [hclient]
    exact rfl
  · rw [hclient]
    exact rfl

end

/-- What a request leaves as the role of the node. -/
theorem handle_role (env : Env) (script : Script) (req : Request) (nd : Node) :
    ((handle env req nd).follow Node.osAfter script).state.currentStatus.localStatus =
      givenRole nd nd.currentStatus.localStatus req := by
  have hrole : ∀ {cs act}, KeepsStatus cs act →
      (act.follow Node.osAfter script).state.currentStatus.localStatus = cs.localStatus := by
    intro cs act h
    have hend : (act.follow Node.osAfter script).state.currentStatus = cs :=
      Act.state_follow_of_post (fun events _ => ⟨events, rfl⟩) h script
    rw [hend]
  cases req with
  | connectPeer configFilePath =>
      cases hload : nd.loadFile configFilePath with
      | none =>
          simp only [givenRole, hload]
          refine hrole ?_
          rw [handle, colodConnectPeer_eq, hload]
          exact rfl
      | some config =>
          simp only [givenRole, hload]
          exact hrole (colodConnectPeer_keepsStatus hload env)
  | connectStatus => exact hrole (colodConnectStatus_keepsStatus rfl)
  | define vmFilePath => exact hrole (colodDefine_keepsStatus rfl vmFilePath)
  | undefine domainName => exact hrole (colodUndefine_keepsStatus rfl domainName)
  | list showAll => exact hrole (colodList_keepsStatus rfl showAll)
  | start domainName colo => exact hrole (colodStart_keepsStatus rfl env domainName colo)
  | destroy domainName => exact hrole (colodDestroy_keepsStatus rfl env domainName)
  | coloEnable domainName => exact hrole (colodColoEnable_keepsStatus rfl env domainName)
  | coloDisable domainName => exact hrole (colodColoDisable_keepsStatus rfl domainName)
  | vmStatus domainName => exact hrole (colodVmStatus_keepsStatus rfl domainName)
  | setParams domainName property value =>
      exact hrole (colodSetParams_keepsStatus rfl env domainName property value)
  | doFailover domainName => exact hrole (colodDoFailover_keepsStatus rfl env domainName)
  | connectTest => exact hrole (peerColodConnectTest_keepsStatus rfl)
  | connectReply => exact hrole rfl
  | domainTest domainName =>
      exact hrole (Node.testDomainStatus_currentStatus domainName nd)
  | peerSaveStatus cs => exact hrole (peerColodSaveStatus_keepsStatus env cs nd)
  | peerSaveDomain ds => exact hrole (peerColodSaveDomain_keepsStatus rfl ds)
  | peerStartDomain domainName colo =>
      exact hrole (peerColodStartDomain_keepsStatus rfl env domainName colo)
  | peerDestroyDomain domainName =>
      exact hrole (peerColodDestroyDomain_keepsStatus rfl env domainName)
  | peerSendQmpcmds domainName cds =>
      exact hrole (peerColodSendQmpcmds_keepsStatus rfl env domainName cds)

/-! ## Runs -/

/-- The role that was given last is still the node's. -/
def Watch.KeepsRole (w : Watch) : Prop := w.role = w.server.node.currentStatus.localStatus

theorem Watch.KeepsRole.step {w : Watch} (h : w.KeepsRole) (event : ServerEvent) :
    (w.step event).KeepsRole := by
  unfold KeepsRole at *
  cases event with
  | request req env script =>
      by_cases hup : w.server.up = true
      · simp only [Watch.step, Server.node_step_request, hup, if_true]
        rw [handle_role, h]
      · simpa [Watch.step, Server.node_step_request, hup] using h
  | restart => rfl
  | os event => exact h
  | writeFile path doc =>
      simp only [Watch.step, Server.step]
      split
      · exact h
      · exact h.trans (congrArg ColoStatus.localStatus
          (Node.steady_writeFile path doc w.server.node).currentStatus.symm)

/-- In a run every enable after a lost peer is refused at its check exactly when
it comes only after a restart, a connect-peer or a status from the peer that
gave the node no role: noticing the loss does not take the role away. -/
theorem along_refusedWhileLost_iff (server : Server) (events : List ServerEvent) :
    Along Watch.step RefusedWhileLost (.start server) events ↔
      Along Watch.step NoRoleWhileLost (.start server) events := by
  have hstart : (Watch.start server).KeepsRole := rfl
  refine along_congr_of_inv (fun _ event hrole _ => hrole.step event) ?_ hstart events
  intro w event hrole
  cases event with
  | request req env script =>
      cases req with
      | coloEnable domainName =>
          unfold RefusedWhileLost NoRoleWhileLost
          have hrole' : w.role = w.server.node.currentStatus.localStatus := hrole
          simp only [refusedAtCheck_iff, hrole']
      | _ => exact Iff.rfl
  | _ => exact Iff.rfl

/-- The peer connects, and an enable of `d` runs into a timeout. -/
def lostInEnable : List ServerEvent :=
  [.request (.peerSaveStatus ⟨.primary, 5678, "", "", "", "", "", ""⟩) (.smooth 100) [],
    .request (.coloEnable "d") (.smooth 100) [([], none)]]

theorem not_along_refusedWhileLost_lostInEnable :
    ¬ Along Watch.step RefusedWhileLost (.start (Server.boot .fresh))
      (lostInEnable ++ [.request (.coloEnable "d") (.smooth 100) []]) := by
  intro h
  obtain ⟨hlast, -⟩ := (along_append.mp h).2
  have hrole := (refusedAtCheck_iff (.smooth 100) "d" _).mp
    (hlast (by decide +kernel) (by decide +kernel))
  rcases hrole with hnone | herror
  · revert hnone
    decide +kernel
  · revert herror
    decide +kernel

end ColoManage
