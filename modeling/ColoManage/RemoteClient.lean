import ColoManage.Pair

/-!
# Where the remote client points

The client's target, `remote_client_init`, `peer_init` and the address on
record are set by different handlers.  While they agree, every call goes to the
peer on record; `AlignedBy` lists the requests that keep them in agreement.
-/

namespace ColoManage

open Resumption EventSystem

namespace Node

/-- Every call in the log was made on a client connected to the peer on record. -/
def CallsTrue (nd : Node) : Prop :=
  ∀ connected peerIp request, .rpc connected peerIp request ∈ nd.log → connected = some peerIp

/-- The client, if there is one, is connected to the peer on record, and the
two flags that let a handler call it tell the truth. -/
structure Aligned (nd : Node) : Prop where
  calls : nd.CallsTrue
  ip : ∀ socket, nd.remoteClient.socket = some socket → socket.ip = nd.currentStatus.peerIp
  init : nd.remoteClientInit = true → nd.remoteClient.socket.isSome = true
  peerInit : nd.peerInit = true → nd.remoteClient.socket.isSome = true

/-! ## Steps that leave the client alone -/

structure Steady (nd nd' : Node) : Prop where
  currentStatus : nd'.currentStatus = nd.currentStatus
  remoteClient : nd'.remoteClient = nd.remoteClient
  remoteClientInit : nd'.remoteClientInit = nd.remoteClientInit
  peerInit : nd'.peerInit = nd.peerInit
  calls : ∀ connected peerIp request, .rpc connected peerIp request ∈ nd'.log →
    .rpc connected peerIp request ∈ nd.log

variable {nd nd' nd'' : Node}

theorem Steady.refl (nd : Node) : Steady nd nd :=
  ⟨rfl, rfl, rfl, rfl, fun _ _ _ hmem => hmem⟩

theorem Steady.trans (h : Steady nd nd') (h' : Steady nd' nd'') : Steady nd nd'' where
  currentStatus := h'.currentStatus.trans h.currentStatus
  remoteClient := h'.remoteClient.trans h.remoteClient
  remoteClientInit := h'.remoteClientInit.trans h.remoteClientInit
  peerInit := h'.peerInit.trans h.peerInit
  calls := fun connected peerIp request hmem =>
    h.calls connected peerIp request (h'.calls connected peerIp request hmem)

theorem CallsTrue.steady (h : nd.CallsTrue) (hsteady : Steady nd nd') : nd'.CallsTrue :=
  fun connected peerIp request hmem =>
    h connected peerIp request (hsteady.calls connected peerIp request hmem)

theorem Aligned.steady (h : nd.Aligned) (hsteady : Steady nd nd') : nd'.Aligned where
  calls := h.calls.steady hsteady
  ip := by
    rw [hsteady.remoteClient, hsteady.currentStatus]
    exact h.ip
  init := by
    rw [hsteady.remoteClientInit, hsteady.remoteClient]
    exact h.init
  peerInit := by
    rw [hsteady.peerInit, hsteady.remoteClient]
    exact h.peerInit

theorem steady_touch (name : String) (nd : Node) : Steady nd (nd.touch name) :=
  ⟨rfl, rfl, rfl, rfl, fun _ _ _ hmem => hmem⟩

theorem steady_modDom (name : String) (f : ColodDomainStatus → ColodDomainStatus) (nd : Node) :
    Steady nd (nd.modDom name f) :=
  ⟨rfl, rfl, rfl, rfl, fun _ _ _ hmem => hmem⟩

theorem steady_setSave (sf : SaveFile) (nd : Node) : Steady nd (nd.setSave sf) :=
  ⟨rfl, rfl, rfl, rfl, fun _ _ _ hmem => hmem⟩

theorem steady_osAfter (events : List OsEvent) (nd : Node) : Steady nd (nd.osAfter events) :=
  ⟨rfl, rfl, rfl, rfl, fun _ _ _ hmem => hmem⟩

theorem steady_writeFile (file : String) (doc : Yaml.Node) (nd : Node) :
    Steady nd (nd.writeFile file doc) := by
  unfold writeFile
  split
  · exact ⟨rfl, rfl, rfl, rfl, fun _ _ _ hmem => hmem⟩
  · exact ⟨rfl, rfl, rfl, rfl, fun _ _ _ hmem => hmem⟩

theorem steady_saveNewVmFile (doc : Yaml.Node) (name savePath : String) (nd : Node) :
    Steady nd (nd.saveNewVmFile doc name savePath) :=
  of_saveNewVmFile ⟨rfl, rfl, rfl, rfl, fun _ _ _ hmem => hmem⟩
    fun file _ => steady_writeFile file doc nd

theorem steady_testDomainStatus (name : String) (nd : Node) :
    Steady nd (nd.testDomainStatus name).2 := by
  rw [testDomainStatus_node]
  split
  · exact ⟨rfl, rfl, rfl, rfl, fun _ _ _ hmem => hmem⟩
  · exact steady_touch name nd

theorem steady_sentQmp (texts : List String) (nd : Node) : Steady nd (nd.sentQmp texts) :=
  ⟨rfl, rfl, rfl, rfl, by simp [sentQmp]⟩

theorem steady_runNewVm (env : Env) (name : String) (cmd : ShellCommand) (nd : Node) :
    Steady nd (nd.runNewVm env name cmd).2 := by
  rcases nd.runNewVm_cases env name cmd with ⟨-, heq⟩ | ⟨pid, os, -, heq⟩
  · rw [heq]
    exact .refl nd
  · rw [heq]
    exact ⟨rfl, rfl, rfl, rfl, by simp [launched, record, setSave]⟩

theorem steady_destroyDomain (env : Env) (name : String) (nd : Node) :
    Steady nd (nd.destroyDomain env name).2 := by
  rcases nd.destroyDomain_cases env name with
    ⟨-, heq⟩ | ⟨pid, os, -, -, ⟨-, heq⟩ | ⟨-, heq⟩⟩
  · rw [heq]
    exact .refl nd
  · rw [heq]
    exact ⟨rfl, rfl, rfl, rfl, fun _ _ _ hmem => hmem⟩
  · rw [heq]
    exact ⟨rfl, rfl, rfl, rfl, by simp⟩

/-! ## Steps that change it -/

theorem Aligned.setPeerInit_false (h : nd.Aligned) : (nd.setPeerInit false).Aligned :=
  ⟨h.calls, h.ip, h.init, by simp [setPeerInit]⟩

theorem Aligned.setPeerInit_true (h : nd.Aligned) (hsome : nd.remoteClient.socket.isSome = true) :
    (nd.setPeerInit true).Aligned :=
  ⟨h.calls, h.ip, h.init, fun _ => hsome⟩

theorem aligned_withSocket (hcalls : nd.CallsTrue) :
    (nd.withSocket nd.currentStatus.peerIp).Aligned where
  calls := hcalls
  ip := by
    intro socket hsocket
    cases hsocket
    rfl
  init := fun _ => rfl
  peerInit := fun _ => rfl

theorem Aligned.waited {request : Request} (h : nd.Aligned)
    (hsome : nd.remoteClient.socket.isSome = true) (hwait : Waited request nd nd') :
    nd'.Aligned ∧ nd'.remoteClient.socket.isSome = true := by
  have hsome' : nd'.remoteClient.socket.isSome = true := by
    have hip := congrArg Option.isSome hwait.ip
    simpa [hsome] using hip
  obtain ⟨socket, hsocket⟩ := Option.isSome_iff_exists.mp hsome
  obtain ⟨socket', hsocket'⟩ := Option.isSome_iff_exists.mp hsome'
  have hsame : socket'.ip = socket.ip := by
    have hip := hwait.ip
    rw [hsocket, hsocket'] at hip
    exact Option.some.inj hip
  refine ⟨⟨?_, ?_, fun _ => hsome', fun _ => hsome'⟩, hsome'⟩
  · intro connected peerIp found hmem
    rw [hwait.log, List.mem_append, List.mem_singleton] at hmem
    rcases hmem with hmem | hmem
    · exact h.calls connected peerIp found hmem
    · cases hmem
      rw [hsocket, Option.map_some, h.ip socket hsocket]
  · intro found hfound
    rw [hsocket', Option.some.injEq] at hfound
    rw [← hfound, hsame, h.ip socket hsocket, hwait.currentStatus]

theorem CallsTrue.rsInit (h : nd.CallsTrue) : nd.rsInit.Aligned where
  calls := h
  ip := by
    intro socket hsocket
    simp [Node.rsInit] at hsocket
  init := by simp [Node.rsInit]
  peerInit := by simp [Node.rsInit]

end Node

/-! ## The handlers -/

/-- The rest of a handler keeps the agreement whatever happens in its waits. -/
abbrev KeepsAligned (act : Colod) : Prop :=
  act.Post Node.Meanwhile (fun _ => Node.CallsTrue) (fun _ => Node.Aligned) Node.CallsTrue

/-- A document that is refused must not have moved the address on record away
from the client, and neither must a peer that reports its status to a node with
`remote_client_init` set.  A start or a destroy that reaches its call needs a
client. -/
def AlignedBy (nd : Node) : Request → Prop
  | .connectPeer configFilePath => ∀ config err cs,
      nd.loadFile configFilePath = some config →
        parseConfigFile config nd.currentStatus = .error (.refused err, cs) →
          ∀ socket, nd.remoteClient.socket = some socket → socket.ip = cs.peerIp
  | .peerSaveStatus cs => nd.remoteClientInit = true →
      ∀ socket, nd.remoteClient.socket = some socket → socket.ip = cs.hostIp
  | .start domainName colo => colo = true → (nd.testDomainStatus domainName).1 = .shutOff →
      (nd.dom domainName).coloEnable = true → (∃ d, nd.getDomain domainName = .ok d) →
        nd.remoteClient.socket.isSome = true
  | .destroy domainName => (nd.testDomainStatus domainName).1 ≠ .shutOff →
      (nd.dom domainName).status = .coloEnabled → nd.remoteClient.socket.isSome = true
  | _ => True

section

variable {nd : Node}

theorem keepsAligned_remoteCall {request : Request} {k : ValueT → Node → Colod}
    (h : nd.Aligned) (hsome : nd.remoteClient.socket.isSome = true)
    (hk : ∀ ret nd', nd'.Aligned → nd'.remoteClient.socket.isSome = true →
      KeepsAligned (k ret nd')) :
    KeepsAligned (nd.remoteCall request k) :=
  Node.post_remoteCall (fun _ hwait => (h.waited hsome hwait).1.calls)
    (fun _ _ hwait => (h.waited hsome hwait).1.calls)
    fun ret nd' hwait => hk ret nd' (h.waited hsome hwait).1 (h.waited hsome hwait).2

theorem keepsAligned_checkReply {failure : String} {ret : ValueT} {k : Node → Colod}
    (h : nd.Aligned) (hk : KeepsAligned (k nd)) :
    KeepsAligned (checkReply failure ret nd k) :=
  post_checkReply h.setPeerInit_false h hk

theorem keepsAligned_checkQmp {env : Env} {cmds : List String} {failure : String}
    {k : Node → Colod} (h : nd.Aligned)
    (hk : ∀ texts, (nd.sentQmp texts).Aligned → KeepsAligned (k (nd.sentQmp texts))) :
    KeepsAligned (checkQmp failure (nd.sendQmpCmds env cmds) k) := by
  have hsent : ∀ texts, (nd.sentQmp texts).Aligned := fun texts =>
    h.steady (Node.steady_sentQmp texts nd)
  exact post_checkQmp (fun texts => (hsent texts).calls) hsent fun texts => hk texts (hsent texts)

theorem colodConnectPeer_keepsAligned (h : nd.Aligned) (env : Env) {configFilePath : String}
    (hby : AlignedBy nd (.connectPeer configFilePath)) :
    KeepsAligned (colodConnectPeer env configFilePath nd) := by
  unfold colodConnectPeer
  split
  · exact h.calls
  · rename_i config hload
    split
    · exact h.calls
    · rename_i err cs hparse
      exact ⟨h.calls, hby config err cs hload hparse, h.init, h.peerInit⟩
    · rename_i cs hparse
      rcases (nd.setStatus cs).setRemoteClient_cases env cs.peerIp with hset | hset
      · rw [hset]
        exact h.calls
      · rw [hset]
        have hcalls : (nd.setStatus cs).CallsTrue := h.calls
        have hclient : ((nd.setStatus cs).withSocket cs.peerIp).Aligned :=
          Node.aligned_withSocket hcalls
        have hinit : Node.Aligned
            { (nd.setStatus cs).withSocket cs.peerIp with remoteClientInit := true } :=
          ⟨hclient.calls, hclient.ip, fun _ => rfl, hclient.peerInit⟩
        dsimp only
        refine keepsAligned_remoteCall hinit rfl ?_
        intro ret nd' hnd' hsome
        split
        · exact hnd'
        · split
          · exact hnd'
          · exact (hnd'.steady (Node.steady_setSave _ nd')).setPeerInit_true hsome

theorem colodConnectStatus_keepsAligned (h : nd.Aligned) :
    KeepsAligned (colodConnectStatus nd) := by
  unfold colodConnectStatus
  split
  · rename_i hinit
    refine keepsAligned_remoteCall h (h.peerInit hinit) ?_
    intro ret nd' hnd' _
    split
    · exact hnd'.setPeerInit_false
    · exact hnd'
  · exact h

theorem colodDefine_keepsAligned (h : nd.Aligned) (vmFilePath : String) :
    KeepsAligned (colodDefine vmFilePath nd) := by
  unfold colodDefine
  split
  · exact h.calls
  · exact h
  · rename_i d nd' hdefine
    obtain ⟨doc, -, -, rfl⟩ := Node.vmDefine_eq_ok hdefine
    have hwrite := h.steady (Node.steady_saveNewVmFile doc d.name
      nd.currentStatus.hostFilePath nd)
    dsimp only
    split
    · exact hwrite
    · exact hwrite.steady ⟨rfl, rfl, rfl, rfl, fun _ _ _ hmem => hmem⟩

theorem colodUndefine_keepsAligned (h : nd.Aligned) (domainName : String) :
    KeepsAligned (colodUndefine domainName nd) := by
  have htest := h.steady (Node.steady_testDomainStatus domainName nd)
  unfold colodUndefine
  dsimp only
  split
  · exact htest
  · exact htest.steady ⟨rfl, rfl, rfl, rfl, fun _ _ _ hmem => hmem⟩

theorem colodListLoop_aligned (h : nd.Aligned) (showAll : Bool) (keys : List String)
    (retVal : String) : (colodListLoop showAll keys retVal nd).2.Aligned := by
  induction keys generalizing nd retVal with
  | nil => exact h
  | cons key keys ih =>
      have htest := h.steady (Node.steady_testDomainStatus key nd)
      unfold colodListLoop
      dsimp only
      split
      · exact ih htest retVal
      · exact ih htest _

theorem colodList_keepsAligned (h : nd.Aligned) (showAll : Bool) :
    KeepsAligned (colodList showAll nd) := by
  unfold colodList
  split
  · exact h
  · exact colodListLoop_aligned h showAll _ _

theorem startQmp_keepsAligned (h : nd.Aligned)
    (hsome : nd.remoteClient.socket.isSome = true) (env : Env) (domainName : String)
    (role : ColoDomainStatus) (d : Domain) :
    KeepsAligned (startQmp env domainName role d nd) := by
  unfold startQmp
  dsimp only
  split
  · refine keepsAligned_remoteCall h hsome ?_
    intro ret nd' hnd' _
    exact keepsAligned_checkReply hnd' (keepsAligned_checkQmp hnd' fun _ hsent => hsent)
  · refine keepsAligned_checkQmp h ?_
    intro texts hsent
    refine keepsAligned_remoteCall hsent hsome ?_
    intro ret nd' hnd' _
    exact keepsAligned_checkReply hnd' hnd'
  · exact h

theorem startHost_keepsAligned (h : nd.Aligned)
    (hsome : nd.remoteClient.socket.isSome = true) (env : Env) (domainName : String)
    (role : ColoDomainStatus) (d : Domain) :
    KeepsAligned (startHost env domainName role d nd) := by
  have hsteady := Node.steady_runNewVm env d.name (coloCmd role d nd.currentStatus) nd
  have hlaunched := h.steady hsteady
  have hsome' : (nd.runNewVm env d.name
      (coloCmd role d nd.currentStatus)).2.remoteClient.socket.isSome = true := by
    rw [hsteady.remoteClient, hsome]
  unfold startHost
  dsimp only
  split
  · exact hlaunched
  · exact startQmp_keepsAligned (hlaunched.steady (Node.steady_modDom domainName _ _)) hsome'
      env domainName role d

theorem colodStart_keepsAligned (h : nd.Aligned) (env : Env) {domainName : String}
    {colo : Bool} (hby : AlignedBy nd (.start domainName colo)) :
    KeepsAligned (colodStart env domainName colo nd) := by
  have htest := h.steady (Node.steady_testDomainStatus domainName nd)
  unfold colodStart
  simp only [Node.testDomainStatus_touch, Node.coloEnable_testDomainStatus]
  split
  · exact htest
  · rename_i hshut
    split
    · exact htest.calls
    · exact htest
    · rename_i d hd
      split
      · have hsteady := Node.steady_runNewVm env d.name (generateVmCmd d).2
          (nd.testDomainStatus domainName).2
        exact (htest.steady hsteady).steady (Node.steady_modDom domainName _ _)
      · split
        · exact htest
        · rename_i hcolo henabled
          have hsome : (nd.testDomainStatus domainName).2.remoteClient.socket.isSome = true := by
            rw [Node.testDomainStatus_remoteClient]
            exact hby (by simpa using hcolo) (by simpa using hshut) (by simpa using henabled)
              ⟨d, (getDomain_testDomainStatus domainName nd d).mp hd⟩
          refine keepsAligned_remoteCall htest hsome ?_
          intro ret nd' hnd' hsome'
          exact keepsAligned_checkReply hnd'
            (startHost_keepsAligned hnd' hsome' env domainName _ d)

theorem destroyHost_keepsAligned (h : nd.Aligned) (env : Env) (domainName success : String) :
    KeepsAligned (destroyHost env domainName success nd) := by
  have hdestroyed := h.steady (Node.steady_destroyDomain env domainName nd)
  unfold destroyHost
  dsimp only
  split
  · exact hdestroyed
  · exact hdestroyed.steady (Node.steady_modDom domainName _ _)

theorem colodDestroy_keepsAligned (h : nd.Aligned) (env : Env) {domainName : String}
    (hby : AlignedBy nd (.destroy domainName)) :
    KeepsAligned (colodDestroy env domainName nd) := by
  have htest := h.steady (Node.steady_testDomainStatus domainName nd)
  unfold colodDestroy
  dsimp only
  split
  · exact htest
  · rename_i hshut
    split
    · exact destroyHost_keepsAligned htest env domainName _
    · rename_i hstatus
      have hdead := (Node.known_of_not_shutOff hshut).2
      rw [Node.dom_testDomainStatus, if_neg hdead] at hstatus
      have hsome : (nd.testDomainStatus domainName).2.remoteClient.socket.isSome = true := by
        rw [Node.testDomainStatus_remoteClient]
        exact hby hshut hstatus
      refine keepsAligned_remoteCall htest hsome ?_
      intro ret nd' hnd' _
      exact keepsAligned_checkReply hnd' (destroyHost_keepsAligned hnd' env domainName _)
    · exact htest

theorem enableAnswered_keepsAligned (h : nd.Aligned) (domainName : String) (ret : ValueT) :
    KeepsAligned (enableAnswered domainName ret nd) := by
  unfold enableAnswered enableFailed
  dsimp only
  split
  · exact h.setPeerInit_false.steady (Node.steady_modDom domainName _ _)
  · split
    · exact h.steady (Node.steady_modDom domainName _ _)
    · split
      · exact h.steady (Node.steady_modDom domainName _ _)
      · exact h.steady (Node.steady_setSave _ nd)

theorem ensureRemoteClient_aligned (h : nd.CallsTrue)
    (hinit : nd.remoteClientInit = true → nd.Aligned) (env : Env) :
    nd.ensureRemoteClient env = .error nd ∨ ∃ nd', nd.ensureRemoteClient env = .ok nd' ∧
      nd'.Aligned ∧ nd'.remoteClient.socket.isSome = true := by
  rcases nd.ensureRemoteClient_cases env with hset | ⟨htrue, hset⟩ | ⟨-, hset⟩
  · exact .inl hset
  · exact .inr ⟨nd, hset, hinit htrue, (hinit htrue).init htrue⟩
  · exact .inr ⟨_, hset, Node.aligned_withSocket h, rfl⟩

theorem colodColoEnable_keepsAligned (h : nd.Aligned) (env : Env) (domainName : String) :
    KeepsAligned (colodColoEnable env domainName nd) := by
  unfold colodColoEnable
  split
  · exact h
  · dsimp only
    generalize hmod : nd.modDom domainName _ = nd₁
    have h₁ : nd₁.Aligned := h.steady (hmod ▸ Node.steady_modDom domainName _ nd)
    rcases ensureRemoteClient_aligned h₁.calls (fun _ => h₁) env with hset | ⟨nd₂, hset, h₂, hsome⟩
    · rw [hset]
      exact h₁.calls
    · rw [hset]
      exact keepsAligned_remoteCall h₂ hsome fun ret nd' hnd' _ =>
        enableAnswered_keepsAligned hnd' domainName ret

theorem colodColoDisable_keepsAligned (h : nd.Aligned) (domainName : String) :
    KeepsAligned (colodColoDisable domainName nd) := by
  unfold colodColoDisable
  dsimp only
  split
  · exact h
  · exact (h.steady (Node.steady_setSave _ nd)).steady (Node.steady_modDom domainName _ _)

theorem colodVmStatus_keepsAligned (h : nd.Aligned) (domainName : String) :
    KeepsAligned (colodVmStatus domainName nd) := by
  unfold colodVmStatus
  split
  · exact h.calls
  · exact h
  · exact h.steady (Node.steady_touch domainName nd)

theorem colodSetParams_keepsAligned (h : nd.Aligned) (env : Env)
    (domainName property : String) (value : ℤ) :
    KeepsAligned (colodSetParams env domainName property value nd) := by
  have htouch := h.steady (Node.steady_touch domainName nd)
  unfold colodSetParams
  dsimp only
  split
  · exact htouch
  · split
    · exact htouch
    · split
      · exact htouch
      · exact keepsAligned_checkQmp htouch fun _ hsent => hsent

theorem colodDoFailover_keepsAligned (h : nd.Aligned) (env : Env) (domainName : String) :
    KeepsAligned (colodDoFailover env domainName nd) := by
  have htouch := h.steady (Node.steady_touch domainName nd)
  unfold colodDoFailover failedOver
  dsimp only
  split
  · exact htouch
  · split
    · exact htouch
    · split
      · refine keepsAligned_checkQmp (htouch.steady (Node.steady_modDom domainName _ _)) ?_
        intro texts hsent
        exact hsent.steady (Node.steady_modDom domainName _ _)
      · refine keepsAligned_checkQmp htouch ?_
        intro texts hsent
        exact hsent.steady (Node.steady_modDom domainName _ _)
      · exact htouch

theorem peerColodConnectTest_keepsAligned (h : nd.Aligned) :
    KeepsAligned (peerColodConnectTest nd) := by
  unfold peerColodConnectTest
  split
  · rename_i hinit
    refine keepsAligned_remoteCall h (h.peerInit hinit) ?_
    intro ret nd' hnd' _
    split
    · exact hnd'.setPeerInit_false
    · exact hnd'
  · exact h

theorem peerColodSaveStatus_keepsAligned (h : nd.Aligned) (env : Env) {cs : ColoStatus}
    (hby : AlignedBy nd (.peerSaveStatus cs)) :
    KeepsAligned (peerColodSaveStatus env cs nd) := by
  unfold peerColodSaveStatus
  dsimp only
  have hinit : (nd.setStatus (mirrorStatus cs)).remoteClientInit = true →
      (nd.setStatus (mirrorStatus cs)).Aligned := fun htrue =>
    ⟨h.calls, hby htrue, h.init, h.peerInit⟩
  have hcalls : (nd.setStatus (mirrorStatus cs)).CallsTrue := h.calls
  rcases ensureRemoteClient_aligned hcalls hinit env with hset | ⟨nd', hset, h', hsome⟩
  · rw [hset]
    exact h.calls
  · rw [hset]
    exact (h'.steady (Node.steady_setSave _ nd')).setPeerInit_true hsome

theorem peerColodSaveDomain_keepsAligned (h : nd.Aligned) (ds : ColodDomainStatus) :
    KeepsAligned (peerColodSaveDomain ds nd) := by
  unfold peerColodSaveDomain
  dsimp only
  split
  · exact h
  · split
    · exact h.steady (Node.steady_setSave _ nd)
    · exact h.steady ⟨rfl, rfl, rfl, rfl, fun _ _ _ hmem => hmem⟩

theorem peerColodStartDomain_keepsAligned (h : nd.Aligned) (env : Env) (domainName : String)
    (colo : Bool) : KeepsAligned (peerColodStartDomain env domainName colo nd) := by
  have htouch := h.steady (Node.steady_touch domainName nd)
  unfold peerColodStartDomain
  dsimp only
  split
  · exact h
  · split
    · exact htouch
    · split
      · exact htouch.calls
      · exact htouch
      · rename_i d hd
        have hlaunched := htouch.steady (Node.steady_runNewVm env d.name
          (coloCmd ((nd.touch domainName).dom domainName).coloStatus d
            (nd.touch domainName).currentStatus) (nd.touch domainName))
        split
        · exact hlaunched
        · exact hlaunched.steady (Node.steady_modDom domainName _ _)

theorem peerColodDestroyDomain_keepsAligned (h : nd.Aligned) (env : Env)
    (domainName : String) : KeepsAligned (peerColodDestroyDomain env domainName nd) := by
  have htest := h.steady (Node.steady_testDomainStatus domainName nd)
  unfold peerColodDestroyDomain
  simp only [Node.testDomainStatus_touch]
  split
  · exact h.steady (Node.steady_touch domainName nd)
  · split
    · exact htest
    · exact destroyHost_keepsAligned htest env domainName _

theorem peerColodSendQmpcmds_keepsAligned (h : nd.Aligned) (env : Env) (domainName : String)
    (cds : ColoDomainStatus) : KeepsAligned (peerColodSendQmpcmds env domainName cds nd) := by
  have htest := h.steady (Node.steady_testDomainStatus domainName nd)
  unfold peerColodSendQmpcmds
  dsimp only
  split
  · exact htest
  · split
    · exact htest.calls
    · exact htest
    · split
      · exact htest
      · exact keepsAligned_checkQmp htest fun _ hsent => hsent
      · exact htest

theorem handle_keepsAligned (h : nd.Aligned) (env : Env) {req : Request}
    (hby : AlignedBy nd req) : KeepsAligned (handle env req nd) := by
  cases req with
  | connectPeer configFilePath => exact colodConnectPeer_keepsAligned h env hby
  | connectStatus => exact colodConnectStatus_keepsAligned h
  | define vmFilePath => exact colodDefine_keepsAligned h vmFilePath
  | undefine domainName => exact colodUndefine_keepsAligned h domainName
  | list showAll => exact colodList_keepsAligned h showAll
  | start domainName colo => exact colodStart_keepsAligned h env hby
  | destroy domainName => exact colodDestroy_keepsAligned h env hby
  | coloEnable domainName => exact colodColoEnable_keepsAligned h env domainName
  | coloDisable domainName => exact colodColoDisable_keepsAligned h domainName
  | vmStatus domainName => exact colodVmStatus_keepsAligned h domainName
  | setParams domainName property value =>
      exact colodSetParams_keepsAligned h env domainName property value
  | doFailover domainName => exact colodDoFailover_keepsAligned h env domainName
  | connectTest => exact peerColodConnectTest_keepsAligned h
  | connectReply => exact h
  | domainTest domainName => exact h.steady (Node.steady_testDomainStatus domainName nd)
  | peerSaveStatus cs => exact peerColodSaveStatus_keepsAligned h env hby
  | peerSaveDomain ds => exact peerColodSaveDomain_keepsAligned h ds
  | peerStartDomain domainName colo =>
      exact peerColodStartDomain_keepsAligned h env domainName colo
  | peerDestroyDomain domainName => exact peerColodDestroyDomain_keepsAligned h env domainName
  | peerSendQmpcmds domainName cds =>
      exact peerColodSendQmpcmds_keepsAligned h env domainName cds

end

/-! ## Whole runs -/

def EventAligned (server : Server) : ServerEvent → Prop
  | .request req _ _ => server.up = true → AlignedBy server.node req
  | _ => True

theorem holds_step_aligned {server : Server} {event : ServerEvent}
    (h : server.Holds Node.Aligned Node.CallsTrue) (hby : EventAligned server event) :
    (server.step event).Holds Node.Aligned Node.CallsTrue := by
  refine Server.holds_step (fun _ hnd => hnd.calls) (fun _ hnd => hnd.rsInit) ?_ ?_ ?_ h
  · intro nd events
    have hsteady := Node.steady_osAfter events nd
    exact ⟨fun hnd => hnd.steady hsteady, fun hnd => hnd.steady hsteady⟩
  · intro nd path doc _
    have hsteady := Node.steady_writeFile path doc nd
    exact ⟨fun hnd => hnd.steady hsteady, fun hnd => hnd.steady hsteady⟩
  · intro req env script heq hup hnd
    subst heq
    exact handle_keepsAligned hnd env (hby hup)

/-- From any save file, a run whose requests all keep the client on the peer on
record makes every call on a client connected to that peer. -/
theorem callsTrue_of_aligned {nd : Node} (hlog : nd.log = []) {events : List ServerEvent}
    (hrun : Along Server.step EventAligned (Server.boot nd) events) :
    Always Server.step (fun server => server.node.CallsTrue) (Server.boot nd) events := by
  have hcalls : nd.CallsTrue := by
    intro connected peerIp request hmem
    simp [hlog] at hmem
  have hinit : (Server.boot nd).Holds Node.Aligned Node.CallsTrue := hcalls.rsInit
  refine (always_of_along (fun _ _ => holds_step_aligned) hinit hrun).mono ?_
  intro server h
  unfold Server.Holds at h
  split at h
  · exact h.calls
  · exact h

def connectRun : List ServerEvent :=
  [.writeFile "/root/peer.yaml" (connectDocument "primary" "10.0.0.1" "10.0.0.2"),
    .request (.connectPeer "/root/peer.yaml") (.smooth 100)
      [([], some (.answer ⟨0, "peer colod save status success."⟩))]]

theorem callsTrue_connect :
    Always Server.step (fun server => server.node.CallsTrue) (Server.boot .fresh)
      connectRun := by
  refine callsTrue_of_aligned rfl ⟨trivial, ?_, trivial⟩
  intro _ config err cs hload hparse
  have hdoc : ((Server.boot .fresh).step
      (.writeFile "/root/peer.yaml" (connectDocument "primary" "10.0.0.1" "10.0.0.2"))).node.loadFile
        "/root/peer.yaml" = some (connectDocument "primary" "10.0.0.1" "10.0.0.2") := rfl
  obtain rfl := Option.some.inj (hdoc.symm.trans hload)
  cases hparse

/-- Restart colod on a save file with an enabled domain and start it: the call
is made on a client that no one has set. -/
theorem not_callsTrue_restarted :
    ¬ Always Server.step (fun server => server.node.CallsTrue)
      (Server.boot { enabledCaller .primary with log := [] })
      [.request (.start "d" true) (.smooth 200) []] := by
  intro h
  have hcall := h.last none "" (.peerStartDomain "d" true) (by decide +kernel)
  simp at hcall

end ColoManage
