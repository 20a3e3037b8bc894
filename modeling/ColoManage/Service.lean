import ColoManage.Node

/-!
# The handlers

One definition for each function that `server_init` binds, in the order of
`colod_service.cpp`.  Between two waits for the peer a handler is one step.
-/

namespace ColoManage

open Resumption Node

/-! ## The connection -/

/-- One required field of the section `colo`, stored as soon as it is read. -/
def readField (colo : Yaml.Node) (key : String) (store : String → ColoStatus → ColoStatus)
    (cs : ColoStatus) : Except (ParseStop × ColoStatus) ColoStatus :=
  match requireString colo key ("cannot find colo " ++ key ++ ".") with
  | .ok text => .ok (store text cs)
  | .error stop => .error (stop, cs)

/-- The fields are written to the live status one by one, so a refused document
leaves those before the missing one. -/
def parseConfigFile (config : Yaml.Node) (cs : ColoStatus) :
    Except (ParseStop × ColoStatus) ColoStatus := do
  let colo ← (requireKey config "colo" "cannot find colo info.").mapError fun stop => (stop, cs)
  let cs ← readField colo "local_status"
    (fun text cs => { cs with localStatus := mapAt coloNodeStatusMap text }) cs
  let cs ← readField colo "host_ip" (fun text cs => { cs with hostIp := text }) cs
  let cs ← readField colo "host_user" (fun text cs => { cs with hostUser := text }) cs
  let cs ← readField colo "host_file_path" (fun text cs => { cs with hostFilePath := text }) cs
  let cs ← readField colo "peer_ip" (fun text cs => { cs with peerIp := text }) cs
  let cs ← readField colo "peer_user" (fun text cs => { cs with peerUser := text }) cs
  readField colo "peer_file_path" (fun text cs => { cs with peerFilePath := text }) cs

def colodConnectPeer (env : Env) (configFilePath : String) (nd : Node) : Colod :=
  match nd.loadFile configFilePath with
  | none => .crash nd
  | some config =>
      match parseConfigFile config nd.currentStatus with
      | .error (.thrown _, cs) => .crash (nd.setStatus cs)
      | .error (.refused _, cs) => .done ⟨-1, "can not parse config file."⟩ (nd.setStatus cs)
      | .ok cs =>
          match (nd.setStatus cs).setRemoteClient env cs.peerIp with
          | .error nd => .crash nd
          | .ok nd =>
              let nd := { nd with remoteClientInit := true }
              nd.remoteCall (.peerSaveStatus nd.currentStatus) fun ret nd =>
                if ret.code ≠ .success then .done ⟨-1, "connect to peer colod timeout."⟩ nd
                else if ret.val.code < 0 then .done ⟨-1, ret.val.msg⟩ nd
                else
                  let nd := nd.setSave (saveColoStatus nd.currentStatus nd.save)
                  .done ⟨0, "connect peer success."⟩ (nd.setPeerInit true)

def separator : String := "-------------------------------------------\n"

def colodConnectStatus (nd : Node) : Colod :=
  if nd.peerInit then
    let cs := nd.currentStatus
    let retVal := separator
      ++ "  local status : " ++ coloNodeStatusToStr cs.localStatus ++ "\n"
      ++ "       host ip : " ++ cs.hostIp ++ "\n"
      ++ "     host user : " ++ cs.hostUser ++ "\n"
      ++ "host file path : " ++ cs.hostFilePath ++ "\n"
      ++ "       peer ip : " ++ cs.peerIp ++ "\n"
      ++ "     peer user : " ++ cs.peerUser ++ "\n"
      ++ "peer file path : " ++ cs.peerFilePath ++ "\n"
    nd.remoteCall .connectReply fun ret nd =>
      if ret.code ≠ .success then
        .done ⟨0, retVal ++ "   peer status : inactive\n" ++ separator⟩ (nd.setPeerInit false)
      else .done ⟨0, retVal ++ "   peer status : " ++ ret.val.msg ++ "\n" ++ separator⟩ nd
  else .done ⟨-1, "connect-peer first"⟩ nd

def colodDefine (vmFilePath : String) (nd : Node) : Colod :=
  match nd.vmDefine vmFilePath nd.currentStatus.hostFilePath with
  | .error (.thrown _) => .crash nd
  | .error (.refused err) => .done ⟨-1, err⟩ nd
  | .ok (d, nd) =>
      let ds : ColodDomainStatus := {
        name := d.name
        pid := -1
        status := .shutOff
        coloEnable := false
        coloStatus := .none
        configFilePath := nd.currentStatus.hostFilePath ++ d.name ++ ".yaml" }
      match saveDomainInfo ds nd.save with
      | .error err => .done ⟨-1, err⟩ nd
      | .ok save =>
          .done ⟨0, "define domain : " ++ ds.name ++ " success."⟩
            ((nd.setSave save).setDom d.name ds)

def colodUndefine (domainName : String) (nd : Node) : Colod :=
  let test := nd.testDomainStatus domainName
  if test.1 ≠ .shutOff then .done ⟨-1, "domain is already running."⟩ test.2
  else
    let nd := test.2.setSave (vmUndefine domainName test.2.save)
    .done ⟨0, "domain : " ++ domainName ++ " undefined"⟩ (nd.eraseDom domainName)

def colodListLoop (showAll : Bool) : List String → String → Node → String × Node
  | [], retVal, nd => (retVal, nd)
  | key :: keys, retVal, nd =>
      let nd := (nd.testDomainStatus key).2
      let ds := nd.dom key
      if !showAll && ds.status == .shutOff then colodListLoop showAll keys retVal nd
      else
        let retVal := retVal
          ++ "       name : " ++ ds.name ++ "\n"
          ++ "     status : " ++ domainStatusToStr ds.status ++ "\n"
          ++ "       path : " ++ ds.configFilePath ++ "\n"
          ++ (if ds.coloEnable then
                "colo enable : on\n" ++
                  "colo status : " ++ coloDomainStatusToStr ds.coloStatus ++ "\n"
              else "colo enable : off\n")
          ++ separator
        colodListLoop showAll keys retVal nd

def colodList (showAll : Bool) (nd : Node) : Colod :=
  if nd.domains.keys = [] then .done ⟨0, "no defined domain."⟩ nd
  else
    let listed := colodListLoop showAll nd.domains.keys separator nd
    .done ⟨0, listed.1⟩ listed.2

/-- The rest of a handler after a `remote_client.call` that may fail. -/
def checkReply (failure : String) (ret : ValueT) (nd : Node) (k : Node → Colod) : Colod :=
  if ret.code ≠ .success then .done ⟨-1, failure⟩ (nd.setPeerInit false)
  else if ret.val.code < 0 then .done ⟨-1, ret.val.msg⟩ nd
  else k nd

/-- The rest of a handler after `send_qmp_cmds`. -/
def checkQmp (failure : String) (result : Except Node (ℤ × Node)) (k : Node → Colod) : Colod :=
  match result with
  | .error nd => .crash nd
  | .ok (ret, nd) => if ret < 0 then .done ⟨-1, failure⟩ nd else k nd

def startNative (env : Env) (domainName : String) (d : Domain) (nd : Node) : Colod :=
  let launched := nd.runNewVm env d.name (generateVmCmd d).2
  .done ⟨0, "domain " ++ domainName ++ " start."⟩
    (launched.2.modDom domainName fun ds => { ds with pid := launched.1, status := .running })

/-- The command for a COLO role; without a role it stays empty. -/
def coloCmd (role : ColoDomainStatus) (d : Domain) (cs : ColoStatus) : ShellCommand :=
  match role with
  | .primary => (generatePvmCmd d cs).2
  | .secondary => (generateSvmCmd d cs).2
  | _ => default

/-- `colod_start` from the QMP commands on. -/
def startQmp (env : Env) (domainName : String) (curStatus : ColoDomainStatus) (d : Domain)
    (nd : Node) : Colod :=
  let finish (nd : Node) : Colod := .done ⟨0, "colo domain " ++ domainName ++ " start."⟩ nd
  match curStatus with
  | .primary =>
      nd.remoteCall (.peerSendQmpcmds domainName .secondary) fun ret nd =>
        checkReply ("colo domain " ++ domainName ++
            " start failed :  secondary send qmpcmd failed.") ret nd fun nd =>
          checkQmp ("colo domain " ++ domainName ++
              " start failed : primary send qmp cmds failed.")
            (nd.sendQmpCmds env (generatePvmQmpcmd d nd.currentStatus (nd.dom domainName)))
            finish
  | .secondary =>
      checkQmp ("colo domain " ++ domainName ++
          " start failed : secondary send snd qmp cmds failed.")
        (nd.sendQmpCmds env (generateSvmQmpcmd d nd.currentStatus (nd.dom domainName)))
        fun nd =>
          nd.remoteCall (.peerSendQmpcmds domainName .primary) fun ret nd =>
            checkReply ("colo domain " ++ domainName ++
              " start failed :  primary send qmpcmd failed.") ret nd finish
  | _ => finish nd

/-- `colod_start` from the local launch on. -/
def startHost (env : Env) (domainName : String) (curStatus : ColoDomainStatus) (d : Domain)
    (nd : Node) : Colod :=
  let launched := nd.runNewVm env d.name (coloCmd curStatus d nd.currentStatus)
  if launched.1 < 0 then
    .done ⟨-1, "colo domain " ++ domainName ++ " start failed."⟩ launched.2
  else
    startQmp env domainName curStatus d
      (launched.2.modDom domainName fun ds =>
        { ds with pid := launched.1, status := .coloEnabled })

def colodStart (env : Env) (domainName : String) (coloEnable : Bool) (nd : Node) : Colod :=
  let curStatus := (nd.dom domainName).coloStatus
  let test := (nd.touch domainName).testDomainStatus domainName
  if test.1 ≠ .shutOff then .done ⟨-1, "domain is already running."⟩ test.2
  else
    match test.2.getDomain domainName with
    | .error (.thrown _) => .crash test.2
    | .error (.refused _) => .done ⟨-1, "can not get domain data."⟩ test.2
    | .ok d =>
        if !coloEnable then startNative env domainName d test.2
        else if !(test.2.dom domainName).coloEnable then
          .done ⟨0, "domain " ++ domainName ++ " is not colo enable."⟩ test.2
        else
          test.2.remoteCall (.peerStartDomain domainName coloEnable) fun ret nd =>
            checkReply ("colo domain " ++ domainName ++ " secondary start failed.") ret nd
              (startHost env domainName curStatus d)

def destroyHost (env : Env) (domainName success : String) (nd : Node) : Colod :=
  let destroyed := nd.destroyDomain env domainName
  if destroyed.1 < 0 then .done ⟨-1, "can not destroy domain."⟩ destroyed.2
  else
    .done ⟨0, success⟩
      (destroyed.2.modDom domainName fun ds => { ds with pid := -1, status := .shutOff })

def colodDestroy (env : Env) (domainName : String) (nd : Node) : Colod :=
  let test := nd.testDomainStatus domainName
  if test.1 = .shutOff then .done ⟨-1, "domain is shutoff."⟩ test.2
  else
    match (test.2.dom domainName).status with
    | .running =>
        destroyHost env domainName ("domain " ++ domainName ++ " destroy.") test.2
    | .coloEnabled =>
        test.2.remoteCall (.peerDestroyDomain domainName) fun ret nd =>
          checkReply ("colo domain " ++ domainName ++ " peer destroy failed.") ret nd
            (destroyHost env domainName ("colo domain " ++ domainName ++ " destroy."))
    | _ =>
        .done ⟨-1, "can not destroy domain " ++ domainName ++ " : wrong status."⟩ test.2

def enabledRole (localStatus : ColoNodeStatus) (old : ColoDomainStatus) : ColoDomainStatus :=
  match localStatus with
  | .primary => .primary
  | .secondary => .secondary
  | _ => old

/-- A failed enable resets `colo_enable` and nothing else. -/
def enableFailed (domainName err : String) (nd : Node) : Colod :=
  .done ⟨-1, err⟩ (nd.modDom domainName fun ds => { ds with coloEnable := false })

/-- `colod_colo_enable` from the return of the peer call on. -/
def enableAnswered (domainName : String) (ret : ValueT) (nd : Node) : Colod :=
  if ret.code ≠ .success then
    enableFailed domainName "connect to peer colod timeout." (nd.setPeerInit false)
  else if ret.val.code < 0 then enableFailed domainName ret.val.msg nd
  else
    let updated := setDomainColoEnable domainName (nd.dom domainName).coloStatus nd.save
    if updated.1 < 0 then enableFailed domainName "can not set config file." nd
    else
      .done ⟨0, "build colo domain " ++ domainName ++ " success."⟩ (nd.setSave updated.2)

def colodColoEnable (env : Env) (domainName : String) (nd : Node) : Colod :=
  if nd.currentStatus.localStatus = .none ∨ nd.currentStatus.localStatus = .error then
    .done ⟨-1, "please connect peer colod first."⟩ nd
  else
    let nd := nd.modDom domainName fun ds =>
      { ds with
        coloEnable := true
        coloStatus := enabledRole nd.currentStatus.localStatus ds.coloStatus }
    match nd.ensureRemoteClient env with
    | .error nd => .crash nd
    | .ok nd =>
        nd.remoteCall (.peerSaveDomain (nd.dom domainName)) (enableAnswered domainName)

def colodColoDisable (domainName : String) (nd : Node) : Colod :=
  let updated := setDomainColoDisable domainName nd.save
  if updated.1 < 0 then .done ⟨-1, "can not disable colo domain."⟩ nd
  else
    .done ⟨0, "colo disable success"⟩
      ((nd.setSave updated.2).modDom domainName fun ds => { ds with coloEnable := false })

def colodVmStatus (domainName : String) (nd : Node) : Colod :=
  match nd.getDomain domainName with
  | .error (.thrown _) => .crash nd
  | .error (.refused _) => .done ⟨-1, "can not get domain data."⟩ nd
  | .ok d =>
      let ds := nd.dom domainName
      let msg := separator
        ++ "       Name: " ++ d.name ++ "\n"
        ++ "    OS Type: " ++ d.osType ++ "\n"
        ++ "     Status: " ++ domainStatusToStr ds.status ++ "\n"
        ++ "     CPU(s): " ++ toString d.vcpu ++ "\n"
        ++ "     Memory: " ++ toString d.memorySize ++ " MB" ++ "\n"
        ++ "  Disk Size: " ++ toString d.disk.diskSize ++ " MB" ++ "\n"
        ++ (if ds.coloEnable then "Colo Status: on\n" else "Colo Status: off\n")
        ++ separator
      .done ⟨0, msg⟩ (nd.touch domainName)

def setParamsCmd (property : String) (value : ℤ) : Option String :=
  if property = "checkpoint-time" then
    some ("\x7b'execute': 'migrate-set-parameters' , 'arguments':\x7b 'x-checkpoint-delay': " ++
      toString value ++ " \x7d \x7d")
  else if property = "compare-timeout" then
    some ("\x7b 'execute': 'qom-set','arguments': \x7b 'path': '/objects/comp0','property': 'compare_timeout','value': "
      ++ toString value ++ "\x7d \x7d")
  else if property = "max-queue-size" then
    some ("\x7b 'execute': 'qom-set','arguments': \x7b 'path': '/objects/comp0','property': 'max_queue_size','value': "
      ++ toString value ++ "\x7d \x7d")
  else none

def colodSetParams (env : Env) (domainName property : String) (value : ℤ) (nd : Node) : Colod :=
  let nd := nd.touch domainName
  if (nd.dom domainName).status = .shutOff then
    .done ⟨-1, "can not set params for a shutoff domain."⟩ nd
  else if !(nd.dom domainName).coloEnable then
    .done ⟨-1, "can not set params for a colo-disabled domain."⟩ nd
  else
    match setParamsCmd property value with
    | none => .done ⟨-1, "can not find property : " ++ property ++ "."⟩ nd
    | some cmd =>
        checkQmp ("colo domain " ++ domainName ++ " set params failed : send qmp cmds failed.")
          (nd.sendQmpCmds env [qmpCapabilities, cmd])
          fun nd => .done ⟨0, "set params success."⟩ nd

def secondaryFailoverCmds : List String :=
  [qmpCapabilities,
    "\x7b'exec-oob': 'colo-enable-teardown' \x7d",
    "\x7b'execute': 'nbd-server-stop'\x7d",
    "\x7b'execute': 'x-colo-lost-heartbeat'\x7d",
    "\x7b'execute': 'query-status'\x7d",
    "\x7b'execute': 'object-del', 'arguments':\x7b 'id': 'f2' \x7d \x7d",
    "\x7b'execute': 'object-del', 'arguments':\x7b 'id': 'f1' \x7d \x7d",
    "\x7b'execute': 'chardev-remove', 'arguments':\x7b 'id': 'red1' \x7d \x7d",
    "\x7b'execute': 'chardev-remove', 'arguments':\x7b 'id': 'red0' \x7d \x7d"]

def primaryFailoverCmds : List String :=
  [qmpCapabilities,
    "\x7b'exec-oob': 'colo-enable-teardown' \x7d",
    "\x7b'execute': 'x-blockdev-change', 'arguments':\x7b 'parent': 'colo-disk0', 'child': 'children.1'\x7d \x7d",
    "\x7b'execute': 'human-monitor-command', 'arguments':\x7b 'command-line': 'drive_del replication0' \x7d \x7d",
    "\x7b'execute': 'x-colo-lost-heartbeat' \x7d",
    "\x7b'execute': 'object-del', 'arguments':\x7b 'id': 'm0' \x7d \x7d",
    "\x7b'execute': 'object-del', 'arguments':\x7b 'id': 'redire0' \x7d \x7d",
    "\x7b'execute': 'object-del', 'arguments':\x7b 'id': 'redire1' \x7d \x7d",
    "\x7b'execute': 'object-del', 'arguments':\x7b 'id': 'iothread1' \x7d \x7d",
    "\x7b'execute': 'object-del', 'arguments':\x7b 'id': 'comp0' \x7d \x7d",
    "\x7b'execute': 'chardev-remove', 'arguments':\x7b 'id': 'mirror0' \x7d \x7d",
    "\x7b'execute': 'chardev-remove', 'arguments':\x7b 'id': 'compare1' \x7d \x7d",
    "\x7b'execute': 'chardev-remove', 'arguments':\x7b 'id': 'compare0' \x7d \x7d",
    "\x7b'execute': 'chardev-remove', 'arguments':\x7b 'id': 'compare0-0' \x7d \x7d",
    "\x7b'execute': 'chardev-remove', 'arguments':\x7b 'id': 'compare_out' \x7d \x7d",
    "\x7b'execute': 'chardev-remove', 'arguments':\x7b 'id': 'compare_out0' \x7d \x7d"]

def failedOver (domainName msg : String) (nd : Node) : Colod :=
  .done ⟨0, msg⟩
    (nd.modDom domainName fun ds => { ds with status := .running, coloStatus := .degrade })

def colodDoFailover (env : Env) (domainName : String) (nd : Node) : Colod :=
  let nd := nd.touch domainName
  let failure := "colo domain " ++ domainName ++ " set params failed : send qmp cmds failed."
  if (nd.dom domainName).status = .shutOff then
    .done ⟨-1, "can not do failover for a shutoff domain."⟩ nd
  else if !(nd.dom domainName).coloEnable then
    .done ⟨-1, "can not do failover for a colo-disabled domain."⟩ nd
  else
    match (nd.dom domainName).coloStatus with
    | .secondary =>
        let nd := nd.modDom domainName fun ds => { ds with coloStatus := .failover }
        checkQmp failure (nd.sendQmpCmds env secondaryFailoverCmds)
          (failedOver domainName "Primary vm crash and do failover.")
    | .primary =>
        checkQmp failure (nd.sendQmpCmds env primaryFailoverCmds)
          (failedOver domainName "Secondary vm crash and do failover.")
    | _ => .done ⟨-1, "can not do failover in wrong colo status."⟩ nd

/-! ## Requests of the peer -/

def peerColodConnectTestReply (nd : Node) : Colod :=
  .done ⟨0, coloNodeStatusToStr nd.currentStatus.localStatus⟩ nd

def peerColodConnectTest (nd : Node) : Colod :=
  if nd.peerInit then
    nd.remoteCall .connectReply fun ret nd =>
      if ret.code ≠ .success then
        .done ⟨-1, "connect to peer colod timeout."⟩ (nd.setPeerInit false)
      else .done ⟨0, ret.val.msg⟩ nd
  else .done ⟨0, "connect-peer first."⟩ nd

def colodDomainTest (domainName : String) (nd : Node) : Colod :=
  let test := nd.testDomainStatus domainName
  .done ⟨0, domainStatusToStr test.1⟩ test.2

def mirrorStatus (cs : ColoStatus) : ColoStatus where
  localStatus :=
    match cs.localStatus with
    | .primary => .secondary
    | .secondary => .primary
    | _ => .none
  colodPort := colodPort
  hostIp := cs.peerIp
  hostUser := cs.peerUser
  hostFilePath := cs.peerFilePath
  peerIp := cs.hostIp
  peerUser := cs.hostUser
  peerFilePath := cs.hostFilePath

def peerColodSaveStatus (env : Env) (cs : ColoStatus) (nd : Node) : Colod :=
  let nd := nd.setStatus (mirrorStatus cs)
  match nd.ensureRemoteClient env with
  | .error nd => .crash nd
  | .ok nd =>
      let nd := nd.setSave (saveColoStatus nd.currentStatus nd.save)
      .done ⟨0, "peer colod save status success."⟩ (nd.setPeerInit true)

def mirrorDomain (ds : ColodDomainStatus) : ColodDomainStatus :=
  if ds.coloEnable then
    { ds with coloStatus := if ds.coloStatus = .primary then .secondary else .primary }
  else ds

@[simp] theorem mirrorDomain_name (ds : ColodDomainStatus) : (mirrorDomain ds).name = ds.name := by
  unfold mirrorDomain
  split <;> rfl

@[simp] theorem mirrorDomain_configFilePath (ds : ColodDomainStatus) :
    (mirrorDomain ds).configFilePath = ds.configFilePath := by
  unfold mirrorDomain
  split <;> rfl

def peerColodSaveDomain (ds : ColodDomainStatus) (nd : Node) : Colod :=
  let nds := mirrorDomain ds
  match saveDomainInfo nds nd.save with
  | .error err => .done ⟨-1, err⟩ nd
  | .ok save =>
      let updated := setDomainColoEnable nds.name nds.coloStatus save
      if updated.1 < 0 then .done ⟨-1, "can not set colo peer enable"⟩ (nd.setSave save)
      else
        .done ⟨0, "peer colod save domain success."⟩
          ((nd.setSave updated.2).setDom ds.name nds)

def peerColodStartDomain (env : Env) (domainName : String) (coloEnable : Bool) (nd : Node) :
    Colod :=
  if !coloEnable then .done ⟨-1, "peer colod can only start colo vm."⟩ nd
  else
    let nd := nd.touch domainName
    if !(nd.dom domainName).coloEnable then .done ⟨-1, "please run colo enable first."⟩ nd
    else
      match nd.getDomain domainName with
      | .error (.thrown _) => .crash nd
      | .error (.refused _) => .done ⟨-1, "can not get domain data."⟩ nd
      | .ok d =>
          let launched := nd.runNewVm env d.name
            (coloCmd (nd.dom domainName).coloStatus d nd.currentStatus)
          if launched.1 < 0 then
            .done ⟨-1, "colo domain " ++ domainName ++ " start failed."⟩ launched.2
          else
            .done ⟨0, "peer colod start domain success."⟩
              (launched.2.modDom domainName fun ds =>
                { ds with pid := launched.1, status := .coloEnabled })

def peerColodDestroyDomain (env : Env) (domainName : String) (nd : Node) : Colod :=
  let nd := nd.touch domainName
  if !(nd.dom domainName).coloEnable then
    .done ⟨-1, "can not destroy non-colo domain."⟩ nd
  else
    let test := nd.testDomainStatus domainName
    if test.1 = .shutOff then .done ⟨-1, "remote domain is shutoff."⟩ test.2
    else destroyHost env domainName ("colo domain " ++ domainName ++ " destroy.") test.2

/-- For the primary role the commands are built and logged, not sent. -/
def peerColodSendQmpcmds (env : Env) (domainName : String) (cds : ColoDomainStatus)
    (nd : Node) : Colod :=
  let test := nd.testDomainStatus domainName
  if test.1 = .shutOff then .done ⟨-1, "remote domain is shutoff."⟩ test.2
  else
    match test.2.getDomain domainName with
    | .error (.thrown _) => .crash test.2
    | .error (.refused _) => .done ⟨-1, "can not get domain data."⟩ test.2
    | .ok d =>
        let nd := test.2
        match cds with
        | .primary => .done ⟨0, "send colo qmp success."⟩ nd
        | .secondary =>
            checkQmp ("colo domain " ++ domainName ++
                " start failed : sencondary send qmp cmds failed.")
              (nd.sendQmpCmds env (generateSvmQmpcmd d nd.currentStatus (nd.dom domainName)))
              fun nd => .done ⟨0, "send colo qmp success."⟩ nd
        | _ => .done ⟨-1, "colo domain " ++ domainName ++ " peer send qmp failed."⟩ nd

/-- The functions that `server_init` binds. -/
def handle (env : Env) : Request → Node → Colod
  | .connectPeer configFilePath, nd => colodConnectPeer env configFilePath nd
  | .connectStatus, nd => colodConnectStatus nd
  | .define vmFilePath, nd => colodDefine vmFilePath nd
  | .undefine domainName, nd => colodUndefine domainName nd
  | .list showAll, nd => colodList showAll nd
  | .start domainName colo, nd => colodStart env domainName colo nd
  | .destroy domainName, nd => colodDestroy env domainName nd
  | .coloEnable domainName, nd => colodColoEnable env domainName nd
  | .coloDisable domainName, nd => colodColoDisable domainName nd
  | .vmStatus domainName, nd => colodVmStatus domainName nd
  | .setParams domainName property value, nd => colodSetParams env domainName property value nd
  | .doFailover domainName, nd => colodDoFailover env domainName nd
  | .connectTest, nd => peerColodConnectTest nd
  | .connectReply, nd => peerColodConnectTestReply nd
  | .domainTest domainName, nd => colodDomainTest domainName nd
  | .peerSaveStatus cs, nd => peerColodSaveStatus env cs nd
  | .peerSaveDomain ds, nd => peerColodSaveDomain ds nd
  | .peerStartDomain domainName colo, nd => peerColodStartDomain env domainName colo nd
  | .peerDestroyDomain domainName, nd => peerColodDestroyDomain env domainName nd
  | .peerSendQmpcmds domainName cds, nd => peerColodSendQmpcmds env domainName cds nd

end ColoManage
