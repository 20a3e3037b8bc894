import ColoManage.Files
import ColoManage.SaveFile
import ColoManage.Process
import ColoManage.Rpc
import ColoManage.Library.Resumption

/-!
# One colod node

The statics of `colod_service.cpp`, the files and processes of the machine
colod runs on, and the steps its handlers are made of.  `paths` says which file
the text of a path names, and `files` holds the files other than the save file.
`log` records what a node does to the outside, oldest first.

A step that can end the process (an exception that nothing catches, a null
pointer, a signal) returns `Except Node`: the error is the state colod dies in.
-/

namespace ColoManage

open Resumption

inductive Effect
  | launch (name : String) (cmd : ShellCommand) (pid : ℤ)
  | kill (pid : ℤ)
  | qmp (port : ℕ) (text : String)
  | rpc (connected : Option String) (peerIp : String) (request : Request)
  deriving DecidableEq, Repr

structure Node where
  currentStatus : ColoStatus
  domains : Domains
  remoteClient : Buttonrpc
  remoteClientInit : Bool
  peerInit : Bool
  save : SaveFile
  paths : Paths
  files : String → Option Yaml.Node
  os : ProcessTable
  nextSocket : ℕ
  log : List Effect

/-- `error` is a return below zero: `std::string(recv_msg, ret)` then throws. -/
inductive QmpRecv
  | error
  | data (text : String)
  deriving DecidableEq, Repr

/-- `broken` is a SIGPIPE, `sent` a return with the number of bytes taken. -/
inductive QmpSend
  | error
  | broken
  | sent (count : ℕ)
  deriving DecidableEq, Repr

/-- The returns of the system calls on a monitor socket.  A `recv` returns the bytes that
have come by then, whatever they answer. -/
structure QmpScript where
  connects : Bool
  greeting : QmpRecv
  exchange : ℕ → QmpSend × QmpRecv

/-- How the system calls of one request turn out.  `beforeProbe` and
`beforeKill` happen inside `destroy_domain`, before each of its two signals. -/
structure Env where
  fork : Option ℤ
  connect : String → Bool
  qmp : QmpScript
  beforeProbe : List OsEvent
  beforeKill : List OsEvent

def Env.smooth (pid : ℤ) : Env where
  fork := some pid
  connect := fun _ => true
  qmp := ⟨true, .data "", fun _ => (.sent 65536, .data "")⟩
  beforeProbe := []
  beforeKill := []

/-- A machine on which colod has never run, with one definition file. -/
def Node.fresh : Node where
  currentStatus := default
  domains := ∅
  remoteClient := default
  remoteClientInit := false
  peerInit := false
  save := .empty
  paths := .plain
  files := fun path => if path = "/root/d.yaml" then some (sampleDefinition "d") else none
  os := ⟨[], []⟩
  nextSocket := 0
  log := []

namespace Node

def dom (nd : Node) (name : String) : ColodDomainStatus :=
  (nd.domains.lookup name).getD default

def setDom (name : String) (ds : ColodDomainStatus) (nd : Node) : Node :=
  { nd with domains := nd.domains.insert name ds }

/-- `rs.domains[name]` as an expression: an absent key is inserted. -/
def touch (name : String) (nd : Node) : Node :=
  { nd with
    domains := if name ∈ nd.domains then nd.domains else nd.domains.insert name default }

def modDom (name : String) (f : ColodDomainStatus → ColodDomainStatus) (nd : Node) : Node :=
  nd.setDom name (f (nd.dom name))

def eraseDom (name : String) (nd : Node) : Node :=
  { nd with domains := nd.domains.erase name }

/-- What `YAML::LoadFile` reads; it throws `BadFile` where this is `none`. -/
def loadFile (path : String) (nd : Node) : Option Yaml.Node :=
  match nd.paths.resolve path with
  | none => none
  | some file => if file = defaultSaveFile then some nd.save.toYaml else nd.files file

def writeFile (file : String) (doc : Yaml.Node) (nd : Node) : Node :=
  if file = defaultSaveFile then { nd with save := SaveFile.ofYaml doc }
  else { nd with files := fun other => if other = file then some doc else nd.files other }

/-- A stream that could not be opened takes the document without an error, so the code is
`0` either way. -/
def saveNewVmFile (vmdef : Yaml.Node) (domainName savePath : String) (nd : Node) : Node :=
  match nd.paths.resolve (savePath ++ domainName ++ ".yaml") with
  | none => nd
  | some file => nd.writeFile file vmdef

/-- The file that a definition of the name is stored in. -/
def definitionFile (name : String) (nd : Node) : Option String :=
  nd.paths.resolve (nd.currentStatus.hostFilePath ++ name ++ ".yaml")

def setSave (sf : SaveFile) (nd : Node) : Node := { nd with save := sf }

def setStatus (cs : ColoStatus) (nd : Node) : Node := { nd with currentStatus := cs }

def setPeerInit (value : Bool) (nd : Node) : Node := { nd with peerInit := value }

def osAfter (events : List OsEvent) (nd : Node) : Node :=
  { nd with os := nd.os.after events }

def record (effect : Effect) (nd : Node) : Node :=
  { nd with log := nd.log ++ [effect] }

/-- `rs_init` in a new process, whose statics are zero. -/
def rsInit (nd : Node) : Node :=
  { nd with
    currentStatus := default
    domains := domainsInit nd.save ∅
    remoteClient := default
    remoteClientInit := false
    peerInit := false }

/-- The value `test_domain_status` returns, and what it leaves. -/
def testDomainStatus (domainName : String) (nd : Node) : DomainStatus × Node :=
  let nd := nd.touch domainName
  let ds := nd.dom domainName
  if ds.pid = -1 then (.shutOff, nd)
  else if nd.os.kill0 ds.pid then (ds.status, nd)
  else
    let nd := nd.modDom domainName fun ds => { ds with status := .shutOff }
    (.shutOff, nd.setSave (removeDomainPid domainName nd.save).2)

def getDomain (domainName : String) (nd : Node) : Parsed Domain :=
  getDomainLoop nd.loadFile domainName nd.save.domains.entries none

def loadDoc (path : String) (nd : Node) : Parsed Yaml.Node :=
  match nd.loadFile path with
  | some doc => .ok doc
  | none => .error (.thrown .badFile)

/-- The value `vm_define` gives to `d`, and what it leaves. -/
def vmDefine (vmDefFilepath savePath : String) (nd : Node) : Parsed (Domain × Node) := do
  let defconfig ← nd.loadDoc vmDefFilepath
  let name ← requireString defconfig "name" "cannot parse vm name."
  if name = "save" then throw (.refused "cannot define vm with name 'save'.")
  else
    let d ← vmConfigParse defconfig
    pure (d, nd.saveNewVmFile defconfig name savePath)

/-- The pid `run_new_vm` returns to the parent, and what it leaves.  A child that does not
get through its `execvp` is followed in `Forked.runNewVm`. -/
def runNewVm (env : Env) (domainName : String) (cmd : ShellCommand) (nd : Node) : ℤ × Node :=
  match nd.os.fork env.fork domainName with
  | none => (-1, nd)
  | some (pid, os) =>
      let nd := { nd with os }.record (.launch domainName cmd pid)
      (pid, nd.setSave (saveDomainPid domainName pid nd.save))

def destroyDomain (env : Env) (domainName : String) (nd : Node) : ℤ × Node :=
  match getDomainPid domainName nd.save with
  | none => (-1, nd)
  | some pid =>
      if (removeDomainPid domainName nd.save).1 < 0 then (-1, nd)
      else
        let nd := nd.setSave (removeDomainPid domainName nd.save).2
        let nd := nd.osAfter env.beforeProbe
        if nd.os.kill0 pid then
          let nd := nd.osAfter env.beforeKill
          if nd.os.kill0 pid then
            (0, { nd with os := nd.os.sigkill pid }.record (.kill pid))
          else (-1, nd)
        else (-1, nd)

/-- The loop of `send_qmp_cmds` from its command number `i` on. -/
def sendQmpLoop (exchange : ℕ → QmpSend × QmpRecv) :
    ℕ → List String → Node → Except Node (ℤ × Node)
  | _, [], nd => .ok (0, nd)
  | i, cmd :: cmds, nd =>
      match (exchange i).1 with
      | .error => .ok (-1, nd)
      | .broken => .error nd
      | .sent count =>
          let nd := nd.record (.qmp qmpPort (String.ofList (cmd.toList.take count)))
          match (exchange i).2 with
          | .error => .error nd
          | .data _ => sendQmpLoop exchange (i + 1) cmds nd

def sendQmpCmds (env : Env) (qmpCmds : List String) (nd : Node) : Except Node (ℤ × Node) :=
  if env.qmp.connects then
    match env.qmp.greeting with
    | .error => .error nd
    | .data _ => sendQmpLoop env.qmp.exchange 0 qmpCmds nd
  else .ok (-1, nd)

/-- A new REQ socket; `m_error_code` stays as it is. -/
def withSocket (ip : String) (nd : Node) : Node :=
  { nd with
    remoteClient := { nd.remoteClient with socket := some ⟨nd.nextSocket, ip, false⟩ }
    nextSocket := nd.nextSocket + 1 }

def setRemoteClient (env : Env) (ip : String) (nd : Node) : Except Node Node :=
  if env.connect ip then .ok (nd.withSocket ip) else .error nd

/-- `set_remote_client` where it is guarded by `!remote_client_init`. -/
def ensureRemoteClient (env : Env) (nd : Node) : Except Node Node :=
  if nd.remoteClientInit then .ok nd else nd.setRemoteClient env nd.currentStatus.peerIp

def setAwaiting (awaiting : Bool) (nd : Node) : Node :=
  { nd with
    remoteClient :=
      { nd.remoteClient with
        socket := nd.remoteClient.socket.map fun socket => { socket with awaiting } } }

def setErrorCode (errorCode : RpcErrCode) (nd : Node) : Node :=
  { nd with remoteClient := { nd.remoteClient with errorCode } }

end Node

/-- A handler: it returns, it dies, or it waits for the peer. -/
abbrev Colod : Type := Act Node Query (Option ValueT) ColodRetVal

namespace Node

/-- `net_call` from the return of `recv` on; `none` is an empty message. -/
def received (k : ValueT → Node → Colod) : Option ValueT → Node → Colod
  | none, nd => k .timeout (nd.setErrorCode .recvTimeout)
  | some reply, nd => k reply ((nd.setErrorCode .success).setAwaiting false)

def issue (request : Request) (nd : Node) : Node :=
  nd.record (.rpc (nd.remoteClient.socket.map ReqSocket.ip) nd.currentStatus.peerIp request)

/-- `remote_client.call`, with the rest of the handler as `k`.  After a timeout
the request is not sent again.  A client without a socket, `send` on a socket
that is awaiting and `recv` on one that is not end the process. -/
def remoteCall (request : Request) (nd : Node) (k : ValueT → Node → Colod) : Colod :=
  match nd.remoteClient.socket with
  | none => .crash (nd.issue request)
  | some socket =>
      if nd.remoteClient.errorCode = .recvTimeout then
        if socket.awaiting then .await ⟨request, false⟩ (nd.issue request) (received k)
        else .crash (nd.issue request)
      else
        if socket.awaiting then .crash (nd.issue request)
        else .await ⟨request, true⟩ ((nd.issue request).setAwaiting true) (received k)

/-! ## What the steps do to the table -/

@[simp] theorem lookup_setDom (name other : String) (ds : ColodDomainStatus) (nd : Node) :
    (nd.setDom name ds).domains.lookup other =
      if other = name then some ds else nd.domains.lookup other := by
  by_cases h : other = name
  · subst h
    simp [setDom]
  · simp [setDom, h, AList.lookup_insert_ne h]

@[simp] theorem lookup_touch (name other : String) (nd : Node) :
    (nd.touch name).domains.lookup other =
      if other = name then some (nd.dom name) else nd.domains.lookup other := by
  by_cases hmem : name ∈ nd.domains
  · obtain ⟨ds, hds⟩ := Option.isSome_iff_exists.mp (AList.lookup_isSome.mpr hmem)
    by_cases h : other = name
    · subst h
      simp [touch, hmem, dom, hds]
    · simp [touch, hmem, h]
  · have hnone := AList.lookup_eq_none.mpr hmem
    by_cases h : other = name
    · subst h
      simp [touch, hmem, dom, hnone]
    · simp [touch, hmem, h, AList.lookup_insert_ne h]

@[simp] theorem dom_touch (name other : String) (nd : Node) :
    (nd.touch name).dom other = nd.dom other := by
  unfold dom
  rw [lookup_touch]
  by_cases h : other = name
  · subst h
    simp [dom]
  · simp [h]

@[simp] theorem lookup_modDom (name other : String)
    (f : ColodDomainStatus → ColodDomainStatus) (nd : Node) :
    (nd.modDom name f).domains.lookup other =
      if other = name then some (f (nd.dom name)) else nd.domains.lookup other :=
  lookup_setDom name other (f (nd.dom name)) nd

@[simp] theorem dom_modDom_self (name : String) (f : ColodDomainStatus → ColodDomainStatus)
    (nd : Node) : (nd.modDom name f).dom name = f (nd.dom name) := by
  simp [dom]

@[simp] theorem lookup_eraseDom (name other : String) (nd : Node) :
    (nd.eraseDom name).domains.lookup other =
      if other = name then none else nd.domains.lookup other := by
  by_cases h : other = name
  · subst h
    simp [eraseDom]
  · simp [eraseDom, h, AList.lookup_erase_ne h]

theorem dom_of_domains_eq {nd nd' : Node} (h : nd'.domains = nd.domains) (name : String) :
    nd'.dom name = nd.dom name := by
  unfold dom
  rw [h]

theorem dom_eq_of_lookup {name : String} {nd : Node} {ds : ColodDomainStatus}
    (h : nd.domains.lookup name = some ds) : nd.dom name = ds := by
  simp [dom, h]

/-! ## What a wait does

A handler that waits finds its own variables again, apart from the state of the
client; the machine may have changed in the meantime. -/

/-- What may happen to a node while colod waits. -/
def Meanwhile (nd nd' : Node) : Prop :=
  ∃ events, nd' = nd.osAfter events

/-- How a state after `remoteCall` is related to the one before. -/
structure Waited (request : Request) (nd nd' : Node) : Prop where
  currentStatus : nd'.currentStatus = nd.currentStatus
  domains : nd'.domains = nd.domains
  remoteClientInit : nd'.remoteClientInit = nd.remoteClientInit
  peerInit : nd'.peerInit = nd.peerInit
  save : nd'.save = nd.save
  paths : nd'.paths = nd.paths
  files : nd'.files = nd.files
  os : nd.os.Shrinks nd'.os
  ip : nd'.remoteClient.socket.map ReqSocket.ip = nd.remoteClient.socket.map ReqSocket.ip
  log : nd'.log = nd.log ++
    [.rpc (nd.remoteClient.socket.map ReqSocket.ip) nd.currentStatus.peerIp request]

theorem Waited.dom {request : Request} {nd nd' : Node} (h : Waited request nd nd')
    (name : String) : nd'.dom name = nd.dom name := by
  simp [Node.dom, h.domains]

theorem Waited.getDomain {request : Request} {nd nd' : Node} (h : Waited request nd nd')
    (name : String) : nd'.getDomain name = nd.getDomain name := by
  have hload : nd'.loadFile = nd.loadFile := by
    funext path
    simp only [Node.loadFile, h.paths, h.save, h.files]
  simp [Node.getDomain, hload, h.save]

/-- The rule for a call: what waits, dies or goes on has the state of the
caller up to `Waited`. -/
theorem post_remoteCall {G : Query → Node → Prop} {D : ColodRetVal → Node → Prop}
    {C : Node → Prop} {request : Request} {nd : Node} {k : ValueT → Node → Colod}
    (hcrash : ∀ nd', Waited request nd nd' → C nd')
    (hquery : ∀ query nd', Waited request nd nd' → G query nd')
    (hk : ∀ ret nd', Waited request nd nd' → (k ret nd').Post Meanwhile G D C) :
    (nd.remoteCall request k).Post Meanwhile G D C := by
  have hissue : Waited request nd (nd.issue request) :=
    ⟨rfl, rfl, rfl, rfl, rfl, rfl, rfl, .refl _, rfl, rfl⟩
  have hawait : ∀ (nd₁ : Node) (query : Query), Waited request nd nd₁ →
      (Act.await query nd₁ (received k)).Post Meanwhile G D C := by
    intro nd₁ query h₁
    refine ⟨hquery query nd₁ h₁, ?_⟩
    rintro answer nd₂ ⟨events, rfl⟩
    have hos := h₁.os.trans (ProcessTable.shrinks_after nd₁.os events)
    cases answer with
    | none => exact hk _ _ { h₁ with os := hos }
    | some reply =>
        refine hk _ _ { h₁ with os := hos, ip := ?_ }
        rw [← h₁.ip]
        simp [setAwaiting, setErrorCode, osAfter, Option.map_map, Function.comp_def]
  unfold remoteCall
  split
  · exact hcrash _ hissue
  · split
    · split
      · exact hawait _ _ hissue
      · exact hcrash _ hissue
    · split
      · exact hcrash _ hissue
      · refine hawait _ _ { hissue with ip := ?_ }
        simp [setAwaiting, issue, record, Option.map_map, Function.comp_def]

end Node

end ColoManage
