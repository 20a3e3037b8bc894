import ColoManage.Host
import ColoManage.Library.Forking

/-!
# colod and the children that it forks

`run_shell_command_async` returns in the parent, and in the child as well if its
`execvp` fails; `run_new_vm` and its callers run on in both.  The handlers are
given here with both continuations.  What their parents do is what the handlers
of `Service` do (`parent_handle`), and in a run in which every command starts the
processes of colod are one `Host` (`follows_run`).
-/

namespace ColoManage

open Resumption EventSystem Forking

abbrev Forks (α : Type) := Task Node Query (Option ValueT) ShellCommand α

/-! ## The handlers, in every process -/

namespace Forked

variable {α : Type}

/-- `domainName` is the name under which the table lists the child.  The child has
the memory of the moment of the `fork`; the log and the tables of the machine are
the same for both. -/
def runShellCommandAsync (env : Env) (domainName : String) (cmd : ShellCommand) (nd : Node)
    (k : ℤ → Node → Forks α) : Forks α :=
  match nd.os.fork env.fork domainName with
  | none => k (-1) nd
  | some (pid, os) =>
      let nd := { nd with os }.record (.launch domainName cmd pid)
      .fork cmd nd (k 0) (k pid nd)

def runNewVm (env : Env) (domainName : String) (cmd : ShellCommand) (nd : Node)
    (k : ℤ → Node → Forks α) : Forks α :=
  runShellCommandAsync env domainName cmd nd fun pid nd =>
    if pid = -1 then k (-1) nd
    else if 0 < pid then k pid (nd.setSave (saveDomainPid domainName pid nd.save))
    else k pid nd

def received (k : ValueT → Node → Forks α) : Option ValueT → Node → Forks α
  | none, nd => k .timeout (nd.setErrorCode .recvTimeout)
  | some reply, nd => k reply ((nd.setErrorCode .success).setAwaiting false)

def remoteCall (request : Request) (nd : Node) (k : ValueT → Node → Forks α) : Forks α :=
  match nd.remoteClient.socket with
  | none => .crash (nd.issue request)
  | some socket =>
      if nd.remoteClient.errorCode = .recvTimeout then
        if socket.awaiting then .await ⟨request, false⟩ (nd.issue request) (received k)
        else .crash (nd.issue request)
      else
        if socket.awaiting then .crash (nd.issue request)
        else .await ⟨request, true⟩ ((nd.issue request).setAwaiting true) (received k)

def checkReply (failure : String) (ret : ValueT) (nd : Node) (k : Node → Forks ColodRetVal) :
    Forks ColodRetVal :=
  if ret.code ≠ .success then .done ⟨-1, failure⟩ (nd.setPeerInit false)
  else if ret.val.code < 0 then .done ⟨-1, ret.val.msg⟩ nd
  else k nd

def startNative (env : Env) (domainName : String) (d : Domain) (nd : Node) :
    Forks ColodRetVal :=
  runNewVm env d.name (generateVmCmd d).2 nd fun pid nd =>
    .done ⟨0, "domain " ++ domainName ++ " start."⟩
      (nd.modDom domainName fun ds => { ds with pid, status := .running })

def startHost (env : Env) (domainName : String) (curStatus : ColoDomainStatus) (d : Domain)
    (nd : Node) : Forks ColodRetVal :=
  runNewVm env d.name (coloCmd curStatus d nd.currentStatus) nd fun pid nd =>
    if pid < 0 then .done ⟨-1, "colo domain " ++ domainName ++ " start failed."⟩ nd
    else
      .ofAct (startQmp env domainName curStatus d
        (nd.modDom domainName fun ds => { ds with pid, status := .coloEnabled }))

def colodStart (env : Env) (domainName : String) (coloEnable : Bool) (nd : Node) :
    Forks ColodRetVal :=
  let curStatus := (nd.dom domainName).coloStatus
  let test := (nd.touch domainName).testDomainStatus domainName
  if test.1 ≠ .shutOff then .done ⟨-1, "domain is already running."⟩ test.2
  else
    match test.2.getDomain domainName with
    | .error (.thrown _) => .crash test.2
    | .error (.refused _) => .done ⟨-1, "can not get domain data."⟩ test.2
    | .ok d =>
        if !coloEnable then startNative env domainName d test.2
        else if !(test.2.dom domainName).coloEnable then
          .done ⟨0, "domain " ++ domainName ++ " is not colo enable."⟩ test.2
        else
          remoteCall (.peerStartDomain domainName coloEnable) test.2 fun ret nd =>
            checkReply ("colo domain " ++ domainName ++ " secondary start failed.") ret nd
              (startHost env domainName curStatus d)

def peerColodStartDomain (env : Env) (domainName : String) (coloEnable : Bool) (nd : Node) :
    Forks ColodRetVal :=
  if !coloEnable then .done ⟨-1, "peer colod can only start colo vm."⟩ nd
  else
    let nd := nd.touch domainName
    if !(nd.dom domainName).coloEnable then .done ⟨-1, "please run colo enable first."⟩ nd
    else
      match nd.getDomain domainName with
      | .error (.thrown _) => .crash nd
      | .error (.refused _) => .done ⟨-1, "can not get domain data."⟩ nd
      | .ok d =>
          runNewVm env d.name (coloCmd (nd.dom domainName).coloStatus d nd.currentStatus) nd
            fun pid nd =>
              if pid < 0 then .done ⟨-1, "colo domain " ++ domainName ++ " start failed."⟩ nd
              else
                .done ⟨0, "peer colod start domain success."⟩
                  (nd.modDom domainName fun ds => { ds with pid, status := .coloEnabled })

/-- The other handlers fork nothing. -/
def handle (env : Env) : Request → Node → Forks ColodRetVal
  | .start domainName colo, nd => colodStart env domainName colo nd
  | .peerStartDomain domainName colo, nd => peerColodStartDomain env domainName colo nd
  | req, nd => .ofAct (ColoManage.handle env req nd)

/-! ## The parents -/

theorem parent_runNewVm (env : Env) (domainName : String) (cmd : ShellCommand) (nd : Node)
    (k : ℤ → Node → Forks α) :
    (runNewVm env domainName cmd nd k).parent =
      (k (nd.runNewVm env domainName cmd).1 (nd.runNewVm env domainName cmd).2).parent := by
  unfold runNewVm runShellCommandAsync Node.runNewVm
  cases hfork : nd.os.fork env.fork domainName with
  | none => simp
  | some forked =>
      obtain ⟨pid, os⟩ := forked
      have hpos := (ProcessTable.fork_eq_some hfork).1
      have hne : pid ≠ -1 := by omega
      simp [Task.parent, hpos, hne]

theorem parent_remoteCall (request : Request) (nd : Node) (k : ValueT → Node → Forks ColodRetVal) :
    (remoteCall request nd k).parent =
      nd.remoteCall request fun ret nd => (k ret nd).parent := by
  have hreceived : (fun answer nd => (received k answer nd).parent) =
      Node.received fun ret nd => (k ret nd).parent := by
    funext answer nd
    cases answer <;> rfl
  unfold remoteCall Node.remoteCall
  rw [← hreceived]
  cases nd.remoteClient.socket with
  | none => rfl
  | some socket => simp only [apply_ite Task.parent, Task.parent]

theorem parent_checkReply (failure : String) (ret : ValueT) (nd : Node)
    (k : Node → Forks ColodRetVal) :
    (checkReply failure ret nd k).parent =
      ColoManage.checkReply failure ret nd fun nd => (k nd).parent := by
  unfold checkReply ColoManage.checkReply
  split
  · rfl
  · split <;> rfl

theorem parent_startNative (env : Env) (domainName : String) (d : Domain) (nd : Node) :
    (startNative env domainName d nd).parent = ColoManage.startNative env domainName d nd := by
  unfold startNative ColoManage.startNative
  rw [parent_runNewVm]
  rfl

theorem parent_startHost (env : Env) (domainName : String) (curStatus : ColoDomainStatus)
    (d : Domain) (nd : Node) :
    (startHost env domainName curStatus d nd).parent =
      ColoManage.startHost env domainName curStatus d nd := by
  unfold startHost ColoManage.startHost
  rw [parent_runNewVm]
  dsimp only
  split
  · rfl
  · rw [Task.parent_ofAct]

theorem parent_colodStart (env : Env) (domainName : String) (coloEnable : Bool) (nd : Node) :
    (colodStart env domainName coloEnable nd).parent =
      ColoManage.colodStart env domainName coloEnable nd := by
  unfold colodStart ColoManage.colodStart
  dsimp only
  rw [apply_ite Task.parent]
  congr 1
  cases ((nd.touch domainName).testDomainStatus domainName).2.getDomain domainName with
  | error stop => cases stop <;> rfl
  | ok d =>
      simp only [apply_ite Task.parent, parent_startNative, parent_remoteCall, parent_checkReply,
        parent_startHost]
      rfl

theorem parent_peerColodStartDomain (env : Env) (domainName : String) (coloEnable : Bool)
    (nd : Node) :
    (peerColodStartDomain env domainName coloEnable nd).parent =
      ColoManage.peerColodStartDomain env domainName coloEnable nd := by
  unfold peerColodStartDomain ColoManage.peerColodStartDomain
  dsimp only
  rw [apply_ite Task.parent, apply_ite Task.parent]
  congr 2
  cases (nd.touch domainName).getDomain domainName with
  | error stop => cases stop <;> rfl
  | ok d =>
      simp only [parent_runNewVm, apply_ite Task.parent]
      rfl

/-- Without its children, a handler does what the handler of `Service` does. -/
theorem parent_handle (env : Env) (req : Request) (nd : Node) :
    (handle env req nd).parent = ColoManage.handle env req nd := by
  cases req with
  | start domainName colo => exact parent_colodStart env domainName colo nd
  | peerStartDomain domainName colo => exact parent_peerColodStartDomain env domainName colo nd
  | _ => exact Task.parent_ofAct _

end Forked

/-! ## The processes of colod -/

/-- What happens around the processes. -/
inductive Outside
  | os (event : OsEvent)
  | writeFile (path : String) (doc : Yaml.Node)

/-- Colod as a service.  The processes of a machine share the save file, the other
files, the process table and the log; `rs` and the client are their own. -/
def colod : Service (Request × Env) Outside Node Query (Option ValueT) ShellCommand ColodRetVal where
  serve := fun taken nd => Forked.handle taken.2 taken.1 nd
  share := fun memory world =>
    { memory with
      save := world.save
      paths := world.paths
      files := world.files
      os := world.os
      log := world.log }
  change := fun event nd =>
    match event with
    | .os event => nd.osAfter [event]
    | .writeFile path doc => if path = defaultSaveFile then nd else nd.writeFile path doc

abbrev Colods := Pool Node Query (Option ValueT) ShellCommand ColodRetVal

abbrev ColodEvent := Event (Request × Env) Outside (Option ValueT)

/-- A started colod. -/
def bootColod (nd : Node) : Colods := .boot nd.rsInit

/-- The event of a single colod. -/
def hostEvent : ColodEvent → Option HostEvent
  | .request 0 taken => some (.request taken.1 taken.2)
  | .answer 0 reply => some (.answer reply)
  | .outside (.os event) => some (.os event)
  | .outside (.writeFile path doc) => some (.writeFile path doc)
  | _ => none

/-- The first process and a single colod are at the same point. -/
def Beside (host : Host) : Phase Node Query (Option ValueT) ShellCommand ColodRetVal → Prop
  | .idle => host.up = true ∧ host.job = none
  | .waiting _ _ resume => host.up = true ∧ ∃ job, host.job = some job ∧
      ∀ answer nd, (resume answer nd).parent = job.resume answer nd
  | .died => host.up = false ∧ host.job = none
  | _ => False

/-- The first process of colod is a single colod in the same state. -/
def Follows (pool : Colods) (host : Host) : Prop :=
  ∃ p, pool.processes[0]? = some p ∧ colod.share p.memory pool.world = host.node ∧
    Beside host p.phase

section

variable {pool : Colods} {host : Host}

theorem share_self (nd : Node) : colod.share nd nd = nd := rfl

theorem share_change (event : Outside) (memory world : Node) :
    colod.share memory (colod.change event world) =
      colod.change event (colod.share memory world) := by
  cases event with
  | os event => rfl
  | writeFile path doc =>
      simp only [colod, Node.writeFile]
      split
      · rfl
      · rfl

theorem follows_put (hprocesses : pool.processes ≠ [])
    {p : Process Node Query (Option ValueT) ShellCommand ColodRetVal} {answers : List Leg}
    (hnode : p.memory = host.node) (hphase : Beside host p.phase) :
    Follows { pool.put 0 p with answers } host := by
  refine ⟨p, ?_, ?_, hphase⟩
  · obtain ⟨q, rest, heq⟩ := List.exists_cons_of_ne_nil hprocesses
    simp [Pool.put, heq]
  · simpa [Pool.put, share_self] using hnode

theorem follows_settle (hprocesses : pool.processes ≠ []) (hup : host.up = true) (request : ℕ)
    (req : Request) (env : Env) (task : Forks ColodRetVal) :
    Follows (pool.settle 0 request task) (host.settle req env task.parent) := by
  induction task generalizing pool with
  | done value nd => exact follows_put (p := ⟨nd, .idle⟩) hprocesses rfl ⟨hup, rfl⟩
  | crash nd => exact follows_put (p := ⟨nd, .died⟩) hprocesses rfl ⟨rfl, rfl⟩
  | await query nd resume ih =>
      exact follows_put (p := ⟨nd, .waiting request query resume⟩) hprocesses rfl
        ⟨hup, _, rfl, fun _ _ => rfl⟩
  | fork cmd nd child rest ihchild ihrest => exact ihrest (by simp)

theorem follows_request (h : Follows pool host) (horderly : Orderly pool)
    (taken : Request × Env) :
    Follows (colod.step pool (.request 0 taken)) (host.step (.request taken.1 taken.2)) := by
  obtain ⟨⟨memory, phase⟩, hp, hnode, hphase⟩ := h
  simp only [Service.step, hp, Host.step, Host.idle]
  cases phase with
  | idle =>
      obtain ⟨hup, hjob⟩ := hphase
      simp only [hup, hjob, Option.isNone_none, Bool.and_self, if_true, Pool.run]
      rw [← hnode, ← Forked.parent_handle]
      refine follows_settle ?_ hup _ _ _ _
      exact horderly.nonempty
  | waiting request query resume =>
      obtain ⟨hup, job, hjob, hresume⟩ := hphase
      simp only [hjob, Option.isNone_some, Bool.and_false, Bool.false_eq_true, if_false]
      exact ⟨_, hp, hnode, hup, job, hjob, hresume⟩
  | died =>
      obtain ⟨hup, hjob⟩ := hphase
      simp only [hup, Bool.false_and, Bool.false_eq_true, if_false]
      exact ⟨_, hp, hnode, hup, hjob⟩
  | forked request cmd child => exact hphase.elim
  | replaced => exact hphase.elim

theorem follows_answer (h : Follows pool host) (horderly : Orderly pool)
    (reply : Option ValueT) :
    Follows (colod.step pool (.answer 0 reply)) (host.step (.answer reply)) := by
  obtain ⟨⟨memory, phase⟩, hp, hnode, hphase⟩ := h
  simp only [Service.step, hp, Host.step]
  cases phase with
  | idle =>
      simp only [hphase.2]
      exact ⟨_, hp, hnode, hphase⟩
  | waiting request query resume =>
      obtain ⟨hup, job, hjob, hresume⟩ := hphase
      simp only [hjob, Pool.run]
      rw [← hnode, ← hresume]
      refine follows_settle ?_ hup _ _ _ _
      exact horderly.nonempty
  | died =>
      simp only [hphase.2]
      exact ⟨_, hp, hnode, hphase⟩
  | forked request cmd child => exact hphase.elim
  | replaced => exact hphase.elim

theorem follows_outside (h : Follows pool host) (event : Outside) :
    Follows (colod.step pool (.outside event))
      ((hostEvent (.outside event)).elim host host.step) := by
  obtain ⟨p, hp, hnode, hphase⟩ := h
  have hhost : (hostEvent (.outside event)).elim host host.step =
      { host with node := colod.change event host.node } := by
    cases event with
    | os event => rfl
    | writeFile path doc =>
        simp only [hostEvent, Option.elim, Host.step, colod]
        split <;> rfl
  rw [hhost]
  refine ⟨p, hp, ?_, ?_⟩
  · show colod.share p.memory (colod.change event pool.world) = _
    rw [share_change, hnode]
  · cases hq : p.phase <;> exact hq ▸ hphase

/-- A step of the processes is a step of a single colod, or none. -/
theorem follows_step (h : Follows pool host) (horderly : Orderly pool) {event : ColodEvent}
    (hexec : ExecStarts pool event) :
    Follows (colod.step pool event) ((hostEvent event).elim host host.step) := by
  cases event with
  | request i taken =>
      cases i with
      | zero => exact follows_request h horderly taken
      | succ i =>
          rw [horderly.step_request_of_ne (Nat.succ_ne_zero i)]
          exact h
  | answer i reply =>
      cases i with
      | zero => exact follows_answer h horderly reply
      | succ i =>
          rw [horderly.step_answer_of_ne (Nat.succ_ne_zero i)]
          exact h
  | exec i starts =>
      obtain ⟨p, hp, hnode, hphase⟩ := h
      simp only [Service.step, hostEvent, Option.elim]
      split
      · rename_i memory request cmd child hq
        have hi : i ≠ 0 := horderly.phases i _ hq
        rw [hexec _ _ _ _ hq, if_pos rfl]
        refine ⟨p, ?_, hnode, hphase⟩
        simpa [List.getElem?_set, hi] using hp
      · exact ⟨p, hp, hnode, hphase⟩
  | outside event => exact follows_outside h event

/-- Where the command of every child starts, the processes of colod are a single
colod: every request is handled once, and every update made once. -/
theorem follows_run (nd : Node) (events : List ColodEvent)
    (hrun : Along colod.step ExecStarts (bootColod nd) events) :
    Follows (events.foldl colod.step (bootColod nd))
      ((events.filterMap hostEvent).foldl Host.step (Host.boot nd)) := by
  have hgeneral : ∀ (pool : Colods) (host : Host), Follows pool host → Orderly pool →
      Along colod.step ExecStarts pool events →
        Follows (events.foldl colod.step pool)
          ((events.filterMap hostEvent).foldl Host.step host) := by
    clear hrun
    induction events with
    | nil => exact fun _ _ h _ _ => h
    | cons event events ih =>
        intro pool host h horderly hrun
        have hnext := ih _ _ (follows_step h horderly hrun.1) (horderly.step hrun.1) hrun.2
        rw [List.filterMap_cons]
        cases hevent : hostEvent event with
        | none => simpa [hevent] using hnext
        | some event' => simpa [hevent] using hnext
  have hboot : Follows (bootColod nd) (Host.boot nd) := ⟨⟨nd.rsInit, .idle⟩, rfl, rfl, rfl, rfl⟩
  exact hgeneral _ _ hboot (orderly_boot _) hrun

end

end ColoManage
