import ColoManage.ColoStart

/-!
# The order of a COLO start

A start that succeeds has to launch both VMs, give the secondary VM its whole
list of QMP commands and only then give the primary VM its own.
`coloStart_replicating_iff` says for which requests the code does.
-/

namespace ColoManage

open Resumption

/-! ## The property -/

/-- One end of a COLO pair: where it is, its definition, and the two records
its commands are built from. -/
structure Half where
  side : Side
  d : Domain
  cs : ColoStatus
  ds : ColodDomainStatus

def launchesOf (side : Side) (trace : List (Side × Effect)) : List ShellCommand :=
  trace.filterMap fun entry =>
    match entry with
    | (found, .launch _ cmd _) => if found = side then some cmd else none
    | _ => none

/-- What is sent to QMP ports, and on which side. -/
def qmpSends (trace : List (Side × Effect)) : List (Side × ℕ × String) :=
  trace.filterMap fun entry =>
    match entry with
    | (side, .qmp port text) => some (side, port, text)
    | _ => none

/-- A list of commands for a VM that listens on a port of its own machine. -/
def commandsTo (side : Side) (port : ℕ) (cmds : List String) : List (Side × ℕ × String) :=
  cmds.map fun cmd => (side, port, cmd)

/-- Both VMs are launched, and get their whole lists, the secondary one first. -/
structure Replicating (primary secondary : Half) (trace : List (Side × Effect)) : Prop where
  pvm : launchesOf primary.side trace = [(generatePvmCmd primary.d primary.cs).2]
  svm : launchesOf secondary.side trace = [(generateSvmCmd secondary.d secondary.cs).2]
  qmp : (commandsTo secondary.side secondary.d.sec.telnetPort.toNat
        (generateSvmQmpcmd secondary.d secondary.cs secondary.ds) ++
      commandsTo primary.side primary.d.pri.telnetPort.toNat
        (generatePvmQmpcmd primary.d primary.cs primary.ds)).Sublist (qmpSends trace)

/-- The request's own part of a run: `seen` starts at what is in the log. -/
def startPeer (nd peer : Node) (plan : List CallOutcome) : Peer where
  node := peer
  plan := plan
  seen := nd.log.length
  trace := []

def halves (domainName : String) (nd peer : Node) (d dPeer : Domain) : Half × Half :=
  let caller : Half := ⟨.caller, d, nd.currentStatus, nd.dom domainName⟩
  let called : Half := ⟨.peer, dPeer, peer.currentStatus, peer.dom domainName⟩
  if (nd.dom domainName).coloStatus = .primary then (caller, called) else (called, caller)

/-- A COLO start that returns `0` has started a pair that replicates. -/
def StartReplicates (domainName : String) (nd peer : Node) :
    Outcome Node ColodRetVal × Peer → Prop
  | (.returned ret nd', w') =>
      ret.code = 0 → ∃ d dPeer, nd.getDomain domainName = .ok d ∧
        peer.getDomain domainName = .ok dPeer ∧
        Replicating (halves domainName nd peer d dPeer).1 (halves domainName nd peer d dPeer).2
          (w'.finish nd')
  | (.crashed _, _) => True

/-- Enabled on both nodes, in complementary roles, and shut off on both. -/
structure ColoPair (domainName : String) (nd peer : Node) : Prop where
  enabled : (nd.dom domainName).coloEnable = true
  enabledPeer : (peer.dom domainName).coloEnable = true
  roles : ((nd.dom domainName).coloStatus = .primary ∧
      (peer.dom domainName).coloStatus = .secondary) ∨
    ((nd.dom domainName).coloStatus = .secondary ∧
      (peer.dom domainName).coloStatus = .primary)
  shutOff : (nd.testDomainStatus domainName).1 = .shutOff
  shutOffPeer : (peer.testDomainStatus domainName).1 = .shutOff

/-! ## When it holds -/

/-- Every `send` takes the whole of its command. -/
def SendsWhole (exchange : ℕ → QmpSend × QmpRecv) : ℕ → List String → Prop
  | _, [] => True
  | i, cmd :: cmds =>
      (∀ count, (exchange i).1 = .sent count → cmd.length ≤ count) ∧
        SendsWhole exchange (i + 1) cmds

structure StartSucceeds (env : Env) (domainName : String) (nd : Node) (w : Peer)
    (d dPeer : Domain) : Prop where
  loads : nd.getDomain domainName = .ok d
  loadsPeer : w.node.getDomain domainName = .ok dPeer
  usable : nd.remoteClient.usable = true
  forksPeer : ∃ envPeer, w.executes nd.remoteClient = some envPeer ∧
    w.node.os.fork envPeer.fork dPeer.name ≠ none
  forks : nd.os.fork env.fork d.name ≠ none
  tail : pairTailEnd env (nd.dom domainName).coloStatus (nextEnv w.plan.tail) = .complete

/-- A start that succeeds is one of the primary node, both VMs listen where the
commands are sent to, and no command is cut short. -/
def OrderKept (env : Env) (domainName : String) (nd : Node) (w : Peer) : Prop :=
  ∀ d dPeer, StartSucceeds env domainName nd w d dPeer →
    (nd.dom domainName).coloStatus = .primary ∧
      (d.pri.telnetPort.toNat = qmpPort ∧
        SendsWhole env.qmp.exchange 0
          (generatePvmQmpcmd d nd.currentStatus (nd.dom domainName))) ∧
      dPeer.sec.telnetPort.toNat = qmpPort ∧
        ∃ envTail, nextEnv w.plan.tail = some envTail ∧
          SendsWhole envTail.qmp.exchange 0
            (generateSvmQmpcmd dPeer w.node.currentStatus (w.node.dom domainName))

/-! ## What reaches the QMP sockets -/

/-- An exchange that completes sends one text for each command, and the whole
of each exactly when no `send` is short. -/
theorem qmpTexts_of_complete {exchange : ℕ → QmpSend × QmpRecv} {i : ℕ} {cmds : List String}
    (h : Node.qmpEnd exchange i cmds.length = .complete) :
    (Node.qmpTexts exchange i cmds).length = cmds.length ∧
      (Node.qmpTexts exchange i cmds = cmds ↔ SendsWhole exchange i cmds) := by
  induction cmds generalizing i with
  | nil => simp [Node.qmpTexts, SendsWhole]
  | cons cmd cmds ih =>
      rw [List.length_cons] at h
      unfold Node.qmpEnd at h
      cases hexchange : exchange i with
      | mk send recv =>
          cases send with
          | error => simp [hexchange] at h
          | broken => simp [hexchange] at h
          | sent count =>
              cases recv with
              | error => simp [hexchange] at h
              | data text =>
                  simp only [hexchange] at h
                  obtain ⟨hlength, hwhole⟩ := ih h
                  simp [Node.qmpTexts, SendsWhole, hexchange, hlength, hwhole,
                    take_toList_eq_iff]

theorem qmpScriptTexts_of_complete {script : QmpScript} {cmds : List String}
    (h : Node.qmpScriptEnd script cmds.length = .complete) :
    (Node.qmpScriptTexts script cmds).length = cmds.length ∧
      (Node.qmpScriptTexts script cmds = cmds ↔ SendsWhole script.exchange 0 cmds) := by
  unfold Node.qmpScriptEnd at h
  by_cases hconnects : script.connects = true
  · cases hgreeting : script.greeting with
    | error => simp [hconnects, hgreeting] at h
    | data text =>
        simp only [hconnects, hgreeting, if_true] at h
        simpa [Node.qmpScriptTexts, hconnects, hgreeting] using qmpTexts_of_complete h
  · simp [hconnects] at h

@[simp] theorem launchesOf_append (side : Side) (xs ys : List (Side × Effect)) :
    launchesOf side (xs ++ ys) = launchesOf side xs ++ launchesOf side ys :=
  List.filterMap_append

@[simp] theorem qmpSends_append (xs ys : List (Side × Effect)) :
    qmpSends (xs ++ ys) = qmpSends xs ++ qmpSends ys :=
  List.filterMap_append

@[simp] theorem launchesOf_qmp (side found : Side) (texts : List String) :
    launchesOf side (sideEffects found (texts.map (.qmp qmpPort))) = [] := by
  simp [launchesOf, sideEffects, List.filterMap_map, Function.comp_def]

@[simp] theorem qmpSends_qmp (side : Side) (texts : List String) :
    qmpSends (sideEffects side (texts.map (.qmp qmpPort))) = commandsTo side qmpPort texts := by
  simp [qmpSends, sideEffects, commandsTo, List.filterMap_map, Function.comp_def]

theorem commandsTo_eq_iff {side : Side} {port port' : ℕ} {cmds texts : List String}
    (hpos : 0 < cmds.length) :
    commandsTo side port cmds = commandsTo side port' texts ↔
      port = port' ∧ texts = cmds := by
  constructor
  · intro h
    have htexts := congrArg (List.map fun entry => entry.2.2) h
    simp only [commandsTo, List.map_map, Function.comp_def, List.map_id'] at htexts
    cases cmds with
    | nil => simp at hpos
    | cons cmd cmds =>
        subst htexts
        simp only [commandsTo, List.map_cons, List.cons.injEq, Prod.mk.injEq] at h
        exact ⟨h.1.2.1, rfl⟩
  · rintro ⟨rfl, rfl⟩
    rfl

/-- Two lists of the right lengths are sent in order exactly when both go to
the right port and are whole. -/
theorem sublist_commandsTo_iff (side side' : Side) (port port' : ℕ)
    {cmds cmds' texts texts' : List String} (hpos : 0 < cmds.length) (hpos' : 0 < cmds'.length)
    (hlength : texts.length = cmds.length) (hlength' : texts'.length = cmds'.length) :
    (commandsTo side port cmds ++ commandsTo side' port' cmds').Sublist
        (commandsTo side qmpPort texts ++ commandsTo side' qmpPort texts') ↔
      (port = qmpPort ∧ texts = cmds) ∧ port' = qmpPort ∧ texts' = cmds' := by
  rw [← commandsTo_eq_iff hpos, ← commandsTo_eq_iff hpos']
  constructor
  · intro h
    have heq := h.eq_of_length (by simp [commandsTo, hlength, hlength'])
    exact List.append_inj heq (by simp [commandsTo, hlength])
  · rintro ⟨h, h'⟩
    rw [h, h']

theorem launchesOf_cons_rpc (side found : Side) (connected : Option String) (peerIp : String)
    (request : Request) (trace : List (Side × Effect)) :
    launchesOf side ((found, .rpc connected peerIp request) :: trace) = launchesOf side trace :=
  rfl

theorem qmpSends_cons_rpc (found : Side) (connected : Option String) (peerIp : String)
    (request : Request) (trace : List (Side × Effect)) :
    qmpSends ((found, .rpc connected peerIp request) :: trace) = qmpSends trace :=
  rfl

theorem launchesOf_tailTrace (side : Side) (env : Env) (domainName : String)
    (role : ColoDomainStatus) (peerEnv : Env) (d dPeer : Domain) (nd peer : Node) :
    launchesOf side (tailTrace env domainName role peerEnv d dPeer nd peer) = [] := by
  cases role with
  | primary =>
      simp [tailTrace, launchesOf_cons_rpc]
  | secondary =>
      rw [tailTrace, launchesOf_append, launchesOf_qmp]
      rfl
  | none => rfl
  | failover => rfl
  | degrade => rfl
  | dead => rfl

theorem qmpSends_tailTrace_primary (env : Env) (domainName : String) (peerEnv : Env)
    (d dPeer : Domain) (nd peer : Node) :
    qmpSends (tailTrace env domainName .primary peerEnv d dPeer nd peer) =
      commandsTo .peer qmpPort (Node.qmpScriptTexts peerEnv.qmp
          (generateSvmQmpcmd dPeer peer.currentStatus (peer.dom domainName))) ++
        commandsTo .caller qmpPort (Node.qmpScriptTexts env.qmp
          (generatePvmQmpcmd d nd.currentStatus (nd.dom domainName))) := by
  rw [tailTrace, List.cons_append, qmpSends_cons_rpc, qmpSends_append, qmpSends_qmp,
    qmpSends_qmp]

theorem qmpSends_tailTrace_secondary (env : Env) (domainName : String) (peerEnv : Env)
    (d dPeer : Domain) (nd peer : Node) :
    qmpSends (tailTrace env domainName .secondary peerEnv d dPeer nd peer) =
      commandsTo .caller qmpPort (Node.qmpScriptTexts env.qmp
        (generateSvmQmpcmd d nd.currentStatus (nd.dom domainName))) := by
  rw [tailTrace, qmpSends_append, qmpSends_qmp, qmpSends_cons_rpc]
  exact List.append_nil _

def launchTrace (domainName : String) (nd peer : Node) (d dPeer : Domain) (pid pidPeer : ℤ) :
    List (Side × Effect) :=
  [(.caller, .rpc (nd.remoteClient.socket.map ReqSocket.ip) nd.currentStatus.peerIp
      (.peerStartDomain domainName true)),
    (.peer, .launch dPeer.name
      (coloCmd (peer.dom domainName).coloStatus dPeer peer.currentStatus) pidPeer),
    (.caller, .launch d.name
      (coloCmd (nd.dom domainName).coloStatus d nd.currentStatus) pid)]

theorem launchesOf_launchTrace (domainName : String) (nd peer : Node) (d dPeer : Domain)
    (pid pidPeer : ℤ) :
    launchesOf .caller (launchTrace domainName nd peer d dPeer pid pidPeer) =
        [coloCmd (nd.dom domainName).coloStatus d nd.currentStatus] ∧
      launchesOf .peer (launchTrace domainName nd peer d dPeer pid pidPeer) =
        [coloCmd (peer.dom domainName).coloStatus dPeer peer.currentStatus] ∧
      qmpSends (launchTrace domainName nd peer d dPeer pid pidPeer) = [] :=
  ⟨rfl, rfl, rfl⟩

/-! ## The trace of a start that succeeds -/

theorem length_generatePvmQmpcmd (d : Domain) (cs : ColoStatus) (cds : ColodDomainStatus) :
    (generatePvmQmpcmd d cs cds).length = 6 := rfl

theorem length_generateSvmQmpcmd (d : Domain) (cs : ColoStatus) (cds : ColodDomainStatus) :
    (generateSvmQmpcmd d cs cds).length = 4 := rfl

theorem generateQmpcmd_congr {d : Domain} {cs : ColoStatus} {cds cds' : ColodDomainStatus}
    (h : cds'.coloStatus = cds.coloStatus) :
    generatePvmQmpcmd d cs cds' = generatePvmQmpcmd d cs cds ∧
      generateSvmQmpcmd d cs cds' = generateSvmQmpcmd d cs cds := by
  simp [generatePvmQmpcmd, generateSvmQmpcmd, sndIp, h]

section

variable {domainName : String} {nd peer : Node} {plan : List CallOutcome} {d dPeer : Domain}
  {pid pidPeer : ℤ} {os osPeer : ProcessTable}

def answeredStart (domainName : String) (nd : Node) : Node :=
  ((nd.testDomainStatus domainName).2.called (.peerStartDomain domainName true)).replied

theorem currentStatus_answeredStart (domainName : String) (nd : Node) :
    (answeredStart domainName nd).currentStatus = nd.currentStatus :=
  Node.testDomainStatus_currentStatus domainName nd

theorem coloStatus_answeredStart (domainName : String) (nd : Node) :
    ((answeredStart domainName nd).dom domainName).coloStatus =
      (nd.dom domainName).coloStatus :=
  Node.coloStatus_testDomainStatus domainName nd

theorem finish_launched (domainName : String) (nd peer : Node) (plan : List CallOutcome)
    (d dPeer : Domain) (pid pidPeer : ℤ) (os osPeer : ProcessTable) :
    ((startPeer nd peer plan).advance
        ((nd.testDomainStatus domainName).2.called (.peerStartDomain domainName true))
        (coloLaunched domainName dPeer pidPeer osPeer (peer.dom domainName).coloStatus
          (peer.touch domainName))).finish
        (coloLaunched domainName d pid os (nd.dom domainName).coloStatus
          (answeredStart domainName nd)) =
      launchTrace domainName nd peer d dPeer pid pidPeer := by
  have hcalled : ((nd.testDomainStatus domainName).2.called
      (.peerStartDomain domainName true)).log = nd.log ++
        [.rpc (nd.remoteClient.socket.map ReqSocket.ip) nd.currentStatus.peerIp
          (.peerStartDomain domainName true)] := by
    show (nd.testDomainStatus domainName).2.log ++ [Effect.rpc _ _ _] = _
    simp
  have hpeer : (coloLaunched domainName dPeer pidPeer osPeer (peer.dom domainName).coloStatus
      (peer.touch domainName)).log = peer.log ++ [.launch dPeer.name
        (coloCmd (peer.dom domainName).coloStatus dPeer peer.currentStatus) pidPeer] := rfl
  have hlaunched : (coloLaunched domainName d pid os (nd.dom domainName).coloStatus
      (answeredStart domainName nd)).log =
      ((nd.testDomainStatus domainName).2.called (.peerStartDomain domainName true)).log ++
        [.launch d.name (coloCmd (nd.dom domainName).coloStatus d nd.currentStatus) pid] := by
    rw [← Node.testDomainStatus_currentStatus domainName nd]
    rfl
  rw [finish_advance _ hlaunched, hpeer]
  simp [Peer.finish, startPeer, hcalled, sideEffects, launchTrace]

theorem qmpcmds_launched (domainName : String) (nd : Node) (d : Domain) (pid : ℤ)
    (os : ProcessTable) (role : ColoDomainStatus) :
    generatePvmQmpcmd d
        (coloLaunched domainName d pid os role (answeredStart domainName nd)).currentStatus
        ((coloLaunched domainName d pid os role (answeredStart domainName nd)).dom domainName) =
      generatePvmQmpcmd d nd.currentStatus (nd.dom domainName) ∧
    generateSvmQmpcmd d
        (coloLaunched domainName d pid os role (answeredStart domainName nd)).currentStatus
        ((coloLaunched domainName d pid os role (answeredStart domainName nd)).dom domainName) =
      generateSvmQmpcmd d nd.currentStatus (nd.dom domainName) := by
  rw [currentStatus_coloLaunched, currentStatus_answeredStart,
    Node.dom_eq_of_lookup (lookup_coloLaunched domainName d pid os role _)]
  exact generateQmpcmd_congr (coloStatus_answeredStart domainName nd)

theorem replicating_iff (d dPeer : Domain) (pid pidPeer : ℤ) (os : ProcessTable)
    (hpair : ColoPair domainName nd peer) {env envTail : Env} (htail : nextEnv plan = some envTail)
    (hend : pairTailEnd env (nd.dom domainName).coloStatus (nextEnv plan) = .complete) :
    Replicating (halves domainName nd peer d dPeer).1 (halves domainName nd peer d dPeer).2
        (launchTrace domainName nd peer d dPeer pid pidPeer ++
          tailTrace env domainName (nd.dom domainName).coloStatus envTail d dPeer
            (coloLaunched domainName d pid os (nd.dom domainName).coloStatus
              (answeredStart domainName nd)) (peer.touch domainName)) ↔
      (nd.dom domainName).coloStatus = .primary ∧
        (d.pri.telnetPort.toNat = qmpPort ∧
          SendsWhole env.qmp.exchange 0
            (generatePvmQmpcmd d nd.currentStatus (nd.dom domainName))) ∧
        dPeer.sec.telnetPort.toNat = qmpPort ∧
          SendsWhole envTail.qmp.exchange 0
            (generateSvmQmpcmd dPeer peer.currentStatus (peer.dom domainName)) := by
  obtain ⟨hpvm, hsvm⟩ := qmpcmds_launched domainName nd d pid os (nd.dom domainName).coloStatus
  obtain ⟨hlaunch, hlaunchPeer, hquiet⟩ :=
    launchesOf_launchTrace domainName nd peer d dPeer pid pidPeer
  generalize launchTrace domainName nd peer d dPeer pid pidPeer = before at *
  generalize coloLaunched domainName d pid os (nd.dom domainName).coloStatus
    (answeredStart domainName nd) = nd₃ at *
  rw [htail] at hend
  rcases hpair.roles with ⟨hrole, hrolePeer⟩ | ⟨hrole, hrolePeer⟩
  · have hhalves : halves domainName nd peer d dPeer =
        (⟨.caller, d, nd.currentStatus, nd.dom domainName⟩,
          ⟨.peer, dPeer, peer.currentStatus, peer.dom domainName⟩) := by
      simp [halves, hrole]
    rw [hrole] at hend hlaunch ⊢
    rw [hrolePeer] at hlaunchPeer
    have hcomplete : Node.qmpScriptEnd envTail.qmp 4 = .complete := by
      by_contra hne
      simp [pairTailEnd, hne] at hend
    simp only [pairTailEnd, hcomplete, if_true] at hend
    obtain ⟨hcountS, hwholeS⟩ := qmpScriptTexts_of_complete
      ((length_generateSvmQmpcmd dPeer peer.currentStatus (peer.dom domainName)).symm ▸ hcomplete)
    obtain ⟨hcountP, hwholeP⟩ := qmpScriptTexts_of_complete
      ((length_generatePvmQmpcmd d nd.currentStatus (nd.dom domainName)).symm ▸ hend)
    have hsent := sublist_commandsTo_iff .peer .caller dPeer.sec.telnetPort.toNat
      d.pri.telnetPort.toNat (by rw [length_generateSvmQmpcmd]; decide)
      (by rw [length_generatePvmQmpcmd]; decide) hcountS hcountP
    have hsends : qmpSends (before ++ tailTrace env domainName .primary envTail d dPeer nd₃
        (peer.touch domainName)) =
          commandsTo .peer qmpPort (Node.qmpScriptTexts envTail.qmp
            (generateSvmQmpcmd dPeer peer.currentStatus (peer.dom domainName))) ++
          commandsTo .caller qmpPort (Node.qmpScriptTexts env.qmp
            (generatePvmQmpcmd d nd.currentStatus (nd.dom domainName))) := by
      rw [qmpSends_append, hquiet, List.nil_append, qmpSends_tailTrace_primary, hpvm,
        Node.dom_touch]
      rfl
    rw [hhalves, ← hwholeS, ← hwholeP]
    constructor
    · rintro ⟨-, -, hqmp⟩
      rw [hsends] at hqmp
      have hboth := hsent.mp hqmp
      exact ⟨rfl, hboth.2, hboth.1⟩
    · rintro ⟨-, hpri, hsec⟩
      refine ⟨?_, ?_, ?_⟩
      · rw [launchesOf_append, launchesOf_tailTrace, List.append_nil, hlaunch]
        rfl
      · rw [launchesOf_append, launchesOf_tailTrace, List.append_nil, hlaunchPeer]
        rfl
      · rw [hsends]
        exact hsent.mpr ⟨hsec, hpri⟩
  · have hnot : ¬ (nd.dom domainName).coloStatus = .primary := by
      rw [hrole]
      decide
    have hhalves : halves domainName nd peer d dPeer =
        (⟨.peer, dPeer, peer.currentStatus, peer.dom domainName⟩,
          ⟨.caller, d, nd.currentStatus, nd.dom domainName⟩) := by
      simp [halves, hnot]
    rw [hhalves]
    simp only [hnot, false_and, iff_false]
    rintro ⟨-, -, hsent⟩
    -- four texts go out, and ten are asked for
    rw [hrole] at hend hsent
    have hcomplete : Node.qmpScriptEnd env.qmp 4 = .complete := by
      by_contra hne
      cases hscript : Node.qmpScriptEnd env.qmp 4 with
      | complete => exact hne hscript
      | died => simp [pairTailEnd, hscript] at hend
      | failed => simp [pairTailEnd, hscript] at hend
    obtain ⟨hcount, -⟩ := qmpScriptTexts_of_complete
      ((length_generateSvmQmpcmd d nd.currentStatus (nd.dom domainName)).symm ▸ hcomplete)
    have hlength := hsent.length_le
    rw [qmpSends_append, hquiet, List.nil_append, qmpSends_tailTrace_secondary, hsvm] at hlength
    simp only [commandsTo, List.length_append, List.length_map, hcount,
      length_generateSvmQmpcmd, length_generatePvmQmpcmd] at hlength
    omega

theorem startReplicates_of_refused {msg : String} {nd' : Node} {w : Peer} :
    StartReplicates domainName nd peer (.returned ⟨-1, msg⟩ nd', w) := by
  simp [StartReplicates]

theorem orderKept_of_not_succeeds {env : Env} {w : Peer}
    (h : ∀ d dPeer, ¬ StartSucceeds env domainName nd w d dPeer) :
    OrderKept env domainName nd w :=
  fun d dPeer hsucceeds => absurd hsucceeds (h d dPeer)

theorem isSome_of_complete {env : Env} {role : ColoDomainStatus} {peerEnv : Option Env}
    (hrole : role = .primary ∨ role = .secondary)
    (h : pairTailEnd env role peerEnv = .complete) : ∃ envTail, peerEnv = some envTail := by
  cases peerEnv with
  | some envTail => exact ⟨envTail, rfl⟩
  | none =>
      rcases hrole with rfl | rfl
      · simp [pairTailEnd] at h
      · cases hscript : Node.qmpScriptEnd env.qmp 4 <;> simp [pairTailEnd, hscript] at h

theorem startLaunched_replicating_iff {env envPeer : Env} (hpair : ColoPair domainName nd peer)
    (hlength : domainName.length < 65536) (hd : nd.getDomain domainName = .ok d)
    (husable : (nd.testDomainStatus domainName).2.remoteClient.usable = true)
    (hexec : (startPeer nd peer plan).executes nd.remoteClient = some envPeer)
    (hdPeer : peer.getDomain domainName = .ok dPeer)
    (hforkPeer : peer.os.fork envPeer.fork dPeer.name = some (pidPeer, osPeer)) :
    StartReplicates domainName nd peer
        (runPair (startHost env domainName (nd.dom domainName).coloStatus d
            (answeredStart domainName nd))
          ((startPeer nd peer plan).advance
            ((nd.testDomainStatus domainName).2.called (.peerStartDomain domainName true))
            (coloLaunched domainName dPeer pidPeer osPeer (peer.dom domainName).coloStatus
              (peer.touch domainName)))) ↔
      OrderKept env domainName nd (startPeer nd peer plan) := by
  have hos : (answeredStart domainName nd).os = nd.os := Node.testDomainStatus_os domainName nd
  have husable₂ : (answeredStart domainName nd).remoteClient.usable = true := by
    apply usable_replied
    simpa [Node.called, Node.issue, Node.record, Node.setAwaiting] using usable_socket husable
  have hrole : (nd.dom domainName).coloStatus = .primary ∨
      (nd.dom domainName).coloStatus = .secondary := by
    rcases hpair.roles with ⟨h, -⟩ | ⟨h, -⟩
    · exact .inl h
    · exact .inr h
  have hfails : (nd.os.fork env.fork d.name = none ∨
      pairTailEnd env (nd.dom domainName).coloStatus (nextEnv plan.tail) ≠ .complete) →
        OrderKept env domainName nd (startPeer nd peer plan) := by
    intro hfail
    apply orderKept_of_not_succeeds
    intro d' dPeer' hsucceeds
    have heq : d' = d := by
      have hboth := hsucceeds.loads.symm.trans hd
      exact Except.ok.inj hboth
    subst heq
    rcases hfail with hfork | hend
    · exact hsucceeds.forks hfork
    · exact hend hsucceeds.tail
  cases hfork : nd.os.fork env.fork d.name with
  | none =>
      have heq : (answeredStart domainName nd).runNewVm env d.name
          (coloCmd (nd.dom domainName).coloStatus d (answeredStart domainName nd).currentStatus) =
            (-1, answeredStart domainName nd) := by
        simp [Node.runNewVm, hos, hfork]
      simp only [startHost, heq]
      exact iff_of_true startReplicates_of_refused (hfails (.inl hfork))
  | some forked =>
      obtain ⟨pid, os⟩ := forked
      have hloaded : (peer.touch domainName).getDomain domainName = .ok dPeer := hdPeer
      have htouched : (peer.touch domainName).os.fork envPeer.fork dPeer.name =
          some (pidPeer, osPeer) := hforkPeer
      have hresult := startHost_launched_pair ((startPeer nd peer plan).advance
          ((nd.testDomainStatus domainName).2.called (.peerStartDomain domainName true))
          (coloLaunched domainName dPeer pidPeer osPeer (peer.dom domainName).coloStatus
            (peer.touch domainName)))
        husable₂ rfl (hos ▸ hfork) hlength (Nat.le_refl _) hloaded htouched rfl
        (nd.dom domainName).coloStatus
      generalize runPair (startHost env domainName (nd.dom domainName).coloStatus d
        (answeredStart domainName nd)) _ = result at hresult ⊢
      have hplan : nextEnv ((startPeer nd peer plan).advance
          ((nd.testDomainStatus domainName).2.called (.peerStartDomain domainName true))
          (coloLaunched domainName dPeer pidPeer osPeer (peer.dom domainName).coloStatus
            (peer.touch domainName))).plan = nextEnv plan.tail := rfl
      rw [hplan] at hresult
      cases hend : pairTailEnd env (nd.dom domainName).coloStatus (nextEnv plan.tail) with
      | died =>
          rw [hend] at hresult
          obtain ⟨nd', w', rfl⟩ := hresult
          exact iff_of_true trivial (hfails (.inr (by simp [hend])))
      | failed =>
          rw [hend] at hresult
          obtain ⟨msg, nd', w', rfl, -⟩ := hresult
          exact iff_of_true startReplicates_of_refused (hfails (.inr (by simp [hend])))
      | complete =>
          obtain ⟨envTail, htail⟩ := isSome_of_complete hrole hend
          rw [hend] at hresult
          obtain ⟨msg, nd', w', rfl, hfinish⟩ := hresult
          rw [finish_launched, htail, Option.getD_some] at hfinish
          have hiff := replicating_iff d dPeer pid pidPeer os hpair htail hend
          rw [← hfinish] at hiff
          constructor
          · intro hreplicates d' dPeer' hsucceeds
            obtain ⟨d₁, dPeer₁, hd₁, hdPeer₁, hreplicating⟩ := hreplicates rfl
            cases Except.ok.inj (hd₁.symm.trans hd)
            cases Except.ok.inj (hdPeer₁.symm.trans hdPeer)
            cases Except.ok.inj (hsucceeds.loads.symm.trans hd)
            cases Except.ok.inj (hsucceeds.loadsPeer.symm.trans hdPeer)
            obtain ⟨hprimary, hpri, hsec, hwhole⟩ := hiff.mp hreplicating
            exact ⟨hprimary, hpri, hsec, envTail, htail, hwhole⟩
          · intro hkept _
            have hsucceeds : StartSucceeds env domainName nd (startPeer nd peer plan) d dPeer :=
              { loads := hd
                loadsPeer := hdPeer
                usable := by rwa [Node.testDomainStatus_remoteClient] at husable
                forksPeer := ⟨envPeer, hexec, by simp [startPeer, hforkPeer]⟩
                forks := by simp [hfork]
                tail := hend }
            obtain ⟨hprimary, hpri, hsec, envTail', htail', hwhole⟩ := hkept d dPeer hsucceeds
            cases Option.some.inj (htail'.symm.trans htail)
            exact ⟨d, dPeer, hd, hdPeer, hiff.mpr ⟨hprimary, hpri, hsec, hwhole⟩⟩

theorem startCall_replicating_iff (hpair : ColoPair domainName nd peer)
    (hlength : domainName.length < 65536) (hd : nd.getDomain domainName = .ok d)
    (husable : (nd.testDomainStatus domainName).2.remoteClient.usable = true)
    (failure : String) (env : Env) (plan : List CallOutcome) :
    StartReplicates domainName nd peer
        (runPair ((nd.testDomainStatus domainName).2.remoteCall
          (.peerStartDomain domainName true) fun ret nd' =>
            checkReply failure ret nd'
              (startHost env domainName (nd.dom domainName).coloStatus d))
          (startPeer nd peer plan)) ↔
      OrderKept env domainName nd (startPeer nd peer plan) := by
  have hclient := Node.testDomainStatus_remoteClient domainName nd
  generalize hw : startPeer nd peer plan = w
  have hnode : w.node = peer := by rw [← hw]; rfl
  have hrefused : (∀ envPeer, w.executes nd.remoteClient = some envPeer →
      peerStarted envPeer domainName w.node = none) →
        (StartReplicates domainName nd peer
            (runPair ((nd.testDomainStatus domainName).2.remoteCall
              (.peerStartDomain domainName true) fun ret nd' =>
                checkReply failure ret nd'
                  (startHost env domainName (nd.dom domainName).coloStatus d)) w) ↔
          OrderKept env domainName nd w) := by
    intro hnone
    have hkept : OrderKept env domainName nd w := by
      apply orderKept_of_not_succeeds
      intro d' dPeer hsucceeds
      obtain ⟨envPeer, hexec, hfork⟩ := hsucceeds.forksPeer
      have hsome := peerStarted_of_fork (hnode ▸ hpair.enabledPeer) hsucceeds.loadsPeer hfork
      simp [hnone envPeer hexec] at hsome
    obtain ⟨msg, nd', w', hrun, -⟩ := runPair_start_refused failure
      (startHost env domainName (nd.dom domainName).coloStatus d) husable hlength
      (hclient.symm ▸ hnone)
    rw [hrun]
    exact iff_of_true startReplicates_of_refused hkept
  cases hexec : w.executes nd.remoteClient with
  | none => exact hrefused (by simp [hexec])
  | some envPeer =>
      cases hstarted : peerStarted envPeer domainName w.node with
      | none =>
          refine hrefused ?_
          intro env' hexec'
          rw [hexec, Option.some.injEq] at hexec'
          rw [← hexec', hstarted]
      | some peer' =>
          rw [runPair_start_accepted failure _ husable hlength (hclient.symm ▸ hexec) hstarted]
          obtain ⟨dPeer, pidPeer, osPeer, hdPeer, hforkPeer, rfl⟩ := peerStarted_eq_some hstarted
          subst hw
          exact startLaunched_replicating_iff hpair hlength hd husable hexec hdPeer hforkPeer

end

def wholeExchange (cmds : List String) (i : ℕ) : QmpSend × QmpRecv :=
  (.sent (cmds.getD i "").length, .data "")

theorem sendsWhole_wholeExchange (cmds : List String) {i : ℕ} {rest : List String}
    (h : cmds.drop i = rest) : SendsWhole (wholeExchange cmds) i rest := by
  induction rest generalizing i with
  | nil => trivial
  | cons cmd rest ih =>
      have hlt : i < cmds.length := by
        by_contra hge
        rw [List.drop_of_length_le (Nat.le_of_not_lt hge)] at h
        simp at h
      rw [List.drop_eq_getElem_cons hlt, List.cons.injEq] at h
      constructor
      · rintro count hcount
        cases hcount
        simp [hlt, h.1]
      · exact ih h.2

def wholeEnv (pid : ℤ) (cmds : List String) : Env :=
  { Env.smooth pid with qmp := ⟨true, .data "", wholeExchange cmds⟩ }

theorem StartReplicates.sends {domainName : String} {nd peer : Node}
    {result : Outcome Node ColodRetVal × Peer} (h : StartReplicates domainName nd peer result)
    (hcode : result.1.value.map ColodRetVal.code = some 0) :
    10 ≤ (qmpSends (result.2.finish result.1.state)).length := by
  obtain ⟨o, w'⟩ := result
  obtain ⟨ret, nd', rfl, hret⟩ := Outcome.exists_returned hcode
  obtain ⟨d, dPeer, -, -, hreplicating⟩ := h hret
  have hlength := hreplicating.qmp.length_le
  simpa [commandsTo, length_generatePvmQmpcmd, length_generateSvmQmpcmd, Outcome.state]
    using hlength

end ColoManage
