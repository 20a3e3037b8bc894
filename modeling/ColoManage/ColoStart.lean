import ColoManage.Pair

/-!
# A COLO start on two nodes

The two handlers of the peer that a COLO start calls, and the part of the start
that comes after the peer has launched its VM.  `coloStart_clean_iff` says when
a failed start leaves nothing behind.
-/

namespace ColoManage

open Resumption

/-! ## The peer's handlers -/

def coloLaunched (domainName : String) (d : Domain) (pid : ℤ) (os : ProcessTable)
    (role : ColoDomainStatus) (nd : Node) : Node :=
  (nd.launched d.name (coloCmd role d nd.currentStatus) pid os).modDom domainName fun ds =>
    { ds with pid, status := .coloEnabled }

/-- Where `peer_colod_start_domain` gets to, if it launches. -/
def peerStarted (env : Env) (domainName : String) (nd : Node) : Option Node :=
  if (nd.dom domainName).coloEnable then
    match nd.getDomain domainName with
    | .error _ => none
    | .ok d =>
        match nd.os.fork env.fork d.name with
        | none => none
        | some (pid, os) =>
            some (coloLaunched domainName d pid os (nd.dom domainName).coloStatus
              (nd.touch domainName))
  else none

/-- `peer_colod_start_domain` launches, or leaves its node as it was. -/
theorem runPeer_peerStart (env : Env) (domainName : String) (nd : Node) :
    match peerStarted env domainName nd with
    | some nd' =>
        runPeer env (.peerStartDomain domainName true) nd =
          .returned ⟨0, "peer colod start domain success."⟩ nd'
    | none =>
        runPeer env (.peerStartDomain domainName true) nd =
            .crashed (nd.touch domainName) ∨
          ∃ msg, runPeer env (.peerStartDomain domainName true) nd =
            .returned ⟨-1, msg⟩ (nd.touch domainName) := by
  have hget : (nd.touch domainName).getDomain domainName = nd.getDomain domainName := rfl
  unfold peerStarted
  by_cases henabled : (nd.dom domainName).coloEnable = true
  · rw [if_pos henabled]
    cases hd : nd.getDomain domainName with
    | error stop =>
        cases stop with
        | thrown exn =>
            exact .inl (by
              simp [runPeer, handle, peerColodStartDomain, henabled, hget, hd, Act.follow])
        | refused err =>
            exact .inr ⟨_, by
              simp [runPeer, handle, peerColodStartDomain, henabled, hget, hd, Act.follow]; rfl⟩
    | ok d =>
        rcases (nd.touch domainName).runNewVm_cases env d.name
            (coloCmd (nd.dom domainName).coloStatus d (nd.touch domainName).currentStatus) with
          ⟨hfork, heq⟩ | ⟨pid, os, hfork, heq⟩
        · have hfork' : nd.os.fork env.fork d.name = none := hfork
          simp only [hfork']
          exact .inr ⟨_, by
            simp [runPeer, handle, peerColodStartDomain, henabled, hget, hd, heq, Act.follow]
            rfl⟩
        · have hfork' : nd.os.fork env.fork d.name = some (pid, os) := hfork
          have hpos := (ProcessTable.fork_eq_some hfork).1
          have hnonneg : ¬ pid < 0 := by omega
          simp only [hfork']
          simp [runPeer, handle, peerColodStartDomain, henabled, hget, hd, heq, Act.follow,
            coloLaunched, hnonneg]
  · rw [if_neg henabled]
    exact .inr ⟨_, by simp [runPeer, handle, peerColodStartDomain, henabled, Act.follow]; rfl⟩

section

variable {d : Domain} {pid : ℤ} {os : ProcessTable} {nd : Node} {env : Env}

theorem coloLaunched_mem (hfork : nd.os.fork env.fork d.name = some (pid, os))
    (domainName : String) (role : ColoDomainStatus) :
    ⟨pid, d.name, true⟩ ∈ (coloLaunched domainName d pid os role nd).os.vms ∧
      ⟨pid, d.name, true⟩ ∉ nd.os.vms := by
  obtain ⟨-, hfresh, hvms⟩ := ProcessTable.fork_eq_some hfork
  constructor
  · show _ ∈ os.vms
    rw [hvms]
    exact List.mem_cons_self
  · intro hmem
    have halive := ProcessTable.kill0_of_mem hmem
    simp [hfresh] at halive

theorem lookup_coloLaunched (domainName : String) (d : Domain) (pid : ℤ) (os : ProcessTable)
    (role : ColoDomainStatus) (nd : Node) :
    (coloLaunched domainName d pid os role nd).domains.lookup domainName =
      some { nd.dom domainName with pid, status := .coloEnabled } := by
  unfold coloLaunched
  rw [Node.lookup_modDom, if_pos rfl]
  rfl

@[simp] theorem currentStatus_coloLaunched (domainName : String) (d : Domain) (pid : ℤ)
    (os : ProcessTable) (role : ColoDomainStatus) (nd : Node) :
    (coloLaunched domainName d pid os role nd).currentStatus = nd.currentStatus := rfl

theorem testDomainStatus_coloLaunched (hfork : nd.os.fork env.fork d.name = some (pid, os))
    (domainName : String) (role : ColoDomainStatus) :
    (coloLaunched domainName d pid os role nd).testDomainStatus domainName =
      (.coloEnabled, coloLaunched domainName d pid os role nd) := by
  obtain ⟨hpos, -, -⟩ := ProcessTable.fork_eq_some hfork
  have hmem := (coloLaunched_mem hfork domainName role).1
  have hlookup := lookup_coloLaunched domainName d pid os role nd
  generalize coloLaunched domainName d pid os role nd = nd' at hmem hlookup ⊢
  have hdom := Node.dom_eq_of_lookup hlookup
  have halive : ¬ nd'.FoundDead domainName := by
    rintro ⟨-, hdead⟩
    rw [hdom] at hdead
    have hkill := ProcessTable.kill0_of_mem hmem
    simp only at hdead hkill
    simp [hdead] at hkill
  have hnot : pid ≠ -1 := by omega
  rw [Node.testDomainStatus_of_not_dead halive, hdom, Node.touch_of_mem]
  · simp [hnot]
  · rw [← AList.lookup_isSome, hlookup]
    rfl

theorem getDomain_coloLaunched {domainName : String} (hd : nd.getDomain domainName = .ok d)
    (pid : ℤ) (os : ProcessTable) (role : ColoDomainStatus) :
    (coloLaunched domainName d pid os role nd).getDomain domainName = .ok d := by
  have hpaths : (coloLaunched domainName d pid os role nd).paths = nd.paths := rfl
  have hfiles : (coloLaunched domainName d pid os role nd).files = nd.files := rfl
  refine getDomain_congr hpaths hfiles ?_ hd
  exact entries_updateEntry_paths (by intro entry; exact ⟨rfl, rfl⟩) d.name nd.save

/-- The primary role: nothing is sent. -/
theorem runPeer_sendQmp_primary {domainName : String}
    (hfork : nd.os.fork env.fork d.name = some (pid, os))
    (hd : nd.getDomain domainName = .ok d) (role : ColoDomainStatus) (env' : Env) :
    runPeer env' (.peerSendQmpcmds domainName .primary)
        (coloLaunched domainName d pid os role nd) =
      .returned ⟨0, "send colo qmp success."⟩ (coloLaunched domainName d pid os role nd) := by
  have htest := testDomainStatus_coloLaunched hfork domainName role
  have hget := getDomain_coloLaunched hd pid os role
  simp [runPeer, handle, peerColodSendQmpcmds, htest, hget, Act.follow]

theorem runPeer_sendQmp_secondary {domainName : String}
    (hfork : nd.os.fork env.fork d.name = some (pid, os))
    (hd : nd.getDomain domainName = .ok d) (role : ColoDomainStatus) (env' : Env) :
    runPeer env' (.peerSendQmpcmds domainName .secondary)
        (coloLaunched domainName d pid os role nd) =
      match Node.qmpScriptEnd env'.qmp 4 with
      | .died => .crashed ((coloLaunched domainName d pid os role nd).sentQmp
          (Node.qmpScriptTexts env'.qmp
            (generateSvmQmpcmd d nd.currentStatus (nd.dom domainName))))
      | .failed =>
          .returned ⟨-1, "colo domain " ++ domainName ++
              " start failed : sencondary send qmp cmds failed."⟩
            ((coloLaunched domainName d pid os role nd).sentQmp
              (Node.qmpScriptTexts env'.qmp
                (generateSvmQmpcmd d nd.currentStatus (nd.dom domainName))))
      | .complete =>
          .returned ⟨0, "send colo qmp success."⟩
            ((coloLaunched domainName d pid os role nd).sentQmp
              (Node.qmpScriptTexts env'.qmp
                (generateSvmQmpcmd d nd.currentStatus (nd.dom domainName)))) := by
  have htest := testDomainStatus_coloLaunched hfork domainName role
  have hget := getDomain_coloLaunched hd pid os role
  have hcmds : generateSvmQmpcmd d (coloLaunched domainName d pid os role nd).currentStatus
      ((coloLaunched domainName d pid os role nd).dom domainName) =
        generateSvmQmpcmd d nd.currentStatus (nd.dom domainName) := by
    rw [Node.dom_eq_of_lookup (lookup_coloLaunched domainName d pid os role nd)]
    rfl
  have hlength : (generateSvmQmpcmd d nd.currentStatus (nd.dom domainName)).length = 4 := rfl
  simp only [runPeer, handle, peerColodSendQmpcmds, htest, hget, hcmds,
    Node.sendQmpCmds_eq, hlength]
  cases Node.qmpScriptEnd env'.qmp 4 <;> rfl

end

/-! ## The first call -/

section

variable {domainName : String} {nd : Node} {w : Peer} (failure : String) (k : Node → Colod)

theorem runPair_start_refused (husable : nd.remoteClient.usable = true)
    (hlength : domainName.length < 65536)
    (hrefused : ∀ env, w.executes nd.remoteClient = some env →
      peerStarted env domainName w.node = none) :
    ∃ msg nd' w', runPair (nd.remoteCall (.peerStartDomain domainName true) fun ret nd =>
          checkReply failure ret nd k) w = (.returned ⟨-1, msg⟩ nd', w') ∧
      SameTables (nd.called (.peerStartDomain domainName true)) nd' ∧
      w'.node = if (w.executes nd.remoteClient).isSome then w.node.touch domainName
        else w.node := by
  cases hexec : w.executes nd.remoteClient with
  | none =>
      obtain ⟨msg, nd', hrun, hsame⟩ := exec_checkReply_refused husable
        (peerServe_of_not_executes hexec (.peerStartDomain domainName true) _) rfl failure k
      exact ⟨msg, nd', _, hrun, hsame, rfl⟩
  | some env =>
      have hrun := runPeer_peerStart env domainName w.node
      rw [hrefused env hexec] at hrun
      have hserve := peerServe_of_executes hexec (.peerStartDomain domainName true)
        (nd.called (.peerStartDomain domainName true))
      rw [Request.wire, wireString_of_lt hlength] at hserve
      rcases hrun with hrun | ⟨err, hrun⟩
      · rw [hrun] at hserve
        obtain ⟨msg, nd', hexec', hsame⟩ :=
          exec_checkReply_refused husable hserve rfl failure k
        exact ⟨msg, nd', _, hexec', hsame, rfl⟩
      · rw [hrun] at hserve
        obtain ⟨msg, nd', hexec', hsame⟩ :=
          exec_checkReply_refused husable hserve (by simp [accepted, ValueT.answer,
            ColodRetVal.wire]) failure k
        exact ⟨msg, nd', _, hexec', hsame, rfl⟩

theorem runPair_start_accepted {env : Env} {peer' : Node}
    (husable : nd.remoteClient.usable = true) (hlength : domainName.length < 65536)
    (hexec : w.executes nd.remoteClient = some env)
    (hstarted : peerStarted env domainName w.node = some peer') :
    runPair (nd.remoteCall (.peerStartDomain domainName true) fun ret nd =>
        checkReply failure ret nd k) w =
      runPair (k (nd.called (.peerStartDomain domainName true)).replied)
        (w.advance (nd.called (.peerStartDomain domainName true)) peer') := by
  have hrun := runPeer_peerStart env domainName w.node
  rw [hstarted] at hrun
  have hserve := peerServe_of_executes hexec (.peerStartDomain domainName true)
    (nd.called (.peerStartDomain domainName true))
  rw [Request.wire, wireString_of_lt hlength, hrun] at hserve
  exact exec_checkReply_accepted husable hserve
    (by simp [accepted, ValueT.answer, ColodRetVal.wire]) failure k

end

/-! ## The rest of the start -/

/-- How the part after the local launch ends, from the role, the local QMP
exchange and the environment under which the peer executes the second call. -/
def pairTailEnd (env : Env) (role : ColoDomainStatus) (peerEnv : Option Env) : Node.QmpEnd :=
  match role with
  | .primary =>
      match peerEnv with
      | none => .failed
      | some peerEnv =>
          if Node.qmpScriptEnd peerEnv.qmp 4 = .complete then Node.qmpScriptEnd env.qmp 6
          else .failed
  | .secondary =>
      match Node.qmpScriptEnd env.qmp 4, peerEnv with
      | .complete, none => .failed
      | result, _ => result
  | _ => .complete

def tailTrace (env : Env) (domainName : String) (role : ColoDomainStatus)
    (peerEnv : Env) (d dPeer : Domain) (nd peer : Node) : List (Side × Effect) :=
  match role with
  | .primary =>
      (Side.caller, .rpc (nd.remoteClient.socket.map ReqSocket.ip) nd.currentStatus.peerIp
          (.peerSendQmpcmds domainName .secondary)) ::
        sideEffects .peer ((Node.qmpScriptTexts peerEnv.qmp
          (generateSvmQmpcmd dPeer peer.currentStatus (peer.dom domainName))).map
            (.qmp qmpPort)) ++
        sideEffects .caller ((Node.qmpScriptTexts env.qmp
          (generatePvmQmpcmd d nd.currentStatus (nd.dom domainName))).map (.qmp qmpPort))
  | .secondary =>
      sideEffects .caller ((Node.qmpScriptTexts env.qmp
          (generateSvmQmpcmd d nd.currentStatus (nd.dom domainName))).map (.qmp qmpPort)) ++
        [(Side.caller, .rpc (nd.remoteClient.socket.map ReqSocket.ip) nd.currentStatus.peerIp
          (.peerSendQmpcmds domainName .primary))]
  | _ => []

/-- A result agrees with an end: a failure changes no process of the caller, a
success has the tail of the trace. -/
def TailResult (nd : Node) (w : Peer) (result : Outcome Node ColodRetVal × Peer)
    (tail : List (Side × Effect)) : Node.QmpEnd → Prop
  | .died => ∃ nd' w', result = (.crashed nd', w')
  | .failed => ∃ msg nd' w', result = (.returned ⟨-1, msg⟩ nd', w') ∧ nd'.os = nd.os
  | .complete => ∃ msg nd' w', result = (.returned ⟨0, msg⟩ nd', w') ∧
      w'.finish nd' = w.finish nd ++ tail

section

variable {domainName : String} {nd peer : Node} {w : Peer} {d dPeer : Domain} {pid : ℤ}
  {os : ProcessTable} {rolePeer : ColoDomainStatus} {envPeer : Env}

theorem startQmp_primary_pair (husable : nd.remoteClient.usable = true)
    (hseen : w.seen ≤ nd.log.length) (hlength : domainName.length < 65536)
    (hnode : w.node = coloLaunched domainName dPeer pid os rolePeer peer)
    (hfork : peer.os.fork envPeer.fork dPeer.name = some (pid, os))
    (hd : peer.getDomain domainName = .ok dPeer) (env : Env) :
    TailResult nd w (runPair (startQmp env domainName .primary d nd) w)
      (tailTrace env domainName .primary
        ((w.executes nd.remoteClient).getD (.smooth 0)) d dPeer nd peer)
      (pairTailEnd env .primary (w.executes nd.remoteClient)) := by
  unfold startQmp runPair
  dsimp only
  cases hexec : w.executes nd.remoteClient with
  | none =>
      obtain ⟨msg, nd', heq, hsame⟩ := exec_checkReply_refused husable
        (peerServe_of_not_executes hexec (.peerSendQmpcmds domainName .secondary) _) rfl
        ("colo domain " ++ domainName ++ " start failed :  secondary send qmpcmd failed.") _
      exact ⟨msg, nd', _, heq, hsame.os⟩
  | some peerEnv =>
      have hserve := peerServe_of_executes hexec (.peerSendQmpcmds domainName .secondary)
        (nd.called (.peerSendQmpcmds domainName .secondary))
      rw [Request.wire, wireString_of_lt hlength, hnode,
        runPeer_sendQmp_secondary hfork hd rolePeer peerEnv] at hserve
      simp only [pairTailEnd]
      cases hend : Node.qmpScriptEnd peerEnv.qmp 4 with
      | died =>
          rw [hend] at hserve
          obtain ⟨msg, nd', heq, hsame⟩ := exec_checkReply_refused husable hserve rfl
            ("colo domain " ++ domainName ++
              " start failed :  secondary send qmpcmd failed.") _
          exact ⟨msg, nd', _, heq, hsame.os⟩
      | failed =>
          rw [hend] at hserve
          obtain ⟨msg, nd', heq, hsame⟩ := exec_checkReply_refused husable hserve
            (by simp [accepted, ValueT.answer, ColodRetVal.wire])
            ("colo domain " ++ domainName ++
              " start failed :  secondary send qmpcmd failed.") _
          exact ⟨msg, nd', _, heq, hsame.os⟩
      | complete =>
          rw [hend] at hserve
          rw [exec_checkReply_accepted husable hserve
            (by simp [accepted, ValueT.answer, ColodRetVal.wire]), Node.sendQmpCmds_eq]
          have hlength₆ : ∀ cs cds, (generatePvmQmpcmd d cs cds).length = 6 := fun _ _ => rfl
          rw [hlength₆, if_pos rfl]
          cases Node.qmpScriptEnd env.qmp 6 with
          | died => exact ⟨_, _, rfl⟩
          | failed => exact ⟨_, _, _, rfl, rfl⟩
          | complete =>
              refine ⟨_, _, _, rfl, ?_⟩
              rw [finish_advance w rfl, finish_append rfl hseen, hnode]
              simp [Node.sentQmp, tailTrace, sideEffects]
              rfl

theorem startQmp_secondary_pair (husable : nd.remoteClient.usable = true)
    (hseen : w.seen ≤ nd.log.length) (hlength : domainName.length < 65536)
    (hnode : w.node = coloLaunched domainName dPeer pid os rolePeer peer)
    (hfork : peer.os.fork envPeer.fork dPeer.name = some (pid, os))
    (hd : peer.getDomain domainName = .ok dPeer) (env : Env) :
    TailResult nd w (runPair (startQmp env domainName .secondary d nd) w)
      (tailTrace env domainName .secondary
        ((w.executes nd.remoteClient).getD (.smooth 0)) d dPeer nd peer)
      (pairTailEnd env .secondary (w.executes nd.remoteClient)) := by
  unfold startQmp runPair
  dsimp only
  have hlength₄ : ∀ cs cds, (generateSvmQmpcmd d cs cds).length = 4 := fun _ _ => rfl
  rw [Node.sendQmpCmds_eq, hlength₄]
  simp only [pairTailEnd]
  cases Node.qmpScriptEnd env.qmp 4 with
  | died => exact ⟨_, _, rfl⟩
  | failed => exact ⟨_, _, _, rfl, rfl⟩
  | complete =>
      generalize hsent : nd.sentQmp _ = nd₁
      have hos : nd₁.os = nd.os := by rw [← hsent]; rfl
      have husable₁ : nd₁.remoteClient.usable = true := by rw [← hsent]; exact husable
      have hclient : nd₁.remoteClient = nd.remoteClient := by rw [← hsent]; rfl
      dsimp only [Node.QmpEnd.result, checkQmp]
      rw [if_neg (by decide)]
      cases hexec : w.executes nd.remoteClient with
      | none =>
          rw [← hclient] at hexec
          obtain ⟨msg, nd', heq, hsame⟩ := exec_checkReply_refused husable₁
            (peerServe_of_not_executes hexec (.peerSendQmpcmds domainName .primary) _) rfl
            ("colo domain " ++ domainName ++ " start failed :  primary send qmpcmd failed.") _
          exact ⟨msg, nd', _, heq, hsame.os.trans hos⟩
      | some peerEnv =>
          rw [← hclient] at hexec
          have hserve := peerServe_of_executes hexec (.peerSendQmpcmds domainName .primary)
            (nd₁.called (.peerSendQmpcmds domainName .primary))
          rw [Request.wire, wireString_of_lt hlength, hnode,
            runPeer_sendQmp_primary hfork hd rolePeer peerEnv] at hserve
          rw [exec_checkReply_accepted husable₁ hserve
            (by simp [accepted, ValueT.answer, ColodRetVal.wire])]
          have hlog : (nd₁.called (.peerSendQmpcmds domainName .primary)).replied.log =
              (nd₁.called (.peerSendQmpcmds domainName .primary)).log ++ [] := by
            rw [List.append_nil]
            rfl
          have hcalled : (nd₁.called (.peerSendQmpcmds domainName .primary)).log =
              nd.log ++ ((Node.qmpScriptTexts env.qmp (generateSvmQmpcmd d nd.currentStatus
                  (nd.dom domainName))).map (.qmp qmpPort) ++
                [.rpc (nd.remoteClient.socket.map ReqSocket.ip) nd.currentStatus.peerIp
                  (.peerSendQmpcmds domainName .primary)]) := by
            rw [← hsent, ← List.append_assoc]
            rfl
          refine ⟨_, _, _, rfl, ?_⟩
          rw [finish_advance w hlog, hnode, finish_append hcalled hseen]
          simp [tailTrace, sideEffects]

theorem startQmp_pair (husable : nd.remoteClient.usable = true)
    (hseen : w.seen ≤ nd.log.length) (hlength : domainName.length < 65536)
    (hnode : w.node = coloLaunched domainName dPeer pid os rolePeer peer)
    (hfork : peer.os.fork envPeer.fork dPeer.name = some (pid, os))
    (hd : peer.getDomain domainName = .ok dPeer) (env : Env) (role : ColoDomainStatus) :
    TailResult nd w (runPair (startQmp env domainName role d nd) w)
      (tailTrace env domainName role
        ((w.executes nd.remoteClient).getD (.smooth 0)) d dPeer nd peer)
      (pairTailEnd env role (w.executes nd.remoteClient)) := by
  have hother : ∀ msg, TailResult nd w (.returned ⟨0, msg⟩ nd, w) [] .complete := fun msg =>
    ⟨msg, nd, w, rfl, by simp⟩
  cases role with
  | primary => exact startQmp_primary_pair husable hseen hlength hnode hfork hd env
  | secondary => exact startQmp_secondary_pair husable hseen hlength hnode hfork hd env
  | none => exact hother _
  | failover => exact hother _
  | degrade => exact hother _
  | dead => exact hother _

end

/-! ## A failed start -/

/-- Nothing new runs, and status and pid are as before in both copies. -/
structure Untouched (domainName : String) (nd nd' : Node) : Prop where
  processes : ∀ vm ∈ nd'.os.vms, vm.running = true → vm ∈ nd.os.vms
  memory : (nd'.domains.lookup domainName).map (fun ds => (ds.status, ds.pid)) =
    (nd.domains.lookup domainName).map fun ds => (ds.status, ds.pid)
  file : (nd'.save.find domainName).map (fun entry => (entry.status, entry.pid)) =
    (nd.save.find domainName).map fun entry => (entry.status, entry.pid)

/-- A negative code leaves both nodes untouched. -/
def CleanFailure (domainName : String) (nd peer : Node) :
    Outcome Node ColodRetVal × Peer → Prop
  | (.returned ret nd', w') =>
      ret.code < 0 → Untouched domainName nd nd' ∧ Untouched domainName peer w'.node
  | (.crashed _, _) => True

def SweepClean (domainName : String) (nd : Node) : Prop :=
  nd.FoundDead domainName → (nd.dom domainName).status = .shutOff ∧
    ∀ entry, nd.save.find domainName = some entry →
      entry.status = "shutoff" ∧ entry.pid = -1

/-- The test of the domain comes first, and may clear a stale record or insert
an empty one.  Once the peer has launched, nothing undoes it: everything after
must succeed, or kill colod. -/
def StartClean (env : Env) (domainName : String) (nd : Node) (w : Peer) : Prop :=
  (nd.testDomainStatus domainName).1 = .shutOff →
    match (nd.testDomainStatus domainName).2.getDomain domainName with
    | .error (.thrown _) => True
    | .error (.refused _) => SweepClean domainName nd ∧ domainName ∈ nd.domains
    | .ok d =>
        (nd.dom domainName).coloEnable = true → nd.remoteClient.usable = true →
          match w.executes nd.remoteClient with
          | none => SweepClean domainName nd
          | some envPeer =>
              match peerStarted envPeer domainName w.node with
              | none => SweepClean domainName nd ∧ domainName ∈ w.node.domains
              | some _ =>
                  nd.os.fork env.fork d.name ≠ none ∧
                    pairTailEnd env (nd.dom domainName).coloStatus
                      (nextEnv w.plan.tail) ≠ .failed

theorem mem_domains_of_enabled {domainName : String} {nd : Node}
    (h : (nd.dom domainName).coloEnable = true) : domainName ∈ nd.domains := by
  rw [← AList.lookup_isSome]
  cases hlookup : nd.domains.lookup domainName with
  | none =>
      rw [Node.dom, hlookup] at h
      exact absurd h (by decide)
  | some ds => rfl

theorem Untouched.refl (domainName : String) (nd : Node) : Untouched domainName nd nd :=
  ⟨fun _ hvm _ => hvm, rfl, rfl⟩

theorem untouched_touch_iff (domainName : String) (nd : Node) :
    Untouched domainName nd (nd.touch domainName) ↔ domainName ∈ nd.domains := by
  constructor
  · intro h
    have hmemory := h.memory
    rw [Node.lookup_touch, if_pos rfl] at hmemory
    rw [← AList.lookup_isSome]
    cases hlookup : nd.domains.lookup domainName with
    | none => simp [hlookup] at hmemory
    | some ds => rfl
  · intro h
    rw [Node.touch_of_mem h]
    exact .refl domainName nd

theorem untouched_tested_iff {domainName : String} {nd nd' : Node}
    (hdomains : nd'.domains = (nd.testDomainStatus domainName).2.domains)
    (hsave : nd'.save = (nd.testDomainStatus domainName).2.save) (hos : nd'.os = nd.os) :
    Untouched domainName nd nd' ↔
      SweepClean domainName nd ∧ domainName ∈ nd.domains := by
  have hmemory : nd'.domains.lookup domainName =
      some (if nd.FoundDead domainName then { nd.dom domainName with status := .shutOff }
        else nd.dom domainName) := by
    rw [hdomains, Node.lookup_testDomainStatus, if_pos rfl]
  have hfile : nd'.save.find domainName =
      if nd.FoundDead domainName then
        (nd.save.find domainName).map fun entry =>
          { entry with pid := -1, status := "shutoff" }
      else nd.save.find domainName := by
    rw [hsave, Node.find_testDomainStatus]
    simp
  constructor
  · intro h
    have hmem : domainName ∈ nd.domains := by
      have hsome := h.memory
      rw [hmemory] at hsome
      rw [← AList.lookup_isSome]
      cases hlookup : nd.domains.lookup domainName with
      | none => simp [hlookup] at hsome
      | some ds => rfl
    obtain ⟨ds, hds⟩ := Option.isSome_iff_exists.mp (AList.lookup_isSome.mpr hmem)
    refine ⟨?_, hmem⟩
    intro hdead
    have hsame := h.memory
    have hsame' := h.file
    rw [hmemory, hds, if_pos hdead, Node.dom_eq_of_lookup hds] at hsame
    rw [hfile, if_pos hdead] at hsame'
    simp only [Option.map_some, Option.some.injEq, Prod.mk.injEq, and_true] at hsame
    refine ⟨by rw [Node.dom_eq_of_lookup hds, ← hsame], ?_⟩
    intro entry hentry
    simp only [hentry, Option.map_some, Option.some.injEq, Prod.mk.injEq] at hsame'
    exact ⟨hsame'.1.symm, hsame'.2.symm⟩
  · rintro ⟨hclean, hmem⟩
    obtain ⟨ds, hds⟩ := Option.isSome_iff_exists.mp (AList.lookup_isSome.mpr hmem)
    refine ⟨fun vm hvm _ => hos ▸ hvm, ?_, ?_⟩
    · by_cases hdead : nd.FoundDead domainName
      · have hstatus := (hclean hdead).1
        rw [Node.dom_eq_of_lookup hds] at hstatus
        simp [hmemory, hdead, Node.dom_eq_of_lookup hds, hds, hstatus]
      · simp [hmemory, hdead, Node.dom_eq_of_lookup hds, hds]
    · by_cases hdead : nd.FoundDead domainName
      · rw [hfile, if_pos hdead]
        cases hentry : nd.save.find domainName with
        | none => rfl
        | some entry =>
            obtain ⟨hstatus, hpid⟩ := (hclean hdead).2 entry hentry
            simp [hstatus, hpid]
      · rw [hfile, if_neg hdead]

theorem not_untouched_of_new {domainName : String} {nd nd' : Node} {vm : VmProcess}
    (hvm : vm ∈ nd'.os.vms) (hrunning : vm.running = true) (hnew : vm ∉ nd.os.vms) :
    ¬ Untouched domainName nd nd' :=
  fun h => hnew (h.processes vm hvm hrunning)

theorem peerStarted_eq_some {env : Env} {domainName : String} {nd nd' : Node}
    (h : peerStarted env domainName nd = some nd') :
    ∃ d pid os, nd.getDomain domainName = .ok d ∧
      nd.os.fork env.fork d.name = some (pid, os) ∧
      nd' = coloLaunched domainName d pid os (nd.dom domainName).coloStatus
        (nd.touch domainName) := by
  unfold peerStarted at h
  split at h
  · cases hd : nd.getDomain domainName with
    | error stop => simp [hd] at h
    | ok d =>
        cases hfork : nd.os.fork env.fork d.name with
        | none => simp [hd, hfork] at h
        | some forked =>
            obtain ⟨pid, os⟩ := forked
            simp only [hd, hfork, Option.some.injEq] at h
            exact ⟨d, pid, os, rfl, hfork, h.symm⟩
  · simp at h

theorem peerStarted_of_fork {env : Env} {domainName : String} {nd : Node} {d : Domain}
    (henabled : (nd.dom domainName).coloEnable = true) (hd : nd.getDomain domainName = .ok d)
    (hfork : nd.os.fork env.fork d.name ≠ none) :
    (peerStarted env domainName nd).isSome = true := by
  cases hforked : nd.os.fork env.fork d.name with
  | none => exact absurd hforked hfork
  | some forked => simp [peerStarted, henabled, hd, hforked]

theorem not_untouched_peerStarted {env : Env} {domainName : String} {nd nd' : Node}
    (h : peerStarted env domainName nd = some nd') : ¬ Untouched domainName nd nd' := by
  obtain ⟨d, pid, os, -, hfork, rfl⟩ := peerStarted_eq_some h
  have htouched : (nd.touch domainName).os.fork env.fork d.name = some (pid, os) := hfork
  have hmem := coloLaunched_mem htouched domainName (nd.dom domainName).coloStatus
  exact not_untouched_of_new hmem.1 rfl hmem.2

section

variable {domainName : String} {nd nd₂ peer peer' : Node} {w : Peer} {envPeer : Env}

theorem startHost_launched_pair (w : Peer) {env : Env} {d : Domain} {pid : ℤ}
    {os : ProcessTable} (husable : nd₂.remoteClient.usable = true)
    (hsends : nd₂.remoteClient.sends = true)
    (hfork : nd₂.os.fork env.fork d.name = some (pid, os))
    (hlength : domainName.length < 65536) (hseen : w.seen ≤ nd₂.log.length)
    {dPeer : Domain} {pidPeer : ℤ} {osPeer : ProcessTable}
    (hdPeer : peer.getDomain domainName = .ok dPeer)
    (hforkPeer : peer.os.fork envPeer.fork dPeer.name = some (pidPeer, osPeer))
    {rolePeer : ColoDomainStatus}
    (hnode : w.node = coloLaunched domainName dPeer pidPeer osPeer rolePeer peer)
    (role : ColoDomainStatus) :
    TailResult (coloLaunched domainName d pid os role nd₂) w
      (runPair (startHost env domainName role d nd₂) w)
      (tailTrace env domainName role ((nextEnv w.plan).getD (.smooth 0)) d dPeer
        (coloLaunched domainName d pid os role nd₂) peer)
      (pairTailEnd env role (nextEnv w.plan)) := by
  have hpos := (ProcessTable.fork_eq_some hfork).1
  have hnonneg : ¬ pid < 0 := by omega
  have hclient : (coloLaunched domainName d pid os role nd₂).remoteClient =
      nd₂.remoteClient := rfl
  have hexec : w.executes (coloLaunched domainName d pid os role nd₂).remoteClient =
      nextEnv w.plan := by
    rw [hclient, Peer.executes, hsends, if_pos rfl]
  have hseen₃ : w.seen ≤ (coloLaunched domainName d pid os role nd₂).log.length := by
    show w.seen ≤ (nd₂.log ++ [Effect.launch _ _ _]).length
    rw [List.length_append]
    omega
  have hrun : startHost env domainName role d nd₂ =
      startQmp env domainName role d (coloLaunched domainName d pid os role nd₂) := by
    rcases nd₂.runNewVm_cases env d.name (coloCmd role d nd₂.currentStatus) with
      ⟨hnone, -⟩ | ⟨pid', os', hsome, heq⟩
    · simp [hnone] at hfork
    · rw [hfork, Option.some.injEq, Prod.mk.injEq] at hsome
      obtain ⟨rfl, rfl⟩ := hsome
      simp only [startHost, heq, hnonneg, if_false]
      rfl
  rw [hrun, ← hexec]
  exact startQmp_pair (hclient ▸ husable) hseen₃ hlength hnode hforkPeer hdPeer env role

/-- The local part of a COLO start: a failure leaves the VM of the peer. -/
theorem startHost_clean_iff (husable : nd₂.remoteClient.usable = true)
    (hsends : nd₂.remoteClient.sends = true) (hos : nd₂.os = nd.os)
    (hlength : domainName.length < 65536) (hseen : w.seen ≤ nd₂.log.length)
    (hstarted : peerStarted envPeer domainName peer = some peer') (hnode : w.node = peer')
    (env : Env) (role : ColoDomainStatus) (d : Domain) :
    CleanFailure domainName nd peer (runPair (startHost env domainName role d nd₂) w) ↔
      nd.os.fork env.fork d.name ≠ none ∧
        pairTailEnd env role (nextEnv w.plan) ≠ .failed := by
  cases hfork : nd.os.fork env.fork d.name with
  | none =>
      have hpeer : ¬ Untouched domainName peer w.node := by
        rw [hnode]
        exact not_untouched_peerStarted hstarted
      have heq : nd₂.runNewVm env d.name (coloCmd role d nd₂.currentStatus) = (-1, nd₂) := by
        simp [Node.runNewVm, hos, hfork]
      simp [startHost, heq, runPair, CleanFailure, hpeer]
  | some forked =>
      obtain ⟨pid, os⟩ := forked
      rw [← hos] at hfork
      obtain ⟨dPeer, pidPeer, osPeer, hdPeer, hforkPeer, rfl⟩ := peerStarted_eq_some hstarted
      have htouched : (peer.touch domainName).os.fork envPeer.fork dPeer.name =
          some (pidPeer, osPeer) := hforkPeer
      have hloaded : (peer.touch domainName).getDomain domainName = .ok dPeer := hdPeer
      have hresult := startHost_launched_pair w husable hsends hfork hlength hseen hloaded
        htouched hnode role
      have hlaunched := coloLaunched_mem hfork domainName role
      rw [hos] at hlaunched
      generalize coloLaunched domainName d pid os role nd₂ = nd₃ at hresult hlaunched
      generalize runPair (startHost env domainName role d nd₂) w = result at hresult ⊢
      cases hend : pairTailEnd env role (nextEnv w.plan) with
      | died =>
          rw [hend] at hresult
          obtain ⟨nd', w', rfl⟩ := hresult
          simp [CleanFailure]
      | failed =>
          rw [hend] at hresult
          obtain ⟨msg, nd', w', rfl, hsame⟩ := hresult
          have hleft : ¬ Untouched domainName nd nd' :=
            not_untouched_of_new (hsame ▸ hlaunched.1) rfl hlaunched.2
          simp [CleanFailure, hleft]
      | complete =>
          rw [hend] at hresult
          obtain ⟨msg, nd', w', rfl, -⟩ := hresult
          simp [CleanFailure]

end

theorem sweepClean_of_not_shutOff {domainName : String} {nd : Node}
    (h : (nd.testDomainStatus domainName).1 ≠ .shutOff) :
    SweepClean domainName nd ∧ domainName ∈ nd.domains := by
  obtain ⟨hmem, hdead⟩ := Node.known_of_not_shutOff h
  exact ⟨fun hfound => absurd hfound hdead, hmem⟩

theorem startCall_clean_iff {domainName failure : String} {nd nd₁ : Node} {w : Peer}
    (hlength : domainName.length < 65536) (hmem : domainName ∈ nd.domains)
    (husable : nd₁.remoteClient.usable = true)
    (htested : nd₁ = (nd.testDomainStatus domainName).2)
    (env : Env) (role : ColoDomainStatus) (d : Domain) :
    CleanFailure domainName nd w.node
        (runPair (nd₁.remoteCall (.peerStartDomain domainName true) fun ret nd =>
          checkReply failure ret nd (startHost env domainName role d)) w) ↔
      match w.executes nd.remoteClient with
      | none => SweepClean domainName nd
      | some envPeer =>
          match peerStarted envPeer domainName w.node with
          | none => SweepClean domainName nd ∧ domainName ∈ w.node.domains
          | some _ =>
              nd.os.fork env.fork d.name ≠ none ∧
                pairTailEnd env role (nextEnv w.plan.tail) ≠ .failed := by
  have hclient : nd₁.remoteClient = nd.remoteClient := by
    rw [htested, Node.testDomainStatus_remoteClient]
  have hos : nd₁.os = nd.os := by rw [htested, Node.testDomainStatus_os]
  have huntouched : ∀ nd', SameTables (nd₁.called (.peerStartDomain domainName true)) nd' →
      (Untouched domainName nd nd' ↔ SweepClean domainName nd) := by
    intro nd' hsame
    have hdomains : nd'.domains = nd₁.domains := hsame.domains
    have hsave : nd'.save = nd₁.save := hsame.save
    have hos' : nd'.os = nd₁.os := hsame.os
    rw [untouched_tested_iff (htested ▸ hdomains) (htested ▸ hsave) (hos'.trans hos)]
    simp [hmem]
  cases hexec : w.executes nd.remoteClient with
  | none =>
      have hrefused : ∀ env', w.executes nd₁.remoteClient = some env' →
          peerStarted env' domainName w.node = none := by
        simp [hclient, hexec]
      obtain ⟨msg, nd', w', hrun, hsame, hpeer⟩ := runPair_start_refused failure
        (startHost env domainName role d) husable hlength hrefused
      rw [hrun]
      rw [hclient, hexec] at hpeer
      have hself := huntouched nd' hsame
      simp [CleanFailure, hself, hpeer, Untouched.refl]
  | some envPeer =>
      cases hstarted : peerStarted envPeer domainName w.node with
      | none =>
          have hrefused : ∀ env', w.executes nd₁.remoteClient = some env' →
              peerStarted env' domainName w.node = none := by
            intro env' hexec'
            rw [hclient, hexec, Option.some.injEq] at hexec'
            rw [← hexec', hstarted]
          obtain ⟨msg, nd', w', hrun, hsame, hpeer⟩ := runPair_start_refused failure
            (startHost env domainName role d) husable hlength hrefused
          rw [hrun]
          rw [hclient, hexec] at hpeer
          have hself := huntouched nd' hsame
          simp [CleanFailure, hself, hpeer, hstarted, untouched_touch_iff]
      | some peer' =>
          rw [runPair_start_accepted failure _ husable hlength (hclient ▸ hexec) hstarted]
          have hsocket : nd₁.remoteClient.socket.isSome = true := usable_socket husable
          generalize hcalled : nd₁.called (.peerStartDomain domainName true) = nd₂
          have hreplied : nd₂.replied.remoteClient.usable = true := by
            apply usable_replied
            rw [← hcalled]
            simpa [Node.called, Node.issue, Node.record, Node.setAwaiting] using hsocket
          have hos₂ : nd₂.replied.os = nd.os := by
            rw [← hos, ← hcalled]
            rfl
          simp only [hstarted]
          refine startHost_clean_iff hreplied rfl hos₂ hlength ?_ hstarted ?_ env role d
          · exact Nat.le_refl nd₂.log.length
          · rfl

/-- A start that fails leaves both nodes as they were exactly when `StartClean`
holds.  A name that has come over the wire is shorter than 65536. -/
theorem coloStart_clean_iff {domainName : String} (hlength : domainName.length < 65536)
    (env : Env) (nd : Node) (w : Peer) :
    CleanFailure domainName nd w.node (runPair (colodStart env domainName true nd) w) ↔
      StartClean env domainName nd w := by
  have htested : ∀ nd' : Node,
      nd'.domains = (nd.testDomainStatus domainName).2.domains →
      nd'.save = (nd.testDomainStatus domainName).2.save → nd'.os = nd.os →
        (Untouched domainName nd nd' ↔ SweepClean domainName nd ∧ domainName ∈ nd.domains) :=
    fun nd' => untouched_tested_iff
  have hself := htested _ rfl rfl (Node.testDomainStatus_os domainName nd)
  have hpeer := Untouched.refl domainName w.node
  unfold colodStart StartClean
  simp only [Node.testDomainStatus_touch, Node.coloEnable_testDomainStatus]
  by_cases hshut : (nd.testDomainStatus domainName).1 = .shutOff
  · simp only [hshut, ne_eq, not_true_eq_false, if_false, true_implies]
    cases hd : (nd.testDomainStatus domainName).2.getDomain domainName with
    | error stop =>
        cases stop with
        | thrown exn => simp [runPair, CleanFailure]
        | refused err => simp [runPair, CleanFailure, hself, hpeer]
    | ok d =>
        by_cases henabled : (nd.dom domainName).coloEnable = true
        · simp only [henabled, Bool.not_true, true_implies]
          by_cases husable : nd.remoteClient.usable = true
          · have hmem := mem_domains_of_enabled henabled
            have husable' := Node.usable_testDomainStatus husable domainName
            simp only [husable, true_implies, Bool.false_eq_true, if_false]
            exact startCall_clean_iff hlength hmem husable' rfl env _ d
          · have hunusable : (nd.testDomainStatus domainName).2.remoteClient.usable = false := by
              rw [Node.testDomainStatus_remoteClient]
              simpa using husable
            simp only [Bool.false_eq_true, if_false]
            rw [runPair, exec_of_not_usable hunusable]
            simp [CleanFailure, husable]
        · simp [henabled, runPair, CleanFailure]
  · have hclean := sweepClean_of_not_shutOff hshut
    simp [hshut, runPair, CleanFailure, hself, hpeer, hclean]

theorem coloStart_clean_lost :
    CleanFailure "d" (enabledCaller .primary) (enabledPeer .primary [.lost]).node
      (runPair (colodStart (.smooth 200) "d" true (enabledCaller .primary))
        (enabledPeer .primary [.lost])) := by
  have hlength : "d".length < 65536 := by decide
  refine (coloStart_clean_iff hlength (.smooth 200) (enabledCaller .primary)
    (enabledPeer .primary [.lost])).mpr ?_
  have hd : ((enabledCaller .primary).testDomainStatus "d").2.getDomain "d" =
      .ok (sampleDomain "d") := by
    decide +kernel
  have hpid : ((enabledCaller .primary).dom "d").pid = -1 := by decide +kernel
  have hlost : (enabledPeer .primary [.lost]).executes (enabledCaller .primary).remoteClient =
      none := by
    simp [Peer.executes, enabledPeer, nextEnv]
  intro _
  rw [hd]
  intro _ _
  rw [hlost]
  rintro ⟨hne, -⟩
  exact absurd hpid hne

theorem CleanFailure.processes {domainName : String} {nd peer : Node}
    {result : Outcome Node ColodRetVal × Peer} (h : CleanFailure domainName nd peer result)
    (hcode : result.1.value.map ColodRetVal.code = some (-1)) :
    ∀ vm ∈ result.2.node.os.vms, vm.running = true → vm ∈ peer.os.vms := by
  obtain ⟨o, w'⟩ := result
  obtain ⟨ret, nd', rfl, hret⟩ := Outcome.exists_returned hcode
  exact (h (by omega)).2.processes

/-- The peer launches, the fork of the caller fails, and the VM of the peer is
left running. -/
theorem not_cleanFailure_fork_fails :
    ¬ CleanFailure "d" (enabledCaller .primary)
      (enabledPeer .primary [.executed (.smooth 100)]).node
      (runPair (colodStart { Env.smooth 200 with fork := none } "d" true
        (enabledCaller .primary)) (enabledPeer .primary [.executed (.smooth 100)])) := by
  intro h
  have hleft := h.processes (by decide +kernel) ⟨100, "d", true⟩ (by decide +kernel) rfl
  exact absurd hleft (by decide +kernel)

end ColoManage
