import ColoManage.Network
import Mathlib.Logic.Relation

/-!
# What a handler may do

A leg of a handler is a sequence of moves.  A `Move` changes the two tables, the
files, the processes or the log in one place, and says what the handler had
checked before: `start` is the node in which it took the request.  An invariant
that every move keeps is kept by all twenty handlers.
-/

namespace ColoManage

open Resumption Relation

/-- The log lines for messages, to the peer or to a monitor. -/
def Effect.isMessage : Effect → Bool
  | .qmp _ _ => true
  | .rpc _ _ _ => true
  | _ => false

def Effect.launchedPid : Effect → Option ℤ
  | .launch _ _ pid => some pid
  | _ => none

/-- The requests that may launch a VM for a domain. -/
def Request.Starts (req : Request) (domainName : String) (colo : Bool) : Prop :=
  req = .start domainName colo ∨ req = .peerStartDomain domainName colo

/-- The requests that may kill the VM of a domain. -/
def Request.Destroys (req : Request) (domainName : String) : Prop :=
  req = .destroy domainName ∨ req = .peerDestroyDomain domainName

namespace Node

/-- Only the connection and its flags change, and messages are sent. -/
structure Talked (nd nd' : Node) : Prop where
  domains : nd'.domains = nd.domains
  save : nd'.save = nd.save
  paths : nd'.paths = nd.paths
  files : nd'.files = nd.files
  os : nd'.os = nd.os
  log : ∃ messages, nd'.log = nd.log ++ messages ∧ ∀ effect ∈ messages, effect.isMessage = true

/-- The record of a domain says that a process was started for it. -/
def Started (domainName : String) (nd : Node) : Prop :=
  (nd.dom domainName).pid ≠ -1 ∧ (nd.dom domainName).status ≠ .shutOff

end Node

open Node

inductive Move (env : Env) (req : Request) (start : Node) : Node → Node → Prop
  | talked {nd nd' : Node} (h : nd.Talked nd') : Move env req start nd nd'
  | touched (domainName : String) (nd : Node) :
      Move env req start nd (nd.touch domainName)
  | swept {domainName : String} {nd : Node} (hdead : nd.FoundDead domainName) :
      Move env req start nd (nd.swept domainName)
  | savedStatus (cs : ColoStatus) (nd : Node) :
      Move env req start nd (nd.setSave (saveColoStatus cs nd.save))
  | wrote {path file : String} {doc : Yaml.Node} {d : Domain} {nd : Node}
      (hreq : req = .define path) (hload : start.loadFile path = some doc)
      (hparse : vmConfigParse doc = .ok d) (hfile : start.definitionFile d.name = some file) :
      Move env req start nd (nd.writeFile file doc)
  | defined {path : String} {ds : ColodDomainStatus} {save : SaveFile} {nd : Node}
      (hreq : req = .define path) (hpid : ds.pid = -1) (hstatus : ds.status = .shutOff)
      (henable : ds.coloEnable = false) (hsave : saveDomainInfo ds nd.save = .ok save) :
      Move env req start nd ((nd.setSave save).setDom ds.name ds)
  | undefined {domainName : String} {nd : Node} (hreq : req = .undefine domainName) :
      Move env req start nd
        ((nd.setSave (vmUndefine domainName nd.save)).eraseDom domainName)
  | launched {domainName : String} {colo : Bool} {d : Domain} {cmd : ShellCommand} {pid : ℤ}
      {os : ProcessTable} {status : DomainStatus} {nd : Node}
      (hreq : req.Starts domainName colo)
      (henable : colo = true → (start.dom domainName).coloEnable = true)
      (hget : start.getDomain domainName = .ok d)
      (hfork : nd.os.fork env.fork d.name = some (pid, os)) (hstatus : status ≠ .shutOff) :
      Move env req start nd
        ((nd.launched d.name cmd pid os).modDom domainName fun ds => { ds with pid, status })
  | forkFailed {domainName : String} {nd : Node} (hreq : req = .start domainName false) :
      Move env req start nd
        (nd.modDom domainName fun ds => { ds with pid := -1, status := .running })
  | missed {domainName : String} {pid : ℤ} {events : List OsEvent} {nd : Node}
      (hreq : req.Destroys domainName) (hpid : getDomainPid domainName nd.save = some pid)
      (hevents : ∀ event ∈ events, event ∈ env.beforeProbe ++ env.beforeKill) :
      Move env req start nd
        { nd with save := (removeDomainPid domainName nd.save).2, os := nd.os.after events }
  | killed {domainName : String} {pid : ℤ} {events : List OsEvent} {nd : Node}
      (hreq : req.Destroys domainName) (hpid : getDomainPid domainName nd.save = some pid)
      (hevents : ∀ event ∈ events, event ∈ env.beforeProbe ++ env.beforeKill)
      (hstarted : nd.Started domainName) (hsave : nd.save = start.save) :
      Move env req start nd
        (Node.modDom domainName (fun ds => { ds with pid := -1, status := .shutOff })
          { nd with
            save := (removeDomainPid domainName nd.save).2
            os := (nd.os.after events).sigkill pid
            log := nd.log ++ [.kill pid] })
  | flagged {domainName : String} {nd : Node} (value : Bool) (role : ColoDomainStatus)
      (hreq : req = .coloEnable domainName) :
      Move env req start nd (nd.setDom domainName
        { nd.dom domainName with coloEnable := value, coloStatus := role })
  | savedEnable {domainName : String} {nd : Node} (hreq : req = .coloEnable domainName) :
      Move env req start nd (nd.setSave
        (setDomainColoEnable domainName (nd.dom domainName).coloStatus nd.save).2)
  | disabled {domainName : String} {nd : Node} (hreq : req = .coloDisable domainName) :
      Move env req start nd ((nd.setSave (setDomainColoDisable domainName nd.save).2).setDom
        domainName { nd.dom domainName with coloEnable := false })
  | failedOver {domainName : String} {status : DomainStatus} {role : ColoDomainStatus} {nd : Node}
      (hreq : req = .doFailover domainName) (hold : (nd.dom domainName).status ≠ .shutOff)
      (hnew : status ≠ .shutOff) (hrole : role = .failover ∨ role = .degrade) :
      Move env req start nd
        (nd.setDom domainName { nd.dom domainName with status, coloStatus := role })
  | peerSaved {ds : ColodDomainStatus} {save : SaveFile} {nd : Node}
      (hreq : req = .peerSaveDomain ds)
      (hsave : saveDomainInfo (mirrorDomain ds) nd.save = .ok save) :
      Move env req start nd (nd.setSave save)
  | peerStored {ds : ColodDomainStatus} {save : SaveFile} {nd : Node}
      (hreq : req = .peerSaveDomain ds)
      (hsave : saveDomainInfo (mirrorDomain ds) nd.save = .ok save) :
      Move env req start nd
        ((nd.setSave (setDomainColoEnable ds.name (mirrorDomain ds).coloStatus save).2).setDom
          ds.name (mirrorDomain ds))

abbrev Moves (env : Env) (req : Request) (start : Node) : Node → Node → Prop :=
  ReflTransGen (Move env req start)

/-- What a handler asks the peer for: only an enabled start asks it to start a
domain, and only an enable to save one. -/
structure Asked (req : Request) (start : Node) (query : Query) : Prop where
  remote : query.request.isLocal = false
  start : ∀ domainName colo, query.request = .peerStartDomain domainName colo →
    req = .start domainName true ∧ (start.dom domainName).coloEnable = true
  save : ∀ ds, query.request = .peerSaveDomain ds → ∃ domainName, req = .coloEnable domainName

/-- Every leg of the handler is a sequence of moves. -/
abbrev Moving (env : Env) (req : Request) (start first : Node) (act : Colod) : Prop :=
  act.Legs Node.Apart (Moves env req start)
    (fun query nd => Asked req start query ∧ Issued query nd) first

/-! ## Moves that only talk -/

section

variable {env : Env} {req : Request} {start first nd nd' : Node}

theorem talked_of_log_eq (hdomains : nd'.domains = nd.domains) (hsave : nd'.save = nd.save)
    (hpaths : nd'.paths = nd.paths) (hfiles : nd'.files = nd.files) (hos : nd'.os = nd.os)
    (hlog : nd'.log = nd.log) : nd.Talked nd' :=
  ⟨hdomains, hsave, hpaths, hfiles, hos, [], by simp [hlog], by simp⟩

theorem talked_issue (request : Request) (nd : Node) : nd.Talked (nd.issue request) :=
  ⟨rfl, rfl, rfl, rfl, rfl, _, rfl, by simp [Effect.isMessage]⟩

theorem talked_called (request : Request) (nd : Node) : nd.Talked (nd.called request) :=
  ⟨rfl, rfl, rfl, rfl, rfl, _, rfl, by simp [Effect.isMessage]⟩

theorem talked_sentQmp (texts : List String) (nd : Node) : nd.Talked (nd.sentQmp texts) := by
  refine ⟨rfl, rfl, rfl, rfl, rfl, _, rfl, ?_⟩
  intro effect heffect
  obtain ⟨text, -, rfl⟩ := List.mem_map.mp heffect
  rfl

theorem Moves.talked (h : Moves env req start first nd) (htalked : nd.Talked nd') :
    Moves env req start first nd' :=
  h.tail (.talked htalked)

theorem moves_test (h : Moves env req start first nd) (domainName : String) :
    Moves env req start first (nd.testDomainStatus domainName).2 := by
  rw [Node.testDomainStatus_node]
  split
  · rename_i hdead
    exact h.tail (.swept hdead)
  · exact h.tail (.touched domainName nd)

/-- A domain that does not test as shut off is started, and the test changes
nothing but the table. -/
theorem started_of_not_shutOff {domainName : String}
    (h : (nd.testDomainStatus domainName).1 ≠ .shutOff) :
    (nd.testDomainStatus domainName).2 = nd.touch domainName ∧ nd.Started domainName := by
  obtain ⟨-, hdead⟩ := Node.known_of_not_shutOff h
  rw [Node.testDomainStatus_of_not_dead hdead] at h ⊢
  refine ⟨rfl, ?_⟩
  by_cases hpid : (nd.dom domainName).pid = -1
  · simp [hpid] at h
  · exact ⟨hpid, by simpa [hpid] using h⟩

/-! ## Rules -/

theorem moving_remoteCall {request : Request} {k : ValueT → Node → Colod}
    (h : Moves env req start first nd)
    (hasked : ∀ sent, Asked req start ⟨request, sent⟩)
    (hk : ∀ ret nd', nd'.domains = nd.domains → nd'.save = nd.save →
      Moving env req start nd' (k ret nd')) :
    Moving env req start first (nd.remoteCall request k) := by
  by_cases husable : nd.remoteClient.usable = true
  · rw [Node.remoteCall_of_usable husable]
    have hissued : Issued ⟨request, nd.remoteClient.sends⟩ (nd.called request) := by
      refine ⟨rfl, ?_⟩
      simpa [Node.called, Node.issue, Node.record, Node.setAwaiting] using usable_socket husable
    refine ⟨⟨h.talked (talked_called request nd), hasked _, hissued⟩, ?_⟩
    intro answer nd' hapart
    have hsame : nd'.domains = nd.domains ∧ nd'.save = nd.save := by
      obtain ⟨os, files, rfl⟩ := hapart
      exact ⟨rfl, rfl⟩
    cases answer with
    | none =>
        have htalked : nd'.Talked (nd'.setErrorCode .recvTimeout) :=
          talked_of_log_eq rfl rfl rfl rfl rfl rfl
        have hfirst : ∀ state, Moves env req start (nd'.setErrorCode .recvTimeout) state →
            Moves env req start nd' state := fun _ hmoves => hmoves.head (.talked htalked)
        have hrest := hk .timeout (nd'.setErrorCode .recvTimeout) hsame.1 hsame.2
        exact hrest.of_first hfirst
    | some reply =>
        have htalked : nd'.Talked nd'.replied := talked_of_log_eq rfl rfl rfl rfl rfl rfl
        have hfirst : ∀ state, Moves env req start nd'.replied state →
            Moves env req start nd' state := fun _ hmoves => hmoves.head (.talked htalked)
        have hrest := hk reply nd'.replied hsame.1 hsame.2
        exact hrest.of_first hfirst
  · rw [Node.remoteCall_of_not_usable (by simpa using husable)]
    exact h.talked (talked_issue request nd)

/-- A call that neither starts nor saves a domain. -/
theorem asked_of_ne {request : Request} (hremote : request.isLocal = false)
    (hstart : ∀ domainName colo, request ≠ .peerStartDomain domainName colo)
    (hsave : ∀ ds, request ≠ .peerSaveDomain ds) (sent : Bool) :
    Asked req start ⟨request, sent⟩ where
  remote := hremote
  start := fun domainName colo heq => absurd heq (hstart domainName colo)
  save := fun ds heq => absurd heq (hsave ds)

theorem asked_saveDomain (domainName : String) (ds : ColodDomainStatus) (sent : Bool) :
    Asked (.coloEnable domainName) start ⟨.peerSaveDomain ds, sent⟩ where
  remote := rfl
  start := fun _ _ heq => by cases heq
  save := fun _ _ => ⟨domainName, rfl⟩

theorem moving_checkReply {failure : String} {ret : ValueT} {k : Node → Colod}
    (h : Moves env req start first nd) (hk : Moving env req start first (k nd)) :
    Moving env req start first (checkReply failure ret nd k) := by
  unfold checkReply
  split
  · exact h.talked (talked_of_log_eq rfl rfl rfl rfl rfl rfl)
  · split
    · exact h
    · exact hk

theorem moving_checkQmp {cmds : List String} {failure : String} {k : Node → Colod}
    (h : Moves env req start first nd)
    (hk : ∀ texts, Moves env req start first (nd.sentQmp texts) →
      Moving env req start first (k (nd.sentQmp texts))) :
    Moving env req start first (checkQmp failure (nd.sendQmpCmds env cmds) k) := by
  have hsent : ∀ texts, Moves env req start first (nd.sentQmp texts) :=
    fun texts => h.talked (talked_sentQmp texts nd)
  rw [Node.sendQmpCmds_eq]
  cases Node.qmpScriptEnd env.qmp cmds.length with
  | died => exact hsent _
  | failed => exact hsent _
  | complete => exact hk _ (hsent _)

/-! ## The handlers -/

theorem moving_connectPeer (env : Env) (configFilePath : String) (nd : Node) :
    Moving env (.connectPeer configFilePath) nd nd (colodConnectPeer env configFilePath nd) := by
  unfold colodConnectPeer
  split
  · exact .refl
  · split
    · exact .single (.talked (talked_of_log_eq rfl rfl rfl rfl rfl rfl))
    · exact .single (.talked (talked_of_log_eq rfl rfl rfl rfl rfl rfl))
    · rename_i cs hparse
      rcases (nd.setStatus cs).setRemoteClient_cases env cs.peerIp with hset | hset
      · rw [hset]
        exact .single (.talked (talked_of_log_eq rfl rfl rfl rfl rfl rfl))
      · rw [hset]
        refine moving_remoteCall (.single (.talked (talked_of_log_eq rfl rfl rfl rfl rfl rfl)))
          (asked_of_ne rfl (by simp) (by simp)) ?_
        intro ret nd' _ _
        split
        · exact .refl
        · split
          · exact .refl
          · have hsaved : Moves env (.connectPeer configFilePath) nd nd'
                (nd'.setSave (saveColoStatus nd'.currentStatus nd'.save)) :=
              .single (.savedStatus _ nd')
            exact hsaved.talked (talked_of_log_eq rfl rfl rfl rfl rfl rfl)

/-- The rest of a handler that asks the peer for its status. -/
theorem moving_connectReply {k : ValueT → Node → Colod} (h : Moves env req start first nd)
    (hk : ∀ ret nd', Moving env req start nd' (k ret nd')) :
    Moving env req start first (nd.remoteCall .connectReply k) :=
  moving_remoteCall h (asked_of_ne rfl (by simp) (by simp)) fun ret nd' _ _ => hk ret nd'

theorem moving_connectStatus (nd : Node) :
    Moving env .connectStatus nd nd (colodConnectStatus nd) := by
  unfold colodConnectStatus
  split
  · refine moving_connectReply .refl ?_
    intro ret nd'
    split
    · exact .single (.talked (talked_of_log_eq rfl rfl rfl rfl rfl rfl))
    · exact .refl
  · exact .refl

theorem moving_connectTest (nd : Node) :
    Moving env .connectTest nd nd (peerColodConnectTest nd) := by
  unfold peerColodConnectTest
  split
  · refine moving_connectReply .refl ?_
    intro ret nd'
    split
    · exact .single (.talked (talked_of_log_eq rfl rfl rfl rfl rfl rfl))
    · exact .refl
  · exact .refl

theorem moving_define (vmFilePath : String) (nd : Node) :
    Moving env (.define vmFilePath) nd nd (colodDefine vmFilePath nd) := by
  unfold colodDefine
  split
  · exact .refl
  · exact .refl
  · rename_i d nd' hvm
    obtain ⟨doc, hload, hparse, rfl⟩ := Node.vmDefine_eq_ok hvm
    have hwrote : Moves env (.define vmFilePath) nd nd
        (nd.saveNewVmFile doc d.name nd.currentStatus.hostFilePath) :=
      of_saveNewVmFile .refl fun _ hfile => .single (.wrote rfl hload hparse hfile)
    dsimp only
    split
    · exact hwrote
    · rename_i save hsave
      exact hwrote.tail (.defined rfl rfl rfl rfl hsave)

theorem moving_undefine (domainName : String) (nd : Node) :
    Moving env (.undefine domainName) nd nd (colodUndefine domainName nd) := by
  have htest : Moves env (.undefine domainName) nd nd (nd.testDomainStatus domainName).2 :=
    moves_test .refl domainName
  unfold colodUndefine
  dsimp only
  split
  · exact htest
  · exact htest.tail (.undefined rfl)

theorem moves_listLoop (showAll : Bool) (keys : List String) (retVal : String)
    (h : Moves env req start first nd) :
    Moves env req start first (colodListLoop showAll keys retVal nd).2 := by
  induction keys generalizing nd retVal with
  | nil => exact h
  | cons key keys ih =>
      have htest := moves_test h key
      unfold colodListLoop
      dsimp only
      split
      · exact ih retVal htest
      · exact ih _ htest

theorem moving_list (showAll : Bool) (nd : Node) :
    Moving env (.list showAll) nd nd (colodList showAll nd) := by
  unfold colodList
  split
  · exact .refl
  · exact moves_listLoop showAll _ _ .refl

/-- What `run_new_vm` and the update of the record after it leave. -/
theorem moves_launched {domainName : String} {colo : Bool} {d : Domain}
    (h : Moves env req start first nd) (hreq : req.Starts domainName colo)
    (henable : colo = true → (start.dom domainName).coloEnable = true)
    (hget : start.getDomain domainName = .ok d) (cmd : ShellCommand) {status : DomainStatus}
    (hstatus : status ≠ .shutOff) (hpid : 0 ≤ (nd.runNewVm env d.name cmd).1) :
    Moves env req start first ((nd.runNewVm env d.name cmd).2.modDom domainName fun ds =>
      { ds with pid := (nd.runNewVm env d.name cmd).1, status }) := by
  rcases nd.runNewVm_cases env d.name cmd with ⟨-, heq⟩ | ⟨pid, os, hfork, heq⟩
  · rw [heq] at hpid
    exact absurd hpid (by simp)
  · rw [heq]
    exact h.tail (.launched hreq henable hget hfork hstatus)

theorem runNewVm_of_neg {name : String} {cmd : ShellCommand}
    (h : (nd.runNewVm env name cmd).1 < 0) : nd.runNewVm env name cmd = (-1, nd) := by
  rcases nd.runNewVm_cases env name cmd with ⟨-, heq⟩ | ⟨pid, os, hfork, heq⟩
  · exact heq
  · rw [heq] at h
    have hpos := (ProcessTable.fork_eq_some hfork).1
    dsimp only at h
    omega

theorem moving_startQmp {domainName : String} (h : Moves env req start first nd)
    (curStatus : ColoDomainStatus) (d : Domain) :
    Moving env req start first (startQmp env domainName curStatus d nd) := by
  unfold startQmp
  dsimp only
  split
  · refine moving_remoteCall h (asked_of_ne rfl (by simp) (by simp)) ?_
    intro ret nd' _ _
    refine moving_checkReply .refl (moving_checkQmp .refl ?_)
    exact fun texts hsent => hsent
  · refine moving_checkQmp h ?_
    intro texts hsent
    refine moving_remoteCall hsent (asked_of_ne rfl (by simp) (by simp)) ?_
    intro ret nd' _ _
    exact moving_checkReply .refl .refl
  · exact h

theorem moving_startHost {domainName : String} {d : Domain} (h : Moves env req start first nd)
    (hreq : req = .start domainName true) (henable : (start.dom domainName).coloEnable = true)
    (hget : start.getDomain domainName = .ok d) (curStatus : ColoDomainStatus) :
    Moving env req start first (startHost env domainName curStatus d nd) := by
  unfold startHost
  dsimp only
  split
  · rename_i hneg
    rw [runNewVm_of_neg hneg]
    exact h
  · rename_i hpos
    refine moving_startQmp ?_ curStatus d
    exact moves_launched h (.inl hreq) (fun _ => henable) hget _ (by simp) (by simpa using hpos)

theorem moving_start (domainName : String) (colo : Bool) (nd : Node) :
    Moving env (.start domainName colo) nd nd (colodStart env domainName colo nd) := by
  have htest : Moves env (.start domainName colo) nd nd (nd.testDomainStatus domainName).2 :=
    moves_test .refl domainName
  unfold colodStart
  simp only [Node.testDomainStatus_touch]
  split
  · exact htest
  · split
    · exact htest
    · exact htest
    · rename_i d hload
      have hget := (getDomain_testDomainStatus domainName nd d).mp hload
      cases colo with
      | false =>
          unfold startNative
          simp only [Bool.not_false, if_true]
          by_cases hneg : ((nd.testDomainStatus domainName).2.runNewVm env d.name
              (generateVmCmd d).2).1 < 0
          · rw [runNewVm_of_neg hneg]
            exact htest.tail (.forkFailed rfl)
          · exact moves_launched htest (.inl rfl) (by simp) hget _ (by simp)
              (by simpa using hneg)
      | true =>
          simp only [Bool.not_true, Bool.false_eq_true, if_false]
          split
          · exact htest
          · rename_i henable
            have henable' : (nd.dom domainName).coloEnable = true := by simpa using henable
            refine moving_remoteCall htest ?_ ?_
            · intro sent
              refine ⟨rfl, ?_, by simp⟩
              intro name colo heq
              obtain ⟨rfl, -⟩ := Request.peerStartDomain.inj heq
              exact ⟨rfl, henable'⟩
            · intro ret nd' _ _
              exact moving_checkReply .refl (moving_startHost .refl rfl henable' hget _)

theorem moving_peerStartDomain (domainName : String) (colo : Bool) (nd : Node) :
    Moving env (.peerStartDomain domainName colo) nd nd
      (peerColodStartDomain env domainName colo nd) := by
  have htouch : Moves env (.peerStartDomain domainName colo) nd nd (nd.touch domainName) :=
    .single (.touched domainName nd)
  unfold peerColodStartDomain
  dsimp only
  split
  · exact .refl
  · split
    · exact htouch
    · rename_i henable
      split
      · exact htouch
      · exact htouch
      · rename_i d hget
        split
        · rename_i hneg
          rw [runNewVm_of_neg hneg]
          exact htouch
        · rename_i hpos
          exact moves_launched htouch (.inr rfl) (fun _ => by simpa using henable) hget _
            (by simp) (by simpa using hpos)

theorem moving_destroyHost {domainName : String} (h : Moves env req start first nd)
    (hreq : req.Destroys domainName) (hstarted : nd.Started domainName)
    (hsave : nd.save = start.save) (success : String) :
    Moving env req start first (destroyHost env domainName success nd) := by
  unfold destroyHost
  rcases nd.destroyDomain_events env domainName with
    ⟨-, heq⟩ | ⟨pid, events, hpid, hevents, ⟨-, heq⟩ | ⟨-, heq⟩⟩
  · rw [heq]
    exact h
  · rw [heq]
    exact h.tail (.missed hreq hpid hevents)
  · rw [heq]
    exact h.tail (.killed hreq hpid hevents hstarted hsave)

theorem started_congr {domainName : String} (hdomains : nd'.domains = nd.domains)
    (h : nd.Started domainName) : nd'.Started domainName := by
  unfold Node.Started Node.dom at h ⊢
  rwa [hdomains]

theorem started_touch {domainName : String} (h : nd.Started domainName) :
    (nd.touch domainName).Started domainName := by
  simpa [Node.Started] using h

theorem moving_destroy (domainName : String) (nd : Node) :
    Moving env (.destroy domainName) nd nd (colodDestroy env domainName nd) := by
  unfold colodDestroy
  dsimp only
  split
  · exact moves_test .refl domainName
  · rename_i htest
    obtain ⟨heq, hstarted⟩ := started_of_not_shutOff htest
    have htouch : Moves env (.destroy domainName) nd nd (nd.touch domainName) :=
      .single (.touched domainName nd)
    have hstarted' := started_touch hstarted
    rw [heq]
    split
    · have hsave : (nd.touch domainName).save = nd.save := rfl
      exact moving_destroyHost htouch (.inl rfl) hstarted' hsave _
    · refine moving_remoteCall htouch (asked_of_ne rfl (by simp) (by simp)) ?_
      intro ret nd' hdomains hsave
      have hsave' : nd'.save = nd.save := hsave
      refine moving_checkReply .refl ?_
      exact moving_destroyHost .refl (.inl rfl) (started_congr hdomains hstarted') hsave' _
    · exact htouch

theorem moving_peerDestroyDomain (domainName : String) (nd : Node) :
    Moving env (.peerDestroyDomain domainName) nd nd
      (peerColodDestroyDomain env domainName nd) := by
  unfold peerColodDestroyDomain
  simp only [Node.testDomainStatus_touch]
  split
  · exact .single (.touched domainName nd)
  · split
    · exact moves_test .refl domainName
    · rename_i htest
      obtain ⟨heq, hstarted⟩ := started_of_not_shutOff htest
      have hsave : (nd.touch domainName).save = nd.save := rfl
      rw [heq]
      exact moving_destroyHost (.single (.touched domainName nd)) (.inr rfl)
        (started_touch hstarted) hsave _

theorem moving_enableAnswered {domainName : String}
    (h : Moves env (.coloEnable domainName) start first nd) (ret : ValueT) :
    Moving env (.coloEnable domainName) start first (enableAnswered domainName ret nd) := by
  have hfailed : ∀ nd', Moves env (.coloEnable domainName) start first nd' →
      Moves env (.coloEnable domainName) start first
        (nd'.modDom domainName fun ds => { ds with coloEnable := false }) :=
    fun nd' h' => h'.tail (.flagged false (nd'.dom domainName).coloStatus rfl)
  unfold enableAnswered enableFailed
  dsimp only
  split
  · exact hfailed _ (h.talked (talked_of_log_eq rfl rfl rfl rfl rfl rfl))
  · split
    · exact hfailed _ h
    · split
      · exact hfailed _ h
      · exact h.tail (.savedEnable rfl)

theorem moving_coloEnable (domainName : String) (nd : Node) :
    Moving env (.coloEnable domainName) nd nd (colodColoEnable env domainName nd) := by
  unfold colodColoEnable
  split
  · exact .refl
  · dsimp only
    have hmarked : Moves env (.coloEnable domainName) nd nd (nd.modDom domainName fun ds =>
        { ds with
          coloEnable := true
          coloStatus := enabledRole nd.currentStatus.localStatus ds.coloStatus }) :=
      .single (.flagged true _ rfl)
    rcases Node.ensureRemoteClient_cases env (nd.modDom domainName fun ds =>
        { ds with
          coloEnable := true
          coloStatus := enabledRole nd.currentStatus.localStatus ds.coloStatus }) with
      hensure | ⟨-, hensure⟩ | ⟨-, hensure⟩
    · rw [hensure]
      exact hmarked
    · rw [hensure]
      refine moving_remoteCall hmarked (asked_saveDomain domainName _) ?_
      exact fun ret nd' _ _ => moving_enableAnswered .refl ret
    · rw [hensure]
      refine moving_remoteCall (hmarked.talked (talked_of_log_eq rfl rfl rfl rfl rfl rfl))
        (asked_saveDomain domainName _) ?_
      exact fun ret nd' _ _ => moving_enableAnswered .refl ret

theorem moving_coloDisable (domainName : String) (nd : Node) :
    Moving env (.coloDisable domainName) nd nd (colodColoDisable domainName nd) := by
  unfold colodColoDisable
  dsimp only
  split
  · exact .refl
  · exact .single (.disabled rfl)

theorem moving_vmStatus (domainName : String) (nd : Node) :
    Moving env (.vmStatus domainName) nd nd (colodVmStatus domainName nd) := by
  unfold colodVmStatus
  split
  · exact .refl
  · exact .refl
  · exact .single (.touched domainName nd)

theorem moving_setParams (domainName property : String) (value : ℤ) (nd : Node) :
    Moving env (.setParams domainName property value) nd nd
      (colodSetParams env domainName property value nd) := by
  have htouch : Moves env (.setParams domainName property value) nd nd (nd.touch domainName) :=
    .single (.touched domainName nd)
  unfold colodSetParams
  dsimp only
  split
  · exact htouch
  · split
    · exact htouch
    · split
      · exact htouch
      · exact moving_checkQmp htouch fun texts hsent => hsent

theorem moving_doFailover (domainName : String) (nd : Node) :
    Moving env (.doFailover domainName) nd nd (colodDoFailover env domainName nd) := by
  have htouch : Moves env (.doFailover domainName) nd nd (nd.touch domainName) :=
    .single (.touched domainName nd)
  unfold colodDoFailover failedOver
  dsimp only
  split
  · exact htouch
  · rename_i hstatus
    split
    · exact htouch
    · split
      · have hmarked : Moves env (.doFailover domainName) nd nd
            ((nd.touch domainName).modDom domainName fun ds =>
              { ds with coloStatus := .failover }) :=
          htouch.tail (.failedOver rfl hstatus hstatus (.inl rfl))
        refine moving_checkQmp hmarked ?_
        intro texts hsent
        refine hsent.tail (.failedOver rfl ?_ (by simp) (.inr rfl))
        simpa [Node.dom, Node.sentQmp] using hstatus
      · refine moving_checkQmp htouch ?_
        intro texts hsent
        exact hsent.tail (.failedOver rfl hstatus (by simp) (.inr rfl))
      · exact htouch

theorem moving_peerSaveStatus (cs : ColoStatus) (nd : Node) :
    Moving env (.peerSaveStatus cs) nd nd (peerColodSaveStatus env cs nd) := by
  unfold peerColodSaveStatus
  dsimp only
  rcases (nd.setStatus (mirrorStatus cs)).ensureRemoteClient_cases env with
    hensure | ⟨-, hensure⟩ | ⟨-, hensure⟩
  · rw [hensure]
    exact .single (.talked (talked_of_log_eq rfl rfl rfl rfl rfl rfl))
  · rw [hensure]
    have hset : Moves env (.peerSaveStatus cs) nd nd (nd.setStatus (mirrorStatus cs)) :=
      .single (.talked (talked_of_log_eq rfl rfl rfl rfl rfl rfl))
    exact Moves.talked (hset.tail (.savedStatus _ _)) (talked_of_log_eq rfl rfl rfl rfl rfl rfl)
  · rw [hensure]
    have hset : Moves env (.peerSaveStatus cs) nd nd
        ((nd.setStatus (mirrorStatus cs)).withSocket (mirrorStatus cs).peerIp) :=
      .single (.talked (talked_of_log_eq rfl rfl rfl rfl rfl rfl))
    exact Moves.talked (hset.tail (.savedStatus _ _)) (talked_of_log_eq rfl rfl rfl rfl rfl rfl)

theorem moving_peerSaveDomain (ds : ColodDomainStatus) (nd : Node) :
    Moving env (.peerSaveDomain ds) nd nd (peerColodSaveDomain ds nd) := by
  unfold peerColodSaveDomain
  dsimp only
  split
  · exact .refl
  · rename_i save hsave
    split
    · exact .single (.peerSaved rfl hsave)
    · rw [mirrorDomain_name]
      exact .single (.peerStored rfl hsave)

theorem moving_peerSendQmpcmds (domainName : String) (cds : ColoDomainStatus) (nd : Node) :
    Moving env (.peerSendQmpcmds domainName cds) nd nd
      (peerColodSendQmpcmds env domainName cds nd) := by
  have htest : Moves env (.peerSendQmpcmds domainName cds) nd nd
      (nd.testDomainStatus domainName).2 := moves_test .refl domainName
  unfold peerColodSendQmpcmds
  dsimp only
  split
  · exact htest
  · split
    · exact htest
    · exact htest
    · split
      · exact htest
      · exact moving_checkQmp htest fun texts hsent => hsent
      · exact htest

/-- Whatever is requested, colod does nothing but moves. -/
theorem handle_moving (env : Env) (req : Request) (nd : Node) :
    Moving env req nd nd (handle env req nd) := by
  cases req with
  | connectPeer configFilePath => exact moving_connectPeer env configFilePath nd
  | connectStatus => exact moving_connectStatus nd
  | define vmFilePath => exact moving_define vmFilePath nd
  | undefine domainName => exact moving_undefine domainName nd
  | list showAll => exact moving_list showAll nd
  | start domainName colo => exact moving_start domainName colo nd
  | destroy domainName => exact moving_destroy domainName nd
  | coloEnable domainName => exact moving_coloEnable domainName nd
  | coloDisable domainName => exact moving_coloDisable domainName nd
  | vmStatus domainName => exact moving_vmStatus domainName nd
  | setParams domainName property value => exact moving_setParams domainName property value nd
  | doFailover domainName => exact moving_doFailover domainName nd
  | connectTest => exact moving_connectTest nd
  | connectReply => exact .refl
  | domainTest domainName => exact moves_test .refl domainName
  | peerSaveStatus cs => exact moving_peerSaveStatus cs nd
  | peerSaveDomain ds => exact moving_peerSaveDomain ds nd
  | peerStartDomain domainName colo => exact moving_peerStartDomain domainName colo nd
  | peerDestroyDomain domainName => exact moving_peerDestroyDomain domainName nd
  | peerSendQmpcmds domainName cds => exact moving_peerSendQmpcmds domainName cds nd

/-! ## Invariants of a leg -/

/-- The induction over the moves of a leg. -/
theorem inv_of_moves {I : Node → Prop}
    (hmove : ∀ nd nd', I nd → Move env req start nd nd' → I nd') (hfirst : I first)
    (h : Moves env req start first nd) : I nd := by
  induction h with
  | refl => exact hfirst
  | tail _ hlast ih => exact hmove _ _ ih hlast

/-- What a move does to the processes and the log. -/
inductive Machine (env : Env) (req : Request) (start nd nd' : Node) : Prop
  | talked (hos : nd'.os = nd.os) {messages : List Effect} (hlog : nd'.log = nd.log ++ messages)
      (hmessages : ∀ effect ∈ messages, effect.isMessage = true)
  | launched {domainName : String} {colo : Bool} {d : Domain} {cmd : ShellCommand} {pid : ℤ}
      (hreq : req.Starts domainName colo)
      (henable : colo = true → (start.dom domainName).coloEnable = true)
      (hget : start.getDomain domainName = .ok d)
      (hfork : nd.os.fork env.fork d.name = some (pid, nd'.os))
      (hlog : nd'.log = nd.log ++ [.launch d.name cmd pid])
  | missed {domainName : String} {events : List OsEvent} (hreq : req.Destroys domainName)
      (hevents : ∀ event ∈ events, event ∈ env.beforeProbe ++ env.beforeKill)
      (hos : nd'.os = nd.os.after events) (hlog : nd'.log = nd.log)
  | killed {domainName : String} {pid : ℤ} {events : List OsEvent}
      (hreq : req.Destroys domainName)
      (hevents : ∀ event ∈ events, event ∈ env.beforeProbe ++ env.beforeKill)
      (hpid : getDomainPid domainName nd.save = some pid) (hstarted : nd.Started domainName)
      (hsave : nd.save = start.save) (hos : nd'.os = (nd.os.after events).sigkill pid)
      (hlog : nd'.log = nd.log ++ [.kill pid])

theorem machine_of_move (h : Move env req start nd nd') : Machine env req start nd nd' := by
  have hsilent : nd'.os = nd.os → nd'.log = nd.log → Machine env req start nd nd' := by
    intro hos hlog
    have hnothing : nd'.log = nd.log ++ [] := by rw [hlog, List.append_nil]
    exact .talked hos hnothing (by simp)
  cases h with
  | talked htalked =>
      obtain ⟨messages, hlog, hmessages⟩ := htalked.log
      exact .talked htalked.os hlog hmessages
  | wrote hreq hload hparse hfile =>
      refine hsilent ?_ ?_ <;> · unfold Node.writeFile; split <;> rfl
  | launched hreq henable hget hfork hstatus => exact .launched hreq henable hget hfork rfl
  | missed hreq hpid hevents => exact .missed hreq hevents rfl rfl
  | killed hreq hpid hevents hstarted hsave =>
      exact .killed hreq hevents hpid hstarted hsave rfl rfl
  | _ => exact hsilent rfl rfl

theorem launchedPid_of_isMessage {messages : List Effect}
    (h : ∀ effect ∈ messages, effect.isMessage = true) :
    ∀ effect ∈ messages, effect.launchedPid = none := by
  intro effect heffect
  have hmessage := h effect heffect
  cases effect with
  | launch name cmd pid => simp [Effect.isMessage] at hmessage
  | _ => rfl

theorem log_append_of_move (h : Move env req start nd nd') : ∃ more, nd'.log = nd.log ++ more := by
  cases machine_of_move h with
  | talked hos hlog hmessages => exact ⟨_, hlog⟩
  | launched hreq henable hget hfork hlog => exact ⟨_, hlog⟩
  | missed hreq hevents hos hlog => exact ⟨[], by rw [hlog, List.append_nil]⟩
  | killed hreq hevents hpid hstarted hsave hos hlog => exact ⟨_, hlog⟩

theorem log_append_of_moves (h : Moves env req start first nd) :
    ∃ more, nd.log = first.log ++ more := by
  refine inv_of_moves (I := fun nd => ∃ more, nd.log = first.log ++ more) ?_
    ⟨[], (List.append_nil _).symm⟩ h
  rintro nd nd' ⟨more, hmore⟩ hmove
  obtain ⟨more', hmore'⟩ := log_append_of_move hmove
  exact ⟨more ++ more', by rw [hmore', hmore, List.append_assoc]⟩

end

end ColoManage
