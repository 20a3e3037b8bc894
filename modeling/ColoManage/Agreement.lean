import ColoManage.Server
import ColoManage.Steps

/-!
# Memory and file

The table `rs.domains` and the list in `save.yaml` hold the same records in two
copies, which every handler updates by itself.  `AgreesBy` lists the requests
after which the two still agree.
-/

namespace ColoManage

open Resumption EventSystem

structure EntryAgrees (ds : ColodDomainStatus) (entry : SaveEntry) : Prop where
  pid : ds.pid = entry.pid
  coloEnable : ds.coloEnable = entry.coloEnable
  coloStatus : coloDomainStatusToStr ds.coloStatus = entry.coloStatus
  path : ds.configFilePath = entry.path
  status : ds.status = .shutOff ↔ entry.status = "shutoff"

namespace Node

/-- The same names are in both copies, with records that agree. -/
def Agrees (nd : Node) : Prop :=
  ∀ name, Option.Rel EntryAgrees (nd.domains.lookup name) (nd.save.find name)

/-! ## Steps on both copies -/

section

variable {nd nd' : Node} {name : String}

theorem Agrees.congr (h : nd.Agrees) (hdomains : nd'.domains = nd.domains)
    (hfind : ∀ name, nd'.save.find name = nd.save.find name) : nd'.Agrees := by
  intro name
  rw [hdomains, hfind]
  exact h name

theorem Agrees.update (h : nd.Agrees) (name : String)
    (hlookup : ∀ other, other ≠ name → nd'.domains.lookup other = nd.domains.lookup other)
    (hfind : ∀ other, other ≠ name → nd'.save.find other = nd.save.find other)
    (hself : Option.Rel EntryAgrees (nd'.domains.lookup name) (nd'.save.find name)) :
    nd'.Agrees := by
  intro other
  by_cases hother : other = name
  · rw [hother]
    exact hself
  · rw [hlookup other hother, hfind other hother]
    exact h other

theorem Agrees.entry (h : nd.Agrees) (hmem : name ∈ nd.domains) :
    ∃ entry, nd.domains.lookup name = some (nd.dom name) ∧ nd.save.find name = some entry ∧
      EntryAgrees (nd.dom name) entry := by
  obtain ⟨ds, hds⟩ := Option.isSome_iff_exists.mp (AList.lookup_isSome.mpr hmem)
  have hrel := h name
  rw [hds] at hrel
  rw [dom_eq_of_lookup hds]
  cases hentry : nd.save.find name with
  | none =>
      rw [hentry] at hrel
      cases hrel
  | some entry =>
      rw [hentry] at hrel
      cases hrel with
      | some hagrees => exact ⟨entry, hds, rfl, hagrees⟩

theorem Agrees.mem (h : nd.Agrees) (hentry : (nd.save.find name).isSome = true) :
    name ∈ nd.domains := by
  have hrel := h name
  rw [← AList.lookup_isSome]
  cases hlookup : nd.domains.lookup name with
  | some ds => rfl
  | none =>
      cases hfind : nd.save.find name with
      | none => simp [hfind] at hentry
      | some entry =>
          rw [hlookup, hfind] at hrel
          cases hrel

theorem Agrees.touch (h : nd.Agrees) (hmem : name ∈ nd.domains) : (nd.touch name).Agrees := by
  rw [touch_of_mem hmem]
  exact h

theorem testDomainStatus_eq_self (hmem : name ∈ nd.domains) (hdead : ¬ nd.FoundDead name) :
    (nd.testDomainStatus name).2 = nd := by
  rw [testDomainStatus_of_not_dead hdead, touch_of_mem hmem]

theorem Agrees.waited {request : Request} (h : nd.Agrees) (hwait : Waited request nd nd') :
    nd'.Agrees :=
  h.congr hwait.domains fun name => by rw [hwait.save]

theorem Agrees.saveColoStatus (h : nd.Agrees) (cs : ColoStatus) :
    (nd.setSave (ColoManage.saveColoStatus cs nd.save)).Agrees :=
  h.congr rfl fun _ => rfl

theorem Agrees.launch (h : nd.Agrees) (hmem : name ∈ nd.domains) (cmd : ShellCommand)
    (pid : ℤ) (os : ProcessTable) {status : DomainStatus} (hstatus : status ≠ .shutOff) :
    ((nd.launched name cmd pid os).modDom name fun ds => { ds with pid, status }).Agrees := by
  obtain ⟨entry, -, hentry, hagrees⟩ := h.entry hmem
  have hfind : ∀ other, ((nd.launched name cmd pid os).modDom name fun ds =>
      { ds with pid, status }).save.find other =
        if other = name then (nd.save.find name).map fun entry =>
          { entry with pid, status := "running" }
        else nd.save.find other := fun other =>
    find_saveDomainPid name other pid nd.save
  refine h.update name ?_ ?_ ?_
  · intro other hother
    rw [lookup_modDom, if_neg hother]
    rfl
  · intro other hother
    rw [hfind, if_neg hother]
  · rw [hfind, if_pos rfl, hentry, lookup_modDom, if_pos rfl]
    have hrunning : ¬ ("running" : String) = "shutoff" := by decide
    exact .some ⟨rfl, hagrees.coloEnable, hagrees.coloStatus, hagrees.path,
      iff_of_false hstatus hrunning⟩

theorem Agrees.destroyed (h : nd.Agrees) (hmem : name ∈ nd.domains) {os : ProcessTable}
    {log : List Effect} :
    ({ nd with save := (removeDomainPid name nd.save).2, os, log }.modDom name fun ds =>
      { ds with pid := -1, status := .shutOff }).Agrees := by
  obtain ⟨entry, -, hentry, hagrees⟩ := h.entry hmem
  refine h.update name ?_ ?_ ?_
  · intro other hother
    rw [lookup_modDom, if_neg hother]
  · intro other hother
    show (removeDomainPid name nd.save).2.find other = _
    rw [find_removeDomainPid, if_neg hother]
  · show Option.Rel EntryAgrees _ ((removeDomainPid name nd.save).2.find name)
    rw [find_removeDomainPid, if_pos rfl, hentry, lookup_modDom, if_pos rfl]
    exact .some ⟨rfl, hagrees.coloEnable, hagrees.coloStatus, hagrees.path, iff_of_true rfl rfl⟩

end

end Node

/-! ## The handlers -/

def Known (nd : Node) (domainName : String) : Prop :=
  domainName ∈ nd.domains ∧ ¬ nd.FoundDead domainName

/-- The requests after which the two copies agree.

A test must find no recorded process dead, and a request that looks up a name
must find it.  A definition must not be written over the save file, a launch
must be of a definition that carries the domain's name, a native fork and a
kill must succeed.  An enable must be accepted by the peer for a domain that is
shut off, or change neither flag nor role.  A failover must not get to the role
it does not save, and a record from the peer must be of an enabled domain that
is shut off. -/
def AgreesBy (env : Env) (script : Script) (nd : Node) : Request → Prop
  | .define vmFilePath => ∀ d nd',
      nd.vmDefine vmFilePath nd.currentStatus.hostFilePath = .ok (d, nd') →
        nd.definitionFile d.name ≠ some defaultSaveFile
  | .list _ => ∀ domainName ∈ nd.domains, ¬ nd.FoundDead domainName
  | .start domainName colo => Known nd domainName ∧
      ((nd.testDomainStatus domainName).1 = .shutOff →
        (colo = true → (nd.dom domainName).coloEnable = true) →
          ∀ d, nd.getDomain domainName = .ok d →
            d.name = domainName ∧ (colo = false → nd.os.fork env.fork d.name ≠ none))
  | .destroy domainName => Known nd domainName ∧
      match (nd.dom domainName).status with
      | .running => Survives env nd.os (nd.dom domainName).pid
      | .coloEnabled => accepted (script.reply 0) = true →
          Survives env (nd.os.after script.meanwhile) (nd.dom domainName).pid
      | _ => True
  | .coloEnable domainName =>
      (nd.currentStatus.localStatus ≠ .none ∧ nd.currentStatus.localStatus ≠ .error) →
        domainName ∈ nd.domains ∧
          (((nd.dom domainName).coloEnable = false ∧ (nd.dom domainName).coloStatus =
              enabledRole nd.currentStatus.localStatus (nd.dom domainName).coloStatus) ∨
            (accepted (script.reply 0) = true ∧ (nd.dom domainName).status = .shutOff))
  | .coloDisable domainName => domainName ∈ nd.domains
  | .setParams domainName _ _ => domainName ∈ nd.domains
  | .doFailover domainName => domainName ∈ nd.domains ∧
      ((nd.dom domainName).status ≠ .shutOff → (nd.dom domainName).coloEnable = true →
        match (nd.dom domainName).coloStatus with
        | .secondary => Node.qmpScriptEnd env.qmp secondaryFailoverCmds.length = .died
        | .primary => Node.qmpScriptEnd env.qmp primaryFailoverCmds.length ≠ .complete
        | _ => True)
  | .domainTest domainName => Known nd domainName
  | .peerSaveDomain ds => ds.pid = -1 ∧ ds.status = .shutOff ∧ ds.coloEnable = true
  | .peerStartDomain domainName colo => colo = true → domainName ∈ nd.domains ∧
      ((nd.dom domainName).coloEnable = true → ∀ d, nd.getDomain domainName = .ok d →
        nd.os.fork env.fork d.name ≠ none → d.name = domainName)
  | .peerDestroyDomain domainName => domainName ∈ nd.domains ∧
      ((nd.dom domainName).coloEnable = true → ¬ nd.FoundDead domainName ∧
        ((nd.testDomainStatus domainName).1 ≠ .shutOff →
          Survives env nd.os (nd.dom domainName).pid))
  | .peerSendQmpcmds domainName _ => Known nd domainName
  | _ => True

def AgreesAfter : Outcome Node ColodRetVal → Prop
  | .returned _ nd => nd.Agrees
  | .crashed _ => True

/-- The rest of a handler does so whatever happens in its waits. -/
abbrev KeepsAgrees (act : Colod) : Prop :=
  act.Post Node.Meanwhile (fun _ _ => True) (fun _ => Node.Agrees) fun _ => True

theorem KeepsAgrees.follow {act : Colod} (h : KeepsAgrees act) (script : Script) :
    AgreesAfter (act.follow Node.osAfter script) := by
  have hchange : ∀ events nd, Node.Meanwhile nd (nd.osAfter events) :=
    fun events _ => ⟨events, rfl⟩
  have hpost := Act.follow_of_post hchange (fun (_ : Query) (_ : Node) _ => trivial) h script
  cases hout : act.follow Node.osAfter script with
  | returned ret nd => simpa [hout, AgreesAfter] using hpost
  | crashed nd => trivial

theorem follow_remoteCall_cases (request : Request) (nd : Node) (k : ValueT → Node → Colod)
    (script : Script) :
    (∃ nd', (nd.remoteCall request k).follow Node.osAfter script = .crashed nd') ∨
      ∃ nd', Node.Waited request nd nd' ∧ nd'.os = nd.os.after script.meanwhile ∧
        (nd.remoteCall request k).follow Node.osAfter script =
          (k ((script.reply 0).getD .timeout) nd').follow Node.osAfter script.tail := by
  by_cases husable : nd.remoteClient.usable = true
  · rw [Node.remoteCall_of_usable husable]
    cases script with
    | nil => exact .inl ⟨_, rfl⟩
    | cons entry rest =>
        obtain ⟨events, reply⟩ := entry
        have hip : ∀ awaiting, (nd.remoteClient.socket.map fun socket : ReqSocket =>
            { socket with awaiting }).map ReqSocket.ip =
              nd.remoteClient.socket.map ReqSocket.ip := by
          simp [Option.map_map, Function.comp_def]
        have hos := ProcessTable.shrinks_after nd.os events
        cases reply with
        | none =>
            exact .inr ⟨((nd.called request).osAfter events).setErrorCode .recvTimeout,
              ⟨rfl, rfl, rfl, rfl, rfl, rfl, rfl, hos, hip true, rfl⟩, rfl, rfl⟩
        | some reply =>
            refine .inr ⟨((nd.called request).osAfter events).replied,
              ⟨rfl, rfl, rfl, rfl, rfl, rfl, rfl, hos, ?_, rfl⟩, rfl, rfl⟩
            simp [Node.replied, Node.setAwaiting, Node.setErrorCode, Node.osAfter, Node.called,
              Node.issue, Node.record, Option.map_map, Function.comp_def]
  · rw [Node.remoteCall_of_not_usable (by simpa using husable)]
    exact .inl ⟨_, rfl⟩

section

variable {nd : Node} {env : Env}

theorem keepsAgrees_remoteCall {request : Request} {k : ValueT → Node → Colod} (h : nd.Agrees)
    (hk : ∀ ret nd', Node.Waited request nd nd' → nd'.Agrees → KeepsAgrees (k ret nd')) :
    KeepsAgrees (nd.remoteCall request k) :=
  Node.post_remoteCall (fun _ _ => trivial) (fun _ _ _ => trivial)
    fun ret nd' hwait => hk ret nd' hwait (h.waited hwait)

theorem keepsAgrees_checkReply {failure : String} {ret : ValueT} {k : Node → Colod}
    (h : nd.Agrees) (hk : KeepsAgrees (k nd)) :
    KeepsAgrees (checkReply failure ret nd k) :=
  post_checkReply h h hk

theorem keepsAgrees_checkQmp {cmds : List String} {failure : String} {k : Node → Colod}
    (h : nd.Agrees) (hk : ∀ texts, KeepsAgrees (k (nd.sentQmp texts))) :
    KeepsAgrees (checkQmp failure (nd.sendQmpCmds env cmds) k) :=
  post_checkQmp (fun _ => trivial) (fun _ => h) hk

theorem colodConnectPeer_keepsAgrees (h : nd.Agrees) (env : Env) (configFilePath : String) :
    KeepsAgrees (colodConnectPeer env configFilePath nd) := by
  unfold colodConnectPeer
  split
  · trivial
  · split
    · trivial
    · exact h
    · rename_i cs _
      rcases (nd.setStatus cs).setRemoteClient_cases env cs.peerIp with hset | hset
      · rw [hset]
        trivial
      · rw [hset]
        have hclient : Node.Agrees
            { (nd.setStatus cs).withSocket cs.peerIp with remoteClientInit := true } := h
        refine keepsAgrees_remoteCall hclient ?_
        intro ret nd' _ hnd'
        split
        · exact hnd'
        · split
          · exact hnd'
          · exact hnd'.saveColoStatus _

theorem colodConnectStatus_keepsAgrees (h : nd.Agrees) :
    KeepsAgrees (colodConnectStatus nd) := by
  unfold colodConnectStatus
  split
  · refine keepsAgrees_remoteCall h ?_
    intro ret nd' _ hnd'
    split
    · exact hnd'
    · exact hnd'
  · exact h

theorem colodDefine_keepsAgrees (h : nd.Agrees) {script : Script} {vmFilePath : String}
    (hby : AgreesBy env script nd (.define vmFilePath)) :
    KeepsAgrees (colodDefine vmFilePath nd) := by
  unfold colodDefine
  split
  · trivial
  · exact h
  · rename_i d nd' hdefine
    have hpath := hby d nd' hdefine
    obtain ⟨doc, -, -, rfl⟩ := Node.vmDefine_eq_ok hdefine
    have hwrite : (nd.saveNewVmFile doc d.name nd.currentStatus.hostFilePath).Agrees :=
      Node.of_saveNewVmFile_apart hpath fun _ => h
    generalize nd.saveNewVmFile doc d.name nd.currentStatus.hostFilePath = nd₁ at hwrite
    dsimp only
    split
    · exact hwrite
    · rename_i save hsave
      have hfind := find_saveDomainInfo hsave
      refine Node.Agrees.update hwrite d.name ?_ ?_ ?_
      · intro other hother
        rw [Node.lookup_setDom, if_neg hother]
        rfl
      · intro other hother
        exact (hfind other).trans (if_neg hother)
      · rw [Node.lookup_setDom, if_pos rfl]
        have hself := (hfind d.name).trans (if_pos rfl)
        show Option.Rel EntryAgrees _ (save.find d.name)
        rw [hself]
        exact .some ⟨rfl, rfl, rfl, rfl, iff_of_true rfl rfl⟩

theorem colodUndefine_keepsAgrees (h : nd.Agrees) (domainName : String) :
    KeepsAgrees (colodUndefine domainName nd) := by
  unfold colodUndefine
  dsimp only
  split
  · rename_i hshut
    obtain ⟨hmem, hdead⟩ := Node.known_of_not_shutOff hshut
    rw [Node.testDomainStatus_eq_self hmem hdead]
    exact h
  · refine Node.Agrees.update h domainName ?_ ?_ ?_
    · intro other hother
      rw [Node.lookup_eraseDom, if_neg hother]
      show (nd.testDomainStatus domainName).2.domains.lookup other = _
      rw [Node.lookup_testDomainStatus, if_neg hother]
    · intro other hother
      show (vmUndefine domainName (nd.testDomainStatus domainName).2.save).find other = _
      rw [find_vmUndefine, if_neg hother, Node.find_testDomainStatus,
        if_neg (fun hboth => hother hboth.1)]
    · rw [Node.lookup_eraseDom, if_pos rfl]
      show Option.Rel EntryAgrees none
        ((vmUndefine domainName (nd.testDomainStatus domainName).2.save).find domainName)
      rw [find_vmUndefine, if_pos rfl]
      exact .none

theorem colodListLoop_eq_self (showAll : Bool) (keys : List String) (retVal : String)
    (hkeys : ∀ key ∈ keys, Known nd key) : (colodListLoop showAll keys retVal nd).2 = nd := by
  induction keys generalizing retVal with
  | nil => rfl
  | cons key keys ih =>
      obtain ⟨hmem, hdead⟩ := hkeys key List.mem_cons_self
      have hrest : ∀ other ∈ keys, Known nd other := fun other hother =>
        hkeys other (List.mem_cons_of_mem key hother)
      unfold colodListLoop
      rw [Node.testDomainStatus_eq_self hmem hdead]
      dsimp only
      split
      · exact ih _ hrest
      · exact ih _ hrest

theorem colodList_keepsAgrees (h : nd.Agrees) {script : Script} {showAll : Bool}
    (hby : AgreesBy env script nd (.list showAll)) : KeepsAgrees (colodList showAll nd) := by
  have hkeys : ∀ key ∈ nd.domains.keys, Known nd key := fun key hkey =>
    ⟨AList.mem_keys.mp hkey, hby key (AList.mem_keys.mp hkey)⟩
  unfold colodList
  split
  · exact h
  · dsimp only
    rw [colodListLoop_eq_self showAll _ _ hkeys]
    exact h

theorem startQmp_keepsAgrees (h : nd.Agrees) (env : Env) (domainName : String)
    (role : ColoDomainStatus) (d : Domain) :
    KeepsAgrees (startQmp env domainName role d nd) := by
  unfold startQmp
  dsimp only
  split
  · refine keepsAgrees_remoteCall h ?_
    intro ret nd' _ hnd'
    exact keepsAgrees_checkReply hnd' (keepsAgrees_checkQmp hnd' fun _ => hnd')
  · refine keepsAgrees_checkQmp h ?_
    intro texts
    have hsent : (nd.sentQmp texts).Agrees := h
    refine keepsAgrees_remoteCall hsent ?_
    intro ret nd' _ hnd'
    exact keepsAgrees_checkReply hnd' hnd'
  · exact h

theorem startHost_keepsAgrees (h : nd.Agrees) (env : Env) (role : ColoDomainStatus)
    {d : Domain} (hmem : d.name ∈ nd.domains) :
    KeepsAgrees (startHost env d.name role d nd) := by
  unfold startHost
  rcases nd.runNewVm_cases env d.name (coloCmd role d nd.currentStatus) with
    ⟨-, heq⟩ | ⟨pid, os, hfork, heq⟩
  · rw [heq]
    exact h
  · have hpos := (ProcessTable.fork_eq_some hfork).1
    have hnonneg : ¬ pid < 0 := by omega
    simp only [heq, hnonneg, if_false]
    exact startQmp_keepsAgrees (h.launch hmem _ pid os (by decide)) env d.name role d

theorem colodStart_keepsAgrees (h : nd.Agrees) {script : Script} {domainName : String}
    {colo : Bool} (hby : AgreesBy env script nd (.start domainName colo)) :
    KeepsAgrees (colodStart env domainName colo nd) := by
  obtain ⟨⟨hmem, hdead⟩, hlaunch⟩ := hby
  unfold colodStart
  dsimp only
  rw [Node.touch_of_mem hmem, Node.testDomainStatus_eq_self hmem hdead]
  split
  · exact h
  · rename_i hshut
    split
    · trivial
    · exact h
    · rename_i d hd
      split
      · rename_i hcolo
        have hnative : colo = false := by simpa using hcolo
        obtain ⟨hname, hfork⟩ := hlaunch (by simpa using hshut) (by simp [hnative]) d hd
        subst hname
        rcases nd.runNewVm_cases env d.name (generateVmCmd d).2 with
          ⟨hnone, -⟩ | ⟨pid, os, -, heq⟩
        · exact absurd hnone (hfork hnative)
        · unfold startNative
          rw [heq]
          exact h.launch hmem _ pid os (by decide)
      · split
        · exact h
        · rename_i henabled
          obtain ⟨hname, -⟩ := hlaunch (by simpa using hshut)
            (fun _ => by simpa using henabled) d hd
          subst hname
          refine keepsAgrees_remoteCall h ?_
          intro ret nd' hwait hnd'
          exact keepsAgrees_checkReply hnd'
            (startHost_keepsAgrees hnd' env _ (hwait.domains ▸ hmem))

theorem destroyHost_agrees (h : nd.Agrees) {domainName : String} (hmem : domainName ∈ nd.domains)
    (hpid : (nd.dom domainName).pid ≠ -1)
    (hsurvives : Survives env nd.os (nd.dom domainName).pid) (success : String) :
    KeepsAgrees (destroyHost env domainName success nd) := by
  obtain ⟨entry, -, hentry, hagrees⟩ := h.entry hmem
  have hrecorded : getDomainPid domainName nd.save = some (nd.dom domainName).pid := by
    have hne : ¬ entry.pid = -1 := hagrees.pid ▸ hpid
    simp [getDomainPid, hentry, hne, hagrees.pid]
  have heq := Node.destroyDomain_of_survives hrecorded hsurvives.1 hsurvives.2
  unfold destroyHost
  rw [heq]
  exact h.destroyed hmem

theorem colodDestroy_agrees (h : nd.Agrees) {script : Script} {domainName : String}
    (hby : AgreesBy env script nd (.destroy domainName)) :
    AgreesAfter ((colodDestroy env domainName nd).follow Node.osAfter script) := by
  obtain ⟨⟨hmem, hdead⟩, hsurvives⟩ := hby
  unfold colodDestroy
  dsimp only
  rw [Node.testDomainStatus_eq_self hmem hdead]
  by_cases hshut : (nd.testDomainStatus domainName).1 = .shutOff
  · rw [if_pos hshut]
    exact h
  · rw [if_neg hshut]
    have hpid := Node.pid_of_not_shutOff hshut
    cases hstatus : (nd.dom domainName).status with
    | running =>
        rw [hstatus] at hsurvives
        exact (destroyHost_agrees h hmem hpid hsurvives _).follow script
    | coloEnabled =>
        rw [hstatus] at hsurvives
        dsimp only
        rcases follow_remoteCall_cases (.peerDestroyDomain domainName) nd _ script with
          ⟨nd', heq⟩ | ⟨nd', hwait, hos, heq⟩
        · rw [heq]
          trivial
        · rw [heq]
          have hnd' := h.waited hwait
          refine KeepsAgrees.follow ?_ _
          unfold checkReply
          cases hreply : script.reply 0 with
          | none => exact hnd'
          | some reply =>
              dsimp only [Option.getD_some]
              split
              · exact hnd'
              · split
                · exact hnd'
                · rename_i hcode hneg
                  have haccepted : accepted (script.reply 0) = true := by
                    simp only [hreply, accepted, decide_eq_true_eq]
                    exact ⟨by simpa using hcode, by omega⟩
                  have hsurvives' := hsurvives haccepted
                  rw [← hos, ← hwait.dom] at hsurvives'
                  exact destroyHost_agrees hnd' (hwait.domains ▸ hmem)
                    (by rwa [hwait.dom]) hsurvives' _
    | shutOff => exact h
    | start => exact h
    | error => exact h

/-- `nd` is `nd₀` after `colod_colo_enable` has written the flag and the role of
the domain in memory. -/
structure EnableMarked (domainName : String) (role : ColoDomainStatus) (nd₀ nd : Node) :
    Prop where
  lookup : ∀ other, nd.domains.lookup other =
    if other = domainName then
      some { nd₀.dom domainName with coloEnable := true, coloStatus := role }
    else nd₀.domains.lookup other
  save : nd.save = nd₀.save

theorem enableUndone_agrees {nd₀ : Node} {domainName : String} {role : ColoDomainStatus}
    (h : nd₀.Agrees) (hmem : domainName ∈ nd₀.domains)
    (hmarked : EnableMarked domainName role nd₀ nd)
    (hoff : (nd₀.dom domainName).coloEnable = false)
    (hrole : (nd₀.dom domainName).coloStatus = role) :
    (nd.modDom domainName fun ds => { ds with coloEnable := false }).Agrees := by
  obtain ⟨entry, -, hentry, hagrees⟩ := h.entry hmem
  have hdom : nd.dom domainName =
      { nd₀.dom domainName with coloEnable := true, coloStatus := role } := by
    apply Node.dom_eq_of_lookup
    rw [hmarked.lookup, if_pos rfl]
  refine h.update domainName ?_ ?_ ?_
  · intro other hother
    rw [Node.lookup_modDom, if_neg hother, hmarked.lookup, if_neg hother]
  · intro other _
    show nd.save.find other = _
    rw [hmarked.save]
  · show Option.Rel EntryAgrees _ (nd.save.find domainName)
    rw [Node.lookup_modDom, if_pos rfl, hdom, hmarked.save, hentry]
    exact .some ⟨hagrees.pid, by rw [← hagrees.coloEnable, hoff],
      by rw [← hagrees.coloStatus, hrole], hagrees.path, hagrees.status⟩

theorem enableSaved_agrees {nd₀ : Node} {domainName : String} {role : ColoDomainStatus}
    (h : nd₀.Agrees) (hmarked : EnableMarked domainName role nd₀ nd) {entry : SaveEntry}
    (hentry : nd₀.save.find domainName = some entry)
    (hagrees : EntryAgrees (nd₀.dom domainName) entry) (hstatus : entry.status = "shutoff") :
    (nd.setSave (setDomainColoEnable domainName role nd.save).2).Agrees := by
  have hfind := find_setDomainColoEnable hentry hstatus role
  rw [← hmarked.save] at hfind
  refine h.update domainName ?_ ?_ ?_
  · intro other hother
    show nd.domains.lookup other = _
    rw [hmarked.lookup, if_neg hother]
  · intro other hother
    show (setDomainColoEnable domainName role nd.save).2.find other = _
    rw [hfind, if_neg hother, hmarked.save]
  · show Option.Rel EntryAgrees (nd.domains.lookup domainName)
      ((setDomainColoEnable domainName role nd.save).2.find domainName)
    rw [hfind, if_pos rfl, hmarked.lookup, if_pos rfl]
    exact .some ⟨hagrees.pid, rfl, rfl, hagrees.path, hagrees.status⟩

theorem enableAnswered_agrees {nd₀ : Node} {script : Script} {domainName : String}
    {role : ColoDomainStatus} (h : nd₀.Agrees) (hmem : domainName ∈ nd₀.domains)
    (hmarked : EnableMarked domainName role nd₀ nd)
    (hby : ((nd₀.dom domainName).coloEnable = false ∧
          (nd₀.dom domainName).coloStatus = role) ∨
        (accepted (script.reply 0) = true ∧ (nd₀.dom domainName).status = .shutOff)) :
    KeepsAgrees (enableAnswered domainName ((script.reply 0).getD .timeout) nd) := by
  obtain ⟨entry, -, hentry, hagrees⟩ := h.entry hmem
  have hrole : (nd.dom domainName).coloStatus = role := by
    rw [Node.dom_eq_of_lookup ((hmarked.lookup domainName).trans (if_pos rfl))]
  have hcode : (setDomainColoEnable domainName role nd.save).1 =
      if entry.status = "shutoff" then 0 else -1 := by
    rw [hmarked.save]
    exact setShutOffEntry_code hentry
  unfold enableAnswered enableFailed
  simp only [hrole]
  rcases hby with ⟨hoff, hsame⟩ | ⟨haccepted, hshut⟩
  · have hundone := enableUndone_agrees h hmem hmarked hoff hsame
    split
    · exact hundone
    · split
      · exact hundone
      · split
        · exact hundone
        · rename_i hdone
          refine enableSaved_agrees h hmarked hentry hagrees ?_
          by_contra hstatus
          rw [hcode, if_neg hstatus] at hdone
          omega
  · have hstatus := hagrees.status.mp hshut
    rw [if_pos hstatus] at hcode
    cases hreply : script.reply 0 with
    | none => simp [hreply, accepted] at haccepted
    | some reply =>
        simp only [hreply, accepted, decide_eq_true_eq] at haccepted
        have hneg : ¬ reply.val.code < 0 := by omega
        have hzero : ¬ (0 : ℤ) < 0 := by decide
        simp only [Option.getD_some, haccepted.1, ne_eq, not_true_eq_false, if_false, hneg,
          hcode, hzero]
        exact enableSaved_agrees h hmarked hentry hagrees hstatus

theorem colodColoEnable_agrees (h : nd.Agrees) {script : Script} {domainName : String}
    (hby : AgreesBy env script nd (.coloEnable domainName)) :
    AgreesAfter ((colodColoEnable env domainName nd).follow Node.osAfter script) := by
  unfold colodColoEnable
  by_cases hstatus : nd.currentStatus.localStatus = .none ∨
      nd.currentStatus.localStatus = .error
  · rw [if_pos hstatus]
    exact h
  · rw [if_neg hstatus]
    rw [not_or] at hstatus
    obtain ⟨hmem, hrecord⟩ := hby hstatus
    dsimp only
    generalize hnd₁ : nd.modDom domainName _ = nd₁
    have hlookup : ∀ other, nd₁.domains.lookup other =
        if other = domainName then
          some { nd.dom domainName with
            coloEnable := true
            coloStatus := enabledRole nd.currentStatus.localStatus
              (nd.dom domainName).coloStatus }
        else nd.domains.lookup other := by
      intro other
      rw [← hnd₁, Node.lookup_modDom]
    have hsave : nd₁.save = nd.save := by
      rw [← hnd₁]
      rfl
    have hcall : ∀ nd₂ : Node, nd₂.domains = nd₁.domains → nd₂.save = nd.save →
        AgreesAfter ((nd₂.remoteCall (.peerSaveDomain (nd₂.dom domainName))
          (enableAnswered domainName)).follow Node.osAfter script) := by
      intro nd₂ hdomains₂ hsave₂
      rcases follow_remoteCall_cases (.peerSaveDomain (nd₂.dom domainName)) nd₂
          (enableAnswered domainName) script with ⟨nd', heq⟩ | ⟨nd', hwait, -, heq⟩
      · rw [heq]
        trivial
      · rw [heq]
        have hmarked : EnableMarked domainName _ nd nd' :=
          ⟨by rw [hwait.domains, hdomains₂]; exact hlookup, hwait.save.trans hsave₂⟩
        exact (enableAnswered_agrees h hmem hmarked hrecord).follow _
    rcases nd₁.ensureRemoteClient_cases env with hset | ⟨-, hset⟩ | ⟨-, hset⟩
    · rw [hset]
      trivial
    · rw [hset]
      exact hcall nd₁ rfl hsave
    · rw [hset]
      exact hcall _ rfl hsave

theorem colodColoDisable_keepsAgrees (h : nd.Agrees) {domainName : String}
    (hmem : domainName ∈ nd.domains) : KeepsAgrees (colodColoDisable domainName nd) := by
  obtain ⟨entry, -, hentry, hagrees⟩ := h.entry hmem
  unfold colodColoDisable
  dsimp only
  split
  · exact h
  · rename_i hdone
    have hstatus : entry.status = "shutoff" := by
      by_contra hstatus
      rw [show (setDomainColoDisable domainName nd.save).1 = _ from setShutOffEntry_code hentry,
        if_neg hstatus] at hdone
      omega
    have hfind := find_setDomainColoDisable hentry hstatus
    refine Node.Agrees.update h domainName ?_ ?_ ?_
    · intro other hother
      rw [Node.lookup_modDom, if_neg hother]
      rfl
    · intro other hother
      exact (hfind other).trans (if_neg hother)
    · show Option.Rel EntryAgrees _ ((setDomainColoDisable domainName nd.save).2.find domainName)
      rw [hfind, if_pos rfl, Node.lookup_modDom, if_pos rfl]
      exact .some ⟨hagrees.pid, rfl, hagrees.coloStatus, hagrees.path, hagrees.status⟩

theorem colodVmStatus_keepsAgrees (h : nd.Agrees) (domainName : String) :
    KeepsAgrees (colodVmStatus domainName nd) := by
  unfold colodVmStatus
  split
  · trivial
  · exact h
  · rename_i d hd
    exact h.touch (h.mem (Node.find_of_getDomain hd))

theorem colodSetParams_keepsAgrees (h : nd.Agrees) (env : Env) {domainName : String}
    (hmem : domainName ∈ nd.domains) (property : String) (value : ℤ) :
    KeepsAgrees (colodSetParams env domainName property value nd) := by
  unfold colodSetParams
  dsimp only
  rw [Node.touch_of_mem hmem]
  split
  · exact h
  · split
    · exact h
    · split
      · exact h
      · exact keepsAgrees_checkQmp h fun _ => h

theorem colodDoFailover_keepsAgrees (h : nd.Agrees) {script : Script} {domainName : String}
    (hby : AgreesBy env script nd (.doFailover domainName)) :
    KeepsAgrees (colodDoFailover env domainName nd) := by
  obtain ⟨hmem, hrole⟩ := hby
  unfold colodDoFailover
  dsimp only
  rw [Node.touch_of_mem hmem]
  split
  · exact h
  · rename_i hstatus
    split
    · exact h
    · rename_i henabled
      have hend := hrole hstatus (by simpa using henabled)
      cases hcds : (nd.dom domainName).coloStatus with
      | secondary =>
          rw [hcds] at hend
          dsimp only at hend ⊢
          rw [Node.sendQmpCmds_eq, hend]
          trivial
      | primary =>
          rw [hcds] at hend
          dsimp only at hend ⊢
          rw [Node.sendQmpCmds_eq]
          cases hscript : Node.qmpScriptEnd env.qmp primaryFailoverCmds.length with
          | died => trivial
          | failed => exact h
          | complete => exact absurd hscript hend
      | none => exact h
      | failover => exact h
      | degrade => exact h
      | dead => exact h

theorem peerColodConnectTest_keepsAgrees (h : nd.Agrees) :
    KeepsAgrees (peerColodConnectTest nd) := by
  unfold peerColodConnectTest
  split
  · refine keepsAgrees_remoteCall h ?_
    intro ret nd' _ hnd'
    split
    · exact hnd'
    · exact hnd'
  · exact h

theorem peerColodSaveStatus_keepsAgrees (h : nd.Agrees) (env : Env) (cs : ColoStatus) :
    KeepsAgrees (peerColodSaveStatus env cs nd) := by
  have hstatus : (nd.setStatus (mirrorStatus cs)).Agrees := h
  unfold peerColodSaveStatus
  dsimp only
  rcases (nd.setStatus (mirrorStatus cs)).ensureRemoteClient_cases env with
    hset | ⟨-, hset⟩ | ⟨-, hset⟩
  · rw [hset]
    trivial
  · rw [hset]
    exact hstatus.saveColoStatus _
  · rw [hset]
    have hclient : ((nd.setStatus (mirrorStatus cs)).withSocket
      (nd.setStatus (mirrorStatus cs)).currentStatus.peerIp).Agrees := h
    exact hclient.saveColoStatus _

theorem peerColodSaveDomain_keepsAgrees (h : nd.Agrees) {script : Script}
    {ds : ColodDomainStatus} (hby : AgreesBy env script nd (.peerSaveDomain ds)) :
    KeepsAgrees (peerColodSaveDomain ds nd) := by
  obtain ⟨hpid, hstatus, henabled⟩ := hby
  unfold peerColodSaveDomain
  dsimp only
  split
  · exact h
  · rename_i save hsaveInfo
    have hinfo := find_saveDomainInfo hsaveInfo
    rw [mirrorDomain_name] at hinfo ⊢
    have hself : save.find ds.name = some (savedEntry (mirrorDomain ds)) :=
      (hinfo ds.name).trans (if_pos rfl)
    have hfind := find_setDomainColoEnable hself rfl (mirrorDomain ds).coloStatus
    have hcode : (setDomainColoEnable ds.name (mirrorDomain ds).coloStatus save).1 = 0 :=
      (setShutOffEntry_code hself).trans (if_pos rfl)
    split
    · rename_i hneg
      rw [hcode] at hneg
      exact absurd hneg (by decide)
    · refine Node.Agrees.update h ds.name ?_ ?_ ?_
      · intro other hother
        rw [Node.lookup_setDom, if_neg hother]
        rfl
      · intro other hother
        show (setDomainColoEnable ds.name (mirrorDomain ds).coloStatus save).2.find other = _
        rw [hfind, if_neg hother, hinfo, if_neg hother]
      · show Option.Rel EntryAgrees _
          ((setDomainColoEnable ds.name (mirrorDomain ds).coloStatus save).2.find ds.name)
        rw [hfind, if_pos rfl, Node.lookup_setDom, if_pos rfl]
        have hmirror : mirrorDomain ds =
            { ds with coloStatus := if ds.coloStatus = .primary then .secondary else .primary } := by
          simp [mirrorDomain, henabled]
        rw [hmirror]
        exact .some ⟨hpid, henabled, rfl, rfl, iff_of_true hstatus rfl⟩

theorem peerColodStartDomain_keepsAgrees (h : nd.Agrees) {script : Script}
    {domainName : String} {colo : Bool}
    (hby : AgreesBy env script nd (.peerStartDomain domainName colo)) :
    KeepsAgrees (peerColodStartDomain env domainName colo nd) := by
  unfold peerColodStartDomain
  split
  · exact h
  · rename_i hcolo
    obtain ⟨hmem, hlaunch⟩ := hby (by simpa using hcolo)
    dsimp only
    rw [Node.touch_of_mem hmem]
    split
    · exact h
    · rename_i henabled
      split
      · trivial
      · exact h
      · rename_i d hd
        rcases nd.runNewVm_cases env d.name
            (coloCmd (nd.dom domainName).coloStatus d nd.currentStatus) with
          ⟨-, heq⟩ | ⟨pid, os, hfork, heq⟩
        · rw [heq]
          exact h
        · have hname := hlaunch (by simpa using henabled) d hd (by simp [hfork])
          subst hname
          have hpos := (ProcessTable.fork_eq_some hfork).1
          have hnonneg : ¬ pid < 0 := by omega
          simp only [heq, hnonneg, if_false]
          exact h.launch hmem _ pid os (by decide)

theorem peerColodDestroyDomain_keepsAgrees (h : nd.Agrees) {script : Script}
    {domainName : String} (hby : AgreesBy env script nd (.peerDestroyDomain domainName)) :
    KeepsAgrees (peerColodDestroyDomain env domainName nd) := by
  obtain ⟨hmem, hkill⟩ := hby
  unfold peerColodDestroyDomain
  dsimp only
  rw [Node.touch_of_mem hmem]
  split
  · exact h
  · rename_i henabled
    obtain ⟨hdead, hsurvives⟩ := hkill (by simpa using henabled)
    rw [Node.testDomainStatus_eq_self hmem hdead]
    split
    · exact h
    · rename_i hshut
      have hpid := Node.pid_of_not_shutOff hshut
      exact destroyHost_agrees h hmem hpid (hsurvives hshut) _

theorem peerColodSendQmpcmds_keepsAgrees (h : nd.Agrees) (env : Env) {domainName : String}
    (hknown : Known nd domainName) (cds : ColoDomainStatus) :
    KeepsAgrees (peerColodSendQmpcmds env domainName cds nd) := by
  unfold peerColodSendQmpcmds
  dsimp only
  rw [Node.testDomainStatus_eq_self hknown.1 hknown.2]
  split
  · exact h
  · split
    · trivial
    · exact h
    · split
      · exact h
      · exact keepsAgrees_checkQmp h fun _ => h
      · exact h

theorem handle_agrees (h : nd.Agrees) {script : Script} {req : Request}
    (hby : AgreesBy env script nd req) :
    AgreesAfter ((handle env req nd).follow Node.osAfter script) := by
  cases req with
  | destroy domainName => exact colodDestroy_agrees h hby
  | coloEnable domainName => exact colodColoEnable_agrees h hby
  | connectPeer configFilePath =>
      exact (colodConnectPeer_keepsAgrees h env configFilePath).follow script
  | connectStatus => exact (colodConnectStatus_keepsAgrees h).follow script
  | define vmFilePath => exact (colodDefine_keepsAgrees h hby).follow script
  | undefine domainName => exact (colodUndefine_keepsAgrees h domainName).follow script
  | list showAll => exact (colodList_keepsAgrees h hby).follow script
  | start domainName colo => exact (colodStart_keepsAgrees h hby).follow script
  | coloDisable domainName => exact (colodColoDisable_keepsAgrees h hby).follow script
  | vmStatus domainName => exact (colodVmStatus_keepsAgrees h domainName).follow script
  | setParams domainName property value =>
      exact (colodSetParams_keepsAgrees h env hby property value).follow script
  | doFailover domainName => exact (colodDoFailover_keepsAgrees h hby).follow script
  | connectTest => exact (peerColodConnectTest_keepsAgrees h).follow script
  | connectReply => exact h
  | domainTest domainName =>
      have hself := Node.testDomainStatus_eq_self hby.1 hby.2
      show (nd.testDomainStatus domainName).2.Agrees
      rw [hself]
      exact h
  | peerSaveStatus cs => exact (peerColodSaveStatus_keepsAgrees h env cs).follow script
  | peerSaveDomain ds => exact (peerColodSaveDomain_keepsAgrees h hby).follow script
  | peerStartDomain domainName colo =>
      exact (peerColodStartDomain_keepsAgrees h hby).follow script
  | peerDestroyDomain domainName =>
      exact (peerColodDestroyDomain_keepsAgrees h hby).follow script
  | peerSendQmpcmds domainName cds =>
      exact (peerColodSendQmpcmds_keepsAgrees h env hby cds).follow script

end

/-! ## Whole runs -/

/-- Memory and file agree whenever colod is up and no handler is running. -/
def Agreement (server : Server) : Prop := server.up = true → server.node.Agrees

/-- A request that colod takes leaves copies that agree; colod is not restarted. -/
def EventAgrees (server : Server) : ServerEvent → Prop
  | .request req env script => server.up = true → AgreesBy env script server.node req
  | .restart => False
  | _ => True

theorem agreement_step {server : Server} {event : ServerEvent} (h : Agreement server)
    (hby : EventAgrees server event) : Agreement (server.step event) := by
  cases event with
  | request req env script =>
      by_cases hup : server.up = true
      · have hafter := handle_agrees (h hup) (hby hup)
        simp only [Server.step, hup, if_true]
        cases hout : (handle env req server.node).follow Node.osAfter script with
        | returned ret nd =>
            rw [hout] at hafter
            exact fun _ => hafter
        | crashed nd =>
            intro hup'
            cases hup'
      · have hstep : server.step (.request req env script) = server := by
          simp [Server.step, hup]
        rw [hstep]
        exact h
  | restart => exact hby.elim
  | os event => exact h
  | writeFile path doc =>
      by_cases hpath : path = defaultSaveFile
      · simpa [Server.step, hpath] using h
      · intro hup
        have hagrees := h (by simpa [Server.step, hpath] using hup)
        have htables : (server.step (.writeFile path doc)).node.domains = server.node.domains ∧
            (server.step (.writeFile path doc)).node.save = server.node.save := by
          simp [Server.step, hpath, Node.writeFile]
        exact hagrees.congr htables.1 fun name => by rw [htables.2]

/-- From an empty save file, a run whose requests all leave copies that agree
keeps them in agreement. -/
theorem agreement_of_agrees {nd : Node} (hsave : nd.save.names = []) {events : List ServerEvent}
    (hrun : Along Server.step EventAgrees (Server.boot nd) events) :
    Always Server.step Agreement (Server.boot nd) events := by
  have hentries : nd.save.domains.entries = [] := List.map_eq_nil_iff.mp hsave
  have hinit : Agreement (Server.boot nd) := by
    intro _ name
    have hlookup : (Server.boot nd).node.domains.lookup name = none := by
      simp [Server.boot, Node.rsInit, domainsInit, hentries]
    have hfind : (Server.boot nd).node.save.find name = none := by
      simp [Server.boot, Node.rsInit, SaveFile.find, hentries]
    rw [hlookup, hfind]
    exact .none
  exact always_of_along (fun _ _ => agreement_step) hinit hrun

/-- A domain is defined and started, its VM exits, and a name that nobody has defined is
to be started. -/
def startUnknown : List ServerEvent :=
  [.request (.define "/root/d.yaml") (.smooth 100) [],
    .request (.start "d" false) (.smooth 100) [],
    .os (.exit 100),
    .request (.start "e" false) (.smooth 101) []]

theorem agreement_before_start :
    Always Server.step Agreement (Server.boot .fresh) (startUnknown.take 3) := by
  refine agreement_of_agrees rfl ⟨?_, ?_, trivial, trivial⟩
  · intro _ d nd' h
    have hload : Node.fresh.rsInit.loadFile "/root/d.yaml" = some (sampleDefinition "d") := rfl
    obtain rfl : sampleDomain "d" = d := Node.domain_of_vmDefine_sample hload h
    decide
  · intro _
    refine ⟨⟨by decide +kernel, by decide +kernel⟩, ?_⟩
    intro _ _ d h
    have hstored : ((Server.boot .fresh).step (.request (.define "/root/d.yaml")
        (.smooth 100) [])).node.getDomain "d" = .ok (sampleDomain "d") := by
      decide +kernel
    obtain rfl : sampleDomain "d" = d := Except.ok.inj (hstored.symm.trans h)
    exact ⟨rfl, fun _ => by decide +kernel⟩

theorem Node.Agrees.pid {nd : Node} (h : nd.Agrees) (name : String) :
    (nd.domains.lookup name).map ColodDomainStatus.pid =
      (nd.save.find name).map SaveEntry.pid := by
  have hrel := h name
  cases hlookup : nd.domains.lookup name with
  | none =>
      cases hfind : nd.save.find name with
      | none => rfl
      | some entry =>
          rw [hlookup, hfind] at hrel
          cases hrel
  | some ds =>
      cases hfind : nd.save.find name with
      | none =>
          rw [hlookup, hfind] at hrel
          cases hrel
      | some entry =>
          rw [hlookup, hfind] at hrel
          cases hrel with
          | some hagrees => simp [hagrees.pid]

theorem not_agreement_start_unknown :
    ¬ Always Server.step Agreement (Server.boot .fresh) startUnknown := by
  intro h
  have hpid := (h.last (by decide +kernel)).pid "e"
  exact absurd hpid (by decide +kernel)

end ColoManage
