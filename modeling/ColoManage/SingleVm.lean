import ColoManage.Server
import ColoManage.Steps

/-!
# One process for each domain

`Tracked` says of a node that every VM running on it is recorded under its own
name, in memory and in the save file, with its pid.  One pid for a name leaves
room for one VM.  The invariant needs every handler to leave the records of a
running domain alone; `Keeps` names the requests that do.
-/

namespace ColoManage

open Resumption EventSystem

namespace Node

def Runs (nd : Node) (name : String) : Prop :=
  ∃ vm ∈ nd.os.vms, vm.running = true ∧ vm.name = name

/-- The part of the invariant that a restart starts from. -/
structure TrackedFile (nd : Node) : Prop where
  pos : ∀ vm ∈ nd.os.vms, 0 < vm.pid
  pids : (nd.os.vms.map VmProcess.pid).Nodup
  names : nd.save.names.Nodup
  file : ∀ vm ∈ nd.os.vms, vm.running = true →
    (nd.save.find vm.name).map SaveEntry.pid = some vm.pid

structure Tracked (nd : Node) : Prop extends TrackedFile nd where
  memory : ∀ vm ∈ nd.os.vms, vm.running = true →
    (nd.domains.lookup vm.name).map ColodDomainStatus.pid = some vm.pid

theorem Runs.of_shrinks {nd nd' : Node} {name : String} (hos : nd.os.Shrinks nd'.os)
    (h : nd'.Runs name) : nd.Runs name := by
  obtain ⟨vm, hvm, hrun, hname⟩ := h
  exact ⟨vm, hos.2 vm hvm hrun, hrun, hname⟩

/-! ## Steps that launch nothing -/

section

variable {nd nd' : Node}

theorem TrackedFile.transfer (h : nd.TrackedFile) (hos : nd.os.Shrinks nd'.os)
    (hnames : nd'.save.names.Nodup)
    (hfile : ∀ name, nd'.Runs name →
      (nd'.save.find name).map SaveEntry.pid = (nd.save.find name).map SaveEntry.pid) :
    nd'.TrackedFile where
  pos := by
    intro vm hvm
    have hmem := hos.1.subset (List.mem_map_of_mem hvm)
    obtain ⟨old, hold, heq⟩ := List.mem_map.mp hmem
    rw [← heq]
    exact h.pos old hold
  pids := h.pids.sublist hos.1
  names := hnames
  file := by
    intro vm hvm hrun
    rw [hfile vm.name ⟨vm, hvm, hrun, rfl⟩]
    exact h.file vm (hos.2 vm hvm hrun) hrun

theorem Tracked.transfer (h : nd.Tracked) (hos : nd.os.Shrinks nd'.os)
    (hnames : nd'.save.names.Nodup)
    (hfile : ∀ name, nd'.Runs name →
      (nd'.save.find name).map SaveEntry.pid = (nd.save.find name).map SaveEntry.pid)
    (hmemory : ∀ name pid, nd'.Runs name →
      (nd.domains.lookup name).map ColodDomainStatus.pid = some pid →
        (nd'.domains.lookup name).map ColodDomainStatus.pid = some pid) :
    nd'.Tracked where
  toTrackedFile := h.toTrackedFile.transfer hos hnames hfile
  memory := by
    intro vm hvm hrun
    exact hmemory vm.name vm.pid ⟨vm, hvm, hrun, rfl⟩
      (h.memory vm (hos.2 vm hvm hrun) hrun)

theorem Tracked.congr (h : nd.Tracked) (hdomains : nd'.domains = nd.domains)
    (hsave : nd'.save = nd.save) (hos : nd'.os = nd.os) : nd'.Tracked := by
  refine h.transfer (by rw [hos]; exact .refl _) (by rw [hsave]; exact h.names) ?_ ?_
  · intro name _
    rw [hsave]
  · intro name pid _ hpid
    rwa [hdomains]

theorem Tracked.touch (h : nd.Tracked) (name : String) : (nd.touch name).Tracked := by
  refine h.transfer (.refl _) h.names (fun _ _ => rfl) ?_
  intro other pid _ hpid
  rw [lookup_touch]
  by_cases hother : other = name
  · subst hother
    obtain ⟨ds, hds, rfl⟩ := Option.map_eq_some_iff.mp hpid
    simp [dom, hds]
  · rwa [if_neg hother]

theorem Tracked.setDom_idle (h : nd.Tracked) {name : String} (hidle : ¬ nd.Runs name)
    (ds : ColodDomainStatus) : (nd.setDom name ds).Tracked := by
  refine h.transfer (.refl _) h.names (fun _ _ => rfl) ?_
  intro other pid hruns hpid
  have hother : other ≠ name := fun heq => hidle (heq ▸ hruns)
  rwa [lookup_setDom, if_neg hother]

theorem Tracked.modDom (h : nd.Tracked) (name : String)
    {f : ColodDomainStatus → ColodDomainStatus} (hf : ∀ ds, (f ds).pid = ds.pid) :
    (nd.modDom name f).Tracked := by
  refine h.transfer (.refl _) h.names (fun _ _ => rfl) ?_
  intro other pid _ hpid
  rw [lookup_modDom]
  by_cases hother : other = name
  · subst hother
    obtain ⟨ds, hds, rfl⟩ := Option.map_eq_some_iff.mp hpid
    simp [dom, hds, hf]
  · rwa [if_neg hother]

theorem Tracked.eraseDom_idle (h : nd.Tracked) {name : String} (hidle : ¬ nd.Runs name) :
    (nd.eraseDom name).Tracked := by
  refine h.transfer (.refl _) h.names (fun _ _ => rfl) ?_
  intro other pid hruns hpid
  have hother : other ≠ name := fun heq => hidle (heq ▸ hruns)
  rwa [lookup_eraseDom, if_neg hother]

theorem Tracked.setSave (h : nd.Tracked) {sf : SaveFile} (hnames : sf.names.Nodup)
    (hfile : ∀ name, nd.Runs name →
      (sf.find name).map SaveEntry.pid = (nd.save.find name).map SaveEntry.pid) :
    (nd.setSave sf).Tracked :=
  h.transfer (.refl _) hnames hfile fun _ _ _ hpid => hpid

theorem Tracked.setShutOffEntry (h : nd.Tracked) (name : String)
    {f : SaveEntry → SaveEntry} (hname : ∀ entry, (f entry).name = entry.name)
    (hpid : ∀ entry, (f entry).pid = entry.pid) :
    (nd.setSave (setShutOffEntry name f nd.save).2).Tracked := by
  refine h.setSave (by rw [names_setShutOffEntry hname]; exact h.names) ?_
  intro other _
  rw [find_setShutOffEntry hname]
  by_cases hother : other = name
  · subst hother
    cases hfind : nd.save.find other with
    | none => simp
    | some entry => by_cases hstatus : entry.status = "shutoff" <;> simp [hstatus, hpid]
  · rw [if_neg hother]

theorem Tracked.saveColoStatus (h : nd.Tracked) (cs : ColoStatus) :
    (nd.setSave (saveColoStatus cs nd.save)).Tracked :=
  h.setSave (by simpa using h.names) fun _ _ => rfl

theorem Tracked.saveDomainInfo_idle (h : nd.Tracked) {ds : ColodDomainStatus} {sf : SaveFile}
    (hidle : ¬ nd.Runs ds.name) (hsave : saveDomainInfo ds nd.save = .ok sf) :
    (nd.setSave sf).Tracked := by
  refine h.setSave (nodup_saveDomainInfo hsave h.names) ?_
  intro name hruns
  have hname : name ≠ ds.name := fun heq => hidle (heq ▸ hruns)
  rw [find_saveDomainInfo hsave, if_neg hname]

theorem Tracked.not_foundDead (h : nd.Tracked) {name : String} (hruns : nd.Runs name) :
    ¬ nd.FoundDead name := by
  obtain ⟨vm, hvm, hrun, rfl⟩ := hruns
  obtain ⟨ds, hds, hpid⟩ := Option.map_eq_some_iff.mp (h.memory vm hvm hrun)
  intro hdead
  rw [FoundDead, dom_eq_of_lookup hds, hpid, ProcessTable.kill0_of_mem hvm] at hdead
  simp at hdead

theorem Tracked.testDomainStatus (h : nd.Tracked) (name : String) :
    (nd.testDomainStatus name).2.Tracked := by
  have hruns : ∀ other, (nd.testDomainStatus name).2.Runs other → nd.Runs other := by
    intro other
    simp [Runs]
  refine h.transfer (by rw [testDomainStatus_os]; exact .refl _)
    (by rw [names_testDomainStatus]; exact h.names) ?_ ?_
  · intro other hother
    rw [find_testDomainStatus, if_neg]
    rintro ⟨rfl, hdead⟩
    exact h.not_foundDead (hruns _ hother) hdead
  · intro other pid hother hpid
    rw [lookup_testDomainStatus]
    by_cases hname : other = name
    · subst hname
      obtain ⟨ds, hds, rfl⟩ := Option.map_eq_some_iff.mp hpid
      simp [h.not_foundDead (hruns _ hother), dom_eq_of_lookup hds]
    · rwa [if_neg hname]

theorem runs_testDomainStatus {name other : String} :
    (nd.testDomainStatus name).2.Runs other ↔ nd.Runs other := by
  simp [Runs]

theorem Tracked.waited {request : Request} (h : nd.Tracked) (hwait : Waited request nd nd') :
    nd'.Tracked := by
  refine h.transfer hwait.os (by rw [hwait.save]; exact h.names) ?_ ?_
  · intro name _
    rw [hwait.save]
  · intro name pid _ hpid
    rwa [hwait.domains]

theorem Tracked.sentQmp (h : nd.Tracked) (texts : List String) : (nd.sentQmp texts).Tracked :=
  h.congr rfl rfl rfl

theorem Tracked.setStatus (h : nd.Tracked) (cs : ColoStatus) : (nd.setStatus cs).Tracked :=
  h.congr rfl rfl rfl

theorem Tracked.setPeerInit (h : nd.Tracked) (value : Bool) : (nd.setPeerInit value).Tracked :=
  h.congr rfl rfl rfl

theorem Tracked.withSocket (h : nd.Tracked) (ip : String) : (nd.withSocket ip).Tracked :=
  h.congr rfl rfl rfl

end

/-! ## Launching, killing and restarting -/

section

variable {nd : Node}

theorem Tracked.launch (h : nd.Tracked) (env : Env) {name : String} (cmd : ShellCommand)
    (status : DomainStatus) (hidle : ¬ nd.Runs name) (hentry : (nd.save.find name).isSome) :
    ((nd.runNewVm env name cmd).2.modDom name fun ds =>
      { ds with pid := (nd.runNewVm env name cmd).1, status }).Tracked := by
  rcases nd.runNewVm_cases env name cmd with ⟨-, heq⟩ | ⟨pid, os, hfork, heq⟩
  · rw [heq]
    exact h.setDom_idle hidle _
  · obtain ⟨hpos, hfresh, hvms⟩ := ProcessTable.fork_eq_some hfork
    obtain ⟨entry, hfind⟩ := Option.isSome_iff_exists.mp hentry
    rw [heq]
    have hcases : ∀ vm ∈ os.vms, vm = ⟨pid, name, true⟩ ∨ vm ∈ nd.os.vms := by
      intro vm hvm
      rw [hvms] at hvm
      simpa using hvm
    have hother : ∀ vm ∈ nd.os.vms, vm.running = true → vm.name ≠ name :=
      fun vm hvm hrun hname => hidle ⟨vm, hvm, hrun, hname⟩
    refine ⟨⟨?_, ?_, ?_, ?_⟩, ?_⟩
    · intro vm hvm
      rcases hcases vm hvm with rfl | hold
      · exact hpos
      · exact h.pos vm hold
    · show (os.vms.map VmProcess.pid).Nodup
      rw [hvms, List.map_cons, List.nodup_cons]
      refine ⟨?_, h.pids⟩
      intro hmem
      obtain ⟨vm, hvm, hpid⟩ := List.mem_map.mp hmem
      have halive := ProcessTable.kill0_of_mem hvm
      rw [hpid] at halive
      simp [hfresh] at halive
    · show (saveDomainPid name pid nd.save).names.Nodup
      simpa using h.names
    · intro vm hvm hrun
      show ((saveDomainPid name pid nd.save).find vm.name).map SaveEntry.pid = some vm.pid
      rw [find_saveDomainPid]
      rcases hcases vm hvm with rfl | hold
      · simp [hfind]
      · rw [if_neg (hother vm hold hrun)]
        exact h.file vm hold hrun
    · intro vm hvm hrun
      rw [lookup_modDom]
      rcases hcases vm hvm with rfl | hold
      · simp
      · rw [if_neg (hother vm hold hrun)]
        exact h.memory vm hold hrun

/-- Nothing of the name runs once `destroy_domain` has returned `0`; when it
fails, the process it looked for was gone already. -/
theorem Tracked.destroyDomain (h : nd.Tracked) (env : Env) (name : String) :
    (nd.destroyDomain env name).2.Tracked ∧
      ((nd.destroyDomain env name).1 = 0 → ¬ (nd.destroyDomain env name).2.Runs name) := by
  rcases nd.destroyDomain_cases env name with ⟨-, heq⟩ | ⟨pid, os, hpid, hos, hcase⟩
  · rw [heq]
    exact ⟨h, by simp⟩
  · have hrecorded := (find_of_getDomainPid hpid).2
    -- a process of the name in a later table has the recorded pid
    have hvm : ∀ vm ∈ os.vms, vm.running = true → vm.name = name → vm.pid = pid := by
      intro vm hmem hrun hname
      have hfile := h.file vm (hos.2 vm hmem hrun) hrun
      rw [hname, hrecorded] at hfile
      exact (Option.some.inj hfile).symm
    have hidle : ∀ (nd' : Node), nd.os.Shrinks nd'.os → ¬ nd'.Runs name →
        nd'.save = (removeDomainPid name nd.save).2 → nd'.domains = nd.domains →
          nd'.Tracked := by
      intro nd' hos' hidle' hsave hdomains
      refine h.transfer hos' (by rw [hsave]; simpa using h.names) ?_ ?_
      · intro other hother
        have hne : other ≠ name := fun heq => hidle' (heq ▸ hother)
        rw [hsave, find_removeDomainPid, if_neg hne]
      · intro other pid' _ hpid'
        rwa [hdomains]
    rcases hcase with ⟨hgone, heq⟩ | ⟨-, heq⟩
    · rw [heq]
      refine ⟨hidle _ hos ?_ rfl rfl, by simp⟩
      rintro ⟨vm, hmem, hrun, hname⟩
      have halive := ProcessTable.kill0_of_mem hmem
      rw [hvm vm hmem hrun hname, hgone] at halive
      simp at halive
    · rw [heq]
      have hkilled := ProcessTable.shrinks_sigkill os pid
      have hdead : ¬ Runs { nd with
          save := (removeDomainPid name nd.save).2
          os := os.sigkill pid
          log := nd.log ++ [.kill pid] } name := by
        rintro ⟨vm, hmem, hrun, hname⟩
        have hpid' := hvm vm (hkilled.2 vm hmem hrun) hrun hname
        subst hpid'
        simp [ProcessTable.not_running_sigkill hmem] at hrun
      exact ⟨hidle _ (hos.trans hkilled) hdead rfl rfl, fun _ => hdead⟩

theorem TrackedFile.rsInit (h : nd.TrackedFile) : nd.rsInit.Tracked where
  toTrackedFile := ⟨h.pos, h.pids, h.names, h.file⟩
  memory := by
    intro vm hvm hrun
    obtain ⟨entry, hentry, hpid⟩ := Option.map_eq_some_iff.mp (h.file vm hvm hrun)
    show ((domainsInit nd.save ∅).lookup vm.name).map ColodDomainStatus.pid = some vm.pid
    rw [lookup_domainsInit h.names, hentry]
    simp [loadedRecord, hpid]

end

end Node

/-! ## The handlers -/

/-- The rest of a handler keeps the invariant whatever happens in its waits. -/
abbrev KeepsTracked (act : Colod) : Prop :=
  act.Post Node.Meanwhile (fun _ => Node.Tracked) (fun _ => Node.Tracked) Node.Tracked

/-- The requests that leave the records of running domains alone.  A definition
or a record of the peer must not arrive for a running domain, a domain that
tests as shut off must not be running when it is undefined or started, a
domain's definition must carry its name, and no definition may be written over
the save file. -/
def Keeps (nd : Node) : Request → Prop
  | .define vmFilePath => ∀ d nd',
      nd.vmDefine vmFilePath nd.currentStatus.hostFilePath = .ok (d, nd') →
        ¬ nd.Runs d.name ∧
          nd.definitionFile d.name ≠ some defaultSaveFile
  | .undefine domainName =>
      (nd.testDomainStatus domainName).1 = .shutOff → ¬ nd.Runs domainName
  | .start domainName colo =>
      (nd.testDomainStatus domainName).1 = .shutOff →
        (colo = true → (nd.dom domainName).coloEnable = true) →
          ∀ d, (nd.testDomainStatus domainName).2.getDomain domainName = .ok d →
            ¬ nd.Runs domainName ∧ d.name = domainName
  | .peerSaveDomain ds => ¬ nd.Runs ds.name
  | .peerStartDomain domainName colo =>
      colo = true → (nd.dom domainName).coloEnable = true →
        ∀ d, nd.getDomain domainName = .ok d → ¬ nd.Runs domainName ∧ d.name = domainName
  | _ => True

section

variable {nd : Node}

theorem keepsTracked_remoteCall {request : Request} {k : ValueT → Node → Colod}
    (h : nd.Tracked)
    (hk : ∀ ret nd', Node.Waited request nd nd' → nd'.Tracked → KeepsTracked (k ret nd')) :
    KeepsTracked (nd.remoteCall request k) :=
  Node.post_remoteCall (fun _ hwait => h.waited hwait) (fun _ _ hwait => h.waited hwait)
    fun ret nd' hwait => hk ret nd' hwait (h.waited hwait)

theorem keepsTracked_checkReply {failure : String} {ret : ValueT} {k : Node → Colod}
    (h : nd.Tracked) (hk : KeepsTracked (k nd)) :
    KeepsTracked (checkReply failure ret nd k) :=
  post_checkReply (h.setPeerInit false) h hk

theorem keepsTracked_checkQmp {env : Env} {cmds : List String} {failure : String}
    {k : Node → Colod} (h : nd.Tracked)
    (hk : ∀ texts, (nd.sentQmp texts).Tracked → KeepsTracked (k (nd.sentQmp texts))) :
    KeepsTracked (checkQmp failure (nd.sendQmpCmds env cmds) k) :=
  post_checkQmp h.sentQmp h.sentQmp fun texts => hk texts (h.sentQmp texts)

theorem colodConnectPeer_keepsTracked (h : nd.Tracked) (env : Env) (configFilePath : String) :
    KeepsTracked (colodConnectPeer env configFilePath nd) := by
  unfold colodConnectPeer
  split
  · exact h
  · split
    · exact h.setStatus _
    · exact h.setStatus _
    · rename_i cs _
      rcases Node.setRemoteClient_cases env cs.peerIp (nd.setStatus cs) with hset | hset
      · rw [hset]
        exact h.setStatus cs
      · rw [hset]
        have hsocket : ((nd.setStatus cs).withSocket cs.peerIp).Tracked :=
          (h.setStatus cs).withSocket cs.peerIp
        refine keepsTracked_remoteCall ?_ ?_
        · exact hsocket.congr rfl rfl rfl
        · intro ret nd' _ hnd'
          split
          · exact hnd'
          · split
            · exact hnd'
            · exact (hnd'.saveColoStatus _).setPeerInit true

theorem colodConnectStatus_keepsTracked (h : nd.Tracked) :
    KeepsTracked (colodConnectStatus nd) := by
  unfold colodConnectStatus
  split
  · refine keepsTracked_remoteCall h ?_
    intro ret nd' _ hnd'
    split
    · exact hnd'.setPeerInit false
    · exact hnd'
  · exact h

theorem colodDefine_keepsTracked (h : nd.Tracked) {vmFilePath : String}
    (hkeeps : Keeps nd (.define vmFilePath)) : KeepsTracked (colodDefine vmFilePath nd) := by
  unfold colodDefine
  split
  · exact h
  · exact h
  · rename_i d nd' hdefine
    obtain ⟨hidle, hpath⟩ := hkeeps d nd' hdefine
    obtain ⟨doc, -, -, rfl⟩ := Node.vmDefine_eq_ok hdefine
    have hwrite : (nd.saveNewVmFile doc d.name nd.currentStatus.hostFilePath).Tracked :=
      Node.of_saveNewVmFile_apart hpath fun _ => h.congr rfl rfl rfl
    have hidle' : ¬ (nd.saveNewVmFile doc d.name nd.currentStatus.hostFilePath).Runs d.name :=
      Node.of_saveNewVmFile_apart (P := fun nd' => ¬ nd'.Runs d.name) hpath fun _ => hidle
    dsimp only
    split
    · exact hwrite
    · rename_i save hsave
      exact (hwrite.saveDomainInfo_idle hidle' hsave).setDom_idle hidle' _

theorem colodUndefine_keepsTracked (h : nd.Tracked) {domainName : String}
    (hkeeps : Keeps nd (.undefine domainName)) :
    KeepsTracked (colodUndefine domainName nd) := by
  have htest := h.testDomainStatus domainName
  unfold colodUndefine
  dsimp only
  split
  · exact htest
  · rename_i hoff
    have hidle : ¬ (nd.testDomainStatus domainName).2.Runs domainName := by
      rw [Node.runs_testDomainStatus]
      exact hkeeps (by simpa using hoff)
    refine Node.Tracked.eraseDom_idle (htest.setSave (nodup_vmUndefine htest.names) ?_) hidle
    intro name hruns
    have hname : name ≠ domainName := fun heq => hidle (heq ▸ hruns)
    rw [find_vmUndefine, if_neg hname]

theorem colodListLoop_tracked (h : nd.Tracked) (showAll : Bool) (keys : List String)
    (retVal : String) : (colodListLoop showAll keys retVal nd).2.Tracked := by
  induction keys generalizing nd retVal with
  | nil => exact h
  | cons key keys ih =>
      unfold colodListLoop
      dsimp only
      split
      · exact ih (h.testDomainStatus key) retVal
      · exact ih (h.testDomainStatus key) _

theorem colodList_keepsTracked (h : nd.Tracked) (showAll : Bool) :
    KeepsTracked (colodList showAll nd) := by
  unfold colodList
  split
  · exact h
  · exact colodListLoop_tracked h showAll _ _

theorem startQmp_keepsTracked (h : nd.Tracked) (env : Env) (domainName : String)
    (curStatus : ColoDomainStatus) (d : Domain) :
    KeepsTracked (startQmp env domainName curStatus d nd) := by
  unfold startQmp
  dsimp only
  split
  · refine keepsTracked_remoteCall h ?_
    intro ret nd' _ hnd'
    refine keepsTracked_checkReply hnd' ?_
    refine keepsTracked_checkQmp hnd' ?_
    intro texts hsent
    exact hsent
  · refine keepsTracked_checkQmp h ?_
    intro texts hsent
    refine keepsTracked_remoteCall hsent ?_
    intro ret nd' _ hnd'
    exact keepsTracked_checkReply hnd' hnd'
  · exact h

theorem startHost_keepsTracked (h : nd.Tracked) (env : Env) {domainName : String}
    (curStatus : ColoDomainStatus) {d : Domain} (hname : d.name = domainName)
    (hidle : ¬ nd.Runs domainName) (hentry : (nd.save.find domainName).isSome) :
    KeepsTracked (startHost env domainName curStatus d nd) := by
  subst hname
  unfold startHost
  dsimp only
  split
  · rename_i hfail
    rcases nd.runNewVm_cases env d.name (coloCmd curStatus d nd.currentStatus) with
      ⟨-, heq⟩ | ⟨pid, os, hfork, heq⟩
    · rw [heq]
      exact h
    · have hpos := (ProcessTable.fork_eq_some hfork).1
      rw [heq] at hfail
      simp only at hfail
      omega
  · exact startQmp_keepsTracked (h.launch env _ .coloEnabled hidle hentry) env _ _ d

theorem colodStart_keepsTracked (h : nd.Tracked) (env : Env) {domainName : String} {colo : Bool}
    (hkeeps : Keeps nd (.start domainName colo)) :
    KeepsTracked (colodStart env domainName colo nd) := by
  have htest := h.testDomainStatus domainName
  unfold colodStart
  simp only [Node.testDomainStatus_touch]
  split
  · exact htest
  · rename_i hoff
    have hkeeps := hkeeps (by simpa using hoff)
    split
    · exact htest
    · exact htest
    · rename_i d hd
      have hentry := Node.find_of_getDomain hd
      have hlaunch : (colo = true → (nd.dom domainName).coloEnable = true) →
          ¬ (nd.testDomainStatus domainName).2.Runs domainName ∧ d.name = domainName := by
        intro hcolo
        rw [Node.runs_testDomainStatus]
        exact hkeeps hcolo d hd
      split
      · rename_i hnative
        obtain ⟨hidle, hname⟩ := hlaunch (by simp_all)
        subst hname
        exact htest.launch env _ .running hidle hentry
      · split
        · exact htest
        · rename_i hnative henabled
          obtain ⟨hidle, hname⟩ := hlaunch (by
            intro _
            simpa using henabled)
          refine keepsTracked_remoteCall htest ?_
          intro ret nd' hwait hnd'
          refine keepsTracked_checkReply hnd' ?_
          refine startHost_keepsTracked hnd' env _ hname ?_ ?_
          · exact fun hruns => hidle (hruns.of_shrinks hwait.os)
          · rwa [hwait.save]

theorem destroyHost_keepsTracked (h : nd.Tracked) (env : Env) (domainName success : String) :
    KeepsTracked (destroyHost env domainName success nd) := by
  obtain ⟨hdestroyed, hidle⟩ := h.destroyDomain env domainName
  unfold destroyHost
  dsimp only
  split
  · exact hdestroyed
  · rename_i hcode
    refine hdestroyed.setDom_idle (hidle ?_) _
    rcases nd.destroyDomain_cases env domainName with ⟨-, heq⟩ | ⟨_, _, -, -, ⟨-, heq⟩ | ⟨-, heq⟩⟩
    · simp [heq] at hcode
    · simp [heq] at hcode
    · simp [heq]

theorem colodDestroy_keepsTracked (h : nd.Tracked) (env : Env) (domainName : String) :
    KeepsTracked (colodDestroy env domainName nd) := by
  have htest := h.testDomainStatus domainName
  unfold colodDestroy
  dsimp only
  split
  · exact htest
  · split
    · exact destroyHost_keepsTracked htest env _ _
    · refine keepsTracked_remoteCall htest ?_
      intro ret nd' _ hnd'
      exact keepsTracked_checkReply hnd' (destroyHost_keepsTracked hnd' env _ _)
    · exact htest

theorem enableAnswered_keepsTracked (h : nd.Tracked) (domainName : String) (ret : ValueT) :
    KeepsTracked (enableAnswered domainName ret nd) := by
  unfold enableAnswered enableFailed
  dsimp only
  split
  · exact (h.setPeerInit false).modDom domainName fun _ => rfl
  · split
    · exact h.modDom domainName fun _ => rfl
    · split
      · exact h.modDom domainName fun _ => rfl
      · exact h.setShutOffEntry domainName (fun _ => rfl) fun _ => rfl

theorem colodColoEnable_keepsTracked (h : nd.Tracked) (env : Env) (domainName : String) :
    KeepsTracked (colodColoEnable env domainName nd) := by
  unfold colodColoEnable
  split
  · exact h
  · have hmod : (nd.modDom domainName fun ds =>
        { ds with
          coloEnable := true
          coloStatus := enabledRole nd.currentStatus.localStatus ds.coloStatus }).Tracked :=
      h.modDom domainName fun _ => rfl
    generalize nd.modDom domainName _ = nd₁ at hmod
    dsimp only
    have hcall : ∀ nd₂ : Node, nd₂.Tracked → KeepsTracked
        (nd₂.remoteCall (.peerSaveDomain (nd₂.dom domainName)) (enableAnswered domainName)) :=
      fun nd₂ h₂ => keepsTracked_remoteCall h₂ fun ret nd' _ hnd' =>
        enableAnswered_keepsTracked hnd' domainName ret
    rcases nd₁.ensureRemoteClient_cases env with hset | ⟨-, hset⟩ | ⟨-, hset⟩
    · rw [hset]
      exact hmod
    · rw [hset]
      exact hcall _ hmod
    · rw [hset]
      exact hcall _ (hmod.withSocket _)

theorem colodColoDisable_keepsTracked (h : nd.Tracked) (domainName : String) :
    KeepsTracked (colodColoDisable domainName nd) := by
  unfold colodColoDisable
  dsimp only
  split
  · exact h
  · have hsave : (nd.setSave (setDomainColoDisable domainName nd.save).2).Tracked :=
      h.setShutOffEntry domainName (fun _ => rfl) fun _ => rfl
    exact hsave.modDom domainName fun _ => rfl

theorem colodVmStatus_keepsTracked (h : nd.Tracked) (domainName : String) :
    KeepsTracked (colodVmStatus domainName nd) := by
  unfold colodVmStatus
  split
  · exact h
  · exact h
  · exact h.touch domainName

theorem colodSetParams_keepsTracked (h : nd.Tracked) (env : Env)
    (domainName property : String) (value : ℤ) :
    KeepsTracked (colodSetParams env domainName property value nd) := by
  have htouch := h.touch domainName
  unfold colodSetParams
  dsimp only
  split
  · exact htouch
  · split
    · exact htouch
    · split
      · exact htouch
      · exact keepsTracked_checkQmp htouch fun texts hsent => hsent

theorem colodDoFailover_keepsTracked (h : nd.Tracked) (env : Env) (domainName : String) :
    KeepsTracked (colodDoFailover env domainName nd) := by
  have htouch := h.touch domainName
  unfold colodDoFailover failedOver
  dsimp only
  split
  · exact htouch
  · split
    · exact htouch
    · split
      · refine keepsTracked_checkQmp (htouch.modDom domainName fun _ => rfl) ?_
        intro texts hsent
        exact hsent.modDom domainName fun _ => rfl
      · refine keepsTracked_checkQmp htouch ?_
        intro texts hsent
        exact hsent.modDom domainName fun _ => rfl
      · exact htouch

theorem peerColodConnectTest_keepsTracked (h : nd.Tracked) :
    KeepsTracked (peerColodConnectTest nd) := by
  unfold peerColodConnectTest
  split
  · refine keepsTracked_remoteCall h ?_
    intro ret nd' _ hnd'
    split
    · exact hnd'.setPeerInit false
    · exact hnd'
  · exact h

theorem peerColodSaveStatus_keepsTracked (h : nd.Tracked) (env : Env) (cs : ColoStatus) :
    KeepsTracked (peerColodSaveStatus env cs nd) := by
  have hstatus := h.setStatus (mirrorStatus cs)
  unfold peerColodSaveStatus
  dsimp only
  rcases (nd.setStatus (mirrorStatus cs)).ensureRemoteClient_cases env with
    hset | ⟨-, hset⟩ | ⟨-, hset⟩
  · rw [hset]
    exact hstatus
  · rw [hset]
    exact (hstatus.saveColoStatus _).setPeerInit true
  · rw [hset]
    exact ((hstatus.withSocket _).saveColoStatus _).setPeerInit true

theorem peerColodSaveDomain_keepsTracked (h : nd.Tracked) {ds : ColodDomainStatus}
    (hkeeps : Keeps nd (.peerSaveDomain ds)) : KeepsTracked (peerColodSaveDomain ds nd) := by
  have hidle : ¬ nd.Runs ds.name := hkeeps
  unfold peerColodSaveDomain
  dsimp only
  split
  · exact h
  · rename_i save hsave
    have hsaved : (nd.setSave save).Tracked :=
      h.saveDomainInfo_idle (by simpa using hidle) hsave
    split
    · exact hsaved
    · have hupdated : ((nd.setSave save).setSave
          (setDomainColoEnable (mirrorDomain ds).name (mirrorDomain ds).coloStatus save).2).Tracked :=
        hsaved.setShutOffEntry _ (fun _ => rfl) fun _ => rfl
      exact hupdated.setDom_idle (by simpa [Node.Runs, Node.setSave] using hidle) _

theorem peerColodStartDomain_keepsTracked (h : nd.Tracked) (env : Env) {domainName : String}
    {colo : Bool} (hkeeps : Keeps nd (.peerStartDomain domainName colo)) :
    KeepsTracked (peerColodStartDomain env domainName colo nd) := by
  have htouch := h.touch domainName
  unfold peerColodStartDomain
  dsimp only
  split
  · exact h
  · split
    · exact htouch
    · rename_i hcolo henabled
      split
      · exact htouch
      · exact htouch
      · rename_i d hd
        have hentry := Node.find_of_getDomain hd
        obtain ⟨hidle, hname⟩ := hkeeps (by simpa using hcolo)
          (by simpa [Node.dom_touch] using henabled) d hd
        subst hname
        split
        · rename_i hfail
          rcases (nd.touch d.name).runNewVm_cases env d.name
              (coloCmd ((nd.touch d.name).dom d.name).coloStatus d
                (nd.touch d.name).currentStatus) with ⟨-, heq⟩ | ⟨pid, os, hfork, heq⟩
          · rw [heq]
            exact htouch
          · have hpos := (ProcessTable.fork_eq_some hfork).1
            rw [heq] at hfail
            simp only at hfail
            omega
        · exact htouch.launch env _ .coloEnabled hidle hentry

theorem peerColodDestroyDomain_keepsTracked (h : nd.Tracked) (env : Env) (domainName : String) :
    KeepsTracked (peerColodDestroyDomain env domainName nd) := by
  have htest := h.testDomainStatus domainName
  unfold peerColodDestroyDomain
  simp only [Node.testDomainStatus_touch]
  split
  · exact h.touch domainName
  · split
    · exact htest
    · exact destroyHost_keepsTracked htest env _ _

theorem peerColodSendQmpcmds_keepsTracked (h : nd.Tracked) (env : Env) (domainName : String)
    (cds : ColoDomainStatus) : KeepsTracked (peerColodSendQmpcmds env domainName cds nd) := by
  have htest := h.testDomainStatus domainName
  unfold peerColodSendQmpcmds
  dsimp only
  split
  · exact htest
  · split
    · exact htest
    · exact htest
    · split
      · exact htest
      · exact keepsTracked_checkQmp htest fun texts hsent => hsent
      · exact htest

theorem handle_keepsTracked (h : nd.Tracked) (env : Env) {req : Request}
    (hkeeps : Keeps nd req) : KeepsTracked (handle env req nd) := by
  cases req with
  | connectPeer configFilePath => exact colodConnectPeer_keepsTracked h env configFilePath
  | connectStatus => exact colodConnectStatus_keepsTracked h
  | define vmFilePath => exact colodDefine_keepsTracked h hkeeps
  | undefine domainName => exact colodUndefine_keepsTracked h hkeeps
  | list showAll => exact colodList_keepsTracked h showAll
  | start domainName colo => exact colodStart_keepsTracked h env hkeeps
  | destroy domainName => exact colodDestroy_keepsTracked h env domainName
  | coloEnable domainName => exact colodColoEnable_keepsTracked h env domainName
  | coloDisable domainName => exact colodColoDisable_keepsTracked h domainName
  | vmStatus domainName => exact colodVmStatus_keepsTracked h domainName
  | setParams domainName property value =>
      exact colodSetParams_keepsTracked h env domainName property value
  | doFailover domainName => exact colodDoFailover_keepsTracked h env domainName
  | connectTest => exact peerColodConnectTest_keepsTracked h
  | connectReply => exact h
  | domainTest domainName => exact h.testDomainStatus domainName
  | peerSaveStatus cs => exact peerColodSaveStatus_keepsTracked h env cs
  | peerSaveDomain ds => exact peerColodSaveDomain_keepsTracked h hkeeps
  | peerStartDomain domainName colo => exact peerColodStartDomain_keepsTracked h env hkeeps
  | peerDestroyDomain domainName => exact peerColodDestroyDomain_keepsTracked h env domainName
  | peerSendQmpcmds domainName cds =>
      exact peerColodSendQmpcmds_keepsTracked h env domainName cds

end

/-! ## Whole runs -/

/-- At most one VM of each name is alive, and its pid is the one on record. -/
def SingleVm (server : Server) : Prop :=
  ∀ name, (server.node.os.alive name).length ≤ 1 ∧
    ∀ vm ∈ server.node.os.alive name,
      (server.node.save.find name).map SaveEntry.pid = some vm.pid ∧
        (server.up = true →
          (server.node.domains.lookup name).map ColodDomainStatus.pid = some vm.pid)

def EventKeeps (server : Server) : ServerEvent → Prop
  | .request req _ _ => server.up = true → Keeps server.node req
  | _ => True

theorem mem_alive {os : ProcessTable} {name : String} {vm : VmProcess} :
    vm ∈ os.alive name ↔ vm ∈ os.vms ∧ vm.running = true ∧ vm.name = name := by
  simp [ProcessTable.alive]

theorem alive_length_le_one {nd : Node} (h : nd.TrackedFile) (name : String) :
    (nd.os.alive name).length ≤ 1 := by
  have hnodup : ((nd.os.alive name).map VmProcess.pid).Nodup :=
    h.pids.sublist (List.filter_sublist.map _)
  have hpid : ∀ vm ∈ nd.os.alive name,
      (nd.save.find name).map SaveEntry.pid = some vm.pid := by
    intro vm hvm
    obtain ⟨hmem, hrun, rfl⟩ := mem_alive.mp hvm
    exact h.file vm hmem hrun
  cases hlist : nd.os.alive name with
  | nil => simp
  | cons first rest =>
      cases rest with
      | nil => simp
      | cons second rest =>
          rw [hlist] at hnodup hpid
          have heq := (hpid first (by simp)).symm.trans (hpid second (by simp))
          simp only [Option.some.injEq] at heq
          simp [heq] at hnodup

theorem singleVm_of_holds {server : Server}
    (h : server.Holds Node.Tracked Node.TrackedFile) : SingleVm server := by
  have hfile : server.node.TrackedFile := by
    unfold Server.Holds at h
    split at h
    · exact h.toTrackedFile
    · exact h
  intro name
  refine ⟨alive_length_le_one hfile name, ?_⟩
  intro vm hvm
  obtain ⟨hmem, hrun, rfl⟩ := mem_alive.mp hvm
  refine ⟨hfile.file vm hmem hrun, ?_⟩
  intro hup
  simp only [Server.Holds, hup, if_true] at h
  exact h.memory vm hmem hrun

theorem holds_step_tracked {server : Server} {event : ServerEvent}
    (h : server.Holds Node.Tracked Node.TrackedFile) (hkeeps : EventKeeps server event) :
    (server.step event).Holds Node.Tracked Node.TrackedFile := by
  have hwrite : ∀ (nd : Node) path doc, path ≠ defaultSaveFile →
      (nd.writeFile path doc).save = nd.save ∧ (nd.writeFile path doc).os = nd.os ∧
        (nd.writeFile path doc).domains = nd.domains := by
    intro nd path doc hpath
    simp [Node.writeFile, hpath]
  refine Server.holds_step (fun _ hnd => hnd.toTrackedFile) (fun _ hnd => hnd.rsInit)
    ?_ ?_ ?_ h
  · intro nd events
    have hos := ProcessTable.shrinks_after nd.os events
    exact ⟨fun hnd => hnd.transfer hos hnd.names (fun _ _ => rfl) fun _ _ _ hpid => hpid,
      fun hnd => hnd.transfer hos hnd.names fun _ _ => rfl⟩
  · intro nd path doc hpath
    obtain ⟨hsave, hos, hdomains⟩ := hwrite nd path doc hpath
    refine ⟨fun hnd => hnd.congr hdomains hsave hos, fun hnd => ?_⟩
    exact hnd.transfer (by rw [hos]; exact .refl _) (by rw [hsave]; exact hnd.names)
      fun _ _ => by rw [hsave]
  · intro req env script heq hup hnd
    subst heq
    exact (handle_keepsTracked hnd env (hkeeps hup)).mono
      (fun _ _ hnd => hnd.toTrackedFile) (fun _ _ hnd => hnd) fun _ hnd => hnd.toTrackedFile

/-- From a save file without domains on a machine without VMs, a run whose
requests all leave the running domains alone never has two VMs of one name, and
never loses the pid of one. -/
theorem singleVm_of_keeps {nd : Node} (hsave : nd.save.names = []) (hvms : nd.os.vms = [])
    {events : List ServerEvent} (hrun : Along Server.step EventKeeps (Server.boot nd) events) :
    Always Server.step SingleVm (Server.boot nd) events := by
  have hinit : (Server.boot nd).Holds Node.Tracked Node.TrackedFile := by
    have hfile : nd.TrackedFile := by
      constructor <;> simp [hvms, hsave]
    exact hfile.rsInit
  exact (always_of_along (fun _ _ => holds_step_tracked) hinit hrun).mono
    fun _ => singleVm_of_holds

/-- Start a domain and define it again while it runs. -/
def redefineRunning : List ServerEvent :=
  [.request (.define "/root/d.yaml") (.smooth 100) [],
    .request (.start "d" false) (.smooth 100) [],
    .request (.define "/root/d.yaml") (.smooth 100) []]

theorem not_singleVm_redefine :
    ¬ Always Server.step SingleVm (Server.boot .fresh) redefineRunning := by
  intro h
  have hpid := ((h.last "d").2 ⟨100, "d", true⟩ (by decide +kernel)).1
  exact absurd hpid (by decide +kernel)

theorem singleVm_define_start :
    Always Server.step SingleVm (Server.boot .fresh) (redefineRunning.take 2) := by
  have hidle : ∀ {nd : Node} {name : String}, nd.os.vms = [] → ¬ nd.Runs name := by
    rintro nd name hvms ⟨vm, hvm, -⟩
    simp [hvms] at hvm
  refine singleVm_of_keeps rfl rfl ⟨?_, ?_, trivial⟩
  · intro _ d nd' h
    have hload : Node.fresh.rsInit.loadFile "/root/d.yaml" = some (sampleDefinition "d") := rfl
    obtain rfl : sampleDomain "d" = d := Node.domain_of_vmDefine_sample hload h
    exact ⟨hidle rfl, by decide⟩
  · intro _ _ _ d h
    have hstored : (((Server.boot .fresh).step (.request (.define "/root/d.yaml")
        (.smooth 100) [])).node.testDomainStatus "d").2.getDomain "d" =
          .ok (sampleDomain "d") := by
      decide +kernel
    obtain rfl : sampleDomain "d" = d := Except.ok.inj (hstored.symm.trans h)
    exact ⟨hidle (by decide +kernel), rfl⟩

end ColoManage
