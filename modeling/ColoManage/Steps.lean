import ColoManage.Service

/-!
# What the steps of a handler do

One lemma for each step that has branches: `test_domain_status`,
`get_domain`, `vm_define`, `run_new_vm`, `destroy_domain` and `send_qmp_cmds`.
-/

namespace ColoManage

open Resumption

/-- The process is there for both signals of a `destroy_domain`. -/
def Survives (env : Env) (os : ProcessTable) (pid : ℤ) : Prop :=
  (os.after env.beforeProbe).kill0 pid = true ∧
    ((os.after env.beforeProbe).after env.beforeKill).kill0 pid = true

instance (env : Env) (os : ProcessTable) (pid : ℤ) : Decidable (Survives env os pid) :=
  inferInstanceAs (Decidable (_ ∧ _))

theorem take_toList_eq_iff (cmd : String) (count : ℕ) :
    String.ofList (cmd.toList.take count) = cmd ↔ cmd.length ≤ count := by
  rw [← String.length_toList]
  constructor
  · intro h
    have htake := congrArg String.toList h
    rw [String.toList_ofList] at htake
    exact (List.take_eq_self_iff cmd.toList).mp htake
  · intro h
    rw [List.take_of_length_le h, String.ofList_toList]

namespace Node

/-! ## Testing a domain -/

theorem dom_setDom (name other : String) (ds : ColodDomainStatus) (nd : Node) :
    (nd.setDom name ds).dom other = if other = name then ds else nd.dom other := by
  unfold dom
  rw [lookup_setDom]
  split <;> rfl

theorem touch_of_mem {domainName : String} {nd : Node} (h : domainName ∈ nd.domains) :
    nd.touch domainName = nd := by
  simp [touch, h]

@[simp] theorem touch_touch (domainName : String) (nd : Node) :
    (nd.touch domainName).touch domainName = nd.touch domainName := by
  apply touch_of_mem
  rw [← AList.lookup_isSome, lookup_touch]
  simp

@[simp] theorem testDomainStatus_touch (domainName : String) (nd : Node) :
    (nd.touch domainName).testDomainStatus domainName = nd.testDomainStatus domainName := by
  simp only [testDomainStatus, touch_touch]

/-- The state `test_domain_status` leaves when it finds the process dead. -/
def swept (domainName : String) (nd : Node) : Node :=
  ((nd.touch domainName).modDom domainName fun ds => { ds with status := .shutOff }).setSave
    (removeDomainPid domainName nd.save).2

def FoundDead (domainName : String) (nd : Node) : Prop :=
  (nd.dom domainName).pid ≠ -1 ∧ nd.os.kill0 (nd.dom domainName).pid = false

instance (domainName : String) (nd : Node) : Decidable (nd.FoundDead domainName) :=
  inferInstanceAs (Decidable (_ ∧ _))

theorem testDomainStatus_of_dead {domainName : String} {nd : Node}
    (h : nd.FoundDead domainName) :
    nd.testDomainStatus domainName = (.shutOff, nd.swept domainName) := by
  simp [testDomainStatus, swept, h.1, show (nd.touch domainName).os = nd.os from rfl, h.2,
    show ((nd.touch domainName).modDom domainName fun ds =>
      { ds with status := .shutOff }).save = nd.save from rfl]

theorem testDomainStatus_of_not_dead {domainName : String} {nd : Node}
    (h : ¬ nd.FoundDead domainName) :
    nd.testDomainStatus domainName =
      (if (nd.dom domainName).pid = -1 then .shutOff else (nd.dom domainName).status,
        nd.touch domainName) := by
  by_cases hpid : (nd.dom domainName).pid = -1
  · simp [testDomainStatus, hpid]
  · have halive : nd.os.kill0 (nd.dom domainName).pid = true := by
      by_contra hkill
      exact h ⟨hpid, by simpa using hkill⟩
    simp [testDomainStatus, hpid, show (nd.touch domainName).os = nd.os from rfl, halive]

/-- A domain that does not test as shut off has a record and a live process. -/
theorem known_of_not_shutOff {domainName : String} {nd : Node}
    (h : (nd.testDomainStatus domainName).1 ≠ .shutOff) :
    domainName ∈ nd.domains ∧ ¬ nd.FoundDead domainName := by
  have hdead : ¬ nd.FoundDead domainName := by
    intro hdead
    rw [testDomainStatus_of_dead hdead] at h
    exact h rfl
  refine ⟨?_, hdead⟩
  by_contra hmem
  have hdom : nd.dom domainName = default := by
    rw [dom, AList.lookup_eq_none.mpr hmem]
    rfl
  rw [testDomainStatus_of_not_dead hdead, hdom] at h
  exact h rfl

theorem pid_of_not_shutOff {domainName : String} {nd : Node}
    (h : (nd.testDomainStatus domainName).1 ≠ .shutOff) : (nd.dom domainName).pid ≠ -1 := by
  obtain ⟨-, hdead⟩ := known_of_not_shutOff h
  rw [testDomainStatus_of_not_dead hdead] at h
  intro hpid
  exact h (if_pos hpid)

theorem alive_of_not_shutOff {domainName : String} {nd : Node}
    (h : (nd.testDomainStatus domainName).1 ≠ .shutOff) :
    nd.os.kill0 (nd.dom domainName).pid = true := by
  by_contra hgone
  exact (known_of_not_shutOff h).2 ⟨pid_of_not_shutOff h, by simpa using hgone⟩

/-- Such a domain tests as its status. -/
theorem status_of_not_shutOff {domainName : String} {nd : Node}
    (h : (nd.testDomainStatus domainName).1 ≠ .shutOff) :
    (nd.testDomainStatus domainName).1 = (nd.dom domainName).status := by
  obtain ⟨-, hdead⟩ := known_of_not_shutOff h
  rw [testDomainStatus_of_not_dead hdead]
  exact if_neg (pid_of_not_shutOff h)

theorem testDomainStatus_node (domainName : String) (nd : Node) :
    (nd.testDomainStatus domainName).2 =
      if nd.FoundDead domainName then nd.swept domainName else nd.touch domainName := by
  by_cases h : nd.FoundDead domainName
  · rw [testDomainStatus_of_dead h, if_pos h]
  · rw [testDomainStatus_of_not_dead h, if_neg h]

@[simp] theorem testDomainStatus_os (domainName : String) (nd : Node) :
    (nd.testDomainStatus domainName).2.os = nd.os := by
  rw [testDomainStatus_node]
  split <;> rfl

@[simp] theorem testDomainStatus_files (domainName : String) (nd : Node) :
    (nd.testDomainStatus domainName).2.files = nd.files := by
  rw [testDomainStatus_node]
  split <;> rfl

@[simp] theorem testDomainStatus_paths (domainName : String) (nd : Node) :
    (nd.testDomainStatus domainName).2.paths = nd.paths := by
  rw [testDomainStatus_node]
  split <;> rfl

@[simp] theorem testDomainStatus_currentStatus (domainName : String) (nd : Node) :
    (nd.testDomainStatus domainName).2.currentStatus = nd.currentStatus := by
  rw [testDomainStatus_node]
  split <;> rfl

@[simp] theorem testDomainStatus_remoteClient (domainName : String) (nd : Node) :
    (nd.testDomainStatus domainName).2.remoteClient = nd.remoteClient := by
  rw [testDomainStatus_node]
  split <;> rfl

theorem usable_testDomainStatus {nd : Node} (husable : nd.remoteClient.usable = true)
    (domainName : String) :
    (nd.testDomainStatus domainName).2.remoteClient.usable = true := by
  rw [testDomainStatus_remoteClient]
  exact husable

@[simp] theorem testDomainStatus_log (domainName : String) (nd : Node) :
    (nd.testDomainStatus domainName).2.log = nd.log := by
  rw [testDomainStatus_node]
  split <;> rfl

theorem lookup_testDomainStatus (domainName other : String) (nd : Node) :
    (nd.testDomainStatus domainName).2.domains.lookup other =
      if other = domainName then
        some (if nd.FoundDead domainName then { nd.dom domainName with status := .shutOff }
          else nd.dom domainName)
      else nd.domains.lookup other := by
  rw [testDomainStatus_node]
  by_cases hdead : nd.FoundDead domainName
  · rw [if_pos hdead, if_pos hdead]
    by_cases hother : other = domainName
    · simp [swept, setSave, hother]
    · simp [swept, setSave, hother]
  · rw [if_neg hdead, if_neg hdead, lookup_touch]

theorem dom_testDomainStatus (domainName : String) (nd : Node) :
    (nd.testDomainStatus domainName).2.dom domainName =
      if nd.FoundDead domainName then { nd.dom domainName with status := .shutOff }
      else nd.dom domainName := by
  conv_lhs => unfold dom
  rw [lookup_testDomainStatus]
  simp

@[simp] theorem coloEnable_testDomainStatus (domainName : String) (nd : Node) :
    ((nd.testDomainStatus domainName).2.dom domainName).coloEnable =
      (nd.dom domainName).coloEnable := by
  rw [dom_testDomainStatus]
  split <;> rfl

@[simp] theorem coloStatus_testDomainStatus (domainName : String) (nd : Node) :
    ((nd.testDomainStatus domainName).2.dom domainName).coloStatus =
      (nd.dom domainName).coloStatus := by
  rw [dom_testDomainStatus]
  split <;> rfl

theorem find_testDomainStatus (domainName other : String) (nd : Node) :
    (nd.testDomainStatus domainName).2.save.find other =
      if other = domainName ∧ nd.FoundDead domainName then
        (nd.save.find domainName).map fun entry =>
          { entry with pid := -1, status := "shutoff" }
      else nd.save.find other := by
  rw [testDomainStatus_node]
  by_cases hdead : nd.FoundDead domainName
  · rw [if_pos hdead]
    show (removeDomainPid domainName nd.save).2.find other = _
    rw [find_removeDomainPid]
    simp [hdead]
  · rw [if_neg hdead]
    simp [hdead, touch]

@[simp] theorem names_testDomainStatus (domainName : String) (nd : Node) :
    (nd.testDomainStatus domainName).2.save.names = nd.save.names := by
  rw [testDomainStatus_node]
  split
  · exact names_removeDomainPid domainName nd.save
  · rfl

theorem loadFile_of_resolve {nd : Node} {path file : String}
    (hfile : nd.paths.resolve path = some file) (hapart : file ≠ defaultSaveFile) :
    nd.loadFile path = nd.files file := by
  simp only [loadFile, hfile, if_neg hapart]

theorem saveNewVmFile_of_resolve {nd : Node} {doc : Yaml.Node} {name savePath file : String}
    (hfile : nd.paths.resolve (savePath ++ name ++ ".yaml") = some file) :
    nd.saveNewVmFile doc name savePath = nd.writeFile file doc := by
  simp only [saveNewVmFile, hfile]

theorem saveNewVmFile_of_not_resolve {nd : Node} {doc : Yaml.Node} {name savePath : String}
    (hfile : nd.paths.resolve (savePath ++ name ++ ".yaml") = none) :
    nd.saveNewVmFile doc name savePath = nd := by
  simp only [saveNewVmFile, hfile]

/-- What holds of a node and of every write to the file of the path holds of what
`save_new_vm_file` leaves. -/
theorem of_saveNewVmFile {P : Node → Prop} {doc : Yaml.Node} {name savePath : String} {nd : Node}
    (hstay : P nd)
    (hwrite : ∀ file, nd.paths.resolve (savePath ++ name ++ ".yaml") = some file →
      P (nd.writeFile file doc)) : P (nd.saveNewVmFile doc name savePath) := by
  unfold saveNewVmFile
  cases hfile : nd.paths.resolve (savePath ++ name ++ ".yaml") with
  | none => exact hstay
  | some file => exact hwrite file hfile

theorem of_saveNewVmFile_apart {P : Node → Prop} {doc : Yaml.Node} {name : String} {nd : Node}
    (hapart : nd.definitionFile name ≠ some defaultSaveFile)
    (hfiles : ∀ files, P { nd with files }) :
    P (nd.saveNewVmFile doc name nd.currentStatus.hostFilePath) := by
  refine of_saveNewVmFile (hfiles nd.files) ?_
  intro file hfile
  rw [writeFile, if_neg fun hsave => hapart (hfile.trans (congrArg some hsave))]
  exact hfiles _

@[simp] theorem paths_writeFile (file : String) (doc : Yaml.Node) (nd : Node) :
    (nd.writeFile file doc).paths = nd.paths := by
  unfold writeFile
  split <;> rfl

theorem vmDefine_eq_ok {vmDefFilepath savePath : String} {nd nd' : Node} {d : Domain}
    (h : nd.vmDefine vmDefFilepath savePath = .ok (d, nd')) :
    ∃ doc, nd.loadFile vmDefFilepath = some doc ∧ vmConfigParse doc = .ok d ∧
      nd' = nd.saveNewVmFile doc d.name savePath := by
  simp only [vmDefine, bind_eq_ok] at h
  obtain ⟨doc, hload, name, hname, h⟩ := h
  have hload' : nd.loadFile vmDefFilepath = some doc := by
    unfold loadDoc at hload
    cases hfile : nd.loadFile vmDefFilepath with
    | none => simp [hfile] at hload
    | some found => simpa [hfile] using hload
  by_cases hsave : name = "save"
  · simp [hsave, throw, throwThe, MonadExceptOf.throw] at h
  · simp only [hsave, if_false, bind_eq_ok, pure, Except.pure, Except.ok.injEq,
      Prod.mk.injEq] at h
    obtain ⟨parsed, hparse, rfl, rfl⟩ := h
    have heq := hname.symm.trans (vmConfigParse_name hparse "cannot parse vm name.")
    simp only [Except.ok.injEq] at heq
    exact ⟨doc, hload', hparse, by rw [heq]⟩

theorem domain_of_vmDefine_sample {vmDefFilepath savePath name : String} {nd nd' : Node}
    {d : Domain} (hload : nd.loadFile vmDefFilepath = some (sampleDefinition name))
    (h : nd.vmDefine vmDefFilepath savePath = .ok (d, nd')) : sampleDomain name = d := by
  obtain ⟨doc, hdoc, hparse, -⟩ := vmDefine_eq_ok h
  rw [hload, Option.some.injEq] at hdoc
  subst hdoc
  exact Except.ok.inj ((vmConfigParse_sample name).symm.trans hparse)

theorem find_of_getDomainLoop {load : String → Option Yaml.Node} {domainName : String}
    {entries : List SaveEntry} {d : Domain}
    (h : getDomainLoop load domainName entries none = .ok d) :
    (KeyedList.find SaveEntry.name domainName entries).isSome := by
  induction entries with
  | nil => simp [getDomainLoop] at h
  | cons entry entries ih =>
      rw [KeyedList.find_cons]
      by_cases hname : entry.name = domainName
      · simp [hname]
      · simp only [getDomainLoop, hname, if_false] at h
        simpa [hname] using ih h

theorem find_of_getDomain {domainName : String} {nd : Node} {d : Domain}
    (h : nd.getDomain domainName = .ok d) : (nd.save.find domainName).isSome :=
  find_of_getDomainLoop h

def launched (domainName : String) (cmd : ShellCommand) (pid : ℤ) (os : ProcessTable)
    (nd : Node) : Node :=
  ({ nd with os }.record (.launch domainName cmd pid)).setSave
    (saveDomainPid domainName pid nd.save)

theorem runNewVm_cases (env : Env) (domainName : String) (cmd : ShellCommand) (nd : Node) :
    (nd.os.fork env.fork domainName = none ∧ nd.runNewVm env domainName cmd = (-1, nd)) ∨
      ∃ pid os, nd.os.fork env.fork domainName = some (pid, os) ∧
        nd.runNewVm env domainName cmd = (pid, nd.launched domainName cmd pid os) := by
  cases hfork : nd.os.fork env.fork domainName with
  | none => exact .inl ⟨rfl, by simp [runNewVm, hfork]⟩
  | some forked =>
      obtain ⟨pid, os⟩ := forked
      exact .inr ⟨pid, os, rfl, by simp [runNewVm, hfork, launched, record, setSave]⟩

theorem find_of_getDomainPid {domainName : String} {sf : SaveFile} {pid : ℤ}
    (h : getDomainPid domainName sf = some pid) :
    pid ≠ -1 ∧ (sf.find domainName).map SaveEntry.pid = some pid := by
  unfold getDomainPid at h
  cases hfind : sf.find domainName with
  | none => simp [hfind] at h
  | some entry =>
      by_cases hpid : entry.pid = -1
      · simp [hfind, hpid] at h
      · simp only [hfind, hpid, if_false, Option.some.injEq] at h
        subst h
        exact ⟨hpid, rfl⟩

theorem getDomainPid_eq_some_iff {domainName : String} {sf : SaveFile} {pid : ℤ} :
    getDomainPid domainName sf = some pid ↔
      pid ≠ -1 ∧ ∃ entry, sf.find domainName = some entry ∧ entry.pid = pid := by
  constructor
  · intro h
    obtain ⟨hne, hpid⟩ := find_of_getDomainPid h
    exact ⟨hne, Option.map_eq_some_iff.mp hpid⟩
  · rintro ⟨hne, entry, hfind, rfl⟩
    simp [getDomainPid, hfind, hne]

/-- `destroy_domain` finds no pid, or clears it in the file and then, some of the
machine's moves later, either finds its process gone or kills it. -/
theorem destroyDomain_events (env : Env) (domainName : String) (nd : Node) :
    (getDomainPid domainName nd.save = none ∧
        nd.destroyDomain env domainName = (-1, nd)) ∨
      ∃ pid events, getDomainPid domainName nd.save = some pid ∧
        (∀ event ∈ events, event ∈ env.beforeProbe ++ env.beforeKill) ∧
        (((nd.os.after events).kill0 pid = false ∧ nd.destroyDomain env domainName =
            (-1, { nd with
              save := (removeDomainPid domainName nd.save).2
              os := nd.os.after events })) ∨
          ((nd.os.after events).kill0 pid = true ∧ nd.destroyDomain env domainName =
            (0, { nd with
              save := (removeDomainPid domainName nd.save).2
              os := (nd.os.after events).sigkill pid
              log := nd.log ++ [.kill pid] }))) := by
  cases hpid : getDomainPid domainName nd.save with
  | none => exact .inl ⟨rfl, by simp [destroyDomain, hpid]⟩
  | some pid =>
      obtain ⟨entry, hentry, -⟩ := Option.map_eq_some_iff.mp (find_of_getDomainPid hpid).2
      have hcode := removeDomainPid_code hentry
      have hboth : nd.os.after (env.beforeProbe ++ env.beforeKill) =
          (nd.os.after env.beforeProbe).after env.beforeKill := List.foldl_append
      by_cases h₁ : (nd.os.after env.beforeProbe).kill0 pid = true
      · refine .inr ⟨pid, env.beforeProbe ++ env.beforeKill, rfl, fun _ hevent => hevent, ?_⟩
        rw [hboth]
        by_cases h₂ : ((nd.os.after env.beforeProbe).after env.beforeKill).kill0 pid = true
        · exact .inr ⟨h₂, by
            simp [destroyDomain, hpid, hcode, osAfter, setSave, record, h₁, h₂]⟩
        · exact .inl ⟨by simpa using h₂, by
            simp [destroyDomain, hpid, hcode, osAfter, setSave, h₁, h₂]⟩
      · refine .inr ⟨pid, env.beforeProbe, rfl, fun _ hevent => List.mem_append_left _ hevent, ?_⟩
        exact .inl ⟨by simpa using h₁, by
          simp [destroyDomain, hpid, hcode, osAfter, setSave, h₁]⟩

theorem destroyDomain_cases (env : Env) (domainName : String) (nd : Node) :
    (getDomainPid domainName nd.save = none ∧
        nd.destroyDomain env domainName = (-1, nd)) ∨
      ∃ pid os, getDomainPid domainName nd.save = some pid ∧ nd.os.Shrinks os ∧
        ((os.kill0 pid = false ∧ nd.destroyDomain env domainName =
            (-1, { nd with save := (removeDomainPid domainName nd.save).2, os })) ∨
          (os.kill0 pid = true ∧ nd.destroyDomain env domainName =
            (0, { nd with
              save := (removeDomainPid domainName nd.save).2
              os := os.sigkill pid
              log := nd.log ++ [.kill pid] }))) := by
  rcases nd.destroyDomain_events env domainName with hnone | ⟨pid, events, hpid, -, hcase⟩
  · exact .inl hnone
  · exact .inr ⟨pid, nd.os.after events, hpid, ProcessTable.shrinks_after nd.os events, hcase⟩

theorem destroyDomain_of_survives {env : Env} {domainName : String} {nd : Node} {pid : ℤ}
    (hpid : getDomainPid domainName nd.save = some pid)
    (hprobe : (nd.os.after env.beforeProbe).kill0 pid = true)
    (hkill : ((nd.os.after env.beforeProbe).after env.beforeKill).kill0 pid = true) :
    nd.destroyDomain env domainName =
      (0, { nd with
        save := (removeDomainPid domainName nd.save).2
        os := ((nd.os.after env.beforeProbe).after env.beforeKill).sigkill pid
        log := nd.log ++ [.kill pid] }) := by
  obtain ⟨entry, hentry, -⟩ := Option.map_eq_some_iff.mp (find_of_getDomainPid hpid).2
  simp [destroyDomain, hpid, removeDomainPid_code hentry, osAfter, setSave, record, hprobe, hkill]

/-- The log shows a signal to the pid that was not there before. -/
def Killed (nd nd' : Node) (pid : ℤ) : Prop :=
  ∃ more, nd'.log = nd.log ++ more ∧ .kill pid ∈ more

theorem not_killed_of_log_eq {nd nd' : Node} (h : nd'.log = nd.log) (pid : ℤ) :
    ¬ nd.Killed nd' pid := by
  rintro ⟨more, hlog, hmem⟩
  rw [h, List.self_eq_append_right] at hlog
  simp [hlog] at hmem

theorem killed_destroyDomain_iff (env : Env) (domainName : String) (nd : Node) (pid : ℤ) :
    nd.Killed (nd.destroyDomain env domainName).2 pid ↔
      getDomainPid domainName nd.save = some pid ∧ Survives env nd.os pid := by
  cases hpid : getDomainPid domainName nd.save with
  | none =>
      have heq : nd.destroyDomain env domainName = (-1, nd) := by simp [destroyDomain, hpid]
      rw [heq]
      exact iff_of_false (not_killed_of_log_eq rfl pid) (by simp)
  | some recorded =>
      obtain ⟨entry, hentry, -⟩ := Option.map_eq_some_iff.mp (find_of_getDomainPid hpid).2
      have hcode := removeDomainPid_code hentry
      by_cases hsurvives : Survives env nd.os recorded
      · rw [destroyDomain_of_survives hpid hsurvives.1 hsurvives.2, Option.some.injEq]
        constructor
        · rintro ⟨more, hlog, hmem⟩
          obtain rfl := (List.append_cancel_left hlog).symm
          simp only [List.mem_singleton, Effect.kill.injEq] at hmem
          subst hmem
          exact ⟨rfl, hsurvives⟩
        · rintro ⟨rfl, -⟩
          exact ⟨_, rfl, by simp⟩
      · have hlog : (nd.destroyDomain env domainName).2.log = nd.log := by
          unfold Survives at hsurvives
          by_cases hprobe : (nd.os.after env.beforeProbe).kill0 recorded = true
          · have hgone : ((nd.os.after env.beforeProbe).after env.beforeKill).kill0 recorded =
                false := by simpa [hprobe] using hsurvives
            simp [destroyDomain, hpid, hcode, osAfter, setSave, hprobe, hgone]
          · simp [destroyDomain, hpid, hcode, osAfter, setSave, hprobe]
        refine iff_of_false (not_killed_of_log_eq hlog pid) ?_
        rintro ⟨hsame, halive⟩
        rw [Option.some.injEq] at hsame
        exact hsurvives (hsame ▸ halive)

theorem killed_destroyHost_iff (env : Env) (domainName success : String) (nd : Node)
    (script : List (List OsEvent × Option ValueT)) (pid : ℤ) :
    nd.Killed ((destroyHost env domainName success nd).follow osAfter script).state pid ↔
      getDomainPid domainName nd.save = some pid ∧ Survives env nd.os pid := by
  rw [← killed_destroyDomain_iff]
  unfold destroyHost
  dsimp only
  split
  · exact Iff.rfl
  · exact Iff.rfl

/-! ## The client -/

theorem setRemoteClient_cases (env : Env) (ip : String) (nd : Node) :
    nd.setRemoteClient env ip = .error nd ∨
      nd.setRemoteClient env ip = .ok (nd.withSocket ip) := by
  unfold setRemoteClient
  split
  · exact .inr rfl
  · exact .inl rfl

theorem ensureRemoteClient_cases (env : Env) (nd : Node) :
    nd.ensureRemoteClient env = .error nd ∨
      (nd.remoteClientInit = true ∧ nd.ensureRemoteClient env = .ok nd) ∨
      (nd.remoteClientInit = false ∧
        nd.ensureRemoteClient env = .ok (nd.withSocket nd.currentStatus.peerIp)) := by
  unfold ensureRemoteClient
  cases hinit : nd.remoteClientInit with
  | true => exact .inr (.inl ⟨rfl, rfl⟩)
  | false =>
      rcases setRemoteClient_cases env nd.currentStatus.peerIp nd with h | h
      · exact .inl (by simpa using h)
      · exact .inr (.inr ⟨rfl, by simpa using h⟩)

def called (request : Request) (nd : Node) : Node := (nd.issue request).setAwaiting true

theorem setAwaiting_of_awaiting {nd : Node} {socket : ReqSocket}
    (hsocket : nd.remoteClient.socket = some socket) (hawaiting : socket.awaiting = true) :
    nd.setAwaiting true = nd := by
  have hmap : (nd.remoteClient.socket.map fun socket => { socket with awaiting := true }) =
      nd.remoteClient.socket := by
    rw [hsocket, Option.map_some, ← hawaiting]
  unfold setAwaiting
  rw [hmap]

theorem remoteCall_of_usable {request : Request} {nd : Node} {k : ValueT → Node → Colod}
    (h : nd.remoteClient.usable = true) :
    nd.remoteCall request k =
      .await ⟨request, nd.remoteClient.sends⟩ (nd.called request) (received k) := by
  unfold Buttonrpc.usable Buttonrpc.sends at h
  cases hsocket : nd.remoteClient.socket with
  | none => simp [hsocket] at h
  | some socket =>
      by_cases hcode : nd.remoteClient.errorCode = .recvTimeout
      · have hawaiting : socket.awaiting = true := by simpa [hsocket, hcode] using h
        have hissue : (nd.issue request).remoteClient.socket = some socket := hsocket
        simp [remoteCall, hsocket, hcode, hawaiting, called, Buttonrpc.sends,
          setAwaiting_of_awaiting hissue hawaiting]
      · have hawaiting : socket.awaiting = false := by simpa [hsocket, hcode] using h
        simp [remoteCall, hsocket, hcode, hawaiting, called, Buttonrpc.sends]

theorem remoteCall_of_not_usable {request : Request} {nd : Node} {k : ValueT → Node → Colod}
    (h : nd.remoteClient.usable = false) :
    nd.remoteCall request k = .crash (nd.issue request) := by
  unfold Buttonrpc.usable Buttonrpc.sends at h
  cases hsocket : nd.remoteClient.socket with
  | none => simp [remoteCall, hsocket]
  | some socket =>
      by_cases hcode : nd.remoteClient.errorCode = .recvTimeout
      · have hawaiting : socket.awaiting = false := by simpa [hsocket, hcode] using h
        simp [remoteCall, hsocket, hcode, hawaiting]
      · have hawaiting : socket.awaiting = true := by simpa [hsocket, hcode] using h
        simp [remoteCall, hsocket, hcode, hawaiting]

/-! ## QMP -/

/-- The texts sent to the QMP port are all that `send_qmp_cmds` changes. -/
def sentQmp (texts : List String) (nd : Node) : Node :=
  { nd with log := nd.log ++ texts.map (.qmp qmpPort) }

/-- How a QMP exchange ends: colod dies, the sender returns `-1`, or `0`. -/
inductive QmpEnd
  | died
  | failed
  | complete
  deriving DecidableEq, Repr

def QmpEnd.result : QmpEnd → Node → Except Node (ℤ × Node)
  | .died, nd => .error nd
  | .failed, nd => .ok (-1, nd)
  | .complete, nd => .ok (0, nd)

/-- The end of an exchange of `count` commands from number `i` on. -/
def qmpEnd (exchange : ℕ → QmpSend × QmpRecv) : ℕ → ℕ → QmpEnd
  | _, 0 => .complete
  | i, count + 1 =>
      match exchange i with
      | (.error, _) => .failed
      | (.broken, _) => .died
      | (.sent _, .error) => .died
      | (.sent _, .data _) => qmpEnd exchange (i + 1) count

def qmpTexts (exchange : ℕ → QmpSend × QmpRecv) : ℕ → List String → List String
  | _, [] => []
  | i, cmd :: cmds =>
      match exchange i with
      | (.error, _) => []
      | (.broken, _) => []
      | (.sent count, .error) => [String.ofList (cmd.toList.take count)]
      | (.sent count, .data _) =>
          String.ofList (cmd.toList.take count) :: qmpTexts exchange (i + 1) cmds

theorem sendQmpLoop_eq (exchange : ℕ → QmpSend × QmpRecv) (i : ℕ) (cmds : List String)
    (nd : Node) :
    sendQmpLoop exchange i cmds nd =
      (qmpEnd exchange i cmds.length).result (nd.sentQmp (qmpTexts exchange i cmds)) := by
  induction cmds generalizing i nd with
  | nil => simp [sendQmpLoop, qmpEnd, qmpTexts, QmpEnd.result, sentQmp]
  | cons cmd cmds ih =>
      cases hexchange : exchange i with
      | mk send recv =>
          cases send with
          | error => simp [sendQmpLoop, qmpEnd, qmpTexts, hexchange, QmpEnd.result, sentQmp]
          | broken => simp [sendQmpLoop, qmpEnd, qmpTexts, hexchange, QmpEnd.result, sentQmp]
          | sent count =>
              cases recv with
              | error =>
                  simp [sendQmpLoop, qmpEnd, qmpTexts, hexchange, QmpEnd.result, sentQmp,
                    record]
              | data reply =>
                  have happend : ∀ text texts, (nd.record (.qmp qmpPort text)).sentQmp texts =
                      nd.sentQmp (text :: texts) := by
                    intro text texts
                    simp [sentQmp, record]
                  simp [sendQmpLoop, qmpEnd, qmpTexts, hexchange, ih, happend]

/-- The end and the texts of a whole exchange, the connection included. -/
def qmpScriptEnd (script : QmpScript) (count : ℕ) : QmpEnd :=
  if script.connects then
    match script.greeting with
    | .error => .died
    | .data _ => qmpEnd script.exchange 0 count
  else .failed

def qmpScriptTexts (script : QmpScript) (cmds : List String) : List String :=
  if script.connects then
    match script.greeting with
    | .error => []
    | .data _ => qmpTexts script.exchange 0 cmds
  else []

theorem sendQmpCmds_eq (env : Env) (cmds : List String) (nd : Node) :
    nd.sendQmpCmds env cmds =
      (qmpScriptEnd env.qmp cmds.length).result
        (nd.sentQmp (qmpScriptTexts env.qmp cmds)) := by
  unfold sendQmpCmds qmpScriptEnd qmpScriptTexts
  by_cases hconnects : env.qmp.connects = true
  · cases hgreeting : env.qmp.greeting with
    | error => simp [hconnects, QmpEnd.result, sentQmp]
    | data text => simp [hconnects, sendQmpLoop_eq]
  · simp [hconnects, QmpEnd.result, sentQmp]

end Node

def NoLaunch (nd nd' : Node) : Prop :=
  ∃ more, nd'.log = nd.log ++ more ∧ ∀ name cmd pid, Effect.launch name cmd pid ∉ more

theorem noLaunch_of_log_eq {nd nd' : Node} (hlog : nd'.log = nd.log) : NoLaunch nd nd' :=
  ⟨[], by simp [hlog], by simp⟩

theorem NoLaunch.refl (nd : Node) : NoLaunch nd nd := noLaunch_of_log_eq rfl

theorem NoLaunch.trans {nd₁ nd₂ nd₃ : Node} (h₁ : NoLaunch nd₁ nd₂) (h₂ : NoLaunch nd₂ nd₃) :
    NoLaunch nd₁ nd₃ := by
  obtain ⟨more₁, hlog₁, hnone₁⟩ := h₁
  obtain ⟨more₂, hlog₂, hnone₂⟩ := h₂
  refine ⟨more₁ ++ more₂, ?_, ?_⟩
  · rw [hlog₂, hlog₁, List.append_assoc]
  · intro name cmd pid hmem
    rcases List.mem_append.mp hmem with hmem | hmem
    · exact hnone₁ name cmd pid hmem
    · exact hnone₂ name cmd pid hmem

theorem not_vmConfigParse_saveFile (sf : SaveFile) (d : Domain) :
    vmConfigParse sf.toYaml ≠ .ok d := by
  intro h
  obtain ⟨value, hsub, -⟩ := requireString_eq_ok.mp (vmConfigParse_name h "")
  simp [SaveFile.toYaml, Yaml.Node.sub, List.lookup_cons] at hsub

theorem getDomainLoop_congr {load load' : String → Option Yaml.Node} {domainName : String}
    {d : Domain}
    (hload : ∀ path doc d, load path = some doc → vmConfigParse doc = .ok d →
      load' path = some doc)
    {entries entries' : List SaveEntry}
    (hentries : entries'.map (fun entry => (entry.name, entry.path)) =
      entries.map fun entry => (entry.name, entry.path))
    {found : Option Domain} (h : getDomainLoop load domainName entries found = .ok d) :
    getDomainLoop load' domainName entries' found = .ok d := by
  induction entries generalizing entries' found with
  | nil =>
      rw [List.map_nil, List.map_eq_nil_iff] at hentries
      subst hentries
      cases found with
      | none => simp [getDomainLoop] at h
      | some parsed => exact h
  | cons entry entries ih =>
      cases entries' with
      | nil => simp at hentries
      | cons entry' entries' =>
          simp only [List.map_cons, List.cons.injEq, Prod.mk.injEq] at hentries
          obtain ⟨⟨hname, hpath⟩, htail⟩ := hentries
          simp only [getDomainLoop, hname, hpath] at h ⊢
          by_cases hmatch : entry.name = domainName
          · simp only [hmatch, if_true] at h ⊢
            cases hfile : load entry.path with
            | none => simp [hfile] at h
            | some doc =>
                cases hparse : vmConfigParse doc with
                | error stop => simp [hfile, hparse] at h
                | ok parsed =>
                    simp only [hfile, hparse] at h
                    simp only [hload _ _ _ hfile hparse, hparse]
                    exact ih htail h
          · simp only [hmatch, if_false] at h ⊢
            exact ih htail h

/-- Two nodes with the same files and the same names and paths on record load
the same definition. -/
theorem getDomain_congr {nd nd' : Node} {domainName : String} {d : Domain}
    (hresolve : nd'.paths = nd.paths) (hfiles : nd'.files = nd.files)
    (hentries : nd'.save.domains.entries.map (fun entry => (entry.name, entry.path)) =
      nd.save.domains.entries.map fun entry => (entry.name, entry.path))
    (h : nd.getDomain domainName = .ok d) : nd'.getDomain domainName = .ok d := by
  refine getDomainLoop_congr ?_ hentries h
  intro path doc parsed hfile hparse
  rw [Node.loadFile, hresolve, hfiles]
  unfold Node.loadFile at hfile
  cases hpath : nd.paths.resolve path with
  | none => simp [hpath] at hfile
  | some file =>
      by_cases hsave : file = defaultSaveFile
      · simp only [hpath, hsave, if_true, Option.some.injEq] at hfile
        subst hfile
        exact absurd hparse (not_vmConfigParse_saveFile nd.save parsed)
      · simpa [hpath, hsave] using hfile

theorem entries_updateEntry_paths {f : SaveEntry → SaveEntry}
    (hf : ∀ entry, (f entry).name = entry.name ∧ (f entry).path = entry.path)
    (name : String) (sf : SaveFile) :
    (SaveFile.updateEntry name f sf).domains.entries.map
        (fun entry => (entry.name, entry.path)) =
      sf.domains.entries.map fun entry => (entry.name, entry.path) := by
  rw [entries_updateEntry]
  induction sf.domains.entries with
  | nil => rfl
  | cons entry entries ih =>
      by_cases hname : entry.name = name
      · simp [KeyedList.updateFirst, hname, (hf entry).1, (hf entry).2]
      · simp [KeyedList.updateFirst, hname, ih]

/-- The test of a domain does not change which definition it has. -/
theorem getDomain_testDomainStatus (domainName : String) (nd : Node) (d : Domain) :
    (nd.testDomainStatus domainName).2.getDomain domainName = .ok d ↔
      nd.getDomain domainName = .ok d := by
  have hentries : (nd.testDomainStatus domainName).2.save.domains.entries.map
        (fun entry => (entry.name, entry.path)) =
      nd.save.domains.entries.map fun entry => (entry.name, entry.path) := by
    rw [Node.testDomainStatus_node]
    split
    · show (removeDomainPid domainName nd.save).2.domains.entries.map _ = _
      unfold removeDomainPid
      split
      · rfl
      · exact entries_updateEntry_paths (by intro entry; exact ⟨rfl, rfl⟩) domainName nd.save
    · rfl
  have hpaths := Node.testDomainStatus_paths domainName nd
  have hfiles := Node.testDomainStatus_files domainName nd
  exact ⟨getDomain_congr hpaths.symm hfiles.symm hentries.symm,
    getDomain_congr hpaths hfiles hentries⟩

theorem getDomain_ne_ok_of_error {domainName : String} {nd : Node} {stop : ParseStop}
    (h : (nd.testDomainStatus domainName).2.getDomain domainName = .error stop) (d : Domain) :
    nd.getDomain domainName ≠ .ok d := by
  intro hget
  rw [(getDomain_testDomainStatus domainName nd d).mpr hget] at h
  cases h

/-! ## Rules for the tails of the handlers -/

section

variable {G : Query → Node → Prop} {D : ColodRetVal → Node → Prop} {C : Node → Prop}

theorem post_checkReply {failure : String} {ret : ValueT} {nd : Node} {k : Node → Colod}
    (hfailure : D ⟨-1, failure⟩ (nd.setPeerInit false)) (hrefused : D ⟨-1, ret.val.msg⟩ nd)
    (hk : (k nd).Post Node.Meanwhile G D C) :
    (checkReply failure ret nd k).Post Node.Meanwhile G D C := by
  unfold checkReply
  split
  · exact hfailure
  · split
    · exact hrefused
    · exact hk

theorem checkQmp_eq (failure : String) (env : Env) (cmds : List String) (nd : Node)
    (k : Node → Colod) :
    checkQmp failure (nd.sendQmpCmds env cmds) k =
      let sent := nd.sentQmp (Node.qmpScriptTexts env.qmp cmds)
      match Node.qmpScriptEnd env.qmp cmds.length with
      | .died => .crash sent
      | .failed => .done ⟨-1, failure⟩ sent
      | .complete => k sent := by
  rw [Node.sendQmpCmds_eq]
  cases Node.qmpScriptEnd env.qmp cmds.length <;> rfl

theorem post_checkQmp {env : Env} {cmds : List String} {failure : String} {nd : Node}
    {k : Node → Colod} (hcrash : ∀ texts, C (nd.sentQmp texts))
    (hfailure : ∀ texts, D ⟨-1, failure⟩ (nd.sentQmp texts))
    (hk : ∀ texts, (k (nd.sentQmp texts)).Post Node.Meanwhile G D C) :
    (checkQmp failure (nd.sendQmpCmds env cmds) k).Post Node.Meanwhile G D C := by
  rw [Node.sendQmpCmds_eq]
  cases Node.qmpScriptEnd env.qmp cmds.length with
  | died => exact hcrash _
  | failed => exact hfailure _
  | complete => exact hk _

end

/-- The peer has run the function and reports no failure. -/
def accepted : Option ValueT → Bool
  | some reply => decide (reply.code = .success ∧ 0 ≤ reply.val.code)
  | none => false

def Node.replied (nd : Node) : Node := (nd.setErrorCode .success).setAwaiting false

theorem usable_socket {client : Buttonrpc} (h : client.usable = true) :
    client.socket.isSome = true := by
  unfold Buttonrpc.usable at h
  cases hsocket : client.socket with
  | none => simp [hsocket] at h
  | some socket => rfl

theorem usable_replied {nd : Node} (h : nd.remoteClient.socket.isSome = true) :
    nd.replied.remoteClient.usable = true := by
  obtain ⟨socket, hsocket⟩ := Option.isSome_iff_exists.mp h
  simp [Node.replied, Node.setAwaiting, Node.setErrorCode, Buttonrpc.usable, Buttonrpc.sends,
    hsocket]

theorem usable_answered {nd : Node} (h : nd.remoteClient.usable = true) (request : Request)
    (events : List OsEvent) :
    ((nd.called request).osAfter events).replied.remoteClient.usable = true := by
  apply usable_replied
  obtain ⟨socket, hsocket⟩ := Option.isSome_iff_exists.mp (usable_socket h)
  simp [Node.osAfter, Node.called, Node.issue, Node.record, Node.setAwaiting, hsocket]

/-- Two nodes that differ in the client and the flags around it only. -/
structure SameTables (nd nd' : Node) : Prop where
  domains : nd'.domains = nd.domains
  save : nd'.save = nd.save
  paths : nd'.paths = nd.paths
  files : nd'.files = nd.files
  os : nd'.os = nd.os
  log : nd'.log = nd.log
  currentStatus : nd'.currentStatus = nd.currentStatus

theorem received_checkReply_accepted {answer : Option ValueT} (h : accepted answer = true)
    (failure : String) (k : Node → Colod) (nd : Node) :
    Node.received (fun ret nd => checkReply failure ret nd k) answer nd = k nd.replied := by
  cases answer with
  | none => simp [accepted] at h
  | some reply =>
      simp only [accepted, decide_eq_true_eq] at h
      simp [Node.received, checkReply, h.1, Int.not_lt.mpr h.2, Node.replied]

theorem received_checkReply_refused {answer : Option ValueT} (h : accepted answer = false)
    (failure : String) (k : Node → Colod) (nd : Node) :
    ∃ msg nd', Node.received (fun ret nd => checkReply failure ret nd k) answer nd =
      .done ⟨-1, msg⟩ nd' ∧ SameTables nd nd' := by
  cases answer with
  | none =>
      exact ⟨failure, (nd.setErrorCode .recvTimeout).setPeerInit false,
        by simp [Node.received, checkReply, ValueT.timeout], ⟨rfl, rfl, rfl, rfl, rfl, rfl, rfl⟩⟩
  | some reply =>
      by_cases hcode : reply.code = .success
      · have hneg : reply.val.code < 0 := by simpa [accepted, hcode] using h
        exact ⟨reply.val.msg, nd.replied,
          by simp [Node.received, checkReply, hcode, hneg, Node.replied],
          ⟨rfl, rfl, rfl, rfl, rfl, rfl, rfl⟩⟩
      · exact ⟨failure, nd.replied.setPeerInit false,
          by simp [Node.received, checkReply, hcode, Node.replied],
          ⟨rfl, rfl, rfl, rfl, rfl, rfl, rfl⟩⟩

section

variable {ω : Type} {serve : Query → Node → ω → Option ValueT × Node × ω} {request : Request}
  {nd : Node} {w : ω}

theorem exec_of_usable (h : nd.remoteClient.usable = true) (k : ValueT → Node → Colod) :
    (nd.remoteCall request k).exec serve w =
      (Node.received k (serve ⟨request, nd.remoteClient.sends⟩ (nd.called request) w).1
        (serve ⟨request, nd.remoteClient.sends⟩ (nd.called request) w).2.1).exec serve
          (serve ⟨request, nd.remoteClient.sends⟩ (nd.called request) w).2.2 := by
  rw [Node.remoteCall_of_usable h, Act.exec_await]

theorem exec_of_not_usable (h : nd.remoteClient.usable = false) (k : ValueT → Node → Colod) :
    (nd.remoteCall request k).exec serve w = (.crashed (nd.issue request), w) := by
  rw [Node.remoteCall_of_not_usable h, Act.exec_crash]

theorem exec_checkReply_accepted {answer : Option ValueT × Node × ω}
    (h : nd.remoteClient.usable = true)
    (hserve : serve ⟨request, nd.remoteClient.sends⟩ (nd.called request) w = answer)
    (haccepted : accepted answer.1 = true) (failure : String) (k : Node → Colod) :
    (nd.remoteCall request fun ret nd => checkReply failure ret nd k).exec serve w =
      (k answer.2.1.replied).exec serve answer.2.2 := by
  rw [exec_of_usable h, hserve, received_checkReply_accepted haccepted]

theorem exec_checkReply_refused {answer : Option ValueT × Node × ω}
    (h : nd.remoteClient.usable = true)
    (hserve : serve ⟨request, nd.remoteClient.sends⟩ (nd.called request) w = answer)
    (haccepted : accepted answer.1 = false) (failure : String) (k : Node → Colod) :
    ∃ msg nd', (nd.remoteCall request fun ret nd => checkReply failure ret nd k).exec serve w =
        (.returned ⟨-1, msg⟩ nd', answer.2.2) ∧ SameTables answer.2.1 nd' := by
  obtain ⟨msg, nd', heq, hsame⟩ := received_checkReply_refused haccepted failure k answer.2.1
  exact ⟨msg, nd', by rw [exec_of_usable h, hserve, heq, Act.exec_done], hsame⟩

end

end ColoManage
