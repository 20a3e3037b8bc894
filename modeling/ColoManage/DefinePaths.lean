import ColoManage.ConnectPeer
import ColoManage.SaveTable
import ColoManage.Server
import ColoManage.Steps

/-!
# Where a definition is stored

The path that `save_new_vm_file` writes is `host_file_path` followed by the name
and `.yaml`, with nothing between them.  Two pairs of a prefix and a name can
make one path, and a pair can make the path of the save file.
-/

namespace ColoManage

open EventSystem Resumption

/-! ## Runs of connect-peer, define and undefine -/

/-- `edit` is somebody else who writes a file; colod's own are left alone. -/
inductive DefineEvent
  | connectPeer (configFilePath : String) (env : Env) (script : Script)
  | define (vmFilePath : String) (env : Env)
  | undefine (domainName : String) (env : Env)
  | restart
  | edit (file : String) (doc : Yaml.Node)

/-- The handler returns a code that is not negative. -/
def succeeds : Colod → Bool
  | .done ret _ => decide (0 ≤ ret.code)
  | _ => false

/-- A server and, for each defined domain, the `host_file_path` and the domain
of its last successful define. -/
structure Registry where
  server : Server
  defined : String → Option (String × Domain)

namespace Registry

/-- colod starts on a machine on which nothing has been defined. -/
def start (nd : Node) : Registry := ⟨Server.boot { nd with save := .empty }, fun _ => none⟩

/-- What a define of the file stores, and under which prefix. -/
def accepted (r : Registry) (vmFilePath : String) : Option (String × Domain) :=
  let savePath := r.server.node.currentStatus.hostFilePath
  if r.server.up then
    (r.server.node.vmDefine vmFilePath savePath).toOption.map fun parsed => (savePath, parsed.1)
  else none

def step (r : Registry) : DefineEvent → Registry
  | .connectPeer configFilePath env script =>
      ⟨r.server.step (.request (.connectPeer configFilePath) env script), r.defined⟩
  | .define vmFilePath env =>
      let server := r.server.step (.request (.define vmFilePath) env [])
      match r.accepted vmFilePath with
      | some (savePath, d) =>
          if succeeds (colodDefine vmFilePath r.server.node) then
            ⟨server, Function.update r.defined d.name (some (savePath, d))⟩
          else ⟨server, r.defined⟩
      | none => ⟨server, r.defined⟩
  | .undefine domainName env =>
      let server := r.server.step (.request (.undefine domainName) env [])
      if r.server.up && succeeds (colodUndefine domainName r.server.node) then
        ⟨server, Function.update r.defined domainName none⟩
      else ⟨server, r.defined⟩
  | .restart => ⟨r.server.step .restart, r.defined⟩
  | .edit file doc =>
      if r.server.node.save.domains.entries.any fun entry =>
          decide (r.server.node.paths.resolve entry.path = some file) then r
      else ⟨r.server.step (.writeFile file doc), r.defined⟩

/-! ## The property -/

/-- A define writes to no file, or to one that neither is the save file nor has its path
on record for another domain. -/
def WritesApart (r : Registry) : DefineEvent → Prop
  | .define vmFilePath _ => ∀ savePath d, r.accepted vmFilePath = some (savePath, d) →
      ∀ file, r.server.node.paths.resolve (savePath ++ d.name ++ ".yaml") = some file →
        file ≠ defaultSaveFile ∧
          ∀ entry ∈ r.server.node.save.domains.entries, entry.name ≠ d.name →
            r.server.node.paths.resolve entry.path ≠ some file
  | _ => True

/-- Every defined domain is read back as it was defined last. -/
def ReadsBack (r : Registry) : Prop :=
  ∀ name savePath d, r.defined name = some (savePath, d) →
    r.server.node.getDomain name = .ok d

/-- Prefix and name of a define together name a file that can be written, and neither the
save file nor that of another defined domain. -/
def KeysApart (r : Registry) : DefineEvent → Prop
  | .define vmFilePath _ => ∀ savePath d, r.accepted vmFilePath = some (savePath, d) →
      ∃ file, r.server.node.paths.resolve (savePath ++ d.name ++ ".yaml") = some file ∧
        file ≠ defaultSaveFile ∧
          ∀ other otherPath d', r.defined other = some (otherPath, d') → other ≠ d.name →
            r.server.node.paths.resolve (otherPath ++ other ++ ".yaml") ≠ some file
  | _ => True

end Registry

/-! ## What is on record -/

def Node.recordedPath (name : String) (nd : Node) : Option String :=
  (nd.save.find name).map SaveEntry.path

/-- The save file lists the defined domains, each with the path of its own file. -/
structure Stored (defined : String → Option (String × Domain)) (nd : Node) : Prop where
  list : nd.save.domains ≠ .other
  nodup : nd.save.names.Nodup
  absent : ∀ name, defined name = none → nd.recordedPath name = none
  path : ∀ name savePath d, defined name = some (savePath, d) →
    nd.recordedPath name = some (savePath ++ name ++ ".yaml")
  file : ∀ name savePath d, defined name = some (savePath, d) →
    ∃ file doc, nd.paths.resolve (savePath ++ name ++ ".yaml") = some file ∧
      file ≠ defaultSaveFile ∧ nd.files file = some doc ∧ vmConfigParse doc = .ok d

/-- With distinct names the loop reads the one file of the name. -/
theorem getDomainLoop_of_find {load : String → Option Yaml.Node} {name : String}
    {entries : List SaveEntry} {entry : SaveEntry} {doc : Yaml.Node} {d : Domain}
    (hnodup : (entries.map SaveEntry.name).Nodup)
    (hfind : KeyedList.find SaveEntry.name name entries = some entry)
    (hload : load entry.path = some doc) (hparse : vmConfigParse doc = .ok d) :
    getDomainLoop load name entries none = .ok d := by
  induction entries with
  | nil => simp at hfind
  | cons first entries ih =>
      rw [List.map_cons, List.nodup_cons] at hnodup
      rw [KeyedList.find_cons] at hfind
      by_cases hname : first.name = name
      · rw [if_pos hname, Option.some.injEq] at hfind
        subst hfind
        simp only [getDomainLoop, hname, if_true, hload, hparse]
        exact getDomainLoop_of_not_mem load (hname ▸ hnodup.1) (some d)
      · rw [if_neg hname] at hfind
        simp only [getDomainLoop, hname, if_false]
        exact ih hnodup.2 hfind

theorem getDomainLoop_of_not_load {load : String → Option Yaml.Node} {name : String}
    {entries : List SaveEntry} {entry : SaveEntry} {found : Option Domain}
    (hfind : KeyedList.find SaveEntry.name name entries = some entry)
    (hload : load entry.path = none) :
    getDomainLoop load name entries found = .error (.thrown .badFile) := by
  induction entries with
  | nil => simp at hfind
  | cons first entries ih =>
      rw [KeyedList.find_cons] at hfind
      by_cases hname : first.name = name
      · rw [if_pos hname, Option.some.injEq] at hfind
        subst hfind
        simp only [getDomainLoop, hname, if_true, hload]
      · rw [if_neg hname] at hfind
        simp only [getDomainLoop, hname, if_false]
        exact ih hfind

section

variable {defined : String → Option (String × Domain)} {nd nd' : Node}

theorem find_of_recordedPath {name path : String} (h : nd.recordedPath name = some path) :
    ∃ entry, nd.save.find name = some entry ∧ entry.path = path :=
  Option.map_eq_some_iff.mp h

theorem Stored.getDomain (h : Stored defined nd) {name savePath : String} {d : Domain}
    (hdefined : defined name = some (savePath, d)) : nd.getDomain name = .ok d := by
  obtain ⟨entry, hfind, hpath⟩ := find_of_recordedPath (h.path name savePath d hdefined)
  obtain ⟨file, doc, hfile, hdefault, hdoc, hparse⟩ := h.file name savePath d hdefined
  have hload : nd.loadFile entry.path = some doc := by
    rw [hpath, Node.loadFile_of_resolve hfile hdefault, hdoc]
  exact getDomainLoop_of_find h.nodup hfind hload hparse

/-- Names and paths are all that is looked at. -/
theorem Stored.same (h : Stored defined nd) (hlist : nd'.save.domains ≠ .other)
    (hnames : nd'.save.names = nd.save.names)
    (hrecorded : ∀ name, nd'.recordedPath name = nd.recordedPath name)
    (hpaths : nd'.paths = nd.paths) (hfiles : nd'.files = nd.files) : Stored defined nd' where
  list := hlist
  nodup := by
    rw [hnames]
    exact h.nodup
  absent := by
    intro name hname
    rw [hrecorded]
    exact h.absent name hname
  path := by
    intro name savePath d hname
    rw [hrecorded]
    exact h.path name savePath d hname
  file := by
    rw [hpaths, hfiles]
    exact h.file

theorem Stored.congr (h : Stored defined nd) (hdomains : nd'.save.domains = nd.save.domains)
    (hpaths : nd'.paths = nd.paths) (hfiles : nd'.files = nd.files) : Stored defined nd' := by
  have hnames : nd'.save.names = nd.save.names := by simp [SaveFile.names, hdomains]
  have hrecorded : ∀ name, nd'.recordedPath name = nd.recordedPath name := by
    intro name
    simp [Node.recordedPath, SaveFile.find, hdomains]
  exact h.same (hdomains ▸ h.list) hnames hrecorded hpaths hfiles

theorem recordedPath_removeDomainPid (domainName name : String) (sf : SaveFile) :
    ((removeDomainPid domainName sf).2.find name).map SaveEntry.path =
      (sf.find name).map SaveEntry.path := by
  rw [find_removeDomainPid]
  split
  · rename_i hname
    rw [hname, Option.map_map]
    rfl
  · rfl

theorem Stored.testDomainStatus (h : Stored defined nd) (domainName : String) :
    Stored defined (nd.testDomainStatus domainName).2 := by
  rw [Node.testDomainStatus_node]
  split
  · refine h.same ?_ (names_removeDomainPid domainName nd.save)
      (fun name => recordedPath_removeDomainPid domainName name nd.save) rfl rfl
    exact write_ne_other h.list (.domain (.removeDomainPid domainName))
  · exact h.congr rfl rfl rfl

/-! ## One event -/

theorem Stored.connectPeer (h : Stored defined nd) (env : Env) (configFilePath : String)
    (script : Script) :
    Stored defined ((colodConnectPeer env configFilePath nd).follow Node.osAfter script).state := by
  have hwait : ∀ events nd, Node.Meanwhile nd (nd.osAfter events) := fun events _ => ⟨events, rfl⟩
  apply Act.state_follow_of_post hwait
  have hanswered : ∀ ret nd', Stored defined nd' →
      (connectAnswered ret nd').Post Node.Meanwhile (fun _ => Stored defined)
        (fun _ => Stored defined) (Stored defined) := by
    intro ret nd' hnd'
    unfold connectAnswered
    split
    · exact hnd'
    · split
      · exact hnd'
      · exact hnd'.congr rfl rfl rfl
  rw [colodConnectPeer_eq]
  split
  · exact h
  · rename_i config _
    have hconfigured : Stored defined (nd.configured config) := h.congr rfl rfl rfl
    have hconnecting : Stored defined (nd.connecting config) := h.congr rfl rfl rfl
    have hwaited : ∀ {request nd'}, Node.Waited request (nd.connecting config) nd' →
        Stored defined nd' := fun hwait =>
      hconnecting.congr (congrArg SaveFile.domains hwait.save) hwait.paths hwait.files
    split
    · exact hconfigured
    · exact hconfigured
    · split
      · exact Node.post_remoteCall (fun _ => hwaited) (fun _ _ => hwaited)
          fun ret nd' hwait => hanswered ret nd' (hwaited hwait)
      · exact hconfigured

theorem Stored.undefine (h : Stored defined nd) (domainName : String) :
    Stored (Function.update defined domainName none)
      ((nd.setSave (vmUndefine domainName nd.save)).eraseDom domainName) := by
  have hold : ∀ {name found}, Function.update defined domainName none name = some found →
      name ≠ domainName ∧ defined name = some found := by
    intro name found hname
    by_cases heq : name = domainName
    · rw [heq, Function.update_self] at hname
      nomatch hname
    · rw [Function.update_of_ne heq] at hname
      exact ⟨heq, hname⟩
  have hpath : ∀ name, ((nd.setSave (vmUndefine domainName nd.save)).eraseDom
      domainName).recordedPath name = if name = domainName then none else nd.recordedPath name := by
    intro name
    show ((vmUndefine domainName nd.save).find name).map _ = _
    rw [find_vmUndefine]
    split <;> rfl
  refine ⟨write_ne_other h.list (.domain (.vmUndefine domainName)), nodup_vmUndefine h.nodup,
    ?_, ?_, ?_⟩
  · intro name hname
    rw [hpath]
    split
    · rfl
    · rename_i hne
      rw [Function.update_of_ne hne] at hname
      exact h.absent name hname
  · intro name savePath d hname
    rw [hpath, if_neg (hold hname).1]
    exact h.path name savePath d (hold hname).2
  · intro name savePath d hname
    exact h.file name savePath d (hold hname).2

theorem Stored.define (h : Stored defined nd) {savePath file : String} {d : Domain}
    {doc : Yaml.Node} {ds : ColodDomainStatus} {save : SaveFile}
    (hparse : vmConfigParse doc = .ok d) (hname : ds.name = d.name)
    (hpath : ds.configFilePath = savePath ++ d.name ++ ".yaml")
    (hsave : saveDomainInfo ds nd.save = .ok save)
    (hfile : nd.paths.resolve (savePath ++ d.name ++ ".yaml") = some file)
    (hdefault : file ≠ defaultSaveFile)
    (hothers : ∀ other otherPath d', defined other = some (otherPath, d') → other ≠ d.name →
      nd.paths.resolve (otherPath ++ other ++ ".yaml") ≠ some file) :
    Stored (Function.update defined d.name (some (savePath, d)))
      (((nd.writeFile file doc).setSave save).setDom d.name ds) := by
  have hwrite : nd.writeFile file doc =
      { nd with files := fun other => if other = file then some doc else nd.files other } := by
    rw [Node.writeFile, if_neg hdefault]
  rw [hwrite]
  have hpaths : ∀ name, Option.map SaveEntry.path (save.find name) =
      if name = d.name then some (savePath ++ d.name ++ ".yaml") else nd.recordedPath name := by
    intro name
    rw [find_saveDomainInfo hsave, hname]
    split
    · exact congrArg some hpath
    · rfl
  have hlist : save.domains ≠ .other := saveDomainInfo_ne_other hsave
  have hnodup : save.names.Nodup := nodup_saveDomainInfo hsave h.nodup
  refine ⟨hlist, hnodup, ?_, ?_, ?_⟩
  · intro name hnone
    refine (hpaths name).trans ?_
    by_cases heq : name = d.name
    · rw [heq, Function.update_self] at hnone
      cases hnone
    · rw [Function.update_of_ne heq] at hnone
      rw [if_neg heq]
      exact h.absent name hnone
  · intro name otherPath d' hdefined
    refine (hpaths name).trans ?_
    by_cases heq : name = d.name
    · rw [heq, Function.update_self, Option.some.injEq, Prod.mk.injEq] at hdefined
      rw [if_pos heq, heq, hdefined.1]
    · rw [Function.update_of_ne heq] at hdefined
      rw [if_neg heq]
      exact h.path name otherPath d' hdefined
  · intro name otherPath d' hdefined
    by_cases heq : name = d.name
    · rw [heq, Function.update_self, Option.some.injEq, Prod.mk.injEq] at hdefined
      obtain ⟨rfl, rfl⟩ := hdefined
      exact ⟨file, doc, by rw [heq]; exact hfile, hdefault, if_pos rfl, hparse⟩
    · rw [Function.update_of_ne heq] at hdefined
      obtain ⟨found, old, hfound, hapart, hdoc, hold⟩ := h.file name otherPath d' hdefined
      have hother : found ≠ file := by
        rintro rfl
        exact hothers name otherPath d' hdefined heq hfound
      exact ⟨found, old, hfound, hapart, (if_neg hother).trans hdoc, hold⟩

/-- An accepted define that does not write the save file succeeds. -/
theorem colodDefine_of_accepted (h : Stored defined nd) {vmFilePath : String} {d : Domain}
    {nd' : Node} (hdefine : nd.vmDefine vmFilePath nd.currentStatus.hostFilePath = .ok (d, nd'))
    (hapart : nd.definitionFile d.name ≠ some defaultSaveFile) :
    ∃ doc ds save, vmConfigParse doc = .ok d ∧ ds.name = d.name ∧
      ds.configFilePath = nd.currentStatus.hostFilePath ++ d.name ++ ".yaml" ∧
      saveDomainInfo ds nd.save = .ok save ∧
      colodDefine vmFilePath nd = .done ⟨0, "define domain : " ++ ds.name ++ " success."⟩
        (((nd.saveNewVmFile doc d.name nd.currentStatus.hostFilePath).setSave
          save).setDom d.name ds) := by
  obtain ⟨doc, -, hparse, rfl⟩ := Node.vmDefine_eq_ok hdefine
  have hkept : (nd.saveNewVmFile doc d.name nd.currentStatus.hostFilePath).save = nd.save ∧
      (nd.saveNewVmFile doc d.name nd.currentStatus.hostFilePath).currentStatus =
        nd.currentStatus :=
    Node.of_saveNewVmFile_apart
      (P := fun nd' => nd'.save = nd.save ∧ nd'.currentStatus = nd.currentStatus) hapart
      fun _ => ⟨rfl, rfl⟩
  let ds : ColodDomainStatus := ⟨-1, d.name, .shutOff, false, .none,
    nd.currentStatus.hostFilePath ++ d.name ++ ".yaml"⟩
  rcases saveDomainInfo_cases ds nd.save with ⟨hother, -⟩ | ⟨-, save, hsave⟩
  · exact absurd hother h.list
  · refine ⟨doc, ds, save, hparse, rfl, rfl, hsave, ?_⟩
    unfold colodDefine
    rw [hdefine]
    dsimp only
    rw [hkept.1, hkept.2, hsave]

end

namespace Registry

variable {r : Registry}

def Sound (r : Registry) : Prop := Stored r.defined r.server.node

theorem accepted_eq_some_iff {vmFilePath savePath : String} {d : Domain} :
    r.accepted vmFilePath = some (savePath, d) ↔ r.server.up = true ∧
      savePath = r.server.node.currentStatus.hostFilePath ∧
        ∃ nd', r.server.node.vmDefine vmFilePath savePath = .ok (d, nd') := by
  unfold accepted
  dsimp only
  cases hup : r.server.up with
  | false => simp
  | true =>
      simp only [if_true, true_and]
      constructor
      · intro h
        obtain ⟨⟨d', nd'⟩, hparsed, heq⟩ := Option.map_eq_some_iff.mp h
        obtain ⟨rfl, rfl⟩ := Prod.mk.inj heq
        cases hdefine : r.server.node.vmDefine vmFilePath
            r.server.node.currentStatus.hostFilePath with
        | error stop => simp [hdefine, Except.toOption] at hparsed
        | ok parsed =>
            simp only [hdefine, Except.toOption, Option.some.injEq] at hparsed
            exact ⟨rfl, nd', by rw [hparsed]⟩
      · rintro ⟨rfl, nd', hdefine⟩
        rw [hdefine]
        rfl

/-- A define that stores nothing changes nothing. -/
theorem node_step_define_of_none {vmFilePath : String} (haccepted : r.accepted vmFilePath = none)
    (env : Env) (script : Script) :
    (r.server.step (.request (.define vmFilePath) env script)).node = r.server.node := by
  rw [Server.node_step_request]
  cases hup : r.server.up with
  | false => rfl
  | true =>
      simp only [if_true, handle]
      unfold colodDefine
      cases hdefine : r.server.node.vmDefine vmFilePath
          r.server.node.currentStatus.hostFilePath with
      | error stop => cases stop <;> rfl
      | ok parsed =>
          have hsome := accepted_eq_some_iff.mpr ⟨hup, rfl, parsed.2, hdefine⟩
          rw [haccepted] at hsome
          nomatch hsome

/-- An accepted define that does not write the save file puts the domain on record. -/
theorem Sound.step_define (h : r.Sound) {vmFilePath savePath : String} {d : Domain}
    (haccepted : r.accepted vmFilePath = some (savePath, d))
    (hapart : r.server.node.paths.resolve (savePath ++ d.name ++ ".yaml") ≠ some defaultSaveFile)
    (env : Env) :
    ∃ doc ds save, vmConfigParse doc = .ok d ∧ ds.name = d.name ∧
      ds.configFilePath = savePath ++ d.name ++ ".yaml" ∧
      saveDomainInfo ds r.server.node.save = .ok save ∧
      (r.step (.define vmFilePath env)).defined =
        Function.update r.defined d.name (some (savePath, d)) ∧
      (r.step (.define vmFilePath env)).server.node =
        ((r.server.node.saveNewVmFile doc d.name savePath).setSave save).setDom d.name ds := by
  obtain ⟨hup, rfl, nd', hdefine⟩ := accepted_eq_some_iff.mp haccepted
  obtain ⟨doc, ds, save, hparse, hname, hpath, hsaved, hdone⟩ :=
    colodDefine_of_accepted h hdefine hapart
  have hsucceeds : succeeds (colodDefine vmFilePath r.server.node) = true := by
    rw [hdone]
    rfl
  refine ⟨doc, ds, save, hparse, hname, hpath, hsaved, ?_, ?_⟩
  · simp only [Registry.step, haccepted, hsucceeds, if_true]
  · simp only [Registry.step, haccepted, hsucceeds, if_true]
    simp only [Server.node_step_request, hup, if_true, handle, hdone]
    rfl

theorem Sound.define (h : r.Sound) {vmFilePath : String} {env : Env}
    (hkeys : r.KeysApart (.define vmFilePath env)) :
    (r.step (.define vmFilePath env)).Sound := by
  cases haccepted : r.accepted vmFilePath with
  | none =>
      unfold Sound at *
      simp only [Registry.step, haccepted]
      rw [node_step_define_of_none haccepted]
      exact h
  | some key =>
      obtain ⟨savePath, d⟩ := key
      obtain ⟨file, hfile, hdefault, hothers⟩ := hkeys savePath d haccepted
      have hapart : r.server.node.paths.resolve (savePath ++ d.name ++ ".yaml") ≠
          some defaultSaveFile := by
        rw [hfile]
        exact fun heq => hdefault (Option.some.inj heq)
      obtain ⟨doc, ds, save, hparse, hname, hpath, hsaved, hdefined, hnode⟩ :=
        h.step_define haccepted hapart env
      unfold Sound
      rw [hdefined, hnode, Node.saveNewVmFile_of_resolve hfile]
      exact Stored.define h hparse hname hpath hsaved hfile hdefault hothers

/-- A definition whose path names no file is not read back. -/
theorem Sound.exists_file (h : r.Sound) {vmFilePath savePath : String} {d : Domain} {env : Env}
    (haccepted : r.accepted vmFilePath = some (savePath, d))
    (hreads : (r.step (.define vmFilePath env)).ReadsBack) :
    ∃ file, r.server.node.paths.resolve (savePath ++ d.name ++ ".yaml") = some file := by
  cases hfile : r.server.node.paths.resolve (savePath ++ d.name ++ ".yaml") with
  | some file => exact ⟨file, rfl⟩
  | none =>
      obtain ⟨doc, ds, save, -, hname, hpath, hsaved, hdefined, hnode⟩ :=
        h.step_define haccepted (by simp [hfile]) env
      have hget := hreads d.name savePath d (by rw [hdefined, Function.update_self])
      rw [hnode, Node.saveNewVmFile_of_not_resolve hfile] at hget
      have hfind : save.find d.name = some (savedEntry ds) := by
        rw [find_saveDomainInfo hsaved, if_pos hname.symm]
      have hload : ((r.server.node.setSave save).setDom d.name ds).loadFile
          (savedEntry ds).path = none := by
        have hresolve : ((r.server.node.setSave save).setDom d.name ds).paths.resolve
            (savedEntry ds).path = none := (congrArg r.server.node.paths.resolve hpath).trans hfile
        simp only [Node.loadFile, hresolve]
      have hbad : ((r.server.node.setSave save).setDom d.name ds).getDomain d.name =
          .error (.thrown .badFile) := getDomainLoop_of_not_load hfind hload
      rw [hbad] at hget
      cases hget

theorem Sound.undefine (h : r.Sound) (domainName : String) (env : Env) :
    (r.step (.undefine domainName env)).Sound := by
  have htest : Stored r.defined (r.server.node.testDomainStatus domainName).2 :=
    Stored.testDomainStatus h domainName
  unfold Sound at *
  simp only [Registry.step]
  cases hup : r.server.up with
  | false => simpa [Server.node_step_request, hup] using h
  | true =>
      by_cases hoff : (r.server.node.testDomainStatus domainName).1 = .shutOff
      · have hdone : colodUndefine domainName r.server.node =
            .done ⟨0, "domain : " ++ domainName ++ " undefined"⟩
              (((r.server.node.testDomainStatus domainName).2.setSave (vmUndefine domainName
                (r.server.node.testDomainStatus domainName).2.save)).eraseDom domainName) :=
          if_neg (not_not.mpr hoff)
        have hsucceeds : succeeds (colodUndefine domainName r.server.node) = true := by
          rw [hdone]
          rfl
        simp only [hsucceeds, Bool.and_self, if_true]
        simp only [Server.node_step_request, hup, if_true, handle, hdone]
        exact htest.undefine domainName
      · have hdone : colodUndefine domainName r.server.node =
            .done ⟨-1, "domain is already running."⟩
              (r.server.node.testDomainStatus domainName).2 := if_pos hoff
        have hfails : succeeds (colodUndefine domainName r.server.node) = false := by
          rw [hdone]
          rfl
        simp only [hfails, Bool.and_false, Bool.false_eq_true, if_false]
        simp only [Server.node_step_request, hup, if_true, handle, hdone]
        exact htest

theorem Sound.step (h : r.Sound) {event : DefineEvent} (hkeys : r.KeysApart event) :
    (r.step event).Sound := by
  unfold Sound at *
  cases event with
  | connectPeer configFilePath env script =>
      simp only [Registry.step, Server.node_step_request]
      split
      · exact h.connectPeer env configFilePath script
      · exact h
  | define vmFilePath env => exact Sound.define h hkeys
  | undefine domainName env => exact Sound.undefine h domainName env
  | restart => exact h.congr rfl rfl rfl
  | edit file doc =>
      simp only [Registry.step]
      split
      · exact h
      · rename_i hfree
        have hother : ∀ name savePath d, r.defined name = some (savePath, d) →
            r.server.node.paths.resolve (savePath ++ name ++ ".yaml") ≠ some file := by
          intro name savePath d hdefined hfile
          obtain ⟨entry, hfind, hpath⟩ := find_of_recordedPath (h.path name savePath d hdefined)
          apply hfree
          refine List.any_eq_true.mpr ⟨entry, List.mem_of_find?_eq_some hfind, ?_⟩
          rw [hpath]
          simpa using hfile
        simp only [Server.step]
        split
        · exact h
        · rename_i hdefault
          simp only [Node.writeFile, hdefault, if_false]
          refine ⟨h.list, h.nodup, h.absent, h.path, ?_⟩
          intro name savePath d hdefined
          obtain ⟨found, stored, hfound, hapart, hdoc, hparse⟩ := h.file name savePath d hdefined
          have hne : found ≠ file := by
            rintro rfl
            exact hother name savePath d hdefined hfound
          exact ⟨found, stored, hfound, hapart, (if_neg hne).trans hdoc, hparse⟩

/-- What is on record of the other domains are the paths of their definitions. -/
theorem Sound.entries_apart_iff (h : r.Sound) {name file : String} :
    (∀ entry ∈ r.server.node.save.domains.entries, entry.name ≠ name →
        r.server.node.paths.resolve entry.path ≠ some file) ↔
      ∀ other otherPath d', r.defined other = some (otherPath, d') → other ≠ name →
        r.server.node.paths.resolve (otherPath ++ other ++ ".yaml") ≠ some file := by
  constructor
  · intro hentries other otherPath d' hdefined hne
    obtain ⟨entry, hfind, hpath⟩ := find_of_recordedPath (h.path other otherPath d' hdefined)
    have hname : entry.name = other := by simpa using List.find?_some hfind
    rw [← hpath]
    exact hentries entry (List.mem_of_find?_eq_some hfind) (hname ▸ hne)
  · intro hdefined entry hentry hne
    have hfind : r.server.node.save.find entry.name = some entry :=
      KeyedList.find_of_mem h.nodup hentry
    have hrecorded : r.server.node.recordedPath entry.name = some entry.path := by
      rw [Node.recordedPath, hfind]
      rfl
    cases hother : r.defined entry.name with
    | none =>
        rw [h.absent entry.name hother] at hrecorded
        nomatch hrecorded
    | some key =>
        obtain ⟨otherPath, d'⟩ := key
        have hsame := (h.path entry.name otherPath d' hother).symm.trans hrecorded
        rw [← Option.some.inj hsame]
        exact hdefined entry.name otherPath d' hother hne

/-- One event: the write is apart and everything reads back exactly when the keys are. -/
theorem Sound.apart_iff (h : r.Sound) (event : DefineEvent) :
    (r.WritesApart event ∧ (r.step event).ReadsBack) ↔ r.KeysApart event := by
  have hreads : r.KeysApart event → (r.step event).ReadsBack := by
    intro hkeys name savePath d hdefined
    exact Stored.getDomain (h.step hkeys) hdefined
  constructor
  · rintro ⟨hwrites, hback⟩
    cases event with
    | define vmFilePath env =>
        intro savePath d haccepted
        obtain ⟨file, hfile⟩ := h.exists_file haccepted hback
        obtain ⟨hdefault, hentries⟩ := hwrites savePath d haccepted file hfile
        exact ⟨file, hfile, hdefault, h.entries_apart_iff.mp hentries⟩
    | _ => trivial
  · intro hkeys
    refine ⟨?_, hreads hkeys⟩
    cases event with
    | define vmFilePath env =>
        intro savePath d haccepted file hfile
        obtain ⟨found, hfound, hdefault, hothers⟩ := hkeys savePath d haccepted
        obtain rfl : found = file := Option.some.inj (hfound.symm.trans hfile)
        exact ⟨hdefault, h.entries_apart_iff.mpr hothers⟩
    | _ => trivial

theorem sound_start (nd : Node) : (start nd).Sound := by
  have hnone : ∀ name savePath d, (start nd).defined name ≠ some (savePath, d) := by
    intro name savePath d hdefined
    cases hdefined
  refine ⟨?_, List.nodup_nil, fun _ _ => rfl, ?_, ?_⟩
  · intro hother
    cases hother
  · exact fun name savePath d hdefined => absurd hdefined (hnone name savePath d)
  · exact fun name savePath d hdefined => absurd hdefined (hnone name savePath d)

/-- In a run of connect-peer, define and undefine no define writes over the save
file or the definition of another domain, and every domain reads back as it was
defined last, exactly when each define stores in a file that can be written and is
neither the save file nor that of another defined domain. -/
theorem along_writesApart_iff (nd : Node) (events : List DefineEvent) :
    Along step (fun r event => r.WritesApart event ∧ (r.step event).ReadsBack) (start nd) events ↔
      Along step KeysApart (start nd) events :=
  along_congr_of_inv (fun _ _ hsound hkeys => hsound.step hkeys)
    (fun _ event hsound => hsound.apart_iff event) (sound_start nd) events

/-- A configuration without a slash at the end of `host_file_path`, or with one. -/
def pathDocument (hostFilePath : String) : Yaml.Node :=
  .map [("colo", .map [("local_status", .scalar "primary"), ("host_ip", .scalar "10.0.0.1"),
    ("host_user", .scalar "root"), ("host_file_path", .scalar hostFilePath),
    ("peer_ip", .scalar "10.0.0.2"), ("peer_user", .scalar "root"),
    ("peer_file_path", .scalar "/vm/")])]

/-- `b` is defined under the prefix `/vm/a`, and the prefix becomes `/vm/`. -/
def prefixMoved : List DefineEvent :=
  [.edit "/root/peer.yaml" (pathDocument "/vm/a"),
    .connectPeer "/root/peer.yaml" (.smooth 100) [([], some ⟨.success, ⟨0, ""⟩⟩)],
    .edit "/root/b.yaml" (sampleDefinition "b"),
    .define "/root/b.yaml" (.smooth 100),
    .edit "/root/peer.yaml" (pathDocument "/vm/"),
    .connectPeer "/root/peer.yaml" (.smooth 100) [([], some ⟨.success, ⟨0, ""⟩⟩)],
    .edit "/root/ab.yaml" (sampleDefinition "ab")]

theorem not_along_writesApart_prefixMoved :
    ¬ Along step (fun r event => r.WritesApart event ∧ (r.step event).ReadsBack) (start .fresh)
      (prefixMoved ++ [.define "/root/ab.yaml" (.smooth 100)]) := by
  intro h
  obtain ⟨⟨hlast, -⟩, -⟩ := (along_append.mp h).2
  have haccepted : ((prefixMoved.foldl step (start .fresh)).accepted "/root/ab.yaml") =
      some ("/vm/", sampleDomain "ab") := by decide +kernel
  have hentry : SaveEntry.mk "b" "/vm/ab.yaml" (-1) "shutoff" false "none" ∈
      (prefixMoved.foldl step (start .fresh)).server.node.save.domains.entries := by
    decide +kernel
  have hresolve : (prefixMoved.foldl step (start .fresh)).server.node.paths.resolve "/vm/ab.yaml" =
      some "/vm/ab.yaml" := by decide +kernel
  exact (hlast "/vm/" (sampleDomain "ab") haccepted "/vm/ab.yaml" hresolve).2 _ hentry (by decide)
    hresolve

end Registry

end ColoManage
