import ColoManage.SaveDocument
import ColoManage.Transfer

/-!
# The save file as a store

What `save.yaml` is for: it keeps the status of the node and, for each name, what is
known of the domain.  `Store` is that and nothing more.  The functions that read the
document answer what the store holds after the calls that wrote it.
-/

namespace ColoManage

namespace SaveDocument

open Yaml

/-! ## The readers -/

/-- The loop of `get_domain_pid`. -/
def pidOf (domainName : String) : List Yaml.Node → Except Exn (Option ℤ)
  | [] => pure none
  | item :: items => do
      if domainName = (← nameOf item) then
        let p ← (← field item "pid").asInt
        pure (if p = -1 then none else some p)
      else pidOf domainName items

def getDomainPid (domainName : String) (sf : Yaml.Node) : Except Exn (Option ℤ) := do
  pidOf domainName (← rows sf)

/-- The loop of `get_domain_config_file_path`. -/
def pathOf (domainName : String) : List Yaml.Node → Except Exn (Option String)
  | [] => pure none
  | item :: items => do
      if domainName = (← nameOf item) then some <$> (← field item "path").asString
      else pathOf domainName items

def getDomainConfigFilePath (domainName : String) (sf : Yaml.Node) :
    Except Exn (Option String) := do
  pathOf domainName (← rows sf)

/-- The status is looked up under the name. -/
def recordOf (item : Yaml.Node) : Except Exn ColodDomainStatus := do
  let name ← nameOf item
  let pid ← (← field item "pid").asInt
  let coloEnable ← (← field item "colo_enable").asBool
  let status := mapAt domainStatusMap (← nameOf item)
  let coloStatus := mapAt coloDomainStatusMap (← (← field item "colo_status").asString)
  pure { pid, name, status, coloEnable, coloStatus, configFilePath := "" }

def loadRecords : List Yaml.Node → Domains → Except Exn Domains
  | [], dsMap => pure dsMap
  | item :: items, dsMap => do
      let ds ← recordOf item
      loadRecords items (dsMap.insert ds.name ds)

def domainsInit (sf : Yaml.Node) (dsMap : Domains) : Except Exn Domains := do
  match ← sf.sub "domains" with
  | none => pure dsMap
  | some .null => pure dsMap
  | some _ => loadRecords (← rows sf) dsMap

/-- The loop of `get_domain`, which goes on after the name is found. -/
def getDomainRows (load : String → Option Yaml.Node) (domainName : String) :
    List Yaml.Node → Option Domain → Parsed Domain
  | [], some d => pure d
  | [], none => throw (.refused "")
  | item :: items, found => do
      if domainName = (← fromYaml (nameOf item)) then
        let path ← fromYaml (field item "path" >>= Yaml.Node.asString)
        match load path with
        | none => throw (.thrown .badFile)
        | some vmdef => getDomainRows load domainName items (some (← vmConfigParse vmdef))
      else getDomainRows load domainName items found

def getDomain (load : String → Option Yaml.Node) (domainName : String) (sf : Yaml.Node) :
    Parsed Domain := do
  getDomainRows load domainName (← fromYaml (rows sf)) none

/-- `get_connect_status` into the record of its caller. -/
def getConnectStatus (cs : ColoStatus) (sf : Yaml.Node) : Except Exn ColoStatus := do
  let text (key : String) : Except Exn String := do
    (← field (← field sf "save_status") key).asString
  pure { cs with
    hostIp := ← text "host_ip"
    hostUser := ← text "host_user"
    hostFilePath := ← text "host_file_path"
    peerIp := ← text "peer_ip"
    peerUser := ← text "peer_user"
    peerFilePath := ← text "peer_file_path" }

/-! ## The readers on represented rows -/

section

variable {items : List Yaml.Node} {entries : List SaveEntry} {doc : Yaml.Node} {sf : SaveFile}

theorem pidOf_spec (domainName : String) (h : List.Forall₂ Reads items entries) :
    pidOf domainName items = .ok (match KeyedList.find SaveEntry.name domainName entries with
      | some entry => if entry.pid = -1 then none else some entry.pid
      | none => none) := by
  induction h with
  | nil => rfl
  | @cons item entry items entries hfirst _ ih =>
      have hname : nameOf item = .ok entry.name := hfirst.name
      obtain ⟨value, hfield, hint⟩ := bind_eq_ok.mp hfirst.pid
      rw [KeyedList.find_cons]
      by_cases heq : entry.name = domainName
      · rw [if_pos heq]
        simp only [pidOf, hname, hfield, hint, heq, bind, Except.bind, if_true]
        rfl
      · rw [if_neg heq, ← ih]
        simp only [pidOf, hname, bind, Except.bind, if_neg (Ne.symm heq)]

theorem pathOf_spec (domainName : String) (h : List.Forall₂ Reads items entries) :
    pathOf domainName items =
      .ok ((KeyedList.find SaveEntry.name domainName entries).map SaveEntry.path) := by
  induction h with
  | nil => rfl
  | @cons item entry items entries hfirst _ ih =>
      have hname : nameOf item = .ok entry.name := hfirst.name
      obtain ⟨value, hfield, hstring⟩ := bind_eq_ok.mp hfirst.path
      rw [KeyedList.find_cons]
      by_cases heq : entry.name = domainName
      · rw [if_pos heq]
        simp only [pathOf, hname, hfield, hstring, heq, bind, Except.bind, if_true]
        rfl
      · rw [if_neg heq, ← ih]
        simp only [pathOf, hname, bind, Except.bind, if_neg (Ne.symm heq)]

theorem recordOf_spec {item : Yaml.Node} {entry : SaveEntry} (h : Reads item entry) :
    recordOf item = .ok (loadedRecord entry) := by
  have hname : nameOf item = .ok entry.name := h.name
  obtain ⟨pid, hpid, hint⟩ := bind_eq_ok.mp h.pid
  obtain ⟨flag, hflag, hbool⟩ := bind_eq_ok.mp h.coloEnable
  obtain ⟨role, hrole, hstring⟩ := bind_eq_ok.mp h.coloStatus
  simp only [recordOf, hname, hpid, hint, hflag, hbool, hrole, hstring, bind, Except.bind]
  rfl

theorem loadRecords_spec (h : List.Forall₂ Reads items entries) (dsMap : Domains) :
    loadRecords items dsMap =
      .ok (entries.foldl
        (fun domains entry => domains.insert entry.name (loadedRecord entry)) dsMap) := by
  induction h generalizing dsMap with
  | nil => rfl
  | cons hfirst _ ih =>
      simp only [loadRecords, recordOf_spec hfirst, bind, Except.bind]
      exact ih _

theorem getDomainRows_spec (load : String → Option Yaml.Node) (domainName : String)
    (h : List.Forall₂ Reads items entries) (found : Option Domain) :
    getDomainRows load domainName items found =
      getDomainLoop load domainName entries found := by
  induction h generalizing found with
  | nil => cases found <;> rfl
  | @cons item entry items entries hfirst _ ih =>
      have hname : fromYaml (nameOf item) = .ok entry.name :=
        congrArg (Except.mapError ParseStop.thrown) hfirst.name
      have hpath : fromYaml (field item "path" >>= Yaml.Node.asString) = .ok entry.path :=
        congrArg (Except.mapError ParseStop.thrown) hfirst.path
      rw [getDomainRows, getDomainLoop, hname, hpath]
      by_cases heq : entry.name = domainName
      · rw [if_pos heq]
        simp only [bind, Except.bind, heq, if_true]
        cases load entry.path with
        | none => rfl
        | some vmdef =>
            cases hparse : vmConfigParse vmdef with
            | error stop => simp only [hparse]
            | ok d => simpa only [hparse] using ih (some d)
      · rw [if_neg heq]
        simp only [bind, Except.bind, if_neg (Ne.symm heq)]
        exact ih found

/-! ## The readers on represented documents -/

theorem getDomainPid_spec (h : Represents doc sf) (domainName : String) :
    getDomainPid domainName doc = .ok (ColoManage.getDomainPid domainName sf) := by
  obtain ⟨items, hrows, hreads⟩ := h.entries
  rw [getDomainPid, hrows]
  exact pidOf_spec domainName hreads

theorem getDomainConfigFilePath_spec (h : Represents doc sf) (domainName : String) :
    getDomainConfigFilePath domainName doc = .ok (sf.getDomainConfigFilePath domainName) := by
  obtain ⟨items, hrows, hreads⟩ := h.entries
  rw [getDomainConfigFilePath, hrows]
  exact pathOf_spec domainName hreads

theorem domainsInit_spec (h : Represents doc sf) (dsMap : Domains) :
    domainsInit doc dsMap = .ok (ColoManage.domainsInit sf dsMap) := by
  obtain ⟨items, hrows, hreads⟩ := h.entries
  have hdomains := h.domains
  unfold domainsInit ColoManage.domainsInit
  cases hsf : sf.domains with
  | null =>
      rw [hsf] at hdomains
      rcases hdomains with hdomains | hdomains
      · rw [hdomains]
        rfl
      · rw [hdomains]
        rfl
  | seq entries =>
      rw [hsf] at hdomains hreads
      obtain ⟨stored, hstored, -⟩ := hdomains
      rw [hstored, hrows]
      exact loadRecords_spec hreads dsMap
  | other =>
      rw [hsf] at hdomains
      exact hdomains.elim

theorem getDomain_spec (h : Represents doc sf) (load : String → Option Yaml.Node)
    (domainName : String) :
    getDomain load domainName doc = getDomainLoop load domainName sf.domains.entries none := by
  obtain ⟨items, hrows, hreads⟩ := h.entries
  rw [getDomain, hrows]
  exact getDomainRows_spec load domainName hreads none

end

/-! ## The store -/

/-- What was last saved of the node, if anything was, and of each domain. -/
structure Store where
  status : Option ColoStatus
  domains : String → Option SaveEntry

namespace SaveCall

/-- What the call means. -/
def effect (store : Store) : SaveCall → Store
  | .saveStatus cs => { store with status := some cs }
  | .saveInfo ds =>
      { store with domains := Function.update store.domains ds.name (some (savedEntry ds)) }
  | .savePid domainName pid => change domainName fun entry =>
      { entry with pid, status := "running" }
  | .removePid domainName => change domainName fun entry =>
      { entry with pid := -1, status := "shutoff" }
  | .setEnable domainName cds => change domainName fun entry =>
      if entry.status = "shutoff" then
        { entry with coloEnable := true, coloStatus := coloDomainStatusToStr cds }
      else entry
  | .setDisable domainName => change domainName fun entry =>
      if entry.status = "shutoff" then { entry with coloEnable := false } else entry
  | .undefine domainName =>
      { store with domains := Function.update store.domains domainName none }
where
  change (domainName : String) (f : SaveEntry → SaveEntry) : Store :=
    { store with
      domains := Function.update store.domains domainName ((store.domains domainName).map f) }

end SaveCall

/-- A table of distinct names that holds what the store does. -/
structure Keeps (sf : SaveFile) (store : Store) : Prop where
  distinct : sf.names.Nodup
  status : ∀ saved, store.status = some saved →
    sf.saveStatus = (ColoManage.saveColoStatus saved sf).saveStatus
  domains : ∀ name, sf.find name = store.domains name

section

variable {doc : Yaml.Node} {sf : SaveFile} {store : Store}

theorem Represents.ne_other (h : Represents doc sf) : sf.domains ≠ .other := by
  intro hother
  have hdomains := h.domains
  rw [hother] at hdomains
  exact hdomains

theorem find_updateShutOff {f : SaveEntry → SaveEntry}
    (hf : ∀ entry, (f entry).name = entry.name) (name other : String) (sf : SaveFile) :
    (setShutOffEntry name f sf).2.find other =
      Function.update sf.find name
        ((sf.find name).map fun entry => if entry.status = "shutoff" then f entry else entry)
        other := by
  rw [find_setShutOffEntry hf, Function.update_apply]

theorem saveStatus_setShutOffEntry (name : String) (f : SaveEntry → SaveEntry) (sf : SaveFile) :
    (setShutOffEntry name f sf).2.saveStatus = sf.saveStatus := by
  unfold setShutOffEntry
  cases sf.find name with
  | none => rfl
  | some entry =>
      dsimp only
      split <;> rfl

theorem saveStatus_vmUndefine (name : String) (sf : SaveFile) :
    (ColoManage.vmUndefine name sf).saveStatus = sf.saveStatus := by
  unfold ColoManage.vmUndefine
  split
  · split <;> rfl
  · rfl

theorem saveStatus_removeDomainPid (name : String) (sf : SaveFile) :
    (ColoManage.removeDomainPid name sf).2.saveStatus = sf.saveStatus := by
  unfold ColoManage.removeDomainPid
  split <;> rfl

/-- A call on the domains, from what it does to the three parts of the table. -/
theorem Keeps.step (h : Keeps sf store) {sf' : SaveFile} {domains : String → Option SaveEntry}
    (hdistinct : sf'.names.Nodup) (hstatus : sf'.saveStatus = sf.saveStatus)
    (hdomains : ∀ name, sf'.find name = domains name) :
    Keeps sf' { store with domains } where
  distinct := hdistinct
  status saved hsaved := hstatus.trans (h.status saved hsaved)
  domains := hdomains

theorem keeps_apply (h : Keeps sf store) (hother : sf.domains ≠ .other) (call : SaveCall) :
    Keeps (call.apply sf).2 (call.effect store) := by
  obtain ⟨status, domains⟩ := store
  obtain rfl : sf.find = domains := funext h.domains
  cases call with
  | saveStatus cs =>
      refine ⟨h.distinct, ?_, h.domains⟩
      intro saved hsaved
      cases hsaved
      rfl
  | saveInfo ds =>
      rcases saveDomainInfo_cases ds sf with ⟨hwrong, -⟩ | ⟨-, sf', hsf'⟩
      · exact absurd hwrong hother
      · have happly : (SaveCall.apply (.saveInfo ds) sf).2 = sf' := by
          simp only [SaveCall.apply, hsf']
        rw [happly]
        refine h.step (nodup_saveDomainInfo hsf' h.distinct) ?_ ?_
        · unfold ColoManage.saveDomainInfo at hsf'
          split at hsf' <;> cases hsf' <;> rfl
        · intro name
          rw [find_saveDomainInfo hsf', Function.update_apply]
  | savePid domainName pid =>
      refine h.step ?_ rfl ?_
      · simpa [SaveCall.apply] using h.distinct
      · intro name
        rw [Function.update_apply]
        exact find_saveDomainPid domainName name pid sf
  | removePid domainName =>
      refine h.step ?_ (saveStatus_removeDomainPid domainName sf) ?_
      · simpa [SaveCall.apply] using h.distinct
      · intro name
        rw [Function.update_apply]
        exact find_removeDomainPid domainName name sf
  | setEnable domainName cds =>
      refine h.step ?_ (saveStatus_setShutOffEntry domainName _ sf) ?_
      · simpa [SaveCall.apply] using h.distinct
      · refine fun name => find_updateShutOff ?_ domainName name sf
        intro entry
        rfl
  | setDisable domainName =>
      refine h.step ?_ (saveStatus_setShutOffEntry domainName _ sf) ?_
      · simpa [SaveCall.apply] using h.distinct
      · refine fun name => find_updateShutOff ?_ domainName name sf
        intro entry
        rfl
  | undefine domainName =>
      refine h.step (nodup_vmUndefine h.distinct) (saveStatus_vmUndefine domainName sf) ?_
      intro name
      rw [Function.update_apply]
      exact find_vmUndefine domainName name sf

theorem keeps_applyAll (hrep : Represents doc sf) (h : Keeps sf store) {calls : List SaveCall}
    (hfits : ∀ call ∈ calls, call.Fits) :
    Keeps (applyAll calls sf).2 (calls.foldl SaveCall.effect store) := by
  induction calls generalizing doc sf store with
  | nil => exact h
  | cons call calls ih =>
      obtain ⟨hcall, hcalls⟩ := List.forall_mem_cons.mp hfits
      obtain ⟨doc', -, hrep'⟩ := SaveCall.write_spec hcall hrep
      exact ih hrep' (keeps_apply h hrep.ne_other call) hcalls

/-! ## What the readers answer -/

/-- The readers of the document, asked about a store. -/
structure Answers (doc : Yaml.Node) (store : Store) : Prop where
  pid : ∀ name, getDomainPid name doc =
    .ok (((store.domains name).map SaveEntry.pid).filter fun pid => decide (pid ≠ -1))
  path : ∀ name, getDomainConfigFilePath name doc =
    .ok ((store.domains name).map SaveEntry.path)
  domain : ∀ load name, getDomain load name doc =
    match store.domains name with
    | none => .error (.refused "")
    | some entry =>
        match load entry.path with
        | none => .error (.thrown .badFile)
        | some vmdef => vmConfigParse vmdef
  records : ∃ dsMap, domainsInit doc ∅ = .ok dsMap ∧
    ∀ name, dsMap.lookup name = (store.domains name).map loadedRecord
  status : ∀ saved, store.status = some saved → ∀ cs, getConnectStatus cs doc =
    .ok { saved with localStatus := cs.localStatus, colodPort := cs.colodPort }

/-- With one entry of the name the loop of `get_domain` parses its file and no other. -/
theorem getDomainLoop_of_find (load : String → Option Yaml.Node) {name : String}
    {entries : List SaveEntry} (hnodup : (entries.map SaveEntry.name).Nodup) :
    getDomainLoop load name entries none =
      match KeyedList.find SaveEntry.name name entries with
      | none => .error (.refused "")
      | some entry =>
          match load entry.path with
          | none => .error (.thrown .badFile)
          | some vmdef => vmConfigParse vmdef := by
  induction entries with
  | nil => rfl
  | cons entry entries ih =>
      rw [List.map_cons, List.nodup_cons] at hnodup
      rw [KeyedList.find_cons, getDomainLoop]
      by_cases heq : entry.name = name
      · subst heq
        rw [if_pos rfl, if_pos rfl]
        dsimp only
        cases load entry.path with
        | none => rfl
        | some vmdef =>
            dsimp only
            cases vmConfigParse vmdef with
            | error stop => rfl
            | ok d => exact getDomainLoop_of_not_mem load hnodup.1 (some d)
      · rw [if_neg heq, if_neg heq]
        exact ih hnodup.2

theorem answers_of_keeps (hrep : Represents doc sf) (h : Keeps sf store) : Answers doc store where
  pid name := by
    rw [getDomainPid_spec hrep, ColoManage.getDomainPid, h.domains]
    cases store.domains name with
    | none => rfl
    | some entry =>
        by_cases hpid : entry.pid = -1
        · simp [hpid, Option.filter]
        · simp [hpid, Option.filter]
  path name := by
    rw [getDomainConfigFilePath_spec hrep, SaveFile.getDomainConfigFilePath, h.domains]
  domain load name := by
    rw [getDomain_spec hrep, getDomainLoop_of_find load h.distinct, ← h.domains]
    rfl
  records := by
    refine ⟨_, domainsInit_spec hrep ∅, fun name => ?_⟩
    rw [lookup_domainsInit h.distinct, h.domains]
    simp
  status saved hsaved cs := by
    have hsub := hrep.saveStatus
    rw [h.status saved hsaved] at hsub
    simp only [getConnectStatus, field, hsub]
    rfl

end

end SaveDocument

end ColoManage
