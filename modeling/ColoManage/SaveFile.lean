import ColoManage.Domain
import ColoManage.Library.KeyHistory
import ColoManage.Library.KeyedList

/-!
# The save file

`save.yaml` as a loaded document: the section `save_status` and the list
`domains`, whose entries carry the six fields that `save_domain_info` writes.
Emitting a document and loading it again is the identity.  The functions below
are the loops of `config_parser.cpp`, `domain.cpp` and `colod_service.cpp`
over that list.

`find` reads the list as a table; every loop has a lemma saying what it does
to that table.
-/

namespace ColoManage

structure SaveEntry where
  name : String
  path : String
  pid : ℤ
  status : String
  coloEnable : Bool
  coloStatus : String
  deriving DecidableEq, Repr

/-- The node `domains`.  `other` is a scalar or an empty map: defined, not
null, not a sequence, of size 0. -/
inductive DomainsNode
  | null
  | seq (entries : List SaveEntry)
  | other
  deriving DecidableEq, Repr

/-- What the loops `for (i = 0; i < size(); i++)` run over. -/
def DomainsNode.entries : DomainsNode → List SaveEntry
  | .null => []
  | .seq entries => entries
  | .other => []

def DomainsNode.mapEntries (f : List SaveEntry → List SaveEntry) :
    DomainsNode → DomainsNode
  | .null => .null
  | .seq entries => .seq (f entries)
  | .other => .other

structure SaveFile where
  saveStatus : Option Yaml.Node
  domains : DomainsNode

namespace SaveFile

def empty : SaveFile := ⟨none, .null⟩

def find (name : String) (sf : SaveFile) : Option SaveEntry :=
  KeyedList.find SaveEntry.name name sf.domains.entries

def names (sf : SaveFile) : List String :=
  sf.domains.entries.map SaveEntry.name

def updateEntry (name : String) (f : SaveEntry → SaveEntry) (sf : SaveFile) : SaveFile :=
  { sf with domains := sf.domains.mapEntries (KeyedList.updateFirst SaveEntry.name name f) }

end SaveFile

/-! ## The writers -/

def saveColoStatus (cs : ColoStatus) (sf : SaveFile) : SaveFile :=
  { sf with saveStatus := some (.map [
      ("local_status", .scalar (coloNodeStatusToStr cs.localStatus)),
      ("colod_port", .scalar (toString colodPort)),
      ("host_ip", .scalar cs.hostIp), ("peer_ip", .scalar cs.peerIp),
      ("host_user", .scalar cs.hostUser), ("peer_user", .scalar cs.peerUser),
      ("host_file_path", .scalar cs.hostFilePath),
      ("peer_file_path", .scalar cs.peerFilePath)]) }

/-- The entry `save_domain_info` writes; only name and path come from the record. -/
def savedEntry (ds : ColodDomainStatus) : SaveEntry where
  name := ds.name
  path := ds.configFilePath
  pid := -1
  status := "shutoff"
  coloEnable := false
  coloStatus := "none"

def saveDomainInfo (ds : ColodDomainStatus) (sf : SaveFile) : Except String SaveFile :=
  match sf.domains with
  | .null => .ok { sf with domains := .seq [savedEntry ds] }
  | .other => .error "wrong format in save file."
  | .seq entries =>
      .ok { sf with domains := .seq (KeyedList.upsert SaveEntry.name (savedEntry ds) entries) }

def saveDomainPid (domainName : String) (pid : ℤ) (sf : SaveFile) : SaveFile :=
  sf.updateEntry domainName fun entry => { entry with pid, status := "running" }

def removeDomainPid (domainName : String) (sf : SaveFile) : ℤ × SaveFile :=
  match sf.domains with
  | .null => (-1, sf)
  | _ =>
      (0, sf.updateEntry domainName fun entry => { entry with pid := -1, status := "shutoff" })

/-- The loop shared by `set_domain_colo_enable` and `set_domain_colo_disable`:
the first entry of the name is changed if it is shut off, and refused with
`-1` otherwise; a missing entry is no error. -/
def setShutOffEntry (domainName : String) (f : SaveEntry → SaveEntry) (sf : SaveFile) :
    ℤ × SaveFile :=
  match sf.find domainName with
  | some entry =>
      if entry.status = "shutoff" then (0, sf.updateEntry domainName f) else (-1, sf)
  | none => (0, sf)

def setDomainColoEnable (domainName : String) (cds : ColoDomainStatus) (sf : SaveFile) :
    ℤ × SaveFile :=
  setShutOffEntry domainName
    (fun entry => { entry with coloEnable := true, coloStatus := coloDomainStatusToStr cds }) sf

def setDomainColoDisable (domainName : String) (sf : SaveFile) : ℤ × SaveFile :=
  setShutOffEntry domainName (fun entry => { entry with coloEnable := false }) sf

/-- `err` is set when nothing is removed, but the code is `0` either way.  A
list that becomes empty is emitted as null. -/
def vmUndefine (domainName : String) (sf : SaveFile) : SaveFile :=
  if sf.domains.entries.any fun entry => decide (entry.name = domainName) then
    match KeyedList.removeAll SaveEntry.name domainName sf.domains.entries with
    | [] => { sf with domains := .null }
    | entries => { sf with domains := .seq entries }
  else sf

/-! ## The readers -/

def getDomainPid (domainName : String) (sf : SaveFile) : Option ℤ :=
  match sf.find domainName with
  | some entry => if entry.pid = -1 then none else some entry.pid
  | none => none

/-- The loop of `get_domain`: every entry of the name is loaded and parsed,
the last one stays in `d`. -/
def getDomainLoop (load : String → Option Yaml.Node) (domainName : String) :
    List SaveEntry → Option Domain → Parsed Domain
  | [], some d => .ok d
  | [], none => .error (.refused "")
  | entry :: rest, found =>
      if entry.name = domainName then
        match load entry.path with
        | none => .error (.thrown .badFile)
        | some vmdef =>
            match vmConfigParse vmdef with
            | .error stop => .error stop
            | .ok d => getDomainLoop load domainName rest (some d)
      else getDomainLoop load domainName rest found

/-- The record `domains_init` builds from an entry.  The status is looked up
under the entry's name, and the path is not read. -/
def loadedRecord (entry : SaveEntry) : ColodDomainStatus where
  pid := entry.pid
  name := entry.name
  status := mapAt domainStatusMap entry.name
  coloEnable := entry.coloEnable
  coloStatus := mapAt coloDomainStatusMap entry.coloStatus
  configFilePath := ""

def domainsInit (sf : SaveFile) (domains : Domains) : Domains :=
  sf.domains.entries.foldl
    (fun domains entry => domains.insert entry.name (loadedRecord entry)) domains

def SaveEntry.toYaml (entry : SaveEntry) : Yaml.Node :=
  .map [("name", .scalar entry.name), ("path", .scalar entry.path),
    ("pid", .scalar (toString entry.pid)), ("status", .scalar entry.status),
    ("colo_enable", .scalar (if entry.coloEnable then "true" else "false")),
    ("colo_status", .scalar entry.coloStatus)]

def SaveFile.toYaml (sf : SaveFile) : Yaml.Node :=
  .map [("save_status", sf.saveStatus.getD .null),
    ("domains",
      match sf.domains with
      | .null => .null
      | .seq entries => .seq (entries.map SaveEntry.toYaml)
      | .other => .map [])]

/-- A row of a plain document.  The loops read the keys they need and throw where they
come to one that is missing or does not convert; here such a key is read as empty, and
only a row without a name is no entry. -/
def SaveEntry.ofYaml (node : Yaml.Node) : Except Yaml.Exn SaveEntry := do
  let field (key : String) : Except Yaml.Exn Yaml.Node := do
    match ← node.sub key with
    | some value => pure value
    | none => throw .invalidNode
  let text (key : String) : String := (field key >>= Yaml.Node.asString).toOption.getD ""
  pure {
    name := ← (← field "name").asString
    path := text "path"
    pid := (field "pid" >>= Yaml.Node.asInt).toOption.getD (-1)
    status := text "status"
    coloEnable := (field "colo_enable" >>= Yaml.Node.asBool).toOption.getD false
    coloStatus := text "colo_status" }

/-- A plain document read as a save file.  `save_domain_info` and `domains_init` go
through every row and throw at one without a name; a list with such a row is read as
`other`. -/
def SaveFile.ofYaml (config : Yaml.Node) : SaveFile where
  saveStatus := (config.sub "save_status").toOption.join
  domains :=
    match (config.sub "domains").toOption.join with
    | none => .null
    | some .null => .null
    | some (.seq items) =>
        match items.mapM SaveEntry.ofYaml with
        | .ok entries => .seq entries
        | .error _ => .other
    | some _ => .other

/-! ## What the loops do to the table -/

theorem entries_updateEntry (name : String) (f : SaveEntry → SaveEntry) (sf : SaveFile) :
    (sf.updateEntry name f).domains.entries =
      KeyedList.updateFirst SaveEntry.name name f sf.domains.entries := by
  unfold SaveFile.updateEntry
  cases sf.domains <;> rfl

theorem find_updateEntry {f : SaveEntry → SaveEntry}
    (hf : ∀ entry, (f entry).name = entry.name) (name other : String) (sf : SaveFile) :
    (sf.updateEntry name f).find other =
      if other = name then (sf.find name).map f else sf.find other := by
  simp only [SaveFile.find, entries_updateEntry]
  exact KeyedList.find_updateFirst hf name other sf.domains.entries

theorem names_updateEntry {f : SaveEntry → SaveEntry}
    (hf : ∀ entry, (f entry).name = entry.name) (name : String) (sf : SaveFile) :
    (sf.updateEntry name f).names = sf.names := by
  simp only [SaveFile.names, entries_updateEntry]
  exact KeyedList.map_key_updateFirst hf name sf.domains.entries

@[simp] theorem find_saveColoStatus (cs : ColoStatus) (sf : SaveFile) (name : String) :
    (saveColoStatus cs sf).find name = sf.find name := rfl

@[simp] theorem names_saveColoStatus (cs : ColoStatus) (sf : SaveFile) :
    (saveColoStatus cs sf).names = sf.names := rfl

theorem saveDomainInfo_cases (ds : ColodDomainStatus) (sf : SaveFile) :
    (sf.domains = .other ∧ saveDomainInfo ds sf = .error "wrong format in save file.") ∨
      (sf.domains ≠ .other ∧ ∃ sf', saveDomainInfo ds sf = .ok sf') := by
  cases hdomains : sf.domains with
  | null => exact .inr ⟨by simp, _, by simp [saveDomainInfo, hdomains]; rfl⟩
  | seq entries => exact .inr ⟨by simp, _, by simp [saveDomainInfo, hdomains]; rfl⟩
  | other => exact .inl ⟨rfl, by simp [saveDomainInfo, hdomains]⟩

theorem entries_saveDomainInfo {ds : ColodDomainStatus} {sf sf' : SaveFile}
    (h : saveDomainInfo ds sf = .ok sf') :
    sf'.domains.entries =
      KeyedList.upsert SaveEntry.name (savedEntry ds) sf.domains.entries := by
  unfold saveDomainInfo at h
  cases hdomains : sf.domains with
  | null =>
      simp only [hdomains, Except.ok.injEq] at h
      subst sf'
      rfl
  | seq entries =>
      simp only [hdomains, Except.ok.injEq] at h
      subst sf'
      rfl
  | other => simp [hdomains] at h

theorem find_saveDomainInfo {ds : ColodDomainStatus} {sf sf' : SaveFile}
    (h : saveDomainInfo ds sf = .ok sf') (name : String) :
    sf'.find name = if name = ds.name then some (savedEntry ds) else sf.find name := by
  unfold SaveFile.find
  rw [entries_saveDomainInfo h]
  exact KeyedList.find_upsert (savedEntry ds) name sf.domains.entries

theorem find_saveDomainPid (name other : String) (pid : ℤ) (sf : SaveFile) :
    (saveDomainPid name pid sf).find other =
      if other = name then
        (sf.find name).map fun entry => { entry with pid, status := "running" }
      else sf.find other :=
  find_updateEntry (by intro entry; rfl) name other sf

theorem find_removeDomainPid (name other : String) (sf : SaveFile) :
    (removeDomainPid name sf).2.find other =
      if other = name then
        (sf.find name).map fun entry => { entry with pid := -1, status := "shutoff" }
      else sf.find other := by
  unfold removeDomainPid
  split
  · rename_i hdomains
    have hnone : ∀ key, sf.find key = none := fun key => by
      simp [SaveFile.find, hdomains, DomainsNode.entries]
    simp [hnone]
  · exact find_updateEntry (by intro entry; rfl) name other sf

theorem removeDomainPid_code {name : String} {sf : SaveFile} {entry : SaveEntry}
    (h : sf.find name = some entry) : (removeDomainPid name sf).1 = 0 := by
  unfold removeDomainPid
  cases hdomains : sf.domains with
  | null => simp [SaveFile.find, hdomains, DomainsNode.entries] at h
  | seq entries => rfl
  | other => rfl

theorem find_setShutOffEntry {f : SaveEntry → SaveEntry}
    (hf : ∀ entry, (f entry).name = entry.name) (name other : String) (sf : SaveFile) :
    (setShutOffEntry name f sf).2.find other =
      if other = name then
        (sf.find name).map fun entry => if entry.status = "shutoff" then f entry else entry
      else sf.find other := by
  unfold setShutOffEntry
  cases hfind : sf.find name with
  | none =>
      by_cases hother : other = name
      · simp [hother, hfind]
      · simp [hother]
  | some entry =>
      by_cases hstatus : entry.status = "shutoff"
      · simp only [hstatus, if_true]
        rw [find_updateEntry hf, hfind]
        simp [hstatus]
      · by_cases hother : other = name
        · simp [hstatus, hother, hfind]
        · simp [hstatus, hother]

theorem setShutOffEntry_code {f : SaveEntry → SaveEntry} {name : String} {sf : SaveFile}
    {entry : SaveEntry} (hfind : sf.find name = some entry) :
    (setShutOffEntry name f sf).1 = if entry.status = "shutoff" then 0 else -1 := by
  unfold setShutOffEntry
  rw [hfind]
  dsimp only
  split <;> rfl

theorem find_setShutOffEntry_of_shutoff {f : SaveEntry → SaveEntry}
    (hf : ∀ entry, (f entry).name = entry.name) {name : String} {sf : SaveFile}
    {entry : SaveEntry} (hfind : sf.find name = some entry)
    (hstatus : entry.status = "shutoff") (other : String) :
    (setShutOffEntry name f sf).2.find other =
      if other = name then some (f entry) else sf.find other := by
  rw [find_setShutOffEntry hf, hfind, Option.map_some, if_pos hstatus]

theorem find_setDomainColoEnable {name : String} {sf : SaveFile} {entry : SaveEntry}
    (hfind : sf.find name = some entry) (hstatus : entry.status = "shutoff")
    (cds : ColoDomainStatus) (other : String) :
    (setDomainColoEnable name cds sf).2.find other =
      if other = name then
        some { entry with coloEnable := true, coloStatus := coloDomainStatusToStr cds }
      else sf.find other :=
  find_setShutOffEntry_of_shutoff (by intro entry; rfl) hfind hstatus other

/-- The entry that `save_domain_info` has written is shut off. -/
theorem setDomainColoEnable_saved {ds : ColodDomainStatus} {sf saved : SaveFile}
    (h : saveDomainInfo ds sf = .ok saved) (cds : ColoDomainStatus) :
    setDomainColoEnable ds.name cds saved =
      (0, saved.updateEntry ds.name fun entry =>
        { entry with coloEnable := true, coloStatus := coloDomainStatusToStr cds }) := by
  have hfind : saved.find ds.name = some (savedEntry ds) := by
    rw [find_saveDomainInfo h, if_pos rfl]
  simp [setDomainColoEnable, setShutOffEntry, hfind, savedEntry]

theorem find_setDomainColoDisable {name : String} {sf : SaveFile} {entry : SaveEntry}
    (hfind : sf.find name = some entry) (hstatus : entry.status = "shutoff") (other : String) :
    (setDomainColoDisable name sf).2.find other =
      if other = name then some { entry with coloEnable := false } else sf.find other :=
  find_setShutOffEntry_of_shutoff (by intro entry; rfl) hfind hstatus other

theorem find_vmUndefine (name other : String) (sf : SaveFile) :
    (vmUndefine name sf).find other =
      if other = name then none else sf.find other := by
  unfold vmUndefine
  split
  · have h : KeyedList.find SaveEntry.name other
        (KeyedList.removeAll SaveEntry.name name sf.domains.entries) =
          if other = name then none
          else KeyedList.find SaveEntry.name other sf.domains.entries :=
      KeyedList.find_removeAll name other sf.domains.entries
    cases hrest : KeyedList.removeAll SaveEntry.name name sf.domains.entries with
    | nil =>
        rw [hrest] at h
        simpa [SaveFile.find, DomainsNode.entries] using h
    | cons entry entries =>
        rw [hrest] at h
        exact h
  · rename_i hany
    by_cases hother : other = name
    · rw [if_pos hother, hother]
      exact KeyedList.find_eq_none_iff.mpr fun hmem => hany (KeyedList.any_key_iff.mpr hmem)
    · rw [if_neg hother]

/-- Past the entries of a name the loop keeps what it has found. -/
theorem getDomainLoop_of_not_mem (load : String → Option Yaml.Node) {name : String}
    {entries : List SaveEntry} (h : name ∉ entries.map SaveEntry.name) (found : Option Domain) :
    getDomainLoop load name entries found = getDomainLoop load name [] found := by
  induction entries with
  | nil => rfl
  | cons entry entries ih =>
      rw [List.map_cons, List.mem_cons, not_or] at h
      simp only [getDomainLoop, Ne.symm h.1, if_false]
      exact ih h.2

/-- With pairwise distinct names, loading gives each name the record of its
entry. -/
theorem lookup_domainsInit {sf : SaveFile} (hnodup : sf.names.Nodup) (domains : Domains)
    (name : String) :
    (domainsInit sf domains).lookup name =
      ((sf.find name).map loadedRecord).or (domains.lookup name) := by
  unfold domainsInit SaveFile.find
  unfold SaveFile.names at hnodup
  generalize sf.domains.entries = entries at hnodup ⊢
  induction entries generalizing domains with
  | nil => simp
  | cons entry entries ih =>
      rw [List.map_cons, List.nodup_cons] at hnodup
      rw [List.foldl_cons, ih _ hnodup.2, KeyedList.find_cons]
      by_cases hname : entry.name = name
      · subst hname
        have hnone : KeyedList.find SaveEntry.name entry.name entries = none :=
          KeyedList.find_eq_none_iff.mpr hnodup.1
        simp [hnone]
      · rw [if_neg hname, AList.lookup_insert_ne (Ne.symm hname)]

/-- Whatever the names are, a record that is loaded comes from an entry of its
name. -/
theorem entry_of_lookup_domainsInit {sf : SaveFile} {name : String} {ds : ColodDomainStatus}
    (h : (domainsInit sf ∅).lookup name = some ds) :
    ∃ entry ∈ sf.domains.entries, entry.name = name ∧ ds = loadedRecord entry := by
  have hloaded : ∀ (entries : List SaveEntry) (domains : Domains),
      (∀ entry ∈ entries, entry ∈ sf.domains.entries) →
      (domains.lookup name = some ds →
        ∃ entry ∈ sf.domains.entries, entry.name = name ∧ ds = loadedRecord entry) →
      (entries.foldl (fun domains entry => domains.insert entry.name (loadedRecord entry))
        domains).lookup name = some ds →
        ∃ entry ∈ sf.domains.entries, entry.name = name ∧ ds = loadedRecord entry := by
    intro entries
    induction entries with
    | nil => exact fun domains _ hdomains => hdomains
    | cons entry entries ih =>
        intro domains hmem hdomains
        rw [List.forall_mem_cons] at hmem
        refine ih _ hmem.2 ?_
        intro hlookup
        by_cases hname : entry.name = name
        · subst hname
          rw [AList.lookup_insert, Option.some.injEq] at hlookup
          exact ⟨entry, hmem.1, rfl, hlookup.symm⟩
        · rw [AList.lookup_insert_ne (Ne.symm hname)] at hlookup
          exact hdomains hlookup
  exact hloaded _ ∅ (fun _ hmem => hmem) (by simp) h

/-! ## What the writers do to the names -/

theorem names_saveDomainInfo {ds : ColodDomainStatus} {sf sf' : SaveFile}
    (h : saveDomainInfo ds sf = .ok sf') :
    sf'.names = KeyHistory.step sf.names (.put ds.name) := by
  unfold SaveFile.names
  rw [entries_saveDomainInfo h]
  exact KeyedList.map_key_upsert (savedEntry ds) sf.domains.entries

theorem nodup_saveDomainInfo {ds : ColodDomainStatus} {sf sf' : SaveFile}
    (h : saveDomainInfo ds sf = .ok sf') (hnodup : sf.names.Nodup) : sf'.names.Nodup := by
  rw [names_saveDomainInfo h]
  exact KeyHistory.nodup_step hnodup _

@[simp] theorem names_saveDomainPid (name : String) (pid : ℤ) (sf : SaveFile) :
    (saveDomainPid name pid sf).names = sf.names :=
  names_updateEntry (by intro entry; rfl) name sf

@[simp] theorem names_removeDomainPid (name : String) (sf : SaveFile) :
    (removeDomainPid name sf).2.names = sf.names := by
  unfold removeDomainPid
  split
  · rfl
  · exact names_updateEntry (by intro entry; rfl) name sf

theorem names_setShutOffEntry {f : SaveEntry → SaveEntry}
    (hf : ∀ entry, (f entry).name = entry.name) (name : String) (sf : SaveFile) :
    (setShutOffEntry name f sf).2.names = sf.names := by
  unfold setShutOffEntry
  split
  · split
    · exact names_updateEntry hf name sf
    · rfl
  · rfl

@[simp] theorem names_setDomainColoEnable (name : String) (cds : ColoDomainStatus)
    (sf : SaveFile) : (setDomainColoEnable name cds sf).2.names = sf.names :=
  names_setShutOffEntry (by intro entry; rfl) name sf

@[simp] theorem names_setDomainColoDisable (name : String) (sf : SaveFile) :
    (setDomainColoDisable name sf).2.names = sf.names :=
  names_setShutOffEntry (by intro entry; rfl) name sf

theorem names_vmUndefine (name : String) (sf : SaveFile) :
    (vmUndefine name sf).names = KeyHistory.step sf.names (.drop name) := by
  have hremove : (KeyedList.removeAll SaveEntry.name name sf.domains.entries).map SaveEntry.name =
      KeyHistory.step sf.names (.drop name) :=
    KeyedList.map_key_removeAll name sf.domains.entries
  unfold vmUndefine
  split
  · rw [← hremove]
    split
    · rename_i hnil
      rw [hnil]
      rfl
    · rfl
  · rename_i hany
    have habsent : name ∉ sf.names := fun hmem => hany (KeyedList.any_key_iff.mpr hmem)
    symm
    apply List.filter_eq_self.mpr
    intro other hother
    simpa using fun heq : other = name => habsent (heq ▸ hother)

theorem nodup_vmUndefine {name : String} {sf : SaveFile} (hnodup : sf.names.Nodup) :
    (vmUndefine name sf).names.Nodup := by
  rw [names_vmUndefine]
  exact KeyHistory.nodup_step hnodup _

end ColoManage
