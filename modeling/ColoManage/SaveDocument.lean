import ColoManage.Codec
import ColoManage.Library.YamlEdit

/-!
# The save file as a document

The functions of `config_parser.cpp`, `domain.cpp` and `colod_service.cpp` that
write `save.yaml`, as they work on the loaded document: each subscripts, loops
and assigns, and may throw.  `Represents` connects a document to the table of
`SaveFile`, and every function does to the document what its counterpart does to
the table.
-/

namespace ColoManage

namespace SaveDocument

open Yaml

/-! ## The loops -/

/-- The value behind a key that is read. -/
def field (item : Yaml.Node) (key : String) : Except Exn Yaml.Node := do
  match ← item.sub key with
  | some value => pure value
  | none => throw .invalidNode

def nameOf (item : Yaml.Node) : Except Exn String := do (← field item "name").asString

/-- What the loops over `sf["domains"]` run over.  The first position of a map is
undefined. -/
def rows (sf : Yaml.Node) : Except Exn (List Yaml.Node) := do
  match ← sf.sub "domains" with
  | some (.seq items) => pure items
  | some (.map (_ :: _)) => throw .invalidNode
  | _ => pure []

/-- The loop that changes the entry of a name and stops there; `none` is the `return -1`
in its body. -/
def changeFirst (domainName : String) (change : Yaml.Node → Except Exn (Option Yaml.Node)) :
    List Yaml.Node → Except Exn (Option (List Yaml.Node))
  | [] => pure (some [])
  | item :: items => do
      if (← nameOf item) = domainName then
        pure ((← change item).map fun item => item :: items)
      else pure ((← changeFirst domainName change items).map fun items => item :: items)

/-- The code and the document that is written, or the old one if none is. -/
def changeEntry (domainName : String) (change : Yaml.Node → Except Exn (Option Yaml.Node)) (sf : Yaml.Node) :
    Except Exn (ℤ × Yaml.Node) := do
  match ← changeFirst domainName change (← rows sf) with
  | none => pure (-1, sf)
  | some [] => pure (0, sf.opened)
  | some items => pure (0, ← sf.assign "domains" (.seq items))

/-! ## The writers -/

def saveColoStatus (cs : ColoStatus) (sf : Yaml.Node) : Except Exn (ℤ × Yaml.Node) := do
  let ss : Yaml.Node := .map [
    ("local_status", .scalar (coloNodeStatusToStr cs.localStatus)),
    ("colod_port", ofInt colodPort),
    ("host_ip", .scalar cs.hostIp), ("peer_ip", .scalar cs.peerIp),
    ("host_user", .scalar cs.hostUser), ("peer_user", .scalar cs.peerUser),
    ("host_file_path", .scalar cs.hostFilePath),
    ("peer_file_path", .scalar cs.peerFilePath)]
  pure (0, ← sf.assign "save_status" ss)

def savedNode (ds : ColodDomainStatus) : Yaml.Node :=
  .map [("name", .scalar ds.name), ("path", .scalar ds.configFilePath), ("pid", ofInt (-1)),
    ("status", .scalar "shutoff"), ("colo_enable", ofBool false), ("colo_status", .scalar "none")]

/-- The loop of `save_domain_info` and its flag `redefined`. -/
def redefine (name : String) (dom : Yaml.Node) : List Yaml.Node → Except Exn (Bool × List Yaml.Node)
  | [] => pure (false, [])
  | item :: items => do
      let same := decide ((← nameOf item) = name)
      let (redefined, items) ← redefine name dom items
      pure (same || redefined, (if same then dom else item) :: items)

def saveDomainInfo (ds : ColodDomainStatus) (sf : Yaml.Node) : Except Exn (ℤ × Yaml.Node) := do
  let dom := savedNode ds
  match ← sf.sub "domains" with
  | none => pure (0, ← sf.assign "domains" (.seq [dom]))
  | some .null => pure (0, ← sf.assign "domains" (.seq [dom]))
  | some (.seq items) =>
      let (redefined, items) ← redefine ds.name dom items
      pure (0, ← sf.assign "domains" (.seq (if redefined then items else items ++ [dom])))
  | some _ => pure (-1, sf)

def saveDomainPid (domainName : String) (pid : ℤ) : Yaml.Node → Except Exn (ℤ × Yaml.Node) :=
  changeEntry domainName fun item => do
    let item ← item.assign "pid" (ofInt pid)
    some <$> item.assign "status" (.scalar "running")

def removeDomainPid (domainName : String) (sf : Yaml.Node) : Except Exn (ℤ × Yaml.Node) := do
  match ← sf.sub "domains" with
  | none => pure (-1, sf)
  | some .null => pure (-1, sf)
  | some _ =>
      changeEntry domainName (fun item => do
        let item ← item.assign "pid" (ofInt (-1))
        some <$> item.assign "status" (.scalar "shutoff")) sf

/-- The body shared by `set_domain_colo_enable` and `set_domain_colo_disable`. -/
def ifShutOff (change : Yaml.Node → Except Exn Yaml.Node) (item : Yaml.Node) : Except Exn (Option Yaml.Node) := do
  if (← (← field item "status").asString) = "shutoff" then some <$> change item else pure none

def setDomainColoEnable (domainName : String) (cds : ColoDomainStatus) :
    Yaml.Node → Except Exn (ℤ × Yaml.Node) :=
  changeEntry domainName <| ifShutOff fun item => do
    let item ← item.assign "colo_enable" (ofBool true)
    item.assign "colo_status" (.scalar (coloDomainStatusToStr cds))

def setDomainColoDisable (domainName : String) : Yaml.Node → Except Exn (ℤ × Yaml.Node) :=
  changeEntry domainName <| ifShutOff fun item => item.assign "colo_enable" (ofBool false)

/-- The loop of `vm_undefine`: whether an entry has the name, and the other entries. -/
def keepOthers (domainName : String) : List Yaml.Node → Except Exn (Bool × List Yaml.Node)
  | [] => pure (false, [])
  | item :: items => do
      if domainName = (← nameOf item) then
        let _ ← (← field item "colo_enable").asBool
        let (_, domains) ← keepOthers domainName items
        pure (true, domains)
      else
        let (rm, domains) ← keepOthers domainName items
        pure (rm, item :: domains)

/-- A list to which nothing has been pushed is null. -/
def vmUndefine (domainName : String) (sf : Yaml.Node) : Except Exn (ℤ × Yaml.Node) := do
  let (rm, domains) ← keepOthers domainName (← rows sf)
  if rm then
    pure (0, ← sf.assign "domains" (if domains.isEmpty then .null else .seq domains))
  else pure (0, sf)

/-! ## Documents and tables -/

/-- A row has all its fields, and they read as the entry. -/
structure Reads (item : Yaml.Node) (entry : SaveEntry) : Prop where
  name : (field item "name" >>= Yaml.Node.asString) = .ok entry.name
  path : (field item "path" >>= Yaml.Node.asString) = .ok entry.path
  pid : (field item "pid" >>= Yaml.Node.asInt) = .ok entry.pid
  status : (field item "status" >>= Yaml.Node.asString) = .ok entry.status
  coloEnable : (field item "colo_enable" >>= Yaml.Node.asBool) = .ok entry.coloEnable
  coloStatus : (field item "colo_status" >>= Yaml.Node.asString) = .ok entry.coloStatus

theorem Reads.ofYaml {item : Yaml.Node} {entry : SaveEntry} (h : Reads item entry) :
    SaveEntry.ofYaml item = .ok entry := by
  obtain ⟨name, path, pid, status, coloEnable, coloStatus⟩ := entry
  have hofYaml : SaveEntry.ofYaml item = (do
      let name ← field item "name" >>= Yaml.Node.asString
      let text (key : String) : String := (field item key >>= Yaml.Node.asString).toOption.getD ""
      pure {
        name, path := text "path"
        pid := (field item "pid" >>= Yaml.Node.asInt).toOption.getD (-1), status := text "status"
        coloEnable := (field item "colo_enable" >>= Yaml.Node.asBool).toOption.getD false
        coloStatus := text "colo_status" }) := by
    simp only [bind_assoc]
    rfl
  rw [hofYaml]
  simp only [h.name, h.path, h.pid, h.status, h.coloEnable, h.coloStatus]
  rfl

/-- The document reads as the table. -/
structure Represents (doc : Yaml.Node) (sf : SaveFile) : Prop where
  table : doc.IsTable
  saveStatus : doc.sub "save_status" = .ok sf.saveStatus
  domains : match sf.domains with
    | .null => doc.sub "domains" = .ok none ∨ doc.sub "domains" = .ok (some .null)
    | .seq entries => ∃ items, doc.sub "domains" = .ok (some (.seq items)) ∧
        List.Forall₂ Reads items entries
    | .other => False

theorem represents_empty : Represents .null .empty := ⟨.null, rfl, .inl rfl⟩

theorem mapM_ofYaml {items : List Yaml.Node} {entries : List SaveEntry}
    (h : List.Forall₂ Reads items entries) : items.mapM SaveEntry.ofYaml = .ok entries := by
  induction h with
  | nil => rfl
  | cons hfirst _ ih =>
      rw [List.mapM_cons, hfirst.ofYaml, ih]
      rfl

/-- A represented table is what the system model loads. -/
theorem Represents.ofYaml {doc : Yaml.Node} {sf : SaveFile} (h : Represents doc sf) :
    SaveFile.ofYaml doc = sf := by
  obtain ⟨saveStatus, domains⟩ := sf
  have hstatus := h.saveStatus
  have hdomains := h.domains
  unfold SaveFile.ofYaml
  rw [hstatus]
  cases domains with
  | null =>
      rcases hdomains with hdomains | hdomains
      · rw [hdomains]
        rfl
      · rw [hdomains]
        rfl
  | seq entries =>
      obtain ⟨items, hitems, hreads⟩ := hdomains
      rw [hitems]
      simp only [Except.toOption, Option.join_some, mapM_ofYaml hreads]
  | other => exact hdomains.elim

/-! ## What a row reads after it is changed -/

theorem Reads.table {item : Yaml.Node} {entry : SaveEntry} (h : Reads item entry) :
    item.IsTable := by
  have hname := h.name
  cases item with
  | null => exact .null
  | map fields => exact .map fields
  | scalar text => cases hname
  | seq items => cases hname

theorem exists_assign_row {item : Yaml.Node} (h : item.IsTable) (key : String)
    (value : Yaml.Node) :
    ∃ item', item.assign key value = .ok item' ∧ item'.IsTable ∧
      ∀ other, field item' other = if other = key then .ok value else field item other := by
  obtain ⟨item', hassign, htable, hsub⟩ := h.exists_assign key value
  refine ⟨item', hassign, htable, fun other => ?_⟩
  unfold field
  rw [hsub]
  split <;> rfl

theorem reads_setPid {item : Yaml.Node} {entry : SaveEntry} {pid : ℤ} (h : Reads item entry)
    (hpid : FitsInt pid) (status : String) :
    ∃ item', (do
        let item ← item.assign "pid" (ofInt pid)
        some <$> item.assign "status" (.scalar status)) = (.ok (some item') : Except Exn _) ∧
      Reads item' { entry with pid, status } := by
  obtain ⟨item₁, hassign₁, htable₁, hfield₁⟩ := exists_assign_row h.table "pid" (ofInt pid)
  obtain ⟨item₂, hassign₂, -, hfield₂⟩ := exists_assign_row htable₁ "status" (.scalar status)
  have hint : (ofInt pid).asInt = .ok pid :=
    asInt_ofInt (by have := hpid.1; omega) (by have := hpid.2; omega)
  refine ⟨item₂, by rw [hassign₁]; exact congrArg (some <$> ·) hassign₂, ?_⟩
  constructor
  case name => simpa [hfield₁, hfield₂] using h.name
  case path => simpa [hfield₁, hfield₂] using h.path
  case pid =>
    rw [hfield₂, if_neg (by decide), hfield₁, if_pos rfl]
    exact hint
  case status =>
    rw [hfield₂, if_pos rfl]
    rfl
  case coloEnable => simpa [hfield₁, hfield₂] using h.coloEnable
  case coloStatus => simpa [hfield₁, hfield₂] using h.coloStatus

theorem reads_setEnable {item : Yaml.Node} {entry : SaveEntry} (h : Reads item entry)
    (role : String) :
    ∃ item', (do
        let item ← item.assign "colo_enable" (ofBool true)
        item.assign "colo_status" (.scalar role)) = .ok item' ∧
      Reads item' { entry with coloEnable := true, coloStatus := role } := by
  obtain ⟨item₁, hassign₁, htable₁, hfield₁⟩ :=
    exists_assign_row h.table "colo_enable" (ofBool true)
  obtain ⟨item₂, hassign₂, -, hfield₂⟩ := exists_assign_row htable₁ "colo_status" (.scalar role)
  refine ⟨item₂, by rw [hassign₁]; exact hassign₂, ?_⟩
  constructor
  case name => simpa [hfield₁, hfield₂] using h.name
  case path => simpa [hfield₁, hfield₂] using h.path
  case pid => simpa [hfield₁, hfield₂] using h.pid
  case status => simpa [hfield₁, hfield₂] using h.status
  case coloEnable =>
    rw [hfield₂, if_neg (by decide), hfield₁, if_pos rfl]
    exact asBool_ofBool true
  case coloStatus =>
    rw [hfield₂, if_pos rfl]
    rfl

theorem reads_setDisable {item : Yaml.Node} {entry : SaveEntry} (h : Reads item entry) :
    ∃ item', item.assign "colo_enable" (ofBool false) = .ok item' ∧
      Reads item' { entry with coloEnable := false } := by
  obtain ⟨item', hassign, -, hfield⟩ := exists_assign_row h.table "colo_enable" (ofBool false)
  refine ⟨item', hassign, ?_⟩
  constructor
  case name => simpa [hfield] using h.name
  case path => simpa [hfield] using h.path
  case pid => simpa [hfield] using h.pid
  case status => simpa [hfield] using h.status
  case coloEnable =>
    rw [hfield, if_pos rfl]
    exact asBool_ofBool false
  case coloStatus => simpa [hfield] using h.coloStatus

theorem reads_savedNode (ds : ColodDomainStatus) : Reads (savedNode ds) (savedEntry ds) where
  name := rfl
  path := rfl
  pid := by
    have hfield : field (savedNode ds) "pid" = .ok (ofInt (-1)) := rfl
    rw [hfield]
    exact asInt_ofInt (i := -1) (by decide) (by decide)
  status := rfl
  coloEnable := asBool_ofBool false
  coloStatus := rfl

/-! ## The loops on represented rows -/

section

variable {items : List Yaml.Node} {entries : List SaveEntry} {domainName : String}

/-- A loop whose body changes every entry as `f` does updates the first one of the name. -/
theorem changeFirst_spec (domainName : String)
    {change : Yaml.Node → Except Exn (Option Yaml.Node)} {f : SaveEntry → SaveEntry}
    (may : SaveEntry → Bool)
    (hchange : ∀ item entry, Reads item entry → may entry = true →
      ∃ item', change item = .ok (some item') ∧ Reads item' (f entry))
    (hrefuse : ∀ item entry, Reads item entry → may entry = false → change item = .ok none)
    (h : List.Forall₂ Reads items entries) :
    if (KeyedList.find SaveEntry.name domainName entries).all may then
      ∃ items', changeFirst domainName change items = .ok (some items') ∧
        List.Forall₂ Reads items' (KeyedList.updateFirst SaveEntry.name domainName f entries)
    else changeFirst domainName change items = .ok none := by
  induction h with
  | nil => exact ⟨[], rfl, .nil⟩
  | @cons item entry items entries hfirst hrest ih =>
      have hname : nameOf item = .ok entry.name := hfirst.name
      rw [KeyedList.find_cons, KeyedList.updateFirst]
      simp only [changeFirst, hname]
      by_cases heq : entry.name = domainName
      · rw [if_pos heq, if_pos heq, Option.all_some]
        cases hmay : may entry with
        | true =>
            obtain ⟨item', hitem', hreads⟩ := hchange item entry hfirst hmay
            refine ⟨item' :: items, ?_, .cons hreads hrest⟩
            simp [bind, Except.bind, heq, hitem']
            rfl
        | false =>
            simp [bind, Except.bind, heq, hrefuse item entry hfirst hmay]
            rfl
      · rw [if_neg heq, if_neg heq]
        split
        · rename_i hall
          rw [if_pos hall] at ih
          obtain ⟨items', hitems', hreads⟩ := ih
          refine ⟨item :: items', ?_, .cons hfirst hreads⟩
          simp [bind, Except.bind, heq, hitems']
          rfl
        · rename_i hall
          rw [if_neg hall] at ih
          simp [bind, Except.bind, heq, ih]
          rfl

theorem redefine_spec (ds : ColodDomainStatus) (h : List.Forall₂ Reads items entries) :
    ∃ items', redefine ds.name (savedNode ds) items =
        .ok (entries.any fun entry => decide (entry.name = ds.name), items') ∧
      List.Forall₂ Reads items'
        (KeyedList.replaceAll SaveEntry.name ds.name (savedEntry ds) entries) := by
  induction h with
  | nil => exact ⟨[], rfl, .nil⟩
  | @cons item entry items entries hfirst hrest ih =>
      obtain ⟨items', hitems', hreads⟩ := ih
      have hname : nameOf item = .ok entry.name := hfirst.name
      refine ⟨(if entry.name = ds.name then savedNode ds else item) :: items', ?_, ?_⟩
      · simp [redefine, hname, hitems', bind, Except.bind, pure, Except.pure]
      · rw [KeyedList.replaceAll, List.map_cons]
        refine .cons ?_ hreads
        split
        · exact reads_savedNode ds
        · exact hfirst

theorem keepOthers_spec (domainName : String) (h : List.Forall₂ Reads items entries) :
    ∃ items', keepOthers domainName items =
        .ok (entries.any fun entry => decide (entry.name = domainName), items') ∧
      List.Forall₂ Reads items' (KeyedList.removeAll SaveEntry.name domainName entries) := by
  induction h with
  | nil => exact ⟨[], rfl, .nil⟩
  | @cons item entry items entries hfirst hrest ih =>
      obtain ⟨items', hitems', hreads⟩ := ih
      have hname : nameOf item = .ok entry.name := hfirst.name
      by_cases heq : entry.name = domainName
      · subst heq
        refine ⟨items', ?_, ?_⟩
        · obtain ⟨value, hfield, hbool⟩ := bind_eq_ok.mp hfirst.coloEnable
          simp only [keepOthers, hname, hitems', List.any_cons, bind, Except.bind, hfield, hbool]
          simp
          rfl
        · rw [KeyedList.removeAll, List.filter_cons_of_neg (by simp)]
          exact hreads
      · refine ⟨item :: items', ?_, ?_⟩
        · simp only [keepOthers, hname, hitems', List.any_cons, bind, Except.bind,
            if_neg (Ne.symm heq)]
          simp [heq]
          rfl
        · rw [KeyedList.removeAll, List.filter_cons_of_pos (by simpa using heq)]
          exact .cons hfirst hreads

end

/-! ## The writers on represented documents -/

section

variable {doc : Yaml.Node} {sf : SaveFile}

theorem Represents.entries (h : Represents doc sf) :
    ∃ items, rows doc = .ok items ∧ List.Forall₂ Reads items sf.domains.entries := by
  have hdomains := h.domains
  unfold rows
  cases hsf : sf.domains with
  | null =>
      rw [hsf] at hdomains
      rcases hdomains with hdomains | hdomains
      · exact ⟨[], by rw [hdomains]; rfl, .nil⟩
      · exact ⟨[], by rw [hdomains]; rfl, .nil⟩
  | seq entries =>
      rw [hsf] at hdomains
      obtain ⟨items, hitems, hreads⟩ := hdomains
      exact ⟨items, by rw [hitems]; rfl, hreads⟩
  | other =>
      rw [hsf] at hdomains
      exact hdomains.elim

/-- A list of rows is stored under its key, and the rest of the document stays. -/
theorem Represents.assign (h : Represents doc sf) {items : List Yaml.Node}
    {entries : List SaveEntry} (hreads : List.Forall₂ Reads items entries) :
    ∃ doc', doc.assign "domains" (.seq items) = .ok doc' ∧
      Represents doc' { sf with domains := .seq entries } := by
  obtain ⟨doc', hassign, htable, hsub⟩ := h.table.exists_assign "domains" (.seq items)
  refine ⟨doc', hassign, htable, ?_, items, ?_, hreads⟩
  · rw [hsub, if_neg (by decide)]
    exact h.saveStatus
  · rw [hsub, if_pos rfl]

theorem Represents.opened (h : Represents doc sf) : Represents doc.opened sf := by
  obtain ⟨htable, hsub⟩ := h.table.opened
  have hdomains := h.domains
  exact ⟨htable, (hsub _).trans h.saveStatus, by rw [hsub]; exact hdomains⟩

theorem updateEntry_of_nil {name : String} {f : SaveEntry → SaveEntry}
    (h : sf.domains.entries = []) : sf.updateEntry name f = sf := by
  obtain ⟨saveStatus, domains⟩ := sf
  cases domains with
  | seq entries =>
      obtain rfl : entries = [] := h
      rfl
  | _ => rfl

theorem updateEntry_of_ne_nil (name : String) (f : SaveEntry → SaveEntry)
    (h : sf.domains.entries ≠ []) :
    sf.updateEntry name f =
      { sf with
        domains := .seq (KeyedList.updateFirst SaveEntry.name name f sf.domains.entries) } := by
  obtain ⟨saveStatus, domains⟩ := sf
  cases domains with
  | seq entries => rfl
  | _ => exact absurd rfl h

/-- The functions that change one entry do to the document what they do to the table. -/
theorem changeEntry_spec (h : Represents doc sf) (domainName : String)
    {change : Yaml.Node → Except Exn (Option Yaml.Node)} {f : SaveEntry → SaveEntry}
    (may : SaveEntry → Bool)
    (hchange : ∀ item entry, Reads item entry → may entry = true →
      ∃ item', change item = .ok (some item') ∧ Reads item' (f entry))
    (hrefuse : ∀ item entry, Reads item entry → may entry = false → change item = .ok none) :
    if (sf.find domainName).all may then
      ∃ doc', changeEntry domainName change doc = .ok (0, doc') ∧
        Represents doc' (sf.updateEntry domainName f)
    else changeEntry domainName change doc = .ok (-1, doc) := by
  obtain ⟨items, hrows, hreads⟩ := h.entries
  have hspec := changeFirst_spec domainName may hchange hrefuse hreads
  unfold SaveFile.find
  split
  · rename_i hall
    rw [if_pos hall] at hspec
    obtain ⟨items', hitems', hreads'⟩ := hspec
    cases items' with
    | nil =>
        have hempty := KeyedList.updateFirst_eq_nil_iff.mp (List.forall₂_nil_left_iff.mp hreads')
        refine ⟨doc.opened, ?_, ?_⟩
        · simp [changeEntry, hrows, hitems', bind, Except.bind, pure, Except.pure]
        · rw [updateEntry_of_nil hempty]
          exact h.opened
    | cons item items' =>
        have hne : sf.domains.entries ≠ [] := by
          intro hempty
          rw [KeyedList.updateFirst_eq_nil_iff.mpr hempty] at hreads'
          cases hreads'
        obtain ⟨doc', hassign, hdoc'⟩ := h.assign hreads'
        refine ⟨doc', ?_, ?_⟩
        · simp [changeEntry, hrows, hitems', hassign, bind, Except.bind, pure, Except.pure]
        · rw [updateEntry_of_ne_nil domainName f hne]
          exact hdoc'
  · rename_i hall
    rw [if_neg hall] at hspec
    simp [changeEntry, hrows, hspec, bind, Except.bind, pure, Except.pure]

theorem updateEntry_of_find_eq_none {name : String} {f : SaveEntry → SaveEntry}
    (h : sf.find name = none) : sf.updateEntry name f = sf := by
  obtain ⟨saveStatus, domains⟩ := sf
  have hsame : KeyedList.updateFirst SaveEntry.name name f domains.entries = domains.entries :=
    KeyedList.updateFirst_eq_self (KeyedList.find_eq_none_iff.mp h)
  cases domains with
  | seq entries => exact congrArg (SaveFile.mk saveStatus ∘ DomainsNode.seq) hsame
  | _ => rfl

theorem saveColoStatus_spec (h : Represents doc sf) (cs : ColoStatus) :
    ∃ doc', saveColoStatus cs doc = .ok (0, doc') ∧
      Represents doc' (ColoManage.saveColoStatus cs sf) := by
  obtain ⟨doc', hassign, htable, hsub⟩ := h.table.exists_assign "save_status" _
  refine ⟨doc', by rw [saveColoStatus, hassign]; rfl, htable, ?_, ?_⟩
  · rw [hsub, if_pos rfl]
    rfl
  · rw [hsub, if_neg (by decide)]
    exact h.domains

theorem saveDomainInfo_spec (h : Represents doc sf) (ds : ColodDomainStatus) :
    ∃ doc' sf', saveDomainInfo ds doc = .ok (0, doc') ∧
      ColoManage.saveDomainInfo ds sf = .ok sf' ∧ Represents doc' sf' := by
  have hdomains := h.domains
  have hone : List.Forall₂ Reads [savedNode ds] [savedEntry ds] :=
    .cons (reads_savedNode ds) .nil
  unfold saveDomainInfo ColoManage.saveDomainInfo
  cases hsf : sf.domains with
  | null =>
      obtain ⟨doc', hassign, hdoc'⟩ := h.assign hone
      rw [hsf] at hdomains
      refine ⟨doc', _, ?_, rfl, hdoc'⟩
      rcases hdomains with hdomains | hdomains
      · simp [hdomains, hassign, bind, Except.bind, pure, Except.pure]
      · simp [hdomains, hassign, bind, Except.bind, pure, Except.pure]
  | seq entries =>
      rw [hsf] at hdomains
      obtain ⟨items, hitems, hreads⟩ := hdomains
      obtain ⟨items', hredefine, hreads'⟩ := redefine_spec ds hreads
      have hupsert : List.Forall₂ Reads
          (if entries.any fun entry => decide (entry.name = ds.name) then items'
            else items' ++ [savedNode ds])
          (KeyedList.upsert SaveEntry.name (savedEntry ds) entries) := by
        show List.Forall₂ Reads _ (if entries.any fun entry => decide (entry.name = ds.name) then
          KeyedList.replaceAll SaveEntry.name ds.name (savedEntry ds) entries
          else entries ++ [savedEntry ds])
        split
        · exact hreads'
        · rename_i hany
          rw [KeyedList.replaceAll_eq_self (mt KeyedList.any_key_iff.mpr hany)] at hreads'
          exact List.rel_append hreads' hone
      obtain ⟨doc', hassign, hdoc'⟩ := h.assign hupsert
      refine ⟨doc', _, ?_, rfl, hdoc'⟩
      simp only [hitems, hredefine, hassign, bind, Except.bind, pure, Except.pure]
  | other =>
      rw [hsf] at hdomains
      exact hdomains.elim

theorem saveDomainPid_spec (h : Represents doc sf) (domainName : String) {pid : ℤ}
    (hpid : FitsInt pid) :
    ∃ doc', saveDomainPid domainName pid doc = .ok (0, doc') ∧
      Represents doc' (ColoManage.saveDomainPid domainName pid sf) := by
  have hspec := changeEntry_spec h domainName (fun _ => true)
    (fun item entry hreads _ => reads_setPid hreads hpid "running") (by simp)
  rwa [if_pos (by cases sf.find domainName <;> rfl)] at hspec

theorem removeDomainPid_spec (h : Represents doc sf) (domainName : String) :
    ∃ doc', removeDomainPid domainName doc =
        .ok ((ColoManage.removeDomainPid domainName sf).1, doc') ∧
      Represents doc' (ColoManage.removeDomainPid domainName sf).2 := by
  have hdomains := h.domains
  unfold removeDomainPid ColoManage.removeDomainPid
  cases hsf : sf.domains with
  | null =>
      rw [hsf] at hdomains
      refine ⟨doc, ?_, h⟩
      rcases hdomains with hdomains | hdomains
      · simp [hdomains, bind, Except.bind, pure, Except.pure]
      · simp [hdomains, bind, Except.bind, pure, Except.pure]
  | seq entries =>
      rw [hsf] at hdomains
      obtain ⟨items, hitems, -⟩ := hdomains
      have hfits : FitsInt (-1) := ⟨by decide, by decide⟩
      have hspec := changeEntry_spec h domainName (fun _ => true)
        (fun item entry hreads _ => reads_setPid hreads hfits "shutoff") (by simp)
      rw [if_pos (by cases sf.find domainName <;> rfl)] at hspec
      obtain ⟨doc', hdoc', hrep⟩ := hspec
      exact ⟨doc', by rw [hitems]; exact hdoc', hrep⟩
  | other =>
      rw [hsf] at hdomains
      exact hdomains.elim

/-- A change of a row that is shut off. -/
theorem setShutOff_spec (h : Represents doc sf) (domainName : String)
    {change : Yaml.Node → Except Exn Yaml.Node} {f : SaveEntry → SaveEntry}
    (hchange : ∀ item entry, Reads item entry →
      ∃ item', change item = .ok item' ∧ Reads item' (f entry)) :
    ∃ doc', changeEntry domainName (ifShutOff change) doc =
        .ok ((setShutOffEntry domainName f sf).1, doc') ∧
      Represents doc' (setShutOffEntry domainName f sf).2 := by
  have hstatus : ∀ item entry, Reads item entry → ifShutOff change item =
      if entry.status = "shutoff" then some <$> change item else .ok none := by
    intro item entry hreads
    obtain ⟨value, hfield, hstring⟩ := bind_eq_ok.mp hreads.status
    simp only [ifShutOff, hfield, hstring, bind, Except.bind]
    rfl
  have hallowed : ∀ item entry, Reads item entry → decide (entry.status = "shutoff") = true →
      ∃ item', ifShutOff change item = .ok (some item') ∧ Reads item' (f entry) := by
    intro item entry hreads hmay
    obtain ⟨item', hitem', hreads'⟩ := hchange item entry hreads
    rw [hstatus item entry hreads, if_pos (of_decide_eq_true hmay), hitem']
    exact ⟨item', rfl, hreads'⟩
  have hrefused : ∀ item entry, Reads item entry → decide (entry.status = "shutoff") = false →
      ifShutOff change item = .ok none := by
    intro item entry hreads hmay
    rw [hstatus item entry hreads, if_neg (of_decide_eq_false hmay)]
  have hspec := changeEntry_spec h domainName _ hallowed hrefused
  unfold setShutOffEntry
  cases hfind : sf.find domainName with
  | none =>
      rw [hfind, Option.all_none, if_pos rfl, updateEntry_of_find_eq_none hfind] at hspec
      exact hspec
  | some entry =>
      rw [hfind, Option.all_some] at hspec
      by_cases hoff : entry.status = "shutoff"
      · rw [if_pos (by simpa using hoff)] at hspec
        simpa [hoff] using hspec
      · rw [if_neg (by simpa using hoff)] at hspec
        refine ⟨doc, ?_, ?_⟩
        · simpa [hoff] using hspec
        · simpa [hoff] using h

theorem vmUndefine_spec (h : Represents doc sf) (domainName : String) :
    ∃ doc', vmUndefine domainName doc = .ok (0, doc') ∧
      Represents doc' (ColoManage.vmUndefine domainName sf) := by
  obtain ⟨items, hrows, hreads⟩ := h.entries
  obtain ⟨items', hkeep, hreads'⟩ := keepOthers_spec domainName hreads
  unfold vmUndefine ColoManage.vmUndefine
  cases hany : sf.domains.entries.any fun entry => decide (entry.name = domainName) with
  | false =>
      rw [hany] at hkeep
      exact ⟨doc, by simp [hrows, hkeep, bind, Except.bind, pure, Except.pure], h⟩
  | true =>
      rw [hany] at hkeep
      rw [if_pos rfl]
      generalize KeyedList.removeAll SaveEntry.name domainName sf.domains.entries = entries
        at hreads' ⊢
      cases hreads' with
      | nil =>
          obtain ⟨doc', hassign, htable, hsub⟩ := h.table.exists_assign "domains" .null
          refine ⟨doc', ?_, htable, ?_, ?_⟩
          · simp [hrows, hkeep, hassign, bind, Except.bind, pure, Except.pure]
          · rw [hsub, if_neg (by decide)]
            exact h.saveStatus
          · exact .inr (by rw [hsub, if_pos rfl])
      | cons hfirst hrest =>
          obtain ⟨doc', hassign, hdoc'⟩ := h.assign (.cons hfirst hrest)
          refine ⟨doc', ?_, hdoc'⟩
          simp [hrows, hkeep, hassign, bind, Except.bind, pure, Except.pure]

end

/-! ## Every sequence of writes -/

/-- The calls that write the save file. -/
inductive SaveCall
  | saveStatus (cs : ColoStatus)
  | saveInfo (ds : ColodDomainStatus)
  | savePid (domainName : String) (pid : ℤ)
  | removePid (domainName : String)
  | setEnable (domainName : String) (cds : ColoDomainStatus)
  | setDisable (domainName : String)
  | undefine (domainName : String)

namespace SaveCall

def write : SaveCall → Yaml.Node → Except Exn (ℤ × Yaml.Node)
  | .saveStatus cs => saveColoStatus cs
  | .saveInfo ds => saveDomainInfo ds
  | .savePid domainName pid => saveDomainPid domainName pid
  | .removePid domainName => removeDomainPid domainName
  | .setEnable domainName cds => setDomainColoEnable domainName cds
  | .setDisable domainName => setDomainColoDisable domainName
  | .undefine domainName => vmUndefine domainName

/-- The counterpart of the system model, with the code that its callers read. -/
def apply : SaveCall → SaveFile → ℤ × SaveFile
  | .saveStatus cs, sf => (0, ColoManage.saveColoStatus cs sf)
  | .saveInfo ds, sf =>
      match ColoManage.saveDomainInfo ds sf with
      | .ok sf => (0, sf)
      | .error _ => (-1, sf)
  | .savePid domainName pid, sf => (0, ColoManage.saveDomainPid domainName pid sf)
  | .removePid domainName, sf => ColoManage.removeDomainPid domainName sf
  | .setEnable domainName cds, sf => ColoManage.setDomainColoEnable domainName cds sf
  | .setDisable domainName, sf => ColoManage.setDomainColoDisable domainName sf
  | .undefine domainName, sf => (0, ColoManage.vmUndefine domainName sf)

/-- A pid is an `int`. -/
def Fits : SaveCall → Prop
  | .savePid _ pid => FitsInt pid
  | _ => True

theorem write_spec {call : SaveCall} (hfits : call.Fits) {doc : Yaml.Node} {sf : SaveFile}
    (h : Represents doc sf) :
    ∃ doc', call.write doc = .ok ((call.apply sf).1, doc') ∧ Represents doc' (call.apply sf).2 := by
  cases call with
  | saveStatus cs => exact saveColoStatus_spec h cs
  | saveInfo ds =>
      obtain ⟨doc', sf', hwrite, happly, hdoc'⟩ := saveDomainInfo_spec h ds
      refine ⟨doc', ?_, ?_⟩
      · simpa [apply, write, happly] using hwrite
      · simpa [apply, happly] using hdoc'
  | savePid domainName pid => exact saveDomainPid_spec h domainName hfits
  | removePid domainName => exact removeDomainPid_spec h domainName
  | setEnable domainName cds =>
      exact setShutOff_spec h domainName fun item entry hreads =>
        reads_setEnable hreads (coloDomainStatusToStr cds)
  | setDisable domainName =>
      exact setShutOff_spec h domainName fun item entry hreads => reads_setDisable hreads
  | undefine domainName => exact vmUndefine_spec h domainName

end SaveCall

/-- The codes of the calls and the document after them. -/
def writeAll : List SaveCall → Yaml.Node → Except Exn (List ℤ × Yaml.Node)
  | [], doc => pure ([], doc)
  | call :: calls, doc => do
      let (code, doc) ← call.write doc
      let (codes, doc) ← writeAll calls doc
      pure (code :: codes, doc)

def applyAll : List SaveCall → SaveFile → List ℤ × SaveFile
  | [], sf => ([], sf)
  | call :: calls, sf =>
      let rest := applyAll calls (call.apply sf).2
      ((call.apply sf).1 :: rest.1, rest.2)

/-- Whatever is written, in whatever order, no call throws, each returns what the table
says, and the document loads as the table. -/
theorem writeAll_spec {calls : List SaveCall} (hfits : ∀ call ∈ calls, call.Fits) {doc : Yaml.Node}
    {sf : SaveFile} (h : Represents doc sf) :
    ∃ doc', writeAll calls doc = .ok ((applyAll calls sf).1, doc') ∧
      Represents doc' (applyAll calls sf).2 := by
  induction calls generalizing doc sf with
  | nil => exact ⟨doc, rfl, h⟩
  | cons call calls ih =>
      obtain ⟨hcall, hcalls⟩ := List.forall_mem_cons.mp hfits
      obtain ⟨doc₁, hwrite, hdoc₁⟩ := SaveCall.write_spec hcall h
      obtain ⟨doc₂, hrest, hdoc₂⟩ := ih hcalls hdoc₁
      refine ⟨doc₂, ?_, hdoc₂⟩
      simp only [writeAll, hwrite, bind, Except.bind, hrest]
      rfl

end SaveDocument

end ColoManage
