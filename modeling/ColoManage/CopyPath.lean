import ColoManage.DefineHonest
import ColoManage.DefinePaths
import ColoManage.EnableAtomic
import ColoManage.EnableCommand

/-!
# The path that the peer records

The tool copies a definition to the directory `peer_file_path` of the save file.
colod then sends the path in its own record of the domain: the one that `define`
made from the caller's `host_file_path`, or none after a restart, because
`domains_init` does not read it.  The peer stores what it is sent, and after a timeout
nothing is sent.
-/

namespace ColoManage

open Resumption Forking

/-! ## The copy -/

/-- The last component of a path. -/
def baseName (path : String) : String :=
  String.ofList (path.toList.reverse.takeWhile fun c => decide (c ≠ '/')).reverse

/-- Where `scp` places the definition on the peer. -/
def Lookups.copyPath {domainName : String} {nd : Node} (found : Lookups domainName nd) : String :=
  found.status.peerFilePath ++ baseName found.path

/-- The peer once a file is copied to it. -/
def Node.receives (path : String) (doc : Yaml.Node) (peer : Node) : Node :=
  match peer.paths.resolve path with
  | none => peer
  | some file => peer.writeFile file doc

/-- The `colo-enable` of the tool once the definition is copied. -/
def enableCopied (env : Env) (fate : Fate) (late : Option ColodRetVal)
    (meanwhile : List OsEvent) (domainName path : String) (doc : Yaml.Node) (nd peer : Node) :
    Outcome Node ColodRetVal × Node :=
  (handle env (Request.coloEnable domainName).wire nd).exec (serveAttempt fate late meanwhile)
    (peer.receives path doc)

/-- The peer has the path of the copy on record, and `get_domain` loads the copy. -/
structure RecordsCopy (path : String) (doc : Yaml.Node) (domainName : String) (peer : Node) :
    Prop where
  recorded : peer.recordedPath domainName = some path
  loads : ∀ loaded ∈ domainDocs domainName peer, loaded = some doc

/-- The path names a file that is not the save file. -/
def Node.Places (path : String) (nd : Node) : Prop :=
  ∃ file, nd.paths.resolve path = some file ∧ file ≠ defaultSaveFile

/-- The caller sends its record, and the record is about the domain and has the path of the
copy, which is not the path of the save file.  A call that is not sent, or is about another
domain, leaves what the peer has on this one. -/
def SendsCopyPath (path : String) (doc : Yaml.Node) (domainName : String) (nd peer : Node) : Prop :=
  if nd.remoteClient.sends = true ∧ wireString (nd.dom (wireString domainName)).name = domainName
  then wireString (nd.dom (wireString domainName)).configFilePath = path ∧ peer.Places path
  else RecordsCopy path doc domainName (peer.receives path doc)

variable {env : Env} {fate : Fate} {late : Option ColodRetVal} {meanwhile : List OsEvent}
  {domainName path : String} {doc : Yaml.Node} {nd nd' peer peer' : Node} {ret : ColodRetVal}

/-- The loop parses one document, once or more often. -/
theorem getDomainLoop_of_same {load : String → Option Yaml.Node} {entries : List SaveEntry}
    (hload : ∀ entry ∈ entries, entry.name = domainName → load entry.path = some doc)
    (hmem : domainName ∈ entries.map SaveEntry.name) (found : Option Domain) :
    getDomainLoop load domainName entries found = vmConfigParse doc := by
  induction entries generalizing found with
  | nil => simp at hmem
  | cons entry entries ih =>
      have hrest : ∀ e ∈ entries, e.name = domainName → load e.path = some doc :=
        fun e he => hload e (List.mem_cons_of_mem entry he)
      by_cases hname : entry.name = domainName
      · simp only [getDomainLoop, if_pos hname, hload entry List.mem_cons_self hname]
        cases hparse : vmConfigParse doc with
        | error stop => rfl
        | ok d =>
            by_cases hlast : domainName ∈ entries.map SaveEntry.name
            · exact (ih hrest hlast (some d)).trans hparse
            · exact getDomainLoop_of_not_mem load hlast (some d)
      · rw [List.map_cons, List.mem_cons] at hmem
        simp only [getDomainLoop, if_neg hname]
        exact ih hrest (hmem.resolve_left (Ne.symm hname)) found

theorem RecordsCopy.getDomain (h : RecordsCopy path doc domainName peer) :
    peer.getDomain domainName = vmConfigParse doc := by
  obtain ⟨entry, hfind, -⟩ := find_of_recordedPath h.recorded
  have hload : ∀ entry ∈ peer.save.domains.entries, entry.name = domainName →
      peer.loadFile entry.path = some doc := by
    intro entry hentry hname
    refine h.loads _ (List.mem_map.mpr ⟨entry, ?_, rfl⟩)
    simpa [hname] using hentry
  have hmem : domainName ∈ peer.save.domains.entries.map SaveEntry.name :=
    KeyedList.isSome_find_iff.mp (Option.isSome_of_eq_some hfind)
  exact getDomainLoop_of_same hload hmem none

/-! ## The lookups of the tool -/

/-- A loop that ends well has parsed each document of the name. -/
theorem parses_of_getDomainLoop {load : String → Option Yaml.Node} {entries : List SaveEntry}
    {start : Option Domain} {d : Domain} {entry : SaveEntry}
    (h : getDomainLoop load domainName entries start = .ok d)
    (hfind : KeyedList.find SaveEntry.name domainName entries = some entry)
    (hdoc : load entry.path = some doc) : ∃ d, vmConfigParse doc = .ok d := by
  induction entries with
  | nil => simp at hfind
  | cons first entries ih =>
      rw [KeyedList.find_cons] at hfind
      by_cases hname : first.name = domainName
      · rw [if_pos hname, Option.some.injEq] at hfind
        subst hfind
        simp only [getDomainLoop, if_pos hname, hdoc] at h
        cases hparse : vmConfigParse doc with
        | error stop => simp [hparse] at h
        | ok parsed => exact ⟨parsed, rfl⟩
      · rw [if_neg hname] at hfind
        simp only [getDomainLoop, if_neg hname] at h
        exact ih h hfind

/-- The definition that is copied is complete. -/
theorem Lookups.parses (found : Lookups domainName nd) (hdoc : nd.loadFile found.path = some doc) :
    ∃ d, vmConfigParse doc = .ok d := by
  obtain ⟨entry, hfind, hpath⟩ := Option.map_eq_some_iff.mp found.getPath
  have hget := found.getDomain
  rw [hpath.symm] at hdoc
  exact parses_of_getDomainLoop hget hfind hdoc

/-! ## What the peer stores -/

/-- The entries of the saved name have its path, the others are as they were. -/
structure Stores (ds : ColodDomainStatus) (peer peer' : Node) : Prop where
  paths : peer'.paths = peer.paths
  files : peer'.files = peer.files
  found : (peer'.save.find ds.name).map SaveEntry.path = some ds.configFilePath
  own : ∀ entry ∈ peer'.save.domains.entries, entry.name = ds.name →
    entry.path = ds.configFilePath
  others : ∀ name, name ≠ ds.name →
    (peer'.save.domains.entries.filter fun entry => decide (entry.name = name)) =
      peer.save.domains.entries.filter fun entry => decide (entry.name = name)

theorem stores_of_peerSaveDomain {ds : ColodDomainStatus}
    (hrun : runPeer env (.peerSaveDomain ds) peer = .returned ret peer') (hcode : 0 ≤ ret.code) :
    Stores ds peer peer' := by
  rcases saveDomainInfo_cases (mirrorDomain ds) peer.save with ⟨-, hsave⟩ | ⟨-, sf, hsave⟩
  · have hrefused : runPeer env (.peerSaveDomain ds) peer =
        .returned ⟨-1, "wrong format in save file."⟩ peer := by
      simp [runPeer, handle, peerColodSaveDomain, hsave, Act.follow]
    rw [hrefused] at hrun
    cases hrun
    exact absurd hcode (by decide)
  · rw [runPeer_peerSaveDomain_saved hsave] at hrun
    cases hrun
    let f : SaveEntry → SaveEntry := fun entry =>
      { entry with
        coloEnable := true
        coloStatus := coloDomainStatusToStr (mirrorDomain ds).coloStatus }
    have hentries : (sf.updateEntry ds.name f).domains.entries =
        KeyedList.updateFirst SaveEntry.name ds.name f
          (KeyedList.upsert SaveEntry.name (savedEntry (mirrorDomain ds))
            peer.save.domains.entries) := by
      rw [entries_updateEntry, entries_saveDomainInfo hsave]
    have hsaved : (savedEntry (mirrorDomain ds)).name = ds.name := mirrorDomain_name ds
    refine ⟨rfl, rfl, ?_, ?_, ?_⟩
    · show ((sf.updateEntry ds.name f).find ds.name).map SaveEntry.path = _
      rw [find_updateEntry (by intro entry; rfl), if_pos rfl, find_saveDomainInfo hsave]
      simp [f, savedEntry]
    · show ∀ entry ∈ (sf.updateEntry ds.name f).domains.entries, _
      rw [hentries]
      intro entry hentry hname
      have hpath : ∀ saved ∈ KeyedList.upsert SaveEntry.name (savedEntry (mirrorDomain ds))
          peer.save.domains.entries, saved.name = ds.name → saved.path = ds.configFilePath := by
        intro saved hmem hsavedName
        rw [KeyedList.eq_of_mem_upsert hmem (hsavedName.trans hsaved.symm)]
        exact mirrorDomain_configFilePath ds
      rcases KeyedList.mem_updateFirst hentry with hold | ⟨old, hold, holdName, rfl⟩
      · exact hpath entry hold hname
      · exact hpath old hold holdName
    · intro name hne
      show (sf.updateEntry ds.name f).domains.entries.filter _ = _
      rw [hentries, KeyedList.filter_key_updateFirst (by intro entry; rfl) hne,
        KeyedList.filter_key_upsert (by rw [hsaved]; exact hne)]

theorem answered_of_enabled {answer : ColodRetVal}
    (hrun : (enableAnswered domainName (.answer answer) nd).exec (serveAttempt fate late meanwhile)
      peer = (.returned ret nd', peer'))
    (hcode : 0 ≤ ret.code) : 0 ≤ answer.code ∧ peer' = peer := by
  unfold enableAnswered at hrun
  rw [if_neg (by simp [ValueT.answer])] at hrun
  split at hrun
  · cases hrun
    exact absurd hcode (show ¬ 0 ≤ (-1 : ℤ) by decide)
  · rename_i hanswer
    have hpositive : 0 ≤ answer.code := not_lt.mp hanswer
    dsimp only at hrun
    split at hrun
    · cases hrun
      exact absurd hcode (by decide)
    · cases hrun
      exact ⟨hpositive, rfl⟩

/-- A command that succeeds has had the peer save the record, or has sent nothing and taken
the reply to an earlier call. -/
theorem stores_of_enabled
    (hrun : (colodColoEnable env domainName nd).exec (serveAttempt fate late meanwhile) peer =
      (.returned ret nd', peer'))
    (hcode : 0 ≤ ret.code) :
    (nd.remoteClient.sends = true ∧ ∃ ds, ds.name = wireString (nd.dom domainName).name ∧
        ds.configFilePath = wireString (nd.dom domainName).configFilePath ∧
          Stores ds peer peer') ∨
      (nd.remoteClient.sends = false ∧ peer' = peer) := by
  unfold colodColoEnable at hrun
  split at hrun
  · cases hrun
    exact absurd hcode (by decide)
  · generalize hnd₁ : (nd.modDom domainName fun record =>
      { record with
        coloEnable := true
        coloStatus := enabledRole nd.currentStatus.localStatus record.coloStatus }) = nd₁ at hrun
    have hrecord : nd₁.dom domainName =
        { nd.dom domainName with
          coloEnable := true
          coloStatus := enabledRole nd.currentStatus.localStatus
            (nd.dom domainName).coloStatus } := by
      rw [← hnd₁]
      exact Node.dom_modDom_self domainName _ nd
    have hclient : nd₁.remoteClient = nd.remoteClient := by
      rw [← hnd₁]
      rfl
    have hcall : ∀ nd₂ : Node, nd₂.domains = nd₁.domains →
        nd₂.remoteClient.sends = nd.remoteClient.sends →
        (nd₂.remoteCall (.peerSaveDomain (nd₂.dom domainName))
          (enableAnswered domainName)).exec (serveAttempt fate late meanwhile) peer =
            (.returned ret nd', peer') →
        (nd.remoteClient.sends = true ∧ ∃ ds, ds.name = wireString (nd.dom domainName).name ∧
            ds.configFilePath = wireString (nd.dom domainName).configFilePath ∧
              Stores ds peer peer') ∨
          (nd.remoteClient.sends = false ∧ peer' = peer) := by
      intro nd₂ hdomains hsends hrun
      have hdom : nd₂.dom domainName = nd₁.dom domainName := by
        unfold Node.dom
        rw [hdomains]
      rw [← hsends]
      rcases attempt_cases hrun with
        ⟨nd₃, peer₁, hrun⟩ | ⟨hsent, env, answer, nd₃, peer₁, hpeer, hrun⟩ |
          ⟨hunsent, answer, nd₃, hrun⟩
      · cases hrun
        exact absurd hcode (by decide)
      · obtain ⟨hanswer, rfl⟩ := answered_of_enabled hrun hcode
        refine .inl ⟨hsent, (nd₂.dom domainName).wire, ?_, ?_, ?_⟩
        · rw [hdom, hrecord]
          rfl
        · rw [hdom, hrecord]
          rfl
        · exact stores_of_peerSaveDomain hpeer hanswer
      · exact .inr ⟨hunsent, (answered_of_enabled hrun hcode).2⟩
    dsimp only at hrun
    rcases Node.ensureRemoteClient_cases env nd₁ with hensure | ⟨-, hensure⟩ | ⟨-, hensure⟩
    · rw [hensure] at hrun
      cases hrun
    · rw [hensure] at hrun
      exact hcall nd₁ rfl (congrArg Buttonrpc.sends hclient) hrun
    · rw [hensure] at hrun
      refine hcall (nd₁.withSocket nd₁.currentStatus.peerIp) rfl ?_ hrun
      rw [← hclient]
      rfl

theorem loadFile_eq_some_iff (hsave : ∀ sf : SaveFile, sf.toYaml ≠ doc) (nd : Node)
    (other : String) :
    nd.loadFile other = some doc ↔
      ∃ file, nd.paths.resolve other = some file ∧ file ≠ defaultSaveFile ∧
        nd.files file = some doc := by
  constructor
  · intro h
    unfold Node.loadFile at h
    cases hfile : nd.paths.resolve other with
    | none => simp [hfile] at h
    | some file =>
        by_cases hdefault : file = defaultSaveFile
        · simp only [hfile, hdefault, if_true, Option.some.injEq] at h
          exact absurd h (hsave nd.save)
        · simp only [hfile, if_neg hdefault] at h
          exact ⟨file, rfl, hdefault, h⟩
  · rintro ⟨file, hfile, hdefault, hdoc⟩
    exact (Node.loadFile_of_resolve hfile hdefault).trans hdoc

theorem paths_receives (path : String) (doc : Yaml.Node) (peer : Node) :
    (peer.receives path doc).paths = peer.paths := by
  unfold Node.receives
  split
  · rfl
  · exact Node.paths_writeFile _ doc peer

theorem Stores.recordsCopy_own {ds : ColodDomainStatus}
    (h : Stores ds (peer.receives path doc) peer') (hsave : ∀ sf : SaveFile, sf.toYaml ≠ doc) :
    RecordsCopy path doc ds.name peer' ↔ ds.configFilePath = path ∧ peer.Places path := by
  have hrecorded : peer'.recordedPath ds.name = some ds.configFilePath := h.found
  have hpaths : peer'.paths = peer.paths := h.paths.trans (paths_receives path doc peer)
  constructor
  · intro hcopy
    have hpath : ds.configFilePath = path := by
      rw [hcopy.recorded] at hrecorded
      exact (Option.some.inj hrecorded).symm
    obtain ⟨entry, hfind, hentry⟩ := find_of_recordedPath hcopy.recorded
    have hname : entry.name = ds.name := by simpa using List.find?_some hfind
    have hloaded : peer'.loadFile entry.path = some doc := by
      refine hcopy.loads _ (List.mem_map.mpr ⟨entry, ?_, rfl⟩)
      exact List.mem_filter.mpr ⟨List.mem_of_find?_eq_some hfind, by simpa using hname⟩
    rw [hentry] at hloaded
    obtain ⟨file, hfile, hdefault, -⟩ := (loadFile_eq_some_iff hsave peer' path).mp hloaded
    exact ⟨hpath, file, hpaths ▸ hfile, hdefault⟩
  · rintro ⟨hpath, file, hfile, hdefault⟩
    refine ⟨hrecorded.trans (congrArg some hpath), ?_⟩
    intro loaded hloaded
    obtain ⟨entry, hentry, rfl⟩ := List.mem_map.mp hloaded
    rw [List.mem_filter, decide_eq_true_eq] at hentry
    rw [h.own entry hentry.1 hentry.2, hpath, loadFile_eq_some_iff hsave, hpaths, h.files]
    exact ⟨file, hfile, hdefault, by simp [Node.receives, hfile, Node.writeFile, hdefault]⟩

/-- What the peer has on another domain stays. -/
theorem Stores.recordsCopy_other {ds : ColodDomainStatus} (h : Stores ds peer peer')
    (hsave : ∀ sf : SaveFile, sf.toYaml ≠ doc) (hne : domainName ≠ ds.name) :
    RecordsCopy path doc domainName peer' ↔ RecordsCopy path doc domainName peer := by
  have hfind : ∀ nd : Node, nd.recordedPath domainName =
      (nd.save.domains.entries.filter fun entry =>
        decide (entry.name = domainName)).head?.map SaveEntry.path := by
    intro nd
    rw [List.head?_filter]
    rfl
  have hload : ∀ other, peer'.loadFile other = some doc ↔ peer.loadFile other = some doc := by
    intro other
    rw [loadFile_eq_some_iff hsave, loadFile_eq_some_iff hsave, h.paths, h.files]
  have hrecorded : peer'.recordedPath domainName = peer.recordedPath domainName := by
    rw [hfind, hfind, h.others domainName hne]
  have hloads : (∀ loaded ∈ domainDocs domainName peer', loaded = some doc) ↔
      ∀ loaded ∈ domainDocs domainName peer, loaded = some doc := by
    unfold domainDocs
    rw [List.forall_mem_map, List.forall_mem_map, h.others domainName hne]
    simp only [hload]
  constructor
  · exact fun hcopy => ⟨hrecorded.symm.trans hcopy.recorded, hloads.mp hcopy.loads⟩
  · exact fun hcopy => ⟨hrecorded.trans hcopy.recorded, hloads.mpr hcopy.loads⟩

theorem mem_domainsInit {entries : List SaveEntry} {domains : Domains}
    (h : domainName ∈ entries.map SaveEntry.name ∨ domainName ∈ domains) :
    domainName ∈ entries.foldl
      (fun domains entry => domains.insert entry.name (loadedRecord entry)) domains := by
  induction entries generalizing domains with
  | nil => exact h.resolve_left (by simp)
  | cons entry entries ih =>
      refine ih ?_
      rw [List.map_cons, List.mem_cons] at h
      rw [AList.mem_insert]
      rcases h with (hname | hlater) | hmem
      · exact .inr (.inl hname)
      · exact .inl hlater
      · exact .inr (.inr hmem)

/-- After a restart the record of a domain has no path. -/
theorem not_sendsCopyPath_restarted (hmem : domainName ∈ nd.save.names)
    (hlength : domainName.length < 65536) (hpath : path ≠ "") :
    ¬ SendsCopyPath path doc domainName nd.rsInit peer := by
  have hloaded : domainName ∈ domainsInit nd.save ∅ := mem_domainsInit (.inl hmem)
  obtain ⟨ds, hds⟩ := Option.isSome_iff_exists.mp (AList.lookup_isSome.mpr hloaded)
  obtain ⟨entry, -, hname, rfl⟩ := entry_of_lookup_domainsInit hds
  have hdom : nd.rsInit.dom (wireString domainName) = loadedRecord entry := by
    rw [wireString_of_lt hlength]
    exact Node.dom_eq_of_lookup hds
  have hwired : wireString (loadedRecord entry).name = domainName := by
    show wireString entry.name = domainName
    rw [hname, wireString_of_lt hlength]
  unfold SendsCopyPath
  rw [hdom, if_pos ⟨rfl, hwired⟩]
  rintro ⟨hempty, -⟩
  exact hpath hempty.symm

/-- A node that has connected with this `host_file_path`, and `/vm/` as
`peer_file_path`, and then defined a domain. -/
def definedUnder (hostFilePath : String) : Node :=
  (((Server.boot (Node.fresh.writeFile "/root/peer.yaml" (Registry.pathDocument hostFilePath))).step
    (.request (.connectPeer "/root/peer.yaml") (.smooth 100)
      [([], some (.answer ⟨0, "colod connect reply success."⟩))])).step
    (.request (.define "/root/d.yaml") (.smooth 101) [])).node

def copiedUnder (hostFilePath : String) : Outcome Node ColodRetVal × Node :=
  enableCopied (.smooth 102) (.answered (.smooth 103)) none [] "d" "/vm/d.yaml"
    (sampleDefinition "d") (definedUnder hostFilePath) Node.fresh.rsInit

theorem lookups_definedUnder {hostFilePath path : String}
    (hentries : (definedUnder hostFilePath).save.domains.entries =
      [⟨"d", path, -1, "shutoff", false, "none"⟩])
    (hload : (definedUnder hostFilePath).loadFile path = some (sampleDefinition "d"))
    (hstatus : (definedUnder hostFilePath).save.getConnectStatus.map ColoStatus.peerFilePath =
      some "/vm/")
    (hbase : baseName path = "d.yaml") :
    ∃ found : Lookups "d" (definedUnder hostFilePath),
      found.path = path ∧ found.copyPath = "/vm/d.yaml" := by
  obtain ⟨cs, hcs, hpeer⟩ := Option.map_eq_some_iff.mp hstatus
  have hget : (definedUnder hostFilePath).getDomain "d" = .ok (sampleDomain "d") := by
    rw [← vmConfigParse_sample "d"]
    refine getDomainLoop_of_same ?_ (by rw [hentries]; simp) none
    rw [hentries]
    intro entry hentry _
    rw [List.mem_singleton.mp hentry]
    exact hload
  have hpath : (definedUnder hostFilePath).save.getDomainConfigFilePath "d" = some path := by
    unfold SaveFile.getDomainConfigFilePath SaveFile.find
    rw [hentries]
    rfl
  refine ⟨⟨sampleDomain "d", path, cs, hget, hpath, hcs⟩, rfl, ?_⟩
  show cs.peerFilePath ++ baseName path = "/vm/d.yaml"
  rw [hpeer, hbase]
  rfl

end ColoManage
