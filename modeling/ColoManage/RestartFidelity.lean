import ColoManage.Steps

/-!
# What a restart reads back

The save file after any sequence of its writers, and the table `domains_init`
builds from it.  `domains_init` looks the status up under the entry's name and
reads no path, so a list is read back faithfully exactly when neither shows.
-/

namespace ColoManage

/-! ## The writers -/

inductive SaveOp
  | saveDomainInfo (ds : ColodDomainStatus)
  | saveDomainPid (domainName : String) (pid : ℤ)
  | removeDomainPid (domainName : String)
  | setDomainColoEnable (domainName : String) (cds : ColoDomainStatus)
  | setDomainColoDisable (domainName : String)
  | vmUndefine (domainName : String)

/-- A refused write leaves the file as it was. -/
def SaveFile.apply (sf : SaveFile) : SaveOp → SaveFile
  | .saveDomainInfo ds =>
      match saveDomainInfo ds sf with
      | .ok sf' => sf'
      | .error _ => sf
  | .saveDomainPid domainName pid => saveDomainPid domainName pid sf
  | .removeDomainPid domainName => (removeDomainPid domainName sf).2
  | .setDomainColoEnable domainName cds => (setDomainColoEnable domainName cds sf).2
  | .setDomainColoDisable domainName => (setDomainColoDisable domainName sf).2
  | .vmUndefine domainName => vmUndefine domainName sf

def written (ops : List SaveOp) : SaveFile :=
  ops.foldl SaveFile.apply .empty

theorem nodup_apply {sf : SaveFile} (h : sf.names.Nodup) (op : SaveOp) :
    (sf.apply op).names.Nodup := by
  cases op with
  | saveDomainInfo ds =>
      unfold SaveFile.apply
      dsimp only
      split
      · rename_i sf' hsave
        exact nodup_saveDomainInfo hsave h
      · exact h
  | saveDomainPid domainName pid => simpa [SaveFile.apply] using h
  | removeDomainPid domainName => simpa [SaveFile.apply] using h
  | setDomainColoEnable domainName cds => simpa [SaveFile.apply] using h
  | setDomainColoDisable domainName => simpa [SaveFile.apply] using h
  | vmUndefine domainName => exact nodup_vmUndefine h

theorem nodup_written (ops : List SaveOp) : (written ops).names.Nodup := by
  have hgeneral : ∀ sf : SaveFile, sf.names.Nodup →
      (ops.foldl SaveFile.apply sf).names.Nodup := by
    induction ops with
    | nil => exact fun _ h => h
    | cons op ops ih => exact fun sf h => ih _ (nodup_apply h op)
  exact hgeneral .empty (by simp [SaveFile.names, SaveFile.empty, DomainsNode.entries])

/-! ## Reading back -/

def decodedRecord (entry : SaveEntry) : ColodDomainStatus where
  pid := entry.pid
  name := entry.name
  status := mapAt domainStatusMap entry.status
  coloEnable := entry.coloEnable
  coloStatus := mapAt coloDomainStatusMap entry.coloStatus
  configFilePath := entry.path

/-- A restart reads every entry back, once and in all its fields, and a domain
saved as running whose process is there does not test as shut off. -/
structure RestartFaithful (sf : SaveFile) : Prop where
  keys : (domainsInit sf ∅).keys.Perm sf.names
  fields : ∀ entry ∈ sf.domains.entries,
    (domainsInit sf ∅).lookup entry.name = some (decodedRecord entry)
  running : ∀ nd : Node, nd.save = sf → ∀ entry ∈ sf.domains.entries,
    entry.status = "running" → 0 < entry.pid → nd.os.kill0 entry.pid = true →
      (nd.rsInit.testDomainStatus entry.name).1 ≠ .shutOff

/-- The status the name decodes to is the saved one, and no path is lost. -/
def ReadsBack (entry : SaveEntry) : Prop :=
  entry.path = "" ∧ mapAt domainStatusMap entry.name = mapAt domainStatusMap entry.status

theorem loadedRecord_eq_decoded_iff (entry : SaveEntry) :
    loadedRecord entry = decodedRecord entry ↔ ReadsBack entry := by
  simp only [loadedRecord, decodedRecord, ReadsBack, ColodDomainStatus.mk.injEq, true_and]
  exact ⟨fun h => ⟨h.2.symm, h.1⟩, fun h => ⟨h.2, h.1.symm⟩⟩

theorem lookup_domainsInit_of_mem {sf : SaveFile} (h : sf.names.Nodup) {entry : SaveEntry}
    (hentry : entry ∈ sf.domains.entries) :
    (domainsInit sf ∅).lookup entry.name = some (loadedRecord entry) := by
  have hfind : sf.find entry.name = some entry := KeyedList.find_of_mem h hentry
  rw [lookup_domainsInit h, hfind]
  simp

theorem keys_domainsInit_perm {sf : SaveFile} (h : sf.names.Nodup) :
    (domainsInit sf ∅).keys.Perm sf.names := by
  rw [List.perm_ext_iff_of_nodup (AList.keys_nodup _) h]
  intro name
  have hfind : (sf.find name).isSome ↔ name ∈ sf.names := KeyedList.isSome_find_iff
  rw [← hfind, ← AList.mem_keys, ← AList.lookup_isSome, lookup_domainsInit h]
  cases sf.find name <;> simp

/-- A list of the writers is read back faithfully exactly when each of its
entries has an empty path and a name that decodes as its status. -/
theorem restartFaithful_iff (ops : List SaveOp) :
    RestartFaithful (written ops) ↔
      ∀ entry ∈ (written ops).domains.entries, ReadsBack entry := by
  have hnodup := nodup_written ops
  constructor
  · intro h entry hentry
    have heq := (lookup_domainsInit_of_mem hnodup hentry).symm.trans (h.fields entry hentry)
    exact (loadedRecord_eq_decoded_iff entry).mp (Option.some.inj heq)
  · intro h
    have hfields : ∀ entry ∈ (written ops).domains.entries,
        (domainsInit (written ops) ∅).lookup entry.name = some (decodedRecord entry) := by
      intro entry hentry
      rw [lookup_domainsInit_of_mem hnodup hentry,
        (loadedRecord_eq_decoded_iff entry).mpr (h entry hentry)]
    refine ⟨keys_domainsInit_perm hnodup, hfields, ?_⟩
    intro nd hsave entry hentry hstatus hpid hkill
    have hdom : nd.rsInit.dom entry.name = decodedRecord entry := by
      apply Node.dom_eq_of_lookup
      show (domainsInit nd.save ∅).lookup entry.name = _
      rw [hsave]
      exact hfields entry hentry
    have halive : ¬ nd.rsInit.FoundDead entry.name := by
      rintro ⟨-, hdead⟩
      rw [hdom] at hdead
      exact absurd (hkill.symm.trans hdead) (by simp)
    have hnot : entry.pid ≠ -1 := by omega
    rw [Node.testDomainStatus_of_not_dead halive, hdom]
    simp only [decodedRecord, hstatus, hnot, if_false]
    decide

def definedAndStarted : List SaveOp :=
  [.saveDomainInfo ⟨-1, "d", .shutOff, false, .none, "/etc/vm/d.yaml"⟩, .saveDomainPid "d" 100]

theorem not_restartFaithful_started : ¬ RestartFaithful (written definedAndStarted) := by
  intro h
  have hfields := h.fields ⟨"d", "/etc/vm/d.yaml", 100, "running", false, "none"⟩ (by decide)
  exact absurd hfields (by decide)

end ColoManage
