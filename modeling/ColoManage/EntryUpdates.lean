import ColoManage.SaveTable

/-!
# The updates of one entry

`save_domain_pid`, `remove_domain_pid`, `set_domain_colo_enable` and
`set_domain_colo_disable` with their return codes.  Each is a guard that reads
the entry it is about, and one change of that entry.
-/

namespace ColoManage

inductive EntryOp
  | saveDomainPid (pid : ℤ)
  | removeDomainPid
  | setDomainColoEnable (cds : ColoDomainStatus)
  | setDomainColoDisable
  deriving DecidableEq

namespace EntryOp

def run (domainName : String) (sf : SaveFile) : EntryOp → ℤ × SaveFile
  | .saveDomainPid pid => (0, ColoManage.saveDomainPid domainName pid sf)
  | .removeDomainPid => ColoManage.removeDomainPid domainName sf
  | .setDomainColoEnable cds => ColoManage.setDomainColoEnable domainName cds sf
  | .setDomainColoDisable => ColoManage.setDomainColoDisable domainName sf

/-- What the operation makes of the entry of its name. -/
def change : EntryOp → SaveEntry → SaveEntry
  | .saveDomainPid pid, entry => { entry with pid, status := "running" }
  | .removeDomainPid, entry => { entry with pid := -1, status := "shutoff" }
  | .setDomainColoEnable cds, entry =>
      { entry with coloEnable := true, coloStatus := coloDomainStatusToStr cds }
  | .setDomainColoDisable, entry => { entry with coloEnable := false }

/-- The fields that are not the operation's own are as they were. -/
def Spares (before after : SaveEntry) : EntryOp → Prop
  | .saveDomainPid _ | .removeDomainPid =>
      after.name = before.name ∧ after.path = before.path ∧
        after.coloEnable = before.coloEnable ∧ after.coloStatus = before.coloStatus
  | .setDomainColoEnable _ =>
      after.name = before.name ∧ after.path = before.path ∧
        after.pid = before.pid ∧ after.status = before.status
  | .setDomainColoDisable =>
      after.name = before.name ∧ after.path = before.path ∧ after.pid = before.pid ∧
        after.status = before.status ∧ after.coloStatus = before.coloStatus

/-- What the operation returns `-1` on. -/
def Refused (domainName : String) (sf : SaveFile) : EntryOp → Prop
  | .saveDomainPid _ => False
  | .removeDomainPid => sf.domains = .null
  | .setDomainColoEnable _ | .setDomainColoDisable =>
      ∃ entry, sf.find domainName = some entry ∧ entry.status ≠ "shutoff"

end EntryOp

/-- Before and after, entry by entry: one of another name is the same, one of
the name is the same where the code is negative and differs in the operation's
own fields where it is `0`. -/
def EntryOp.Touches (op : EntryOp) (domainName : String) (code : ℤ)
    (before after : SaveEntry) : Prop :=
  if before.name = domainName ∧ code = 0 then
    after = op.change before ∧ op.Spares before after
  else after = before

structure LocalUpdate (op : EntryOp) (domainName : String) (sf : SaveFile) : Prop where
  code : (op.run domainName sf).1 = 0 ∨ (op.run domainName sf).1 = -1
  entries : List.Forall₂ (op.Touches domainName (op.run domainName sf).1)
    sf.domains.entries (op.run domainName sf).2.domains.entries
  saveStatus : (op.run domainName sf).2.saveStatus = sf.saveStatus
  refused : (op.run domainName sf).1 = -1 → (op.run domainName sf).2 = sf
  absent : domainName ∉ sf.names → (op.run domainName sf).2 = sf

variable {sf : SaveFile} {a b : String}

/-! ## The guard and the change -/

theorem name_change (op : EntryOp) (entry : SaveEntry) : (op.change entry).name = entry.name := by
  cases op <;> rfl

theorem spares_change (op : EntryOp) (entry : SaveEntry) :
    op.Spares entry (op.change entry) := by
  cases op <;> simp [EntryOp.Spares, EntryOp.change]

theorem updateEntry_eq_self {f : SaveEntry → SaveEntry} (habsent : a ∉ sf.names) :
    sf.updateEntry a f = sf := by
  have hentries : KeyedList.updateFirst SaveEntry.name a f sf.domains.entries =
      sf.domains.entries := KeyedList.updateFirst_eq_self habsent
  rcases sf with ⟨saveStatus, domains⟩
  cases domains with
  | null => rfl
  | seq entries => exact congrArg (fun l => SaveFile.mk saveStatus (.seq l)) hentries
  | other => rfl

theorem run_eq_of_refused {op : EntryOp} (h : op.Refused a sf) : op.run a sf = (-1, sf) := by
  cases op with
  | saveDomainPid pid => exact absurd h id
  | removeDomainPid =>
      have hnull : sf.domains = .null := h
      simp only [EntryOp.run, removeDomainPid, hnull]
  | setDomainColoEnable cds =>
      obtain ⟨entry, hfind, hstatus⟩ := h
      simp only [EntryOp.run, setDomainColoEnable, setShutOffEntry, hfind, if_neg hstatus]
  | setDomainColoDisable =>
      obtain ⟨entry, hfind, hstatus⟩ := h
      simp only [EntryOp.run, setDomainColoDisable, setShutOffEntry, hfind, if_neg hstatus]

theorem setShutOffEntry_eq {f : SaveEntry → SaveEntry}
    (h : ¬∃ entry, sf.find a = some entry ∧ entry.status ≠ "shutoff") :
    setShutOffEntry a f sf = (0, sf.updateEntry a f) := by
  unfold setShutOffEntry
  cases hfind : sf.find a with
  | none =>
      have habsent : a ∉ sf.names := KeyedList.find_eq_none_iff.mp hfind
      rw [updateEntry_eq_self habsent]
  | some entry =>
      have hstatus : entry.status = "shutoff" := by
        by_contra hother
        exact h ⟨entry, hfind, hother⟩
      exact if_pos hstatus

theorem run_eq_of_not_refused {op : EntryOp} (h : ¬op.Refused a sf) :
    op.run a sf = (0, sf.updateEntry a op.change) := by
  cases op with
  | saveDomainPid pid => rfl
  | removeDomainPid =>
      simp only [EntryOp.run, removeDomainPid]
      split
      · rename_i hnull
        exact absurd hnull h
      · rfl
  | setDomainColoEnable cds => exact setShutOffEntry_eq h
  | setDomainColoDisable => exact setShutOffEntry_eq h

/-! ## One operation -/

theorem touches_update (op : EntryOp) (before : SaveEntry) :
    op.Touches a 0 before (if before.name = a then op.change before else before) := by
  by_cases hname : before.name = a
  · simp [EntryOp.Touches, hname, spares_change]
  · simp [EntryOp.Touches, hname]

theorem touches_refused (op : EntryOp) (before : SaveEntry) : op.Touches a (-1) before before := by
  simp [EntryOp.Touches]

theorem entries_updateEntry_eq_map {f : SaveEntry → SaveEntry} (hnodup : sf.names.Nodup) :
    (sf.updateEntry a f).domains.entries =
      sf.domains.entries.map fun entry => if entry.name = a then f entry else entry := by
  rw [entries_updateEntry]
  exact KeyedList.updateFirst_eq_map hnodup

theorem localUpdate (hnodup : sf.names.Nodup) (op : EntryOp) (a : String) :
    LocalUpdate op a sf := by
  by_cases h : op.Refused a sf
  · have hrun := run_eq_of_refused h
    refine ⟨?_, ?_, ?_, ?_, ?_⟩
    · exact Or.inr (by rw [hrun])
    · rw [hrun]
      exact List.forall₂_same.mpr fun before _ => touches_refused op before
    · rw [hrun]
    · intro _
      rw [hrun]
    · intro _
      rw [hrun]
  · have hrun := run_eq_of_not_refused h
    refine ⟨?_, ?_, ?_, ?_, ?_⟩
    · exact Or.inl (by rw [hrun])
    · rw [hrun, entries_updateEntry_eq_map hnodup, List.forall₂_map_right_iff]
      exact List.forall₂_same.mpr fun before _ => touches_update op before
    · rw [hrun]
      rfl
    · intro hcode
      rw [hrun] at hcode
      simp at hcode
    · intro habsent
      rw [hrun]
      exact updateEntry_eq_self habsent

/-! ## Two operations -/

theorem updateEntry_comm {f g : SaveEntry → SaveEntry} (hf : ∀ entry, (f entry).name = entry.name)
    (hg : ∀ entry, (g entry).name = entry.name) (hne : a ≠ b) (sf : SaveFile) :
    (sf.updateEntry a f).updateEntry b g = (sf.updateEntry b g).updateEntry a f := by
  rcases sf with ⟨saveStatus, domains⟩
  cases domains with
  | null => rfl
  | seq entries =>
      exact congrArg (fun l => SaveFile.mk saveStatus (.seq l))
        (KeyedList.updateFirst_comm hf hg hne entries)
  | other => rfl

theorem updateEntry_null_iff {f : SaveEntry → SaveEntry} :
    (sf.updateEntry a f).domains = .null ↔ sf.domains = .null := by
  unfold SaveFile.updateEntry
  cases sf.domains <;> simp [DomainsNode.mapEntries]

/-- A guard sees nothing of an update under another name. -/
theorem refused_updateEntry_iff {f : SaveEntry → SaveEntry}
    (hf : ∀ entry, (f entry).name = entry.name) (hne : a ≠ b) (op : EntryOp) :
    op.Refused b (sf.updateEntry a f) ↔ op.Refused b sf := by
  have hfind : (sf.updateEntry a f).find b = sf.find b := by
    rw [find_updateEntry hf, if_neg (Ne.symm hne)]
  cases op with
  | saveDomainPid pid => rfl
  | removeDomainPid => exact updateEntry_null_iff
  | setDomainColoEnable cds => simp only [EntryOp.Refused, hfind]
  | setDomainColoDisable => simp only [EntryOp.Refused, hfind]

theorem refused_run_iff (hne : a ≠ b) (op op' : EntryOp) :
    op'.Refused b (op.run a sf).2 ↔ op'.Refused b sf := by
  by_cases h : op.Refused a sf
  · rw [run_eq_of_refused h]
  · rw [run_eq_of_not_refused h]
    exact refused_updateEntry_iff (name_change op) hne op'

theorem code_run (hne : a ≠ b) (op op' : EntryOp) :
    (op'.run b (op.run a sf).2).1 = (op'.run b sf).1 := by
  by_cases h : op'.Refused b sf
  · rw [run_eq_of_refused h, run_eq_of_refused ((refused_run_iff hne op op').mpr h)]
  · rw [run_eq_of_not_refused h, run_eq_of_not_refused (mt (refused_run_iff hne op op').mp h)]

theorem run_comm (hne : a ≠ b) (op op' : EntryOp) (sf : SaveFile) :
    (op'.run b (op.run a sf).2).2 = (op.run a (op'.run b sf).2).2 := by
  by_cases h : op.Refused a sf
  · rw [run_eq_of_refused h, run_eq_of_refused ((refused_run_iff (Ne.symm hne) op' op).mpr h)]
  · rw [run_eq_of_not_refused h,
      run_eq_of_not_refused (mt (refused_run_iff (Ne.symm hne) op' op).mp h)]
    by_cases h' : op'.Refused b sf
    · rw [run_eq_of_refused h',
        run_eq_of_refused ((refused_updateEntry_iff (name_change op) hne op').mpr h')]
    · rw [run_eq_of_not_refused h',
        run_eq_of_not_refused (mt (refused_updateEntry_iff (name_change op) hne op').mp h')]
      exact updateEntry_comm (name_change op) (name_change op') hne sf

/-- In a file of pairwise distinct names an operation touches its own fields of
its own entry, and two of them under different names can be swapped. -/
theorem entry_updates_independent {sf : SaveFile} (hnodup : sf.names.Nodup) {a b : String}
    (hne : a ≠ b) (op op' : EntryOp) :
    LocalUpdate op a sf ∧
      (op'.run b (op.run a sf).2).2 = (op.run a (op'.run b sf).2).2 ∧
      (op'.run b (op.run a sf).2).1 = (op'.run b sf).1 ∧
      (op.run a (op'.run b sf).2).1 = (op.run a sf).1 := by
  refine ⟨localUpdate hnodup op a, run_comm hne op op' sf, ?_, ?_⟩
  · exact code_run hne op op'
  · exact code_run (Ne.symm hne) op' op

/-- The shut off one becomes colo enabled, the running one is refused. -/
theorem twoEntries_entry_updates :
    LocalUpdate (.setDomainColoEnable .primary) "a" twoEntries ∧
      (EntryOp.setDomainColoDisable.run "b"
        ((EntryOp.setDomainColoEnable .primary).run "a" twoEntries).2).1 = -1 := by
  have hnodup : twoEntries.names.Nodup := by decide
  have hne : "a" ≠ "b" := by decide
  have hupdates := entry_updates_independent hnodup hne (.setDomainColoEnable .primary)
    .setDomainColoDisable
  refine ⟨hupdates.1, ?_⟩
  rw [hupdates.2.2.1]
  decide

end ColoManage
