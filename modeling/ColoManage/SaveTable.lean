import ColoManage.RestartFidelity

/-!
# The table in the save file

The six writers of the list `domains` and `save_colo_status`, in any order.
Each of them is one act on the names of the list, so what holds of the names
over a run is what holds of the keys of a table over its history.
-/

namespace ColoManage

open KeyHistory (Act)

inductive FileOp
  | domain (op : SaveOp)
  | saveColoStatus (cs : ColoStatus)

namespace SaveFile

def write (sf : SaveFile) : FileOp → SaveFile
  | .domain op => sf.apply op
  | .saveColoStatus cs => saveColoStatus cs sf

def writeAll (sf : SaveFile) (ops : List FileOp) : SaveFile := ops.foldl write sf

end SaveFile

/-- What a writer does to the names of the list. -/
def FileOp.act : FileOp → Act String
  | .domain (.saveDomainInfo ds) => .put ds.name
  | .domain (.vmUndefine domainName) => .drop domainName
  | _ => .keep

/-- A `save_domain_info` of the name has no `vm_undefine` of it after it, or the
name was there at first and has never been undefined. -/
def DefinedLast (sf : SaveFile) (ops : List FileOp) (name : String) : Prop :=
  (∃ before ds after, ops = before ++ .domain (.saveDomainInfo ds) :: after ∧ ds.name = name ∧
      .domain (.vmUndefine name) ∉ after) ∨
    (name ∈ sf.names ∧ .domain (.vmUndefine name) ∉ ops)

/-! ## One writer -/

theorem act_eq_put_iff {op : FileOp} {name : String} :
    op.act = .put name ↔ ∃ ds, op = .domain (.saveDomainInfo ds) ∧ ds.name = name := by
  rcases op with (_ | _ | _ | _ | _ | _) | _ <;> simp [FileOp.act]

theorem act_eq_drop_iff {op : FileOp} {name : String} :
    op.act = .drop name ↔ op = .domain (.vmUndefine name) := by
  rcases op with (_ | _ | _ | _ | _ | _) | _ <;> simp [FileOp.act]

theorem names_write {sf : SaveFile} (hlist : sf.domains ≠ .other) (op : FileOp) :
    (sf.write op).names = KeyHistory.step sf.names op.act := by
  cases op with
  | saveColoStatus cs => rfl
  | domain op =>
      cases op with
      | saveDomainInfo ds =>
          show (sf.apply (.saveDomainInfo ds)).names = _
          unfold SaveFile.apply
          dsimp only
          split
          · rename_i sf' hsave
            exact names_saveDomainInfo hsave
          · rename_i err hsave
            rcases saveDomainInfo_cases ds sf with ⟨hother, -⟩ | ⟨-, sf', hsaved⟩
            · exact absurd hother hlist
            · rw [hsaved] at hsave
              nomatch hsave
      | saveDomainPid domainName pid => exact names_saveDomainPid domainName pid sf
      | removeDomainPid domainName => exact names_removeDomainPid domainName sf
      | setDomainColoEnable domainName cds => exact names_setDomainColoEnable domainName cds sf
      | setDomainColoDisable domainName => exact names_setDomainColoDisable domainName sf
      | vmUndefine domainName => exact names_vmUndefine domainName sf

theorem mapEntries_ne_other {domains : DomainsNode} (h : domains ≠ .other)
    (f : List SaveEntry → List SaveEntry) : domains.mapEntries f ≠ .other := by
  cases domains with
  | null => exact nofun
  | seq entries => exact nofun
  | other => exact absurd rfl h

theorem saveDomainInfo_ne_other {ds : ColodDomainStatus} {sf sf' : SaveFile}
    (h : saveDomainInfo ds sf = .ok sf') : sf'.domains ≠ .other := by
  unfold saveDomainInfo at h
  cases hdomains : sf.domains with
  | null =>
      rw [hdomains] at h
      injection h with h
      exact h ▸ nofun
  | seq entries =>
      rw [hdomains] at h
      injection h with h
      exact h ▸ nofun
  | other => simp [hdomains] at h

theorem write_ne_other {sf : SaveFile} (hlist : sf.domains ≠ .other) (op : FileOp) :
    (sf.write op).domains ≠ .other := by
  have hupdate : ∀ name f, (sf.updateEntry name f).domains ≠ .other :=
    fun name f => mapEntries_ne_other hlist _
  have hshutOff : ∀ name f, (setShutOffEntry name f sf).2.domains ≠ .other := by
    intro name f
    unfold setShutOffEntry
    split
    · split
      · exact hupdate name f
      · exact hlist
    · exact hlist
  cases op with
  | saveColoStatus cs => exact hlist
  | domain op =>
      cases op with
      | saveDomainInfo ds =>
          rcases saveDomainInfo_cases ds sf with ⟨hother, -⟩ | ⟨-, sf', hsaved⟩
          · exact absurd hother hlist
          · simp only [SaveFile.write, SaveFile.apply, hsaved]
            exact saveDomainInfo_ne_other hsaved
      | saveDomainPid domainName pid => exact hupdate _ _
      | removeDomainPid domainName =>
          simp only [SaveFile.write, SaveFile.apply, removeDomainPid]
          split
          · exact hlist
          · exact hupdate _ _
      | setDomainColoEnable domainName cds => exact hshutOff _ _
      | setDomainColoDisable domainName => exact hshutOff _ _
      | vmUndefine domainName =>
          simp only [SaveFile.write, SaveFile.apply, vmUndefine]
          split
          · split
            · intro hother
              cases hother
            · intro hother
              cases hother
          · exact hlist

theorem saveStatus_apply (sf : SaveFile) (op : SaveOp) :
    (sf.apply op).saveStatus = sf.saveStatus := by
  have hshutOff : ∀ name f, (setShutOffEntry name f sf).2.saveStatus = sf.saveStatus := by
    intro name f
    unfold setShutOffEntry
    split
    · split <;> rfl
    · rfl
  cases op with
  | saveDomainInfo ds =>
      unfold SaveFile.apply saveDomainInfo
      cases sf.domains <;> rfl
  | saveDomainPid domainName pid => rfl
  | removeDomainPid domainName =>
      simp only [SaveFile.apply, removeDomainPid]
      split <;> rfl
  | setDomainColoEnable domainName cds => exact hshutOff _ _
  | setDomainColoDisable domainName => exact hshutOff _ _
  | vmUndefine domainName =>
      simp only [SaveFile.apply, vmUndefine]
      split
      · split <;> rfl
      · rfl

/-! ## A run of writers -/

theorem writeAll_append (sf : SaveFile) (first second : List FileOp) :
    sf.writeAll (first ++ second) = (sf.writeAll first).writeAll second := List.foldl_append

theorem writeAll_ne_other {sf : SaveFile} (hlist : sf.domains ≠ .other) (ops : List FileOp) :
    (sf.writeAll ops).domains ≠ .other := by
  induction ops generalizing sf with
  | nil => exact hlist
  | cons op ops ih => exact ih (write_ne_other hlist op)

/-- The names in the file run as the keys of a table under the same acts. -/
theorem names_writeAll {sf : SaveFile} (hlist : sf.domains ≠ .other) (ops : List FileOp) :
    (sf.writeAll ops).names = KeyHistory.run sf.names (ops.map FileOp.act) := by
  induction ops generalizing sf with
  | nil => rfl
  | cons op ops ih =>
      have hrest := ih (write_ne_other hlist op)
      rw [names_write hlist op] at hrest
      exact hrest

theorem mem_acts_drop_iff {ops : List FileOp} {name : String} :
    Act.drop name ∈ ops.map FileOp.act ↔ .domain (.vmUndefine name) ∈ ops := by
  rw [List.mem_map]
  constructor
  · rintro ⟨op, hop, hact⟩
    rwa [← act_eq_drop_iff.mp hact]
  · intro hop
    exact ⟨_, hop, rfl⟩

theorem held_acts_iff {sf : SaveFile} {ops : List FileOp} {name : String} :
    KeyHistory.Held sf.names (ops.map FileOp.act) name ↔ DefinedLast sf ops name := by
  unfold KeyHistory.Held DefinedLast
  rw [mem_acts_drop_iff]
  apply or_congr_left
  constructor
  · rintro ⟨before, after, heq, hafter⟩
    obtain ⟨first, rest, rfl, rfl, hrest⟩ := List.map_eq_append_iff.mp heq
    obtain ⟨op, last, rfl, hput, rfl⟩ := List.map_eq_cons_iff.mp hrest
    obtain ⟨ds, rfl, hname⟩ := act_eq_put_iff.mp hput
    exact ⟨first, ds, last, rfl, hname, mt mem_acts_drop_iff.mpr hafter⟩
  · rintro ⟨before, ds, after, rfl, rfl, hafter⟩
    refine ⟨before.map FileOp.act, after.map FileOp.act, ?_, mt mem_acts_drop_iff.mp hafter⟩
    rw [List.map_append, List.map_cons]
    rfl

/-- From a file whose list is null or proper, any run of the writers keeps the
names distinct, lists the names that were defined last, keeps the order of two
names for as long as neither is undefined, and keeps the two sections apart. -/
theorem save_table_run {sf : SaveFile} (hlist : sf.domains ≠ .other) (hnodup : sf.names.Nodup)
    (ops : List FileOp) :
    ((sf.writeAll ops).domains ≠ .other ∧ (sf.writeAll ops).names.Nodup) ∧
      (∀ name, name ∈ (sf.writeAll ops).names ↔ DefinedLast sf ops name) ∧
      (∀ earlier later, ops = earlier ++ later → ∀ a b,
        [a, b].Sublist (sf.writeAll earlier).names →
        .domain (.vmUndefine a) ∉ later → .domain (.vmUndefine b) ∉ later →
          [a, b].Sublist (sf.writeAll ops).names) ∧
      ∀ earlier op later, ops = earlier ++ op :: later →
        match op with
        | .saveColoStatus _ =>
            ((sf.writeAll earlier).write op).domains = (sf.writeAll earlier).domains
        | .domain _ =>
            ((sf.writeAll earlier).write op).saveStatus = (sf.writeAll earlier).saveStatus := by
  refine ⟨⟨writeAll_ne_other hlist ops, ?_⟩, ?_, ?_, ?_⟩
  · rw [names_writeAll hlist ops]
    exact KeyHistory.nodup_run hnodup _
  · intro name
    rw [names_writeAll hlist ops, KeyHistory.mem_run_iff, held_acts_iff]
  · rintro earlier later rfl a b hpair ha hb
    rw [writeAll_append, names_writeAll (writeAll_ne_other hlist earlier) later]
    apply KeyHistory.sublist_run hpair
    intro name hname
    rw [mem_acts_drop_iff]
    rcases List.mem_pair.mp hname with rfl | rfl
    · exact ha
    · exact hb
  · rintro earlier op later rfl
    cases op with
    | saveColoStatus cs => rfl
    | domain op => exact saveStatus_apply (sf.writeAll earlier) op

def twoEntries : SaveFile where
  saveStatus := none
  domains := .seq [⟨"a", "/root/a.yaml", -1, "shutoff", false, "none"⟩,
    ⟨"b", "/root/b.yaml", 100, "running", false, "none"⟩]

/-- The list is emptied and filled again. -/
def emptiedAndFilled : List FileOp :=
  [.domain (.vmUndefine "a"), .domain (.vmUndefine "b"), .saveColoStatus default,
    .domain (.saveDomainInfo ⟨-1, "b", .shutOff, false, .none, "/root/b.yaml"⟩),
    .domain (.saveDomainInfo ⟨-1, "c", .shutOff, false, .none, "/root/c.yaml"⟩)]

theorem twoEntries_writeAll :
    (twoEntries.writeAll emptiedAndFilled).names.Nodup ∧
      "b" ∈ (twoEntries.writeAll emptiedAndFilled).names ∧
      "a" ∉ (twoEntries.writeAll (emptiedAndFilled.take 2)).names := by
  have hlist : twoEntries.domains ≠ .other := nofun
  have hnodup : twoEntries.names.Nodup := by decide
  have hwhole := save_table_run hlist hnodup emptiedAndFilled
  have hfirst := save_table_run hlist hnodup (emptiedAndFilled.take 2)
  refine ⟨hwhole.1.2, ?_, ?_⟩
  · apply (hwhole.2.1 "b").mpr
    left
    exact ⟨emptiedAndFilled.take 3, _, emptiedAndFilled.drop 4, rfl, rfl,
      by simp [emptiedAndFilled]⟩
  · rw [hfirst.2.1 "a"]
    rintro (⟨before, ds, after, heq, -⟩ | ⟨-, hnever⟩)
    · have hmem : FileOp.domain (.saveDomainInfo ds) ∈ emptiedAndFilled.take 2 := by
        rw [heq]
        simp
      simp [emptiedAndFilled] at hmem
    · exact hnever (by simp [emptiedAndFilled])

end ColoManage
