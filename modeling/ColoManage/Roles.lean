import ColoManage.Moves

/-!
# Where the role of a domain is written

The role of a domain is in the table and the save file of its node and travels
in `peer_colod_save_domain`.  All requests but `define`, `colo_enable` and
`peer_colod_save_domain` give no domain a role that it did not have there.
-/

namespace ColoManage

open Resumption EventSystem

/-! ## Roles -/

/-- The two roles of a pair; the other values say that there is none. -/
def ColoDomainStatus.IsRole (role : ColoDomainStatus) : Prop :=
  role = .primary ∨ role = .secondary

def Node.InRole (nd : Node) (d : String) (role : ColoDomainStatus) : Prop :=
  (nd.dom d).coloEnable = true ∧ (nd.dom d).coloStatus = role

def SaveEntry.Gives (entry : SaveEntry) (d : String) (role : ColoDomainStatus) : Prop :=
  entry.name = d ∧ entry.coloEnable = true ∧
    mapAt coloDomainStatusMap entry.coloStatus = role

def SaveFile.Gives (sf : SaveFile) (d : String) (role : ColoDomainStatus) : Prop :=
  ∃ entry ∈ sf.domains.entries, entry.Gives d role

/-- The role that a call gives a domain on the node that executes it. -/
def Request.Gives (request : Request) (d : String) (role : ColoDomainStatus) : Prop :=
  ∃ ds, request = .peerSaveDomain ds ∧ ds.name = d ∧ (mirrorDomain ds).coloStatus = role

/-- The table of a running colod, its save file, or a call on its way. -/
def Party.Gives (p : Party) (d : String) (role : ColoDomainStatus) : Prop :=
  (p.up = true ∧ p.node.InRole d role) ∨ p.node.save.Gives d role ∨
    ∃ call ∈ p.inbox, call.request.Gives d role

section

variable {sf sf' : SaveFile} {d : String} {role : ColoDomainStatus}

theorem gives_updateEntry {f : SaveEntry → SaveEntry} {P : Prop}
    (hf : ∀ entry, (f entry).Gives d role → entry.Gives d role ∨ P) {name : String}
    (h : (sf.updateEntry name f).Gives d role) : sf.Gives d role ∨ P := by
  obtain ⟨entry, hentry, hgives⟩ := h
  rw [entries_updateEntry] at hentry
  rcases KeyedList.mem_updateFirst hentry with hold | ⟨old, hold, -, rfl⟩
  · exact .inl ⟨entry, hold, hgives⟩
  · exact (hf old hgives).imp (fun hgives => ⟨old, hold, hgives⟩) id

theorem gives_setShutOffEntry {f : SaveEntry → SaveEntry} {P : Prop}
    (hf : ∀ entry, (f entry).Gives d role → entry.Gives d role ∨ P) {name : String}
    (h : (setShutOffEntry name f sf).2.Gives d role) : sf.Gives d role ∨ P := by
  unfold setShutOffEntry at h
  split at h
  · split at h
    · exact gives_updateEntry hf h
    · exact .inl h
  · exact .inl h

theorem gives_saveDomainPid {name : String} {pid : ℤ}
    (h : (saveDomainPid name pid sf).Gives d role) : sf.Gives d role := by
  refine (gives_updateEntry (P := False) ?_ h).resolve_right id
  exact fun _ hgives => .inl hgives

theorem gives_removeDomainPid {name : String}
    (h : (removeDomainPid name sf).2.Gives d role) : sf.Gives d role := by
  unfold removeDomainPid at h
  split at h
  · exact h
  · refine (gives_updateEntry (P := False) ?_ h).resolve_right id
    exact fun _ hgives => .inl hgives

theorem gives_setDomainColoDisable {name : String}
    (h : (setDomainColoDisable name sf).2.Gives d role) : sf.Gives d role := by
  refine (gives_setShutOffEntry (P := False) ?_ h).resolve_right id
  rintro entry ⟨-, henable, -⟩
  exact absurd henable (by simp)

theorem gives_setDomainColoEnable {name : String} {cds : ColoDomainStatus}
    (h : (setDomainColoEnable name cds sf).2.Gives d role) :
    sf.Gives d role ∨ d = name ∧ role = cds := by
  unfold setDomainColoEnable setShutOffEntry at h
  split at h
  · rename_i found hfind
    split at h
    · obtain ⟨entry, hentry, hgives⟩ := h
      rw [entries_updateEntry] at hentry
      rcases KeyedList.mem_updateFirst hentry with hold | ⟨old, -, hname, rfl⟩
      · exact .inl ⟨entry, hold, hgives⟩
      · obtain ⟨rfl, -, hrole⟩ := hgives
        exact .inr ⟨hname, by simpa using hrole.symm⟩
    · exact .inl h
  · exact .inl h

theorem not_gives_savedEntry (ds : ColodDomainStatus) : ¬ (savedEntry ds).Gives d role := by
  rintro ⟨-, henable, -⟩
  exact absurd henable (by simp [savedEntry])

theorem gives_saveDomainInfo {ds : ColodDomainStatus} (hsave : saveDomainInfo ds sf = .ok sf')
    (h : sf'.Gives d role) : sf.Gives d role := by
  obtain ⟨entry, hentry, hgives⟩ := h
  unfold saveDomainInfo at hsave
  cases hdomains : sf.domains with
  | null =>
      simp only [hdomains, Except.ok.injEq] at hsave
      subst hsave
      simp only [DomainsNode.entries, List.mem_singleton] at hentry
      subst hentry
      exact absurd hgives (not_gives_savedEntry ds)
  | seq entries =>
      simp only [hdomains, Except.ok.injEq] at hsave
      subst hsave
      rcases KeyedList.mem_upsert hentry with rfl | hold
      · exact absurd hgives (not_gives_savedEntry ds)
      · exact ⟨entry, by simpa [hdomains, DomainsNode.entries] using hold, hgives⟩
  | other => simp [hdomains] at hsave

theorem gives_vmUndefine {name : String} (h : (vmUndefine name sf).Gives d role) :
    sf.Gives d role := by
  obtain ⟨entry, hentry, hgives⟩ := h
  unfold vmUndefine at hentry
  split at hentry
  · have hmem : entry ∈ KeyedList.removeAll SaveEntry.name name sf.domains.entries := by
      split at hentry
      · simp [DomainsNode.entries] at hentry
      · exact hentry
    exact ⟨entry, List.mem_of_mem_filter hmem, hgives⟩
  · exact ⟨entry, hentry, hgives⟩

end

namespace Node

variable {nd nd' nd'' : Node} {d : String} {role : ColoDomainStatus}

theorem InRole.congr (hdomains : nd'.domains = nd.domains) (h : nd'.InRole d role) :
    nd.InRole d role := by
  unfold InRole dom at h ⊢
  rwa [← hdomains]

/-- A role that a started colod gives a domain comes from its save file. -/
theorem gives_of_inRole_rsInit (h : nd.rsInit.InRole d role) : nd.save.Gives d role := by
  obtain ⟨henable, hstatus⟩ := h
  cases hlookup : nd.rsInit.domains.lookup d with
  | none =>
      rw [dom, hlookup] at henable
      exact absurd henable (by decide)
  | some ds =>
      rw [dom_eq_of_lookup hlookup] at henable hstatus
      obtain ⟨entry, hentry, hname, rfl⟩ := entry_of_lookup_domainsInit hlookup
      exact ⟨entry, hentry, hname, henable, hstatus⟩

/-! ## Steps that give no role -/

/-- Every role in the table and the file was there before; the file may take
one over from the table. -/
structure NoNew (nd nd' : Node) : Prop where
  table : ∀ d role, role.IsRole → nd'.InRole d role → nd.InRole d role
  save : ∀ d role, role.IsRole → nd'.save.Gives d role → nd.InRole d role ∨ nd.save.Gives d role

theorem NoNew.refl (nd : Node) : NoNew nd nd :=
  ⟨fun _ _ _ h => h, fun _ _ _ h => .inr h⟩

theorem NoNew.trans (h : NoNew nd nd') (h' : NoNew nd' nd'') : NoNew nd nd'' where
  table := fun d role hrole hin => h.table d role hrole (h'.table d role hrole hin)
  save := by
    intro d role hrole hgives
    rcases h'.save d role hrole hgives with hin | hold
    · exact .inl (h.table d role hrole hin)
    · exact h.save d role hrole hold

theorem NoNew.of_save (hdomains : nd'.domains = nd.domains)
    (hsave : ∀ d role, nd'.save.Gives d role → nd.save.Gives d role) : NoNew nd nd' :=
  ⟨fun _ _ _ h => h.congr hdomains, fun d role _ h => .inr (hsave d role h)⟩

theorem NoNew.of_same (hdomains : nd'.domains = nd.domains) (hsave : nd'.save = nd.save) :
    NoNew nd nd' :=
  .of_save hdomains fun _ _ h => by rwa [← hsave]

theorem noNew_setDom {name : String} {ds : ColodDomainStatus}
    (hds : ∀ role, role.IsRole → ds.coloEnable = true → ds.coloStatus = role →
      nd.InRole name role) : NoNew nd (nd.setDom name ds) where
  table := by
    intro d role hrole hin
    unfold InRole at hin
    rw [dom_setDom] at hin
    split at hin
    · rename_i hname
      subst hname
      exact hds role hrole hin.1 hin.2
    · exact hin
  save := fun _ _ _ h => .inr h

theorem NoNew.modDom (h : NoNew nd nd') (name : String)
    {f : ColodDomainStatus → ColodDomainStatus}
    (hf : ∀ ds, (f ds).coloEnable = true →
      ds.coloEnable = true ∧ (f ds).coloStatus = ds.coloStatus) :
    NoNew nd (nd'.modDom name f) := by
  refine h.trans (noNew_setDom ?_)
  intro role hrole henable hstatus
  obtain ⟨hold, hsame⟩ := hf _ henable
  exact ⟨hold, hsame.symm.trans hstatus⟩

theorem noNew_touch (name : String) (nd : Node) : NoNew nd (nd.touch name) where
  table := by
    intro d role _ hin
    simpa [InRole] using hin
  save := fun _ _ _ h => .inr h

theorem noNew_swept (name : String) (nd : Node) : NoNew nd (nd.swept name) := by
  have hmod : NoNew nd ((nd.touch name).modDom name fun ds => { ds with status := .shutOff }) :=
    (noNew_touch name nd).modDom name fun _ henable => ⟨henable, rfl⟩
  refine hmod.trans (.of_save rfl ?_)
  exact fun d role h => gives_removeDomainPid h

theorem noNew_eraseDom (name : String) (nd : Node) : NoNew nd (nd.eraseDom name) where
  table := by
    intro d role _ hin
    by_cases hname : d = name
    · have hnone : (nd.eraseDom name).dom d = default := by
        rw [dom, lookup_eraseDom, if_pos hname]
        rfl
      rw [InRole, hnone] at hin
      exact absurd hin.1 (by decide)
    · unfold InRole dom at hin ⊢
      rwa [lookup_eraseDom, if_neg hname] at hin
  save := fun _ _ _ h => .inr h

end Node

/-! ## Handlers that give no role -/

def Plain (query : Query) (_ : Node) : Prop :=
  query.request.isLocal = false ∧ ∀ ds, query.request ≠ .peerSaveDomain ds

/-- No leg of the handler gives a role, and no call of it does. -/
abbrev Roleless (first : Node) (act : Colod) : Prop := act.Legs Node.Apart Node.NoNew Plain first

/-- The three requests that may give a domain a role. -/
def Request.MayGive : Request → Prop
  | .define _ => True
  | .coloEnable _ => True
  | .peerSaveDomain _ => True
  | _ => False

section

variable {env : Env} {req : Request} {start first nd nd' : Node}

theorem noNew_move (hreq : ¬ req.MayGive) (hmove : Move env req start nd nd') : nd.NoNew nd' := by
  cases hmove with
  | talked htalked => exact .of_same htalked.domains htalked.save
  | touched domainName => exact Node.noNew_touch domainName nd
  | swept hdead => exact Node.noNew_swept _ nd
  | savedStatus cs => exact .of_save rfl fun _ _ h => h
  | @launched domainName colo d cmd pid os status nd hstarts henable hget hfork hstatus =>
      have hsave : nd.NoNew (nd.launched d.name cmd pid os) :=
        .of_save rfl fun _ _ h => gives_saveDomainPid h
      exact hsave.modDom domainName fun _ henable => ⟨henable, rfl⟩
  | forkFailed hstart => exact Node.NoNew.modDom (.refl nd) _ fun _ henable => ⟨henable, rfl⟩
  | missed hdestroys hpid hevents => exact .of_save rfl fun _ _ h => gives_removeDomainPid h
  | @killed domainName pid events nd hdestroys hpid hevents hstarted hsave =>
      have hstep : nd.NoNew { nd with
          save := (removeDomainPid domainName nd.save).2
          os := (nd.os.after events).sigkill pid
          log := nd.log ++ [.kill pid] } :=
        .of_save rfl fun _ _ h => gives_removeDomainPid h
      exact hstep.modDom domainName fun _ henable => ⟨henable, rfl⟩
  | @undefined domainName nd hundefine =>
      have hsave : nd.NoNew (nd.setSave (vmUndefine domainName nd.save)) :=
        .of_save rfl fun _ _ h => gives_vmUndefine h
      exact hsave.trans (Node.noNew_eraseDom domainName _)
  | @disabled domainName nd hdisable =>
      have hsave : nd.NoNew (nd.setSave (setDomainColoDisable domainName nd.save).2) :=
        .of_save rfl fun _ _ h => gives_setDomainColoDisable h
      exact hsave.trans (Node.noNew_setDom fun _ _ henable => absurd henable (by simp))
  | failedOver hfailover hold hnew hrole =>
      refine Node.noNew_setDom ?_
      rintro role' (rfl | rfl) - rfl <;> simp at hrole
  | wrote hdefine hload hparse hfile => exact absurd (hdefine ▸ trivial) hreq
  | defined hdefine hpid hstatus henable hsave => exact absurd (hdefine ▸ trivial) hreq
  | flagged value role henable => exact absurd (henable ▸ trivial) hreq
  | savedEnable henable => exact absurd (henable ▸ trivial) hreq
  | peerSaved hpeer hsave => exact absurd (hpeer ▸ trivial) hreq
  | peerStored hpeer hsave => exact absurd (hpeer ▸ trivial) hreq

theorem noNew_moves (hreq : ¬ req.MayGive) (hmoves : Moves env req start first nd) :
    first.NoNew nd :=
  inv_of_moves (fun _ _ hnew hmove => hnew.trans (noNew_move hreq hmove)) (.refl first) hmoves

theorem handle_roleless (env : Env) {req : Request} (hreq : ¬ req.MayGive) (nd : Node) :
    Roleless nd (handle env req nd) := by
  refine (handle_moving env req nd).mono (fun _ _ hmoves => noNew_moves hreq hmoves) ?_
  rintro query - ⟨hasked, -⟩
  refine ⟨hasked.remote, ?_⟩
  intro ds hsave
  obtain ⟨domainName, rfl⟩ := hasked.save ds hsave
  exact hreq trivial

/-- The rest of an enable writes the role that the table has. -/
theorem enableAnswered_roleless {domainName : String}
    (henable : (nd.dom domainName).coloEnable = true) (ret : ValueT) :
    Roleless nd (enableAnswered domainName ret nd) := by
  have hfailed : ∀ nd', nd.NoNew nd' → nd.NoNew
      (nd'.modDom domainName fun ds => { ds with coloEnable := false }) :=
    fun nd' h => h.modDom domainName fun _ hfalse => absurd hfalse (by simp)
  unfold enableAnswered enableFailed
  dsimp only
  split
  · exact hfailed _ (.of_same rfl rfl)
  · split
    · exact hfailed _ (.refl nd)
    · split
      · exact hfailed _ (.refl nd)
      · refine ⟨fun _ _ _ h => h, ?_⟩
        intro d role _ hgives
        rcases gives_setDomainColoEnable hgives with hold | ⟨rfl, rfl⟩
        · exact .inr hold
        · exact .inl ⟨henable, rfl⟩

end

end ColoManage
