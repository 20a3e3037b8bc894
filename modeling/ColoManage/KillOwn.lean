import ColoManage.Host

/-!
# Whom a kill hits

`destroy_domain` takes the pid from the save file, and the leave to kill from the
table and a probe of the pid on record there.  While colod runs, the pid on file of a
domain that counts as started is one of its children.  A restart takes the
status from the name of the domain, so the pid of a domain that is called like a
status is killed whoever has it by then.
-/

namespace ColoManage

open EventSystem

/-- In this event `destroy_domain` kills no process but a VM of its domain. -/
def KillsOwn (host : Host) (event : HostEvent) : Prop :=
  ∀ req domainName, host.working event = some req → req.Destroys domainName →
    ∀ pid, host.node.Killed (host.step event).node pid →
      (host.step event).node.os.Has pid domainName

/-- The pid on file, if there is one, is that of a VM which the running colod
has launched for the domain. -/
def Node.PidOwn (born : ℕ) (domainName : String) (nd : Node) : Prop :=
  ∀ pid, getDomainPid domainName nd.save = some pid →
    ∃ cmd, .launch domainName cmd pid ∈ nd.since born

/-- The steps after which a domain is destroyed by a pid of its own: a definition is not
written over the save file, a domain is started from a definition of its name
unless its pid on file is its own already, and one whose name is a status is destroyed only
if its pid is its own. -/
def EventPid (host : Host) : HostEvent → Prop
  | .request (.define vmFilePath) _ => ∀ doc d,
      host.node.loadFile vmFilePath = some doc → vmConfigParse doc = .ok d →
        host.node.definitionFile d.name ≠ some defaultSaveFile
  | .request req _ =>
      (∀ domainName colo d, req.Starts domainName colo →
        host.node.getDomain domainName = .ok d →
          d.name = domainName ∨ host.node.PidOwn host.born domainName) ∧
      ∀ domainName, req.Destroys domainName → mapAt domainStatusMap domainName ≠ .shutOff →
        host.node.PidOwn host.born domainName
  | _ => True

/-! ## The pid on file -/

section

variable {sf sf' : SaveFile} {d : String} {pid : ℤ}

theorem pid_saveDomainInfo {ds : ColodDomainStatus} (hsave : saveDomainInfo ds sf = .ok sf')
    (h : getDomainPid d sf' = some pid) : d ≠ ds.name ∧ getDomainPid d sf = some pid := by
  obtain ⟨hne, entry, hfind, hpid⟩ := Node.getDomainPid_eq_some_iff.mp h
  rw [find_saveDomainInfo hsave] at hfind
  split at hfind
  · obtain rfl := Option.some.inj hfind
    exact absurd hpid.symm hne
  · rename_i hname
    exact ⟨hname, Node.getDomainPid_eq_some_iff.mpr ⟨hne, entry, hfind, hpid⟩⟩

theorem pid_saveDomainPid {name : String} {launched : ℤ}
    (h : getDomainPid d (saveDomainPid name launched sf) = some pid) :
    d = name ∧ pid = launched ∨ d ≠ name ∧ getDomainPid d sf = some pid := by
  obtain ⟨hne, entry, hfind, hpid⟩ := Node.getDomainPid_eq_some_iff.mp h
  rw [find_saveDomainPid] at hfind
  split at hfind
  · rename_i hname
    obtain ⟨old, -, rfl⟩ := Option.map_eq_some_iff.mp hfind
    exact .inl ⟨hname, hpid.symm⟩
  · rename_i hname
    exact .inr ⟨hname, Node.getDomainPid_eq_some_iff.mpr ⟨hne, entry, hfind, hpid⟩⟩

theorem pid_removeDomainPid {name : String}
    (h : getDomainPid d (removeDomainPid name sf).2 = some pid) :
    getDomainPid d sf = some pid := by
  obtain ⟨hne, entry, hfind, hpid⟩ := Node.getDomainPid_eq_some_iff.mp h
  rw [find_removeDomainPid] at hfind
  split at hfind
  · obtain ⟨old, -, rfl⟩ := Option.map_eq_some_iff.mp hfind
    exact absurd hpid.symm hne
  · exact Node.getDomainPid_eq_some_iff.mpr ⟨hne, entry, hfind, hpid⟩

theorem pid_setShutOffEntry {f : SaveEntry → SaveEntry}
    (hf : ∀ entry, (f entry).name = entry.name ∧ (f entry).pid = entry.pid) {name : String}
    (h : getDomainPid d (setShutOffEntry name f sf).2 = some pid) :
    getDomainPid d sf = some pid := by
  obtain ⟨hne, entry, hfind, hpid⟩ := Node.getDomainPid_eq_some_iff.mp h
  rw [find_setShutOffEntry fun entry => (hf entry).1] at hfind
  split at hfind
  · rename_i hname
    obtain ⟨old, hold, rfl⟩ := Option.map_eq_some_iff.mp hfind
    have hsame : old.pid = pid := by
      split at hpid
      · rw [← hpid, (hf old).2]
      · exact hpid
    exact Node.getDomainPid_eq_some_iff.mpr ⟨hne, old, by rw [hname]; exact hold, hsame⟩
  · exact Node.getDomainPid_eq_some_iff.mpr ⟨hne, entry, hfind, hpid⟩

theorem pid_vmUndefine {name : String} (h : getDomainPid d (vmUndefine name sf) = some pid) :
    getDomainPid d sf = some pid := by
  obtain ⟨hne, entry, hfind, hpid⟩ := Node.getDomainPid_eq_some_iff.mp h
  rw [find_vmUndefine] at hfind
  split at hfind
  · cases hfind
  · exact Node.getDomainPid_eq_some_iff.mpr ⟨hne, entry, hfind, hpid⟩

end

/-! ## The invariant -/

/-- A domain that counts as started has its own pid on file, unless its name is
a status. -/
def Owned (born : ℕ) (nd : Node) : Prop :=
  ∀ d, mapAt domainStatusMap d = .shutOff → nd.Started d → nd.PidOwn born d

/-- What the handler was allowed to do, as it stands in its later states. -/
structure Permitted (born : ℕ) (req : Request) (start nd : Node) : Prop where
  define : ∀ vmFilePath doc d, req = .define vmFilePath → start.loadFile vmFilePath = some doc →
    vmConfigParse doc = .ok d → start.definitionFile d.name ≠ some defaultSaveFile
  starts : ∀ domainName colo d, req.Starts domainName colo →
    start.getDomain domainName = .ok d → d.name = domainName ∨ nd.PidOwn born domainName
  destroys : ∀ domainName, req.Destroys domainName →
    mapAt domainStatusMap domainName ≠ .shutOff → nd.PidOwn born domainName

section

variable {env : Env} {req : Request} {start first nd nd' : Node} {born : ℕ} {d : String}

theorem pidOwn_of_log {more : List Effect} (h : nd.PidOwn born d) (hborn : born ≤ nd.log.length)
    (hlog : nd'.log = nd.log ++ more)
    (hpid : ∀ pid, getDomainPid d nd'.save = some pid → getDomainPid d nd.save = some pid ∨
      ∃ cmd, .launch d cmd pid ∈ more) : nd'.PidOwn born d := by
  intro pid hfile
  rcases hpid pid hfile with hold | ⟨cmd, hnew⟩
  · obtain ⟨cmd, hmem⟩ := h pid hold
    refine ⟨cmd, ?_⟩
    rw [since_append hborn hlog]
    exact List.mem_append_left more hmem
  · exact ⟨cmd, mem_since_of_mem hborn hlog hnew⟩

theorem pidOwn_frame (h : nd.PidOwn born d) (hlog : nd'.log = nd.log)
    (hpid : ∀ pid, getDomainPid d nd'.save = some pid → getDomainPid d nd.save = some pid) :
    nd'.PidOwn born d := by
  intro pid hfile
  unfold Node.since
  rw [hlog]
  exact h pid (hpid pid hfile)

/-- A move keeps the pid on file a child's, if it was one. -/
theorem pidOwn_move (h : nd.PidOwn born d) (hborn : born ≤ nd.log.length)
    (hpermitted : Permitted born req start nd) (hmove : Move env req start nd nd') :
    nd'.PidOwn born d := by
  cases hmove with
  | talked htalked =>
      obtain ⟨messages, hlog, -⟩ := htalked.log
      exact pidOwn_of_log h hborn hlog fun pid hfile => .inl (by rwa [htalked.save] at hfile)
  | touched name => exact h
  | swept hdead => exact pidOwn_frame h rfl fun _ => pid_removeDomainPid
  | savedStatus cs => exact h
  | wrote hreq hload hparse hfile =>
      have hpath := hpermitted.define _ _ _ hreq hload hparse
      unfold Node.writeFile
      rw [if_neg fun hsave => hpath (hfile.trans (congrArg some hsave))]
      exact h
  | defined hreq hpid hstatus henable hsave =>
      exact pidOwn_frame h rfl fun _ hfile => (pid_saveDomainInfo hsave hfile).2
  | undefined hreq => exact pidOwn_frame h rfl fun _ => pid_vmUndefine
  | launched hreq henable hget hfork hstatus =>
      refine pidOwn_of_log h hborn rfl fun pid hfile => ?_
      rcases pid_saveDomainPid hfile with ⟨rfl, rfl⟩ | ⟨-, hold⟩
      · exact .inr ⟨_, List.mem_singleton.mpr rfl⟩
      · exact .inl hold
  | forkFailed hreq => exact h
  | missed hreq hpid hevents => exact pidOwn_frame h rfl fun _ => pid_removeDomainPid
  | killed hreq hpid hevents hstarted hsave =>
      exact pidOwn_of_log h hborn rfl fun _ hfile => .inl (pid_removeDomainPid hfile)
  | flagged value role hreq => exact h
  | savedEnable hreq =>
      exact pidOwn_frame h rfl fun _ => pid_setShutOffEntry (by intro entry; exact ⟨rfl, rfl⟩)
  | disabled hreq =>
      exact pidOwn_frame h rfl fun _ => pid_setShutOffEntry (by intro entry; exact ⟨rfl, rfl⟩)
  | failedOver hreq hold hnew hrole => exact h
  | peerSaved hreq hsave =>
      exact pidOwn_frame h rfl fun _ hfile => (pid_saveDomainInfo hsave hfile).2
  | peerStored hreq hsave =>
      refine pidOwn_frame h rfl fun _ hfile => (pid_saveDomainInfo hsave ?_).2
      exact pid_setShutOffEntry (by intro entry; exact ⟨rfl, rfl⟩) hfile

theorem permitted_move (h : Permitted born req start nd) (hborn : born ≤ nd.log.length)
    (hmove : Move env req start nd nd') : Permitted born req start nd' where
  define := h.define
  starts := fun name colo d hreq hget =>
    (h.starts name colo d hreq hget).imp id fun hown => pidOwn_move hown hborn h hmove
  destroys := fun name hreq hstatus => pidOwn_move (h.destroys name hreq hstatus) hborn h hmove

theorem started_setDom {name : String} {ds : ColodDomainStatus}
    (h : (nd.setDom name ds).Started d) :
    nd.Started d ∧ d ≠ name ∨ d = name ∧ ds.pid ≠ -1 ∧ ds.status ≠ .shutOff := by
  unfold Node.Started at h ⊢
  rw [Node.dom_setDom] at h
  split at h
  · rename_i hname
    exact .inr ⟨hname, h⟩
  · rename_i hname
    exact .inl ⟨h, hname⟩

/-- A move by which a domain begins to count as started leaves its own pid on
file. -/
theorem owned_move (h : Owned born nd) (hborn : born ≤ nd.log.length)
    (hpermitted : Permitted born req start nd) (hmove : Move env req start nd nd') :
    Owned born nd' := by
  intro d hordinary hstarted
  have hkeeps : nd.Started d → nd'.PidOwn born d := fun hold =>
    pidOwn_move (h d hordinary hold) hborn hpermitted hmove
  cases hmove with
  | talked htalked => exact hkeeps (started_congr htalked.domains.symm hstarted)
  | touched name => exact hkeeps (by simpa [Node.Started] using hstarted)
  | swept hdead =>
      rcases started_setDom hstarted with ⟨hold, -⟩ | ⟨-, -, hstatus⟩
      · exact hkeeps (by simpa [Node.Started] using hold)
      · exact absurd rfl hstatus
  | savedStatus cs => exact hkeeps hstarted
  | wrote hreq hload hparse hfile =>
      refine hkeeps (started_congr ?_ hstarted)
      unfold Node.writeFile
      split <;> rfl
  | defined hreq hpid hstatus henable hsave =>
      rcases started_setDom hstarted with ⟨hold, -⟩ | ⟨-, -, hshut⟩
      · exact hkeeps hold
      · exact absurd hstatus hshut
  | undefined hreq =>
      rename_i name
      by_cases hname : d = name
      · have hnone : (nd.eraseDom name).dom d = default := by
          rw [Node.dom, Node.lookup_eraseDom, if_pos hname]
          rfl
        have hshut : ((nd.eraseDom name).dom d).status ≠ .shutOff := hstarted.2
        rw [hnone] at hshut
        exact absurd rfl hshut
      · refine hkeeps ?_
        have hsame : (nd.eraseDom name).dom d = nd.dom d := by
          unfold Node.dom
          rw [Node.lookup_eraseDom, if_neg hname]
        have hstarted' : (nd.eraseDom name).Started d := hstarted
        unfold Node.Started at hstarted' ⊢
        rwa [← hsame]
  | launched hreq henable hget hfork hstatus =>
      rcases started_setDom hstarted with ⟨hold, -⟩ | ⟨rfl, -⟩
      · exact hkeeps hold
      · rcases hpermitted.starts _ _ _ hreq hget with hname | hown
        · intro pid hfile
          rcases pid_saveDomainPid hfile with ⟨-, rfl⟩ | ⟨hne, -⟩
          · rw [hname]
            exact ⟨_, mem_since_of_mem hborn rfl (List.mem_singleton.mpr rfl)⟩
          · exact absurd hname.symm hne
        · exact pidOwn_move hown hborn hpermitted (.launched hreq henable hget hfork hstatus)
  | forkFailed hreq =>
      rcases started_setDom hstarted with ⟨hold, -⟩ | ⟨-, hpid, -⟩
      · exact hkeeps hold
      · exact absurd rfl hpid
  | missed hreq hpid hevents => exact hkeeps hstarted
  | killed hreq hpid hevents hstarted' hsave =>
      rcases started_setDom hstarted with ⟨hold, -⟩ | ⟨-, -, hstatus⟩
      · exact hkeeps hold
      · exact absurd rfl hstatus
  | flagged value role hreq =>
      rcases started_setDom hstarted with ⟨hold, -⟩ | ⟨rfl, hsame⟩
      · exact hkeeps hold
      · exact hkeeps hsame
  | savedEnable hreq => exact hkeeps hstarted
  | disabled hreq =>
      rcases started_setDom hstarted with ⟨hold, -⟩ | ⟨rfl, hsame⟩
      · exact hkeeps hold
      · exact hkeeps hsame
  | failedOver hreq hold hnew hrole =>
      rcases started_setDom hstarted with ⟨hold', -⟩ | ⟨rfl, hpid, -⟩
      · exact hkeeps hold'
      · exact hkeeps ⟨hpid, hold⟩
  | peerSaved hreq hsave => exact hkeeps hstarted
  | peerStored hreq hsave =>
      rcases started_setDom hstarted with ⟨hold, -⟩ | ⟨rfl, -⟩
      · exact hkeeps hold
      · intro pid hfile
        have hfile' := pid_setShutOffEntry (by intro entry; exact ⟨rfl, rfl⟩) hfile
        exact absurd (mirrorDomain_name _).symm (pid_saveDomainInfo hsave hfile').1

/-- A handler at work, with all that its moves keep. -/
structure Owning (born : ℕ) (env : Env) (req : Request) (start nd : Node) : Prop where
  kept : Kept born nd
  spared : Spared born env req nd
  owned : Owned born nd
  permitted : Permitted born req start nd

theorem owning_move (h : Owning born env req start nd) (hmove : Move env req start nd nd') :
    Owning born env req start nd' where
  kept := (kept_move h.kept h.spared hmove).1
  spared := (kept_move h.kept h.spared hmove).2
  owned := owned_move h.owned h.kept.born_le h.permitted hmove
  permitted := permitted_move h.permitted h.kept.born_le hmove

/-- Between the two states the handler has killed VMs of its domain only. -/
def KilledOwn (born : ℕ) (req : Request) (first nd : Node) : Prop :=
  ∃ more, nd.log = first.log ++ more ∧ ∀ pid, .kill pid ∈ more →
    ∀ domainName, req.Destroys domainName → ∃ cmd, .launch domainName cmd pid ∈ nd.since born

theorem destroys_unique {d d' : String} (h : req.Destroys d) (h' : req.Destroys d') : d = d' := by
  rcases h with rfl | rfl <;> rcases h' with heq | heq
  · exact Request.destroy.inj heq
  · cases heq
  · cases heq
  · exact Request.peerDestroyDomain.inj heq

theorem killedOwn_append {more : List Effect} (h : KilledOwn born req first nd)
    (hborn : born ≤ nd.log.length) (hlog : nd'.log = nd.log ++ more)
    (hmore : ∀ pid, .kill pid ∈ more → ∀ domainName, req.Destroys domainName →
      ∃ cmd, .launch domainName cmd pid ∈ nd.since born) : KilledOwn born req first nd' := by
  obtain ⟨before, hbefore, hown⟩ := h
  refine ⟨before ++ more, by rw [hlog, hbefore, List.append_assoc], ?_⟩
  intro pid hmem domainName hreq
  have hold : ∃ cmd, .launch domainName cmd pid ∈ nd.since born := by
    rcases List.mem_append.mp hmem with hkill | hkill
    · exact hown pid hkill domainName hreq
    · exact hmore pid hkill domainName hreq
  obtain ⟨cmd, hlaunch⟩ := hold
  refine ⟨cmd, ?_⟩
  rw [since_append hborn hlog]
  exact List.mem_append_left more hlaunch

theorem killedOwn_move (h : KilledOwn born req first nd) (howning : Owning born env req start nd)
    (hmove : Move env req start nd nd') : KilledOwn born req first nd' := by
  cases machine_of_move hmove with
  | talked hos hlog hmessages =>
      refine killedOwn_append h howning.kept.born_le hlog ?_
      intro pid hmem
      exact absurd (hmessages _ hmem) (by simp [Effect.isMessage])
  | launched hreq henable hget hfork hlog =>
      exact killedOwn_append h howning.kept.born_le hlog (by simp)
  | missed hreq hevents hos hlog =>
      have hnothing : nd'.log = nd.log ++ [] := by rw [hlog, List.append_nil]
      exact killedOwn_append h howning.kept.born_le hnothing (by simp)
  | @killed name target events hreq hevents hpid hstarted hsave hos hlog =>
      refine killedOwn_append h howning.kept.born_le hlog ?_
      intro pid hmem domainName hdestroys
      obtain rfl := Effect.kill.inj (List.mem_singleton.mp hmem)
      obtain rfl := destroys_unique hreq hdestroys
      by_cases hordinary : mapAt domainStatusMap name = .shutOff
      · exact howning.owned name hordinary hstarted pid hpid
      · exact howning.permitted.destroys name hreq hordinary pid hpid

theorem killedOwn_of_moves (howning : Owning born env req start first)
    (h : Moves env req start first nd) :
    Owning born env req start nd ∧ KilledOwn born req first nd := by
  have hnothing : KilledOwn born req first first :=
    ⟨[], (List.append_nil _).symm, by simp⟩
  refine inv_of_moves (I := fun nd => Owning born env req start nd ∧ KilledOwn born req first nd)
    ?_ ⟨howning, hnothing⟩ h
  rintro nd nd' ⟨hnd, hkilled⟩ hmove
  exact ⟨owning_move hnd hmove, killedOwn_move hkilled hnd hmove⟩

/-- What a killed pid has in the table. -/
theorem has_of_killed {domainName : String} {pid : ℤ} (h : Owning born env req start first)
    (hmoves : Moves env req start first nd) (hreq : req.Destroys domainName)
    (hkilled : first.Killed nd pid) : nd.os.Has pid domainName := by
  obtain ⟨hnd, more, hlog, hown⟩ := killedOwn_of_moves h hmoves
  obtain ⟨more', hlog', hmem⟩ := hkilled
  obtain rfl := List.append_cancel_left (hlog.symm.trans hlog')
  obtain ⟨cmd, hlaunch⟩ := hown pid hmem domainName hreq
  exact hnd.kept.has domainName cmd pid hlaunch

end

/-! ## Whole runs -/

/-- The host of a run: its domains own their pids, and so do handlers at work. -/
abbrev HostOwns (host : Host) : Prop :=
  host.Holds (fun born nd => Kept born nd ∧ Owned born nd) Owning

section

variable {env : Env} {req : Request} {nd : Node} {host : Host} {event : HostEvent}

theorem owned_rsInit (nd : Node) : Owned nd.log.length nd.rsInit := by
  intro d hordinary hstarted
  have hshut : (nd.rsInit.dom d).status = .shutOff := by
    unfold Node.dom
    cases hlookup : nd.rsInit.domains.lookup d with
    | none => rfl
    | some ds =>
        obtain ⟨entry, -, rfl, rfl⟩ := entry_of_lookup_domainsInit hlookup
        exact hordinary
  exact absurd hshut hstarted.2

theorem owned_writeFile {born : ℕ} (h : Owned born nd) {path : String}
    (hpath : path ≠ defaultSaveFile) (doc : Yaml.Node) : Owned born (nd.writeFile path doc) := by
  unfold Node.writeFile
  rw [if_neg hpath]
  exact h

theorem permitted_of_eventPid (h : EventPid host (.request req env)) :
    Permitted host.born req host.node host.node := by
  cases req with
  | define vmFilePath =>
      refine ⟨?_, ?_, ?_⟩
      · rintro path doc d hreq hload hparse
        obtain rfl := Request.define.inj hreq
        exact h doc d hload hparse
      · rintro domainName colo d (hreq | hreq) <;> cases hreq
      · rintro domainName (hreq | hreq) <;> cases hreq
  | _ => exact ⟨by simp, h.1, h.2⟩

theorem owning_of_event (hkept : Kept host.born host.node) (howned : Owned host.born host.node)
    (hup : host.up = true) (hlegal : host.Legal (.request req env))
    (hpid : EventPid host (.request req env)) :
    Owning host.born env req host.node host.node :=
  ⟨hkept, spared_of_legal hup hlegal, howned, permitted_of_eventPid hpid⟩

theorem hostOwns_step (h : HostOwns host) (hevent : host.Legal event ∧ EventPid host event) :
    HostOwns (host.step event) := by
  refine Host.holds_step (C := fun host event => host.Legal event ∧ EventPid host event)
    ?_ ?_ ?_ ?_ ?_ ?_ hevent h
  · exact fun nd => ⟨kept_rsInit nd, owned_rsInit nd⟩
  · exact fun _ _ _ hnode hup hevent =>
      owning_of_event hnode.1 hnode.2 hup hevent.1 hevent.2
  · exact fun _ _ _ _ _ _ hbusy hmove => owning_move hbusy hmove
  · exact fun _ _ _ _ _ hbusy => ⟨hbusy.kept, hbusy.owned⟩
  · intro host event hup hevent
    refine ⟨fun hnode => ⟨kept_osAfter hnode.1 hup hevent.1, hnode.2⟩, ?_⟩
    exact fun _ _ _ hbusy =>
      ⟨kept_osAfter hbusy.kept hup hevent.1, hbusy.spared, hbusy.owned,
        hbusy.permitted.define, hbusy.permitted.starts, hbusy.permitted.destroys⟩
  · intro born nd path doc hpath
    refine ⟨fun hnode => ⟨kept_writeFile hnode.1 path doc, owned_writeFile hnode.2 hpath doc⟩, ?_⟩
    intro env req start hbusy
    unfold Node.writeFile
    rw [if_neg hpath]
    exact ⟨⟨hbusy.kept.born_le, hbusy.kept.has⟩, hbusy.spared, hbusy.owned,
      hbusy.permitted.define, hbusy.permitted.starts, hbusy.permitted.destroys⟩

theorem killsOwn_of_hostOwns (h : HostOwns host)
    (hevent : host.Legal event ∧ EventPid host event) : KillsOwn host event := by
  intro req domainName hworking hreq pid hkilled
  cases event with
  | request req' env =>
      simp only [Host.working, Option.ite_none_right_eq_some, Option.some.injEq] at hworking
      obtain ⟨hidle, rfl⟩ := hworking
      have hup : host.up = true := by
        simp only [Host.idle, Bool.and_eq_true] at hidle
        exact hidle.1
      have hnode := h.node hup
      simp only [Host.step, hidle, if_true] at hkilled ⊢
      exact has_of_killed (owning_of_event hnode.1 hnode.2 hup hevent.1 hevent.2)
        (moves_settle (handle_moving env req' host.node) host) hreq hkilled
  | answer reply =>
      cases hjob : host.job with
      | none => simp [Host.working, hjob] at hworking
      | some job =>
          obtain rfl : job.req = req := by simpa [Host.working, hjob] using hworking
          obtain ⟨hup, start, hbusy, hresume⟩ := h.job job hjob
          simp only [Host.step, hjob] at hkilled ⊢
          exact has_of_killed hbusy
            (moves_settle (hresume reply _ (Node.apart_refl _)) host) hreq hkilled
  | os event => cases hworking
  | restart => cases hworking
  | writeFile path doc => cases hworking

end

/-- In a run all of whose steps meet the condition, `destroy_domain` kills no
process but a VM of its domain. -/
theorem along_killsOwn {nd : Node} {events : List HostEvent}
    (hlegal : Along Host.step Host.Legal (Host.boot nd) events)
    (hrun : Along Host.step EventPid (Host.boot nd) events) :
    Along Host.step KillsOwn (Host.boot nd) events := by
  have hboth := along_and hlegal hrun
  refine along_of_inv (fun host event h hevent => hostOwns_step h hevent)
    (fun host event h hevent => killsOwn_of_hostOwns h hevent) ?_ hboth
  exact Host.holds_boot (fun nd => ⟨kept_rsInit nd, owned_rsInit nd⟩) nd

theorem killsOwn_destroyed :
    Along Host.step KillsOwn (Host.boot .fresh) destroyedRun := by
  have hlegal : Along Host.step Host.Legal (Host.boot .fresh) destroyedRun := by
    refine ⟨?_, ?_, ?_, trivial⟩ <;> decide +kernel
  refine along_killsOwn hlegal ⟨?_, ⟨?_, ?_⟩, ⟨?_, ?_⟩, trivial⟩
  · intro doc d hload hparse
    obtain rfl : sampleDefinition "d" = doc := Option.some.inj hload
    obtain rfl := Except.ok.inj ((vmConfigParse_sample "d").symm.trans hparse)
    decide +kernel
  · rintro name colo d (hreq | hreq) hget
    · obtain ⟨rfl, -⟩ := Request.start.inj hreq
      obtain rfl := Except.ok.inj ((vmConfigParse_sample "d").symm.trans hget)
      exact .inl rfl
    · cases hreq
  · rintro name (hreq | hreq) <;> cases hreq
  · rintro name colo d (hreq | hreq) <;> cases hreq
  · rintro name (hreq | hreq) hstatus
    · obtain rfl := Request.destroy.inj hreq
      exact absurd (by decide) hstatus
    · cases hreq

/-- Define and start a domain called `running` and restart colod; its VM exits,
and another process gets the pid. -/
def recycledRun : List HostEvent :=
  [.writeFile "/root/r.yaml" (sampleDefinition "running"),
    .request (.define "/root/r.yaml") (.smooth 100),
    .request (.start "running" false) (.smooth 100), .restart,
    .os (.exit 100), .os (.reap 100), .os (.appear 100)]

/-- A destroy of a domain that is on record as running. -/
theorem killed_colodDestroy {env : Env} {domainName : String} {nd : Node} {pid : ℤ}
    (hmem : domainName ∈ nd.domains) (hstarted : nd.Started domainName)
    (hstatus : (nd.dom domainName).status = .running) (hdead : ¬ nd.FoundDead domainName)
    (hrecorded : getDomainPid domainName nd.save = some pid) (hsurvives : Survives env nd.os pid) :
    nd.Killed ((colodDestroy env domainName nd).follow Node.osAfter []).state pid := by
  have htest := Node.testDomainStatus_of_not_dead hdead
  rw [if_neg hstarted.1, Node.touch_of_mem hmem] at htest
  unfold colodDestroy
  rw [htest, hstatus]
  simp only [reduceCtorEq, if_false, hstatus]
  exact (Node.killed_destroyHost_iff env domainName _ nd [] pid).mpr ⟨hrecorded, hsurvives⟩

def recycledHost : Host := recycledRun.foldl Host.step (Host.boot .fresh)

theorem not_killsOwn_recycled :
    Along Host.step Host.Legal (Host.boot .fresh)
        (recycledRun ++ [.request (.destroy "running") (.smooth 100)]) ∧
      ¬ Along Host.step KillsOwn (Host.boot .fresh)
        (recycledRun ++ [.request (.destroy "running") (.smooth 100)]) := by
  refine ⟨⟨?_, ?_, ?_, ?_, ?_, ?_, ?_, ?_, trivial⟩, ?_⟩ <;> try decide +kernel
  intro h
  obtain ⟨hlast, -⟩ := (along_append.mp h).2
  have hidle : recycledHost.idle = true := by decide +kernel
  have hnode : (recycledHost.step (.request (.destroy "running") (.smooth 100))).node =
      ((colodDestroy (.smooth 100) "running" recycledHost.node).follow Node.osAfter []).state := by
    simp only [Host.step, hidle, if_true, settle_node]
    rfl
  have hkilled : recycledHost.node.Killed
      ((colodDestroy (.smooth 100) "running" recycledHost.node).follow Node.osAfter []).state 100 :=
    killed_colodDestroy (by decide +kernel) ⟨by decide +kernel, by decide +kernel⟩
      (by decide +kernel) (by decide +kernel) (by decide +kernel) (by decide +kernel)
  have hworking : recycledHost.working (.request (.destroy "running") (.smooth 100)) =
      some (.destroy "running") := by simp [Host.working, hidle]
  rw [← hnode] at hkilled
  obtain ⟨vm, hvm, -⟩ := hlast (.destroy "running") "running" hworking (.inl rfl) 100 hkilled
  have hempty : (recycledHost.step (.request (.destroy "running") (.smooth 100))).node.os.vms =
      [] := by decide +kernel
  rw [show recycledRun.foldl Host.step (Host.boot .fresh) = recycledHost from rfl, hempty] at hvm
  cases hvm

end ColoManage
