import ColoManage.ForkedService
import ColoManage.Library.PoolInvariants
import ColoManage.Listing
import ColoManage.Moves
import ColoManage.Waits

/-!
# Pid and status of a record

The two members are assigned apart.  A record that is not shut off has a pid of a process
launched here, unless a native start has ignored a failed fork, the peer has sent the
record of a domain that runs over there, or a start of colod has taken a name for a
status.  There is one more way: a child whose command cannot be executed runs on with the
pid `0`, which no handler takes for a failure.
-/

namespace ColoManage

open Resumption EventSystem Relation Forking

/-! ## The property -/

/-- Unless it is shut off, the record has a pid that `run_new_vm` returned here
as a process id. -/
def RecordCoherent (log : List Effect) (ds : ColodDomainStatus) : Prop :=
  ds.status ≠ .shutOff → 0 < ds.pid ∧ ∃ name cmd, .launch name cmd ds.pid ∈ log

def Coherent (nd : Node) : Prop := ∀ name, RecordCoherent nd.log (nd.dom name)

/-- The list shows the domains that do not test as shut off, and no others. -/
def ListTruthful (nd : Node) : Prop :=
  ∃ nd', colodList false nd = .done ⟨0,
    if nd.domains.keys = [] then "no defined domain."
    else ((nd.domains.keys.filter fun name =>
        decide ((nd.testDomainStatus name).1 ≠ .shutOff)).map nd.tested).foldl
      appendBlock separator⟩ nd'

/-- The property of the processes of colod: of each that is in its loop, waits for its
peer, or has died. -/
def Coherence (pool : Colods) : Prop :=
  Settled colod (fun nd => Coherent nd ∧ ListTruthful nd) pool

/-- What happens to colod over its lives. -/
inductive LifeEvent
  | event (event : ColodEvent)
  | restart

/-- At a restart the first process starts anew, and the children stay. -/
def lifeStep (pool : Colods) : LifeEvent → Colods
  | .event event => colod.step pool event
  | .restart => pool.restart pool.world.rsInit

/-- A native start that gets as far as `run_new_vm` gets a process, and a record from the
peer is coherent here. -/
def KeepsCoherent (taken : Request × Env) (nd : Node) : Prop :=
  match taken with
  | (.start domainName false, env) => (nd.testDomainStatus domainName).1 = .shutOff →
      ∀ d, nd.getDomain domainName = .ok d → nd.os.fork env.fork d.name ≠ none
  | (.peerSaveDomain ds, _) => nd.save.domains ≠ .other → RecordCoherent nd.log ds
  | _ => True

/-- A domain whose name is a status has a pid of its own on file. -/
def FileCoherent (nd : Node) : Prop :=
  ∀ before entry after, nd.save.domains.entries = before ++ entry :: after →
    entry.name ∉ after.map SaveEntry.name → mapAt domainStatusMap entry.name ≠ .shutOff →
      0 < entry.pid ∧ ∃ name cmd, .launch name cmd entry.pid ∈ nd.log

/-- The command of a child starts, a request keeps records coherent where it is taken, and
so does the save file when colod starts. -/
def EventCoherent (pool : Colods) : LifeEvent → Prop
  | .event event => ExecStarts pool event ∧ Takes colod KeepsCoherent pool event
  | .restart => FileCoherent pool.world

/-! ## What keeps records coherent -/

section

variable {nd nd' start first : Node} {env : Env} {req : Request} {ds : ColodDomainStatus}

theorem RecordCoherent.append {log : List Effect} (h : RecordCoherent log ds)
    (more : List Effect) : RecordCoherent (log ++ more) ds := by
  intro hstatus
  obtain ⟨hpos, name, cmd, hmem⟩ := h hstatus
  exact ⟨hpos, name, cmd, List.mem_append_left more hmem⟩

theorem recordCoherent_of_shutOff {log : List Effect} (h : ds.status = .shutOff) :
    RecordCoherent log ds := fun hstatus => absurd h hstatus

/-- Every record is an old one or coherent by itself. -/
theorem Coherent.step (h : Coherent nd) {more : List Effect} (hlog : nd'.log = nd.log ++ more)
    (hdom : ∀ name, nd'.dom name = nd.dom name ∨ RecordCoherent nd'.log (nd'.dom name)) :
    Coherent nd' := by
  intro name
  rcases hdom name with hsame | hcoherent
  · rw [hsame, hlog]
    exact (h name).append more
  · exact hcoherent

theorem Coherent.congr (h : Coherent nd) (hdom : ∀ name, nd'.dom name = nd.dom name)
    (hlog : nd'.log = nd.log) : Coherent nd' :=
  h.step (hlog.trans (List.append_nil nd.log).symm) fun name => .inl (hdom name)

theorem Coherent.apart (h : Coherent nd) (hapart : nd.Apart nd') : Coherent nd' := by
  obtain ⟨os, files, rfl⟩ := hapart
  exact h

/-- One record is replaced by a coherent one. -/
theorem Coherent.update (h : Coherent nd) {more : List Effect} (hlog : nd'.log = nd.log ++ more)
    {name : String} (hdom : ∀ other, nd'.dom other = if other = name then ds else nd.dom other)
    (hds : RecordCoherent nd'.log ds) : Coherent nd' := by
  refine h.step hlog fun other => ?_
  rw [hdom]
  split
  · exact .inr hds
  · exact .inl rfl

/-- The same without a line in the log. -/
theorem Coherent.setDom (h : Coherent nd) (hlog : nd'.log = nd.log) {name : String}
    (hdom : ∀ other, nd'.dom other = if other = name then ds else nd.dom other)
    (hds : RecordCoherent nd.log ds) : Coherent nd' := by
  refine h.update (hlog.trans (List.append_nil nd.log).symm) hdom ?_
  rw [hlog]
  exact hds

/-- The requests that only make moves which keep the two members together. -/
def Request.Careful (req : Request) : Prop :=
  (∀ domainName, req ≠ .start domainName false) ∧ ∀ ds, req ≠ .peerSaveDomain ds

theorem dom_swept (domainName other : String) (nd : Node) :
    (nd.swept domainName).dom other =
      if other = domainName then { nd.dom domainName with status := .shutOff }
      else nd.dom other := by
  have hset : (nd.swept domainName).dom other = ((nd.touch domainName).setDom domainName
      { (nd.touch domainName).dom domainName with status := .shutOff }).dom other := rfl
  rw [hset, Node.dom_setDom, Node.dom_touch, Node.dom_touch]

theorem dom_erased (domainName other : String) (nd : Node) :
    (nd.eraseDom domainName).dom other =
      if other = domainName then default else nd.dom other := by
  unfold Node.dom
  rw [Node.lookup_eraseDom]
  split <;> rfl

theorem recordCoherent_launched {log : List Effect} {name : String} {cmd : ShellCommand} {pid : ℤ}
    (hpos : 0 < pid) (hpid : ds.pid = pid) :
    RecordCoherent (log ++ [.launch name cmd pid]) ds := by
  intro _
  rw [hpid]
  exact ⟨hpos, name, cmd, by simp⟩

theorem coherent_move (hcareful : req.Careful) (h : Coherent nd)
    (hmove : Move env req start nd nd') : Coherent nd' := by
  cases hmove with
  | talked htalked =>
      obtain ⟨messages, hlog, -⟩ := htalked.log
      exact h.step hlog fun name => .inl (Node.dom_of_domains_eq htalked.domains name)
  | touched domainName => exact h.congr (fun name => Node.dom_touch domainName name nd) rfl
  | swept hdead =>
      exact h.setDom rfl (fun other => dom_swept _ other nd) (recordCoherent_of_shutOff rfl)
  | savedStatus cs => exact h
  | wrote hreq hload hparse hfile =>
      unfold Node.writeFile
      split
      · exact h
      · exact h
  | defined hreq hpid hstatus henable hsave =>
      exact h.setDom rfl (fun other => Node.dom_setDom _ other _ _)
        (recordCoherent_of_shutOff hstatus)
  | undefined hreq =>
      exact h.setDom rfl (fun other => dom_erased _ other nd) (recordCoherent_of_shutOff rfl)
  | launched hreq henable hget hfork hstatus =>
      have hpos := (ProcessTable.fork_eq_some hfork).1
      refine h.update rfl (fun other => Node.dom_setDom _ other _ _) ?_
      exact recordCoherent_launched hpos rfl
  | forkFailed hreq => exact absurd hreq (hcareful.1 _)
  | missed hreq hpid hevents => exact h
  | killed hreq hpid hevents hstarted hsave =>
      exact h.update rfl (fun other => Node.dom_setDom _ other _ _)
        (recordCoherent_of_shutOff rfl)
  | flagged value role hreq =>
      exact h.setDom rfl (fun other => Node.dom_setDom _ other _ _) (h _)
  | savedEnable hreq => exact h
  | disabled hreq => exact h.setDom rfl (fun other => Node.dom_setDom _ other _ _) (h _)
  | failedOver hreq hold hnew hrole =>
      exact h.setDom rfl (fun other => Node.dom_setDom _ other _ _) fun _ => h _ hold
  | peerSaved hreq hsave => exact absurd hreq (hcareful.2 _)
  | peerStored hreq hsave => exact absurd hreq (hcareful.2 _)

theorem coherent_moves (hcareful : req.Careful) (h : Coherent first)
    (hmoves : Moves env req start first nd) : Coherent nd :=
  inv_of_moves (fun _ _ => coherent_move hcareful) h hmoves

/-- A careful request, leg by leg. -/
theorem legs_of_careful (hcareful : req.Careful) (h : Coherent nd) (env : Env) :
    (handle env req nd).Legs Node.Apart (fun _ state => Coherent state)
      (fun query state => Asked req nd query ∧ Issued query state) nd := by
  refine (handle_moving env req nd).inv ?_ ?_ h
  · exact fun s s' hs hmoves => coherent_moves hcareful hs hmoves
  · exact fun s s' hs hapart => hs.apart hapart

/-! ## The two requests that are not careful -/

theorem coherent_test (h : Coherent nd) (domainName : String) :
    Coherent (nd.testDomainStatus domainName).2 := by
  rw [Node.testDomainStatus_node]
  split
  · exact h.setDom rfl (fun other => dom_swept _ other nd) (recordCoherent_of_shutOff rfl)
  · exact h.congr (fun name => Node.dom_touch domainName name nd) rfl

theorem coherent_startNative_iff (h : Coherent nd) (env : Env) (domainName : String)
    (d : Domain) :
    Coherent (startNative env domainName d nd).stop ↔ nd.os.fork env.fork d.name ≠ none := by
  unfold startNative
  rcases nd.runNewVm_cases env d.name (generateVmCmd d).2 with ⟨hfork, heq⟩ | ⟨pid, os, hfork, heq⟩
  · rw [heq]
    refine iff_of_false (fun hcoherent => ?_) (fun hne => hne hfork)
    have hrecord := hcoherent domainName
    simp [RecordCoherent, Act.stop] at hrecord
  · rw [heq, hfork]
    refine iff_of_true ?_ (by simp)
    have hpos := (ProcessTable.fork_eq_some hfork).1
    refine h.update rfl (fun other => Node.dom_setDom _ other _ _) ?_
    exact recordCoherent_launched hpos rfl

theorem coherent_start_iff (h : Coherent nd) (env : Env) (domainName : String) :
    Coherent (colodStart env domainName false nd).stop ↔
      KeepsCoherent (.start domainName false, env) nd := by
  have htest := coherent_test h domainName
  have hget := getDomain_testDomainStatus domainName nd
  unfold colodStart KeepsCoherent
  simp only [Node.testDomainStatus_touch, Bool.not_false, if_true]
  by_cases hshut : (nd.testDomainStatus domainName).1 = .shutOff
  · simp only [hshut, ne_eq, not_true_eq_false, if_false, true_imp_iff]
    cases hload : (nd.testDomainStatus domainName).2.getDomain domainName with
    | error stop =>
        have hnone : ∀ d, nd.getDomain domainName ≠ .ok d := getDomain_ne_ok_of_error hload
        refine iff_of_true ?_ fun d hok => absurd hok (hnone d)
        cases stop with
        | thrown exn => exact htest
        | refused err => exact htest
    | ok d =>
        have hok : ∀ d', nd.getDomain domainName = .ok d' ↔ d = d' := by
          intro d'
          rw [← hget d', hload, Except.ok.injEq]
        simp only [hok, forall_eq']
        have hnative := coherent_startNative_iff htest env domainName d
        rw [Node.testDomainStatus_os, ne_eq] at hnative
        exact hnative
  · simp only [hshut, ne_eq, not_false_eq_true, if_true, IsEmpty.forall_iff, iff_true]
    exact htest

theorem recordCoherent_mirrorDomain_iff {log : List Effect} :
    RecordCoherent log (mirrorDomain ds) ↔ RecordCoherent log ds := by
  unfold RecordCoherent mirrorDomain
  split <;> exact Iff.rfl

theorem coherent_peerSaveDomain_iff (h : Coherent nd) (env : Env) (ds : ColodDomainStatus) :
    Coherent (peerColodSaveDomain ds nd).stop ↔ KeepsCoherent (.peerSaveDomain ds, env) nd := by
  unfold peerColodSaveDomain KeepsCoherent
  rcases saveDomainInfo_cases (mirrorDomain ds) nd.save with ⟨hother, herr⟩ | ⟨hlist, save, hsave⟩
  · simp only [herr, hother, ne_eq, not_true_eq_false, IsEmpty.forall_iff, iff_true]
    exact h
  · have henable := setDomainColoEnable_saved hsave (mirrorDomain ds).coloStatus
    simp only [hsave, henable, lt_irrefl, if_false, ne_eq, hlist, not_false_eq_true, true_imp_iff]
    rw [← recordCoherent_mirrorDomain_iff]
    constructor
    · intro hcoherent
      have hrecord := hcoherent ds.name
      simp only [Act.stop] at hrecord
      rw [Node.dom_setDom, if_pos rfl] at hrecord
      exact hrecord
    · exact fun hds => h.setDom rfl (fun other => Node.dom_setDom _ other _ _) hds

/-- A request that keeps records coherent does so in each of its legs. -/
theorem legs_of_keeps (h : Coherent nd) (hkeeps : KeepsCoherent (req, env) nd) :
    (handle env req nd).Legs Node.Apart (fun _ state => Coherent state) (fun _ _ => True) nd := by
  have hcareful : req.Careful → (handle env req nd).Legs Node.Apart
      (fun _ state => Coherent state) (fun _ _ => True) nd := fun hreq =>
    (legs_of_careful hreq h env).mono (fun _ _ hs => hs) fun _ _ _ => trivial
  cases req with
  | start domainName colo =>
      cases colo with
      | false =>
          exact legs_of_waits_eq_none (waits_startNative domainName)
            ((coherent_start_iff h env domainName).mpr hkeeps)
      | true => exact hcareful ⟨by simp, by simp⟩
  | peerSaveDomain ds =>
      exact legs_of_waits_eq_none (waits_saveDomain ds)
        ((coherent_peerSaveDomain_iff h env ds).mpr hkeeps)
  | _ => exact hcareful ⟨by simp, by simp⟩

theorem not_coherent_of_not_keeps (h : Coherent nd) (hkeeps : ¬KeepsCoherent (req, env) nd) :
    ¬Coherent (handle env req nd).stop := by
  cases req with
  | start domainName colo =>
      cases colo with
      | false => exact fun hstop => hkeeps ((coherent_start_iff h env domainName).mp hstop)
      | true => exact absurd trivial hkeeps
  | peerSaveDomain ds =>
      exact fun hstop => hkeeps ((coherent_peerSaveDomain_iff h env ds).mp hstop)
  | _ => exact absurd trivial hkeeps

/-! ## The children -/

theorem domains_stop_remoteCall (request : Request) (nd : Node) (k : ValueT → Node → Colod) :
    (nd.remoteCall request k).stop.domains = nd.domains := by
  unfold Node.remoteCall
  split
  · rfl
  · split
    · split <;> rfl
    · split <;> rfl

theorem domains_stop_startQmp (env : Env) (domainName : String) (curStatus : ColoDomainStatus)
    (d : Domain) (nd : Node) :
    (startQmp env domainName curStatus d nd).stop.domains = nd.domains := by
  unfold startQmp
  cases curStatus with
  | primary => exact domains_stop_remoteCall _ _ _
  | secondary =>
      dsimp only
      rw [checkQmp_eq]
      dsimp only
      cases Node.qmpScriptEnd env.qmp _ with
      | died => rfl
      | failed => rfl
      | complete => exact domains_stop_remoteCall _ _ _
  | _ => rfl

/-- A record that runs with the pid of a child. -/
theorem strays_of_dom {child : Forks ColodRetVal} (domainName : String)
    (hpid : (child.parent.stop.dom domainName).pid = 0)
    (hstatus : (child.parent.stop.dom domainName).status ≠ .shutOff) :
    child.Strays Coherent := by
  intro hcoherent
  have hpos := (hcoherent domainName hstatus).1
  omega

theorem children_runNewVm {B : Forks ColodRetVal → Prop} {k : ℤ → Node → Forks ColodRetVal}
    (hB : ∀ nd, B (k 0 nd)) (hk : ∀ pid nd, (k pid nd).Children B) (env : Env)
    (domainName : String) (cmd : ShellCommand) (nd : Node) :
    (Forked.runNewVm env domainName cmd nd k).Children B := by
  have hchildren : ∀ pid nd, (if pid = -1 then k (-1) nd
      else if 0 < pid then k pid (nd.setSave (saveDomainPid domainName pid nd.save))
      else k pid nd).Children B := by
    intro pid nd
    split
    · exact hk _ _
    · split
      · exact hk _ _
      · exact hk _ _
  unfold Forked.runNewVm Forked.runShellCommandAsync
  cases nd.os.fork env.fork domainName with
  | none => exact hchildren (-1) nd
  | some forked => exact ⟨fun state => hB state, hchildren forked.1 _⟩

theorem children_startNative (domainName : String) (d : Domain) (nd : Node) :
    (Forked.startNative env domainName d nd).Children (Task.Strays Coherent) := by
  refine children_runNewVm (fun nd => ?_) (fun pid nd => ?_) _ _ _ _
  · exact strays_of_dom domainName (by simp [Task.parent, Act.stop])
      (by simp [Task.parent, Act.stop])
  · trivial

theorem children_startHost (domainName : String) (curStatus : ColoDomainStatus) (d : Domain)
    (nd : Node) :
    (Forked.startHost env domainName curStatus d nd).Children (Task.Strays Coherent) := by
  refine children_runNewVm (fun nd => ?_) (fun pid nd => ?_) _ _ _ _
  · rw [if_neg (by decide)]
    have hdom : ∀ nd : Node, (startQmp env domainName curStatus d nd).stop.dom domainName =
        nd.dom domainName := fun nd =>
      Node.dom_of_domains_eq (domains_stop_startQmp env domainName curStatus d nd) domainName
    refine strays_of_dom domainName ?_ ?_
    · rw [Task.parent_ofAct, hdom]
      simp
    · rw [Task.parent_ofAct, hdom]
      simp
  · split
    · trivial
    · exact Task.children_ofAct _ _

theorem children_remoteCall {B : Forks ColodRetVal → Prop} {k : ValueT → Node → Forks ColodRetVal}
    (hk : ∀ ret nd, (k ret nd).Children B) (request : Request) (nd : Node) :
    (Forked.remoteCall request nd k).Children B := by
  have hreceived : ∀ answer nd, (Forked.received k answer nd).Children B := by
    intro answer nd
    cases answer with
    | none => exact hk _ _
    | some reply => exact hk _ _
  unfold Forked.remoteCall
  split
  · trivial
  · split
    · split
      · exact hreceived
      · trivial
    · split
      · trivial
      · exact hreceived

theorem children_colodStart (domainName : String) (colo : Bool) (nd : Node) :
    (Forked.colodStart env domainName colo nd).Children (Task.Strays Coherent) := by
  unfold Forked.colodStart
  dsimp only
  split
  · trivial
  · split
    · trivial
    · trivial
    · split
      · exact children_startNative _ _ _
      · split
        · trivial
        · refine children_remoteCall (fun ret nd => ?_) _ _
          unfold Forked.checkReply
          split
          · trivial
          · split
            · trivial
            · exact children_startHost _ _ _ _

theorem children_peerStartDomain (domainName : String) (colo : Bool) (nd : Node) :
    (Forked.peerColodStartDomain env domainName colo nd).Children (Task.Strays Coherent) := by
  unfold Forked.peerColodStartDomain
  dsimp only
  split
  · trivial
  · split
    · trivial
    · split
      · trivial
      · trivial
      · refine children_runNewVm (fun nd => ?_) (fun pid nd => ?_) _ _ _ _
        · rw [if_neg (by decide)]
          exact strays_of_dom domainName (by simp [Task.parent, Act.stop])
            (by simp [Task.parent, Act.stop])
        · split <;> trivial

theorem children_handle (env : Env) (req : Request) (nd : Node) :
    (Forked.handle env req nd).Children (Task.Strays Coherent) := by
  cases req with
  | start domainName colo => exact children_colodStart domainName colo nd
  | peerStartDomain domainName colo => exact children_peerStartDomain domainName colo nd
  | _ => exact Task.children_ofAct _ _

theorem apart_share_change (memory world : Node) (event : Outside) :
    (colod.share memory world).Apart (colod.share memory (colod.change event world)) := by
  rw [share_change]
  cases event with
  | os event => exact Node.apart_osAfter _ _
  | writeFile path doc =>
      simp only [colod]
      split
      · exact Node.apart_refl _
      · rename_i hpath
        exact Node.apart_writeFile hpath _ _

/-- What the handlers of colod do to the coherence of their table. -/
theorem holds_coherent : colod.Holds Node.Apart Coherent KeepsCoherent where
  refl := Node.apart_refl
  trans := Node.Apart.trans
  share := share_self
  change := apart_share_change
  inv := Coherent.apart
  kept := by
    rintro ⟨req, env⟩ nd h hkeeps
    have hlegs := legs_of_keeps h hkeeps
    rw [← Forked.parent_handle] at hlegs
    exact Task.kept_of_legs hlegs (children_handle env req nd)
  lost := by
    rintro ⟨req, env⟩ nd h hkeeps
    have hstop := not_coherent_of_not_keeps h hkeeps
    rwa [← Forked.parent_handle] at hstop

/-! ## A start of colod -/

/-- Where a list with a last element can be split. -/
theorem append_singleton_eq_split_iff {entries before after : List SaveEntry}
    {last entry : SaveEntry} :
    entries ++ [last] = before ++ entry :: after ↔
      (after = [] ∧ before = entries ∧ entry = last) ∨
        ∃ rest, after = rest ++ [last] ∧ entries = before ++ entry :: rest := by
  constructor
  · intro h
    rcases List.eq_nil_or_concat' after with rfl | ⟨rest, found, rfl⟩
    · obtain ⟨hentries, hlast⟩ := List.append_inj' h rfl
      exact .inl ⟨rfl, hentries.symm, (List.singleton_inj.mp hlast).symm⟩
    · have hsplit : entries ++ [last] = (before ++ entry :: rest) ++ [found] := by
        rw [h, List.append_assoc]
        rfl
      obtain ⟨hentries, hlast⟩ := List.append_inj' hsplit rfl
      exact .inr ⟨rest, by rw [List.singleton_inj.mp hlast], hentries⟩
  · rintro (⟨rfl, rfl, rfl⟩ | ⟨rest, rfl, rfl⟩)
    · rfl
    · simp

/-- The last entry of a name is the one that counts. -/
theorem lookup_domainsInit_eq_some_iff {sf : SaveFile} {name : String} :
    (domainsInit sf ∅).lookup name = some ds ↔
      ∃ before entry after, sf.domains.entries = before ++ entry :: after ∧
        entry.name = name ∧ name ∉ after.map SaveEntry.name ∧ ds = loadedRecord entry := by
  unfold domainsInit
  generalize sf.domains.entries = entries
  induction entries using List.reverseRecOn with
  | nil => simp
  | append_singleton entries last ih =>
      rw [List.foldl_append, List.foldl_cons, List.foldl_nil]
      simp only [append_singleton_eq_split_iff]
      by_cases hname : last.name = name
      · subst hname
        rw [AList.lookup_insert, Option.some.injEq]
        constructor
        · rintro rfl
          exact ⟨entries, last, [], .inl ⟨rfl, rfl, rfl⟩, rfl, by simp, rfl⟩
        · rintro ⟨before, entry, after, ⟨rfl, rfl, rfl⟩ | ⟨rest, rfl, -⟩, -, hafter, rfl⟩
          · rfl
          · exact absurd (by simp) hafter
      · rw [AList.lookup_insert_ne (Ne.symm hname), ih]
        constructor
        · rintro ⟨before, entry, after, heq, hentry, hafter, rfl⟩
          refine ⟨before, entry, after ++ [last], .inr ⟨after, rfl, heq⟩, hentry, ?_, rfl⟩
          simpa [Ne.symm hname] using hafter
        · rintro ⟨before, entry, after, ⟨rfl, rfl, rfl⟩ | ⟨rest, rfl, heq⟩, hentry, hafter, rfl⟩
          · exact absurd hentry hname
          · refine ⟨before, entry, rest, heq, hentry, ?_, rfl⟩
            intro hmem
            exact hafter (by simpa using Or.inl (by simpa using hmem))

theorem coherent_rsInit_iff (nd : Node) :
    Coherent nd.rsInit ↔ FileCoherent nd := by
  constructor
  · intro h before entry after hentries hafter
    have hlookup : nd.rsInit.domains.lookup entry.name = some (loadedRecord entry) :=
      lookup_domainsInit_eq_some_iff.mpr ⟨before, entry, after, hentries, rfl, hafter, rfl⟩
    have hrecord := h entry.name
    rw [Node.dom_eq_of_lookup hlookup] at hrecord
    exact hrecord
  · intro h name
    cases hlookup : nd.rsInit.domains.lookup name with
    | none =>
        have hdefault : nd.rsInit.dom name = default := by
          unfold Node.dom
          rw [hlookup]
          rfl
        rw [hdefault]
        exact recordCoherent_of_shutOff rfl
    | some ds =>
        rw [Node.dom_eq_of_lookup hlookup]
        obtain ⟨before, entry, after, hentries, rfl, hafter, rfl⟩ :=
          lookup_domainsInit_eq_some_iff.mp hlookup
        exact h before entry after hentries hafter

/-! ## The list -/

theorem lists_iff_of_coherent (h : Coherent nd) (name : String) :
    nd.lists false name = decide ((nd.testDomainStatus name).1 ≠ .shutOff) := by
  unfold Node.lists Node.tested
  rw [Node.dom_testDomainStatus]
  by_cases hdead : nd.FoundDead name
  · rw [if_pos hdead, Node.testDomainStatus_of_dead hdead]
    rfl
  · rw [if_neg hdead, Node.testDomainStatus_of_not_dead hdead]
    by_cases hpid : (nd.dom name).pid = -1
    · have hshut : (nd.dom name).status = .shutOff := by
        by_contra hstatus
        have hpos := (h name hstatus).1
        omega
      simp [hpid, hshut]
    · cases hstatus : (nd.dom name).status <;> simp [hpid]

theorem listTruthful_of_coherent (h : Coherent nd) : ListTruthful nd := by
  have hfilter : (nd.domains.keys.filter fun name =>
      decide ((nd.testDomainStatus name).1 ≠ .shutOff)) = nd.domains.keys.filter (nd.lists false) :=
    List.filter_congr fun name _ => (lists_iff_of_coherent h name).symm
  unfold ListTruthful
  rw [hfilter]
  by_cases hkeys : nd.domains.keys = []
  · exact ⟨nd, by simp only [colodList, hkeys, if_true]⟩
  · refine ⟨(colodListLoop false nd.domains.keys separator nd).2, ?_⟩
    have htext := text_colodListLoop false nd.domains.keys separator nd (AList.keys_nodup _)
    simp only [colodList, hkeys, if_false, htext]

/-! ## Whole runs -/

theorem coherence_eq : Coherence = Settled colod Coherent := by
  have hsame : (fun nd => Coherent nd ∧ ListTruthful nd) = Coherent :=
    funext fun nd => propext ⟨And.left, fun h => ⟨h, listTruthful_of_coherent h⟩⟩
  unfold Coherence
  rw [hsame]

theorem settled_lifeStep_iff {pool : Colods} (h : Tended colod Node.Apart Coherent pool)
    (hcoherent : Settled colod Coherent pool) (event : LifeEvent) :
    Settled colod Coherent (lifeStep pool event) ↔ EventCoherent pool event := by
  cases event with
  | event event => exact settled_step_iff holds_coherent h hcoherent event
  | restart =>
      exact (settled_restart_iff holds_coherent h _).trans (coherent_rsInit_iff pool.world)

theorem tended_lifeStep {pool : Colods} (h : Tended colod Node.Apart Coherent pool)
    (hcoherent : Settled colod Coherent pool) {event : LifeEvent}
    (hevent : EventCoherent pool event) :
    Tended colod Node.Apart Coherent (lifeStep pool event) := by
  cases event with
  | event event => exact (tended_step holds_coherent h hcoherent hevent.1 hevent.2).1
  | restart =>
      have hfile := (coherent_rsInit_iff pool.world).mpr hevent
      exact (tended_restart holds_coherent h hfile).1

/-- A domain is defined, and its native start cannot fork. -/
def forklessRun : List LifeEvent :=
  [.event (.request 0 (.define "/root/d.yaml", .smooth 100)),
    .event (.request 0 (.start "d" false, { Env.smooth 100 with fork := none }))]

end

end ColoManage
