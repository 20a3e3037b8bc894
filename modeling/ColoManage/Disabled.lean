import ColoManage.Moves
import ColoManage.Roles

/-!
# A disabled domain on one node

While no request enables the domain, its flag stays off in the table and in the
file, whatever else is handled, and across restarts.  An enabled start of it
launches nothing here, and here its `peer_colod_start_domain` is refused, which
ends the start of the node that asked.
-/

namespace ColoManage

open Resumption

/-! ## A disabled node -/

/-- No entry of the file enables the domain. -/
def SaveFile.Off (d : String) (sf : SaveFile) : Prop := ∀ role, ¬ sf.Gives d role

def Node.Off (d : String) (nd : Node) : Prop :=
  (nd.dom d).coloEnable = false ∧ nd.save.Off d

/-- The request does not enable the domain, seen from the node that takes it. -/
structure Harmless (d : String) (req : Request) (start : Node) : Prop where
  enable : req ≠ .coloEnable d
  save : ∀ ds, req = .peerSaveDomain ds → ds.name ≠ d
  define : ∀ vmFilePath doc domain, req = .define vmFilePath →
    start.loadFile vmFilePath = some doc → vmConfigParse doc = .ok domain →
      start.definitionFile domain.name = some defaultSaveFile →
        (SaveFile.ofYaml doc).Off d

section

variable {env : Env} {req : Request} {start first nd nd' : Node} {d : String} {sf : SaveFile}

theorem off_iff_entries :
    sf.Off d ↔ ∀ entry ∈ sf.domains.entries, entry.name = d → entry.coloEnable = false := by
  constructor
  · intro h entry hentry hname
    by_contra henable
    exact h _ ⟨entry, hentry, hname, by simpa using henable, rfl⟩
  · rintro h role ⟨entry, hentry, hname, henable, -⟩
    rw [h entry hentry hname] at henable
    cases henable

theorem off_setDomainColoDisable (honce : sf.names.count d ≤ 1)
    (hcode : ¬ (setDomainColoDisable d sf).1 < 0) : (setDomainColoDisable d sf).2.Off d := by
  rw [off_iff_entries]
  intro entry hentry hname
  unfold setDomainColoDisable setShutOffEntry at hcode hentry
  cases hfind : sf.find d with
  | none =>
      rw [hfind] at hentry
      exact absurd hname (by simpa using List.find?_eq_none.mp hfind entry hentry)
  | some found =>
      rw [hfind] at hcode hentry
      dsimp only at hcode hentry
      split at hentry
      · rw [entries_updateEntry] at hentry
        obtain ⟨old, -, rfl⟩ := KeyedList.mem_updateFirst_of_count honce hentry hname
        rfl
      · rename_i hstatus
        rw [if_neg hstatus] at hcode
        exact absurd (by decide : (-1 : ℤ) < 0) hcode

theorem Node.Off.setDom {name : String} {ds : ColodDomainStatus} {save : SaveFile}
    (h : nd.Off d) (hsave : ∀ role, save.Gives d role → nd.save.Gives d role)
    (hds : name = d → ds.coloEnable = false) : ((nd.setSave save).setDom name ds).Off d := by
  refine ⟨?_, fun role hgives => h.2 role (hsave role hgives)⟩
  rw [Node.dom_setDom]
  split
  · rename_i hname
    exact hds hname.symm
  · exact h.1

theorem Node.Off.frame (h : nd.Off d) (hdomains : nd'.domains = nd.domains)
    (hsave : ∀ role, nd'.save.Gives d role → nd.save.Gives d role) : nd'.Off d := by
  refine ⟨?_, fun role hgives => h.2 role (hsave role hgives)⟩
  have hdom : nd'.dom d = nd.dom d := by
    unfold Node.dom
    rw [hdomains]
  rw [hdom]
  exact h.1

theorem off_move (h : nd.Off d) (hreq : Harmless d req start)
    (hmove : Move env req start nd nd') : nd'.Off d := by
  cases hmove with
  | talked htalked => exact h.frame htalked.domains fun role hgives => by rwa [htalked.save] at hgives
  | touched name => exact ⟨by simpa using h.1, h.2⟩
  | @swept domainName _ hdead =>
      have htouch : (nd.touch domainName).Off d := ⟨by simpa using h.1, h.2⟩
      refine htouch.setDom (fun _ => gives_removeDomainPid) ?_
      rintro rfl
      simpa using h.1
  | savedStatus cs => exact h.frame rfl fun _ hgives => hgives
  | wrote hdefine hload hparse hfile =>
      unfold Node.writeFile
      split
      · rename_i hpath
        exact ⟨h.1, hreq.define _ _ _ hdefine hload hparse (hpath ▸ hfile)⟩
      · exact h
  | defined hdefine hpid hstatus henable hsave =>
      exact h.setDom (fun _ => gives_saveDomainInfo hsave) fun _ => henable
  | undefined hundefine =>
      refine ⟨?_, fun role hgives => h.2 role (gives_vmUndefine hgives)⟩
      unfold Node.dom
      rw [Node.lookup_eraseDom]
      split
      · rfl
      · exact h.1
  | launched hstarts henable hget hfork hstatus =>
      refine h.setDom (fun _ => gives_saveDomainPid) ?_
      rintro rfl
      exact h.1
  | forkFailed hstart =>
      refine h.setDom (fun _ hgives => hgives) ?_
      rintro rfl
      exact h.1
  | missed hdestroys hpid hevents => exact h.frame rfl fun _ => gives_removeDomainPid
  | killed hdestroys hpid hevents hstarted hsave =>
      refine h.setDom (fun _ => gives_removeDomainPid) ?_
      rintro rfl
      exact h.1
  | flagged value role henable =>
      refine h.setDom (fun _ hgives => hgives) ?_
      rintro rfl
      exact absurd henable hreq.enable
  | savedEnable henable =>
      refine ⟨h.1, fun role hgives => ?_⟩
      rcases gives_setDomainColoEnable hgives with hold | ⟨rfl, -⟩
      · exact h.2 role hold
      · exact absurd henable hreq.enable
  | disabled hdisable =>
      exact h.setDom (fun _ => gives_setDomainColoDisable) fun _ => rfl
  | failedOver hfailover hold hnew hrole =>
      refine h.setDom (fun _ hgives => hgives) ?_
      rintro rfl
      exact h.1
  | peerSaved hpeer hsave => exact h.frame rfl fun _ => gives_saveDomainInfo hsave
  | peerStored hpeer hsave =>
      refine h.setDom (fun role hgives => ?_) fun hname => absurd hname (hreq.save _ hpeer)
      rcases gives_setDomainColoEnable hgives with hold | ⟨hname, -⟩
      · exact gives_saveDomainInfo hsave hold
      · exact absurd hname.symm (hreq.save _ hpeer)

theorem off_of_moves (h : first.Off d) (hreq : Harmless d req start)
    (hmoves : Moves env req start first nd) : nd.Off d :=
  inv_of_moves (fun _ _ hoff hmove => off_move hoff hreq hmove) h hmoves

/-- Where the domain is disabled, a COLO start of it does not ask the peer. -/
theorem waits_start_of_off (h : nd.Off d) (env : Env) :
    Net.waits (handle env (.start d true) nd) = none ∨
      ∃ w, Net.waits (handle env (.start d true) nd) = some w ∧
        ∀ name colo, w.query.request ≠ .peerStartDomain name colo := by
  have hmoving := handle_moving env (.start d true) nd
  cases hact : handle env (.start d true) nd with
  | done value nd' => exact .inl rfl
  | crash nd' => exact .inl rfl
  | await query nd' resume =>
      rw [hact] at hmoving
      refine .inr ⟨_, rfl, ?_⟩
      intro name colo hquery
      have hasked : Asked (.start d true) nd query := hmoving.1.2.1
      obtain ⟨heq, henable⟩ := hasked.start name colo hquery
      obtain ⟨rfl, -⟩ := Request.start.inj heq
      rw [h.1] at henable
      cases henable

theorem runPeer_start_of_off (h : nd.Off d) (env : Env) :
    runPeer env (.peerStartDomain d true) nd =
      .returned ⟨-1, "please run colo enable first."⟩ (nd.touch d) := by
  simp [runPeer, handle, peerColodStartDomain, h.1, Act.follow]

/-- How a COLO start begins: it ends, or it asks the peer and goes on only if
the peer accepts. -/
theorem start_begins (env : Env) (d : String) (nd : Node) :
    ∃ nd', nd'.log = nd.log ∧
      ((∃ ret, handle env (.start d true) nd = .done ret nd') ∨
        handle env (.start d true) nd = .crash nd' ∨
          ∃ failure k, handle env (.start d true) nd =
            nd'.remoteCall (.peerStartDomain d true) fun ret nd =>
              checkReply failure ret nd k) := by
  refine ⟨(nd.testDomainStatus d).2, Node.testDomainStatus_log d nd, ?_⟩
  unfold handle colodStart
  simp only [Node.testDomainStatus_touch]
  split
  · exact .inl ⟨_, rfl⟩
  · split
    · exact .inr (.inl rfl)
    · exact .inl ⟨_, rfl⟩
    · simp only [Bool.not_true, Bool.false_eq_true, if_false]
      split
      · exact .inl ⟨_, rfl⟩
      · exact .inr (.inr ⟨_, _, rfl⟩)

theorem off_runPeer (h : nd.Off d) (hreq : Harmless d req nd) (env : Env) :
    (runPeer env req nd).state.Off d :=
  off_of_moves h hreq (Act.follow_nil_of_legs (handle_moving env req nd))

theorem colodColoDisable_done (h : ¬ (setDomainColoDisable d nd.save).1 < 0) :
    ∃ nd', colodColoDisable d nd = .done ⟨0, "colo disable success"⟩ nd' :=
  ⟨_, if_neg h⟩

/-- A disable that returns zero turns the flag off in the table and the file. -/
theorem off_colodColoDisable {ret : ColodRetVal} (honce : nd.save.names.count d ≤ 1)
    (hact : colodColoDisable d nd = .done ret nd') (hcode : ret.code = 0) : nd'.Off d := by
  unfold colodColoDisable at hact
  dsimp only at hact
  split at hact
  · obtain ⟨rfl, -⟩ := Act.done.inj hact
    exact absurd hcode (by decide)
  · rename_i hupdated
    obtain ⟨-, rfl⟩ := Act.done.inj hact
    exact ⟨by simp [Node.modDom, Node.dom_setDom], off_setDomainColoDisable honce hupdated⟩

theorem off_rsInit (h : nd.save.Off d) : nd.rsInit.Off d := by
  refine ⟨?_, h⟩
  by_contra henable
  have hin : nd.rsInit.InRole d (nd.rsInit.dom d).coloStatus := ⟨by simpa using henable, rfl⟩
  exact h _ (Node.gives_of_inRole_rsInit hin)

end

/-! ## Handlers that wait -/

/-- The handler goes on with moves that do not enable the domain. -/
def Waiting.Bound (d : String) (w : Waiting) (nd : Node) : Prop :=
  ∃ env req start, Harmless d req start ∧
    ∀ answer nd', nd.Apart nd' → Moving env req start nd' (w.resume answer nd')

/-- Without a reply that accepts, the handler ends and launches nothing. -/
def Waiting.Refuses (w : Waiting) : Prop :=
  ∀ answer nd, accepted answer = false →
    ∃ ret nd', w.resume answer nd = .done ret nd' ∧ nd'.log = nd.log

structure Disabled (d : String) (p : Party) : Prop where
  off : p.node.Off d
  waiting : ∀ w, p.waiting = some w → w.Bound d p.node

section

variable {env : Env} {req : Request} {start nd nd' : Node} {d : String} {w : Waiting}
  {net : Net} {x : NodeId}

theorem Waiting.Bound.apart (h : w.Bound d nd) (hapart : nd.Apart nd') : w.Bound d nd' := by
  obtain ⟨env, req, start, hreq, hresume⟩ := h
  exact ⟨env, req, start, hreq, fun answer nd'' hapart' => hresume answer nd'' (hapart.trans hapart')⟩

theorem Node.Off.apart (h : nd.Off d) (hapart : nd.Apart nd') : nd'.Off d := by
  obtain ⟨os, files, rfl⟩ := hapart
  exact h

theorem disabled_settle (h : (net.party x).node.Off d) (hreq : Harmless d req start) {act : Colod}
    (hact : Moving env req start (net.party x).node act) :
    Disabled d ((net.settle x act).party x) := by
  refine ⟨?_, ?_⟩
  · rw [Net.node_settle]
    exact off_of_moves h hreq (Act.follow_nil_of_legs hact)
  · intro w hw
    rw [Net.waiting_settle] at hw
    rw [Net.node_settle]
    cases act with
    | done value nd => cases hw
    | crash nd => cases hw
    | await query nd resume =>
        obtain rfl := Option.some.inj hw
        exact ⟨env, req, start, hreq, hact.2⟩

theorem refuses_remoteCall {failure : String} {k : Node → Colod} {request : Request}
    (hwaits : Net.waits (nd.remoteCall request fun ret nd => checkReply failure ret nd k) = some w) :
    w.Refuses ∧ w.query.request = request := by
  by_cases husable : nd.remoteClient.usable = true
  · rw [Node.remoteCall_of_usable husable] at hwaits
    obtain rfl := Option.some.inj hwaits
    refine ⟨?_, rfl⟩
    intro answer nd' haccepted
    obtain ⟨msg, nd'', heq, hsame⟩ := received_checkReply_refused haccepted failure k nd'
    exact ⟨⟨-1, msg⟩, nd'', heq, hsame.log⟩
  · rw [Node.remoteCall_of_not_usable (by simpa using husable)] at hwaits
    cases hwaits

/-- A start that waits has asked the peer and goes on only if the peer accepts. -/
theorem start_waits (hwaits : Net.waits (handle env (.start d true) nd) = some w) :
    w.Refuses ∧ w.query.request = .peerStartDomain d true := by
  obtain ⟨nd', -, ⟨ret, hact⟩ | hact | ⟨failure, k, hact⟩⟩ := start_begins env d nd
  · rw [hact] at hwaits
    cases hwaits
  · rw [hact] at hwaits
    cases hwaits
  · rw [hact] at hwaits
    exact refuses_remoteCall hwaits

theorem start_of_off (h : nd.Off d) (env : Env) :
    Net.waits (handle env (.start d true) nd) = none := by
  rcases waits_start_of_off h env with hnone | ⟨w, hw, hne⟩
  · exact hnone
  · exact absurd (start_waits hw).2 (hne d true)

/-- A start launches nothing before the peer has answered. -/
theorem noLaunch_start (env : Env) (d : String) (nd : Node) :
    NoLaunch nd ((handle env (.start d true) nd).follow Node.osAfter []).state := by
  obtain ⟨nd', hlog, ⟨ret, hact⟩ | hact | ⟨failure, k, hact⟩⟩ := start_begins env d nd
  · rw [hact]
    exact noLaunch_of_log_eq hlog
  · rw [hact]
    exact noLaunch_of_log_eq hlog
  · rw [hact]
    refine (noLaunch_of_log_eq hlog).trans ?_
    by_cases husable : nd'.remoteClient.usable = true
    · rw [Node.remoteCall_of_usable husable]
      exact ⟨_, rfl, by simp⟩
    · rw [Node.remoteCall_of_not_usable (by simpa using husable)]
      exact ⟨_, rfl, by simp⟩

end

end ColoManage
