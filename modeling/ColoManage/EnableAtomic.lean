import ColoManage.Pair

/-!
# Enabling a domain on both nodes

`colod_colo_enable` writes the caller's memory, then the peer's memory and file,
and last the caller's file, and that last write is refused for a domain that is
not shut off.  An error exit resets one field of the caller's memory.  All or
nothing is left of this in the cases of `EnableClean`.
-/

namespace ColoManage

open Resumption

/-! ## The property -/

/-- The four fields of a record in memory, and of an entry in the file. -/
def ColodDomainStatus.colo (ds : ColodDomainStatus) :
    Bool × ColoDomainStatus × ℤ × DomainStatus :=
  (ds.coloEnable, ds.coloStatus, ds.pid, ds.status)

def SaveEntry.colo (entry : SaveEntry) : Bool × String × ℤ × String :=
  (entry.coloEnable, entry.coloStatus, entry.pid, entry.status)

def EnabledAs (nd : Node) (domainName : String) (role : ColoDomainStatus) : Prop :=
  (∃ ds, nd.domains.lookup domainName = some ds ∧ ds.coloEnable = true ∧
      ds.coloStatus = role) ∧
    ∃ entry, nd.save.find domainName = some entry ∧ entry.coloEnable = true ∧
      entry.coloStatus = coloDomainStatusToStr role

def SameColo (domainName : String) (nd nd' : Node) : Prop :=
  (nd'.domains.lookup domainName).map ColodDomainStatus.colo =
      (nd.domains.lookup domainName).map ColodDomainStatus.colo ∧
    (nd'.save.find domainName).map SaveEntry.colo = (nd.save.find domainName).map SaveEntry.colo

def Complementary (role role' : ColoDomainStatus) : Prop :=
  role = .primary ∧ role' = .secondary ∨ role = .secondary ∧ role' = .primary

/-- A code `0` means enabled on both nodes in complementary roles, a negative
one that nothing has changed on either. -/
def AllOrNothing (domainName : String) (nd peer : Node) :
    Outcome Node ColodRetVal × Peer → Prop
  | (.returned ret nd', w') =>
      (ret.code = 0 → ∃ role role', Complementary role role' ∧
        EnabledAs nd' domainName role ∧ EnabledAs w'.node domainName role') ∧
        (ret.code < 0 → SameColo domainName nd nd' ∧ SameColo domainName peer w'.node)
  | (.crashed _, _) => True

/-! ## When it holds -/

def opposite (role : ColoDomainStatus) : ColoDomainStatus :=
  if role = .primary then .secondary else .primary

def clientFor (nd : Node) : Buttonrpc :=
  if nd.remoteClientInit then nd.remoteClient
  else (nd.withSocket nd.currentStatus.peerIp).remoteClient

def PeerSaves (nd : Node) (w : Peer) : Prop :=
  w.executes (clientFor nd) ≠ none ∧ w.node.save.domains ≠ .other

/-- The caller's undo gives back what there was: the domain was disabled, in
the role it gets now. -/
def UndoExact (nd : Node) (ds : ColodDomainStatus) : Prop :=
  ds.coloEnable = false ∧
    ds.coloStatus = enabledRole nd.currentStatus.localStatus ds.coloStatus

/-- The peer already holds what it would save. -/
def PeerHolds (domainName : String) (nd : Node) (ds : ColodDomainStatus) (peer : Node) :
    Prop :=
  (peer.domains.lookup domainName).map ColodDomainStatus.colo =
      some (true, opposite (enabledRole nd.currentStatus.localStatus ds.coloStatus),
        ds.pid, ds.status) ∧
    (peer.save.find domainName).map SaveEntry.colo =
      some (true, coloDomainStatusToStr
        (opposite (enabledRole nd.currentStatus.localStatus ds.coloStatus)), -1, "shutoff")

/-- The call fails at the peer and the undo is exact, or the peer saves the
domain and the caller's entry is shut off, or else there is nothing to undo. -/
def CallClean (domainName : String) (nd : Node) (ds : ColodDomainStatus) (w : Peer) : Prop :=
  ¬ PeerSaves nd w ∧ UndoExact nd ds ∨
    PeerSaves nd w ∧ ∃ entry, nd.save.find domainName = some entry ∧
      (entry.status = "shutoff" ∨ UndoExact nd ds ∧ PeerHolds domainName nd ds w.node)

/-- The handler is refused at its connection check, or dies before the call, or
the call is clean. -/
def EnableClean (env : Env) (domainName : String) (nd : Node) (ds : ColodDomainStatus)
    (w : Peer) : Prop :=
  (nd.currentStatus.localStatus = .none ∨ nd.currentStatus.localStatus = .error) ∨
    (nd.remoteClientInit = false ∧ env.connect nd.currentStatus.peerIp = false) ∨
    (clientFor nd).usable = false ∨ CallClean domainName nd ds w

/-! ## The peer's side -/

/-- The entry that is saved is shut off, so that `set_domain_colo_enable` changes it. -/
theorem runPeer_peerSaveDomain_saved {ds : ColodDomainStatus} {nd : Node} {sf : SaveFile}
    (hsave : saveDomainInfo (mirrorDomain ds) nd.save = .ok sf) (env : Env) :
    runPeer env (.peerSaveDomain ds) nd =
      .returned ⟨0, "peer colod save domain success."⟩
        ((nd.setSave (sf.updateEntry ds.name fun entry =>
          { entry with
            coloEnable := true
            coloStatus := coloDomainStatusToStr (mirrorDomain ds).coloStatus })).setDom
          ds.name (mirrorDomain ds)) := by
  have henable := setDomainColoEnable_saved hsave (mirrorDomain ds).coloStatus
  simp only [mirrorDomain_name] at henable
  simp [runPeer, handle, peerColodSaveDomain, hsave, henable, Act.follow, Node.setSave]

/-- What `peer_colod_save_domain` does: refused without a domain list to write
to, otherwise both copies hold the mirrored record. -/
theorem runPeer_peerSaveDomain (env : Env) (ds : ColodDomainStatus) (nd : Node) :
    (nd.save.domains = .other ∧
        runPeer env (.peerSaveDomain ds) nd =
          .returned ⟨-1, "wrong format in save file."⟩ nd) ∨
      (nd.save.domains ≠ .other ∧ ∃ sf,
        runPeer env (.peerSaveDomain ds) nd =
          .returned ⟨0, "peer colod save domain success."⟩
            ((nd.setSave sf).setDom ds.name (mirrorDomain ds)) ∧
        sf.find ds.name = some { savedEntry (mirrorDomain ds) with
          coloEnable := true
          coloStatus := coloDomainStatusToStr (mirrorDomain ds).coloStatus }) := by
  rcases saveDomainInfo_cases (mirrorDomain ds) nd.save with ⟨hother, hsave⟩ | ⟨hlist, sf, hsave⟩
  · exact .inl ⟨hother, by simp [runPeer, handle, peerColodSaveDomain, hsave, Act.follow]⟩
  · have hfind : sf.find ds.name = some (savedEntry (mirrorDomain ds)) := by
      rw [find_saveDomainInfo hsave]
      simp
    refine .inr ⟨hlist, _, runPeer_peerSaveDomain_saved hsave env, ?_⟩
    rw [find_updateEntry (by intro entry; rfl), if_pos rfl, hfind]
    rfl

/-! ## The caller's side -/

def enabledRecord (nd : Node) (ds : ColodDomainStatus) : ColodDomainStatus :=
  { ds with
    coloEnable := true
    coloStatus := enabledRole nd.currentStatus.localStatus ds.coloStatus }

structure Undone (domainName : String) (nd : Node) (ds : ColodDomainStatus) (nd' : Node) :
    Prop where
  memory : nd'.domains.lookup domainName =
    some { enabledRecord nd ds with coloEnable := false }
  save : nd'.save = nd.save

theorem sameColo_iff_of_undone {domainName : String} {nd nd' : Node} {ds : ColodDomainStatus}
    (hds : nd.domains.lookup domainName = some ds) (h : Undone domainName nd ds nd') :
    SameColo domainName nd nd' ↔ UndoExact nd ds := by
  simp only [UndoExact, SameColo, h.memory, h.save, hds, Option.map_some, Option.some.injEq,
    ColodDomainStatus.colo, enabledRecord, Prod.mk.injEq, and_true]
  exact ⟨fun h => ⟨h.1.symm, h.2.symm⟩, fun h => ⟨h.1.symm, h.2.symm⟩⟩

structure Calling (domainName : String) (nd : Node) (ds : ColodDomainStatus) (nd₁ : Node) :
    Prop where
  memory : nd₁.domains.lookup domainName = some (enabledRecord nd ds)
  save : nd₁.save = nd.save
  client : nd₁.remoteClient = clientFor nd

variable {domainName : String} {nd nd₁ : Node} {ds : ColodDomainStatus} {w : Peer}

theorem undone_enableFailed (h : nd₁.domains.lookup domainName = some (enabledRecord nd ds))
    (hsave : nd₁.save = nd.save) :
    Undone domainName nd ds
      (nd₁.modDom domainName fun ds => { ds with coloEnable := false }) := by
  refine ⟨?_, hsave⟩
  rw [Node.lookup_modDom, if_pos rfl, Node.dom_eq_of_lookup h]

theorem runPair_enable_unsaved (hcalling : Calling domainName nd ds nd₁)
    (husable : (clientFor nd).usable = true) (hsaves : ¬ PeerSaves nd w) :
    ∃ msg nd' w', runPair (nd₁.remoteCall (.peerSaveDomain (nd₁.dom domainName))
          (enableAnswered domainName)) w = (.returned ⟨-1, msg⟩ nd', w') ∧
      Undone domainName nd ds nd' ∧ w'.node = w.node := by
  rw [← hcalling.client] at husable
  unfold runPair
  rw [exec_of_usable husable, hcalling.client]
  cases hexec : w.executes (clientFor nd) with
  | none =>
      rw [peerServe_of_not_executes hexec]
      exact ⟨_, _, _, rfl, undone_enableFailed hcalling.memory hcalling.save, rfl⟩
  | some env =>
      have hother : w.node.save.domains = .other := by
        by_contra hne
        exact hsaves ⟨by simp [hexec], hne⟩
      rw [peerServe_of_executes hexec]
      rcases runPeer_peerSaveDomain env (nd₁.dom domainName).wire w.node with
        ⟨-, hrun⟩ | ⟨hne, -⟩
      · rw [Request.wire, hrun]
        exact ⟨_, _, _, rfl, undone_enableFailed hcalling.memory hcalling.save, rfl⟩
      · exact absurd hother hne

/-- What the peer holds once it has saved the domain. -/
structure PeerSaved (domainName : String) (nd : Node) (ds : ColodDomainStatus) (peer : Node) :
    Prop where
  memory : ∃ record, peer.domains.lookup domainName = some record ∧
    record.colo = (true, opposite (enabledRole nd.currentStatus.localStatus ds.coloStatus),
      ds.pid, ds.status)
  file : ∃ entry, peer.save.find domainName = some entry ∧
    entry.colo = (true, coloDomainStatusToStr
      (opposite (enabledRole nd.currentStatus.localStatus ds.coloStatus)), -1, "shutoff")

theorem peerSaves_run (hcalling : Calling domainName nd ds nd₁) (hname : ds.name = domainName)
    (hlength : domainName.length < 65536) {env : Env} {peer : Node}
    (hlist : peer.save.domains ≠ .other) :
    ∃ peer', runPeer env (Request.peerSaveDomain (nd₁.dom domainName)).wire peer =
        .returned ⟨0, "peer colod save domain success."⟩ peer' ∧
      PeerSaved domainName nd ds peer' := by
  have hdom := Node.dom_eq_of_lookup hcalling.memory
  have hwire : (enabledRecord nd ds).wire.name = domainName := by
    show wireString ds.name = domainName
    rw [hname, wireString_of_lt hlength]
  rw [hdom, Request.wire]
  rcases runPeer_peerSaveDomain env (enabledRecord nd ds).wire peer with ⟨hother, -⟩ | h
  · exact absurd hother hlist
  · obtain ⟨-, sf, hrun, hfind⟩ := h
    rw [hwire] at hrun hfind
    refine ⟨_, hrun, ⟨_, by rw [Node.lookup_setDom, if_pos rfl], rfl⟩, _, hfind, rfl⟩

/-- Once the peer has saved the domain, the caller's own entry decides. -/
theorem runPair_enable_saved (hcalling : Calling domainName nd ds nd₁)
    (husable : (clientFor nd).usable = true) (hsaves : PeerSaves nd w)
    (hname : ds.name = domainName) (hlength : domainName.length < 65536) :
    ∃ ret nd' w', runPair (nd₁.remoteCall (.peerSaveDomain (nd₁.dom domainName))
          (enableAnswered domainName)) w = (.returned ret nd', w') ∧
      PeerSaved domainName nd ds w'.node ∧
      match nd.save.find domainName with
      | none => ret.code = 0 ∧ nd'.save.find domainName = none
      | some entry =>
          if entry.status = "shutoff" then
            ret.code = 0 ∧ EnabledAs nd' domainName
              (enabledRole nd.currentStatus.localStatus ds.coloStatus)
          else ret.code = -1 ∧ Undone domainName nd ds nd' := by
  obtain ⟨env, hexec⟩ := Option.ne_none_iff_exists'.mp hsaves.1
  obtain ⟨peer', hrun, hpeer⟩ := peerSaves_run hcalling hname hlength hsaves.2
  have husable₁ : nd₁.remoteClient.usable = true := by rw [hcalling.client, husable]
  unfold runPair
  rw [exec_of_usable husable₁, hcalling.client, peerServe_of_executes hexec, hrun]
  -- the tables of the caller are as they were when it issued the call
  generalize hnd₂ : (nd₁.called (.peerSaveDomain (nd₁.dom domainName))) = nd₂
  have hmemory : nd₂.replied.domains.lookup domainName = some (enabledRecord nd ds) := by
    rw [← hnd₂]
    exact hcalling.memory
  have hsave : nd₂.replied.save = nd.save := by
    rw [← hnd₂]
    exact hcalling.save
  have hcontinue : Node.received (enableAnswered domainName)
      (some (.answer ⟨0, "peer colod save domain success."⟩)) nd₂ =
        enableAnswered domainName (.answer ⟨0, "peer colod save domain success."⟩)
          nd₂.replied := rfl
  simp only [hcontinue]
  generalize nd₂.replied = nd₃ at hmemory hsave
  have hrole : (nd₃.dom domainName).coloStatus =
      enabledRole nd.currentStatus.localStatus ds.coloStatus := by
    rw [Node.dom_eq_of_lookup hmemory]
    rfl
  unfold enableAnswered
  simp only [ValueT.answer, ColodRetVal.wire, hrole, hsave, setDomainColoEnable,
    setShutOffEntry]
  cases hfind : nd.save.find domainName with
  | none =>
      exact ⟨_, _, _, rfl, hpeer, rfl, hfind⟩
  | some entry =>
      by_cases hstatus : entry.status = "shutoff"
      · simp only [hstatus, if_true]
        refine ⟨_, _, _, rfl, hpeer, rfl, ⟨_, hmemory, rfl, rfl⟩,
          { entry with
            coloEnable := true
            coloStatus := coloDomainStatusToStr
              (enabledRole nd.currentStatus.localStatus ds.coloStatus) }, ?_, rfl, rfl⟩
        show (SaveFile.updateEntry domainName _ nd.save).find domainName = _
        rw [find_updateEntry (by intro entry; rfl), if_pos rfl, hfind]
        rfl
      · simp only [hstatus, if_false]
        exact ⟨_, _, _, rfl, hpeer, rfl, undone_enableFailed hmemory hsave⟩

theorem complementary_opposite {role : ColoDomainStatus}
    (h : role = .primary ∨ role = .secondary) : Complementary role (opposite role) := by
  rcases h with rfl | rfl
  · exact .inl ⟨rfl, rfl⟩
  · exact .inr ⟨rfl, rfl⟩

theorem PeerSaved.enabledAs {peer : Node} (h : PeerSaved domainName nd ds peer) :
    EnabledAs peer domainName
      (opposite (enabledRole nd.currentStatus.localStatus ds.coloStatus)) := by
  obtain ⟨⟨record, hrecord, hcolo⟩, entry, hentry, hcolo'⟩ := h
  simp only [ColodDomainStatus.colo, SaveEntry.colo, Prod.mk.injEq] at hcolo hcolo'
  exact ⟨⟨record, hrecord, hcolo.1, hcolo.2.1⟩, entry, hentry, hcolo'.1, hcolo'.2.1⟩

theorem PeerSaved.sameColo_iff {peer peer' : Node} (h : PeerSaved domainName nd ds peer') :
    SameColo domainName peer peer' ↔ PeerHolds domainName nd ds peer := by
  obtain ⟨⟨record, hrecord, hcolo⟩, entry, hentry, hcolo'⟩ := h
  rw [SameColo, PeerHolds, hrecord, hentry, Option.map_some, Option.map_some, hcolo, hcolo']
  exact ⟨fun h => ⟨h.1.symm, h.2.symm⟩, fun h => ⟨h.1.symm, h.2.symm⟩⟩

theorem allOrNothing_call_iff (hcalling : Calling domainName nd ds nd₁)
    (hds : nd.domains.lookup domainName = some ds) (husable : (clientFor nd).usable = true)
    (hname : ds.name = domainName) (hlength : domainName.length < 65536)
    (hrole : enabledRole nd.currentStatus.localStatus ds.coloStatus = .primary ∨
      enabledRole nd.currentStatus.localStatus ds.coloStatus = .secondary) :
    AllOrNothing domainName nd w.node
        (runPair (nd₁.remoteCall (.peerSaveDomain (nd₁.dom domainName))
          (enableAnswered domainName)) w) ↔
      CallClean domainName nd ds w := by
  by_cases hsaves : PeerSaves nd w
  · obtain ⟨ret, nd', w', hrun, hpeer, hcase⟩ :=
      runPair_enable_saved hcalling husable hsaves hname hlength
    rw [hrun]
    simp only [AllOrNothing, CallClean, hsaves, not_true_eq_false, false_and, false_or, true_and]
    cases hfind : nd.save.find domainName with
    | none =>
        rw [hfind] at hcase
        obtain ⟨hcode, hmissing⟩ := hcase
        simp [hcode, EnabledAs, hmissing]
    | some entry =>
        rw [hfind] at hcase
        by_cases hstatus : entry.status = "shutoff"
        · simp only [hstatus, if_true] at hcase
          simp only [hcase.1, hstatus, Option.some.injEq, exists_eq_left', true_or,
            true_implies, iff_true]
          exact ⟨⟨_, _, complementary_opposite hrole, hcase.2, hpeer.enabledAs⟩,
            fun hneg => absurd hneg (by omega)⟩
        · simp only [hstatus, if_false] at hcase
          have hundo := sameColo_iff_of_undone hds hcase.2
          have hsame : SameColo domainName w.node w'.node ↔ _ := hpeer.sameColo_iff
          simp [hcase.1, hundo, hsame, hstatus]
  · obtain ⟨msg, nd', w', hrun, hundone, hpeer⟩ :=
      runPair_enable_unsaved hcalling husable hsaves
    have hundo := sameColo_iff_of_undone hds hundone
    have hrefl : SameColo domainName w.node w.node := ⟨rfl, rfl⟩
    rw [hrun]
    simp [AllOrNothing, CallClean, hsaves, hundo, hpeer, hrefl]

/-- `colod_colo_enable` is all or nothing across the two nodes exactly when
`EnableClean` holds.  A name that has come over the wire is shorter than 65536. -/
theorem coloEnable_allOrNothing_iff (hds : nd.domains.lookup domainName = some ds)
    (hname : ds.name = domainName) (hlength : domainName.length < 65536) (env : Env) :
    AllOrNothing domainName nd w.node (runPair (colodColoEnable env domainName nd) w) ↔
      EnableClean env domainName nd ds w := by
  unfold colodColoEnable EnableClean
  by_cases hstatus : nd.currentStatus.localStatus = .none ∨
      nd.currentStatus.localStatus = .error
  · simp [hstatus, runPair, AllOrNothing, SameColo]
  · have hrole : enabledRole nd.currentStatus.localStatus ds.coloStatus = .primary ∨
        enabledRole nd.currentStatus.localStatus ds.coloStatus = .secondary := by
      cases hlocal : nd.currentStatus.localStatus <;> simp_all [enabledRole]
    simp only [hstatus, if_false, false_or]
    generalize hnd₁ : (nd.modDom domainName fun record =>
      { record with
        coloEnable := true
        coloStatus := enabledRole nd.currentStatus.localStatus record.coloStatus }) = nd₁
    have hmemory : nd₁.domains.lookup domainName = some (enabledRecord nd ds) := by
      rw [← hnd₁, Node.lookup_modDom, if_pos rfl, Node.dom_eq_of_lookup hds]
      rfl
    have hsave : nd₁.save = nd.save := by
      rw [← hnd₁]
      rfl
    have hclient : nd₁.remoteClientInit = nd.remoteClientInit ∧
        nd₁.remoteClient = nd.remoteClient ∧ nd₁.nextSocket = nd.nextSocket ∧
          nd₁.currentStatus = nd.currentStatus := by
      rw [← hnd₁]
      exact ⟨rfl, rfl, rfl, rfl⟩
    obtain ⟨hinit, hremote, hnext, hcs⟩ := hclient
    have hcall : ∀ nd₂, Calling domainName nd ds nd₂ →
        (AllOrNothing domainName nd w.node
            (runPair (nd₂.remoteCall (.peerSaveDomain (nd₂.dom domainName))
              (enableAnswered domainName)) w) ↔
          (clientFor nd).usable = false ∨ CallClean domainName nd ds w) := by
      intro nd₂ hcalling
      by_cases husable : (clientFor nd).usable = true
      · rw [allOrNothing_call_iff hcalling hds husable hname hlength hrole]
        simp [husable]
      · have hunusable : nd₂.remoteClient.usable = false := by
          rw [hcalling.client]
          simpa using husable
        rw [runPair, exec_of_not_usable hunusable]
        simpa [AllOrNothing] using .inl (by simpa using husable)
    cases hnd : nd.remoteClientInit with
    | true =>
        have hensure : nd₁.ensureRemoteClient env = .ok nd₁ := by
          simp [Node.ensureRemoteClient, hinit, hnd]
        rw [hensure]
        have hcalling : Calling domainName nd ds nd₁ :=
          ⟨hmemory, hsave, by simp [clientFor, hnd, hremote]⟩
        simpa using hcall nd₁ hcalling
    | false =>
        by_cases hconnect : env.connect nd.currentStatus.peerIp = true
        · have hensure : nd₁.ensureRemoteClient env =
              .ok (nd₁.withSocket nd.currentStatus.peerIp) := by
            simp [Node.ensureRemoteClient, Node.setRemoteClient, hinit, hnd, hcs, hconnect]
          rw [hensure]
          have hcalling : Calling domainName nd ds (nd₁.withSocket nd.currentStatus.peerIp) :=
            ⟨hmemory, hsave, by simp [clientFor, hnd, Node.withSocket, hremote, hnext]⟩
          simpa [hconnect] using hcall _ hcalling
        · have hensure : nd₁.ensureRemoteClient env = .error nd₁ := by
            simp [Node.ensureRemoteClient, Node.setRemoteClient, hinit, hnd, hcs, hconnect]
          rw [hensure]
          simp [runPair, AllOrNothing, hconnect]

theorem coloEnable_allOrNothing_executed :
    AllOrNothing "d" (callerNode .primary) (peerNode .primary)
      (runPair (colodColoEnable (.smooth 100) "d" (callerNode .primary))
        ⟨peerNode .primary, [.executed (.smooth 100)], 0, []⟩) := by
  have hds : (callerNode .primary).domains.lookup "d" =
      some ⟨-1, "d", .shutOff, false, .none, "d.yaml"⟩ := by
    decide +kernel
  have hfind : (callerNode .primary).save.find "d" =
      some ⟨"d", "d.yaml", -1, "shutoff", false, "none"⟩ := by
    decide +kernel
  let w : Peer := ⟨peerNode .primary, [.executed (.smooth 100)], 0, []⟩
  have hsaves : PeerSaves (callerNode .primary) w := by
    constructor
    · simp [w, Peer.executes, nextEnv, clientFor, callerNode, Buttonrpc.sends]
    · decide
  have hiff : AllOrNothing "d" (callerNode .primary) w.node
      (runPair (colodColoEnable (.smooth 100) "d" (callerNode .primary)) w) ↔ _ :=
    coloEnable_allOrNothing_iff hds rfl (by decide) (.smooth 100)
  exact hiff.mpr (.inr (.inr (.inr (.inr ⟨hsaves, _, hfind, .inl rfl⟩))))

theorem AllOrNothing.sameColo {peer : Node} {result : Outcome Node ColodRetVal × Peer}
    (h : AllOrNothing domainName nd peer result)
    (hcode : result.1.value.map ColodRetVal.code = some (-1)) :
    SameColo domainName nd result.1.state := by
  obtain ⟨o, w'⟩ := result
  obtain ⟨ret, nd', rfl, hret⟩ := Outcome.exists_returned hcode
  exact (h.2 (by omega)).1

/-- A call that times out leaves the role of the domain changed. -/
theorem not_allOrNothing_timeout :
    ¬ AllOrNothing "d" (callerNode .primary) (peerNode .primary)
      (runPair (colodColoEnable (.smooth 100) "d" (callerNode .primary))
        ⟨peerNode .primary, [.lost], 0, []⟩) := by
  intro h
  exact absurd (h.sameColo (by decide +kernel)).1 (by decide +kernel)

end ColoManage
