import ColoManage.ConnectPeer
import ColoManage.Pair

/-!
# Two nodes after a successful connect-peer

The caller keeps what the document says; the peer stores the status that
reaches it with the roles and the addresses exchanged.  The two are mirror
images when the document names a role and no string is cut on the wire.  Each
also writes a section `save_status`, whose port is always the constant, while
the caller's record keeps the port it had.
-/

namespace ColoManage

open Resumption

/-! ## The property -/

structure Mirrored (nd peer : Node) : Prop where
  roles : nd.currentStatus.localStatus = .primary ∧ peer.currentStatus.localStatus = .secondary ∨
    nd.currentStatus.localStatus = .secondary ∧ peer.currentStatus.localStatus = .primary
  hostIp : peer.currentStatus.hostIp = nd.currentStatus.peerIp
  hostUser : peer.currentStatus.hostUser = nd.currentStatus.peerUser
  hostFilePath : peer.currentStatus.hostFilePath = nd.currentStatus.peerFilePath
  peerIp : peer.currentStatus.peerIp = nd.currentStatus.hostIp
  peerUser : peer.currentStatus.peerUser = nd.currentStatus.hostUser
  peerFilePath : peer.currentStatus.peerFilePath = nd.currentStatus.hostFilePath

/-- The section `save_status` read back, in the way of `get_connect_status`. -/
def SaveFile.status (sf : SaveFile) : Option ColoStatus := do
  let saved ← sf.saveStatus
  let field (key : String) : Option Yaml.Node := (saved.sub key).toOption.join
  let text (key : String) : Option String := do (← field key).asString.toOption
  pure {
    localStatus := mapAt coloNodeStatusMap (← text "local_status")
    colodPort := ← (← field "colod_port").asInt.toOption
    hostIp := ← text "host_ip"
    hostUser := ← text "host_user"
    hostFilePath := ← text "host_file_path"
    peerIp := ← text "peer_ip"
    peerUser := ← text "peer_user"
    peerFilePath := ← text "peer_file_path" }

def Node.StatusSaved (nd : Node) : Prop := nd.save.status = some nd.currentStatus

/-- Mirror images, each with its status in its save file. -/
structure MirrorImages (nd peer : Node) : Prop where
  mirrored : Mirrored nd peer
  saved : nd.StatusSaved
  peerSaved : peer.StatusSaved

/-! ## When it holds -/

/-- The document names a role, and its strings fit the length field of the wire. -/
def NamesRole (configFilePath : String) (nd : Node) : Prop :=
  ∀ config, nd.loadFile configFilePath = some config →
    (∀ text, (.localStatus, text) ∈ (documentFields config).1 →
      text = "primary" ∨ text = "secondary") ∧
      ∀ read ∈ (documentFields config).1, read.2.length < 65536

theorem status_saveColoStatus (cs : ColoStatus) (sf : SaveFile) :
    (saveColoStatus cs sf).status = some { cs with colodPort := colodPort } := by
  have hport : (Yaml.Node.scalar colodPort.repr).asInt = .ok colodPort := by decide
  simp [SaveFile.status, saveColoStatus, Yaml.Node.sub, List.lookup_cons, Yaml.Node.asString,
    Except.toOption, hport]

/-- A text that the role look-up of `parse_config_file` maps to a role is that role's name. -/
theorem mapAt_coloNodeStatusMap_of_ne {text : String} {status : ColoNodeStatus}
    (hstatus : status ≠ .none) :
    mapAt coloNodeStatusMap text = status ↔ text = coloNodeStatusToStr status := by
  constructor
  · intro h
    unfold mapAt at h
    cases hlookup : coloNodeStatusMap.lookup text with
    | none =>
        rw [hlookup] at h
        exact absurd h.symm hstatus
    | some found =>
        rw [hlookup, Option.getD_some] at h
        subst h
        obtain ⟨before, after, heq, -⟩ := List.lookup_eq_some_iff.mp hlookup
        have hmem : (text, found) ∈ coloNodeStatusMap := heq ▸ by simp
        simp only [coloNodeStatusMap, List.mem_cons, Prod.mk.injEq, List.not_mem_nil,
          or_false] at hmem
        rcases hmem with ⟨rfl, rfl⟩ | ⟨rfl, rfl⟩ | ⟨rfl, rfl⟩ | ⟨rfl, rfl⟩ <;> rfl
  · rintro rfl
    exact coloNodeStatusMap_toStr status

/-! ## The two ends of the call -/

theorem currentStatus_of_ensureRemoteClient {env : Env} {nd nd' : Node}
    (h : nd.ensureRemoteClient env = .ok nd') : nd'.currentStatus = nd.currentStatus := by
  rcases nd.ensureRemoteClient_cases env with heq | ⟨-, heq⟩ | ⟨-, heq⟩
  · simp [heq] at h
  · rw [heq, Except.ok.injEq] at h
    rw [← h]
  · rw [heq, Except.ok.injEq] at h
    rw [← h]
    rfl

theorem runPeer_peerSaveStatus (env : Env) (cs : ColoStatus) (nd : Node) :
    (∃ nd', runPeer env (.peerSaveStatus cs) nd = .crashed nd') ∨
      ∃ nd', runPeer env (.peerSaveStatus cs) nd =
          .returned ⟨0, "peer colod save status success."⟩ nd' ∧
        nd'.currentStatus = mirrorStatus cs ∧ nd'.StatusSaved := by
  cases hclient : (nd.setStatus (mirrorStatus cs)).ensureRemoteClient env with
  | error nd₁ =>
      exact .inl ⟨nd₁, by simp [runPeer, handle, peerColodSaveStatus, hclient, Act.follow]⟩
  | ok nd₁ =>
      have hstatus : nd₁.currentStatus = mirrorStatus cs :=
        currentStatus_of_ensureRemoteClient hclient
      refine .inr ⟨(nd₁.setSave (saveColoStatus nd₁.currentStatus nd₁.save)).setPeerInit true,
        by simp [runPeer, handle, peerColodSaveStatus, hclient, Act.follow], hstatus, ?_⟩
      have hsaved := status_saveColoStatus nd₁.currentStatus nd₁.save
      rw [hstatus] at hsaved
      show (saveColoStatus nd₁.currentStatus nd₁.save).status = some nd₁.currentStatus
      rw [hstatus]
      exact hsaved

/-- What a successful connect-peer leaves on the two nodes, in terms of the
status that the document gives to the caller. -/
structure ConnectedAs (cs : ColoStatus) (nd peer : Node) : Prop where
  status : nd.currentStatus = cs
  saved : nd.save.status = some { cs with colodPort := colodPort }
  peerStatus : peer.currentStatus = mirrorStatus cs.wire
  peerSaved : peer.StatusSaved

theorem connectedAs_of_returned (nd : Node) {nd' : Node} {w w' : Peer}
    {cs : ColoStatus} {ret : ColodRetVal} (hcs : nd.currentStatus = cs)
    (hrun : runPair (nd.remoteCall (.peerSaveStatus cs) connectAnswered) w =
      (.returned ret nd', w'))
    (hcode : ret.code = 0) : ConnectedAs cs nd' w'.node := by
  rcases remoteCall_cases hrun with ⟨nd₁, w₁, hrun⟩ | ⟨env, answer, w₁, hpeer, hrun⟩
  · have hrefused : accepted (some .timeout) = false := rfl
    obtain ⟨msg, hdone⟩ := connectAnswered_of_refused hrefused nd₁
    rw [runPair, hdone, Act.exec_done] at hrun
    cases hrun
    simp at hcode
  · rcases runPeer_peerSaveStatus env cs.wire w.node with
      ⟨peer, hsave⟩ | ⟨peer, hsave, hstatus, hsaved⟩
    · rw [Request.wire, hsave] at hpeer
      cases hpeer
    · rw [Request.wire, hsave] at hpeer
      obtain ⟨rfl, hnode⟩ := Outcome.returned.inj hpeer
      rw [runPair, connectAnswered_of_accepted (by rfl), Act.exec_done] at hrun
      cases hrun
      rw [hnode] at hstatus hsaved
      refine ⟨hcs, ?_, hstatus, hsaved⟩
      rw [← hcs]
      exact status_saveColoStatus _ _

theorem connectedAs_of_success {env : Env} {configFilePath : String} {nd nd' : Node}
    {w w' : Peer} {ret : ColodRetVal}
    (hrun : runPair (colodConnectPeer env configFilePath nd) w = (.returned ret nd', w'))
    (hcode : ret.code = 0) :
    ∃ config, nd.loadFile configFilePath = some config ∧ (documentFields config).2 = none ∧
      ConnectedAs (nd.configured config).currentStatus nd' w'.node := by
  rw [colodConnectPeer_eq] at hrun
  cases hload : nd.loadFile configFilePath with
  | none =>
      rw [hload] at hrun
      cases hrun
  | some config =>
      rw [hload] at hrun
      dsimp only at hrun
      cases hstop : (documentFields config).2 with
      | some stop =>
          rw [hstop] at hrun
          cases stop with
          | thrown exn => cases hrun
          | refused err =>
              cases hrun
              simp at hcode
      | none =>
          rw [hstop] at hrun
          dsimp only at hrun
          by_cases hconnect : env.connect (nd.configured config).currentStatus.peerIp = true
          · rw [if_pos hconnect] at hrun
            exact ⟨config, rfl, hstop,
              connectedAs_of_returned (nd.connecting config) rfl hrun hcode⟩
          · rw [if_neg hconnect] at hrun
            cases hrun

/-! ## Exactness -/

/-- The text of a field on record. -/
def ConnectField.text (cs : ColoStatus) : ConnectField → String
  | localStatus => coloNodeStatusToStr cs.localStatus
  | hostIp => cs.hostIp
  | hostUser => cs.hostUser
  | hostFilePath => cs.hostFilePath
  | peerIp => cs.peerIp
  | peerUser => cs.peerUser
  | peerFilePath => cs.peerFilePath

/-- A status in a role, all of whose strings fit the length field of the wire. -/
def ColoStatus.Transmissible (cs : ColoStatus) : Prop :=
  (cs.localStatus = .primary ∨ cs.localStatus = .secondary) ∧
    ∀ field : ConnectField, (field.text cs).length < 65536

theorem mirrored_iff_of_connectedAs {cs : ColoStatus} {nd peer : Node}
    (h : ConnectedAs cs nd peer) : Mirrored nd peer ↔ cs.Transmissible := by
  have hroles : (cs.localStatus = .primary ∧ (mirrorStatus cs.wire).localStatus = .secondary ∨
      cs.localStatus = .secondary ∧ (mirrorStatus cs.wire).localStatus = .primary) ↔
        (cs.localStatus = .primary ∨ cs.localStatus = .secondary) := by
    cases hstatus : cs.localStatus <;> simp [mirrorStatus, ColoStatus.wire, hstatus]
  constructor
  · rintro ⟨roles, hostIp, hostUser, hostFilePath, peerIp, peerUser, peerFilePath⟩
    rw [h.status, h.peerStatus] at *
    refine ⟨hroles.mp roles, fun field => ?_⟩
    cases field with
    | localStatus => cases hstatus : cs.localStatus <;> simp [ConnectField.text, hstatus] <;> decide
    | hostIp => exact wireString_eq_iff.mp peerIp
    | hostUser => exact wireString_eq_iff.mp peerUser
    | hostFilePath => exact wireString_eq_iff.mp peerFilePath
    | peerIp => exact wireString_eq_iff.mp hostIp
    | peerUser => exact wireString_eq_iff.mp hostUser
    | peerFilePath => exact wireString_eq_iff.mp hostFilePath
  · rintro ⟨roles, hfits⟩
    constructor <;> rw [h.status, h.peerStatus]
    · exact hroles.mpr roles
    · exact wireString_of_lt (hfits .peerIp)
    · exact wireString_of_lt (hfits .peerUser)
    · exact wireString_of_lt (hfits .peerFilePath)
    · exact wireString_of_lt (hfits .hostIp)
    · exact wireString_of_lt (hfits .hostUser)
    · exact wireString_of_lt (hfits .hostFilePath)

/-- The text on record is the text of the document, except for a role that the
document does not name. -/
theorem text_of_holds {field : ConnectField} {text : String} {cs : ColoStatus}
    (hrole : field = .localStatus → cs.localStatus ≠ .none) (h : field.Holds text cs) :
    field.text cs = text := by
  cases field with
  | localStatus => exact ((mapAt_coloNodeStatusMap_of_ne (hrole rfl)).mp h.symm).symm
  | _ => exact h

theorem namesRole_iff {configFilePath : String} {nd : Node} {config : Yaml.Node}
    (hload : nd.loadFile configFilePath = some config)
    (hstop : (documentFields config).2 = none) :
    NamesRole configFilePath nd ↔ (nd.configured config).currentStatus.Transmissible := by
  have hholds : ∀ {field : ConnectField} {text : String},
      (field, text) ∈ (documentFields config).1 →
        field.Holds text (nd.configured config).currentStatus := fun hmem =>
    holds_storeFields (nodup_documentFields config) hmem nd.currentStatus
  obtain ⟨role, hrole⟩ := exists_mem_documentFields hstop .localStatus
  have hstatus : (nd.configured config).currentStatus.localStatus = mapAt coloNodeStatusMap role :=
    hholds hrole
  constructor
  · intro h
    obtain ⟨hnames, hfits⟩ := h config hload
    have hrecognised : (nd.configured config).currentStatus.localStatus = .primary ∨
        (nd.configured config).currentStatus.localStatus = .secondary := by
      rw [hstatus]
      rcases hnames role hrole with rfl | rfl
      · exact .inl (by decide)
      · exact .inr (by decide)
    refine ⟨hrecognised, fun field => ?_⟩
    obtain ⟨text, hmem⟩ := exists_mem_documentFields hstop field
    have hnone : (nd.configured config).currentStatus.localStatus ≠ .none := by
      rcases hrecognised with h | h <;> simp [h]
    rw [text_of_holds (fun _ => hnone) (hholds hmem)]
    exact hfits (field, text) hmem
  · rintro ⟨hrecognised, hfits⟩ other hother
    rw [hload, Option.some.injEq] at hother
    subst hother
    have hnone : (nd.configured config).currentStatus.localStatus ≠ .none := by
      rcases hrecognised with h | h <;> simp [h]
    refine ⟨fun text hmem => ?_, fun read hmem => ?_⟩
    · have htext := text_of_holds (fun _ => hnone) (hholds hmem)
      rcases hrecognised with h | h
      · exact .inl (by rw [← htext]; simp [ConnectField.text, h, coloNodeStatusToStr])
      · exact .inr (by rw [← htext]; simp [ConnectField.text, h, coloNodeStatusToStr])
    · obtain ⟨field, text⟩ := read
      rw [← text_of_holds (fun _ => hnone) (hholds hmem)]
      exact hfits field

theorem colodPort_storeFields (fields : List (ConnectField × String)) (cs : ColoStatus) :
    (storeFields fields cs).colodPort = cs.colodPort := by
  induction fields generalizing cs with
  | nil => rfl
  | cons read fields ih =>
      rw [storeFields, List.foldl_cons, ← storeFields, ih]
      obtain ⟨field, text⟩ := read
      cases field <;> rfl

theorem statusSaved_iff_of_connectedAs {cs : ColoStatus} {nd peer : Node}
    (h : ConnectedAs cs nd peer) : nd.StatusSaved ↔ cs.colodPort = colodPort := by
  unfold Node.StatusSaved
  rw [h.saved, h.status, Option.some.injEq]
  constructor
  · intro heq
    exact (congrArg ColoStatus.colodPort heq).symm
  · intro hport
    rw [← hport]

/-- After a connect-peer that returns `0`, the two nodes mirror each other exactly
when the document names a role and its strings fit on the wire.  Both files
hold what memory holds exactly when, besides, the caller's port was the
constant already. -/
theorem mirrorImages_iff {env : Env} {configFilePath : String} {nd nd' : Node} {w w' : Peer}
    {ret : ColodRetVal}
    (hrun : runPair (colodConnectPeer env configFilePath nd) w = (.returned ret nd', w'))
    (hcode : ret.code = 0) :
    (Mirrored nd' w'.node ↔ NamesRole configFilePath nd) ∧
      (MirrorImages nd' w'.node ↔
        NamesRole configFilePath nd ∧ nd.currentStatus.colodPort = colodPort) := by
  obtain ⟨config, hload, hstop, hconnected⟩ := connectedAs_of_success hrun hcode
  have hmirrored := (mirrored_iff_of_connectedAs hconnected).trans
    (namesRole_iff hload hstop).symm
  have hport : (nd.configured config).currentStatus.colodPort = nd.currentStatus.colodPort :=
    colodPort_storeFields _ _
  have hsaved := statusSaved_iff_of_connectedAs hconnected
  rw [hport] at hsaved
  refine ⟨hmirrored, ?_, ?_⟩
  · intro h
    exact ⟨hmirrored.mp h.mirrored, hsaved.mp h.saved⟩
  · rintro ⟨hnames, hport⟩
    exact ⟨hmirrored.mpr hnames, hsaved.mpr hport, hconnected.peerSaved⟩

/-! ## Runs -/

def rolesDocument (localStatus : String) : Yaml.Node :=
  connectDocument localStatus "10.0.0.1" "10.0.0.2"

/-- A connect-peer of the node with a document at hand, to a peer that colod has
just been started on. -/
def connectPair (localStatus : String) (nd : Node) : Outcome Node ColodRetVal × Peer :=
  runPair
    (colodConnectPeer (.smooth 100) "/root/peer.yaml"
      (nd.writeFile "/root/peer.yaml" (rolesDocument localStatus)))
    ⟨Node.fresh.rsInit, [.executed (.smooth 100)], 0, []⟩

/-- A node that has once handled a peer-save-status. -/
def onceConnected : Node := (runPeer (.smooth 100) (.peerSaveStatus default) Node.fresh.rsInit).state

theorem mirrorImages_primary :
    MirrorImages (connectPair "primary" onceConnected).1.state
      (connectPair "primary" onceConnected).2.node := by
  have hrun : connectPair "primary" onceConnected =
      (.returned ⟨0, "connect peer success."⟩ (connectPair "primary" onceConnected).1.state,
        (connectPair "primary" onceConnected).2) := by rfl
  refine ((mirrorImages_iff hrun rfl).2).mpr ⟨?_, by decide⟩
  intro config hload
  have hfields : (documentFields config).1 =
      [(.localStatus, "primary"), (.hostIp, "10.0.0.1"), (.hostUser, "root"),
        (.hostFilePath, "/vm/"), (.peerIp, "10.0.0.2"), (.peerUser, "root"),
        (.peerFilePath, "/vm/")] := by
    cases hload
    rfl
  rw [hfields]
  constructor
  · intro text hmem
    left
    simpa using hmem
  · decide

theorem not_mirrored_unrecognised :
    (connectPair "master" Node.fresh.rsInit).1.value.map ColodRetVal.code = some 0 ∧
      ¬ Mirrored (connectPair "master" Node.fresh.rsInit).1.state
        (connectPair "master" Node.fresh.rsInit).2.node := by
  refine ⟨by decide, fun h => ?_⟩
  have hroles := h.roles
  revert hroles
  decide

end ColoManage
