import ColoManage.Server
import ColoManage.Steps

/-!
# What connect-peer leaves behind

`parse_config_file` stores a document field by field in the live status, the
client is pointed at the new peer, and then the peer is called.  Nothing is
taken back when one of these steps fails, so a failed connect-peer leaves no
trace exactly when what it had stored until then was there before.
-/

namespace ColoManage

open Resumption

/-! ## The document -/

/-- The fields of the section `colo`, in the order in which they are read. -/
inductive ConnectField
  | localStatus
  | hostIp
  | hostUser
  | hostFilePath
  | peerIp
  | peerUser
  | peerFilePath
  deriving DecidableEq, Repr

namespace ConnectField

def all : List ConnectField :=
  [.localStatus, .hostIp, .hostUser, .hostFilePath, .peerIp, .peerUser, .peerFilePath]

def key : ConnectField → String
  | localStatus => "local_status"
  | hostIp => "host_ip"
  | hostUser => "host_user"
  | hostFilePath => "host_file_path"
  | peerIp => "peer_ip"
  | peerUser => "peer_user"
  | peerFilePath => "peer_file_path"

def store : ConnectField → String → ColoStatus → ColoStatus
  | localStatus, text, cs => { cs with localStatus := mapAt coloNodeStatusMap text }
  | hostIp, text, cs => { cs with hostIp := text }
  | hostUser, text, cs => { cs with hostUser := text }
  | hostFilePath, text, cs => { cs with hostFilePath := text }
  | peerIp, text, cs => { cs with peerIp := text }
  | peerUser, text, cs => { cs with peerUser := text }
  | peerFilePath, text, cs => { cs with peerFilePath := text }

/-- The status has the value that the text stands for. -/
def Holds (field : ConnectField) (text : String) (cs : ColoStatus) : Prop :=
  match field with
  | localStatus => cs.localStatus = mapAt coloNodeStatusMap text
  | hostIp => cs.hostIp = text
  | hostUser => cs.hostUser = text
  | hostFilePath => cs.hostFilePath = text
  | peerIp => cs.peerIp = text
  | peerUser => cs.peerUser = text
  | peerFilePath => cs.peerFilePath = text

theorem nodup_all : all.Nodup := by decide

theorem holds_store (field : ConnectField) (text : String) (cs : ColoStatus) :
    field.Holds text (field.store text cs) := by
  cases field <;> rfl

theorem store_of_holds {field : ConnectField} {text : String} {cs : ColoStatus}
    (h : field.Holds text cs) : field.store text cs = cs := by
  cases field <;> simp [Holds] at h <;> simp [store, ← h]

theorem holds_store_of_ne {field other : ConnectField} (hne : other ≠ field) (text value : String)
    (cs : ColoStatus) : other.Holds value (field.store text cs) ↔ other.Holds value cs := by
  cases field <;> cases other <;> first | exact absurd rfl hne | exact Iff.rfl

end ConnectField

/-- The fields that a document gives up to the first that it does not, and how
the reading stops there. -/
def readFields (colo : Yaml.Node) :
    List ConnectField → List (ConnectField × String) × Option ParseStop
  | [] => ([], none)
  | field :: fields =>
      match requireString colo field.key ("cannot find colo " ++ field.key ++ ".") with
      | .ok text => ((field, text) :: (readFields colo fields).1, (readFields colo fields).2)
      | .error stop => ([], some stop)

def documentFields (config : Yaml.Node) : List (ConnectField × String) × Option ParseStop :=
  match requireKey config "colo" "cannot find colo info." with
  | .ok colo => readFields colo ConnectField.all
  | .error stop => ([], some stop)

def storeFields (fields : List (ConnectField × String)) (cs : ColoStatus) : ColoStatus :=
  fields.foldl (fun cs read => read.1.store read.2 cs) cs

/-- The parser as a loop over the fields. -/
def parseFields (colo : Yaml.Node) :
    List ConnectField → ColoStatus → Except (ParseStop × ColoStatus) ColoStatus
  | [], cs => .ok cs
  | field :: fields, cs => do parseFields colo fields (← readField colo field.key field.store cs)

theorem parseFields_singleton (colo : Yaml.Node) (field : ConnectField) (cs : ColoStatus) :
    parseFields colo [field] cs = readField colo field.key field.store cs := by
  unfold parseFields
  cases readField colo field.key field.store cs <;> rfl

theorem parseFields_eq (colo : Yaml.Node) (fields : List ConnectField) (cs : ColoStatus) :
    parseFields colo fields cs =
      match (readFields colo fields).2 with
      | none => .ok (storeFields (readFields colo fields).1 cs)
      | some stop => .error (stop, storeFields (readFields colo fields).1 cs) := by
  induction fields generalizing cs with
  | nil => rfl
  | cons field fields ih =>
      cases hread : requireString colo field.key ("cannot find colo " ++ field.key ++ ".") with
      | error stop =>
          simp [parseFields, readField, readFields, hread, storeFields, bind, Except.bind]
      | ok text =>
          simp only [parseFields, readField, readFields, hread, bind, Except.bind, ih]
          rfl

/-- What `parse_config_file` leaves in the status, and how it ends, is decided
by the document. -/
theorem parseConfigFile_eq (config : Yaml.Node) (cs : ColoStatus) :
    parseConfigFile config cs =
      match (documentFields config).2 with
      | none => .ok (storeFields (documentFields config).1 cs)
      | some stop => .error (stop, storeFields (documentFields config).1 cs) := by
  unfold documentFields
  cases hcolo : requireKey config "colo" "cannot find colo info." with
  | error stop =>
      simp [parseConfigFile, hcolo, Except.mapError, bind, Except.bind, storeFields]
  | ok colo =>
      have hparse : parseConfigFile config cs = parseFields colo ConnectField.all cs := by
        unfold ConnectField.all parseFields parseFields parseFields parseFields parseFields
          parseFields
        simp only [parseConfigFile, hcolo, Except.mapError, parseFields_singleton]
        rfl
      rw [hparse, parseFields_eq]

theorem map_fst_readFields_sublist (colo : Yaml.Node) (fields : List ConnectField) :
    ((readFields colo fields).1.map Prod.fst).Sublist fields := by
  induction fields with
  | nil => exact List.Sublist.refl _
  | cons field fields ih =>
      unfold readFields
      split
      · exact ih.cons_cons field
      · exact List.nil_sublist _

theorem nodup_documentFields (config : Yaml.Node) :
    ((documentFields config).1.map Prod.fst).Nodup := by
  unfold documentFields
  split
  · rename_i colo _
    exact (map_fst_readFields_sublist colo ConnectField.all).nodup ConnectField.nodup_all
  · exact List.nodup_nil

theorem map_fst_readFields_of_none {colo : Yaml.Node} {fields : List ConnectField}
    (h : (readFields colo fields).2 = none) : (readFields colo fields).1.map Prod.fst = fields := by
  induction fields with
  | nil => rfl
  | cons field fields ih =>
      unfold readFields at h ⊢
      split at h
      · simp only [List.map_cons, ih h]
      · simp at h

/-- A complete document gives every field. -/
theorem exists_mem_documentFields {config : Yaml.Node} (h : (documentFields config).2 = none)
    (field : ConnectField) : ∃ text, (field, text) ∈ (documentFields config).1 := by
  unfold documentFields at h ⊢
  split at h
  · rename_i colo hcolo
    have hall : field ∈ (readFields colo ConnectField.all).1.map Prod.fst := by
      rw [map_fst_readFields_of_none h]
      cases field <;> decide
    obtain ⟨⟨found, text⟩, hmem, rfl⟩ := List.mem_map.mp hall
    exact ⟨text, by simpa [hcolo] using hmem⟩
  · simp at h

/-! ## Storing fields -/

theorem holds_storeFields_of_not_mem {field : ConnectField} {fields : List (ConnectField × String)}
    (h : field ∉ fields.map Prod.fst) (value : String) (cs : ColoStatus) :
    field.Holds value (storeFields fields cs) ↔ field.Holds value cs := by
  induction fields generalizing cs with
  | nil => exact Iff.rfl
  | cons read fields ih =>
      rw [List.map_cons, List.mem_cons, not_or] at h
      rw [storeFields, List.foldl_cons, ← storeFields, ih h.2,
        ConnectField.holds_store_of_ne h.1]

theorem holds_storeFields {fields : List (ConnectField × String)}
    (hnodup : (fields.map Prod.fst).Nodup) {field : ConnectField} {text : String}
    (hmem : (field, text) ∈ fields) (cs : ColoStatus) :
    field.Holds text (storeFields fields cs) := by
  induction fields generalizing cs with
  | nil => simp at hmem
  | cons read fields ih =>
      rw [List.map_cons, List.nodup_cons] at hnodup
      rw [storeFields, List.foldl_cons, ← storeFields]
      rcases List.mem_cons.mp hmem with rfl | hmem
      · exact (holds_storeFields_of_not_mem hnodup.1 text _).mpr
          (ConnectField.holds_store field text cs)
      · exact ih hnodup.2 hmem _

/-- Storing what is there already changes nothing. -/
theorem storeFields_eq_self_iff {fields : List (ConnectField × String)}
    (hnodup : (fields.map Prod.fst).Nodup) (cs : ColoStatus) :
    storeFields fields cs = cs ↔ ∀ read ∈ fields, read.1.Holds read.2 cs := by
  constructor
  · intro h read hmem
    have hholds := holds_storeFields hnodup hmem cs
    rwa [h] at hholds
  · intro h
    induction fields with
    | nil => rfl
    | cons read fields ih =>
        rw [List.map_cons, List.nodup_cons] at hnodup
        rw [storeFields, List.foldl_cons, ConnectField.store_of_holds (h read (by simp)),
          ← storeFields]
        exact ih hnodup.2 fun other hother => h other (List.mem_cons_of_mem read hother)

/-! ## The handler, document first -/

def Node.configured (config : Yaml.Node) (nd : Node) : Node :=
  nd.setStatus (storeFields (documentFields config).1 nd.currentStatus)

/-- The node when `set_remote_client` has returned. -/
def Node.connecting (config : Yaml.Node) (nd : Node) : Node :=
  { (nd.configured config).withSocket (nd.configured config).currentStatus.peerIp with
    remoteClientInit := true }

/-- `colod_connect_peer` from the return of the peer call on. -/
def connectAnswered (ret : ValueT) (nd : Node) : Colod :=
  if ret.code ≠ .success then .done ⟨-1, "connect to peer colod timeout."⟩ nd
  else if ret.val.code < 0 then .done ⟨-1, ret.val.msg⟩ nd
  else
    .done ⟨0, "connect peer success."⟩
      ((nd.setSave (saveColoStatus nd.currentStatus nd.save)).setPeerInit true)

theorem colodConnectPeer_eq (env : Env) (configFilePath : String) (nd : Node) :
    colodConnectPeer env configFilePath nd =
      match nd.loadFile configFilePath with
      | none => .crash nd
      | some config =>
          match (documentFields config).2 with
          | some (.thrown _) => .crash (nd.configured config)
          | some (.refused _) =>
              .done ⟨-1, "can not parse config file."⟩ (nd.configured config)
          | none =>
              if env.connect (nd.configured config).currentStatus.peerIp then
                (nd.connecting config).remoteCall
                  (.peerSaveStatus (nd.configured config).currentStatus) connectAnswered
              else .crash (nd.configured config) := by
  unfold colodConnectPeer
  cases nd.loadFile configFilePath with
  | none => rfl
  | some config =>
      simp only [parseConfigFile_eq]
      cases (documentFields config).2 with
      | some stop => cases stop <;> rfl
      | none =>
          dsimp only [Node.setRemoteClient]
          by_cases hconnect : env.connect (nd.configured config).currentStatus.peerIp = true
          · rw [if_pos hconnect]
            have hconnect' := hconnect
            simp only [Node.configured, Node.setStatus] at hconnect'
            rw [if_pos hconnect']
            rfl
          · rw [if_neg hconnect]
            simp only [Node.configured, Node.setStatus] at hconnect
            rw [if_neg hconnect]
            rfl

theorem configured_peerIp {config : Yaml.Node} {peerIp : String}
    (hmem : (.peerIp, peerIp) ∈ (documentFields config).1) (nd : Node) :
    (nd.configured config).currentStatus.peerIp = peerIp :=
  holds_storeFields (nodup_documentFields config) hmem nd.currentStatus

theorem configured_currentStatus_iff (config : Yaml.Node) (nd : Node) :
    (nd.configured config).currentStatus = nd.currentStatus ↔
      ∀ read ∈ (documentFields config).1, read.1.Holds read.2 nd.currentStatus :=
  storeFields_eq_self_iff (nodup_documentFields config) nd.currentStatus

/-! ## A failed connect-peer -/

structure Node.SameConnection (nd nd' : Node) : Prop where
  currentStatus : nd'.currentStatus = nd.currentStatus
  target : nd'.remoteClient.socket.map ReqSocket.ip = nd.remoteClient.socket.map ReqSocket.ip
  peerInit : nd'.peerInit = nd.peerInit
  save : nd'.save = nd.save

/-- A negative code means that the connection is what it was. -/
def RollsBack (nd : Node) : Outcome Node ColodRetVal → Prop
  | .returned ret nd' => ret.code < 0 → nd.SameConnection nd'
  | .crashed _ => True

/-- The call is made, and refused or timed out. -/
def PeerRefuses (env : Env) (peerIp : String) (script : Script) (nd : Node) : Prop :=
  env.connect peerIp = true ∧ nd.remoteClient.sends = true ∧ script ≠ [] ∧
    accepted (script.reply 0) = false

/-- Every field that was stored before the failure was there already; if it is
the peer that fails, the client had the new target already. -/
def NothingNew (env : Env) (configFilePath : String) (script : Script) (nd : Node) : Prop :=
  match nd.loadFile configFilePath with
  | none => True
  | some config =>
      match (documentFields config).2 with
      | some (.thrown _) => True
      | some (.refused _) =>
          ∀ read ∈ (documentFields config).1, read.1.Holds read.2 nd.currentStatus
      | none =>
          ∀ peerIp, (.peerIp, peerIp) ∈ (documentFields config).1 →
            PeerRefuses env peerIp script nd →
              nd.remoteClient.socket.map ReqSocket.ip = some peerIp ∧
                ∀ read ∈ (documentFields config).1, read.1.Holds read.2 nd.currentStatus

theorem sameConnection_configured_iff (config : Yaml.Node) (nd : Node) :
    nd.SameConnection (nd.configured config) ↔
      ∀ read ∈ (documentFields config).1, read.1.Holds read.2 nd.currentStatus := by
  rw [← configured_currentStatus_iff]
  exact ⟨fun h => h.currentStatus, fun h => ⟨h, rfl, rfl, rfl⟩⟩

/-- A new socket is in the state that the next call needs unless that call
leaves its request out. -/
theorem usable_withSocket (ip : String) (nd : Node) :
    (nd.withSocket ip).remoteClient.usable = nd.remoteClient.sends := by
  show (false == !nd.remoteClient.sends) = nd.remoteClient.sends
  cases nd.remoteClient.sends <;> rfl

theorem usable_connecting (config : Yaml.Node) (nd : Node) :
    (nd.connecting config).remoteClient.usable = nd.remoteClient.sends :=
  usable_withSocket _ (nd.configured config)

theorem connectAnswered_of_accepted {ret : ValueT} (h : accepted (some ret) = true) (nd : Node) :
    connectAnswered ret nd = .done ⟨0, "connect peer success."⟩
      ((nd.setSave (saveColoStatus nd.currentStatus nd.save)).setPeerInit true) := by
  simp only [accepted, decide_eq_true_eq] at h
  simp [connectAnswered, h.1, Int.not_lt.mpr h.2]

theorem connectAnswered_of_refused {ret : ValueT} (h : accepted (some ret) = false) (nd : Node) :
    ∃ msg, connectAnswered ret nd = .done ⟨-1, msg⟩ nd := by
  by_cases hcode : ret.code = .success
  · have hneg : ret.val.code < 0 := by simpa [accepted, hcode] using h
    exact ⟨ret.val.msg, by simp [connectAnswered, hcode, hneg]⟩
  · exact ⟨"connect to peer colod timeout.", by simp [connectAnswered, hcode]⟩

theorem sameConnection_of_answer (request : Request) (events : List OsEvent)
    (answer : Option ValueT) (nd : Node) :
    ∃ nd', Node.received connectAnswered answer ((nd.called request).osAfter events) =
        connectAnswered (answer.getD .timeout) nd' ∧ nd.SameConnection nd' := by
  cases answer with
  | none =>
      refine ⟨_, rfl, rfl, ?_, rfl, rfl⟩
      simp [Node.called, Node.issue, Node.record, Node.setAwaiting, Node.osAfter,
        Node.setErrorCode, Option.map_map, Function.comp_def]
  | some reply =>
      refine ⟨_, rfl, rfl, ?_, rfl, rfl⟩
      simp [Node.called, Node.issue, Node.record, Node.setAwaiting, Node.osAfter,
        Node.setErrorCode, Option.map_map, Function.comp_def]

/-- A failing peer ends the handler with a negative code in the node the call
was made in; otherwise it ends without one. -/
theorem follow_connectAnswered (request : Request) (script : Script) (nd : Node) :
    if nd.remoteClient.usable = true ∧ script ≠ [] ∧ accepted (script.reply 0) = false then
      ∃ msg nd', (nd.remoteCall request connectAnswered).follow Node.osAfter script =
        .returned ⟨-1, msg⟩ nd' ∧ nd.SameConnection nd'
    else
      ∀ base : Node,
        RollsBack base ((nd.remoteCall request connectAnswered).follow Node.osAfter script) := by
  by_cases husable : nd.remoteClient.usable = true
  · rw [Node.remoteCall_of_usable husable]
    cases script with
    | nil => simp [Act.follow, RollsBack]
    | cons entry rest =>
        obtain ⟨nd', heq, hsame⟩ := sameConnection_of_answer request entry.1 entry.2 nd
        have hreply : accepted (some (entry.2.getD .timeout)) = accepted entry.2 := by
          cases entry.2 <;> rfl
        have hfirst : Script.reply (entry :: rest) 0 = entry.2 := rfl
        rw [hfirst, Act.follow, heq]
        cases haccepted : accepted entry.2 with
        | true =>
            rw [haccepted] at hreply
            simp [connectAnswered_of_accepted hreply, Act.follow, RollsBack]
        | false =>
            rw [haccepted] at hreply
            obtain ⟨msg, hdone⟩ := connectAnswered_of_refused hreply nd'
            rw [if_pos ⟨husable, by simp, rfl⟩, hdone]
            exact ⟨msg, nd', rfl, hsame⟩
  · rw [if_neg (by simp [husable]), Node.remoteCall_of_not_usable (by simpa using husable)]
    exact fun _ => trivial

theorem Node.SameConnection.trans_iff {nd₁ nd₂ nd₃ : Node} (h : nd₂.SameConnection nd₃) :
    nd₁.SameConnection nd₃ ↔ nd₁.SameConnection nd₂ :=
  ⟨fun h' => ⟨h.currentStatus.symm.trans h'.currentStatus, h.target.symm.trans h'.target,
      h.peerInit.symm.trans h'.peerInit, h.save.symm.trans h'.save⟩,
    fun h' => ⟨h.currentStatus.trans h'.currentStatus, h.target.trans h'.target,
      h.peerInit.trans h'.peerInit, h.save.trans h'.save⟩⟩

theorem sameConnection_connecting_iff {config : Yaml.Node} {peerIp : String}
    (hmem : (.peerIp, peerIp) ∈ (documentFields config).1) (nd : Node) :
    nd.SameConnection (nd.connecting config) ↔
      nd.remoteClient.socket.map ReqSocket.ip = some peerIp ∧
        ∀ read ∈ (documentFields config).1, read.1.Holds read.2 nd.currentStatus := by
  rw [← configured_currentStatus_iff, ← configured_peerIp hmem nd]
  constructor
  · intro h
    exact ⟨h.target.symm, h.currentStatus⟩
  · rintro ⟨htarget, hstatus⟩
    exact ⟨hstatus, htarget.symm, rfl, rfl⟩

/-- A failed connect-peer leaves the connection alone exactly when it had
nothing new to store before the failure. -/
theorem rollsBack_iff (env : Env) (configFilePath : String) (script : Script) (nd : Node) :
    RollsBack nd ((colodConnectPeer env configFilePath nd).follow Node.osAfter script) ↔
      NothingNew env configFilePath script nd := by
  rw [colodConnectPeer_eq]
  unfold NothingNew
  cases hload : nd.loadFile configFilePath with
  | none => simp [Act.follow, RollsBack]
  | some config =>
      dsimp only
      cases hstop : (documentFields config).2 with
      | some stop =>
          cases stop with
          | thrown exn => simp [Act.follow, RollsBack]
          | refused err =>
              simpa [Act.follow, RollsBack] using sameConnection_configured_iff config nd
      | none =>
          obtain ⟨peerIp, hmem⟩ := exists_mem_documentFields hstop .peerIp
          have hip := configured_peerIp hmem nd
          have honly : ∀ other, (ConnectField.peerIp, other) ∈ (documentFields config).1 →
              other = peerIp := fun other hother => (configured_peerIp hother nd).symm.trans hip
          have hkept := sameConnection_connecting_iff hmem nd
          dsimp only
          rw [hip]
          by_cases hconnect : env.connect peerIp = true
          · rw [if_pos hconnect]
            have hfollow := follow_connectAnswered
              (.peerSaveStatus (nd.configured config).currentStatus) script (nd.connecting config)
            rw [usable_connecting] at hfollow
            split at hfollow
            · rename_i hrefuses
              obtain ⟨msg, nd', heq, hsame⟩ := hfollow
              rw [heq]
              constructor
              · intro h other hother _
                rw [honly other hother]
                exact hkept.mp (hsame.trans_iff.mp (h (by simp)))
              · intro h _
                exact hsame.trans_iff.mpr (hkept.mpr (h peerIp hmem ⟨hconnect, hrefuses⟩))
            · rename_i hnot
              constructor
              · intro _ other hother hrefuses
                exact absurd hrefuses.2 hnot
              · exact fun _ => hfollow nd
          · rw [if_neg hconnect]
            constructor
            · intro _ other hother hrefuses
              rw [honly other hother] at hrefuses
              exact absurd hrefuses.1 hconnect
            · exact fun _ => trivial

/-- A node that has never been connected, and a document that stops after two fields. -/
def partialServer : Server :=
  (Server.boot .fresh).step (.writeFile "/root/peer.yaml"
    (.map [("colo", .map [("local_status", .scalar "primary"), ("host_ip", .scalar "10.0.0.1")])]))

theorem not_rollsBack_partial :
    ¬ RollsBack partialServer.node
      ((colodConnectPeer (.smooth 100) "/root/peer.yaml" partialServer.node).follow
        Node.osAfter []) := by
  intro h
  have hsame : partialServer.node.SameConnection _ := h (by decide)
  have hstatus := congrArg ColoStatus.localStatus hsame.currentStatus
  exact absurd hstatus (by decide)

end ColoManage
