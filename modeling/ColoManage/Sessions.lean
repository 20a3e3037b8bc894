import ColoManage.CrossedCalls
import ColoManage.RecordNames
import ColoManage.Library.Session

/-!
# What a request asks the peer for

A request has a session: the calls that its handler makes, in their order.  Only a start
in COLO mode makes two calls, the others make one or none.  In every run the calls that a
node sends keep to the sessions of the requests that it takes.
-/

namespace ColoManage

open Resumption EventSystem Delivery

/-! ## The sessions -/

/-- A call, as it arrives. -/
def Arrives (calls : Request → Prop) (request : Request) : Prop :=
  ∃ call, calls call ∧ request = call.wire

/-- The calls of a handler. -/
def Request.session : Request → List (Request → Prop)
  | .connectPeer _ => [Arrives fun call => ∃ cs, call = .peerSaveStatus cs]
  | .connectStatus => [Arrives (· = .connectReply)]
  | .start domainName true =>
      [Arrives (· = .peerStartDomain domainName true),
        Arrives fun call => ∃ role : ColoDomainStatus, (role = .primary ∨ role = .secondary) ∧
          call = .peerSendQmpcmds domainName role]
  | .destroy domainName => [Arrives (· = .peerDestroyDomain domainName)]
  | .coloEnable domainName =>
      [Arrives fun call => ∃ ds : ColodDomainStatus, (ds.name = domainName ∨ ds.name = "") ∧
        call = .peerSaveDomain ds]
  | .connectTest => [Arrives (· = .connectReply)]
  | _ => []

/-- The handler keeps to the session. -/
abbrev InSession (act : Colod) (session : List (Request → Prop)) : Prop :=
  act.Speaks (fun query : Query => query.request.wire) session

section

variable {env : Env} {nd : Node} {session : List (Request → Prop)}

theorem inSession_of_waits_eq_none {act : Colod} (h : Net.waits act = none) :
    InSession act session := by
  cases act with
  | done value state => trivial
  | crash state => trivial
  | await query state resume => cases h

theorem inSession_remoteCall {calls : Request → Prop} {request : Request}
    {k : ValueT → Node → Colod} (hcall : calls request)
    (hk : ∀ ret nd, InSession (k ret nd) session) :
    InSession (nd.remoteCall request k) (Arrives calls :: session) := by
  by_cases husable : nd.remoteClient.usable = true
  · rw [Node.remoteCall_of_usable husable]
    refine ⟨⟨request, hcall, rfl⟩, ?_⟩
    intro answer state
    cases answer with
    | none => exact hk _ _
    | some reply => exact hk _ _
  · rw [Node.remoteCall_of_not_usable (by simpa using husable)]
    trivial

theorem inSession_checkReply {failure : String} {ret : ValueT} {k : Node → Colod}
    (hk : InSession (k nd) session) : InSession (checkReply failure ret nd k) session := by
  unfold checkReply
  split
  · trivial
  · split
    · trivial
    · exact hk

theorem inSession_checkQmp {failure : String} {result : Except Node (ℤ × Node)} {k : Node → Colod}
    (hk : ∀ nd, InSession (k nd) session) : InSession (checkQmp failure result k) session := by
  unfold checkQmp
  split
  · trivial
  · split
    · trivial
    · exact hk _

/-! ## The handlers that call -/

theorem inSession_connectPeer (configFilePath : String) :
    InSession (colodConnectPeer env configFilePath nd)
      (Request.connectPeer configFilePath).session := by
  unfold colodConnectPeer
  split
  · trivial
  · split
    · trivial
    · trivial
    · split
      · trivial
      · refine inSession_remoteCall ⟨_, rfl⟩ fun ret nd => ?_
        split
        · trivial
        · split <;> trivial

theorem inSession_connectStatus :
    InSession (colodConnectStatus nd) (Request.connectStatus).session := by
  unfold colodConnectStatus
  split
  · refine inSession_remoteCall rfl fun ret nd => ?_
    split <;> trivial
  · trivial

theorem inSession_connectTest :
    InSession (peerColodConnectTest nd) (Request.connectTest).session := by
  unfold peerColodConnectTest
  split
  · refine inSession_remoteCall rfl fun ret nd => ?_
    split <;> trivial
  · trivial

/-- The second call of a start. -/
theorem inSession_startQmp (domainName : String) (curStatus : ColoDomainStatus) (d : Domain) :
    InSession (startQmp env domainName curStatus d nd)
      [Arrives fun call => ∃ role : ColoDomainStatus, (role = .primary ∨ role = .secondary) ∧
        call = .peerSendQmpcmds domainName role] := by
  cases curStatus with
  | primary =>
      exact inSession_remoteCall ⟨.secondary, .inr rfl, rfl⟩ fun ret nd =>
        inSession_checkReply (inSession_checkQmp fun _ => trivial)
  | secondary =>
      exact inSession_checkQmp fun nd =>
        inSession_remoteCall ⟨.primary, .inl rfl, rfl⟩ fun ret nd => inSession_checkReply trivial
  | _ => trivial

theorem inSession_startHost (domainName : String) (curStatus : ColoDomainStatus) (d : Domain) :
    InSession (startHost env domainName curStatus d nd)
      [Arrives fun call => ∃ role : ColoDomainStatus, (role = .primary ∨ role = .secondary) ∧
        call = .peerSendQmpcmds domainName role] := by
  unfold startHost
  dsimp only
  split
  · trivial
  · exact inSession_startQmp domainName curStatus d

theorem inSession_start (domainName : String) (colo : Bool) :
    InSession (colodStart env domainName colo nd) (Request.start domainName colo).session := by
  unfold colodStart
  dsimp only
  split
  · trivial
  · split
    · trivial
    · trivial
    · cases colo with
      | false => trivial
      | true =>
          rw [if_neg (by decide)]
          split
          · trivial
          · exact inSession_remoteCall rfl fun ret nd =>
              inSession_checkReply (inSession_startHost domainName _ _)

theorem inSession_destroy (domainName : String) :
    InSession (colodDestroy env domainName nd) (Request.destroy domainName).session := by
  unfold colodDestroy
  dsimp only
  split
  · trivial
  · split
    · exact inSession_of_waits_eq_none (waits_destroyHost domainName _)
    · exact inSession_remoteCall rfl fun ret nd =>
        inSession_checkReply (inSession_of_waits_eq_none (waits_destroyHost domainName _))
    · trivial

theorem inSession_enableAnswered (domainName : String) (ret : ValueT) :
    InSession (enableAnswered domainName ret nd) [] := by
  unfold enableAnswered
  dsimp only
  split
  · trivial
  · split
    · trivial
    · split <;> trivial

theorem domains_ensureRemoteClient {nd' : Node} (h : nd.ensureRemoteClient env = .ok nd') :
    nd'.domains = nd.domains := by
  rcases Node.ensureRemoteClient_cases env nd with hcase | ⟨-, hcase⟩ | ⟨-, hcase⟩
  · rw [hcase] at h
    cases h
  · rw [hcase] at h
    cases h
    rfl
  · rw [hcase] at h
    cases h
    rfl

theorem inSession_coloEnable (hnamed : nd.Named) (domainName : String) :
    InSession (colodColoEnable env domainName nd) (Request.coloEnable domainName).session := by
  rw [colodColoEnable_marked]
  split
  · trivial
  · split
    · trivial
    · rename_i nd' hensured
      have hname : (nd'.dom domainName).name = (nd.dom domainName).name := by
        rw [Node.dom_of_domains_eq (domains_ensureRemoteClient hensured), Node.marked,
          Node.dom_modDom_self]
      refine inSession_remoteCall ⟨_, ?_, rfl⟩ fun ret nd =>
        inSession_enableAnswered domainName ret
      rw [hname]
      exact hnamed domainName

/-! ## All handlers -/

theorem handle_inSession (env : Env) (req : Request) {nd : Node} (hnamed : nd.Named) :
    InSession (handle env req nd) req.session := by
  by_cases hlocal : req.isLocal = false
  · exact inSession_of_waits_eq_none (waits_of_not_local hlocal)
  · cases req with
    | connectPeer configFilePath => exact inSession_connectPeer configFilePath
    | connectStatus => exact inSession_connectStatus
    | define vmFilePath => exact inSession_of_waits_eq_none (waits_define vmFilePath)
    | undefine domainName => exact inSession_of_waits_eq_none (waits_undefine domainName)
    | list showAll => exact inSession_of_waits_eq_none (waits_list showAll)
    | start domainName colo => exact inSession_start domainName colo
    | destroy domainName => exact inSession_destroy domainName
    | coloEnable domainName => exact inSession_coloEnable hnamed domainName
    | coloDisable domainName => exact inSession_of_waits_eq_none (waits_coloDisable domainName)
    | vmStatus domainName => exact inSession_of_waits_eq_none (waits_vmStatus domainName)
    | setParams domainName property value =>
        exact inSession_of_waits_eq_none (waits_setParams domainName property value)
    | doFailover domainName => exact inSession_of_waits_eq_none (waits_doFailover domainName)
    | connectTest => exact inSession_connectTest
    | domainTest domainName => trivial
    | _ => exact absurd rfl hlocal

end

/-! ## The traces -/

/-- The calls of `x` among the notes. -/
def callsBy (x : NodeId) (notes : List (Note SentCall ColodRetVal)) : List (Request ⊕ Request) :=
  notes.filterMap fun note =>
    match note with
    | .sent (y, call) => if y = x then some (.inr call.request) else none
    | _ => none

/-- The requests that `x` takes of the tool, and the calls that it sends. -/
def Net.speech (x : NodeId) (net : Net) (event : NetEvent) : List (Request ⊕ Request) :=
  (match event with
    | .request y req _ =>
        if y = x && ((net.party y).idle && req.isLocal) then [.inl req] else []
    | _ => []) ++ callsBy x (net.shows event)

/-- The trace of `x` keeps to its sessions, and so will its handler. -/
structure Speaking (x : NodeId) (net : Net) (trace : List (Request ⊕ Request)) : Prop where
  spoken : ∃ rest, Spoken Request.session trace rest ∧
    ∀ w, (net.party x).waiting = some w → ∀ answer nd', InSession (w.resume answer nd') rest

section

variable {net net' : Net} {x : NodeId} {trace : List (Request ⊕ Request)}

theorem callsBy_sentBy_of_ne {y : NodeId} (hy : y ≠ x) (act : Colod) :
    callsBy x (net.sentBy y act) = [] := by
  unfold Net.sentBy
  split
  · split
    · simp [callsBy, hy]
    · rfl
  · rfl

/-- A handler of `x` goes on. -/
theorem speaking_settle {rest : List (Request → Prop)} (h : Spoken Request.session trace rest)
    {act : Colod} (hact : InSession act rest) :
    Speaking x (net.settle x act) (trace ++ callsBy x (net.sentBy x act)) := by
  have hwaiting := Net.waiting_settle x act net
  cases act with
  | done value nd =>
      refine ⟨rest, by simpa [Net.sentBy, callsBy] using h, ?_⟩
      intro w hw
      rw [hwaiting] at hw
      cases hw
  | crash nd =>
      refine ⟨rest, by simpa [Net.sentBy, callsBy] using h, ?_⟩
      intro w hw
      rw [hwaiting] at hw
      cases hw
  | await query nd resume =>
      cases rest with
      | nil => exact hact.elim
      | cons part rest =>
          obtain ⟨hpart, hresume⟩ := hact
          refine ⟨rest, ?_, ?_⟩
          · unfold Net.sentBy
            dsimp only
            split
            · simpa [callsBy] using h.said hpart
            · simpa [callsBy] using h.skipped
          · intro w hw
            rw [hwaiting] at hw
            cases hw
            exact hresume

theorem Speaking.same (h : Speaking x net trace)
    (hwaiting : ∀ w, (net'.party x).waiting = some w → (net.party x).waiting = some w) :
    Speaking x net' trace := by
  obtain ⟨rest, hspoken, hresume⟩ := h.spoken
  exact ⟨rest, hspoken, fun w hw => hresume w (hwaiting w hw)⟩

/-- A handler of the other node goes on. -/
theorem Speaking.settle_of_ne (h : Speaking x net trace) {y : NodeId} (hy : y ≠ x) (act : Colod) :
    Speaking x (net.settle y act) (trace ++ callsBy x (net.sentBy y act)) := by
  obtain rfl : x = y.other := (NodeId.eq_or_eq_other y x).resolve_left (Ne.symm hy)
  obtain ⟨calls, hparty, -⟩ := Net.party_settle_other y act net
  rw [callsBy_sentBy_of_ne hy, List.append_nil]
  exact h.same (by simp [hparty])

theorem speaking_request (hnamed : ∀ y, (net.party y).Named y) (h : Speaking x net trace)
    (y : NodeId) (req : Request) (env : Env) :
    Speaking x (net.step (.request y req env)) (trace ++ net.speech x (.request y req env)) := by
  unfold Net.step Net.speech Net.shows
  dsimp only
  cases htakes : (net.party y).idle && req.isLocal with
  | false => simpa [callsBy] using h
  | true =>
      by_cases hy : y = x
      · subst hy
        obtain ⟨rest, hspoken, -⟩ := h.spoken
        have hsettled : Speaking y (net.settle y (handle env req (net.party y).node)) _ :=
          speaking_settle (hspoken.begun req) (handle_inSession env req (hnamed y).node)
        simpa using hsettled
      · simpa [hy] using h.settle_of_ne hy (handle env req (net.party y).node)

/-- A handler that waits goes on with an answer. -/
theorem Speaking.resume (h : Speaking x net trace) {y : NodeId} {w : Waiting}
    (hw : (net.party y).waiting = some w) (hnet : net'.party x = net.party x ∨ y = x)
    (hnext : net'.nextCall = net.nextCall) (answer : Option ValueT) (nd : Node) :
    Speaking x (net'.settle y (w.resume answer nd))
      (trace ++ callsBy x (net.sentBy y (w.resume answer nd))) := by
  have hsent : net.sentBy y (w.resume answer nd) = net'.sentBy y (w.resume answer nd) := by
    unfold Net.sentBy
    rw [hnext]
  rw [hsent]
  by_cases hy : y = x
  · subst hy
    obtain ⟨rest, hspoken, hresume⟩ := h.spoken
    exact speaking_settle hspoken (hresume w hw answer nd)
  · have hparty := hnet.resolve_right hy
    exact Speaking.settle_of_ne (h.same (by simp [hparty])) hy _

theorem waiting_of_modify {y : NodeId} {f : Party → Party}
    (hf : ∀ p w, (f p).waiting = some w → p.waiting = some w) {w : Waiting}
    (hw : ((net.modify y f).party x).waiting = some w) : (net.party x).waiting = some w := by
  rw [Net.party_modify] at hw
  split at hw
  · exact hf _ w hw
  · exact hw

/-- An event in which `x` says nothing and no handler of it comes to wait. -/
theorem Speaking.quiet (h : Speaking x net trace) {event : NetEvent}
    (hquiet : net.speech x event = [])
    (hwaiting : ∀ w, ((net.step event).party x).waiting = some w →
      (net.party x).waiting = some w) :
    Speaking x (net.step event) (trace ++ net.speech x event) := by
  rw [hquiet, List.append_nil]
  exact h.same hwaiting

theorem speaking_execute (h : Speaking x net trace) (y : NodeId) (i : ℕ) (env : Env) :
    Speaking x (net.step (.execute y i env)) (trace ++ net.speech x (.execute y i env)) := by
  refine h.quiet ?_ ?_
  · unfold Net.speech Net.shows
    dsimp only
    split
    · rfl
    · split <;> rfl
  · intro w
    unfold Net.step
    dsimp only
    split
    · exact id
    · split
      · unfold Net.answer
        split
        · intro hw
          refine waiting_of_modify ?_ (waiting_of_modify ?_ (waiting_of_modify ?_ hw))
          all_goals exact fun _ _ hw => hw
        · intro hw
          refine waiting_of_modify ?_ (waiting_of_modify ?_ hw)
          all_goals exact fun _ _ hw => hw
      · exact id

theorem speaking_reply (h : Speaking x net trace) (y : NodeId) (i : ℕ) :
    Speaking x (net.step (.reply y i)) (trace ++ net.speech x (.reply y i)) := by
  unfold Net.step Net.speech Net.shows
  dsimp only
  cases hw : (net.party y).waiting with
  | none => simpa [callsBy] using h
  | some w =>
      cases hreply : (net.party y).replies[i]? with
      | none => simpa [callsBy] using h
      | some reply =>
          dsimp only
          split
          · have hnode : ((net.modify y fun p =>
                { p with replies := p.replies.eraseIdx i }).party y).node =
                  (net.party y).node := by simp
            rw [Net.take, hnode]
            have herased : Speaking x { net.modify y (fun p =>
                { p with replies := p.replies.eraseIdx i }) with
                taken := net.taken ++
                  [⟨w.query, reply.call.request, reply.ret, reply.ret.wire⟩] } trace :=
              h.same fun w hw => waiting_of_modify
                (f := fun p => { p with replies := p.replies.eraseIdx i }) (fun _ _ hw => hw) hw
            exact herased.resume (by simpa using hw) (.inl rfl) rfl _ _
          · simpa [callsBy] using h

theorem speaking_step (hnamed : ∀ y, (net.party y).Named y) (h : Speaking x net trace)
    (event : NetEvent) :
    Speaking x (net.step event) (trace ++ net.speech x event) := by
  cases event with
  | request y req env => exact speaking_request hnamed h y req env
  | execute y i env => exact speaking_execute h y i env
  | reply y i => exact speaking_reply h y i
  | timeout y =>
      unfold Net.step Net.speech Net.shows
      dsimp only
      cases hw : (net.party y).waiting with
      | none => simpa [callsBy] using h
      | some w => exact h.resume hw (.inl rfl) rfl none (net.party y).node
  | dropCall y i =>
      refine h.quiet rfl fun w hw => ?_
      unfold Net.step at hw
      exact waiting_of_modify (by exact fun _ _ hw => hw) hw
  | dropReply y i =>
      refine h.quiet rfl fun w hw => ?_
      unfold Net.step at hw
      exact waiting_of_modify (by exact fun _ _ hw => hw) hw
  | restart y =>
      refine h.quiet rfl fun w hw => ?_
      unfold Net.step at hw
      exact waiting_of_modify (by simp) hw
  | os y event =>
      refine h.quiet rfl fun w hw => ?_
      unfold Net.step at hw
      exact waiting_of_modify (by exact fun _ _ hw => hw) hw
  | writeFile y path doc =>
      refine h.quiet rfl fun w hw => ?_
      unfold Net.step at hw
      dsimp only at hw
      split at hw
      · exact hw
      · exact waiting_of_modify (by exact fun _ _ hw => hw) hw

end

theorem spoken_seen (nd : NodeId → Node) (events : List NetEvent) (x : NodeId) :
    ∃ rest, Spoken Request.session (seen Net.step (Net.speech x) (Net.boot nd) events) rest := by
  have hinit : (∀ y, ((Net.boot nd).party y).Named y) ∧ Speaking x (Net.boot nd) [] :=
    ⟨named_boot nd, [], .nil, by simp [Net.boot]⟩
  have hrun : (∀ y, ((events.foldl Net.step (Net.boot nd)).party y).Named y) ∧
      Speaking x (events.foldl Net.step (Net.boot nd))
        ([] ++ seen Net.step (Net.speech x) (Net.boot nd) events) :=
    inv_seen (J := fun net trace => (∀ y, (net.party y).Named y) ∧ Speaking x net trace)
      (fun _ event _ h => ⟨named_step h.1 event, speaking_step h.1 h.2 event⟩) hinit events
  obtain ⟨rest, hspoken, -⟩ := hrun.2.spoken
  exact ⟨rest, hspoken⟩

theorem length_session_le (req : Request) : req.session.length ≤ 2 := by
  cases req with
  | start domainName colo => cases colo <;> simp [Request.session]
  | _ => simp [Request.session]

/-- In every run the calls that a node sends, with the requests between them, keep to the
sessions: each request is followed by its own calls, in their order and at most once, and
these are at most two. -/
theorem spoken_run (nd : NodeId → Node) (events : List NetEvent) (x : NodeId) :
    (∃ rest, Spoken Request.session
      (seen Net.step (Net.speech x) (Net.boot nd) events) rest) ∧
    (messages (seen Net.step (Net.speech x) (Net.boot nd) events)).length ≤
      2 * (begins (seen Net.step (Net.speech x) (Net.boot nd) events)).length := by
  have hspoken := spoken_seen nd events x
  exact ⟨hspoken, hspoken.elim fun _ h => length_messages_le_mul length_session_le h⟩

end ColoManage
