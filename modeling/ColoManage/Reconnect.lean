import ColoManage.ConnectPeer
import ColoManage.Pair

/-!
# Reconnecting after time-outs

`as_client` replaces the socket of the client and nothing else.  `net_call`
leaves its request out while the error code of the client says that the last
call timed out; on the new socket there is then no request to wait for.  So a
reconnection works exactly when it does not follow a time-out.
-/

namespace ColoManage

open Resumption EventSystem

/-! ## The property -/

/-- The next `remote_client.call` puts its request on the wire and waits for
the answer, which it hands to the handler. -/
def Node.CallsOut (nd : Node) : Prop :=
  ∀ request k, ∃ nd', nd.remoteCall request k = .await ⟨request, true⟩ nd' (Node.received k)

theorem Node.callsOut_iff {nd : Node} :
    nd.CallsOut ↔ nd.remoteClient.usable = true ∧ nd.remoteClient.sends = true := by
  constructor
  · intro h
    obtain ⟨nd', heq⟩ := h .connectReply fun _ nd' => .crash nd'
    by_cases husable : nd.remoteClient.usable = true
    · rw [Node.remoteCall_of_usable husable] at heq
      simp only [Act.await.injEq, Query.mk.injEq] at heq
      exact ⟨husable, heq.1.2⟩
    · rw [Node.remoteCall_of_not_usable (by simpa using husable)] at heq
      simp at heq
  · rintro ⟨husable, hsends⟩ request k
    exact ⟨_, by rw [Node.remoteCall_of_usable husable, hsends]⟩

/-- What connect-peer returns for the answer of the peer. -/
def connectResult (reply : ValueT) : ColodRetVal :=
  if reply.code ≠ .success then ⟨-1, "connect to peer colod timeout."⟩
  else if reply.val.code < 0 then ⟨-1, reply.val.msg⟩
  else ⟨0, "connect peer success."⟩

/-- The handler waits for the answer to a request that is on the wire, and
returns what the answer says. -/
def ReturnsAnswer (act : Colod) : Prop :=
  ∃ request nd resume, act = .await ⟨request, true⟩ nd resume ∧
    ∀ reply nd', ∃ nd'', resume (some reply) nd' = .done (connectResult reply) nd''

/-- The request gets to the end of `set_remote_client`: a complete document, or
the status of a peer that the node has no client for. -/
def Renews (env : Env) (nd : Node) : Request → Prop
  | .connectPeer configFilePath => ∃ config peerIp,
      nd.loadFile configFilePath = some config ∧ (documentFields config).2 = none ∧
        (.peerIp, peerIp) ∈ (documentFields config).1 ∧ env.connect peerIp = true
  | .peerSaveStatus cs => nd.remoteClientInit = false ∧ env.connect cs.hostIp = true
  | _ => False

/-- The first call on a client that the request has renewed works: for
connect-peer its own, for peer-save-status that of any later handler. -/
def FreshStart (env : Env) (nd : Node) (req : Request) : Prop :=
  Renews env nd req →
    match req with
    | .connectPeer configFilePath => ReturnsAnswer (colodConnectPeer env configFilePath nd)
    | .peerSaveStatus cs => ∃ ret nd', peerColodSaveStatus env cs nd = .done ret nd' ∧ nd'.CallsOut
    | _ => True

/-! ## The two requests -/

theorem connectAnswered_eq (reply : ValueT) (nd : Node) :
    ∃ nd', connectAnswered reply nd = .done (connectResult reply) nd' := by
  unfold connectAnswered connectResult
  split
  · exact ⟨nd, rfl⟩
  · split
    · exact ⟨nd, rfl⟩
    · exact ⟨_, rfl⟩

theorem returnsAnswer_iff {nd : Node} {request : Request} :
    ReturnsAnswer (nd.remoteCall request connectAnswered) ↔
      nd.remoteClient.usable = true ∧ nd.remoteClient.sends = true := by
  by_cases husable : nd.remoteClient.usable = true
  · rw [Node.remoteCall_of_usable husable]
    constructor
    · rintro ⟨sent, nd', resume, heq, -⟩
      simp only [Act.await.injEq, Query.mk.injEq] at heq
      exact ⟨husable, heq.1.2⟩
    · rintro ⟨-, hsends⟩
      rw [hsends]
      exact ⟨request, _, _, rfl, fun reply nd' => connectAnswered_eq reply _⟩
  · rw [Node.remoteCall_of_not_usable (by simpa using husable)]
    constructor
    · rintro ⟨sent, nd', resume, heq, -⟩
      simp at heq
    · exact fun h => absurd h.1 husable

theorem colodConnectPeer_of_renews {env : Env} {configFilePath : String} {nd : Node}
    (h : Renews env nd (.connectPeer configFilePath)) :
    ∃ config, colodConnectPeer env configFilePath nd =
      (nd.connecting config).remoteCall
        (.peerSaveStatus (nd.configured config).currentStatus) connectAnswered := by
  obtain ⟨config, peerIp, hload, hstop, hmem, hconnect⟩ := h
  refine ⟨config, ?_⟩
  rw [colodConnectPeer_eq, hload]
  dsimp only
  rw [hstop]
  dsimp only
  rw [configured_peerIp hmem, if_pos hconnect]

theorem peerColodSaveStatus_of_renews {env : Env} {cs : ColoStatus} {nd : Node}
    (h : Renews env nd (.peerSaveStatus cs)) :
    ∃ ret nd', peerColodSaveStatus env cs nd = .done ret nd' ∧
      nd'.remoteClient = (nd.withSocket cs.hostIp).remoteClient := by
  obtain ⟨hinit, hconnect⟩ := h
  have hclient : (nd.setStatus (mirrorStatus cs)).ensureRemoteClient env =
      .ok ((nd.setStatus (mirrorStatus cs)).withSocket cs.hostIp) := by
    simp [Node.ensureRemoteClient, Node.setRemoteClient, Node.setStatus, mirrorStatus, hinit,
      hconnect]
  unfold peerColodSaveStatus
  dsimp only
  rw [hclient]
  exact ⟨_, _, rfl, rfl⟩

/-- A renewed client works exactly when the error code does not remember a
time-out. -/
theorem freshStart_iff (env : Env) (nd : Node) (req : Request) :
    FreshStart env nd req ↔ (Renews env nd req → nd.remoteClient.errorCode ≠ .recvTimeout) := by
  have hsends : nd.remoteClient.sends = true ↔ nd.remoteClient.errorCode ≠ .recvTimeout := by
    simp [Buttonrpc.sends]
  apply forall_congr'
  intro hrenews
  rw [← hsends]
  cases req with
  | connectPeer configFilePath =>
      obtain ⟨config, heq⟩ := colodConnectPeer_of_renews hrenews
      dsimp only
      rw [heq, returnsAnswer_iff, usable_connecting]
      exact and_self_iff
  | peerSaveStatus cs =>
      obtain ⟨ret, nd', heq, hclient⟩ := peerColodSaveStatus_of_renews hrenews
      constructor
      · rintro ⟨ret', nd'', heq', hout⟩
        rw [heq, Act.done.injEq] at heq'
        obtain ⟨-, rfl⟩ := heq'
        rw [Node.callsOut_iff, hclient] at hout
        exact hout.2
      · intro h
        refine ⟨ret, nd', heq, Node.callsOut_iff.mpr ?_⟩
        rw [hclient]
        exact ⟨(usable_withSocket cs.hostIp nd).trans h, h⟩
  | _ => exact absurd hrenews id

/-! ## Runs -/

def EventFresh (server : Server) : ServerEvent → Prop
  | .request req env _ => server.up = true → FreshStart env server.node req
  | _ => True

/-- When the request renews the client, the last call of this colod that came to
its end did not time out. -/
def EventClear (server : Server) : ServerEvent → Prop
  | .request req env _ => server.up = true →
      Renews env server.node req → server.node.remoteClient.errorCode ≠ .recvTimeout
  | _ => True

/-- In a run every reconnection works exactly when none follows a time-out. -/
theorem along_eventFresh_iff (server : Server) (events : List ServerEvent) :
    Along Server.step EventFresh server events ↔ Along Server.step EventClear server events := by
  apply along_congr
  intro server event
  cases event with
  | request req env script => exact forall_congr' fun _ => freshStart_iff env server.node req
  | _ => exact Iff.rfl

/-- A connect-peer that times out, and another one. -/
def timedOutRun : List ServerEvent :=
  [.writeFile "/root/peer.yaml" (connectDocument "primary" "10.0.0.1" "10.0.0.2"),
    .request (.connectPeer "/root/peer.yaml") (.smooth 100) [([], none)],
    .request (.connectPeer "/root/peer.yaml") (.smooth 100) [([], some (.answer ⟨0, ""⟩))]]

theorem not_along_eventFresh_timedOut :
    ¬ Along Server.step EventFresh (Server.boot .fresh) timedOutRun := by
  rintro ⟨-, -, h, -⟩
  have hclear := (freshStart_iff _ _ _).mp (h (by decide))
  exact hclear ⟨_, "10.0.0.2", rfl, rfl, by decide, rfl⟩ (by decide)

end ColoManage
