import ColoManage.Server
import ColoManage.Steps

/-!
# A handler and the peer it calls

One node runs a handler, the other answers its calls.  Each call is executed by
the handlers of the peer on what arrives over the wire, or is lost and times
out.  A call that `net_call` does not send is not executed.  In `runPair` it times
out, too; that a reply to an earlier call comes late is left to `serveAttempt`.

`trace` lists the effects of both nodes in the order in which they happen.
-/

namespace ColoManage

open Resumption

inductive Side
  | caller
  | peer
  deriving DecidableEq, Repr

/-- What becomes of a call: the peer executes it under `env`, or it is lost. -/
inductive CallOutcome
  | executed (env : Env)
  | lost

/-- The peer, the fate of the calls to come, and the trace so far; `seen` counts
the entries of the caller's log that are in the trace. -/
structure Peer where
  node : Node
  plan : List CallOutcome
  seen : ℕ
  trace : List (Side × Effect)

/-- A handler that the peer runs to its end.  Were it to call back, it would
wait for the node that is waiting for it. -/
def runPeer (env : Env) (req : Request) (nd : Node) : Outcome Node ColodRetVal :=
  (handle env req nd).follow Node.osAfter []

def sideEffects (side : Side) (effects : List Effect) : List (Side × Effect) :=
  effects.map fun effect => (side, effect)

def Peer.advance (w : Peer) (nd nd' : Node) : Peer where
  node := nd'
  plan := w.plan.tail
  seen := nd.log.length
  trace := w.trace ++ sideEffects .caller (nd.log.drop w.seen) ++
    sideEffects .peer (nd'.log.drop w.node.log.length)

def peerServe (query : Query) (nd : Node) (w : Peer) : Option ValueT × Node × Peer :=
  match query.sent, w.plan with
  | true, .executed env :: _ =>
      match runPeer env query.request.wire w.node with
      | .returned ret nd' => (some (.answer ret), nd, w.advance nd nd')
      | .crashed nd' => (none, nd, w.advance nd nd')
  | _, _ => (none, nd, w.advance nd w.node)

def nextEnv : List CallOutcome → Option Env
  | .executed env :: _ => some env
  | _ => none

def Peer.executes (w : Peer) (client : Buttonrpc) : Option Env :=
  if client.sends then nextEnv w.plan else none

theorem executes_eq_some {w : Peer} {client : Buttonrpc} {env : Env}
    (h : w.executes client = some env) :
    client.sends = true ∧ ∃ rest, w.plan = .executed env :: rest := by
  unfold Peer.executes at h
  cases hsends : client.sends with
  | false => simp [hsends] at h
  | true =>
      cases hplan : w.plan with
      | nil => simp [hsends, hplan, nextEnv] at h
      | cons outcome rest =>
          cases outcome with
          | lost => simp [hsends, hplan, nextEnv] at h
          | executed found =>
              simp only [hsends, hplan, nextEnv, if_true, Option.some.injEq] at h
              exact ⟨rfl, rest, by rw [h]⟩

theorem peerServe_of_executes {w : Peer} {client : Buttonrpc} {env : Env}
    (h : w.executes client = some env) (request : Request) (nd : Node) :
    peerServe ⟨request, client.sends⟩ nd w =
      match runPeer env request.wire w.node with
      | .returned ret nd' => (some (.answer ret), nd, w.advance nd nd')
      | .crashed nd' => (none, nd, w.advance nd nd') := by
  obtain ⟨hsends, rest, hplan⟩ := executes_eq_some h
  rw [hsends, peerServe, hplan]

theorem peerServe_of_not_executes {w : Peer} {client : Buttonrpc}
    (h : w.executes client = none) (request : Request) (nd : Node) :
    peerServe ⟨request, client.sends⟩ nd w = (none, nd, w.advance nd w.node) := by
  unfold Peer.executes at h
  cases hsends : client.sends with
  | false => rfl
  | true =>
      cases hplan : w.plan with
      | nil => rw [peerServe, hplan]
      | cons outcome rest =>
          cases outcome with
          | lost => rw [peerServe, hplan]
          | executed env => simp [hsends, hplan, nextEnv] at h

def runPair (act : Colod) (w : Peer) : Outcome Node ColodRetVal × Peer :=
  act.exec peerServe w

/-- A caller that returns has had the call executed and answered, or timed out. -/
theorem remoteCall_cases {request : Request} {k : ValueT → Node → Colod} {nd nd' : Node}
    {w w' : Peer} {ret : ColodRetVal}
    (hrun : runPair (nd.remoteCall request k) w = (.returned ret nd', w')) :
    (∃ nd₁ w₁, runPair (k .timeout nd₁) w₁ = (.returned ret nd', w')) ∨
      ∃ env answer w₁, runPeer env request.wire w.node = .returned answer w₁.node ∧
        runPair (k (.answer answer) (nd.called request).replied) w₁ = (.returned ret nd', w') := by
  unfold runPair at hrun
  by_cases husable : nd.remoteClient.usable = true
  · rw [exec_of_usable husable] at hrun
    cases hexecutes : w.executes nd.remoteClient with
    | none =>
        rw [peerServe_of_not_executes hexecutes] at hrun
        exact .inl ⟨_, _, hrun⟩
    | some env =>
        rw [peerServe_of_executes hexecutes] at hrun
        cases hpeer : runPeer env request.wire w.node with
        | crashed peer =>
            rw [hpeer] at hrun
            exact .inl ⟨_, _, hrun⟩
        | returned answer peer =>
            rw [hpeer] at hrun
            exact .inr ⟨env, answer, w.advance (nd.called request) peer, hpeer, hrun⟩
  · rw [exec_of_not_usable (by simpa using husable)] at hrun
    cases hrun

/-- What becomes of a call that is sent. -/
inductive Fate
  | answered (env : Env)
  | replyLost (env : Env)
  | lost

/-- The peer executes the call, or not; a call that is not sent is ended by `late`, the
reply to an earlier one, or times out. -/
def serveAttempt (fate : Fate) (late : Option ColodRetVal) (meanwhile : List OsEvent)
    (query : Query) (nd peer : Node) : Option ValueT × Node × Node :=
  if query.sent then
    match fate with
    | .answered env =>
        match runPeer env query.request.wire peer with
        | .returned ret peer => (some (.answer ret), nd.osAfter meanwhile, peer)
        | .crashed peer => (none, nd.osAfter meanwhile, peer)
    | .replyLost env =>
        (none, nd.osAfter meanwhile, (runPeer env query.request.wire peer).state)
    | .lost => (none, nd.osAfter meanwhile, peer)
  else (late.map .answer, nd.osAfter meanwhile, peer)

/-- A caller that returns has had the call executed and answered, has taken a late reply
instead, or has timed out. -/
theorem attempt_cases {fate : Fate} {late : Option ColodRetVal} {meanwhile : List OsEvent}
    {request : Request} {k : ValueT → Node → Colod} {nd nd' peer peer' : Node}
    {ret : ColodRetVal}
    (hrun : (nd.remoteCall request k).exec (serveAttempt fate late meanwhile) peer =
      (.returned ret nd', peer')) :
    (∃ nd₁ peer₁, (k .timeout nd₁).exec (serveAttempt fate late meanwhile) peer₁ =
        (.returned ret nd', peer')) ∨
      (nd.remoteClient.sends = true ∧ ∃ env answer nd₁ peer₁,
        runPeer env request.wire peer = .returned answer peer₁ ∧
          (k (.answer answer) nd₁).exec (serveAttempt fate late meanwhile) peer₁ =
            (.returned ret nd', peer')) ∨
      (nd.remoteClient.sends = false ∧ ∃ answer nd₁,
        (k (.answer answer) nd₁).exec (serveAttempt fate late meanwhile) peer =
          (.returned ret nd', peer')) := by
  by_cases husable : nd.remoteClient.usable = true
  · rw [exec_of_usable husable] at hrun
    unfold serveAttempt at hrun
    cases hsends : nd.remoteClient.sends with
    | false =>
        simp only [hsends, Bool.false_eq_true, if_false] at hrun
        cases late with
        | none => exact .inl ⟨_, _, hrun⟩
        | some answer => exact .inr (.inr ⟨rfl, answer, _, hrun⟩)
    | true =>
        simp only [hsends, if_true] at hrun
        cases fate with
        | lost => exact .inl ⟨_, _, hrun⟩
        | replyLost env => exact .inl ⟨_, _, hrun⟩
        | answered env =>
            cases hpeer : runPeer env request.wire peer with
            | crashed peer₁ =>
                simp only [hpeer] at hrun
                exact .inl ⟨_, _, hrun⟩
            | returned answer peer₁ =>
                simp only [hpeer] at hrun
                exact .inr (.inl ⟨rfl, env, answer, _, peer₁, hpeer, hrun⟩)
  · rw [exec_of_not_usable (by simpa using husable)] at hrun
    cases hrun

def Peer.finish (w : Peer) (nd : Node) : List (Side × Effect) :=
  w.trace ++ sideEffects .caller (nd.log.drop w.seen)

theorem finish_append {w : Peer} {nd nd' : Node} {more : List Effect}
    (hlog : nd'.log = nd.log ++ more) (hseen : w.seen ≤ nd.log.length) :
    w.finish nd' = w.finish nd ++ sideEffects .caller more := by
  simp [Peer.finish, hlog, List.drop_append_of_le_length hseen, sideEffects]

theorem finish_advance (w : Peer) {nd nd' peer : Node} {more : List Effect}
    (hlog : nd'.log = nd.log ++ more) :
    (w.advance nd peer).finish nd' = w.finish nd ++
      sideEffects .peer (peer.log.drop w.node.log.length) ++ sideEffects .caller more := by
  simp [Peer.finish, Peer.advance, hlog]

/-! ## Two connected nodes -/

def connectDocument (localStatus hostIp peerIp : String) : Yaml.Node :=
  .map [("colo", .map [("local_status", .scalar localStatus), ("host_ip", .scalar hostIp),
    ("host_user", .scalar "root"), ("host_file_path", .scalar "/vm/"),
    ("peer_ip", .scalar peerIp), ("peer_user", .scalar "root"),
    ("peer_file_path", .scalar "/vm/")])]

/-- The node with the domain `d`, connected to its peer in a role. -/
def callerNode (localStatus : ColoNodeStatus) : Node :=
  { definedNode with
    currentStatus :=
      ⟨localStatus, colodPort, "10.0.0.1", "root", "/vm/", "10.0.0.2", "root", "/vm/"⟩
    remoteClient := ⟨some ⟨0, "10.0.0.2", false⟩, .success⟩
    remoteClientInit := true
    peerInit := true
    nextSocket := 1 }

def peerNode (localStatus : ColoNodeStatus) : Node :=
  { Node.fresh with
    currentStatus := mirrorStatus (callerNode localStatus).currentStatus
    remoteClient := ⟨some ⟨0, "10.0.0.1", false⟩, .success⟩
    peerInit := true
    nextSocket := 1 }

/-- An enable of `d` on the two, with the definition on both machines. -/
def enabledPair (localStatus : ColoNodeStatus) : Outcome Node ColodRetVal × Peer :=
  runPair (colodColoEnable (.smooth 100) "d" (callerNode localStatus))
    ⟨{ peerNode localStatus with files := definedNode.files }, [.executed (.smooth 100)], 0, []⟩

def enabledCaller (localStatus : ColoNodeStatus) : Node := (enabledPair localStatus).1.state

def enabledPeer (localStatus : ColoNodeStatus) (plan : List CallOutcome) : Peer where
  node := (enabledPair localStatus).2.node
  plan := plan
  seen := (enabledCaller localStatus).log.length
  trace := []

end ColoManage
