import ColoManage.Pair

/-!
# Two nodes and the messages between them

Two colods whose clients point at each other.  Requests and replies are in
flight until the network delivers or drops them, in any order; a handler that
waits may time out before the reply to its call is there, and the call may be
executed long after that.  While a handler waits its colod takes no request.

A REQ socket hands to `recv` the reply to the request it last sent, and no
other.  `taken` notes each reply that a handler has taken, with the call the
peer had executed for it.
-/

namespace ColoManage

open Resumption

inductive NodeId
  | a
  | b
  deriving DecidableEq, Repr

def NodeId.other : NodeId → NodeId
  | .a => .b
  | .b => .a

theorem NodeId.other_ne (x : NodeId) : x.other ≠ x := by cases x <;> decide

theorem NodeId.ne_other (x : NodeId) : x ≠ x.other := by cases x <;> decide

@[simp] theorem NodeId.other_other (x : NodeId) : x.other.other = x := by cases x <;> rfl

theorem NodeId.eq_or_eq_other (x y : NodeId) : y = x ∨ y = x.other := by
  cases x <;> cases y <;> simp [other]

structure Call where
  id : ℕ
  request : Request
  deriving DecidableEq, Repr

structure Reply where
  call : Call
  ret : ColodRetVal
  deriving DecidableEq, Repr

/-- A handler in `recv`. -/
structure Waiting where
  query : Query
  resume : Option ValueT → Node → Colod

/-- A node, what is on its way to it, and the call its client sent last: the
socket and the number of the call. -/
structure Party where
  node : Node
  up : Bool
  waiting : Option Waiting
  lastSent : Option (ℕ × ℕ)
  inbox : List Call
  replies : List Reply

/-- A reply that a handler has taken: the query of the handler, the call the
peer had executed, what that call returned, and the value the handler got. -/
structure Taken where
  query : Query
  executed : Request
  ret : ColodRetVal
  val : ColodRetVal
  deriving DecidableEq, Repr

structure Net where
  party : NodeId → Party
  nextCall : ℕ
  taken : List Taken

inductive NetEvent
  | request (x : NodeId) (req : Request) (env : Env)
  | execute (x : NodeId) (i : ℕ) (env : Env)
  | dropCall (x : NodeId) (i : ℕ)
  | dropReply (x : NodeId) (i : ℕ)
  | reply (x : NodeId) (i : ℕ)
  | timeout (x : NodeId)
  | restart (x : NodeId)
  | os (x : NodeId) (event : OsEvent)
  | writeFile (x : NodeId) (path : String) (doc : Yaml.Node)

def Party.idle (p : Party) : Bool := p.up && p.waiting.isNone

theorem Party.idle_iff {p : Party} : p.idle = true ↔ p.up = true ∧ p.waiting = none := by
  simp [Party.idle]

/-- The socket gives this reply to `recv`. -/
def Party.receives (p : Party) (reply : Reply) : Bool :=
  match p.lastSent, p.node.remoteClient.socket with
  | some (socketId, callId), some socket => socketId == socket.id && callId == reply.call.id
  | _, _ => false

namespace Net

def modify (x : NodeId) (f : Party → Party) (net : Net) : Net :=
  { net with party := fun y => if y = x then f (net.party y) else net.party y }

@[simp] theorem party_modify (x y : NodeId) (f : Party → Party) (net : Net) :
    (net.modify x f).party y = if y = x then f (net.party y) else net.party y := rfl

@[simp] theorem nextCall_modify (x : NodeId) (f : Party → Party) (net : Net) :
    (net.modify x f).nextCall = net.nextCall := rfl

@[simp] theorem taken_modify (x : NodeId) (f : Party → Party) (net : Net) :
    (net.modify x f).taken = net.taken := rfl

def send (x : NodeId) (socketId : ℕ) (request : Request) (net : Net) : Net :=
  let net := net.modify x fun p => { p with lastSent := some (socketId, net.nextCall) }
  let net := net.modify x.other fun p =>
    { p with inbox := p.inbox ++ [⟨net.nextCall, request.wire⟩] }
  { net with nextCall := net.nextCall + 1 }

@[simp] theorem party_send_self (x : NodeId) (socketId : ℕ) (request : Request) (net : Net) :
    (net.send x socketId request).party x =
      { net.party x with lastSent := some (socketId, net.nextCall) } := by
  simp [send, NodeId.ne_other]

@[simp] theorem party_send_other (x : NodeId) (socketId : ℕ) (request : Request) (net : Net) :
    (net.send x socketId request).party x.other =
      { net.party x.other with
        inbox := (net.party x.other).inbox ++ [⟨net.nextCall, request.wire⟩] } := by
  simp [send, NodeId.other_ne]

@[simp] theorem nextCall_send (x : NodeId) (socketId : ℕ) (request : Request) (net : Net) :
    (net.send x socketId request).nextCall = net.nextCall + 1 := rfl

@[simp] theorem taken_send (x : NodeId) (socketId : ℕ) (request : Request) (net : Net) :
    (net.send x socketId request).taken = net.taken := rfl

def settle (x : NodeId) (act : Colod) (net : Net) : Net :=
  match act with
  | .done _ nd => net.modify x fun p => { p with node := nd, waiting := none }
  | .crash nd => net.modify x fun p => { p with node := nd, up := false, waiting := none }
  | .await query nd resume =>
      let net := net.modify x fun p => { p with node := nd, waiting := some ⟨query, resume⟩ }
      match query.sent, nd.remoteClient.socket with
      | true, some socket => net.send x socket.id query.request
      | _, _ => net

def answer (x : NodeId) (call : Call) (env : Env) (net : Net) : Net :=
  match runPeer env call.request (net.party x).node with
  | .returned ret nd =>
      (net.modify x fun p => { p with node := nd }).modify x.other fun p =>
        { p with replies := p.replies ++ [⟨call, ret⟩] }
  | .crashed nd => net.modify x fun p => { p with node := nd, up := false }

def take (x : NodeId) (w : Waiting) (reply : Reply) (net : Net) : Net :=
  let taken : Taken := ⟨w.query, reply.call.request, reply.ret, reply.ret.wire⟩
  { net with taken := net.taken ++ [taken] }.settle x
    (w.resume (some (.answer reply.ret)) (net.party x).node)

def step (net : Net) : NetEvent → Net
  | .request x req env =>
      if (net.party x).idle && req.isLocal then
        net.settle x (handle env req (net.party x).node)
      else net
  | .execute x i env =>
      match (net.party x).inbox[i]? with
      | none => net
      | some call =>
          if (net.party x).idle then
            (net.modify x fun p => { p with inbox := p.inbox.eraseIdx i }).answer x call env
          else net
  | .dropCall x i => net.modify x fun p => { p with inbox := p.inbox.eraseIdx i }
  | .dropReply x i => net.modify x fun p => { p with replies := p.replies.eraseIdx i }
  | .reply x i =>
      match (net.party x).waiting, (net.party x).replies[i]? with
      | some w, some reply =>
          if (net.party x).receives reply then
            (net.modify x fun p => { p with replies := p.replies.eraseIdx i }).take x w reply
          else net
      | _, _ => net
  | .timeout x =>
      match (net.party x).waiting with
      | some w => net.settle x (w.resume none (net.party x).node)
      | none => net
  | .restart x =>
      net.modify x fun p => { p with node := p.node.rsInit, up := true, waiting := none }
  | .os x event => net.modify x fun p => { p with node := p.node.osAfter [event] }
  | .writeFile x path doc =>
      if path = defaultSaveFile then net
      else net.modify x fun p => { p with node := p.node.writeFile path doc }

def boot (nd : NodeId → Node) : Net where
  party := fun x => ⟨(nd x).rsInit, true, none, none, [], []⟩
  nextCall := 0
  taken := []

/-- The request that a node takes in this event, of its own or of the peer. -/
def handled (net : Net) : NetEvent → Option (NodeId × Request)
  | .request x req _ =>
      if (net.party x).idle && req.isLocal then some (x, req) else none
  | .execute x i _ =>
      if (net.party x).idle then
        (net.party x).inbox[i]?.map fun call => (x, call.request)
      else none
  | _ => none

/-! ## What a handler leaves in the net -/

section

variable (x : NodeId) (act : Colod) (net : Net)

def waits : Colod → Option Waiting
  | .await query _ resume => some ⟨query, resume⟩
  | _ => none

theorem node_settle : ((net.settle x act).party x).node = (act.follow Node.osAfter []).state := by
  unfold settle
  cases act with
  | done value nd => simp [Act.follow, Outcome.state]
  | crash nd => simp [Act.follow, Outcome.state]
  | await query nd resume =>
      dsimp only
      split <;> simp [Act.follow, Outcome.state]

theorem waiting_settle : ((net.settle x act).party x).waiting = waits act := by
  unfold settle
  cases act with
  | done value nd => simp [waits]
  | crash nd => simp [waits]
  | await query nd resume =>
      dsimp only
      split <;> simp [waits]

/-- The other node only gets the call, if there is one. -/
theorem party_settle_other : ∃ calls, (net.settle x act).party x.other =
      { net.party x.other with inbox := (net.party x.other).inbox ++ calls } ∧
    ∀ call ∈ calls, call.id = net.nextCall ∧ net.nextCall < (net.settle x act).nextCall ∧
      ∃ query nd resume, act = .await query nd resume ∧ query.sent = true ∧
        call.request = query.request.wire := by
  unfold settle
  cases act with
  | done value nd => exact ⟨[], by simp [NodeId.other_ne], by simp⟩
  | crash nd => exact ⟨[], by simp [NodeId.other_ne], by simp⟩
  | await query nd resume =>
      dsimp only
      split
      · rename_i socket hsent _
        refine ⟨[⟨net.nextCall, query.request.wire⟩], by simp [NodeId.other_ne], ?_⟩
        intro call hcall
        obtain rfl := List.mem_singleton.mp hcall
        exact ⟨rfl, by simp, query, nd, resume, rfl, hsent, rfl⟩
      · exact ⟨[], by simp [NodeId.other_ne], by simp⟩

theorem party_settle_self :
    ((net.settle x act).party x).inbox = (net.party x).inbox ∧
      ((net.settle x act).party x).replies = (net.party x).replies ∧
      ((net.settle x act).party x).up = (match act with | .crash _ => false | _ => (net.party x).up) := by
  unfold settle
  cases act with
  | done value nd => simp
  | crash nd => simp
  | await query nd resume =>
      dsimp only
      split <;> simp

theorem nextCall_le_settle : net.nextCall ≤ (net.settle x act).nextCall := by
  unfold settle
  cases act with
  | done value nd => simp
  | crash nd => simp
  | await query nd resume =>
      dsimp only
      split <;> simp

theorem nextCall_settle_of_waits (h : waits act = none) :
    (net.settle x act).nextCall = net.nextCall := by
  unfold settle
  cases act with
  | done value nd => rfl
  | crash nd => rfl
  | await query nd resume => cases h

/-- A call that is sent is the last one of its node. -/
theorem lastSent_settle {query : Query} {nd : Node} {resume : Option ValueT → Node → Colod}
    (hsent : query.sent = true) {socketId id : ℕ}
    (hsocket : nd.remoteClient.socket.isSome = true)
    (hlast : ((net.settle x (.await query nd resume)).party x).lastSent = some (socketId, id)) :
    id = net.nextCall ∧ net.nextCall < (net.settle x (.await query nd resume)).nextCall := by
  obtain ⟨socket, heq⟩ := Option.isSome_iff_exists.mp hsocket
  unfold settle at hlast ⊢
  simp only [hsent, heq, party_send_self, Option.some.injEq, Prod.mk.injEq, nextCall_modify,
    nextCall_send] at hlast ⊢
  exact ⟨hlast.2.symm, Nat.lt_succ_self _⟩

end

end Net

/-! ## The legs of a handler -/

/-- What may change on a machine while its colod waits. -/
def Node.Apart (nd nd' : Node) : Prop :=
  ∃ os files, nd' = { nd with os, files }

theorem Node.apart_refl (nd : Node) : nd.Apart nd := ⟨nd.os, nd.files, rfl⟩

theorem Node.Apart.trans {nd₁ nd₂ nd₃ : Node} (h : nd₁.Apart nd₂) (h' : nd₂.Apart nd₃) :
    nd₁.Apart nd₃ := by
  obtain ⟨os, files, rfl⟩ := h
  obtain ⟨os', files', rfl⟩ := h'
  exact ⟨os', files', rfl⟩

theorem Node.apart_osAfter (nd : Node) (events : List OsEvent) :
    nd.Apart (nd.osAfter events) :=
  ⟨_, _, rfl⟩

theorem Node.apart_writeFile {path : String} (hpath : path ≠ defaultSaveFile) (nd : Node)
    (doc : Yaml.Node) : nd.Apart (nd.writeFile path doc) := by
  unfold writeFile
  rw [if_neg hpath]
  exact ⟨_, _, rfl⟩

/-- A handler waits on a client with a socket, and its call was sent unless the
client remembers a timeout. -/
def Issued (query : Query) (nd : Node) : Prop :=
  query.sent = nd.remoteClient.sends ∧ nd.remoteClient.socket.isSome = true

/-! ## Two connected colods -/

/-- Connect `a` as the primary node to `b` and define a domain on it. -/
def definedRun : List NetEvent :=
  [.writeFile .a "/root/peer.yaml" (connectDocument "primary" "10.0.0.1" "10.0.0.2"),
    .request .a (.connectPeer "/root/peer.yaml") (.smooth 100),
    .execute .b 0 (.smooth 100),
    .reply .a 0,
    .request .a (.define "/root/d.yaml") (.smooth 100)]

def enabledRun : List NetEvent :=
  definedRun ++ [.request .a (.coloEnable "d") (.smooth 100), .execute .b 0 (.smooth 100),
    .reply .a 0]

end ColoManage
