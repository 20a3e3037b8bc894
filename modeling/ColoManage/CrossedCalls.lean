import ColoManage.CallsOnce
import ColoManage.Guarantees
import ColoManage.RolesApart
import ColoManage.Waits

/-!
# Calls that cross

A colod serves one request at a time, also while it waits for its peer.  A call of the
peer is always answered at once, without asking back.  So two colods that lose no message
can only stop each other in one way: their calls have crossed, and each waits for the
other.  Then nothing is executed on either until a timeout or a restart.
-/

namespace ColoManage

open Resumption EventSystem

/-! ## What is on its way -/

/-- A query that is served by the peer. -/
def Remote (query : Query) (nd : Node) : Prop :=
  query.request.isLocal = false ∧ Issued query nd

/-- What the handlers ask for. -/
abbrev Asks (act : Colod) : Prop :=
  ∀ first, act.Legs Node.Apart (fun _ _ => True) Remote first

theorem Asks.of_legs {first : Node} {act : Colod}
    (h : act.Legs Node.Apart (fun _ _ => True) Remote first) : Asks act :=
  fun _ => h.of_first fun _ _ => trivial

theorem handle_asks (env : Env) (req : Request) (nd : Node) : Asks (handle env req nd) := by
  have hasked : ∀ query nd', Asked req nd query ∧ Issued query nd' → Remote query nd' :=
    fun _ _ hquery => ⟨hquery.1.remote, hquery.2⟩
  exact .of_legs ((handle_moving env req nd).mono (fun _ _ _ => trivial) hasked)

/-- The calls to a party are those of a peer, and its handler goes on asking for such. -/
abbrev Party.Proper (x : NodeId) (p : Party) : Prop :=
  p.Guarded (fun _ _ => True) Remote (fun request => request.isLocal = false) x

theorem guard_remote : Guard (fun _ _ => True) Remote fun request => request.isLocal = false where
  apart _ _ _ _ _ := trivial
  sent _ _ hquery := (isLocal_wire _).trans hquery.1

theorem eventGuards_remote (net : Net) (event : NetEvent) :
    EventGuards (fun _ _ => True) Remote net event where
  handled _ req _ env := handle_asks env req _
  restarted _ _ := trivial

theorem proper_step {net : Net} (h : ∀ y, (net.party y).Proper y) (event : NetEvent) (y : NodeId) :
    ((net.step event).party y).Proper y :=
  guarded_step guard_remote h (eventGuards_remote net event) y

theorem proper_boot (nd : NodeId → Node) (y : NodeId) : ((Net.boot nd).party y).Proper y :=
  guarded_boot (fun _ => trivial) y

theorem proper_run (nd : NodeId → Node) (events : List NetEvent) :
    ∀ x, ((events.foldl Net.step (Net.boot nd)).party x).Proper x :=
  guarded_run guard_remote (fun net event _ _ => eventGuards_remote net event) (proper_boot nd)
    (along_of_forall (C := fun _ _ => True) (fun _ _ _ => trivial) _)

/-! ## Calls of the peer are answered at once -/

/-- In every run, what a colod is asked by its peer it serves to the end without asking
back, on whatever machine, so it makes no difference what its peer would answer. -/
theorem served_at_once (nd : NodeId → Node) (events : List NetEvent) {x : NodeId} {call : Call}
    (hcall : call ∈ ((events.foldl Net.step (Net.boot nd)).party x).inbox) (env : Env)
    (state : Node) :
    Net.waits (handle env call.request state) = none ∧ ∀ script : Script,
      (handle env call.request state).follow Node.osAfter script =
        runPeer env call.request state := by
  have hlocal : call.request.isLocal = false := (proper_run nd events x).calls call hcall
  have hwaits : Net.waits (handle env call.request state) = none := waits_of_not_local hlocal
  exact ⟨hwaits, fun script => follow_of_waits_eq_none hwaits script⟩

/-- The status that `b` gets when `a` connects to it. -/
def statusCall : Call :=
  (((definedRun.take 2).foldl Net.step (Net.boot fun _ => .fresh)).party .b).inbox.headD
    ⟨0, .connectReply⟩

theorem served_at_once_status :
    Net.waits (handle (.smooth 100) statusCall.request .fresh) = none ∧ ∀ script : Script,
      (handle (.smooth 100) statusCall.request .fresh).follow Node.osAfter script =
        runPeer (.smooth 100) statusCall.request .fresh :=
  served_at_once (x := .b) (fun _ => .fresh) (definedRun.take 2) (by decide +kernel) _ _

/-! ## Nothing gets lost -/

/-- The network loses nothing, and no colod dies in a call of its peer. -/
def EventLossless (net : Net) : NetEvent → Prop
  | .dropCall _ _ => False
  | .dropReply _ _ => False
  | .execute x i env => ∀ call, (net.party x).inbox[i]? = some call →
      ∃ ret nd, runPeer env call.request (net.party x).node = .returned ret nd
  | _ => True

/-- The call that the handler of `x` has sent lies in the inbox of the peer, or a reply to
it is there that the socket gives to `recv`. -/
def InFlight (net : Net) (x : NodeId) : Prop :=
  ∀ w, (net.party x).waiting = some w → w.query.sent = true →
    ∃ socket id, (net.party x).node.remoteClient.socket = some socket ∧
      (net.party x).lastSent = some (socket.id, id) ∧
      ((∃ call ∈ (net.party x.other).inbox, call.id = id) ∨
        ∃ reply ∈ (net.party x).replies, reply.call.id = id)

section

variable {net net' : Net} {x y : NodeId}

theorem InFlight.frame (h : InFlight net x)
    (hwaiting : ∀ w, (net'.party x).waiting = some w → (net.party x).waiting = some w ∧
      (net'.party x).node.remoteClient = (net.party x).node.remoteClient)
    (hlast : (net'.party x).lastSent = (net.party x).lastSent)
    (hcalls : ∀ call ∈ (net.party x.other).inbox, call ∈ (net'.party x.other).inbox ∨
      ∃ reply ∈ (net'.party x).replies, reply.call.id = call.id)
    (hreplies : ∀ reply ∈ (net.party x).replies, reply ∈ (net'.party x).replies) :
    InFlight net' x := by
  intro w hw hsent
  obtain ⟨hw, hclient⟩ := hwaiting w hw
  obtain ⟨socket, id, hopen, hid, hflight⟩ := h w hw hsent
  refine ⟨socket, id, by rw [hclient, hopen], by rw [hlast, hid], ?_⟩
  rcases hflight with ⟨call, hcall, rfl⟩ | ⟨reply, hreply, rfl⟩
  · rcases hcalls call hcall with hcall | hreply
    · exact .inl ⟨call, hcall, rfl⟩
    · exact .inr hreply
  · exact .inr ⟨reply, hreplies reply hreply, rfl⟩

/-- A handler that waits on a call has just sent it. -/
theorem inFlight_settle_self {act : Colod} (hact : Asks act) : InFlight (net.settle x act) x := by
  intro w hw hsent
  rw [Net.waiting_settle] at hw
  cases act with
  | done value nd => cases hw
  | crash nd => cases hw
  | await query nd resume =>
      cases hw
      obtain ⟨⟨-, -, hissued⟩, -⟩ := hact nd
      obtain ⟨socket, hsocket⟩ := Option.isSome_iff_exists.mp hissued.2
      dsimp only at hsent
      refine ⟨socket, net.nextCall, ?_, ?_, .inl ⟨⟨net.nextCall, query.request.wire⟩, ?_, rfl⟩⟩
      · simp [Net.settle, hsent, hsocket]
      · simp [Net.settle, hsent, hsocket]
      · simp [Net.settle, hsent, hsocket, NodeId.other_ne]

theorem inFlight_settle (h : InFlight net x.other) {act : Colod} (hact : Asks act)
    (y : NodeId) : InFlight (net.settle x act) y := by
  rcases NodeId.eq_or_eq_other x y with rfl | rfl
  · exact inFlight_settle_self hact
  · obtain ⟨calls, hparty, -⟩ := Net.party_settle_other x act net
    obtain ⟨hinbox, -, -⟩ := Net.party_settle_self x act net
    refine h.frame ?_ ?_ ?_ ?_
    · simp [hparty]
    · simp [hparty]
    · intro call hcall
      rw [NodeId.other_other] at hcall ⊢
      exact .inl (hinbox ▸ hcall)
    · simp [hparty]

/-- The call of `x.other` that `x` executes turns into its reply. -/
theorem inFlight_answer (h : InFlight net x.other) (hwaiting : (net.party x).waiting = none)
    {i : ℕ} {call : Call} (hcall : (net.party x).inbox[i]? = some call) {env : Env}
    (hreturns : ∃ ret nd, runPeer env call.request (net.party x).node = .returned ret nd)
    (y : NodeId) :
    InFlight ((net.modify x fun p => { p with inbox := p.inbox.eraseIdx i }).answer x call env)
      y := by
  obtain ⟨ret, nd, hrun⟩ := hreturns
  have hnode : ((net.modify x fun p => { p with inbox := p.inbox.eraseIdx i }).party x).node =
      (net.party x).node := by simp
  rw [Net.answer, hnode, hrun]
  rcases NodeId.eq_or_eq_other x y with rfl | rfl
  · intro w hw
    simp [NodeId.ne_other, hwaiting] at hw
  · refine h.frame ?_ ?_ ?_ ?_
    · simp [NodeId.other_ne]
    · simp [NodeId.other_ne]
    · intro other hother
      simp only [NodeId.other_other] at hother ⊢
      obtain ⟨hlt, heq⟩ := List.getElem?_eq_some_iff.mp hcall
      have hperm := List.getElem_cons_eraseIdx_perm hlt
      rcases List.mem_cons.mp (hperm.mem_iff.mpr hother) with rfl | hother
      · exact .inr ⟨⟨call, ret⟩, by simp [NodeId.other_ne], by rw [heq]⟩
      · exact .inl (by simpa [NodeId.ne_other] using hother)
    · intro reply hreply
      simp [NodeId.other_ne, hreply]

theorem inFlight_modify (h : ∀ y, InFlight net y) {f : Party → Party}
    (hwaiting : ∀ w, (f (net.party x)).waiting = some w → (net.party x).waiting = some w ∧
      (f (net.party x)).node.remoteClient = (net.party x).node.remoteClient)
    (hlast : (f (net.party x)).lastSent = (net.party x).lastSent)
    (hinbox : (f (net.party x)).inbox = (net.party x).inbox)
    (hreplies : (f (net.party x)).replies = (net.party x).replies) (y : NodeId) :
    InFlight (net.modify x f) y := by
  rcases NodeId.eq_or_eq_other x y with rfl | rfl
  · refine (h y).frame ?_ ?_ ?_ ?_
    · simpa using hwaiting
    · simpa using hlast
    · exact fun call hcall => .inl (by simpa [NodeId.other_ne] using hcall)
    · simp [hreplies]
  · refine (h x.other).frame ?_ ?_ ?_ ?_
    · simp [NodeId.other_ne]
    · simp [NodeId.other_ne]
    · intro call hcall
      rw [NodeId.other_other] at hcall ⊢
      exact .inl (by simpa [hinbox] using hcall)
    · simp [NodeId.other_ne]

theorem inFlight_step (h : ∀ y, InFlight net y) (hproper : ∀ y, (net.party y).Proper y)
    {event : NetEvent} (hevent : EventLossless net event) (y : NodeId) :
    InFlight (net.step event) y := by
  unfold Net.step
  cases event with
  | request x req env =>
      dsimp only
      split
      · exact inFlight_settle (h x.other) (handle_asks env req _) y
      · exact h y
  | execute x i env =>
      dsimp only
      split
      · exact h y
      · rename_i call hcall
        split
        · rename_i hidle
          exact inFlight_answer (h x.other) (Party.idle_iff.mp hidle).2 hcall
            (hevent call hcall) y
        · exact h y
  | dropCall x i => exact hevent.elim
  | dropReply x i => exact hevent.elim
  | reply x i =>
      dsimp only
      split
      · rename_i w reply hw hreply
        split
        · refine inFlight_settle ?_ ?_ y
          · refine (h x.other).frame ?_ ?_ ?_ ?_
            · simp [NodeId.other_ne]
            · simp [NodeId.other_ne]
            · intro call hcall
              rw [NodeId.other_other] at hcall ⊢
              exact .inl (by simpa using hcall)
            · simp [NodeId.other_ne]
          · exact (hproper x).resumes w hw _ _ (by simpa using Node.apart_refl _)
        · exact h y
      · exact h y
  | timeout x =>
      dsimp only
      split
      · rename_i w hw
        exact inFlight_settle (h x.other) ((hproper x).resumes w hw none _ (Node.apart_refl _)) y
      · exact h y
  | restart x => exact inFlight_modify h (by simp) rfl rfl rfl y
  | os x event => exact inFlight_modify h (fun w hw => ⟨hw, rfl⟩) rfl rfl rfl y
  | writeFile x path doc =>
      dsimp only
      split
      · exact h y
      · rename_i hpath
        refine inFlight_modify h (fun w hw => ⟨hw, ?_⟩) rfl rfl rfl y
        simp [Node.writeFile, hpath]

theorem inFlight_run {nd : NodeId → Node} {events : List NetEvent}
    (hrun : Along Net.step EventLossless (Net.boot nd) events) (y : NodeId) :
    InFlight (events.foldl Net.step (Net.boot nd)) y := by
  have hkeep : ∀ net event,
      ((∀ y, InFlight net y) ∧ ∀ y, (net.party y).Proper y) → EventLossless net event →
      (∀ y, InFlight (net.step event) y) ∧ ∀ y, ((net.step event).party y).Proper y :=
    fun net event hinv hevent =>
      ⟨inFlight_step hinv.1 hinv.2 hevent, proper_step hinv.2 event⟩
  have hinit : (∀ y, InFlight (Net.boot nd) y) ∧ ∀ y, ((Net.boot nd).party y).Proper y :=
    ⟨fun y w hw => by simp [Net.boot] at hw, proper_boot nd⟩
  exact (always_of_along hkeep hinit hrun).last.1 y

end

/-! ## What can still happen -/

/-- The event serves a call of the peer or ends a wait with its reply. -/
def Net.enabled (net : Net) : NetEvent → Bool
  | .execute x i _ => (net.party x).idle && (net.party x).inbox[i]?.isSome
  | .reply x i =>
      match (net.party x).waiting, (net.party x).replies[i]? with
      | some _, some reply => (net.party x).receives reply
      | _, _ => false
  | _ => false

/-- Both colods wait, and neither has a reply to take. -/
structure Crossed (net : Net) : Prop where
  waiting : ∀ x, (net.party x).waiting.isSome = true
  unanswered : ∀ x, ∀ reply ∈ (net.party x).replies, (net.party x).receives reply = false

section

variable {net : Net} {x : NodeId}

theorem Crossed.not_idle (h : Crossed net) (x : NodeId) : (net.party x).idle = false := by
  have hwaiting := h.waiting x
  cases hw : (net.party x).waiting with
  | none => simp [hw] at hwaiting
  | some w => simp [Party.idle, hw]

theorem Crossed.not_enabled (h : Crossed net) (event : NetEvent) : net.enabled event = false := by
  cases event with
  | execute x i env => simp [Net.enabled, h.not_idle x]
  | reply x i =>
      unfold Net.enabled
      dsimp only
      split
      · rename_i hreply
        exact h.unanswered x _ (List.mem_of_getElem? hreply)
      · rfl
  | _ => rfl

/-- The socket takes the reply to the call that was sent last. -/
theorem receives_of_lastSent {p : Party} {socket : ReqSocket} {reply : Reply}
    (hsocket : p.node.remoteClient.socket = some socket)
    (hlast : p.lastSent = some (socket.id, reply.call.id)) : p.receives reply = true := by
  simp [Party.receives, hsocket, hlast]

theorem crossed_of_not_enabled (h : InFlight net x) {w : Waiting}
    (hw : (net.party x).waiting = some w) (hsent : w.query.sent = true)
    (hup : (net.party x.other).up = true) (hnone : ∀ event, net.enabled event = false) :
    Crossed net := by
  have hunanswered : ∀ y w, (net.party y).waiting = some w →
      ∀ reply ∈ (net.party y).replies, (net.party y).receives reply = false := by
    intro y w hy reply hreply
    obtain ⟨i, hi⟩ := List.getElem?_of_mem hreply
    simpa [Net.enabled, hy, hi] using hnone (.reply y i)
  obtain ⟨socket, id, hsocket, hlast, hflight⟩ := h w hw hsent
  have hother : ∃ w', (net.party x.other).waiting = some w' := by
    rcases hflight with ⟨call, hcall, -⟩ | ⟨reply, hreply, rfl⟩
    · obtain ⟨i, hi⟩ := List.getElem?_of_mem hcall
      have hidle := hnone (.execute x.other i (.smooth 0))
      cases hwait : (net.party x.other).waiting with
      | none => simp [Net.enabled, hi, Party.idle, hup, hwait] at hidle
      | some w' => exact ⟨w', rfl⟩
    · have hreceives := receives_of_lastSent hsocket hlast
      rw [hunanswered x w hw reply hreply] at hreceives
      exact absurd hreceives (by decide)
  obtain ⟨w', hw'⟩ := hother
  constructor
  · intro y
    rcases NodeId.eq_or_eq_other x y with rfl | rfl
    · simp [hw]
    · simp [hw']
  · intro y
    rcases NodeId.eq_or_eq_other x y with rfl | rfl
    · exact hunanswered y w hw
    · exact hunanswered x.other w' hw'

end

/-- As long as no message is lost and no colod dies, a handler whose call is on its way is
stuck if and only if the calls have crossed. -/
theorem stuck_iff {nd : NodeId → Node} {events : List NetEvent}
    (hrun : Along Net.step EventLossless (Net.boot nd) events) {x : NodeId} {w : Waiting}
    (hw : ((events.foldl Net.step (Net.boot nd)).party x).waiting = some w)
    (hsent : w.query.sent = true)
    (hup : ((events.foldl Net.step (Net.boot nd)).party x.other).up = true) :
    (∀ event, (events.foldl Net.step (Net.boot nd)).enabled event = false) ↔
      Crossed (events.foldl Net.step (Net.boot nd)) :=
  ⟨crossed_of_not_enabled (inFlight_run hrun x) hw hsent hup, fun h => h.not_enabled⟩

/-- Both nodes are asked to enable a domain at the same time. -/
def crossedRun : List NetEvent :=
  definedRun ++ [.writeFile .b "/root/e.yaml" (sampleDefinition "e"),
    .request .b (.define "/root/e.yaml") (.smooth 100),
    .request .a (.coloEnable "d") (.smooth 100), .request .b (.coloEnable "e") (.smooth 100)]

def crossedNet : Net := crossedRun.foldl Net.step (Net.boot fun _ => .fresh)

theorem crossed_enables : Crossed crossedNet := by
  have hwaiting : ∀ x, (crossedNet.party x).waiting.isSome = true := by
    intro x
    cases x
    · decide +kernel
    · decide +kernel
  have hreplies : ∀ x, (crossedNet.party x).replies = [] := by
    intro x
    cases x
    · decide +kernel
    · decide +kernel
  exact ⟨hwaiting, fun x reply hreply => by simp [hreplies x] at hreply⟩

theorem lossless_execute {net : Net} {x : NodeId} {i : ℕ} {env : Env}
    (h : (net.party x).inbox[i]?.all (fun call =>
      (runPeer env call.request (net.party x).node).value.isSome) = true) :
    EventLossless net (.execute x i env) := by
  intro call hcall
  rw [hcall, Option.all_some] at h
  cases hrun : runPeer env call.request (net.party x).node with
  | returned ret nd => exact ⟨ret, nd, rfl⟩
  | crashed nd => simp [hrun, Outcome.value] at h

theorem stuck_iff_enables :
    (∀ event, crossedNet.enabled event = false) ↔ Crossed crossedNet := by
  have hrun : Along Net.step EventLossless (Net.boot fun _ => .fresh) crossedRun :=
    ⟨trivial, trivial, lossless_execute (by decide +kernel), trivial, trivial, trivial, trivial,
      trivial, trivial, trivial⟩
  have hwaits : (crossedNet.party .a).waiting.isSome = true := crossed_enables.waiting .a
  have hsends : (crossedNet.party .a).waiting.all (fun w => w.query.sent) = true := by
    decide +kernel
  obtain ⟨w, hw⟩ := Option.isSome_iff_exists.mp hwaits
  rw [hw] at hsends
  exact stuck_iff hrun (x := .a) hw hsends (by decide +kernel)

/-! ## Crossed calls stay crossed -/

/-- No handler gives up, and no colod is started anew. -/
def NetEvent.Patient : NetEvent → Prop
  | .timeout _ => False
  | .restart _ => False
  | _ => True

/-- All that happens is outside of the colods. -/
structure StillCrossed (net net' : Net) : Prop where
  crossed : Crossed net'
  apart : ∀ x, (net.party x).node.Apart (net'.party x).node

section

variable {net : Net} {x : NodeId}

theorem Crossed.modify (h : Crossed net) {f : Party → Party}
    (hwaiting : (f (net.party x)).waiting = (net.party x).waiting)
    (hlast : (f (net.party x)).lastSent = (net.party x).lastSent)
    (hreplies : ∀ reply ∈ (f (net.party x)).replies, reply ∈ (net.party x).replies)
    (hapart : (net.party x).node.Apart (f (net.party x)).node) :
    StillCrossed net (net.modify x f) := by
  constructor
  · constructor
    · intro y
      by_cases hy : y = x
      · simpa [hy, hwaiting] using h.waiting x
      · simpa [hy] using h.waiting y
    · intro y reply hreply
      by_cases hy : y = x
      · subst hy
        rw [Net.party_modify, if_pos rfl] at hreply ⊢
        have hsame : (f (net.party y)).receives reply = (net.party y).receives reply := by
          obtain ⟨os, files, hnode⟩ := hapart
          simp only [Party.receives, hlast, hnode]
        rw [hsame]
        exact h.unanswered y reply (hreplies reply hreply)
      · rw [Net.party_modify, if_neg hy] at hreply ⊢
        exact h.unanswered y reply hreply
  · intro y
    by_cases hy : y = x
    · subst hy
      simpa using hapart
    · simpa [hy] using Node.apart_refl _

theorem Crossed.same (h : Crossed net) : StillCrossed net net := ⟨h, fun _ => Node.apart_refl _⟩

theorem Crossed.shows_eq_nil (h : Crossed net) {event : NetEvent} (hpatient : event.Patient) :
    net.shows event = [] := by
  have hnone := h.not_enabled event
  cases event with
  | request x req env => simp [Net.shows, h.not_idle x]
  | execute x i env =>
      unfold Net.shows
      dsimp only
      split
      · rfl
      · rw [if_neg (by simp [h.not_idle x])]
  | reply x i =>
      unfold Net.shows
      unfold Net.enabled at hnone
      dsimp only at hnone ⊢
      split
      · rename_i w reply hw hreply
        simp only [hw, hreply] at hnone
        rw [if_neg (by simp [hnone])]
      · rfl
  | timeout x => exact hpatient.elim
  | _ => rfl

theorem Crossed.step (h : Crossed net) {event : NetEvent} (hpatient : event.Patient) :
    StillCrossed net (net.step event) := by
  have hnone := h.not_enabled event
  unfold Net.step
  cases event with
  | request x req env =>
      dsimp only
      rw [if_neg (by simp [h.not_idle x])]
      exact h.same
  | execute x i env =>
      dsimp only
      split
      · exact h.same
      · rw [if_neg (by simp [h.not_idle x])]
        exact h.same
  | dropCall x i => exact h.modify rfl rfl (fun _ hreply => hreply) (Node.apart_refl _)
  | dropReply x i =>
      exact h.modify rfl rfl (fun _ hreply => List.mem_of_mem_eraseIdx hreply)
        (Node.apart_refl _)
  | reply x i =>
      unfold Net.enabled at hnone
      dsimp only at hnone ⊢
      split
      · rename_i w reply hw hreply
        simp only [hw, hreply] at hnone
        rw [if_neg (by simp [hnone])]
        exact h.same
      · exact h.same
  | timeout x => exact hpatient.elim
  | restart x => exact hpatient.elim
  | os x event =>
      exact h.modify rfl rfl (fun _ hreply => hreply) (Node.apart_osAfter _ _)
  | writeFile x path doc =>
      dsimp only
      split
      · exact h.same
      · rename_i hpath
        exact h.modify rfl rfl (fun _ hreply => hreply) (Node.apart_writeFile hpath _ _)

end

/-- Once the calls have crossed, whatever is requested, delivered or lost, no call is sent,
executed or answered and neither colod does anything, until a handler times out or a colod
is started anew. -/
theorem crossed_run {net : Net} (h : Crossed net) {events : List NetEvent}
    (hpatient : ∀ event ∈ events, event.Patient) :
    StillCrossed net (events.foldl Net.step net) ∧ seen Net.step Net.shows net events = [] := by
  induction events generalizing net with
  | nil => exact ⟨h.same, rfl⟩
  | cons event events ih =>
      obtain ⟨hfirst, hrest⟩ := List.forall_mem_cons.mp hpatient
      have hstep := h.step hfirst
      obtain ⟨hlast, hseen⟩ := ih hstep.crossed hrest
      refine ⟨⟨hlast.crossed, fun x => (hstep.apart x).trans (hlast.apart x)⟩, ?_⟩
      rw [seen, h.shows_eq_nil hfirst, hseen]
      rfl

/-- The two enables block each other, whatever else is asked of the nodes. -/
theorem crossed_run_enables :
    StillCrossed crossedNet
        ([.request .a (.list true) (.smooth 101), .dropCall .b 0, .os .a (.exit 100)].foldl
          Net.step crossedNet) ∧
      seen Net.step Net.shows crossedNet
        [.request .a (.list true) (.smooth 101), .dropCall .b 0, .os .a (.exit 100)] = [] :=
  crossed_run crossed_enables (by simp [NetEvent.Patient])

end ColoManage
