import ColoManage.Network
import ColoManage.Library.Delivery

/-!
# No call is executed twice

Two colods whose messages may be late, out of order or lost, whose handlers may time
out and whose processes may die and come back.  The network moves the mail of
`Delivery`, so in every run each call that a client numbers is executed at most once,
and each reply is taken at most once, by the client that sent the call.
-/

namespace ColoManage

open Resumption EventSystem Delivery

/-! ## What an event shows -/

/-- A call with the node that sends it. -/
abbrev SentCall := NodeId × Call

namespace Net

def sentBy (x : NodeId) (act : Colod) (net : Net) : List (Note SentCall ColodRetVal) :=
  match act with
  | .await query nd _ =>
      match query.sent, nd.remoteClient.socket with
      | true, some _ => [.sent (x, ⟨net.nextCall, query.request.wire⟩)]
      | _, _ => []
  | _ => []

def shows (net : Net) : NetEvent → List (Note SentCall ColodRetVal)
  | .request x req env =>
      if (net.party x).idle && req.isLocal then
        net.sentBy x (handle env req (net.party x).node)
      else []
  | .execute x i env =>
      match (net.party x).inbox[i]? with
      | none => []
      | some call =>
          if (net.party x).idle then
            [.executed (x.other, call) (runPeer env call.request (net.party x).node).value]
          else []
  | .reply x i =>
      match (net.party x).waiting, (net.party x).replies[i]? with
      | some w, some reply =>
          if (net.party x).receives reply then
            .received (x, reply.call) reply.ret ::
              net.sentBy x (w.resume (some (.answer reply.ret)) (net.party x).node)
          else []
      | _, _ => []
  | .timeout x =>
      match (net.party x).waiting with
      | some w => net.sentBy x (w.resume none (net.party x).node)
      | none => []
  | _ => []

/-! ## The mail of the net -/

def callsOf (x : NodeId) (net : Net) : Multiset SentCall :=
  ↑((net.party x.other).inbox.map fun call => (x, call))

def repliesOf (x : NodeId) (net : Net) : Multiset (SentCall × ColodRetVal) :=
  ↑((net.party x).replies.map fun reply => ((x, reply.call), reply.ret))

def mail (net : Net) : Mail SentCall ColodRetVal where
  next := net.nextCall
  calls := net.callsOf .a + net.callsOf .b
  replies := net.repliesOf .a + net.repliesOf .b

theorem mail_eq (x : NodeId) (net : Net) :
    net.mail = ⟨net.nextCall, net.callsOf x + net.callsOf x.other,
      net.repliesOf x + net.repliesOf x.other⟩ := by
  cases x with
  | a => rfl
  | b => simp only [mail, NodeId.other, Multiset.add_comm]

abbrev Delivers (net : Net) (notes : List (Note SentCall ColodRetVal)) (net' : Net) : Prop :=
  Steps (fun call : SentCall => call.2.id) net.mail notes net'.mail

section

variable {x : NodeId} {net net' : Net}

theorem mail_congr (hnext : net'.nextCall = net.nextCall)
    (hinbox : ∀ y, (net'.party y).inbox = (net.party y).inbox)
    (hreplies : ∀ y, (net'.party y).replies = (net.party y).replies) : net'.mail = net.mail := by
  simp only [mail, callsOf, repliesOf, hnext, hinbox, hreplies]

theorem mail_modify {f : Party → Party} (hinbox : ∀ p, (f p).inbox = p.inbox)
    (hreplies : ∀ p, (f p).replies = p.replies) : (net.modify x f).mail = net.mail := by
  refine mail_congr rfl ?_ ?_
  · intro y
    rw [party_modify]
    split
    · exact hinbox _
    · rfl
  · intro y
    rw [party_modify]
    split
    · exact hreplies _
    · rfl

theorem coe_eraseIdx {α β : Type} {f : α → β} {l : List α} {i : ℕ} {a : α} (h : l[i]? = some a) :
    (↑(l.map f) : Multiset β) = f a ::ₘ ↑((l.eraseIdx i).map f) := by
  obtain ⟨hlt, rfl⟩ := List.getElem?_eq_some_iff.mp h
  rw [Multiset.cons_coe, ← List.map_cons]
  exact Multiset.coe_eq_coe.mpr ((List.getElem_cons_eraseIdx_perm hlt).symm.map f)

/-- A call that `x` finds on its way, and the mail without it. -/
theorem mail_eraseCall {i : ℕ} {call : Call} (h : (net.party x).inbox[i]? = some call) :
    ∃ calls replies, net.mail = ⟨net.nextCall, (x.other, call) ::ₘ calls, replies⟩ ∧
      (net.modify x fun p => { p with inbox := p.inbox.eraseIdx i }).mail =
        ⟨net.nextCall, calls, replies⟩ := by
  refine ⟨_, _, ?_, mail_eq x.other _⟩
  rw [mail_eq x.other]
  have hcalls : net.callsOf x.other = (x.other, call) ::ₘ
      (net.modify x fun p => { p with inbox := p.inbox.eraseIdx i }).callsOf x.other := by
    simpa [callsOf] using coe_eraseIdx (f := fun call => (x.other, call)) h
  rw [hcalls, Multiset.cons_add]
  simp [callsOf, repliesOf, NodeId.other_ne]

theorem mail_eraseReply {i : ℕ} {reply : Reply} (h : (net.party x).replies[i]? = some reply) :
    ∃ calls replies,
      net.mail = ⟨net.nextCall, calls, ((x, reply.call), reply.ret) ::ₘ replies⟩ ∧
      (net.modify x fun p => { p with replies := p.replies.eraseIdx i }).mail =
        ⟨net.nextCall, calls, replies⟩ := by
  refine ⟨_, _, ?_, mail_eq x _⟩
  rw [mail_eq x]
  have hreplies : net.repliesOf x = ((x, reply.call), reply.ret) ::ₘ
      (net.modify x fun p => { p with replies := p.replies.eraseIdx i }).repliesOf x := by
    simpa [repliesOf] using coe_eraseIdx (f := fun reply => ((x, reply.call), reply.ret)) h
  rw [hreplies, Multiset.cons_add]
  simp [callsOf, repliesOf, NodeId.other_ne]

/-! ## One event -/

theorem mail_send (socketId : ℕ) (request : Request) :
    (net.send x socketId request).mail = ⟨net.nextCall + 1,
      (x, ⟨net.nextCall, request.wire⟩) ::ₘ net.mail.calls, net.mail.replies⟩ := by
  rw [mail_eq x, mail_eq x net, nextCall_send]
  have hcalls : (net.send x socketId request).callsOf x =
      (x, ⟨net.nextCall, request.wire⟩) ::ₘ net.callsOf x := by
    rw [callsOf, party_send_other, List.map_append, ← Multiset.coe_add, Multiset.add_comm]
    rfl
  rw [hcalls, Multiset.cons_add]
  simp [callsOf, repliesOf]

theorem mail_addReply (reply : Reply) :
    (net.modify x fun p => { p with replies := p.replies ++ [reply] }).mail =
      ⟨net.nextCall, net.mail.calls, ((x, reply.call), reply.ret) ::ₘ net.mail.replies⟩ := by
  rw [mail_eq x, mail_eq x net]
  have hreplies : (net.modify x fun p => { p with replies := p.replies ++ [reply] }).repliesOf x =
      ((x, reply.call), reply.ret) ::ₘ net.repliesOf x := by
    rw [repliesOf, party_modify, if_pos rfl, List.map_append, ← Multiset.coe_add,
      Multiset.add_comm]
    rfl
  rw [hreplies, Multiset.cons_add]
  simp [callsOf, repliesOf, NodeId.other_ne]

theorem delivers_of_mail_eq (h : net'.mail = net.mail) : net.Delivers [] net' := by
  rw [Delivers, h]
  exact .refl _

/-- A handler that goes on until it waits or ends sends at most the call it waits for. -/
theorem delivers_settle (x : NodeId) (act : Colod) (net : Net) :
    net.Delivers (net.sentBy x act) (net.settle x act) := by
  unfold settle sentBy
  cases act with
  | done value nd => exact delivers_of_mail_eq (mail_modify (fun _ => rfl) (fun _ => rfl))
  | crash nd => exact delivers_of_mail_eq (mail_modify (fun _ => rfl) (fun _ => rfl))
  | await query nd resume =>
      have hmail : (net.modify x fun p =>
          { p with node := nd, waiting := some ⟨query, resume⟩ }).mail = net.mail :=
        mail_modify (fun _ => rfl) (fun _ => rfl)
      dsimp only
      cases hsent : query.sent with
      | false => exact delivers_of_mail_eq hmail
      | true =>
          cases hsocket : nd.remoteClient.socket with
          | none => exact delivers_of_mail_eq hmail
          | some socket =>
              dsimp only
              rw [Delivers, mail_send, hmail]
              exact (Step.send rfl).steps

theorem delivers_answer {i : ℕ} {call : Call} (h : (net.party x).inbox[i]? = some call)
    (env : Env) :
    net.Delivers [.executed (x.other, call) (runPeer env call.request (net.party x).node).value]
      ((net.modify x fun p => { p with inbox := p.inbox.eraseIdx i }).answer x call env) := by
  obtain ⟨calls, replies, hmail, herased⟩ := mail_eraseCall h
  have hnode : ((net.modify x fun p => { p with inbox := p.inbox.eraseIdx i }).party x).node =
      (net.party x).node := by simp
  rw [Delivers, answer, hnode, hmail]
  cases hrun : runPeer env call.request (net.party x).node with
  | returned ret nd =>
      dsimp only
      rw [mail_addReply, mail_modify (f := fun p => { p with node := nd }) (fun _ => rfl)
        (fun _ => rfl), herased]
      exact (Step.execute _ ret).steps
  | crashed nd =>
      dsimp only
      rw [mail_modify (f := fun p => { p with node := nd, up := false }) (fun _ => rfl)
        (fun _ => rfl), herased]
      exact (Step.die _).steps

theorem delivers_take {i : ℕ} (w : Waiting) {reply : Reply}
    (h : (net.party x).replies[i]? = some reply) :
    net.Delivers ([.received (x, reply.call) reply.ret] ++
        net.sentBy x (w.resume (some (.answer reply.ret)) (net.party x).node))
      ((net.modify x fun p => { p with replies := p.replies.eraseIdx i }).take x w reply) := by
  obtain ⟨calls, replies, hmail, herased⟩ := mail_eraseReply h
  set erased := net.modify x fun p => { p with replies := p.replies.eraseIdx i } with heq
  have hnode : (erased.party x).node = (net.party x).node := by simp [heq]
  have hreceive : net.Delivers [.received (x, reply.call) reply.ret] erased := by
    rw [Delivers, hmail, herased]
    exact (Step.receive _ _).steps
  rw [take, hnode]
  exact Steps.trans hreceive (delivers_settle x _ { erased with taken := erased.taken ++ [_] })

end

theorem delivers_step (net : Net) (event : NetEvent) :
    net.Delivers (net.shows event) (net.step event) := by
  unfold shows step
  cases event with
  | request x req env =>
      dsimp only
      split
      · exact delivers_settle x _ net
      · exact .refl _
  | execute x i env =>
      dsimp only
      cases hcall : (net.party x).inbox[i]? with
      | none => exact .refl _
      | some call =>
          dsimp only
          split
          · exact delivers_answer hcall env
          · exact .refl _
  | dropCall x i =>
      cases hcall : (net.party x).inbox[i]? with
      | none =>
          refine delivers_of_mail_eq (mail_congr rfl ?_ ?_)
          · intro y
            by_cases hy : y = x
            · simp [hy, List.eraseIdx_of_length_le (List.getElem?_eq_none_iff.mp hcall)]
            · simp [hy]
          · intro y
            by_cases hy : y = x <;> simp [hy]
      | some call =>
          obtain ⟨calls, replies, hmail, herased⟩ := mail_eraseCall hcall
          dsimp only
          rw [Delivers, hmail, herased]
          exact (Step.loseCall _).steps
  | dropReply x i =>
      cases hreply : (net.party x).replies[i]? with
      | none =>
          refine delivers_of_mail_eq (mail_congr rfl ?_ ?_)
          · intro y
            by_cases hy : y = x <;> simp [hy]
          · intro y
            by_cases hy : y = x
            · simp [hy, List.eraseIdx_of_length_le (List.getElem?_eq_none_iff.mp hreply)]
            · simp [hy]
      | some reply =>
          obtain ⟨calls, replies, hmail, herased⟩ := mail_eraseReply hreply
          dsimp only
          rw [Delivers, hmail, herased]
          exact (Step.loseReply _).steps
  | reply x i =>
      dsimp only
      cases (net.party x).waiting with
      | none => exact .refl _
      | some w =>
          cases hreply : (net.party x).replies[i]? with
          | none => exact .refl _
          | some reply =>
              dsimp only
              split
              · exact delivers_take w hreply
              · exact .refl _
  | timeout x =>
      dsimp only
      cases (net.party x).waiting with
      | none => exact .refl _
      | some w => exact delivers_settle x _ net
  | restart x => exact delivers_of_mail_eq (mail_modify (fun _ => rfl) (fun _ => rfl))
  | os x event => exact delivers_of_mail_eq (mail_modify (fun _ => rfl) (fun _ => rfl))
  | writeFile x path doc =>
      dsimp only
      split
      · exact .refl _
      · exact delivers_of_mail_eq (mail_modify (fun _ => rfl) (fun _ => rfl))

end Net

/-- Whatever the network, the machines and the timeouts do, each call is executed at most
once and after it was sent, and each reply is taken at most once, by the node whose call
had returned it. -/
theorem delivered_run (nd : NodeId → Node) (events : List NetEvent) :
    Delivered (fun call : SentCall => call.2.id) (seen Net.step Net.shows (Net.boot nd) events) :=
  delivered_seen Net.delivers_step rfl events

end ColoManage
