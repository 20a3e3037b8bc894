import ColoManage.Moves

/-!
# Calls and the replies their handlers take

The client that all handlers share skips sending after a timeout, so a handler
may take the reply to a call that an earlier handler has given up.
`paired_iff` says in which runs each reply is taken by the handler whose call
the peer had executed for it.
-/

namespace ColoManage

open Resumption EventSystem

/-! ## The property -/

/-- The handler's call was sent, the peer has executed that call, and the
handler gets what it returned. -/
structure Taken.Own (taken : Taken) : Prop where
  sent : taken.query.sent = true
  executed : taken.executed = taken.query.request
  val : taken.val = taken.ret

def Paired (net : Net) : Prop := ∀ taken ∈ net.taken, taken.Own

/-- A handler takes a reply while the client does not remember a timeout, and
the strings of call and reply fit their length fields. -/
def EventPaired (net : Net) : NetEvent → Prop
  | .reply x i => ∀ w reply, (net.party x).waiting = some w →
      (net.party x).replies[i]? = some reply → (net.party x).receives reply = true →
        (net.party x).node.remoteClient.errorCode ≠ .recvTimeout ∧
          w.query.request.wire = w.query.request ∧ reply.ret.wire = reply.ret
  | _ => True

/-! ## What the handlers send -/

abbrev Issues (act : Colod) : Prop :=
  ∀ first, act.Legs Node.Apart (fun _ _ => True) Issued first

theorem Issues.of_legs {first : Node} {act : Colod}
    (h : act.Legs Node.Apart (fun _ _ => True) Issued first) : Issues act :=
  fun _ => h.of_first fun _ _ => trivial

theorem handle_issues (env : Env) (req : Request) (nd : Node) :
    Issues (handle env req nd) := by
  have hissued : ∀ query nd', Asked req nd query ∧ Issued query nd' → Issued query nd' :=
    fun _ _ hquery => hquery.2
  exact .of_legs ((handle_moving env req nd).mono (fun _ _ _ => trivial) hissued)

/-! ## Numbers and their calls -/

/-- A call of `x` under way: it is an earlier one, or the one that the handler
of `x` waits for. -/
structure Owed (net : Net) (x : NodeId) (call : Call) : Prop where
  id_lt : call.id < net.nextCall
  request : ∀ w, (net.party x).waiting = some w → w.query.sent = true →
    ∀ socketId, (net.party x).lastSent = some (socketId, call.id) →
      call.request = w.query.request.wire

structure Waiting.Ready (w : Waiting) (nd : Node) : Prop where
  sent : w.query.sent = nd.remoteClient.sends
  resume : ∀ answer nd', nd.Apart nd' → Issues (w.resume answer nd')

/-- The calls of one node and the handler that waits there. -/
structure Linked (net : Net) (x : NodeId) : Prop where
  calls : ∀ call ∈ (net.party x.other).inbox, Owed net x call
  replies : ∀ reply ∈ (net.party x).replies, Owed net x reply.call
  waiting : ∀ w, (net.party x).waiting = some w → w.Ready (net.party x).node

theorem Waiting.Ready.apart {w : Waiting} {nd nd' : Node} (h : w.Ready nd)
    (hapart : nd.Apart nd') : w.Ready nd' := by
  refine ⟨?_, fun answer nd'' hapart' => h.resume answer nd'' (hapart.trans hapart')⟩
  obtain ⟨os, files, rfl⟩ := hapart
  exact h.sent

section

variable {net net' : Net} {x y : NodeId}

theorem Owed.frame {call : Call} (h : Owed net x call) (hnext : net.nextCall ≤ net'.nextCall)
    (hlast : (net'.party x).lastSent = (net.party x).lastSent)
    (hwaiting : ∀ w, (net'.party x).waiting = some w → w.query.sent = true →
      (net.party x).waiting = some w) : Owed net' x call where
  id_lt := Nat.lt_of_lt_of_le h.id_lt hnext
  request := by
    intro w hw hsent socketId hsome
    rw [hlast] at hsome
    exact h.request w (hwaiting w hw hsent) hsent socketId hsome

theorem Linked.frame (h : Linked net x) (hnext : net.nextCall ≤ net'.nextCall)
    (hcalls : ∀ call ∈ (net'.party x.other).inbox, call ∈ (net.party x.other).inbox)
    (hreplies : ∀ reply ∈ (net'.party x).replies, Owed net x reply.call)
    (hlast : (net'.party x).lastSent = (net.party x).lastSent)
    (hwaiting : ∀ w, (net'.party x).waiting = some w → w.query.sent = true →
      (net.party x).waiting = some w)
    (hready : ∀ w, (net'.party x).waiting = some w → w.Ready (net'.party x).node) :
    Linked net' x where
  calls := fun call hcall => (h.calls call (hcalls call hcall)).frame hnext hlast hwaiting
  replies := fun reply hreply => (hreplies reply hreply).frame hnext hlast hwaiting
  waiting := hready

theorem linked_modify (h : ∀ y, Linked net y) {f : Party → Party}
    (hinbox : ∀ call ∈ (f (net.party x)).inbox, call ∈ (net.party x).inbox)
    (hreplies : ∀ reply ∈ (f (net.party x)).replies, Owed net x reply.call)
    (hlast : (f (net.party x)).lastSent = (net.party x).lastSent)
    (hwaiting : ∀ w, (f (net.party x)).waiting = some w → w.query.sent = true →
      (net.party x).waiting = some w)
    (hready : ∀ w, (f (net.party x)).waiting = some w → w.Ready (f (net.party x)).node)
    (y : NodeId) : Linked (net.modify x f) y := by
  rcases NodeId.eq_or_eq_other x y with rfl | rfl
  · refine (h y).frame le_rfl ?_ ?_ ?_ ?_ ?_
    · intro call hcall
      simpa [NodeId.other_ne] using hcall
    · simpa using hreplies
    · simpa using hlast
    · simpa using hwaiting
    · simpa using hready
  · refine (h x.other).frame le_rfl ?_ ?_ ?_ ?_ ?_
    · simpa using hinbox
    · intro reply hreply
      exact (h x.other).replies reply (by simpa [NodeId.other_ne] using hreply)
    · simp [NodeId.other_ne]
    · intro w hw _
      simpa [NodeId.other_ne] using hw
    · intro w hw
      simp only [Net.party_modify, NodeId.other_ne, if_false] at hw ⊢
      exact (h x.other).waiting w hw

theorem linked_send (h : ∀ y, Linked net y) {w : Waiting} {nd : Node} (hready : w.Ready nd)
    (socketId : ℕ) (y : NodeId) :
    Linked ((net.modify x fun p => { p with node := nd, waiting := some w }).send x
      socketId w.query.request) y := by
  have hself : ((net.modify x fun p => { p with node := nd, waiting := some w }).send
      x socketId w.query.request).party x = { net.party x with
        node := nd, waiting := some w, lastSent := some (socketId, net.nextCall) } := by
    simp
  have hother : ((net.modify x fun p => { p with node := nd, waiting := some w }).send
      x socketId w.query.request).party x.other = { net.party x.other with
        inbox := (net.party x.other).inbox ++ [⟨net.nextCall, w.query.request.wire⟩] } := by
    simp [NodeId.other_ne]
  rcases NodeId.eq_or_eq_other x y with rfl | rfl
  · have hearlier : ∀ call, call.id < net.nextCall → Owed ((net.modify y fun p =>
        { p with node := nd, waiting := some w }).send y socketId w.query.request) y call := by
      intro call hlt
      refine ⟨Nat.lt_succ_of_lt hlt, ?_⟩
      intro w' _ _ socketId' hsome
      simp only [hself, Option.some.injEq, Prod.mk.injEq] at hsome
      exact absurd hsome.2 (Nat.ne_of_gt hlt)
    refine ⟨?_, ?_, ?_⟩
    · intro call hcall
      simp only [hother, List.mem_append, List.mem_singleton] at hcall
      rcases hcall with hcall | rfl
      · exact hearlier call ((h y).calls call hcall).id_lt
      · refine ⟨Nat.lt_succ_self _, ?_⟩
        intro w' hw' _ _ _
        simp only [hself, Option.some.injEq] at hw'
        rw [hw']
    · intro reply hreply
      rw [hself] at hreply
      exact hearlier reply.call ((h y).replies reply hreply).id_lt
    · intro w' hw'
      simp only [hself, Option.some.injEq] at hw' ⊢
      rwa [← hw']
  · refine (h x.other).frame (Nat.le_succ _) ?_ ?_ ?_ ?_ ?_
    · simp
    · rw [hother]
      exact (h x.other).replies
    · simp [NodeId.other_ne]
    · intro w' hw' _
      rwa [hother] at hw'
    · rw [hother]
      exact (h x.other).waiting

theorem linked_settle (h : ∀ y, Linked net y) {act : Colod} (hact : Issues act) (y : NodeId) :
    Linked (net.settle x act) y := by
  unfold Net.settle
  cases act with
  | done value nd =>
      exact linked_modify h (fun _ hcall => hcall) (h x).replies rfl (by simp) (by simp) y
  | crash nd =>
      exact linked_modify h (fun _ hcall => hcall) (h x).replies rfl (by simp) (by simp) y
  | await query nd resume =>
      obtain ⟨⟨-, hissued⟩, hresume⟩ := hact nd
      have hready : Waiting.Ready ⟨query, resume⟩ nd :=
        ⟨hissued.1, fun answer nd' hapart => .of_legs (hresume answer nd' hapart)⟩
      obtain ⟨socket, hsocket⟩ := Option.isSome_iff_exists.mp hissued.2
      dsimp only
      cases hsent : query.sent with
      | true =>
          rw [hsocket]
          exact linked_send h hready socket.id y
      | false =>
          refine linked_modify h (fun _ hcall => hcall) (h x).replies rfl ?_ ?_ y
          · intro w hw hw'
            simp only [Option.some.injEq] at hw
            rw [← hw, hsent] at hw'
            exact absurd hw' (by decide)
          · intro w hw
            simp only [Option.some.injEq] at hw
            rwa [← hw]

theorem linked_answer (h : ∀ y, Linked net y) (hidle : (net.party x).waiting = none) {i : ℕ}
    {call : Call} (hcall : (net.party x).inbox[i]? = some call) (env : Env) (y : NodeId) :
    Linked ((net.modify x fun p => { p with inbox := p.inbox.eraseIdx i }).answer x call env) y := by
  have howed : Owed net x.other call :=
    (h x.other).calls call (by simpa using List.mem_of_getElem? hcall)
  have herase : ∀ y, Linked (net.modify x fun p => { p with inbox := p.inbox.eraseIdx i }) y :=
    linked_modify h (fun _ hcall => List.mem_of_mem_eraseIdx hcall) (h x).replies rfl
      (fun w hw _ => hw) (h x).waiting
  unfold Net.answer
  split
  · rename_i ret nd hrun
    have hnode := linked_modify herase (x := x) (f := fun p => { p with node := nd })
      (fun _ hcall => hcall) (herase x).replies rfl (fun w hw _ => hw) (by simp [hidle])
    refine linked_modify hnode (fun _ hcall => hcall) ?_ rfl (fun w hw _ => hw)
      (hnode x.other).waiting y
    intro reply hreply
    rcases List.mem_append.mp hreply with hreply | hreply
    · exact (hnode x.other).replies reply hreply
    · rw [List.mem_singleton.mp hreply]
      refine howed.frame le_rfl (by simp [NodeId.other_ne]) ?_
      intro w hw _
      simpa [NodeId.other_ne] using hw
  · exact linked_modify herase (fun _ hcall => hcall) (herase x).replies rfl
      (fun w hw _ => hw) (by simp [hidle]) y

theorem linked_step (h : ∀ y, Linked net y) (event : NetEvent) (y : NodeId) :
    Linked (net.step event) y := by
  unfold Net.step
  cases event with
  | request x req env =>
      dsimp only
      split
      · exact linked_settle h (handle_issues env req _) y
      · exact h y
  | execute x i env =>
      dsimp only
      split
      · exact h y
      · rename_i call hcall
        split
        · rename_i hidle
          exact linked_answer h (Party.idle_iff.mp hidle).2 hcall env y
        · exact h y
  | dropCall x i =>
      dsimp only
      exact linked_modify h (fun _ hcall => List.mem_of_mem_eraseIdx hcall) (h x).replies rfl
        (fun w hw _ => hw) (h x).waiting y
  | dropReply x i =>
      dsimp only
      exact linked_modify h (fun _ hcall => hcall)
        (fun reply hreply => (h x).replies reply (List.mem_of_mem_eraseIdx hreply)) rfl
        (fun w hw _ => hw) (h x).waiting y
  | reply x i =>
      dsimp only
      split
      · rename_i w reply hw hreply
        split
        · have herase := linked_modify h (fun _ hcall => hcall)
            (fun reply hreply => (h x).replies reply (List.mem_of_mem_eraseIdx (i := i) hreply)) rfl
            (fun w hw _ => hw) (h x).waiting (f := fun p =>
              { p with replies := p.replies.eraseIdx i })
          have hnoted : ∀ (taken : List Taken) y, Linked { net.modify x fun p =>
              { p with replies := p.replies.eraseIdx i } with taken } y :=
            fun taken y => (herase y).frame le_rfl (fun _ hcall => hcall) (herase y).replies rfl
              (fun w hw _ => hw) (herase y).waiting
          refine linked_settle (hnoted _) ?_ y
          have hready := (h x).waiting w hw
          exact hready.resume _ _ (by simpa using Node.apart_refl _)
        · exact h y
      · exact h y
  | timeout x =>
      dsimp only
      split
      · rename_i w hw
        exact linked_settle h (((h x).waiting w hw).resume none _ (Node.apart_refl _)) y
      · exact h y
  | restart x =>
      dsimp only
      exact linked_modify h (fun _ hcall => hcall) (h x).replies rfl (by simp) (by simp) y
  | os x event =>
      dsimp only
      exact linked_modify h (fun _ hcall => hcall) (h x).replies rfl (fun w hw _ => hw)
        (fun w hw => ((h x).waiting w hw).apart (Node.apart_osAfter _ _)) y
  | writeFile x path doc =>
      dsimp only
      split
      · exact h y
      · rename_i hpath
        exact linked_modify h (fun _ hcall => hcall) (h x).replies rfl (fun w hw _ => hw)
          (fun w hw => ((h x).waiting w hw).apart (Node.apart_writeFile hpath _ _)) y

/-! ## The replies taken -/

@[simp] theorem taken_settle (act : Colod) : (net.settle x act).taken = net.taken := by
  unfold Net.settle
  cases act with
  | done value nd => rfl
  | crash nd => rfl
  | await query nd resume =>
      dsimp only
      split <;> rfl

@[simp] theorem taken_answer (call : Call) (env : Env) :
    (net.answer x call env).taken = net.taken := by
  unfold Net.answer
  split <;> rfl

theorem taken_step {event : NetEvent} (hreply : ∀ x i, event ≠ .reply x i) :
    (net.step event).taken = net.taken := by
  unfold Net.step
  cases event with
  | reply x i => exact absurd rfl (hreply x i)
  | request x req env =>
      dsimp only
      split <;> simp
  | execute x i env =>
      dsimp only
      split
      · rfl
      · split <;> simp
  | timeout x =>
      dsimp only
      split <;> simp
  | writeFile x path doc =>
      dsimp only
      split <;> rfl
  | dropCall x i => rfl
  | dropReply x i => rfl
  | restart x => rfl
  | os x event => rfl

theorem lastSent_of_receives {p : Party} {reply : Reply} (h : p.receives reply = true) :
    ∃ socketId, p.lastSent = some (socketId, reply.call.id) := by
  unfold Party.receives at h
  split at h
  · rename_i socketId callId socket hlast _
    simp only [Bool.and_eq_true, beq_iff_eq] at h
    exact ⟨socketId, by rw [hlast, h.2]⟩
  · exact absurd h (by decide)

/-- The handler takes its own reply exactly when its call has been sent and the
strings of call and reply have arrived whole. -/
theorem own_iff (h : Linked net x) {w : Waiting} {reply : Reply}
    (hwaiting : (net.party x).waiting = some w) (hmem : reply ∈ (net.party x).replies)
    (hreceives : (net.party x).receives reply = true) :
    Taken.Own ⟨w.query, reply.call.request, reply.ret, reply.ret.wire⟩ ↔
      (net.party x).node.remoteClient.errorCode ≠ .recvTimeout ∧
        w.query.request.wire = w.query.request ∧ reply.ret.wire = reply.ret := by
  have hsent : w.query.sent = true ↔
      (net.party x).node.remoteClient.errorCode ≠ .recvTimeout := by
    rw [(h.waiting w hwaiting).sent]
    simp [Buttonrpc.sends]
  obtain ⟨socketId, hlast⟩ := lastSent_of_receives hreceives
  constructor
  · intro hown
    have hrequest := (h.replies reply hmem).request w hwaiting hown.sent socketId hlast
    exact ⟨hsent.mp hown.sent, hrequest.symm.trans hown.executed, hown.val⟩
  · rintro ⟨herror, hwire, hret⟩
    have hquery := hsent.mpr herror
    have hrequest := (h.replies reply hmem).request w hwaiting hquery socketId hlast
    exact ⟨hquery, hrequest.trans hwire, hret⟩

theorem paired_step_iff (h : ∀ y, Linked net y) (hpaired : Paired net) (event : NetEvent) :
    Paired (net.step event) ↔ EventPaired net event := by
  cases event with
  | reply x i =>
      unfold Net.step EventPaired
      dsimp only
      split
      · rename_i w reply hw hreply
        split
        · rename_i hreceives
          have hown := own_iff (h x) hw (List.mem_of_getElem? hreply) hreceives
          simp only [Paired, Net.take, taken_settle, Net.taken_modify, List.forall_mem_append,
            List.forall_mem_singleton]
          constructor
          · rintro ⟨-, htaken⟩ w' reply' hw' hreply' -
            obtain rfl := Option.some.inj (hw.symm.trans hw')
            obtain rfl := Option.some.inj (hreply.symm.trans hreply')
            exact hown.mp htaken
          · exact fun hevent => ⟨hpaired, hown.mpr (hevent w reply hw hreply hreceives)⟩
        · rename_i hreceives
          refine iff_of_true hpaired ?_
          intro w' reply' _ hreply' hreceives'
          obtain rfl := Option.some.inj (hreply.symm.trans hreply')
          exact absurd hreceives' hreceives
      · rename_i hnone
        exact iff_of_true hpaired fun w reply hw hreply => absurd hreply (hnone w reply hw)
  | request | execute | dropCall | dropReply | timeout | restart | os | writeFile =>
      refine iff_of_true ?_ trivial
      rw [Paired, taken_step (fun _ _ => by simp)]
      exact hpaired

theorem linked_boot (nd : NodeId → Node) (x : NodeId) : Linked (Net.boot nd) x := by
  refine ⟨?_, ?_, ?_⟩ <;> simp [Net.boot]

theorem linked_run (nd : NodeId → Node) (events : List NetEvent) :
    ∀ x, Linked (events.foldl Net.step (Net.boot nd)) x := by
  have hgeneral : ∀ net : Net, (∀ x, Linked net x) → ∀ x, Linked (events.foldl Net.step net) x := by
    induction events with
    | nil => exact fun _ h => h
    | cons event events ih => exact fun net h => ih (net.step event) (linked_step h event)
  exact hgeneral _ (linked_boot nd)

end

/-- In a run of two fresh colods every handler takes the reply to its own call
if and only if each reply is taken by a client that remembers no timeout, with
strings that fit their length fields. -/
theorem paired_iff (nd : NodeId → Node) (events : List NetEvent) :
    Always Net.step Paired (Net.boot nd) events ↔
      Along Net.step EventPaired (Net.boot nd) events :=
  always_iff_along (J := fun net => ∀ y, Linked net y) (fun _ event h => linked_step h event)
    (fun _ event h hpaired => paired_step_iff h hpaired event) (linked_boot nd)
    (fun taken hmem => by simp [Net.boot] at hmem) events

/-- A status query times out and is executed late; the enable after it sends
nothing and takes the reply of the query. -/
def lateReplyRun : List NetEvent :=
  definedRun ++ [.request .a .connectStatus (.smooth 100), .timeout .a,
    .execute .b 0 (.smooth 100), .request .a (.coloEnable "d") (.smooth 100), .reply .a 0]

theorem not_paired_late :
    ¬ Always Net.step Paired (Net.boot fun _ => .fresh) lateReplyRun := by
  intro h
  have hsent : ((lateReplyRun.foldl Net.step (Net.boot fun _ => .fresh)).taken.all fun taken =>
      taken.query.sent) = false := by decide +kernel
  have hall : ((lateReplyRun.foldl Net.step (Net.boot fun _ => .fresh)).taken.all fun taken =>
      taken.query.sent) = true := List.all_eq_true.mpr fun taken hmem => (h.last taken hmem).sent
  rw [hsent] at hall
  exact absurd hall (by decide)

end ColoManage
