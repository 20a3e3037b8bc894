import ColoManage.Network

/-!
# What two nodes keep

A rule for the runs of the net.  `I x` is to hold of the node `x` at every moment, `G` of
each query of a handler and `A` of each call on its way.  It is enough that the handlers
keep `I` from leg to leg, whatever changes on the machine around them, and that colod
starts with it.
-/

namespace ColoManage

open Resumption EventSystem

section

variable (I : NodeId → Node → Prop) (G : Query → Node → Prop) (A : Request → Prop)

/-- Each leg of the handler ends in `I`, and its queries are as `G` allows. -/
def Guards (x : NodeId) (act : Colod) : Prop :=
  ∀ first, act.Legs Node.Apart (fun _ nd => I x nd) G first

structure Party.Guarded (x : NodeId) (p : Party) : Prop where
  node : I x p.node
  calls : ∀ call ∈ p.inbox, A call.request
  resumes : ∀ w, p.waiting = some w → ∀ answer nd', p.node.Apart nd' →
    Guards I G x (w.resume answer nd')

/-- The handler that starts in the event, or the colod that does, keeps to `I`. -/
structure EventGuards (net : Net) (event : NetEvent) : Prop where
  handled : ∀ x req, net.handled event = some (x, req) → ∀ env,
    Guards I G x (handle env req (net.party x).node)
  restarted : ∀ x, event = .restart x → I x (net.party x).node.rsInit

/-- The other things on a machine do not touch `I`, and a query is sent as a call. -/
structure Guard : Prop where
  apart : ∀ x nd nd', I x nd → nd.Apart nd' → I x nd'
  sent : ∀ query nd, G query nd → A query.request.wire

end

section

variable {I : NodeId → Node → Prop} {G : Query → Node → Prop} {A : Request → Prop}
  {net : Net} {x : NodeId}

theorem Guards.of_legs {first : Node} {act : Colod}
    (h : act.Legs Node.Apart (fun _ nd => I x nd) G first) : Guards I G x act :=
  fun _ => Act.Legs.of_first (T := fun _ nd => I x nd) (fun _ hnode => hnode) h

theorem guarded_modify (h : ∀ y, (net.party y).Guarded I G A y) {f : Party → Party}
    (hf : (net.party x).Guarded I G A x → (f (net.party x)).Guarded I G A x) (y : NodeId) :
    ((net.modify x f).party y).Guarded I G A y := by
  rw [Net.party_modify]
  split
  · rename_i hy
    subst hy
    exact hf (h y)
  · exact h y

theorem Party.Guarded.apart (hguard : Guard I G A) {p : Party} (h : p.Guarded I G A x)
    {nd : Node} (hapart : p.node.Apart nd) : Guarded I G A x { p with node := nd } where
  node := hguard.apart x p.node nd h.node hapart
  calls := h.calls
  resumes w hw answer nd' hapart' := h.resumes w hw answer nd' (hapart.trans hapart')

/-- A handler that has ended. -/
theorem Party.Guarded.ended {p : Party} (h : p.Guarded I G A x) {nd : Node} (hnode : I x nd)
    (up : Bool) : Guarded I G A x { p with node := nd, up, waiting := none } where
  node := hnode
  calls := h.calls
  resumes := by simp

theorem guarded_settle (hguard : Guard I G A) (h : ∀ y, (net.party y).Guarded I G A y)
    {act : Colod} (hact : Guards I G x act) (y : NodeId) :
    ((net.settle x act).party y).Guarded I G A y := by
  have hlegs := hact (net.party x).node
  unfold Net.settle
  cases act with
  | done value nd => exact guarded_modify h (fun hx => hx.ended hlegs _) y
  | crash nd => exact guarded_modify h (fun hx => hx.ended hlegs _) y
  | await query nd resume =>
      obtain ⟨⟨hnode, hquery⟩, hresume⟩ := hlegs
      have hwaits := guarded_modify (x := x) h
        (f := fun p => { p with node := nd, waiting := some ⟨query, resume⟩ }) (by
          intro hx
          refine ⟨hnode, hx.calls, ?_⟩
          rintro w hw answer nd' hapart
          cases hw
          exact .of_legs (hresume answer nd' hapart))
      dsimp only
      split
      · rename_i socket _ _
        have hlast := guarded_modify (x := x) hwaits
          (f := fun p => { p with lastSent := some (socket.id, net.nextCall) })
          (fun hx => ⟨hx.node, hx.calls, hx.resumes⟩)
        refine guarded_modify (x := x.other) hlast
          (f := fun p => { p with inbox := p.inbox ++ [⟨net.nextCall, query.request.wire⟩] }) ?_ y
        intro hother
        refine ⟨hother.node, ?_, hother.resumes⟩
        intro call hcall
        rcases List.mem_append.mp hcall with hcall | hcall
        · exact hother.calls call hcall
        · obtain rfl := List.mem_singleton.mp hcall
          exact hguard.sent query nd hquery
      · exact hwaits y

theorem guarded_execute (h : ∀ y, (net.party y).Guarded I G A y) {i : ℕ} {env : Env}
    (hevent : EventGuards I G net (.execute x i env)) (y : NodeId) :
    ((net.step (.execute x i env)).party y).Guarded I G A y := by
  unfold Net.step
  dsimp only
  split
  · exact h y
  · rename_i call hcall
    split
    · rename_i hidle
      have herased := guarded_modify (x := x) h
        (f := fun p => { p with inbox := p.inbox.eraseIdx i }) (fun hx =>
          ⟨hx.node, fun call hcall => hx.calls call (List.mem_of_mem_eraseIdx hcall),
            hx.resumes⟩)
      have hwaiting := (Party.idle_iff.mp hidle).2
      have hserved := hevent.handled x call.request (by simp [Net.handled, hidle, hcall]) env
      have hstate : I x (runPeer env call.request (net.party x).node).state :=
        Act.follow_nil_of_legs (hserved (net.party x).node)
      have hnode : ((net.modify x fun p =>
          { p with inbox := p.inbox.eraseIdx i }).party x).node = (net.party x).node := by simp
      unfold Net.answer
      rw [hnode]
      split
      · rename_i ret nd hrun
        rw [hrun] at hstate
        refine guarded_modify (guarded_modify herased ?_) ?_ y
        · exact fun hx => ⟨hstate, hx.calls, by simp [hwaiting]⟩
        · exact fun hother => ⟨hother.node, hother.calls, hother.resumes⟩
      · rename_i nd hrun
        rw [hrun] at hstate
        exact guarded_modify herased (fun hx => ⟨hstate, hx.calls, by simp [hwaiting]⟩) y
    · exact h y

theorem guarded_step (hguard : Guard I G A) (h : ∀ y, (net.party y).Guarded I G A y)
    {event : NetEvent} (hevent : EventGuards I G net event) (y : NodeId) :
    ((net.step event).party y).Guarded I G A y := by
  unfold Net.step
  cases event with
  | request x req env =>
      dsimp only
      split
      · rename_i htakes
        exact guarded_settle hguard h (hevent.handled x req (by simp [Net.handled, htakes]) env) y
      · exact h y
  | execute x i env => exact guarded_execute h hevent y
  | dropCall x i =>
      exact guarded_modify h (fun hx => ⟨hx.node,
        fun call hcall => hx.calls call (List.mem_of_mem_eraseIdx hcall), hx.resumes⟩) y
  | dropReply x i => exact guarded_modify h (fun hx => ⟨hx.node, hx.calls, hx.resumes⟩) y
  | reply x i =>
      dsimp only
      split
      · rename_i w reply hw hreply
        split
        · have herased := guarded_modify (x := x) h
            (f := fun p => { p with replies := p.replies.eraseIdx i })
            (fun hx => ⟨hx.node, hx.calls, hx.resumes⟩)
          have hresumed := (h x).resumes w hw (some (.answer reply.ret))
            ((net.modify x fun p => { p with replies := p.replies.eraseIdx i }).party x).node
            (by simpa using Node.apart_refl _)
          refine guarded_settle hguard ?_ hresumed y
          exact herased
        · exact h y
      · exact h y
  | timeout x =>
      dsimp only
      split
      · rename_i w hw
        exact guarded_settle hguard h ((h x).resumes w hw none _ (Node.apart_refl _)) y
      · exact h y
  | restart x =>
      exact guarded_modify h (fun hx => hx.ended (hevent.restarted x rfl) true) y
  | os x event => exact guarded_modify h (fun hx => hx.apart hguard (Node.apart_osAfter _ _)) y
  | writeFile x path doc =>
      dsimp only
      split
      · exact h y
      · rename_i hpath
        exact guarded_modify h (fun hx => hx.apart hguard (Node.apart_writeFile hpath _ _)) y

theorem guarded_boot {nd : NodeId → Node} (h : ∀ y, I y (nd y).rsInit) (y : NodeId) :
    ((Net.boot nd).party y).Guarded I G A y where
  node := h y
  calls := by simp [Net.boot]
  resumes := by simp [Net.boot]

/-- The rule: the events of the run may be checked in nets that keep to the guarantees. -/
theorem guarded_run {C : Net → NetEvent → Prop} (hguard : Guard I G A)
    (hevent : ∀ net event, (∀ y, (net.party y).Guarded I G A y) → C net event →
      EventGuards I G net event)
    (h : ∀ y, (net.party y).Guarded I G A y) {events : List NetEvent}
    (hrun : Along Net.step C net events) :
    ∀ y, ((events.foldl Net.step net).party y).Guarded I G A y := by
  have hstep : ∀ net event, (∀ y, (net.party y).Guarded I G A y) → C net event →
      ∀ y, ((net.step event).party y).Guarded I G A y := by
    intro net event hnet hC
    exact guarded_step hguard hnet (hevent net event hnet hC)
  have halways : Always Net.step (fun net => ∀ y, (net.party y).Guarded I G A y) net events :=
    always_of_along hstep h hrun
  exact halways.last

end

end ColoManage
