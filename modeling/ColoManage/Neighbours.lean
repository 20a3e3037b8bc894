import ColoManage.Bystander
import ColoManage.Sessions

/-!
# A domain that neither node is asked about

The frame of `Bystander`, across the two nodes.  A request about other domains asks the
peer about other domains, because a record goes out under its own name or under none, and
because each call belongs to a session.  So a domain that the tools leave alone is left
alone on both nodes, whatever is delivered, lost or late, and whoever is started anew.
-/

namespace ColoManage

open Resumption EventSystem

/-! ## What the peer is asked about -/

/-- A call about other domains than `d`. -/
def Request.CallSpares (d : String) : Request → Prop
  | .peerSaveDomain ds => ds.name ≠ d
  | .peerStartDomain domainName _ => domainName ≠ d
  | .peerDestroyDomain domainName => domainName ≠ d
  | _ => True

/-- The name that a request passes on to the peer. -/
def Request.toldName : Request → Option String
  | .start domainName true => some domainName
  | .destroy domainName => some domainName
  | .coloEnable domainName => some domainName
  | _ => none

/-- What a node takes in the event is about other domains: a request of the tool by all its
names, also as they arrive at the peer, and a start for the peer by the name in the file
that it loads. -/
def NetSpares (d : String) (net : Net) (event : NetEvent) : Prop :=
  ∀ x req, net.handled event = some (x, req) →
    (req.isLocal = true → req.Spares d (net.party x).node ∧
      ∀ name ∈ req.toldName, wireString name ≠ d) ∧
    ∀ domainName colo, req = .peerStartDomain domainName colo →
      ∀ defined, (net.party x).node.getDomain domainName = .ok defined → defined.name ≠ d

section

variable {d : String} {nd : Node} {req : Request} {env : Env}

theorem wireString_empty : wireString "" = "" := rfl

theorem session_spares (hd : d ≠ "") (htold : ∀ name ∈ req.toldName, wireString name ≠ d) :
    ∀ part ∈ req.session, ∀ call, part call → call.CallSpares d := by
  intro part hpart call hcall
  cases req with
  | connectPeer configFilePath =>
      obtain rfl := List.mem_singleton.mp hpart
      obtain ⟨_, ⟨cs, rfl⟩, rfl⟩ := hcall
      trivial
  | connectStatus =>
      obtain rfl := List.mem_singleton.mp hpart
      obtain ⟨_, rfl, rfl⟩ := hcall
      trivial
  | connectTest =>
      obtain rfl := List.mem_singleton.mp hpart
      obtain ⟨_, rfl, rfl⟩ := hcall
      trivial
  | start domainName colo =>
      cases colo with
      | false => cases hpart
      | true =>
          rcases List.mem_cons.mp hpart with rfl | hpart
          · obtain ⟨_, rfl, rfl⟩ := hcall
            exact htold domainName rfl
          · obtain rfl := List.mem_singleton.mp hpart
            obtain ⟨_, ⟨role, -, rfl⟩, rfl⟩ := hcall
            trivial
  | destroy domainName =>
      obtain rfl := List.mem_singleton.mp hpart
      obtain ⟨_, rfl, rfl⟩ := hcall
      exact htold domainName rfl
  | coloEnable domainName =>
      obtain rfl := List.mem_singleton.mp hpart
      obtain ⟨_, ⟨ds, hname, rfl⟩, rfl⟩ := hcall
      rcases hname with hname | hname
      · rw [← hname] at htold
        exact htold ds.name rfl
      · show wireString ds.name ≠ d
        rw [hname, wireString_empty]
        exact Ne.symm hd
  | _ => cases hpart

theorem spares_of_call (hremote : req.isLocal = false) (hcall : req.CallSpares d)
    (hfile : ∀ domainName colo, req = .peerStartDomain domainName colo →
      ∀ defined, nd.getDomain domainName = .ok defined → defined.name ≠ d) : req.Spares d nd := by
  cases req with
  | connectReply => trivial
  | peerSaveStatus cs => trivial
  | peerSaveDomain ds => exact hcall
  | peerStartDomain domainName colo => exact ⟨hcall, hfile domainName colo rfl⟩
  | peerDestroyDomain domainName => exact hcall
  | peerSendQmpcmds domainName cds => trivial
  | _ => cases hremote

theorem toldName_of_not_local (hremote : req.isLocal = false) : req.toldName = none := by
  cases req with
  | start domainName colo => cases hremote
  | destroy domainName => cases hremote
  | coloEnable domainName => cases hremote
  | _ => rfl

/-! ## Handlers -/

theorem undisturbed_apart {nd' : Node} (h : nd.Apart nd') : Undisturbed d nd nd' := by
  obtain ⟨os, files, rfl⟩ := h
  exact .of_same (.refl d _) rfl

end

/-! ## Runs -/

section

variable {d : String} {T : NodeId → Node → Prop}

/-- What is kept of `d` on the two nodes. -/
def NamedWith (T : NodeId → Node → Prop) (x : NodeId) (nd : Node) : Prop := nd.Named ∧ T x nd

/-- The peer is asked, and not about `d`. -/
def AskedApart (d : String) (query : Query) (_ : Node) : Prop :=
  query.request.isLocal = false ∧ query.request.wire.CallSpares d

theorem guards_spared (hd : d ≠ "")
    (hT : ∀ x nd nd', T x nd → Undisturbed d nd nd' → T x nd') {x : NodeId} {nd : Node}
    (h : NamedWith T x nd) {req : Request} (hspares : req.Spares d nd)
    (htold : ∀ name ∈ req.toldName, wireString name ≠ d) (env : Env) :
    Guards (NamedWith T) (AskedApart d) x (handle env req nd) := by
  have hkept : (handle env req nd).Legs Node.Apart (fun _ nd => T x nd) (fun _ _ => True) nd :=
    (handle_undisturbed hspares).inv (I := T x) (hT x)
      (fun _ _ hstate hapart => hT x _ _ hstate (undisturbed_apart hapart)) h.2
  have hnamed := handle_named env req h.1 x nd
  have hsession := (handle_inSession env req h.1).legs (session_spares hd htold) hkept
  have hremote := handle_asks env req nd nd
  exact .of_legs (((hnamed.and hsession).and hremote).mono (fun _ _ hstate => hstate.1)
    fun _ _ hquery => ⟨hquery.2.1, hquery.1.2⟩)

theorem guard_spared (hT : ∀ x nd nd', T x nd → Undisturbed d nd nd' → T x nd') :
    Guard (NamedWith T) (AskedApart d)
      fun request => request.isLocal = false ∧ request.CallSpares d where
  apart x nd nd' h hapart := ⟨h.1.apart hapart, hT x nd nd' h.2 (undisturbed_apart hapart)⟩
  sent _ _ hquery := ⟨(isLocal_wire _).trans hquery.1, hquery.2⟩

/-- A request that is not of the tool comes from the peer. -/
theorem call_of_handled {net : Net} {event : NetEvent} {x : NodeId} {req : Request}
    (h : net.handled event = some (x, req)) (hremote : req.isLocal = false) :
    ∃ call ∈ (net.party x).inbox, call.request = req := by
  cases event with
  | request y own env =>
      unfold Net.handled at h
      dsimp only at h
      split at h
      · rename_i htakes
        cases h
        simp [hremote] at htakes
      · cases h
  | execute y i env =>
      unfold Net.handled at h
      dsimp only at h
      split at h
      · obtain ⟨call, hcall, hpair⟩ := Option.map_eq_some_iff.mp h
        cases hpair
        exact ⟨call, List.mem_of_getElem? hcall, rfl⟩
      · cases h
  | _ => cases h

/-- What spares `d` keeps, the nodes keep. -/
theorem spared_run (hd : d ≠ "")
    (hT : ∀ x nd nd', T x nd → Undisturbed d nd nd' → T x nd') {nd : NodeId → Node}
    (hboot : ∀ x, T x (nd x).rsInit) {events : List NetEvent}
    (hrun : Along Net.step (NetSpares d) (Net.boot nd) events)
    (hrestart : ∀ x, .restart x ∈ events → ∀ nd, T x nd → T x nd.rsInit) (x : NodeId) :
    T x ((events.foldl Net.step (Net.boot nd)).party x).node := by
  have hmem : Along Net.step (fun _ event => event ∈ events) (Net.boot nd) events :=
    along_of_forall (fun _ hevent _ => hevent) _
  have hkept := guarded_run (C := fun net event => NetSpares d net event ∧ event ∈ events)
    (guard_spared hT)
    (fun net event hnet hevent => ?_)
    (guarded_boot fun y => ⟨named_rsInit (nd y), hboot y⟩) (along_and hrun hmem)
  · exact (hkept x).node.2
  · constructor
    · intro y req hhandled env
      obtain ⟨hlocal, hfile⟩ := hevent.1 y req hhandled
      cases hkind : req.isLocal with
      | true =>
          obtain ⟨hspares, htold⟩ := hlocal hkind
          exact guards_spared hd hT (hnet y).node hspares htold env
      | false =>
          obtain ⟨call, hmem, rfl⟩ := call_of_handled hhandled hkind
          have hcall := ((hnet y).calls call hmem).2
          refine guards_spared hd hT (hnet y).node (spares_of_call hkind hcall hfile) ?_ env
          rw [toldName_of_not_local hkind]
          exact fun _ hname => absurd hname (by simp)
    · rintro y rfl
      exact ⟨named_rsInit _, hrestart y hevent.2 _ (hnet y).node.2⟩

end

/-- In every run of the two nodes in which the tools ask about other domains, the saved entry
of a domain is left alone or found shut off, on either node, and so is the record on a node
that is not started anew. -/
theorem neighbours_run {d : String} (hd : d ≠ "") (nd : NodeId → Node) {events : List NetEvent}
    (hrun : Along Net.step (NetSpares d) (Net.boot nd) events) (x : NodeId) :
    EntrySpared d (nd x).save ((events.foldl Net.step (Net.boot nd)).party x).node.save ∧
      (.restart x ∉ events → RecordSpared d (nd x).rsInit
        ((events.foldl Net.step (Net.boot nd)).party x).node) := by
  constructor
  · exact spared_run (T := fun y state => EntrySpared d (nd y).save state.save) hd
      (fun _ _ _ hentry h => hentry.trans h.entry) (fun _ => .refl d _) hrun
      (fun _ _ _ hentry => hentry) x
  · intro hup
    have hkept := spared_run (T := fun y state => y = x → RecordSpared d (nd y).rsInit state) hd
      (fun _ _ _ hrecord h heq => (hrecord heq).trans h.record) (fun _ _ => .inl rfl) hrun
      (fun y hmem _ _ heq => absurd (heq ▸ hmem) hup) x
    exact hkept rfl

/-- An event that serves a call other than a start. -/
theorem netSpares_call {d : String} {net : Net} {event : NetEvent}
    (h : (net.handled event).all (fun taken => !taken.2.isLocal &&
      match taken.2 with | .peerStartDomain _ _ => false | _ => true) = true) :
    NetSpares d net event := by
  intro x req hhandled
  rw [hhandled, Option.all_some, Bool.and_eq_true] at h
  refine ⟨fun hlocal => ?_, ?_⟩
  · simp [hlocal] at h
  · rintro domainName colo rfl
    cases h.2

/-- An event in which the tool asks for `req`, if it gets it. -/
theorem netSpares_request {d : String} {net : Net} {x : NodeId} {req : Request} {env : Env}
    (hspares : req.Spares d (net.party x).node)
    (htold : ∀ name ∈ req.toldName, wireString name ≠ d) :
    NetSpares d net (.request x req env) := by
  intro y own hhandled
  unfold Net.handled at hhandled
  dsimp only at hhandled
  split at hhandled
  · rename_i htakes
    cases hhandled
    refine ⟨fun _ => ⟨hspares, htold⟩, ?_⟩
    rintro domainName colo rfl
    simp [Request.isLocal] at htakes
  · cases hhandled

theorem netSpares_of_handled_eq_none {d : String} {net : Net} {event : NetEvent}
    (h : ∀ net : Net, net.handled event = none) : NetSpares d net event := by
  intro x req hhandled
  rw [h] at hhandled
  cases hhandled

/-- The domain `e` while `a` connects to `b`, defines `d` and enables it. -/
theorem neighbours_run_enabled :
    EntrySpared "e" Node.fresh.save
        ((enabledRun.foldl Net.step (Net.boot fun _ => .fresh)).party .b).node.save ∧
      (.restart .b ∉ enabledRun → RecordSpared "e" Node.fresh.rsInit
        ((enabledRun.foldl Net.step (Net.boot fun _ => .fresh)).party .b).node) := by
  have hrun : Along Net.step (NetSpares "e") (Net.boot fun _ => .fresh) enabledRun := by
    refine ⟨?_, ?_, ?_, ?_, ?_, ?_, ?_, ?_, trivial⟩
    · exact netSpares_of_handled_eq_none fun _ => rfl
    · exact netSpares_request trivial (by simp [Request.toldName])
    · exact netSpares_call (by decide +kernel)
    · exact netSpares_of_handled_eq_none fun _ => rfl
    · refine netSpares_request ?_ (by simp [Request.toldName])
      intro doc defined hload hparse
      obtain rfl : sampleDefinition "d" = doc := Option.some.inj hload
      obtain rfl : sampleDomain "d" = defined :=
        Except.ok.inj ((vmConfigParse_sample "d").symm.trans hparse)
      exact ⟨by decide, by decide +kernel⟩
    · exact netSpares_request (by decide : "d" ≠ "e") (by simp [Request.toldName]; decide +kernel)
    · exact netSpares_call (by decide +kernel)
    · exact netSpares_of_handled_eq_none fun _ => rfl
  exact neighbours_run (by decide) (fun _ => .fresh) hrun .b

end ColoManage
