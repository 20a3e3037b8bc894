import ColoManage.Roles

/-!
# No role twice

`RolesApart` keeps the roles of the two nodes apart in every place that can give
a domain a role, now or after a restart or a late call.
`rolesDiffer_of_eventRoles` says which steps keep it.
-/

namespace ColoManage

open Resumption EventSystem

/-- No domain has the same role on two running colods. -/
def RolesDiffer (net : Net) : Prop :=
  ∀ d role, role.IsRole → (net.party .a).up = true → (net.party .b).up = true →
    ¬ ((net.party .a).node.InRole d role ∧ (net.party .b).node.InRole d role)

/-! ## The two nodes kept apart -/

def Waiting.EndsRoleless (w : Waiting) (nd : Node) : Prop :=
  ∀ answer nd', nd.Apart nd' → Roleless nd' (w.resume answer nd')

/-- No role of a domain on both nodes, and what is under way keeps it so. -/
structure RolesApart (net : Net) : Prop where
  apart : ∀ x d role, role.IsRole → (net.party x).Gives d role →
    ¬ (net.party x.other).Gives d role
  inbox : ∀ x, ∀ call ∈ (net.party x).inbox, call.request.isLocal = false
  waiting : ∀ x w, (net.party x).waiting = some w →
    (net.party x).up = true ∧ w.EndsRoleless (net.party x).node

/-- The other node gives no role that this table and file give. -/
def Fits (net : Net) (x : NodeId) (nd : Node) : Prop :=
  ∀ d role, role.IsRole → nd.InRole d role ∨ nd.save.Gives d role →
    ¬ (net.party x.other).Gives d role

section

variable {net : Net} {x : NodeId} {nd nd' : Node}

theorem RolesApart.rolesDiffer (h : RolesApart net) : RolesDiffer net := by
  intro d role hrole ha hb hboth
  exact h.apart .a d role hrole (.inl ⟨ha, hboth.1⟩) (.inl ⟨hb, hboth.2⟩)

theorem fits_self (h : RolesApart net) (hup : (net.party x).up = true) :
    Fits net x (net.party x).node := by
  intro d role hrole hgives
  rcases hgives with hin | hsave
  · exact h.apart x d role hrole (.inl ⟨hup, hin⟩)
  · exact h.apart x d role hrole (.inr (.inl hsave))

theorem Fits.noNew (h : Fits net x nd) (hnew : nd.NoNew nd') : Fits net x nd' := by
  intro d role hrole hgives
  rcases hgives with hin | hsave
  · exact h d role hrole (.inl (hnew.table d role hrole hin))
  · exact h d role hrole (hnew.save d role hrole hsave)

theorem Fits.party (hfits : Fits net x nd) (h : RolesApart net) {p : Party} (hnode : p.node = nd)
    (hinbox : ∀ call ∈ p.inbox, call ∈ (net.party x).inbox) (d : String)
    (role : ColoDomainStatus) (hrole : role.IsRole) (hgives : p.Gives d role) :
    ¬ (net.party x.other).Gives d role := by
  rcases hgives with ⟨-, hin⟩ | hsave | ⟨call, hcall, hrequest⟩
  · exact hfits d role hrole (.inl (hnode ▸ hin))
  · exact hfits d role hrole (.inr (hnode ▸ hsave))
  · exact h.apart x d role hrole (.inr (.inr ⟨call, hinbox call hcall, hrequest⟩))

theorem rolesApart_modify (h : RolesApart net) {f : Party → Party}
    (hgives : ∀ d role, role.IsRole → (f (net.party x)).Gives d role →
      ¬ (net.party x.other).Gives d role)
    (hinbox : ∀ call ∈ (f (net.party x)).inbox, call.request.isLocal = false)
    (hwaiting : ∀ w, (f (net.party x)).waiting = some w →
      (f (net.party x)).up = true ∧ w.EndsRoleless (f (net.party x)).node) :
    RolesApart (net.modify x f) := by
  have hself : (net.modify x f).party x = f (net.party x) := by simp
  have hother : (net.modify x f).party x.other = net.party x.other := by simp [NodeId.other_ne]
  refine ⟨?_, ?_, ?_⟩
  · intro y d role hrole hgive
    rcases NodeId.eq_or_eq_other x y with rfl | rfl
    · rw [hself] at hgive
      rw [hother]
      exact hgives d role hrole hgive
    · rw [hother] at hgive
      rw [NodeId.other_other, hself]
      exact fun hgive' => hgives d role hrole hgive' hgive
  · intro y
    rcases NodeId.eq_or_eq_other x y with rfl | rfl
    · rwa [hself]
    · rw [hother]
      exact h.inbox x.other
  · intro y
    rcases NodeId.eq_or_eq_other x y with rfl | rfl
    · rwa [hself]
    · rw [hother]
      exact h.waiting x.other

theorem isLocal_wire (request : Request) : request.wire.isLocal = request.isLocal := by
  cases request <;> rfl

theorem not_gives_wire {request : Request} (hsave : ∀ ds, request ≠ .peerSaveDomain ds)
    (d : String) (role : ColoDomainStatus) : ¬ request.wire.Gives d role := by
  rintro ⟨ds, heq, -⟩
  cases request with
  | peerSaveDomain ds => exact hsave ds rfl
  | _ => simp [Request.wire] at heq

theorem rolesApart_send (h : RolesApart net) {request : Request}
    (hlocal : request.isLocal = false)
    (hgives : ∀ d role, role.IsRole → request.wire.Gives d role →
      ¬ (net.party x).Gives d role) (socketId : ℕ) :
    RolesApart (net.send x socketId request) := by
  have hlast := rolesApart_modify (x := x) h
    (f := fun p => { p with lastSent := some (socketId, net.nextCall) })
    (h.apart x) (h.inbox x) (h.waiting x)
  have hinbox : RolesApart ((net.modify x fun p =>
      { p with lastSent := some (socketId, net.nextCall) }).modify x.other fun p =>
        { p with inbox := p.inbox ++ [⟨net.nextCall, request.wire⟩] }) := by
    refine rolesApart_modify hlast ?_ ?_ (hlast.waiting x.other)
    · intro d role hrole hgive
      rcases hgive with hin | hsave | ⟨call, hcall, hrequest⟩
      · exact hlast.apart x.other d role hrole (.inl hin)
      · exact hlast.apart x.other d role hrole (.inr (.inl hsave))
      · rcases List.mem_append.mp hcall with hold | hcall
        · exact hlast.apart x.other d role hrole (.inr (.inr ⟨call, hold, hrequest⟩))
        · rw [List.mem_singleton.mp hcall] at hrequest
          have hnone := hgives d role hrole hrequest
          simpa [Party.Gives] using hnone
    · intro call hcall
      rcases List.mem_append.mp hcall with hold | hcall
      · exact hlast.inbox x.other call hold
      · rw [List.mem_singleton.mp hcall, isLocal_wire, hlocal]
  exact ⟨hinbox.apart, hinbox.inbox, hinbox.waiting⟩

theorem rolesApart_await (h : RolesApart net) (hup : (net.party x).up = true)
    (hfits : Fits net x nd) {query : Query} {resume : Option ValueT → Node → Colod}
    (hlocal : query.request.isLocal = false)
    (hgives : query.sent = true → ∀ d role, role.IsRole → query.request.wire.Gives d role →
      ¬ Party.Gives { net.party x with node := nd } d role)
    (hresume : Waiting.EndsRoleless ⟨query, resume⟩ nd) :
    RolesApart (net.settle x (.await query nd resume)) := by
  have hwaits : RolesApart (net.modify x fun p =>
      { p with node := nd, waiting := some ⟨query, resume⟩ }) := by
    refine rolesApart_modify h (hfits.party h rfl fun _ hcall => hcall) (h.inbox x) ?_
    intro w hw
    obtain rfl := Option.some.inj hw
    exact ⟨hup, hresume⟩
  unfold Net.settle
  dsimp only
  split
  · rename_i socket hsent _
    refine rolesApart_send hwaits hlocal ?_ socket.id
    intro d role hrole hgive
    have hnone := hgives hsent d role hrole hgive
    simpa [Party.Gives] using hnone
  · exact hwaits

theorem rolesApart_settle (h : RolesApart net) (hup : (net.party x).up = true)
    (hfits : Fits net x nd) {act : Colod} (hact : Roleless nd act) :
    RolesApart (net.settle x act) := by
  unfold Net.settle
  cases act with
  | done value nd' =>
      have hfits' : Fits net x nd' := hfits.noNew hact
      exact rolesApart_modify h (hfits'.party h rfl fun _ hcall => hcall) (h.inbox x) (by simp)
  | crash nd' =>
      have hfits' : Fits net x nd' := hfits.noNew hact
      exact rolesApart_modify h (hfits'.party h rfl fun _ hcall => hcall) (h.inbox x) (by simp)
  | await query nd' resume =>
      obtain ⟨⟨hnew, hlocal, hsave⟩, hresume⟩ := hact
      refine rolesApart_await h hup (hfits.noNew hnew) hlocal ?_ hresume
      intro _ d role _ hgive
      exact absurd hgive (not_gives_wire hsave d role)

end

/-! ## The requests that give a role -/

def Node.ownRole (nd : Node) : ColoDomainStatus :=
  enabledRole nd.currentStatus.localStatus .none

def Node.peerRole (nd : Node) : ColoDomainStatus :=
  if nd.ownRole = .primary then .secondary else .primary

/-- The name under which the peer stores a domain. -/
def Node.peerName (domainName : String) (nd : Node) : String :=
  wireString (nd.dom domainName).name

def Node.EnableWaits (env : Env) (nd : Node) : Prop :=
  (nd.currentStatus.localStatus = .primary ∨ nd.currentStatus.localStatus = .secondary) ∧
    ∃ nd', nd.ensureRemoteClient env = .ok nd' ∧ nd'.remoteClient.usable = true

/-- Enabling gives the domain no role that the other node has or will have, and
the call, if it is sent, gives the other node none that this one has or will
have; the record that is about to be overwritten does not matter. -/
structure EnableApart (net : Net) (x : NodeId) (domainName : String) : Prop where
  here : ¬ (net.party x.other).Gives domainName (net.party x).node.ownRole
  save : (net.party x).node.remoteClient.sends = true →
    ¬ (net.party x).node.save.Gives ((net.party x).node.peerName domainName)
      (net.party x).node.peerRole
  inbox : (net.party x).node.remoteClient.sends = true → ∀ call ∈ (net.party x).inbox,
    ¬ call.request.Gives ((net.party x).node.peerName domainName) (net.party x).node.peerRole
  table : (net.party x).node.remoteClient.sends = true →
    (net.party x).node.peerName domainName ≠ domainName →
      ¬ (net.party x).node.InRole ((net.party x).node.peerName domainName)
        (net.party x).node.peerRole

/-- A definition that is written over the save file gives no domain a role that
the other node has or will have. -/
def DefineApart (net : Net) (x : NodeId) (vmFilePath : String) : Prop :=
  ∀ doc d, (net.party x).node.loadFile vmFilePath = some doc → vmConfigParse doc = .ok d →
    (net.party x).node.definitionFile d.name = some defaultSaveFile →
      ∀ name role, role.IsRole → (SaveFile.ofYaml doc).Gives name role →
        ¬ (net.party x.other).Gives name role

/-- The steps that keep the roles apart. -/
def EventRoles (net : Net) : NetEvent → Prop
  | .request x (.coloEnable domainName) env => (net.party x).idle = true →
      (net.party x).node.EnableWaits env → EnableApart net x domainName
  | .request x (.define vmFilePath) _ =>
      (net.party x).idle = true → DefineApart net x vmFilePath
  | _ => True

section

variable {net : Net} {x : NodeId}

theorem inRole_of_setDom {nd : Node} {name d : String} {ds : ColodDomainStatus}
    {role : ColoDomainStatus} (h : (nd.setDom name ds).InRole d role) :
    nd.InRole d role ∨ d = name ∧ ds.coloEnable = true ∧ ds.coloStatus = role := by
  unfold Node.InRole at h ⊢
  rw [Node.dom_setDom] at h
  split at h
  · rename_i hname
    exact .inr ⟨hname, h⟩
  · exact .inl h

theorem rolesApart_define (h : RolesApart net) (hup : (net.party x).up = true)
    {vmFilePath : String} (hdefine : DefineApart net x vmFilePath) :
    RolesApart (net.settle x (colodDefine vmFilePath (net.party x).node)) := by
  have hself := fits_self h hup
  unfold colodDefine
  split
  · exact rolesApart_settle h hup hself (Node.NoNew.refl _)
  · exact rolesApart_settle h hup hself (Node.NoNew.refl _)
  · rename_i d nd hvm
    obtain ⟨doc, hload, hparse, rfl⟩ := Node.vmDefine_eq_ok hvm
    have hfits : Fits net x ((net.party x).node.saveNewVmFile doc d.name
        (net.party x).node.currentStatus.hostFilePath) := by
      refine Node.of_saveNewVmFile hself fun file hfile => ?_
      unfold Node.writeFile
      split
      · rename_i hpath
        intro name role hrole hgives
        rcases hgives with hin | hsave
        · exact hself name role hrole (.inl (hin.congr rfl))
        · exact hdefine doc d hload hparse (hpath ▸ hfile) name role hrole hsave
      · exact hself.noNew (.of_same rfl rfl)
    generalize (net.party x).node.saveNewVmFile doc d.name
      (net.party x).node.currentStatus.hostFilePath = nd at hfits ⊢
    dsimp only
    split
    · exact rolesApart_settle h hup hfits (Node.NoNew.refl _)
    · rename_i save hsaved
      have hfile : nd.NoNew (nd.setSave save) :=
        .of_save rfl fun _ _ hgives => gives_saveDomainInfo hsaved hgives
      refine rolesApart_settle h hup (hfits.noNew hfile) ?_
      exact Node.noNew_setDom fun _ _ henable => absurd henable (by simp)

theorem rolesApart_crash (h : RolesApart net) {nd : Node}
    (hsave : nd.save = (net.party x).node.save) : RolesApart (net.settle x (.crash nd)) := by
  unfold Net.settle
  refine rolesApart_modify h ?_ (h.inbox x) (by simp)
  rintro d role hrole (⟨hup, -⟩ | hgives | hcall)
  · exact absurd hup (by simp)
  · exact h.apart x d role hrole (.inr (.inl (hsave ▸ hgives)))
  · exact h.apart x d role hrole (.inr (.inr hcall))

/-- The state in which `colod_colo_enable` calls the peer. -/
def Node.marked (domainName : String) (nd : Node) : Node :=
  nd.modDom domainName fun ds =>
    { ds with
      coloEnable := true
      coloStatus := enabledRole nd.currentStatus.localStatus ds.coloStatus }

theorem colodColoEnable_marked (env : Env) (domainName : String) (nd : Node) :
    colodColoEnable env domainName nd =
      if nd.currentStatus.localStatus = .none ∨ nd.currentStatus.localStatus = .error then
        .done ⟨-1, "please connect peer colod first."⟩ nd
      else
        match (nd.marked domainName).ensureRemoteClient env with
        | .error nd => .crash nd
        | .ok nd =>
            nd.remoteCall (.peerSaveDomain (nd.dom domainName)) (enableAnswered domainName) :=
  rfl

theorem ensureRemoteClient_marked (env : Env) (domainName : String) (nd : Node) :
    (nd.marked domainName).ensureRemoteClient env = .error (nd.marked domainName) ∨
      ∃ nd', nd.ensureRemoteClient env = .ok nd' ∧
        (nd.marked domainName).ensureRemoteClient env = .ok (nd'.marked domainName) ∧
        (nd'.marked domainName).domains = (nd.marked domainName).domains ∧
        nd'.save = nd.save ∧ nd'.remoteClient.sends = nd.remoteClient.sends := by
  unfold Node.ensureRemoteClient Node.setRemoteClient
  have hinit : (nd.marked domainName).remoteClientInit = nd.remoteClientInit := rfl
  have hip : (nd.marked domainName).currentStatus = nd.currentStatus := rfl
  rw [hinit, hip]
  split
  · exact .inr ⟨nd, rfl, rfl, rfl, rfl, rfl⟩
  · split
    · exact .inr ⟨_, rfl, rfl, rfl, rfl, rfl⟩
    · exact .inl rfl

theorem dom_marked {domainName : String} {nd : Node}
    (hstatus : nd.currentStatus.localStatus = .primary ∨
      nd.currentStatus.localStatus = .secondary) :
    (nd.marked domainName).dom domainName =
      { nd.dom domainName with coloEnable := true, coloStatus := nd.ownRole } := by
  rw [Node.marked, Node.dom_modDom_self, Node.ownRole]
  rcases hstatus with hlocal | hlocal <;> rw [hlocal] <;> rfl

theorem gives_marked {domainName d : String} {nd : Node} {role : ColoDomainStatus}
    (hstatus : nd.currentStatus.localStatus = .primary ∨
      nd.currentStatus.localStatus = .secondary)
    (h : (Request.peerSaveDomain ((nd.marked domainName).dom domainName)).wire.Gives d role) :
    d = nd.peerName domainName ∧ role = nd.peerRole := by
  rw [dom_marked hstatus] at h
  obtain ⟨ds, heq, rfl, rfl⟩ := h
  obtain rfl := Request.peerSaveDomain.inj heq
  exact ⟨rfl, rfl⟩

theorem peerRole_ne_ownRole (nd : Node) : nd.peerRole ≠ nd.ownRole := by
  unfold Node.peerRole
  split
  · rename_i hprimary
    rw [hprimary]
    decide
  · rename_i hprimary
    exact fun heq => hprimary heq.symm

theorem rolesApart_enableCall (h : RolesApart net) (hup : (net.party x).up = true)
    {domainName : String} {nd : Node}
    (hstatus : (net.party x).node.currentStatus.localStatus = .primary ∨
      (net.party x).node.currentStatus.localStatus = .secondary)
    (hdomains : nd.domains = ((net.party x).node.marked domainName).domains)
    (hsave : nd.save = (net.party x).node.save)
    (hsends : nd.remoteClient.sends = (net.party x).node.remoteClient.sends)
    (henable : nd.remoteClient.usable = true → EnableApart net x domainName) :
    RolesApart (net.settle x
      (nd.remoteCall (.peerSaveDomain (nd.dom domainName)) (enableAnswered domainName))) := by
  have hdom : nd.dom domainName = ((net.party x).node.marked domainName).dom domainName := by
    unfold Node.dom
    rw [hdomains]
  by_cases husable : nd.remoteClient.usable = true
  · have hapart := henable husable
    rw [Node.remoteCall_of_usable husable]
    refine rolesApart_await h hup ?_ rfl ?_ ?_
    · intro d role hrole hgives
      rcases hgives with hin | hfile
      · have hmarked : ((net.party x).node.marked domainName).InRole d role := hin.congr hdomains
        rcases inRole_of_setDom hmarked with hold | ⟨rfl, -⟩
        · exact fits_self h hup d role hrole (.inl hold)
        · have hown := hmarked.2
          rw [dom_marked hstatus] at hown
          rw [← hown]
          exact hapart.here
      · exact h.apart x d role hrole (.inr (.inl (hsave ▸ hfile)))
    · intro hsent d role hrole hgives
      have hsent' : (net.party x).node.remoteClient.sends = true := hsends ▸ hsent
      obtain ⟨rfl, rfl⟩ := gives_marked hstatus (by rwa [← hdom])
      rintro (⟨-, hin⟩ | hfile | ⟨call, hcall, hrequest⟩)
      · have hmarked : ((net.party x).node.marked domainName).InRole _ _ := hin.congr hdomains
        by_cases hname : (net.party x).node.peerName domainName = domainName
        · have hpeer := hmarked.2
          rw [hname, dom_marked hstatus] at hpeer
          exact peerRole_ne_ownRole _ hpeer.symm
        · rcases inRole_of_setDom hmarked with hold | ⟨hsame, -⟩
          · exact hapart.table hsent' hname hold
          · exact hname hsame
      · exact hapart.save hsent' (hsave ▸ hfile)
      · exact hapart.inbox hsent' call hcall hrequest
    · intro answer nd' hwait
      have henabled : (nd'.dom domainName).coloEnable = true := by
        have hsame : nd'.dom domainName = nd.dom domainName := by
          obtain ⟨os, files, rfl⟩ := hwait
          rfl
        rw [hsame, hdom, dom_marked hstatus]
      have hrest : ∀ ret (nd'' : Node), nd''.domains = nd'.domains → nd''.save = nd'.save →
          Roleless nd' (enableAnswered domainName ret nd'') := by
        intro ret nd'' hdomains hsave
        have hsame : nd''.dom domainName = nd'.dom domainName := by
          unfold Node.dom
          rw [hdomains]
        have hroleless : Roleless nd'' (enableAnswered domainName ret nd'') :=
          enableAnswered_roleless (by rwa [hsame]) ret
        exact hroleless.of_first fun _ => (Node.NoNew.of_same hdomains hsave).trans
      cases answer with
      | none => exact hrest .timeout (nd'.setErrorCode .recvTimeout) rfl rfl
      | some reply => exact hrest reply nd'.replied rfl rfl
  · rw [Node.remoteCall_of_not_usable (by simpa using husable)]
    exact rolesApart_crash h hsave

theorem rolesApart_enable (h : RolesApart net) (hup : (net.party x).up = true) {env : Env}
    {domainName : String}
    (henable : (net.party x).node.EnableWaits env → EnableApart net x domainName) :
    RolesApart (net.settle x (colodColoEnable env domainName (net.party x).node)) := by
  rw [colodColoEnable_marked]
  split
  · exact rolesApart_settle h hup (fits_self h hup) (Node.NoNew.refl _)
  · rename_i hlocal
    have hstatus : (net.party x).node.currentStatus.localStatus = .primary ∨
        (net.party x).node.currentStatus.localStatus = .secondary := by
      cases hcase : (net.party x).node.currentStatus.localStatus <;> simp [hcase] at hlocal ⊢
    rcases ensureRemoteClient_marked env domainName (net.party x).node with
      hensure | ⟨nd, hnode, hensure, hdomains, hsave, hsends⟩
    · rw [hensure]
      exact rolesApart_crash h rfl
    · rw [hensure]
      exact rolesApart_enableCall h hup hstatus hdomains hsave hsends fun husable =>
        henable ⟨hstatus, nd, hnode, husable⟩

theorem fits_peerSaveDomain (h : RolesApart net) (hup : (net.party x).up = true)
    {ds : ColodDomainStatus}
    (hds : ∀ role, role.IsRole → (mirrorDomain ds).coloStatus = role →
      ¬ (net.party x.other).Gives ds.name role) :
    Fits net x ((peerColodSaveDomain ds (net.party x).node).follow Node.osAfter []).state := by
  have hself := fits_self h hup
  unfold peerColodSaveDomain
  dsimp only
  split
  · exact hself
  · rename_i save hsaved
    have hfile : ∀ d role, save.Gives d role → (net.party x).node.save.Gives d role :=
      fun _ _ hgives => gives_saveDomainInfo hsaved hgives
    split
    · exact hself.noNew (.of_save rfl hfile)
    · intro d role hrole hgives
      rcases hgives with hin | hsave
      · rcases inRole_of_setDom hin with hin | ⟨rfl, -, hstatus⟩
        · exact hself d role hrole (.inl (hin.congr rfl))
        · exact hds role hrole hstatus
      · rcases gives_setDomainColoEnable hsave with hold | ⟨rfl, rfl⟩
        · exact hself d role hrole (.inr (hfile d role hold))
        · rw [mirrorDomain_name]
          exact hds _ hrole rfl

/-- The peer executes a call: what it stores was in its inbox before. -/
theorem fits_runPeer (h : RolesApart net) (hup : (net.party x).up = true) {call : Call}
    (hcall : call ∈ (net.party x).inbox) (env : Env) :
    Fits net x (runPeer env call.request (net.party x).node).state := by
  have hlocal := h.inbox x call hcall
  by_cases hsave : ∃ ds, call.request = .peerSaveDomain ds
  · obtain ⟨ds, hds⟩ := hsave
    rw [hds]
    refine fits_peerSaveDomain h hup ?_
    intro role hrole hstatus
    exact h.apart x ds.name role hrole (.inr (.inr ⟨call, hcall, ds, hds, rfl, hstatus⟩))
  · have hreq : ¬ call.request.MayGive := by
      intro hgive
      cases hrequest : call.request with
      | define path => simp [hrequest, Request.isLocal] at hlocal
      | coloEnable domainName => simp [hrequest, Request.isLocal] at hlocal
      | peerSaveDomain ds => exact hsave ⟨ds, hrequest⟩
      | _ => simp [hrequest, Request.MayGive] at hgive
    have hroleless := handle_roleless env hreq (net.party x).node
    exact (fits_self h hup).noNew (Act.follow_nil_of_legs hroleless)

theorem rolesApart_keep (h : RolesApart net) {f : Party → Party}
    (hup : (f (net.party x)).up = (net.party x).up)
    (hapart : (net.party x).node.Apart (f (net.party x)).node)
    (hinbox : ∀ call ∈ (f (net.party x)).inbox, call ∈ (net.party x).inbox)
    (hwaiting : (f (net.party x)).waiting = (net.party x).waiting) :
    RolesApart (net.modify x f) := by
  have hsame : (f (net.party x)).node.domains = (net.party x).node.domains ∧
      (f (net.party x)).node.save = (net.party x).node.save := by
    obtain ⟨os, files, heq⟩ := hapart
    rw [heq]
    exact ⟨rfl, rfl⟩
  refine rolesApart_modify h ?_ (fun call hcall => h.inbox x call (hinbox call hcall)) ?_
  · rintro d role hrole (⟨hrun, hin⟩ | hgives | ⟨call, hcall, hrequest⟩)
    · exact h.apart x d role hrole (.inl ⟨hup ▸ hrun, hin.congr hsame.1⟩)
    · exact h.apart x d role hrole (.inr (.inl (hsame.2 ▸ hgives)))
    · exact h.apart x d role hrole (.inr (.inr ⟨call, hinbox call hcall, hrequest⟩))
  · intro w hw
    obtain ⟨hrun, hroleless⟩ := h.waiting x w (hwaiting ▸ hw)
    exact ⟨hup ▸ hrun, fun answer nd' hwait => hroleless answer nd' (hapart.trans hwait)⟩

theorem rolesApart_execute (h : RolesApart net) (hidle : (net.party x).idle = true) {i : ℕ}
    {call : Call} (hcall : (net.party x).inbox[i]? = some call) (env : Env) :
    RolesApart ((net.modify x fun p => { p with inbox := p.inbox.eraseIdx i }).answer x call
      env) := by
  rw [Party.idle_iff] at hidle
  have herase : RolesApart (net.modify x fun p => { p with inbox := p.inbox.eraseIdx i }) :=
    rolesApart_keep h rfl (Node.apart_refl _) (fun _ hmem => List.mem_of_mem_eraseIdx hmem) rfl
  have hfits : Fits (net.modify x fun p => { p with inbox := p.inbox.eraseIdx i }) x
      (runPeer env call.request (net.party x).node).state := by
    intro d role hrole hgives
    have hnone := fits_runPeer h hidle.1 (List.mem_of_getElem? hcall) env d role hrole hgives
    simpa [NodeId.other_ne] using hnone
  unfold Net.answer
  simp only [Net.party_modify, if_true]
  split
  · rename_i ret nd hrun
    rw [hrun] at hfits
    have hnode := rolesApart_modify herase (f := fun p => { p with node := nd })
      (hfits.party herase rfl fun _ hmem => hmem) (herase.inbox x) (by simp [hidle.2])
    exact rolesApart_keep hnode rfl (Node.apart_refl _) (fun _ hmem => hmem) rfl
  · rename_i nd hrun
    rw [hrun] at hfits
    exact rolesApart_modify herase (hfits.party herase rfl fun _ hmem => hmem)
      (herase.inbox x) (by simp [hidle.2])

theorem rolesApart_step (h : RolesApart net) {event : NetEvent} (hevent : EventRoles net event) :
    RolesApart (net.step event) := by
  unfold Net.step
  cases event with
  | request x req env =>
      dsimp only
      split
      · rename_i hgo
        rw [Bool.and_eq_true] at hgo
        have hup : (net.party x).up = true := (Party.idle_iff.mp hgo.1).1
        by_cases hreq : req.MayGive
        · cases req with
          | define vmFilePath => exact rolesApart_define h hup (hevent hgo.1)
          | coloEnable domainName => exact rolesApart_enable h hup (hevent hgo.1)
          | peerSaveDomain ds => simp [Request.isLocal] at hgo
          | _ => exact absurd hreq (by simp [Request.MayGive])
        · exact rolesApart_settle h hup (fits_self h hup) (handle_roleless env hreq _)
      · exact h
  | execute x i env =>
      dsimp only
      split
      · exact h
      · rename_i call hcall
        split
        · rename_i hidle
          exact rolesApart_execute h hidle hcall env
        · exact h
  | dropCall x i =>
      dsimp only
      exact rolesApart_keep h rfl (Node.apart_refl _)
        (fun _ hmem => List.mem_of_mem_eraseIdx hmem) rfl
  | dropReply x i =>
      dsimp only
      exact rolesApart_keep h rfl (Node.apart_refl _) (fun _ hmem => hmem) rfl
  | reply x i =>
      dsimp only
      split
      · rename_i w reply hw hreply
        split
        · obtain ⟨hup, hroleless⟩ := h.waiting x w hw
          have herase : RolesApart (net.modify x fun p =>
              { p with replies := p.replies.eraseIdx i }) :=
            rolesApart_keep h rfl (Node.apart_refl _) (fun _ hmem => hmem) rfl
          have hnoted : ∀ taken : List Taken, RolesApart { net.modify x fun p =>
              { p with replies := p.replies.eraseIdx i } with taken } :=
            fun _ => ⟨herase.apart, herase.inbox, herase.waiting⟩
          refine rolesApart_settle (hnoted _) (by simpa using hup) (fits_self (hnoted _)
            (by simpa using hup)) ?_
          exact hroleless _ _ (by simpa using Node.apart_refl _)
        · exact h
      · exact h
  | timeout x =>
      dsimp only
      split
      · rename_i w hw
        obtain ⟨hup, hroleless⟩ := h.waiting x w hw
        exact rolesApart_settle h hup (fits_self h hup) (hroleless none _ (Node.apart_refl _))
      · exact h
  | restart x =>
      dsimp only
      refine rolesApart_modify h ?_ (h.inbox x) (by simp)
      rintro d role hrole (⟨-, hin⟩ | hgives | hcall)
      · exact h.apart x d role hrole (.inr (.inl (Node.gives_of_inRole_rsInit hin)))
      · exact h.apart x d role hrole (.inr (.inl hgives))
      · exact h.apart x d role hrole (.inr (.inr hcall))
  | os x event =>
      dsimp only
      exact rolesApart_keep h rfl (Node.apart_osAfter _ _) (fun _ hmem => hmem) rfl
  | writeFile x path doc =>
      dsimp only
      split
      · exact h
      · rename_i hpath
        exact rolesApart_keep h rfl (Node.apart_writeFile hpath _ _) (fun _ hmem => hmem) rfl

end

/-! ## Whole runs -/

theorem rolesApart_boot {nd : NodeId → Node}
    (hsaved : ∀ d role, role.IsRole → (nd .a).save.Gives d role →
      ¬ (nd .b).save.Gives d role) : RolesApart (Net.boot nd) := by
  have hfile : ∀ x d role, ((Net.boot nd).party x).Gives d role → (nd x).save.Gives d role := by
    rintro x d role (⟨-, hin⟩ | hgives | ⟨call, hcall, -⟩)
    · exact Node.gives_of_inRole_rsInit hin
    · exact hgives
    · simp [Net.boot] at hcall
  refine ⟨?_, by simp [Net.boot], by simp [Net.boot]⟩
  intro x d role hrole hgives hgives'
  have hx := hfile x d role hgives
  have hother := hfile x.other d role hgives'
  cases x with
  | a => exact hsaved d role hrole hx hother
  | b => exact hsaved d role hrole hother hx

/-- Swap the nodes and enable from the other side: the reply is lost, and a
restart brings back the role that is left in the file. -/
def swappedRun : List NetEvent :=
  enabledRun ++
    [.writeFile .b "/root/peer.yaml" (connectDocument "primary" "10.0.0.2" "10.0.0.1"),
      .request .b (.connectPeer "/root/peer.yaml") (.smooth 100),
      .execute .a 0 (.smooth 100),
      .reply .b 0,
      .request .b (.coloEnable "d") (.smooth 100),
      .execute .a 0 (.smooth 100),
      .timeout .b,
      .restart .b]

end ColoManage
