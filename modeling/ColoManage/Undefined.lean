import ColoManage.Pair

/-!
# Requests that name an undefined domain

The handlers read `rs.domains` through `operator[]`, which inserts a record for
an absent key: pid `0`, shut off, disabled, without a name.  A signal to the
pid `0` succeeds, so the inserted record tests as shut off.  What a request for
an undefined domain returns, and what it leaves, follows from that.
-/

namespace ColoManage

open Resumption

/-! ## The property -/

/-- The twelve requests that are looked at. -/
def Request.OnDomain (domainName : String) : Request → Prop
  | .undefine name => name = domainName
  | .start name _ => name = domainName
  | .destroy name => name = domainName
  | .coloEnable name => name = domainName
  | .coloDisable name => name = domainName
  | .vmStatus name => name = domainName
  | .setParams name _ _ => name = domainName
  | .doFailover name => name = domainName
  | .domainTest name => name = domainName
  | .peerStartDomain name _ => name = domainName
  | .peerDestroyDomain name => name = domainName
  | .peerSendQmpcmds name _ => name = domainName
  | _ => False

structure NoTrace (nd nd' peer peer' : Node) : Prop where
  domains : nd'.domains = nd.domains
  save : nd'.save = nd.save
  peer : peer'.domains = peer.domains

/-- The request is refused, or is the test of a domain, and leaves no trace. -/
def RefusesCleanly (req : Request) (nd peer : Node) : Outcome Node ColodRetVal × Peer → Prop
  | (.returned ret nd', w') =>
      (ret.code < 0 ∨ ∃ domainName, req = .domainTest domainName) ∧
        NoTrace nd nd' peer w'.node
  | (.crashed _, _) => False

/-- The three requests that look the domain up before anything else, or do not
get to the table. -/
def LooksFirst (domainName : String) (nd : Node) (req : Request) : Prop :=
  req = .vmStatus domainName ∨ req = .peerStartDomain domainName false ∨
    req = .coloEnable domainName ∧
      (nd.currentStatus.localStatus = .none ∨ nd.currentStatus.localStatus = .error)

/-! ## The steps on an undefined domain -/

section

variable {domainName : String} {nd : Node}

theorem dom_of_not_mem (h : domainName ∉ nd.domains) : nd.dom domainName = default := by
  rw [Node.dom, AList.lookup_eq_none.mpr h]
  rfl

theorem testDomainStatus_of_not_mem (h : domainName ∉ nd.domains) :
    nd.testDomainStatus domainName = (.shutOff, nd.touch domainName) := by
  have hdom := dom_of_not_mem h
  have hdead : ¬ nd.FoundDead domainName := by
    rintro ⟨-, hkill⟩
    rw [hdom] at hkill
    simp [ProcessTable.kill0, show (default : ColodDomainStatus).pid = 0 from rfl] at hkill
  rw [Node.testDomainStatus_of_not_dead hdead, hdom]
  rfl

theorem getDomain_of_not_mem {nd' : Node} (hsave : nd'.save = nd.save)
    (h : domainName ∉ nd.save.names) : nd'.getDomain domainName = .error (.refused "") := by
  unfold Node.getDomain
  rw [hsave]
  exact getDomainLoop_of_not_mem _ h none

theorem mem_touch (domainName : String) (nd : Node) :
    domainName ∈ (nd.touch domainName).domains := by
  rw [← AList.lookup_isSome, Node.lookup_touch]
  simp

theorem mem_modDom (domainName : String) (f : ColodDomainStatus → ColodDomainStatus)
    (nd : Node) : domainName ∈ (nd.modDom domainName f).domains := by
  rw [← AList.lookup_isSome, Node.lookup_modDom]
  simp

end

/-! ## Leaving a trace -/

/-- The handler dies, ends with a record of the domain, or accepts a request
that should be refused. -/
def LeavesTrace (domainName : String) (req : Request) (act : Colod) : Prop :=
  act.Post Node.Meanwhile (fun _ _ => True)
    (fun ret nd => domainName ∈ nd.domains ∨ 0 ≤ ret.code ∧ ∀ name, req ≠ .domainTest name)
    (fun _ => True)

theorem meanwhile_peerServe (query : Query) (nd : Node) (w : Peer) :
    Node.Meanwhile nd (peerServe query nd w).2.1 := by
  refine ⟨[], ?_⟩
  unfold peerServe
  repeat' split
  all_goals rfl

theorem not_refusesCleanly_of_trace {domainName : String} {req : Request} {nd peer : Node}
    (hmem : domainName ∉ nd.domains) {act : Colod} (htrace : LeavesTrace domainName req act)
    (w : Peer) : ¬ RefusesCleanly req nd peer (runPair act w) := by
  have hpost := Act.exec_of_post meanwhile_peerServe htrace w
  unfold runPair
  cases hout : act.exec peerServe w with
  | mk outcome w' =>
      rw [hout] at hpost
      cases outcome with
      | crashed nd' => exact fun h => h
      | returned ret nd' =>
          rintro ⟨hcode, hnotrace⟩
          rcases hpost with hpost | ⟨hpost, hother⟩
          · exact hmem (hnotrace.domains ▸ hpost)
          · rcases hcode with hcode | ⟨name, hname⟩
            · omega
            · exact hother name hname

theorem leavesTrace_of_touch {domainName : String} {req : Request} {nd : Node}
    (ret : ColodRetVal) : LeavesTrace domainName req (.done ret (nd.touch domainName)) :=
  .inl (mem_touch domainName nd)

theorem enableAnswered_leavesTrace {domainName : String} {nd : Node}
    (hmem : domainName ∈ nd.domains) (ret : ValueT) (req : Request) :
    LeavesTrace domainName req (enableAnswered domainName ret nd) := by
  unfold enableAnswered enableFailed
  split
  · exact .inl (mem_modDom domainName _ _)
  · split
    · exact .inl (mem_modDom domainName _ _)
    · dsimp only
      split
      · exact .inl (mem_modDom domainName _ _)
      · exact .inl hmem

theorem colodColoEnable_leavesTrace {env : Env} {domainName : String} {nd : Node}
    (hrole : ¬ (nd.currentStatus.localStatus = .none ∨ nd.currentStatus.localStatus = .error))
    (req : Request) : LeavesTrace domainName req (colodColoEnable env domainName nd) := by
  unfold colodColoEnable
  rw [if_neg hrole]
  dsimp only
  generalize hset : nd.modDom domainName _ = enabled
  have hmem : domainName ∈ enabled.domains := hset ▸ mem_modDom domainName _ nd
  have hcall : ∀ {nd' : Node}, nd'.domains = enabled.domains → LeavesTrace domainName req
      (nd'.remoteCall (.peerSaveDomain (nd'.dom domainName)) (enableAnswered domainName)) := by
    intro nd' hsame
    refine Node.post_remoteCall (fun _ _ => trivial) (fun _ _ _ => trivial) ?_
    intro ret nd'' hwait
    apply enableAnswered_leavesTrace
    rw [hwait.domains, hsame]
    exact hmem
  rcases enabled.ensureRemoteClient_cases env with heq | ⟨-, heq⟩ | ⟨-, heq⟩
  · rw [heq]
    exact trivial
  · rw [heq]
    exact hcall rfl
  · rw [heq]
    exact hcall rfl

/-! ## Exactness -/

theorem refusesCleanly_done {req : Request} {ret : ColodRetVal} (hcode : ret.code < 0)
    (nd : Node) (w : Peer) : RefusesCleanly req nd w.node (runPair (.done ret nd) w) :=
  ⟨.inl hcode, rfl, rfl, rfl⟩

/-- A request for an undefined domain is refused without a trace exactly when
it is one of the three. -/
theorem refusesCleanly_iff {domainName : String} {req : Request} {nd : Node}
    (hreq : req.OnDomain domainName) (hmem : domainName ∉ nd.domains)
    (hsave : domainName ∉ nd.save.names) (env : Env) (w : Peer) :
    RefusesCleanly req nd w.node (runPair (handle env req nd) w) ↔ LooksFirst domainName nd req := by
  have htest := testDomainStatus_of_not_mem hmem
  have hget : nd.getDomain domainName = .error (.refused "") := getDomain_of_not_mem rfl hsave
  have hsame : (nd.touch domainName).save = nd.save := rfl
  have hget' : (nd.touch domainName).getDomain domainName = .error (.refused "") :=
    getDomain_of_not_mem hsame hsave
  have htouched : (nd.touch domainName).dom domainName = default := by
    rw [Node.dom_touch, dom_of_not_mem hmem]
  have htrace : ∀ act, handle env req nd = act → LeavesTrace domainName req act →
      ¬ LooksFirst domainName nd req →
        (RefusesCleanly req nd w.node (runPair (handle env req nd) w) ↔
          LooksFirst domainName nd req) := by
    intro act hact hleaves hnot
    rw [hact]
    exact iff_of_false (not_refusesCleanly_of_trace hmem hleaves w) hnot
  have htouch : ∀ ret, handle env req nd = .done ret (nd.touch domainName) →
      ¬ LooksFirst domainName nd req →
        (RefusesCleanly req nd w.node (runPair (handle env req nd) w) ↔
          LooksFirst domainName nd req) := fun ret hact =>
    htrace _ hact (leavesTrace_of_touch ret)
  cases req with
  | undefine name =>
      subst hreq
      refine htrace _ (by simp [handle, colodUndefine, htest]; rfl) ?_ (by simp [LooksFirst])
      exact .inr ⟨Int.le_refl 0, by simp⟩
  | start name colo =>
      subst hreq
      refine htouch ⟨-1, "can not get domain data."⟩ ?_ (by simp [LooksFirst])
      simp [handle, colodStart, htest, hget']
  | destroy name =>
      subst hreq
      refine htouch ⟨-1, "domain is shutoff."⟩ ?_ (by simp [LooksFirst])
      simp [handle, colodDestroy, htest]
  | coloEnable name =>
      subst hreq
      by_cases hrole : nd.currentStatus.localStatus = .none ∨ nd.currentStatus.localStatus = .error
      · refine iff_of_true ?_ (.inr (.inr ⟨rfl, hrole⟩))
        rw [handle, colodColoEnable, if_pos hrole]
        exact refusesCleanly_done (by decide) nd w
      · exact htrace _ rfl (colodColoEnable_leavesTrace hrole _) (by simpa [LooksFirst] using hrole)
  | coloDisable name =>
      subst hreq
      have hfind : nd.save.find name = none := KeyedList.find_eq_none_iff.mpr hsave
      refine htrace _ (by
        simp [handle, colodColoDisable, setDomainColoDisable, setShutOffEntry, hfind]; rfl) ?_
        (by simp [LooksFirst])
      exact .inl (mem_modDom _ _ _)
  | vmStatus name =>
      subst hreq
      refine iff_of_true ?_ (.inl rfl)
      rw [handle, colodVmStatus, hget]
      exact refusesCleanly_done (by decide) nd w
  | setParams name property value =>
      subst hreq
      refine htouch ⟨-1, "can not set params for a shutoff domain."⟩ ?_ (by simp [LooksFirst])
      rw [handle, colodSetParams, htouched]
      rfl
  | doFailover name =>
      subst hreq
      refine htouch ⟨-1, "can not do failover for a shutoff domain."⟩ ?_ (by simp [LooksFirst])
      rw [handle, colodDoFailover, htouched]
      rfl
  | domainTest name =>
      subst hreq
      refine htouch ⟨0, domainStatusToStr .shutOff⟩ ?_ (by simp [LooksFirst])
      rw [handle, colodDomainTest, htest]
  | peerStartDomain name colo =>
      subst hreq
      cases colo with
      | false => exact iff_of_true (refusesCleanly_done (by decide) nd w) (.inr (.inl rfl))
      | true =>
          refine htouch ⟨-1, "please run colo enable first."⟩ ?_ (by simp [LooksFirst])
          simp [handle, peerColodStartDomain, htouched,
            show (default : ColodDomainStatus).coloEnable = false from rfl]
  | peerDestroyDomain name =>
      subst hreq
      refine htouch ⟨-1, "can not destroy non-colo domain."⟩ ?_ (by simp [LooksFirst])
      rw [handle, peerColodDestroyDomain, htouched]
      rfl
  | peerSendQmpcmds name cds =>
      subst hreq
      refine htouch ⟨-1, "remote domain is shutoff."⟩ ?_ (by simp [LooksFirst])
      simp [handle, peerColodSendQmpcmds, htest]
  | _ => exact absurd hreq id

def idlePeer : Peer := ⟨Node.fresh.rsInit, [], 0, []⟩

theorem refusesCleanly_vmStatus :
    RefusesCleanly (.vmStatus "x") definedNode idlePeer.node
      (runPair (handle (.smooth 100) (.vmStatus "x") definedNode) idlePeer) := by
  have hreq : Request.OnDomain "x" (.vmStatus "x") := rfl
  exact (refusesCleanly_iff hreq (by decide) (by decide) _ idlePeer).mpr (.inl rfl)

theorem not_refusesCleanly_coloDisable :
    ¬ RefusesCleanly (.coloDisable "x") definedNode idlePeer.node
      (runPair (handle (.smooth 100) (.coloDisable "x") definedNode) idlePeer) := by
  rintro ⟨-, h⟩
  have hkeys := congrArg (fun domains : Domains => domains.keys) h.domains
  exact absurd hkeys (by decide)

end ColoManage
