import ColoManage.Network

/-!
# A destroy that the peer asks for

`peer_colod_destroy_domain` looks at the flag `colo_enable` of the domain and
at its process, not at its status.  The flag outlives the COLO mode: a failover
and a plain start leave it set, so the guard lets a destroy through to a VM that
runs alone.
-/

namespace ColoManage

open Resumption EventSystem

/-! ## The property -/

/-- A destroy that is executed for the peer kills a process only if the status
of the domain is that of the COLO mode. -/
def SparesAlone (net : Net) : NetEvent → Prop
  | .execute x i env => ∀ call domainName pid, (net.party x).idle = true →
      (net.party x).inbox[i]? = some call → call.request = .peerDestroyDomain domainName →
        (net.party x).node.Killed ((net.step (.execute x i env)).party x).node pid →
          ((net.party x).node.dom domainName).status = .coloEnabled
  | _ => True

/-! ## When it holds -/

/-- The domain is flagged and not shut off, and the recorded process is there
for the test and for both signals. -/
structure Node.Destroyable (env : Env) (domainName : String) (nd : Node) : Prop where
  flagged : (nd.dom domainName).coloEnable = true
  notShutOff : (nd.dom domainName).status ≠ .shutOff
  alive : (nd.dom domainName).pid ≠ -1 ∧ nd.os.kill0 (nd.dom domainName).pid = true
  recorded : ∃ pid, getDomainPid domainName nd.save = some pid ∧ Survives env nd.os pid

/-- Where a destroy of the peer goes through, the status is that of the COLO mode. -/
def EventInColo (net : Net) : NetEvent → Prop
  | .execute x i env => ∀ call domainName, (net.party x).idle = true →
      (net.party x).inbox[i]? = some call → call.request = .peerDestroyDomain domainName →
        (net.party x).node.Destroyable env domainName →
          ((net.party x).node.dom domainName).status = .coloEnabled
  | _ => True

/-! ## One execution -/

namespace Node

variable {env : Env} {domainName : String} {nd : Node}

theorem Destroyable.tested (h : nd.Destroyable env domainName) :
    domainName ∈ nd.domains ∧ ¬ nd.FoundDead domainName ∧
      nd.testDomainStatus domainName = ((nd.dom domainName).status, nd) := by
  have hdead : ¬ nd.FoundDead domainName := by
    rintro ⟨-, hkill⟩
    rw [h.alive.2] at hkill
    exact absurd hkill (by decide)
  have htest := testDomainStatus_of_not_dead hdead
  rw [if_neg h.alive.1] at htest
  have hmem : domainName ∈ nd.domains :=
    (known_of_not_shutOff (by rw [htest]; exact h.notShutOff)).1
  rw [touch_of_mem hmem] at htest
  exact ⟨hmem, hdead, htest⟩

/-- A process is killed exactly when the guards let the request through to both
signals. -/
theorem killed_peerDestroy_iff (env : Env) (domainName : String) (nd : Node) :
    (∃ pid, nd.Killed (runPeer env (.peerDestroyDomain domainName) nd).state pid) ↔
      nd.Destroyable env domainName := by
  unfold runPeer handle peerColodDestroyDomain
  simp only [testDomainStatus_touch, dom_touch]
  constructor
  · rintro ⟨pid, hkilled⟩
    split at hkilled
    · exact absurd hkilled (not_killed_of_log_eq rfl pid)
    · rename_i hflag
      split at hkilled
      · exact absurd hkilled (not_killed_of_log_eq (testDomainStatus_log domainName nd) pid)
      · rename_i hshut
        have hstatus := status_of_not_shutOff hshut
        have hself := testDomainStatus_of_not_dead (known_of_not_shutOff hshut).2
        rw [touch_of_mem (known_of_not_shutOff hshut).1] at hself
        rw [hself] at hkilled
        obtain ⟨hrecorded, hsurvives⟩ :=
          (killed_destroyHost_iff env domainName _ nd [] pid).mp hkilled
        exact ⟨by simpa using hflag, hstatus ▸ hshut,
          ⟨pid_of_not_shutOff hshut, alive_of_not_shutOff hshut⟩, pid, hrecorded, hsurvives⟩
  · intro h
    obtain ⟨-, -, htest⟩ := h.tested
    obtain ⟨pid, hrecorded, hsurvives⟩ := h.recorded
    refine ⟨pid, ?_⟩
    rw [if_neg (by simp [h.flagged]), htest]
    dsimp only
    rw [if_neg h.notShutOff]
    exact (killed_destroyHost_iff env domainName _ nd [] pid).mpr ⟨hrecorded, hsurvives⟩

end Node

theorem node_execute {net : Net} {x : NodeId} {i : ℕ} {call : Call}
    (hidle : (net.party x).idle = true) (hcall : (net.party x).inbox[i]? = some call)
    (env : Env) :
    ((net.step (.execute x i env)).party x).node =
      (runPeer env call.request (net.party x).node).state := by
  simp only [Net.step, hcall, hidle, if_true, Net.answer, Net.party_modify]
  cases runPeer env call.request (net.party x).node with
  | returned ret nd => simp [NodeId.ne_other, Outcome.state]
  | crashed nd => simp [Outcome.state]

/-- In a run every destroy of the peer spares the VMs that run alone exactly
when none goes through to a domain with another status. -/
theorem along_sparesAlone_iff (net : Net) (events : List NetEvent) :
    Along Net.step SparesAlone net events ↔ Along Net.step EventInColo net events := by
  apply along_congr
  intro net event
  cases event with
  | execute x i env =>
      constructor
      · intro h call domainName hidle hcall hrequest hdestroyable
        obtain ⟨pid, hkilled⟩ := (Node.killed_peerDestroy_iff _ _ _).mpr hdestroyable
        refine h call domainName pid hidle hcall hrequest ?_
        rw [node_execute hidle hcall, hrequest]
        exact hkilled
      · intro h call domainName pid hidle hcall hrequest hkilled
        rw [node_execute hidle hcall, hrequest] at hkilled
        exact h call domainName hidle hcall hrequest
          ((Node.killed_peerDestroy_iff _ _ _).mp ⟨pid, hkilled⟩)
  | _ => exact Iff.rfl

/-- Start the enabled domain in COLO mode on both nodes, fail over on `b`, and
ask for a destroy on `a`. -/
def failoverRun : List NetEvent :=
  enabledRun ++
    [.writeFile .b "/vm/d.yaml" (sampleDefinition "d"),
      .request .a (.start "d" true) (.smooth 100), .execute .b 0 (.smooth 200), .reply .a 0,
      .execute .b 0 (.smooth 200), .reply .a 0,
      .request .b (.doFailover "d") (.smooth 200),
      .request .a (.destroy "d") (.smooth 100)]

theorem not_sparesAlone_failover :
    ¬ Along Net.step SparesAlone (Net.boot fun _ => .fresh)
      (failoverRun ++ [.execute .b 0 (.smooth 200)]) := by
  intro h
  obtain ⟨hlast, -⟩ := (along_append.mp h).2
  have hcall : ((failoverRun.foldl Net.step (Net.boot fun _ => .fresh)).party .b).inbox[0]? =
      some ⟨4, .peerDestroyDomain "d"⟩ := by decide +kernel
  have hidle : ((failoverRun.foldl Net.step (Net.boot fun _ => .fresh)).party .b).idle = true := by
    decide +kernel
  obtain ⟨pid, hkilled⟩ := (Node.killed_peerDestroy_iff (.smooth 200) "d"
    ((failoverRun.foldl Net.step (Net.boot fun _ => .fresh)).party .b).node).mpr
      ⟨by decide +kernel, by decide +kernel, by decide +kernel, 200, by decide +kernel,
        by decide +kernel⟩
  have hstatus := hlast _ "d" pid hidle hcall rfl
    (by rw [node_execute hidle hcall]; exact hkilled)
  revert hstatus
  decide +kernel

end ColoManage
