import ColoManage.Launches

/-!
# The role of the node and the role of the VM

A command line takes its addresses by the role of the node, a QMP list by the
role of the domain.  `colod_colo_enable` sets the second from the first; a
connection that is made again, a status from the peer or a restart changes the
first alone.
-/

namespace ColoManage

open EventSystem

/-! ## The property -/

/-- The primary VM listens on this machine and sends to the other one, the
secondary VM dials the other machine and serves its disk on this one. -/
structure AddressesAgree (cs : ColoStatus) (cds : ColodDomainStatus) : Prop where
  primary : cds.coloStatus = .primary → priIp cs = cs.hostIp ∧ sndIp cs cds = cs.peerIp
  secondary : cds.coloStatus = .secondary → priIp cs = cs.peerIp ∧ sndIp cs cds = cs.hostIp

/-- A COLO start that calls `run_new_vm` takes the addresses of its role. -/
def LaunchesByRole (env : Env) (script : Script) (req : Request) (nd : Node) : Prop :=
  ∀ domainName, req.Starts domainName true →
    (∃ name cmd, CallsRunNewVm env script req nd name cmd) →
      AddressesAgree nd.currentStatus (nd.dom domainName)

/-- The node is the primary for a primary VM and not for a secondary one; with
one address for both machines it makes no difference. -/
def RolesMatch (cs : ColoStatus) (role : ColoDomainStatus) : Prop :=
  cs.hostIp = cs.peerIp ∨
    (role = .primary → cs.localStatus = .primary) ∧
      (role = .secondary → cs.localStatus ≠ .primary)

def LaunchesMatched (script : Script) (req : Request) (nd : Node) : Prop :=
  ∀ domainName, req.Starts domainName true → (∃ d, Launches script nd req d) →
    RolesMatch nd.currentStatus (nd.dom domainName).coloStatus

/-! ## When it holds -/

theorem addressesAgree_iff (cs : ColoStatus) (cds : ColodDomainStatus) :
    AddressesAgree cs cds ↔ RolesMatch cs cds.coloStatus := by
  have hboth : AddressesAgree cs cds ↔
      (cds.coloStatus = .primary → priIp cs = cs.hostIp) ∧
        (cds.coloStatus = .secondary → priIp cs = cs.peerIp) := by
    constructor
    · exact fun h => ⟨fun hrole => (h.primary hrole).1, fun hrole => (h.secondary hrole).1⟩
    · rintro ⟨hprimary, hsecondary⟩
      refine ⟨fun hrole => ⟨hprimary hrole, ?_⟩, fun hrole => ⟨hsecondary hrole, ?_⟩⟩
      · simp [sndIp, hrole]
      · simp [sndIp, hrole]
  rw [hboth]
  unfold RolesMatch priIp
  by_cases hnode : cs.localStatus = .primary
  · simp only [hnode, if_true, implies_true, true_and, ne_eq, not_true_eq_false]
    tauto
  · simp only [hnode, if_false, not_false_eq_true, implies_true, and_true, ne_eq]
    rw [eq_comm (a := cs.peerIp)]
    tauto

theorem launchesByRole_iff (env : Env) (script : Script) (req : Request) (nd : Node) :
    LaunchesByRole env script req nd ↔ LaunchesMatched script req nd := by
  have hcalls : (∃ name cmd, CallsRunNewVm env script req nd name cmd) ↔
      ∃ d, Launches script nd req d := by
    simp only [callsRunNewVm_iff]
    constructor
    · rintro ⟨name, cmd, d, hlaunches, -⟩
      exact ⟨d, hlaunches⟩
    · rintro ⟨d, hlaunches⟩
      exact ⟨d.name, _, d, hlaunches, rfl, rfl⟩
  unfold LaunchesByRole LaunchesMatched
  simp only [hcalls, addressesAgree_iff]

/-! ## Runs -/

def EventLaunchesByRole (server : Server) : ServerEvent → Prop
  | .request req env script => server.up = true → LaunchesByRole env script req server.node
  | _ => True

def EventLaunchesMatched (server : Server) : ServerEvent → Prop
  | .request req _ script => server.up = true → LaunchesMatched script req server.node
  | _ => True

/-- In a run the addresses of every COLO VM are those of its role exactly when
each is launched while the role of the node matches. -/
theorem along_launchesByRole_iff (server : Server) (events : List ServerEvent) :
    Along Server.step EventLaunchesByRole server events ↔
      Along Server.step EventLaunchesMatched server events := by
  apply along_congr
  intro server event
  cases event with
  | request req env script =>
      exact forall_congr' fun _ => launchesByRole_iff env script req server.node
  | _ => exact Iff.rfl

/-- The peer enables `d` as the primary and then connects again as the secondary. -/
def reconnectedSwapped : List ServerEvent :=
  [.request (.define "/root/d.yaml") (.smooth 100) [],
    .request (.peerSaveStatus ⟨.primary, 5678, "10.0.0.2", "", "", "10.0.0.1", "", ""⟩)
      (.smooth 100) [],
    .request (.peerSaveDomain ⟨-1, "d", .shutOff, true, .primary, "d.yaml"⟩) (.smooth 100) [],
    .request (.peerSaveStatus ⟨.secondary, 5678, "10.0.0.2", "", "", "10.0.0.1", "", ""⟩)
      (.smooth 100) []]

theorem not_along_launchesByRole_reconnectedSwapped :
    ¬ Along Server.step EventLaunchesByRole (Server.boot .fresh)
      (reconnectedSwapped ++ [.request (.peerStartDomain "d" true) (.smooth 200) []]) := by
  intro h
  obtain ⟨hlast, -⟩ := (along_append.mp h).2
  have hmatched := (launchesByRole_iff (.smooth 200) [] (.peerStartDomain "d" true) _).mp
    (hlast (by decide +kernel)) "d" (.inr rfl)
    ⟨sampleDomain "d", rfl, by decide +kernel, by decide +kernel⟩
  rcases hmatched with hips | ⟨-, hsecondary⟩
  · revert hips
    decide +kernel
  · exact hsecondary (by decide +kernel) (by decide +kernel)

end ColoManage
