import ColoManage.Host

/-!
# Whether an exit is noticed

`test_domain_status` asks with `kill(pid, 0)` whether the VM on record is there.
A child that has ended stays a zombie as long as colod runs, and a zombie
answers.  `always_noticesExits_iff` says in which runs each exit is noticed all
the same.
-/

namespace ColoManage

open EventSystem

def Effect.launches (name : String) : Effect → Bool
  | .launch launched _ _ => launched == name
  | _ => false

/-- A host with the VMs of the running colod that have ended, and for whose
domain none was launched since. -/
structure Vigil where
  host : Host
  ended : List VmProcess

/-- The children that stop running between two states. -/
def Host.stopped (host host' : Host) : List VmProcess :=
  host.node.os.vms.filter fun vm =>
    vm.running && host.children.contains vm.pid && !host'.node.os.vms.contains vm

namespace Vigil

def boot (nd : Node) : Vigil := ⟨Host.boot nd, []⟩

def step (vigil : Vigil) (event : HostEvent) : Vigil where
  host := vigil.host.step event
  ended :=
    match event with
    | .restart => []
    | _ =>
        if (vigil.host.step event).up then
          (vigil.ended ++ vigil.host.stopped (vigil.host.step event)).filter fun vm =>
            !((vigil.host.step event).node.since vigil.host.node.log.length).any
              (Effect.launches vm.name)
        else []

/-- Each VM that has ended is noticed: its domain tests as shut off. -/
def NoticesExits (vigil : Vigil) : Prop :=
  ∀ vm ∈ vigil.ended, (vigil.host.node.testDomainStatus vm.name).1 = .shutOff

end Vigil

/-- The record of the VM's domain is marked shut off, or it names no process, or
it names another one that is gone. -/
def Node.Forgets (nd : Node) (vm : VmProcess) : Prop :=
  (nd.dom vm.name).status = .shutOff ∨ (nd.dom vm.name).pid = -1 ∨
    ((nd.dom vm.name).pid ≠ vm.pid ∧ nd.os.kill0 (nd.dom vm.name).pid = false)

def Vigil.ForgetsEnded (vigil : Vigil) : Prop :=
  ∀ vm ∈ vigil.ended, vigil.host.node.Forgets vm

instance (vigil : Vigil) : Decidable vigil.NoticesExits :=
  inferInstanceAs (Decidable (∀ vm ∈ vigil.ended,
    (vigil.host.node.testDomainStatus vm.name).1 = .shutOff))

instance (nd : Node) (vm : VmProcess) : Decidable (nd.Forgets vm) :=
  inferInstanceAs (Decidable (_ ∨ _ ∨ (_ ∧ _)))

instance (vigil : Vigil) : Decidable vigil.ForgetsEnded :=
  inferInstanceAs (Decidable (∀ vm ∈ vigil.ended, vigil.host.node.Forgets vm))

/-! ## The children that have ended -/

section

variable {nd : Node} {vm : VmProcess} {vigil : Vigil} {event : HostEvent}

theorem testDomainStatus_eq_shutOff_iff (domainName : String) (nd : Node) :
    (nd.testDomainStatus domainName).1 = .shutOff ↔
      (nd.dom domainName).status = .shutOff ∨ (nd.dom domainName).pid = -1 ∨
        nd.os.kill0 (nd.dom domainName).pid = false := by
  by_cases hdead : nd.FoundDead domainName
  · rw [Node.testDomainStatus_of_dead hdead]
    exact iff_of_true rfl (.inr (.inr hdead.2))
  · rw [Node.testDomainStatus_of_not_dead hdead]
    by_cases hpid : (nd.dom domainName).pid = -1
    · simp [hpid]
    · have halive : nd.os.kill0 (nd.dom domainName).pid = true := by
        by_contra hkill
        exact hdead ⟨hpid, by simpa using hkill⟩
      simp [hpid, halive]

/-- The test of a domain whose VM is a zombie. -/
theorem noticed_iff (hzombie : nd.os.kill0 vm.pid = true) :
    (nd.testDomainStatus vm.name).1 = .shutOff ↔ nd.Forgets vm := by
  rw [testDomainStatus_eq_shutOff_iff]
  unfold Node.Forgets
  refine or_congr_right (or_congr_right ?_)
  constructor
  · intro hgone
    refine ⟨?_, hgone⟩
    intro hsame
    rw [hsame, hzombie] at hgone
    cases hgone
  · exact fun h => h.2

/-- The invariant of a vigil: the children are in the table, and what has ended
was a child. -/
structure Watched (vigil : Vigil) : Prop where
  host : vigil.host.Holds Kept fun born env req _ nd => Kept born nd ∧ Spared born env req nd
  ended : ∀ vm ∈ vigil.ended, vigil.host.up = true ∧ vm.pid ∈ vigil.host.children

theorem Watched.zombie (h : Watched vigil) (hvm : vm ∈ vigil.ended) :
    vigil.host.node.os.kill0 vm.pid = true := by
  obtain ⟨hup, hchild⟩ := h.ended vm hvm
  unfold Host.children at hchild
  rw [if_pos hup] at hchild
  obtain ⟨name, cmd, hmem⟩ := mem_launchedSince.mp hchild
  exact ((h.host.node hup).has name cmd vm.pid hmem).kill0

theorem children_step (h : Watched vigil) (hevent : event ≠ .restart)
    (hup : (vigil.host.step event).up = true) {pid : ℤ} (hchild : pid ∈ vigil.host.children) :
    pid ∈ (vigil.host.step event).children := by
  obtain ⟨hborn, more, hlog⟩ := log_append_of_step h.host hevent
  unfold Host.children at hchild ⊢
  split at hchild
  · rename_i hold
    obtain ⟨name, cmd, hmem⟩ := mem_launchedSince.mp hchild
    rw [if_pos hup, hborn]
    refine mem_launchedSince.mpr ⟨name, cmd, ?_⟩
    rw [since_append (h.host.node hold).born_le hlog]
    exact List.mem_append_left more hmem
  · simp at hchild

theorem watched_boot (nd : Node) : Watched (Vigil.boot nd) :=
  ⟨Host.holds_boot kept_rsInit nd, by simp [Vigil.boot]⟩

theorem watched_step (h : Watched vigil) (hlegal : vigil.host.Legal event) :
    Watched (vigil.step event) := by
  refine ⟨holds_kept_step hlegal h.host, ?_⟩
  have hended : event ≠ .restart → ∀ vm ∈ (vigil.step event).ended,
      (vigil.host.step event).up = true ∧
        (vm ∈ vigil.ended ∨ vm ∈ vigil.host.stopped (vigil.host.step event)) := by
    intro hevent vm hvm
    by_cases hup : (vigil.host.step event).up = true
    · refine ⟨hup, ?_⟩
      cases event with
      | restart => exact absurd rfl hevent
      | _ =>
          simp only [Vigil.step, hup, if_true] at hvm
          exact List.mem_append.mp (List.mem_filter.mp hvm).1
    · cases event with
      | restart => exact absurd rfl hevent
      | _ => simp [Vigil.step, hup] at hvm
  by_cases hevent : event = .restart
  · subst hevent
    simp [Vigil.step]
  · intro vm hvm
    obtain ⟨hup, hcase⟩ := hended hevent vm hvm
    refine ⟨hup, children_step h hevent hup ?_⟩
    rcases hcase with hold | hnew
    · exact (h.ended vm hold).2
    · simp only [Host.stopped, List.mem_filter, Bool.and_eq_true, List.contains_iff_mem] at hnew
      exact hnew.2.1.2

end

/-! ## Whole runs -/

/-- A run of a colod whose children are not reaped notices each exit exactly when
the record of a VM that has ended never stands. -/
theorem always_noticesExits_iff {nd : Node} {events : List HostEvent}
    (hlegal : Along Vigil.step (fun vigil event => vigil.host.Legal event) (Vigil.boot nd)
      events) :
    Always Vigil.step Vigil.NoticesExits (Vigil.boot nd) events ↔
      Always Vigil.step Vigil.ForgetsEnded (Vigil.boot nd) events := by
  have hwatched : Always Vigil.step Watched (Vigil.boot nd) events :=
    always_of_along (fun _ _ h hlegal => watched_step h hlegal) (watched_boot nd) hlegal
  refine always_congr hwatched ?_
  intro vigil hvigil
  exact forall₂_congr fun vm hvm => noticed_iff (hvigil.zombie hvm)

/-- A VM that colod kills is noticed, since `destroy_domain` resets the record. -/
theorem noticesExits_destroyed :
    Always Vigil.step Vigil.NoticesExits (Vigil.boot .fresh) destroyedRun := by
  have hlegal : Along Vigil.step (fun vigil event => vigil.host.Legal event)
      (Vigil.boot .fresh) destroyedRun := by
    refine ⟨?_, ?_, ?_, trivial⟩ <;> decide +kernel
  refine (always_noticesExits_iff hlegal).mpr ⟨?_, ?_, ?_, ?_⟩
  · decide +kernel
  · decide +kernel
  · decide +kernel
  · show Vigil.ForgetsEnded _
    decide +kernel

/-- The VM of a started domain exits. -/
def exitRun : List HostEvent := startedRun ++ [.os (.exit 100)]

theorem not_noticesExits_exit :
    Along Vigil.step (fun vigil event => vigil.host.Legal event) (Vigil.boot .fresh) exitRun ∧
      ¬ Always Vigil.step Vigil.NoticesExits (Vigil.boot .fresh) exitRun := by
  refine ⟨⟨?_, ?_, ?_, trivial⟩, fun h => absurd h.last ?_⟩ <;> decide +kernel

end ColoManage
