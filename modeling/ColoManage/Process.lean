import ColoManage.Config

/-!
# The process table

The processes `run_new_vm` has forked, each under the name it was launched
for, and the other processes of the machine.  A terminated child stays in the
table as a zombie until it is reaped.  `kill(pid, 0)` succeeds on a zombie.

What the rest of the machine does is an `OsEvent`: a VM may exit and be reaped
at any moment, other processes come and go, and a pid is free again once
nothing in the table has it.
-/

namespace ColoManage

structure VmProcess where
  pid : ℤ
  name : String
  running : Bool
  deriving DecidableEq, Repr

/-- `others` lists what `kill` accepts besides the VMs: the pids of other
processes and, negated, their process groups. -/
structure ProcessTable where
  vms : List VmProcess
  others : List ℤ
  deriving DecidableEq, Repr

inductive OsEvent
  | exit (pid : ℤ)
  | reap (pid : ℤ)
  | appear (target : ℤ)
  | vanish (target : ℤ)
  deriving DecidableEq, Repr

/-- A VM leads its own session, so its process group carries its pid. -/
def VmProcess.addressedBy (vm : VmProcess) (target : ℤ) : Bool :=
  target == vm.pid || target == -vm.pid || target == -1

def VmProcess.stop (vm : VmProcess) : VmProcess := { vm with running := false }

namespace ProcessTable

/-- `kill(target, 0)` returns `0`.  Targets `0` and `-1` always reach some
process. -/
def kill0 (os : ProcessTable) (target : ℤ) : Bool :=
  target == 0 || target == -1 || os.others.contains target ||
    os.vms.any fun vm => vm.addressedBy target

/-- `kill(target, SIGKILL)`.  Target `0`, the process group of colod itself, is left out. -/
def sigkill (os : ProcessTable) (target : ℤ) : ProcessTable where
  vms := os.vms.map fun vm => if vm.addressedBy target then vm.stop else vm
  others := os.others.filter fun other => other != target

/-- `fork` in `run_shell_command_async` as the parent sees it: it fails or
gives a positive pid that no process in the table has. -/
def fork (os : ProcessTable) (answer : Option ℤ) (name : String) :
    Option (ℤ × ProcessTable) :=
  match answer with
  | none => none
  | some pid =>
      if 0 < pid ∧ os.kill0 pid = false then
        some (pid, { os with vms := ⟨pid, name, true⟩ :: os.vms })
      else none

def step (os : ProcessTable) : OsEvent → ProcessTable
  | .exit pid =>
      { os with vms := os.vms.map fun vm => if vm.pid = pid then vm.stop else vm }
  | .reap pid =>
      { os with vms := os.vms.filter fun vm => vm.running || vm.pid != pid }
  | .appear target =>
      if os.kill0 target then os else { os with others := target :: os.others }
  | .vanish target => { os with others := os.others.filter fun other => other != target }

def after (os : ProcessTable) (events : List OsEvent) : ProcessTable :=
  events.foldl step os

def alive (os : ProcessTable) (name : String) : List VmProcess :=
  os.vms.filter fun vm => vm.running && decide (vm.name = name)

/-! ## Who is alive after a step -/

/-- No running VM is added, and those that stay keep pid and name. -/
def Shrinks (os os' : ProcessTable) : Prop :=
  (os'.vms.map VmProcess.pid).Sublist (os.vms.map VmProcess.pid) ∧
    ∀ vm ∈ os'.vms, vm.running = true → vm ∈ os.vms

theorem Shrinks.refl (os : ProcessTable) : os.Shrinks os :=
  ⟨List.Sublist.refl _, fun _ hvm _ => hvm⟩

theorem Shrinks.trans {os₁ os₂ os₃ : ProcessTable}
    (h₁ : os₁.Shrinks os₂) (h₂ : os₂.Shrinks os₃) : os₁.Shrinks os₃ :=
  ⟨h₂.1.trans h₁.1, fun vm hvm hrun => h₁.2 vm (h₂.2 vm hvm hrun) hrun⟩

theorem shrinks_map_stop (os : ProcessTable) (p : VmProcess → Bool) (others : List ℤ) :
    os.Shrinks ⟨os.vms.map fun vm => if p vm then vm.stop else vm, others⟩ := by
  constructor
  · have hpid : (os.vms.map fun vm => if p vm then vm.stop else vm).map VmProcess.pid =
        os.vms.map VmProcess.pid := by
      rw [List.map_map]
      apply List.map_congr_left
      intro vm _
      by_cases h : p vm <;> simp [h, VmProcess.stop]
    rw [hpid]
  · intro vm hvm hrun
    obtain ⟨old, hold, rfl⟩ := List.mem_map.mp hvm
    by_cases h : p old
    · simp [h, VmProcess.stop] at hrun
    · simpa [h] using hold

theorem shrinks_step (os : ProcessTable) (event : OsEvent) : os.Shrinks (os.step event) := by
  cases event with
  | exit pid =>
      have h := shrinks_map_stop os (fun vm => decide (vm.pid = pid)) os.others
      simpa [ProcessTable.step] using h
  | reap pid =>
      refine ⟨List.filter_sublist.map _, ?_⟩
      intro vm hvm _
      exact (List.mem_filter.mp hvm).1
  | appear target =>
      by_cases h : os.kill0 target = true
      · simpa [ProcessTable.step, h] using Shrinks.refl os
      · simp only [ProcessTable.step, h]
        exact ⟨List.Sublist.refl _, fun vm hvm _ => hvm⟩
  | vanish target => exact ⟨List.Sublist.refl _, fun vm hvm _ => hvm⟩

theorem shrinks_after (os : ProcessTable) (events : List OsEvent) :
    os.Shrinks (os.after events) := by
  induction events generalizing os with
  | nil => exact Shrinks.refl os
  | cons event events ih => exact (shrinks_step os event).trans (ih (os.step event))

theorem shrinks_sigkill (os : ProcessTable) (target : ℤ) : os.Shrinks (os.sigkill target) :=
  shrinks_map_stop os (fun vm => vm.addressedBy target) _

theorem not_running_sigkill {os : ProcessTable} {vm : VmProcess}
    (hvm : vm ∈ (os.sigkill vm.pid).vms) : vm.running = false := by
  obtain ⟨old, _, heq⟩ := List.mem_map.mp hvm
  by_cases h : old.addressedBy vm.pid
  · rw [if_pos h] at heq
    rw [← heq]
    rfl
  · rw [if_neg h] at heq
    subst heq
    simp [VmProcess.addressedBy] at h

theorem kill0_of_mem {os : ProcessTable} {vm : VmProcess} (hvm : vm ∈ os.vms) :
    os.kill0 vm.pid = true := by
  have hany : (os.vms.any fun other => other.addressedBy vm.pid) = true :=
    List.any_eq_true.mpr ⟨vm, hvm, by simp [VmProcess.addressedBy]⟩
  simp [kill0, hany]

theorem fork_eq_some {os os' : ProcessTable} {answer : Option ℤ} {name : String} {pid : ℤ}
    (h : os.fork answer name = some (pid, os')) :
    0 < pid ∧ os.kill0 pid = false ∧ os'.vms = ⟨pid, name, true⟩ :: os.vms := by
  unfold fork at h
  split at h
  · simp at h
  · split at h
    · rename_i hfresh
      simp only [Option.some.injEq, Prod.mk.injEq] at h
      obtain ⟨rfl, rfl⟩ := h
      exact ⟨hfresh.1, hfresh.2, rfl⟩
    · simp at h

end ProcessTable

end ColoManage
