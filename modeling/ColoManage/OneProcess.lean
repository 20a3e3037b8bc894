import ColoManage.ForkedService
import ColoManage.Transfer

/-!
# Who carries on after a fork

A child whose `execvp` fails falls out of the branch that was to replace it.  It
returns `0`, which `run_new_vm` and `transfer_file` take for neither a failure nor a
child: it goes on with the handler, answers the request a second time and takes
the next ones from the loop.  `oneProcess_iff` says that this is the only way.
-/

namespace ColoManage

open Forking EventSystem

/-- The processes that return from `run_new_vm` to a handler. -/
theorem length_returns_runNewVm {α : Type} {starts : ShellCommand → Bool} {n : ℕ}
    {k : ℤ → Node → Forks α} (hk : ∀ pid nd, ((k pid nd).returns starts).length = n) (env : Env)
    (domainName : String) (cmd : ShellCommand) (nd : Node) :
    ((Forked.runNewVm env domainName cmd nd k).returns starts).length =
      Task.returning (nd.os.fork env.fork domainName).isSome (starts cmd) * n := by
  have hone : ∀ pid nd, ((if pid = -1 then k (-1) nd
      else if 0 < pid then k pid (nd.setSave (saveDomainPid domainName pid nd.save))
      else k pid nd).returns starts).length = n := by
    intro pid nd
    split
    · exact hk _ _
    · split
      · exact hk _ _
      · exact hk _ _
  unfold Forked.runNewVm Forked.runShellCommandAsync
  cases nd.os.fork env.fork domainName with
  | none => simpa [Task.returning] using hone (-1) nd
  | some forked => exact Task.length_returns_fork (hone 0 _) (hone forked.1 _)

/-- One process returns from `run_new_vm`, and one from `transfer_file`, exactly
when nothing is forked or the command starts; and in a run of colod one process
serves, runs each leg and answers each request exactly when the command of every
child starts. -/
theorem oneProcess_iff (starts : ShellCommand → Bool) (env : Env) (domainName : String)
    (cmd : ShellCommand) (nd : Node) (scp : ScpEnv) (src dst : String) (out : List String)
    (events : List ColodEvent) :
    (((Forked.runNewVm env domainName cmd nd fun pid nd => .done pid nd).returns
          starts).length = 1 ↔
        nd.os.fork env.fork domainName = none ∨ starts cmd = true) ∧
      (((transferFile scp src dst out fun ret out => .done ret out).returns starts).length = 1 ↔
        scp.fork = none ∨ starts (scpCommand src dst) = true) ∧
      (Always colod.step OneProcess (bootColod nd) events ↔
        Along colod.step ExecStarts (bootColod nd) events) := by
  refine ⟨?_, ?_, always_oneProcess_iff colod nd.rsInit events⟩
  · rw [length_returns_runNewVm (n := 1) (fun _ _ => rfl), Nat.mul_one,
      Task.returning_eq_one_iff, Option.isSome_eq_false_iff, Option.isNone_iff_eq_none]
  · rw [length_returns_transferFile (n := 1) (fun _ _ => rfl), Nat.mul_one,
      Task.returning_eq_one_iff, Option.isSome_eq_false_iff, Option.isNone_iff_eq_none]

/-- Define and start a domain; the command of the child cannot be executed. -/
def unstartedRun : List ColodEvent :=
  [.request 0 (.define "/root/d.yaml", .smooth 100),
    .request 0 (.start "d" false, .smooth 100), .exec 1 false]

theorem not_oneProcess_unstarted :
    ¬ Always colod.step OneProcess (bootColod .fresh) unstartedRun := by
  intro h
  have hserves : ((unstartedRun.foldl colod.step (bootColod .fresh)).processes[1]?.map
      fun p => p.phase.serves) = some true := by decide +kernel
  obtain ⟨p, hp, hphase⟩ := Option.map_eq_some_iff.mp hserves
  exact absurd (h.last.alone 1 p hp hphase) (by decide)

end ColoManage
