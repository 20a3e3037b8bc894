import ColoManage.Node
import ColoManage.Library.Forking
import Mathlib.Data.PNat.Basic

/-!
# Copying the files of a domain

The command line tool copies the definition and the disk image of a domain to the
peer before it asks its colod to enable the domain.  `run_shell_command_sync` waits
for the child, but returns in the child as well if its `execvp` fails, and
`transfer_file` takes that for a success.  The state is what the tool prints.
-/

namespace ColoManage

open Forking

/-- The pid that `fork` gives, and whether `waitpid` gets it. -/
structure ScpEnv where
  fork : Option ℕ+
  waited : Bool

abbrev Copies (α : Type) := Task (List String) Empty Empty ShellCommand α

section

variable {α : Type}

def runShellCommandSync (env : ScpEnv) (cmd : ShellCommand) (out : List String)
    (k : ℤ → List String → Copies α) : Copies α :=
  match env.fork with
  | none => k (-1) out
  | some pid =>
      let waiting := out ++
        ["run sync task, pid = " ++ toString (pid : ℕ) ++ ", wait for process finish."]
      .fork cmd out (k 0)
        (if env.waited then k (pid : ℕ) (waiting ++ ["run sync task finish."])
        else k (-1) (waiting ++ ["run sync task failed."]))

def scpCommand (src dst : String) : ShellCommand := ⟨"scp", ["scp", src, dst]⟩

def transferFile (env : ScpEnv) (src dst : String) (out : List String)
    (k : ℤ → List String → Copies α) : Copies α :=
  runShellCommandSync env (scpCommand src dst) out fun pid out =>
    if pid = -1 then k (-1) out
    else if 0 < pid then
      k 0 (out ++ ["transfer file " ++ src ++ " success, pid = " ++ toString pid])
    else k 0 out

end

def SaveFile.getDomainConfigFilePath (domainName : String) (sf : SaveFile) : Option String :=
  (sf.find domainName).map SaveEntry.path

/-- `get_connect_status` with the fields that it reads; a missing one throws. -/
def SaveFile.getConnectStatus (sf : SaveFile) : Option ColoStatus := do
  let saved ← sf.saveStatus
  let text (key : String) : Option String := do
    (← (saved.sub key).toOption.join).asString.toOption
  pure { (default : ColoStatus) with
    hostIp := ← text "host_ip"
    hostUser := ← text "host_user"
    hostFilePath := ← text "host_file_path"
    peerIp := ← text "peer_ip"
    peerUser := ← text "peer_user"
    peerFilePath := ← text "peer_file_path" }

/-- `colo_enable` of the tool.  A copy that fails is reported and not an error. -/
def coloEnable (config disk : ScpEnv) (domainName : String) (nd : Node) (out : List String) :
    Copies ℤ :=
  match nd.getDomain domainName with
  | .error (.thrown _) => .crash out
  | .error (.refused _) => .done (-1) (out ++ ["can not get domain data."])
  | .ok d =>
      match nd.save.getDomainConfigFilePath domainName with
      | none => .done (-1) (out ++ ["can not find domain config file."])
      | some srcConfigFile =>
          match nd.save.getConnectStatus with
          | none => .crash out
          | some cs =>
              let dstConfigFile := cs.peerUser ++ "@" ++ cs.peerIp ++ ":" ++ cs.peerFilePath
              let srcDiskFile := d.disk.path
              let dstDiskFile := cs.peerUser ++ "@" ++ cs.peerIp ++ ":" ++ srcDiskFile
              let out := out ++ ["scp " ++ srcConfigFile ++ " " ++ dstConfigFile]
              transferFile config srcConfigFile dstConfigFile out fun ret out =>
                let out := if ret < 0 then out ++ ["transfer domain config file failed."] else out
                let out := out ++ ["transfer domain config file success.",
                  "scp " ++ srcDiskFile ++ " " ++ dstDiskFile]
                transferFile disk srcDiskFile dstDiskFile out fun ret out =>
                  let out := if ret < 0 then out ++ ["transfer domain disk file failed."] else out
                  .done 0 (out ++ ["transfer domain disk file success.",
                    "build colo env success."])

section

variable {α : Type} {starts : ShellCommand → Bool} {n : ℕ} {k : ℤ → List String → Copies α}

theorem length_returns_sync (hk : ∀ ret out, ((k ret out).returns starts).length = n)
    (env : ScpEnv) (cmd : ShellCommand) (out : List String) :
    ((runShellCommandSync env cmd out k).returns starts).length =
      Task.returning env.fork.isSome (starts cmd) * n := by
  unfold runShellCommandSync
  cases env.fork with
  | none => simpa [Task.returning] using hk (-1) out
  | some pid =>
      refine Task.length_returns_fork (hk 0 out) ?_
      split
      · exact hk _ _
      · exact hk _ _

/-- Every process that returns from `transfer_file` carries on with its caller. -/
theorem length_returns_transferFile (hk : ∀ ret out, ((k ret out).returns starts).length = n)
    (env : ScpEnv) (src dst : String) (out : List String) :
    ((transferFile env src dst out k).returns starts).length =
      Task.returning env.fork.isSome (starts (scpCommand src dst)) * n := by
  refine length_returns_sync ?_ env _ out
  intro pid out
  split
  · exact hk _ _
  · split
    · exact hk _ _
    · exact hk _ _

/-- A run of the tool that comes to its two copies: without `scp` on the machine
four processes return from it. -/
theorem length_returns_coloEnable {config disk : ScpEnv} {domainName : String} {nd : Node}
    {d : Domain} {path : String} {cs : ColoStatus} (hget : nd.getDomain domainName = .ok d)
    (hpath : nd.save.getDomainConfigFilePath domainName = some path)
    (hstatus : nd.save.getConnectStatus = some cs) (out : List String) :
    ((coloEnable config disk domainName nd out).returns starts).length =
      Task.returning config.fork.isSome (starts (scpCommand path
          (cs.peerUser ++ "@" ++ cs.peerIp ++ ":" ++ cs.peerFilePath))) *
        Task.returning disk.fork.isSome (starts (scpCommand d.disk.path
          (cs.peerUser ++ "@" ++ cs.peerIp ++ ":" ++ d.disk.path))) := by
  unfold coloEnable
  simp only [hget, hpath, hstatus]
  refine length_returns_transferFile ?_ config _ _ _
  intro ret out
  rw [length_returns_transferFile (n := 1) (fun _ _ => rfl), Nat.mul_one]

end

end ColoManage
