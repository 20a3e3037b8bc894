import ColoManage.Pair
import ColoManage.Transfer

/-!
# The command `colo-enable` of the tool

The tool asks colod whether the domain is shut off, copies its files to the peer and
asks colod to enable it.  Three layers hide that a copy fails:
`run_shell_command_sync` does not read the exit status of its child, `colo_enable`
returns `0` whatever `transfer_file` returns, and `main` goes on when `colo_enable`
returns `-1`.
-/

namespace ColoManage

open Forking

/-- What becomes of a copy; nothing reads `status`, what `scp` exits with. -/
structure ScpRun extends ScpEnv where
  status : ℤ

abbrev Command : Type := Task (List String) Request ValueT ShellCommand ℤ

/-- `COMMAND_COLO_ENABLE` of `main`; `nd` is the machine that `colo_enable` reads. -/
def commandColoEnable (config disk : ScpRun) (domain : Option String) (nd : Node)
    (out : List String) : Command :=
  match domain with
  | none => .done 0 (out ++ ["no domain name."])
  | some name =>
      .await (.domainTest name) out fun ret out =>
        if ret.code ≠ .success then .done 0 (out ++ ["connect to colod timeout."])
        else if ret.val.msg ≠ "shutoff" then
          .done 0 (out ++ ["canot colo enable a running domain."])
        else
          (coloEnable config.toScpEnv disk.toScpEnv name nd out).andThen fun code out =>
            let out := if code < 0 then out ++ ["can not enable colo."] else out
            .await (.coloEnable name) out fun ret out =>
              if ret.code ≠ .success then .done 0 (out ++ ["connect to colod timeout."])
              else .done 0 (out ++ [ret.val.msg])

/-- colod has answered that the domain is shut off. -/
def ValueT.saysShutoff (ret : ValueT) : Prop := ret.code = .success ∧ ret.val.msg = "shutoff"

/-- The child has run the command, and the command has reported success. -/
structure ScpRun.Copied (starts : ShellCommand → Bool) (run : ScpRun) (cmd : ShellCommand) :
    Prop where
  forked : run.fork.isSome = true
  started : starts cmd = true
  waited : run.waited = true
  succeeded : run.status = 0

/-- What `colo_enable` reads before it copies. -/
structure Lookups (domainName : String) (nd : Node) where
  domain : Domain
  path : String
  status : ColoStatus
  getDomain : nd.getDomain domainName = .ok domain
  getPath : nd.save.getDomainConfigFilePath domainName = some path
  getStatus : nd.save.getConnectStatus = some status

def Lookups.configCommand {domainName : String} {nd : Node} (found : Lookups domainName nd) :
    ShellCommand :=
  scpCommand found.path (found.status.peerUser ++ "@" ++ found.status.peerIp ++ ":" ++
    found.status.peerFilePath)

def Lookups.diskCommand {domainName : String} {nd : Node} (found : Lookups domainName nd) :
    ShellCommand :=
  scpCommand found.domain.disk.path (found.status.peerUser ++ "@" ++ found.status.peerIp ++ ":" ++
    found.domain.disk.path)

/-- The definition and the disk image of the domain are both copied. -/
def FilesCopied (starts : ShellCommand → Bool) (config disk : ScpRun) (domainName : String)
    (nd : Node) : Prop :=
  ∃ found : Lookups domainName nd,
    config.Copied starts found.configCommand ∧ disk.Copied starts found.diskCommand

/-- The tool asks colod to enable a domain only if its files are copied; if they are
not, `colo_enable` returns, with a negative code, and the tool stops. -/
structure EnabledAfterCopies (starts : ShellCommand → Bool) (answer : Request → ValueT)
    (config disk : ScpRun) (domainName : String) (nd : Node) (out : List String) : Prop where
  only : .coloEnable domainName ∈
    (commandColoEnable config disk (some domainName) nd out).asked starts answer →
      FilesCopied starts config disk domainName nd
  stops : (answer (.domainTest domainName)).saysShutoff →
    ¬ FilesCopied starts config disk domainName nd →
      (coloEnable config.toScpEnv disk.toScpEnv domainName nd out).returns starts ≠ [] ∧
        ∀ code ∈ (coloEnable config.toScpEnv disk.toScpEnv domainName nd out).returns starts,
          code < 0

variable {starts : ShellCommand → Bool} {answer : Request → ValueT} {config disk : ScpRun}
  {domainName : String} {nd : Node} {out : List String}

/-! ## What the tool asks -/

/-- If the domain is shut off, every process that returns from `colo_enable` sends the
request, whatever it has returned. -/
theorem asked_commandColoEnable
    (h : (answer (.domainTest domainName)).saysShutoff) :
    (commandColoEnable config disk (some domainName) nd out).asked starts answer =
      .domainTest domainName ::
        ((coloEnable config.toScpEnv disk.toScpEnv domainName nd out).ends starts).map
          fun _ => .coloEnable domainName := by
  have hreply : ∀ (ret : ValueT) (out : List String),
      (if ret.code ≠ .success then
          (.done 0 (out ++ ["connect to colod timeout."]) : Command)
        else .done 0 (out ++ [ret.val.msg])).asked starts answer = [] := by
    intro ret out
    split <;> rfl
  simp only [commandColoEnable, Task.asked, h.1, h.2, ne_eq, not_true_eq_false, if_false,
    Task.asked_andThen, List.cons.injEq, true_and]
  simp only [ne_eq] at hreply
  simp only [hreply]
  rw [List.map_eq_flatMap]

theorem asked_commandColoEnable_of_not
    (h : ¬ (answer (.domainTest domainName)).saysShutoff) :
    (commandColoEnable config disk (some domainName) nd out).asked starts answer =
      [.domainTest domainName] := by
  simp only [commandColoEnable, Task.asked]
  split
  · rfl
  · rename_i hcode
    split
    · rfl
    · rename_i hmsg
      exact absurd ⟨of_not_not hcode, of_not_not hmsg⟩ h

theorem coloEnable_mem_asked_iff :
    .coloEnable domainName ∈
        (commandColoEnable config disk (some domainName) nd out).asked starts answer ↔
      (answer (.domainTest domainName)).saysShutoff ∧
        (coloEnable config.toScpEnv disk.toScpEnv domainName nd out).returns starts ≠ [] := by
  by_cases h : (answer (.domainTest domainName)).saysShutoff
  · rw [asked_commandColoEnable h, Task.returns_eq_map_ends]
    simp [h, List.eq_nil_iff_forall_not_mem]
  · rw [asked_commandColoEnable_of_not h]
    simp [h]

/-! ## What `colo_enable` returns -/

section

variable {α : Type} {values : α → Prop} {k : ℤ → List String → Copies α}

theorem returns_sync (hk : ∀ code out, ∀ value ∈ (k code out).returns starts, values value)
    (env : ScpEnv) (cmd : ShellCommand) (out : List String) :
    ∀ value ∈ (runShellCommandSync env cmd out k).returns starts, values value := by
  intro value hvalue
  unfold runShellCommandSync at hvalue
  split at hvalue
  · exact hk _ _ value hvalue
  · simp only [Task.returns, List.mem_append] at hvalue
    rcases hvalue with hparent | hchild
    · split at hparent
      · exact hk _ _ value hparent
      · exact hk _ _ value hparent
    · split at hchild
      · cases hchild
      · exact hk _ _ value hchild

theorem returns_transferFile
    (hk : ∀ code out, ∀ value ∈ (k code out).returns starts, values value)
    (env : ScpEnv) (src dst : String) (out : List String) :
    ∀ value ∈ (transferFile env src dst out k).returns starts, values value := by
  refine returns_sync ?_ env _ out
  intro pid out
  split
  · exact hk _ _
  · split
    · exact hk _ _
    · exact hk _ _

end

/-- Once its lookups have succeeded, `colo_enable` returns `0` in every process, and it
returns in one at least. -/
theorem returns_coloEnable (found : Lookups domainName nd) (config disk : ScpEnv)
    (out : List String) :
    (coloEnable config disk domainName nd out).returns starts ≠ [] ∧
      ∀ code ∈ (coloEnable config disk domainName nd out).returns starts, code = 0 := by
  have hreturning : ∀ forked started : Bool, 0 < Task.returning forked started := by
    intro forked started
    unfold Task.returning
    split <;> omega
  refine ⟨?_, ?_⟩
  · refine List.ne_nil_of_length_pos ?_
    rw [length_returns_coloEnable found.getDomain found.getPath found.getStatus]
    exact Nat.mul_pos (hreturning _ _) (hreturning _ _)
  · unfold coloEnable
    simp only [found.getDomain, found.getPath, found.getStatus]
    refine returns_transferFile ?_ config _ _ _
    intro code out
    refine returns_transferFile ?_ disk _ _ _
    intro code out value hvalue
    exact List.mem_singleton.mp hvalue

/-- A lookup that fails ends `colo_enable` with `-1`, or the tool with an exception. -/
theorem returns_coloEnable_of_isEmpty (h : IsEmpty (Lookups domainName nd))
    (config disk : ScpEnv) (out : List String) :
    (coloEnable config disk domainName nd out).returns starts = [-1] ∨
      (coloEnable config disk domainName nd out).returns starts = [] := by
  unfold coloEnable
  cases hget : nd.getDomain domainName with
  | error fail =>
      cases fail with
      | thrown err => exact .inr rfl
      | refused err => exact .inl rfl
  | ok d =>
      cases hpath : nd.save.getDomainConfigFilePath domainName with
      | none => exact .inl rfl
      | some path =>
          cases hstatus : nd.save.getConnectStatus with
          | none => exact .inr rfl
          | some cs => exact h.elim ⟨d, path, cs, hget, hpath, hstatus⟩

/-- What `colo_enable` returns tells whether its lookups succeeded, and nothing of the
copies. -/
theorem negative_coloEnable_iff (config disk : ScpEnv) :
    (∀ code ∈ (coloEnable config disk domainName nd out).returns starts, code < 0) ↔
      IsEmpty (Lookups domainName nd) := by
  constructor
  · intro hnegative
    refine ⟨fun found => ?_⟩
    obtain ⟨hreturns, hzero⟩ := returns_coloEnable found config disk out
    obtain ⟨code, hcode⟩ := List.exists_mem_of_ne_nil _ hreturns
    exact absurd (hnegative code hcode) (by rw [hzero code hcode]; decide)
  · intro h code hcode
    rcases returns_coloEnable_of_isEmpty h config disk out with hone | hnone
    · rw [hone] at hcode
      rw [List.mem_singleton.mp hcode]
      decide
    · rw [hnone] at hcode
      cases hcode

/-- The tool enables a domain only after its files are copied exactly when colod does not
answer that the domain is shut off, or both copies succeed: no failure of a copy
or of a lookup stops it as it should. -/
theorem enabledAfterCopies_iff (starts : ShellCommand → Bool) (answer : Request → ValueT)
    (config disk : ScpRun) (domainName : String) (nd : Node) (out : List String) :
    EnabledAfterCopies starts answer config disk domainName nd out ↔
      ¬ (answer (.domainTest domainName)).saysShutoff ∨
        FilesCopied starts config disk domainName nd := by
  by_cases hanswer : (answer (.domainTest domainName)).saysShutoff
  · rw [or_iff_right (not_not_intro hanswer)]
    refine ⟨?_, fun hcopied => ⟨fun _ => hcopied, fun _ hnot => absurd hcopied hnot⟩⟩
    intro h
    by_contra hnot
    obtain ⟨hreturns, hnegative⟩ := h.stops hanswer hnot
    exact hnot (h.only (coloEnable_mem_asked_iff.mpr ⟨hanswer, hreturns⟩))
  · refine iff_of_true ⟨?_, fun h => absurd h hanswer⟩ (.inl hanswer)
    intro hasked
    exact absurd (coloEnable_mem_asked_iff.mp hasked).1 hanswer

/-- A node that has connected to its peer and defined a domain. -/
def connectedNode : Node :=
  (((Server.boot (Node.fresh.writeFile "/root/peer.yaml"
      (connectDocument "primary" "10.0.0.1" "10.0.0.2"))).step
    (.request (.connectPeer "/root/peer.yaml") (.smooth 100)
      [([], some (.answer ⟨0, "colod connect reply success."⟩))])).step
    (.request (.define "/root/d.yaml") (.smooth 101) [])).node

/-- `scp` runs and exits with `1`. -/
def failedScp : ScpRun := ⟨⟨some 7, true⟩, 1⟩

theorem not_enabledAfterCopies_failedScp :
    ¬ EnabledAfterCopies (fun _ => true) (fun _ => .answer ⟨0, "shutoff"⟩) failedScp failedScp "d"
      connectedNode [] := by
  intro h
  have hasked : (commandColoEnable failedScp failedScp (some "d") connectedNode []).asked
      (fun _ => true) (fun _ => .answer ⟨0, "shutoff"⟩) =
      [.domainTest "d", .coloEnable "d"] := by decide +kernel
  obtain ⟨found, hconfig, -⟩ := h.only (by simp [hasked])
  exact absurd hconfig.succeeded (by decide)

end ColoManage
