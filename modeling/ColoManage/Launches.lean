import ColoManage.Endpoints
import ColoManage.FailoverRetry
import ColoManage.Moves
import Mathlib.Data.Int.SuccPred
import Mathlib.Order.Interval.Set.Infinite

/-!
# The commands that are executed

`run_new_vm` executes what it is given.  The result of the generator is not
looked at, and where the role of the domain selects no generator the command
is the empty one it was initialised with.
-/

namespace ColoManage

open EventSystem Resumption

/-! ## Calls of `run_new_vm` -/

def Env.forking (answer : Option ℤ) (env : Env) : Env := { env with fork := answer }

/-- A launch that depends on nothing but the answer of `fork`. -/
def Calls (first : Node) (act : Option ℤ → Colod) (script : Script) (name : String)
    (cmd : ShellCommand) : Prop :=
  ∃ answer pid, .launch name cmd pid ∈
    (((act answer).follow Node.osAfter script).state.log).drop first.log.length

/-- The handler calls `run_new_vm` with the name and the command. -/
def CallsRunNewVm (env : Env) (script : Script) (req : Request) (nd : Node) (name : String)
    (cmd : ShellCommand) : Prop :=
  Calls nd (fun answer => handle (env.forking answer) req nd) script name cmd

/-- The request gets as far as `run_new_vm`, with the definition of its domain. -/
def Launches (script : Script) (nd : Node) : Request → Domain → Prop
  | .start domainName colo, d => (nd.testDomainStatus domainName).1 = .shutOff ∧
      nd.getDomain domainName = .ok d ∧ (colo = true → (nd.dom domainName).coloEnable = true ∧
        nd.remoteClient.usable = true ∧ accepted (script.reply 0) = true)
  | .peerStartDomain domainName colo, d => colo = true ∧
      (nd.dom domainName).coloEnable = true ∧ nd.getDomain domainName = .ok d
  | _, _ => False

/-- The command that `run_new_vm` is called with. -/
def Node.vmCmd (nd : Node) (d : Domain) : Request → ShellCommand
  | .start domainName colo =>
      if colo then coloCmd (nd.dom domainName).coloStatus d nd.currentStatus
      else (generateVmCmd d).2
  | .peerStartDomain domainName _ => coloCmd (nd.dom domainName).coloStatus d nd.currentStatus
  | _ => default

/-- Some pid is free. -/
theorem exists_fork (os : ProcessTable) (name : String) :
    ∃ pid os', os.fork (some pid) name = some (pid, os') := by
  let taken : Finset ℤ := os.others.toFinset ∪ (os.vms.map VmProcess.pid).toFinset ∪
    (os.vms.map fun vm => -vm.pid).toFinset
  obtain ⟨pid, hpos, hfree⟩ := (Set.Ioi_infinite (0 : ℤ)).exists_notMem_finset taken
  have hpos' : 0 < pid := hpos
  simp only [taken, Finset.mem_union, List.mem_toFinset, List.mem_map, not_or, not_exists,
    not_and] at hfree
  obtain ⟨⟨hother, hvm⟩, hgroup⟩ := hfree
  have hnone : os.kill0 pid = false := by
    have hvms : (os.vms.any fun vm => vm.addressedBy pid) = false := by
      apply List.any_eq_false.mpr
      intro vm hmem
      have h1 := hvm vm hmem
      have h2 := hgroup vm hmem
      simp only [VmProcess.addressedBy, Bool.or_eq_true, beq_iff_eq, not_or]
      omega
    have hcontains : os.others.contains pid = false := by simpa using hother
    simp only [ProcessTable.kill0, hvms, hcontains, Bool.or_false, Bool.or_eq_false_iff,
      beq_eq_false_iff_ne]
    omega
  refine ⟨pid, { os with vms := ⟨pid, name, true⟩ :: os.vms }, ?_⟩
  simp [ProcessTable.fork, hpos', hnone]

section

variable {env : Env} {req : Request} {start first nd last : Node} {script : Script}
  {name : String} {cmd : ShellCommand}

theorem not_mem_of_noLaunch (h : NoLaunch first last) (pid : ℤ) :
    .launch name cmd pid ∉ last.log.drop first.log.length := by
  obtain ⟨more, hlog, hnone⟩ := h
  rw [hlog, List.drop_left]
  exact hnone name cmd pid

theorem noLaunch_of_moves (hreq : ∀ domainName colo, ¬ req.Starts domainName colo)
    (h : Moves env req start first last) : NoLaunch first last := by
  refine inv_of_moves (I := fun nd => NoLaunch first nd) ?_ (.refl first) h
  intro nd nd' hno hmove
  refine hno.trans ?_
  cases machine_of_move hmove with
  | talked hos hlog hmessages =>
      refine ⟨_, hlog, fun name cmd pid hmem => ?_⟩
      have hnone := launchedPid_of_isMessage hmessages _ hmem
      simp [Effect.launchedPid] at hnone
  | launched hstarts => exact absurd hstarts (hreq _ _)
  | missed hreq hevents hos hlog => exact noLaunch_of_log_eq hlog
  | killed hreq hevents hpid hstarted hsave hos hlog => exact ⟨_, hlog, by simp⟩

/-- A handler for any other request launches nothing. -/
theorem noLaunch_of_moving (hreq : ∀ domainName colo, ¬ req.Starts domainName colo) {act : Colod}
    (h : Moving env req start first act) (script : Script) :
    NoLaunch first (act.follow Node.osAfter script).state := by
  refine Act.state_follow_of_legs .trans ?_ ?_ (fun _ _ => noLaunch_of_moves hreq) h script
  · exact fun events nd => Node.apart_osAfter nd events
  · exact fun events nd => noLaunch_of_log_eq rfl

theorem noLaunch_startQmp (domainName : String) (role : ColoDomainStatus) (d : Domain)
    (script : Script) :
    NoLaunch nd ((startQmp env domainName role d nd).follow Node.osAfter script).state := by
  have hmoving : Moving env .connectReply nd nd (startQmp env domainName role d nd) :=
    moving_startQmp .refl role d
  exact noLaunch_of_moving (by simp [Request.Starts]) hmoving script

theorem not_calls {act : Option ℤ → Colod}
    (h : ∀ answer, NoLaunch first ((act answer).follow Node.osAfter script).state) :
    ¬ Calls first act script name cmd := by
  rintro ⟨answer, pid, hmem⟩
  exact not_mem_of_noLaunch (h answer) pid hmem

/-- A handler with one launch. -/
theorem calls_iff {act : Option ℤ → Colod} {vmName : String} {vmCmd : ShellCommand}
    (hfirst : NoLaunch first nd)
    (hfailed : ∀ answer, nd.os.fork answer vmName = none →
      NoLaunch first ((act answer).follow Node.osAfter script).state)
    (hlaunched : ∀ answer pid os, nd.os.fork answer vmName = some (pid, os) →
      NoLaunch (nd.launched vmName vmCmd pid os)
        ((act answer).follow Node.osAfter script).state) :
    Calls first act script name cmd ↔ name = vmName ∧ cmd = vmCmd := by
  obtain ⟨before, hbefore, hnone⟩ := hfirst
  have hlog : ∀ answer pid os, nd.os.fork answer vmName = some (pid, os) →
      ∃ after, (((act answer).follow Node.osAfter script).state.log).drop first.log.length =
        before ++ [.launch vmName vmCmd pid] ++ after ∧
          ∀ name cmd pid, .launch name cmd pid ∉ after := by
    intro answer pid os hfork
    obtain ⟨after, hafter, hnone'⟩ := hlaunched answer pid os hfork
    refine ⟨after, ?_, hnone'⟩
    have hall : (nd.launched vmName vmCmd pid os).log = nd.log ++ [.launch vmName vmCmd pid] := rfl
    rw [hafter, hall, hbefore, List.append_assoc, List.append_assoc, List.drop_left,
      List.append_assoc]
  constructor
  · rintro ⟨answer, pid, hmem⟩
    cases hfork : nd.os.fork answer vmName with
    | none => exact absurd hmem (not_mem_of_noLaunch (hfailed answer hfork) pid)
    | some forked =>
        obtain ⟨pid', os⟩ := forked
        obtain ⟨after, hdrop, hnone'⟩ := hlog answer pid' os hfork
        rw [hdrop] at hmem
        simp only [List.mem_append, List.mem_singleton, hnone, hnone', Effect.launch.injEq,
          or_false, false_or] at hmem
        exact ⟨hmem.1, hmem.2.1⟩
  · rintro ⟨rfl, rfl⟩
    obtain ⟨pid, os, hfork⟩ := exists_fork nd.os name
    obtain ⟨after, hdrop, -⟩ := hlog (some pid) pid os hfork
    exact ⟨some pid, pid, by simp [hdrop]⟩

theorem runNewVm_of_none (env : Env) (hfork : nd.os.fork env.fork name = none) :
    nd.runNewVm env name cmd = (-1, nd) := by
  simp [Node.runNewVm, hfork]

theorem runNewVm_of_some (env : Env) {pid : ℤ} {os : ProcessTable}
    (hfork : nd.os.fork env.fork name = some (pid, os)) :
    nd.runNewVm env name cmd = (pid, nd.launched name cmd pid os) := by
  simp [Node.runNewVm, hfork, Node.launched, Node.record, Node.setSave]

theorem startNative_calls_iff {domainName : String} {d : Domain} (hno : NoLaunch first nd) :
    Calls first (fun answer => startNative (env.forking answer) domainName d nd) script name cmd ↔
      name = d.name ∧ cmd = (generateVmCmd d).2 := by
  refine calls_iff hno ?_ ?_
  · intro answer hfork
    unfold startNative
    rw [runNewVm_of_none (env.forking answer) hfork]
    exact hno
  · intro answer pid os hfork
    unfold startNative
    rw [runNewVm_of_some (env.forking answer) hfork]
    exact noLaunch_of_log_eq rfl

theorem startHost_calls_iff {domainName : String} {role : ColoDomainStatus} {d : Domain}
    (hno : NoLaunch first nd) :
    Calls first (fun answer => startHost (env.forking answer) domainName role d nd) script name
        cmd ↔ name = d.name ∧ cmd = coloCmd role d nd.currentStatus := by
  refine calls_iff hno ?_ ?_
  · intro answer hfork
    unfold startHost
    rw [runNewVm_of_none (env.forking answer) hfork]
    exact hno
  · intro answer pid os hfork
    have hpos := (ProcessTable.fork_eq_some hfork).1
    unfold startHost
    rw [runNewVm_of_some (env.forking answer) hfork]
    dsimp only
    rw [if_neg (by omega)]
    exact (noLaunch_of_log_eq rfl).trans (noLaunch_startQmp domainName role d script)

/-- A launch after a call needs a good reply. -/
theorem calls_checkReply_iff {request : Request} {failure : String}
    {k : Option ℤ → Node → Colod} (hno : NoLaunch first nd)
    (husable : nd.remoteClient.usable = true) :
    Calls first (fun answer => nd.remoteCall request fun ret nd =>
        checkReply failure ret nd (k answer)) script name cmd ↔
      accepted (script.reply 0) = true ∧ Calls first
        (fun answer => k answer ((nd.called request).osAfter script.meanwhile).replied)
          script.tail name cmd := by
  have hcalled : NoLaunch first (nd.called request) := hno.trans ⟨_, rfl, by simp⟩
  simp only [Node.remoteCall_of_usable husable]
  cases script with
  | nil => exact iff_of_false (not_calls fun _ => hcalled) (by simp [Script.reply, accepted])
  | cons entry rest =>
      obtain ⟨events, reply⟩ := entry
      have hreply : Script.reply ((events, reply) :: rest) 0 = reply := rfl
      rw [hreply]
      cases haccepted : accepted reply with
      | true =>
          simp only [Calls, Act.follow, received_checkReply_accepted haccepted, true_and]
          exact Iff.rfl
      | false =>
          refine iff_of_false (not_calls fun answer => ?_) (by simp)
          obtain ⟨msg, nd', heq, hsame⟩ := received_checkReply_refused haccepted failure (k answer)
            ((nd.called request).osAfter events)
          rw [Act.follow, heq]
          exact hcalled.trans (noLaunch_of_log_eq hsame.log)

theorem colodStart_calls_iff (env : Env) (script : Script) (domainName : String) (colo : Bool)
    (nd : Node) :
    CallsRunNewVm env script (.start domainName colo) nd name cmd ↔
      ∃ d, Launches script nd (.start domainName colo) d ∧ name = d.name ∧
        cmd = nd.vmCmd d (.start domainName colo) := by
  have hno : NoLaunch nd (nd.testDomainStatus domainName).2 := noLaunch_of_log_eq (by simp)
  unfold CallsRunNewVm handle colodStart Launches Node.vmCmd
  simp only [Node.testDomainStatus_touch]
  by_cases hoff : (nd.testDomainStatus domainName).1 = .shutOff
  · simp only [hoff, ne_eq, not_true_eq_false, if_false, true_and]
    cases hd : (nd.testDomainStatus domainName).2.getDomain domainName with
    | error stop =>
        have hnone := getDomain_ne_ok_of_error hd
        cases stop <;> exact iff_of_false (not_calls fun _ => hno) (by simp [hnone])
    | ok d =>
        have hget : nd.getDomain domainName = .ok d :=
          (getDomain_testDomainStatus domainName nd d).mp hd
        simp only [hget, Except.ok.injEq]
        cases colo with
        | false =>
            simpa [and_assoc] using startNative_calls_iff hno
        | true =>
            simp only [Bool.not_true, Bool.false_eq_true, if_false, if_true, true_implies,
              Node.coloEnable_testDomainStatus]
            cases henable : (nd.dom domainName).coloEnable with
            | false => exact iff_of_false (not_calls fun _ => hno) (by simp)
            | true =>
                simp only [Bool.not_true, Bool.false_eq_true, if_false, true_and]
                cases husable : nd.remoteClient.usable with
                | false =>
                    refine iff_of_false (not_calls fun _ => ?_) (by simp)
                    rw [Node.remoteCall_of_not_usable (by simpa using husable)]
                    exact hno.trans ⟨_, rfl, by simp⟩
                | true =>
                    have husable' := Node.usable_testDomainStatus husable domainName
                    have hanswered : NoLaunch nd
                        (((nd.testDomainStatus domainName).2.called
                          (.peerStartDomain domainName true)).osAfter script.meanwhile).replied :=
                      hno.trans ⟨_, rfl, by simp⟩
                    rw [calls_checkReply_iff hno husable', startHost_calls_iff hanswered]
                    simp [Node.replied, Node.setAwaiting, Node.setErrorCode, Node.osAfter,
                      Node.called, Node.issue, Node.record]
  · refine iff_of_false (not_calls fun _ => ?_) ?_
    · simp only [if_pos hoff]
      exact hno
    · rintro ⟨d, ⟨hshutOff, -⟩, -⟩
      exact hoff hshutOff

theorem peerColodStartDomain_calls_iff (env : Env) (script : Script) (domainName : String)
    (colo : Bool) (nd : Node) :
    CallsRunNewVm env script (.peerStartDomain domainName colo) nd name cmd ↔
      ∃ d, Launches script nd (.peerStartDomain domainName colo) d ∧ name = d.name ∧
        cmd = nd.vmCmd d (.peerStartDomain domainName colo) := by
  have hno : NoLaunch nd (nd.touch domainName) := noLaunch_of_log_eq rfl
  unfold CallsRunNewVm handle peerColodStartDomain Launches Node.vmCmd
  cases colo with
  | false => exact iff_of_false (not_calls fun _ => .refl nd) (by simp)
  | true =>
      have hget : (nd.touch domainName).getDomain domainName = nd.getDomain domainName := rfl
      simp only [Bool.not_true, Bool.false_eq_true, if_false, Node.dom_touch, true_and, hget]
      cases henable : (nd.dom domainName).coloEnable with
      | false => exact iff_of_false (not_calls fun _ => hno) (by simp)
      | true =>
          cases hd : nd.getDomain domainName with
          | error stop =>
              cases stop <;> exact iff_of_false (not_calls fun _ => hno) (by simp)
          | ok d =>
              simp only [Bool.not_true, Bool.false_eq_true, if_false, true_and, Except.ok.injEq,
                exists_eq_left']
              refine calls_iff hno ?_ ?_
              · intro answer hfork
                rw [runNewVm_of_none (env.forking answer) hfork]
                exact hno
              · intro answer pid os hfork
                have hpos := (ProcessTable.fork_eq_some hfork).1
                rw [runNewVm_of_some (env.forking answer) hfork]
                dsimp only
                rw [if_neg (by omega)]
                exact noLaunch_of_log_eq rfl

/-- Only the two starts call `run_new_vm`. -/
theorem callsRunNewVm_iff (env : Env) (script : Script) (req : Request) (nd : Node)
    (name : String) (cmd : ShellCommand) :
    CallsRunNewVm env script req nd name cmd ↔
      ∃ d, Launches script nd req d ∧ name = d.name ∧ cmd = nd.vmCmd d req := by
  have hquiet : (∀ domainName colo, ¬ req.Starts domainName colo) →
      ¬ CallsRunNewVm env script req nd name cmd := fun hreq =>
    not_calls fun answer =>
      noLaunch_of_moving hreq (handle_moving (env.forking answer) req nd) script
  cases req with
  | start domainName colo => exact colodStart_calls_iff env script domainName colo nd
  | peerStartDomain domainName colo =>
      exact peerColodStartDomain_calls_iff env script domainName colo nd
  | _ => exact iff_of_false (hquiet (by simp [Request.Starts])) (by simp [Launches])

end

/-! ## Complete commands -/

def netArgs (d : Domain) : List String :=
  ["-netdev", "tap,id=" ++ d.net.id ++ ",vhost=off,br=" ++ d.net.br ++ ",helper=" ++ d.net.helper,
    "-device", "virtio-net-pci,id=e0,netdev=" ++ d.net.id ++
      ",csum=false,mrg_rxbuf=false,gso=false,mac=" ++ d.net.mac]

/-- The disk of a secondary VM, which replicates into its own two images. -/
def replicatedDrives (d : Domain) : List String :=
  ["-drive", "if=none,id=parent0,file.filename=" ++ d.disk.path,
    "-drive", "if=none,id=childs0,driver=replication,mode=secondary,file.driver=" ++
      d.disk.driver ++ ",top-id=colo-disk0,file.file.filename=" ++ d.disk.activePath ++
      ",file.backing.driver=" ++ d.disk.driver ++ ",file.backing.file.filename=" ++
      d.disk.hiddenPath ++ ",file.backing.backing=parent0",
    "-drive", "if=virtio,id=colo-disk0,driver=quorum,read-pattern=fifo," ++
      "vote-threshold=1,children.0=childs0"]

/-- A generator has returned `0` with this command, and nothing is missing in it. -/
structure Complete (d : Domain) (cs : ColoStatus) (cmd : ShellCommand) : Prop where
  generated : generateVmCmd d = (0, cmd) ∨ generatePvmCmd d cs = (0, cmd) ∨
    generateSvmCmd d cs = (0, cmd)
  binaryPath : cmd.binaryPath = d.qemuPath
  args : cmd.args.head? = some d.qemuPath
  net : netArgs d <:+: cmd.args
  disk : ["-drive", quorumDrive d] <:+: cmd.args ∨ replicatedDrives d <:+: cmd.args

/-- The generators know the guest system. -/
def Domain.knownOs (d : Domain) : Prop := d.osOS = "linux" ∨ d.osOS = "windows"

theorem cpuArgs_isSome_iff (d : Domain) : (cpuArgs d).isSome = true ↔ d.knownOs := by
  unfold cpuArgs Domain.knownOs
  split <;> simp_all

theorem generateCmd_eq_zero_iff {d : Domain} {telnetPort : UInt16} {chardevEnd : String}
    {rest : List String} : (generateCmd d telnetPort chardevEnd rest).1 = 0 ↔ d.knownOs := by
  rw [← cpuArgs_isSome_iff]
  unfold generateCmd
  cases cpuArgs d <;> simp

theorem complete_generateCmd {d : Domain} {cs : ColoStatus} {telnetPort : UInt16}
    {chardevEnd : String} {rest : List String} {cmd : ShellCommand}
    (hcmd : generateCmd d telnetPort chardevEnd rest = (0, cmd))
    (hgenerated : generateVmCmd d = (0, cmd) ∨ generatePvmCmd d cs = (0, cmd) ∨
      generateSvmCmd d cs = (0, cmd))
    (hdisk : ∃ i, (rest.drop i).take 2 = ["-drive", quorumDrive d] ∨
      (rest.drop i).take 6 = replicatedDrives d) :
    Complete d cs cmd := by
  unfold generateCmd at hcmd
  cases hcpu : cpuArgs d with
  | none => simp [hcpu] at hcmd
  | some cpu =>
      rw [hcpu] at hcmd
      have hargs : cmd = ⟨d.qemuPath,
          machineArgs d telnetPort chardevEnd ++ cpu ++ deviceArgs d ++ rest⟩ :=
        (Prod.mk.inj hcmd).2.symm
      have hrest : rest <:+: cmd.args := hargs ▸ (List.suffix_append _ rest).isInfix
      have hdevices : netArgs d <:+: deviceArgs d :=
        (List.suffix_append ((deviceArgs d).take 4) (netArgs d)).isInfix
      refine ⟨hgenerated, by rw [hargs], by rw [hargs]; rfl, ?_, ?_⟩
      · rw [hargs]
        exact hdevices.trans ⟨_, rest, rfl⟩
      · have hinfix : ∀ i n, (rest.drop i).take n <:+: cmd.args := fun i n =>
          ((List.take_prefix n _).isInfix.trans (List.drop_suffix i rest).isInfix).trans hrest
        obtain ⟨i, hquorum | hreplicated⟩ := hdisk
        · exact .inl (hquorum ▸ hinfix i 2)
        · exact .inr (hreplicated ▸ hinfix i 6)

theorem complete_generateVmCmd {d : Domain} (cs : ColoStatus) (hos : d.knownOs) :
    Complete d cs (generateVmCmd d).2 := by
  have hcmd : generateVmCmd d = (0, (generateVmCmd d).2) :=
    Prod.ext (generateCmd_eq_zero_iff.mpr hos) rfl
  exact complete_generateCmd hcmd (.inl hcmd) ⟨0, .inl rfl⟩

theorem complete_generatePvmCmd {d : Domain} (cs : ColoStatus) (hos : d.knownOs) :
    Complete d cs (generatePvmCmd d cs).2 := by
  have hcmd : generatePvmCmd d cs = (0, (generatePvmCmd d cs).2) :=
    Prod.ext (generateCmd_eq_zero_iff.mpr hos) rfl
  exact complete_generateCmd hcmd (.inr (.inl hcmd)) ⟨22, .inl rfl⟩

theorem complete_generateSvmCmd {d : Domain} (cs : ColoStatus) (hos : d.knownOs) :
    Complete d cs (generateSvmCmd d cs).2 := by
  have hcmd : generateSvmCmd d cs = (0, (generateSvmCmd d cs).2) :=
    Prod.ext (generateCmd_eq_zero_iff.mpr hos) rfl
  exact complete_generateCmd hcmd (.inr (.inr hcmd)) ⟨10, .inr rfl⟩

theorem Complete.knownOs {d : Domain} {cs : ColoStatus} {cmd : ShellCommand}
    (h : Complete d cs cmd) : d.knownOs := by
  rcases h.generated with hcmd | hcmd | hcmd
  · exact generateCmd_eq_zero_iff.mp (congrArg Prod.fst hcmd)
  · exact generateCmd_eq_zero_iff.mp (congrArg Prod.fst hcmd)
  · exact generateCmd_eq_zero_iff.mp (congrArg Prod.fst hcmd)

theorem not_complete_default (d : Domain) (cs : ColoStatus) : ¬ Complete d cs default := by
  intro h
  have hargs := h.args
  nomatch hargs

theorem complete_coloCmd_iff {role : ColoDomainStatus} {d : Domain} {cs : ColoStatus} :
    Complete d cs (coloCmd role d cs) ↔ d.knownOs ∧ (role = .primary ∨ role = .secondary) := by
  constructor
  · intro h
    refine ⟨h.knownOs, ?_⟩
    cases role with
    | primary => exact .inl rfl
    | secondary => exact .inr rfl
    | _ => exact absurd h (not_complete_default d cs)
  · rintro ⟨hos, rfl | rfl⟩
    · exact complete_generatePvmCmd cs hos
    · exact complete_generateSvmCmd cs hos

/-! ## The property -/

/-- The start handlers call `run_new_vm` with complete commands only. -/
def OnlyComplete (env : Env) (script : Script) (req : Request) (nd : Node) : Prop :=
  ∀ name cmd, CallsRunNewVm env script req nd name cmd →
    ∃ domainName colo d, req.Starts domainName colo ∧ nd.getDomain domainName = .ok d ∧
      Complete d nd.currentStatus cmd

/-- The handler returns a negative code and has launched nothing. -/
def Declines (act : Colod) (script : Script) (nd : Node) : Prop :=
  ∃ ret nd', act.follow Node.osAfter script = .returned ret nd' ∧ ret.code < 0 ∧ NoLaunch nd nd'

/-- A start that does not call `run_new_vm` declines. -/
def OtherwiseDeclines (env : Env) (script : Script) (req : Request) (nd : Node) : Prop :=
  ∀ domainName colo, req.Starts domainName colo →
    (∀ name cmd, ¬ CallsRunNewVm env script req nd name cmd) →
      Declines (handle env req nd) script nd

/-- A start that reaches `run_new_vm` has a generator which knows the guest system. -/
def HasGenerator (script : Script) (req : Request) (nd : Node) : Prop :=
  ∀ d, Launches script nd req d → d.knownOs ∧ ∀ domainName, req.Starts domainName true →
    (nd.dom domainName).coloStatus = .primary ∨ (nd.dom domainName).coloStatus = .secondary

/-- Nothing but a refusal ends a start before `run_new_vm`: the files it reads
are in order, a COLO start is of an enabled domain over a usable client, and
colod is not killed while it waits for the peer. -/
def StopsOnlyByRefusal (script : Script) (nd : Node) : Request → Prop
  | .start domainName colo => (nd.testDomainStatus domainName).1 = .shutOff →
      match (nd.testDomainStatus domainName).2.getDomain domainName with
      | .error (.thrown _) => False
      | .error (.refused _) => True
      | .ok _ => colo = true → (nd.dom domainName).coloEnable = true ∧
          nd.remoteClient.usable = true ∧ script ≠ []
  | .peerStartDomain domainName colo => colo = true → (nd.dom domainName).coloEnable = true →
      ∀ exn, nd.getDomain domainName ≠ .error (.thrown exn)
  | _ => True

theorem onlyComplete_iff (env : Env) (script : Script) (req : Request) (nd : Node) :
    OnlyComplete env script req nd ↔ HasGenerator script req nd := by
  have hone : OnlyComplete env script req nd ↔
      ∀ d, Launches script nd req d → Complete d nd.currentStatus (nd.vmCmd d req) := by
    constructor
    · intro h d hlaunches
      obtain ⟨domainName, colo, d', hstarts, hget, hcomplete⟩ :=
        h d.name _ ((callsRunNewVm_iff env script req nd _ _).mpr ⟨d, hlaunches, rfl, rfl⟩)
      have hsame : nd.getDomain domainName = .ok d := by
        rcases hstarts with rfl | rfl
        · exact hlaunches.2.1
        · exact hlaunches.2.2
      obtain rfl : d' = d := Except.ok.inj (hget.symm.trans hsame)
      exact hcomplete
    · intro h name cmd hcalls
      obtain ⟨d, hlaunches, -, rfl⟩ := (callsRunNewVm_iff env script req nd _ _).mp hcalls
      have hcomplete := h d hlaunches
      cases req with
      | start domainName colo =>
          exact ⟨domainName, colo, d, .inl rfl, hlaunches.2.1, hcomplete⟩
      | peerStartDomain domainName colo =>
          exact ⟨domainName, colo, d, .inr rfl, hlaunches.2.2, hcomplete⟩
      | _ => exact hlaunches.elim
  rw [hone]
  unfold HasGenerator
  apply forall_congr'
  intro d
  apply forall_congr'
  intro hlaunches
  cases req with
  | start domainName colo =>
      cases colo with
      | false =>
          simpa [Node.vmCmd, Request.Starts] using
            ⟨Complete.knownOs, complete_generateVmCmd nd.currentStatus⟩
      | true => simpa [Node.vmCmd, Request.Starts] using complete_coloCmd_iff
  | peerStartDomain domainName colo =>
      obtain rfl := hlaunches.1
      simpa [Node.vmCmd, Request.Starts] using complete_coloCmd_iff
  | _ => exact hlaunches.elim

theorem not_declines_crash (script : Script) (nd nd' : Node) :
    ¬ Declines (.crash nd') script nd := by
  rintro ⟨ret, nd'', hcrash, -⟩
  nomatch hcrash

theorem not_declines_success (script : Script) (nd nd' : Node) (msg : String) :
    ¬ Declines (.done ⟨0, msg⟩ nd') script nd := by
  rintro ⟨ret, nd'', hdone, hneg, -⟩
  obtain ⟨rfl, -⟩ := Outcome.returned.inj hdone
  simp at hneg

theorem declines_refusal {nd nd' : Node} (hno : NoLaunch nd nd') (script : Script)
    (msg : String) : Declines (.done ⟨-1, msg⟩ nd') script nd :=
  ⟨⟨-1, msg⟩, nd', rfl, by simp, hno⟩

/-- A call whose failing reply ends the handler. -/
theorem declines_checkReply_iff {first nd : Node} {script : Script} {request : Request}
    {failure : String} {k : Node → Colod} (hno : NoLaunch first nd)
    (husable : nd.remoteClient.usable = true) (hrefused : accepted (script.reply 0) = false) :
    Declines (nd.remoteCall request fun ret nd => checkReply failure ret nd k) script first ↔
      script ≠ [] := by
  have hcalled : NoLaunch first (nd.called request) := hno.trans ⟨_, rfl, by simp⟩
  rw [Node.remoteCall_of_usable husable]
  cases script with
  | nil =>
      refine iff_of_false ?_ (by simp)
      rintro ⟨ret, nd', hkilled, -⟩
      nomatch hkilled
  | cons entry rest =>
      refine iff_of_true ?_ (by simp)
      obtain ⟨msg, nd', heq, hsame⟩ := received_checkReply_refused hrefused failure k
        ((nd.called request).osAfter entry.1)
      refine ⟨⟨-1, msg⟩, nd', ?_, by simp, hcalled.trans (noLaunch_of_log_eq hsame.log)⟩
      show (Node.received _ entry.2 _).follow _ rest = _
      rw [show entry.2 = Script.reply (entry :: rest) 0 from rfl, heq]
      rfl

theorem colodStart_declines_iff (env : Env) (script : Script) (domainName : String)
    (colo : Bool) (nd : Node) :
    ((∀ d, ¬ Launches script nd (.start domainName colo) d) →
        Declines (colodStart env domainName colo nd) script nd) ↔
      StopsOnlyByRefusal script nd (.start domainName colo) := by
  have hno : NoLaunch nd (nd.testDomainStatus domainName).2 := noLaunch_of_log_eq (by simp)
  unfold colodStart StopsOnlyByRefusal Launches
  simp only [Node.testDomainStatus_touch]
  by_cases hoff : (nd.testDomainStatus domainName).1 = .shutOff
  · simp only [hoff, ne_eq, not_true_eq_false, if_false, true_and, true_implies]
    cases hd : (nd.testDomainStatus domainName).2.getDomain domainName with
    | error stop =>
        have hnone := getDomain_ne_ok_of_error hd
        simp only [hnone, false_and, not_false_eq_true, implies_true, true_implies]
        cases stop with
        | thrown exn => exact iff_of_false (not_declines_crash script nd _) not_false
        | refused err => exact iff_of_true (declines_refusal hno script _) trivial
    | ok d =>
        have hget : nd.getDomain domainName = .ok d :=
          (getDomain_testDomainStatus domainName nd d).mp hd
        simp only [hget, Except.ok.injEq, not_and, forall_eq']
        cases colo with
        | false => simp
        | true =>
            simp only [Bool.not_true, Bool.false_eq_true, if_false, true_implies,
              Node.coloEnable_testDomainStatus]
            cases henable : (nd.dom domainName).coloEnable with
            | false => simpa using not_declines_success script nd _ _
            | true =>
                simp only [Bool.not_true, Bool.false_eq_true, if_false, true_and]
                cases husable : nd.remoteClient.usable with
                | false =>
                    rw [Node.remoteCall_of_not_usable (by simpa using husable)]
                    simpa using not_declines_crash script nd _
                | true =>
                    have husable' := Node.usable_testDomainStatus husable domainName
                    cases haccepted : accepted (script.reply 0) with
                    | true =>
                        have hnonempty : script ≠ [] := by
                          rintro rfl
                          exact absurd haccepted (by decide)
                        simpa using hnonempty
                    | false =>
                        simpa using declines_checkReply_iff hno husable' haccepted
  · simp only [hoff, ne_eq, not_false_eq_true, if_true, false_implies, iff_true]
    exact fun _ => declines_refusal hno script _

theorem peerColodStartDomain_declines_iff (env : Env) (script : Script) (domainName : String)
    (colo : Bool) (nd : Node) :
    ((∀ d, ¬ Launches script nd (.peerStartDomain domainName colo) d) →
        Declines (peerColodStartDomain env domainName colo nd) script nd) ↔
      StopsOnlyByRefusal script nd (.peerStartDomain domainName colo) := by
  have hno : NoLaunch nd (nd.touch domainName) := noLaunch_of_log_eq rfl
  unfold peerColodStartDomain StopsOnlyByRefusal Launches
  cases colo with
  | false => simpa using declines_refusal (.refl nd) script _
  | true =>
      have hget : (nd.touch domainName).getDomain domainName = nd.getDomain domainName := rfl
      simp only [Bool.not_true, Bool.false_eq_true, if_false, Node.dom_touch, true_and, hget,
        true_implies]
      cases henable : (nd.dom domainName).coloEnable with
      | false => simpa using declines_refusal hno script _
      | true =>
          simp only [Bool.not_true, Bool.false_eq_true, if_false, true_and, true_implies]
          cases hd : nd.getDomain domainName with
          | error stop =>
              cases stop with
              | thrown exn => simpa using not_declines_crash script nd _
              | refused err => simpa using declines_refusal hno script _
          | ok d => simp

theorem otherwiseDeclines_iff (env : Env) (script : Script) (req : Request) (nd : Node) :
    OtherwiseDeclines env script req nd ↔ StopsOnlyByRefusal script nd req := by
  have hcalls : (∀ name cmd, ¬ CallsRunNewVm env script req nd name cmd) ↔
      ∀ d, ¬ Launches script nd req d := by
    simp only [callsRunNewVm_iff]
    constructor
    · exact fun h d hlaunches => h d.name _ ⟨d, hlaunches, rfl, rfl⟩
    · rintro h name cmd ⟨d, hlaunches, -⟩
      exact h d hlaunches
  unfold OtherwiseDeclines
  rw [hcalls]
  cases req with
  | start domainName colo =>
      rw [← colodStart_declines_iff env script domainName colo nd]
      constructor
      · exact fun h => h domainName colo (.inl rfl)
      · exact fun h _ _ _ => h
  | peerStartDomain domainName colo =>
      rw [← peerColodStartDomain_declines_iff env script domainName colo nd]
      constructor
      · exact fun h => h domainName colo (.inr rfl)
      · exact fun h _ _ _ => h
  | _ => exact iff_of_true (fun _ _ hstarts => by simp [Request.Starts] at hstarts) trivial

/-! ## Runs -/

def EventOnlyComplete (server : Server) : ServerEvent → Prop
  | .request req env script => server.up = true → OnlyComplete env script req server.node
  | _ => True

def EventHasGenerator (server : Server) : ServerEvent → Prop
  | .request req _ script => server.up = true → HasGenerator script req server.node
  | _ => True

def EventOtherwiseDeclines (server : Server) : ServerEvent → Prop
  | .request req env script => server.up = true → OtherwiseDeclines env script req server.node
  | _ => True

def EventStopsOnlyByRefusal (server : Server) : ServerEvent → Prop
  | .request req _ script => server.up = true → StopsOnlyByRefusal script server.node req
  | _ => True

/-- In a run only complete commands are executed exactly when each start that
reaches `run_new_vm` has a generator which knows the guest system; the other
starts all decline exactly when no success, exception or kill ends one of them. -/
theorem along_onlyComplete_iff (server : Server) (events : List ServerEvent) :
    (Along Server.step EventOnlyComplete server events ↔
        Along Server.step EventHasGenerator server events) ∧
      (Along Server.step (fun server event => EventOnlyComplete server event ∧
          EventOtherwiseDeclines server event) server events ↔
        Along Server.step (fun server event => EventHasGenerator server event ∧
          EventStopsOnlyByRefusal server event) server events) := by
  have hcomplete : ∀ server event,
      EventOnlyComplete server event ↔ EventHasGenerator server event := by
    intro server event
    cases event with
    | request req env script =>
        exact forall_congr' fun _ => onlyComplete_iff env script req server.node
    | _ => exact Iff.rfl
  have hdeclines : ∀ server event,
      EventOtherwiseDeclines server event ↔ EventStopsOnlyByRefusal server event := by
    intro server event
    cases event with
    | request req env script =>
        exact forall_congr' fun _ => otherwiseDeclines_iff env script req server.node
    | _ => exact Iff.rfl
  constructor
  · exact along_congr hcomplete server events
  · exact along_congr (fun server event => and_congr (hcomplete server event)
      (hdeclines server event)) server events

/-- The secondary of `d` fails over and is destroyed. -/
def failedOverAndDestroyed : List ServerEvent :=
  startedSecondary ++ [.request (.doFailover "d") (.smooth 100) [],
    .request (.destroy "d") (.smooth 100) []]

theorem not_along_onlyComplete_failedOverAndDestroyed :
    ¬ Along Server.step (fun server event => EventOnlyComplete server event ∧
        EventOtherwiseDeclines server event) (Server.boot .fresh)
      (failedOverAndDestroyed ++ [.request (.peerStartDomain "d" true) (.smooth 200) []]) := by
  intro h
  obtain ⟨⟨hlast, -⟩, -⟩ := (along_append.mp h).2
  have hgenerator := (onlyComplete_iff (.smooth 200) [] (.peerStartDomain "d" true) _).mp
    (hlast (by decide +kernel))
  obtain ⟨-, hrole⟩ := hgenerator (sampleDomain "d")
    ⟨rfl, by decide +kernel, by decide +kernel⟩
  rcases hrole "d" (.inr rfl) with hprimary | hsecondary
  · revert hprimary
    decide +kernel
  · revert hsecondary
    decide +kernel

end ColoManage
