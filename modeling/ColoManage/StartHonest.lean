import ColoManage.Launches
import ColoManage.Server

/-!
# What a start reports

`colod_start` followed through its exits: whether the code it returns tells the
truth about a launched VM depends on the stored definition, the command made of
it, the fork, the state of the client, the replies of the peer and the QMP
exchange.  `HonestWhen` collects these.
-/

namespace ColoManage

open Resumption

/-! ## The property -/

/-- The handler has launched a process for the domain with this pid, and it is a VM: the
command is a complete one for the definition of the domain, and can be executed. -/
def LaunchedSince (starts : ShellCommand → Bool) (nd nd' : Node) (domainName : String)
    (pid : ℤ) : Prop :=
  ∃ d cmd new, nd.getDomain domainName = .ok d ∧ nd'.log = nd.log ++ new ∧
    .launch domainName cmd pid ∈ new ∧ Complete d nd.currentStatus cmd ∧ starts cmd = true

def RecordedRunning (nd : Node) (domainName : String) (pid : ℤ) : Prop :=
  (∃ ds, nd.domains.lookup domainName = some ds ∧ ds.pid = pid ∧ ds.status ≠ .shutOff) ∧
    ∃ entry, nd.save.find domainName = some entry ∧ entry.pid = pid ∧
      mapAt domainStatusMap entry.status ≠ .shutOff

/-- A start returns, and a code that is not negative means a launch on record. -/
def StartHonest (starts : ShellCommand → Bool) (domainName : String) (nd : Node) :
    Outcome Node ColodRetVal → Prop
  | .returned ret nd' =>
      0 ≤ ret.code → ∃ pid, 0 < pid ∧ LaunchedSince starts nd nd' domainName pid ∧
        RecordedRunning nd' domainName pid
  | .crashed _ => False

/-! ## When it holds -/

/-- How the part after the launch ends, from the role, the QMP exchange and the
reply to the second call. -/
def coloTailEnd (env : Env) (role : ColoDomainStatus) (reply : Option ValueT) : Node.QmpEnd :=
  match role with
  | .primary => if accepted reply then Node.qmpScriptEnd env.qmp 6 else .failed
  | .secondary =>
      match Node.qmpScriptEnd env.qmp 4 with
      | .died => .died
      | .failed => .failed
      | .complete => if accepted reply then .complete else .failed
  | _ => .complete

/-- The definition carries the domain's name, the guest system is a known one, and the
command can be executed. -/
def Bootable (starts : ShellCommand → Bool) (domainName : String) (d : Domain)
    (cmd : ShellCommand) : Prop :=
  d.name = domainName ∧ d.knownOs ∧ starts cmd = true

/-- A native start needs a fork; a COLO start an enabled domain, a usable client
and, once the VM is launched, a QMP exchange that colod survives.  A launch
reported as a success must be of a bootable definition, and in COLO mode the domain must
have one of the two roles. -/
def HonestWhen (starts : ShellCommand → Bool) (env : Env) (script : Script) (domainName : String)
    (colo : Bool) (nd : Node) : Prop :=
  (nd.testDomainStatus domainName).1 = .shutOff →
    match (nd.testDomainStatus domainName).2.getDomain domainName with
    | .error (.thrown _) => False
    | .error (.refused _) => True
    | .ok d =>
        if colo then
          (nd.dom domainName).coloEnable = true ∧ nd.remoteClient.usable = true ∧
            (accepted (script.reply 0) = true →
              (nd.os.after script.meanwhile).fork env.fork d.name ≠ none →
                coloTailEnd env (nd.dom domainName).coloStatus (script.reply 1) ≠ .died ∧
                  (coloTailEnd env (nd.dom domainName).coloStatus (script.reply 1) = .complete →
                    ((nd.dom domainName).coloStatus = .primary ∨
                        (nd.dom domainName).coloStatus = .secondary) ∧
                      Bootable starts domainName d
                        (coloCmd (nd.dom domainName).coloStatus d nd.currentStatus)))
        else nd.os.fork env.fork d.name ≠ none ∧
          Bootable starts domainName d (generateVmCmd d).2

/-! ## The exits -/

structure Quiet (nd nd' : Node) : Prop where
  domains : nd'.domains = nd.domains
  save : nd'.save = nd.save
  log : NoLaunch nd nd'

theorem Quiet.refl (nd : Node) : Quiet nd nd := ⟨rfl, rfl, [], by simp, by simp⟩

theorem Quiet.trans {nd₁ nd₂ nd₃ : Node} (h₁ : Quiet nd₁ nd₂) (h₂ : Quiet nd₂ nd₃) :
    Quiet nd₁ nd₃ :=
  ⟨h₂.domains.trans h₁.domains, h₂.save.trans h₁.save, h₁.log.trans h₂.log⟩

theorem quiet_sentQmp (nd : Node) (texts : List String) : Quiet nd (nd.sentQmp texts) :=
  ⟨rfl, rfl, _, rfl, by simp⟩

theorem quiet_answered (nd : Node) (request : Request) (events : List OsEvent) :
    Quiet nd ((nd.called request).osAfter events).replied :=
  ⟨rfl, rfl, _, rfl, by simp⟩

/-- How an outcome agrees with an end: only a complete one returns `0`, and it
leaves what came before it. -/
def EndsAs (nd : Node) (o : Outcome Node ColodRetVal) : Node.QmpEnd → Prop
  | .died => ∃ nd', o = .crashed nd'
  | .failed => ∃ msg nd', o = .returned ⟨-1, msg⟩ nd'
  | .complete => ∃ msg nd', o = .returned ⟨0, msg⟩ nd' ∧ Quiet nd nd'

theorem startQmp_endsAs {nd : Node} (husable : nd.remoteClient.usable = true) (env : Env)
    (domainName : String) (role : ColoDomainStatus) (d : Domain) (script : Script) :
    EndsAs nd ((startQmp env domainName role d nd).exec answering script).1
      (coloTailEnd env role (script.reply 0)) := by
  cases role with
  | primary =>
      unfold startQmp coloTailEnd
      dsimp only
      by_cases haccepted : accepted (script.reply 0) = true
      · rw [exec_checkReply_accepted husable (answering_eq _ _ _) haccepted, if_pos haccepted,
          Node.sendQmpCmds_eq]
        have hlength : ∀ cs cds, (generatePvmQmpcmd d cs cds).length = 6 := fun _ _ => rfl
        rw [hlength]
        cases Node.qmpScriptEnd env.qmp 6 with
        | died => exact ⟨_, rfl⟩
        | failed => exact ⟨_, _, rfl⟩
        | complete =>
            exact ⟨_, _, rfl, (quiet_answered nd _ script.meanwhile).trans (quiet_sentQmp _ _)⟩
      · rw [if_neg haccepted]
        obtain ⟨msg, nd', heq, -⟩ := exec_checkReply_refused husable (answering_eq _ _ _)
          (by simpa using haccepted)
          ("colo domain " ++ domainName ++ " start failed :  secondary send qmpcmd failed.")
          _
        exact ⟨msg, nd', congrArg Prod.fst heq⟩
  | secondary =>
      unfold startQmp coloTailEnd
      dsimp only
      rw [Node.sendQmpCmds_eq]
      have hlength : ∀ cs cds, (generateSvmQmpcmd d cs cds).length = 4 := fun _ _ => rfl
      rw [hlength]
      cases Node.qmpScriptEnd env.qmp 4 with
      | died => exact ⟨_, rfl⟩
      | failed => exact ⟨_, _, rfl⟩
      | complete =>
          generalize hsent : nd.sentQmp _ = nd₁
          have hquiet : Quiet nd nd₁ := hsent ▸ quiet_sentQmp nd _
          have husable₁ : nd₁.remoteClient.usable = true := by rw [← hsent]; exact husable
          dsimp only [Node.QmpEnd.result, checkQmp]
          by_cases haccepted : accepted (script.reply 0) = true
          · rw [if_neg (by decide), if_pos haccepted,
              exec_checkReply_accepted husable₁ (answering_eq _ _ _) haccepted]
            exact ⟨_, _, rfl, hquiet.trans (quiet_answered nd₁ _ script.meanwhile)⟩
          · rw [if_neg (by decide), if_neg haccepted]
            obtain ⟨msg, nd', heq, -⟩ := exec_checkReply_refused husable₁ (answering_eq _ _ _)
              (by simpa using haccepted)
              ("colo domain " ++ domainName ++ " start failed :  primary send qmpcmd failed.")
              _
            exact ⟨msg, nd', congrArg Prod.fst heq⟩
  | none => exact ⟨_, _, rfl, rfl, rfl, [], by simp, by simp⟩
  | failover => exact ⟨_, _, rfl, rfl, rfl, [], by simp, by simp⟩
  | degrade => exact ⟨_, _, rfl, rfl, rfl, [], by simp, by simp⟩
  | dead => exact ⟨_, _, rfl, rfl, rfl, [], by simp, by simp⟩

section

variable (starts : ShellCommand → Bool) {nd nd₀ nd' : Node} {env : Env} {domainName : String}
  {d : Domain} {cmd : ShellCommand}

theorem not_launchedSince (h : NoLaunch nd nd') (domainName : String) (pid : ℤ) :
    ¬ LaunchedSince starts nd nd' domainName pid := by
  obtain ⟨more, hmore, hnone⟩ := h
  rintro ⟨d, cmd, new, -, hnew, hmem, -⟩
  have heq : new = more := List.append_cancel_left (hnew.symm.trans hmore)
  exact hnone domainName cmd pid (heq ▸ hmem)

/-- After one launch, recorded under the requested name, a success is honest
exactly when the launched definition carries that name and its command makes a VM. -/
theorem honest_launched_iff {pid : ℤ} {os : ProcessTable} {status : DomainStatus}
    (hget : nd.getDomain domainName = .ok d)
    (hbefore : NoLaunch nd nd₀) (hfork : nd₀.os.fork env.fork d.name = some (pid, os))
    (hentry : (nd₀.save.find domainName).isSome) (hstatus : status ≠ .shutOff)
    (hafter : Quiet ((nd₀.launched d.name cmd pid os).modDom domainName fun ds =>
      { ds with pid, status }) nd') :
    (∃ pid, 0 < pid ∧ LaunchedSince starts nd nd' domainName pid ∧
        RecordedRunning nd' domainName pid) ↔
      d.name = domainName ∧ Complete d nd.currentStatus cmd ∧ starts cmd = true := by
  obtain ⟨before, hlog, hnone⟩ := hbefore
  obtain ⟨after, hlog', hnone'⟩ := hafter.log
  have hall : nd'.log = nd.log ++ (before ++ [.launch d.name cmd pid] ++ after) := by
    rw [hlog']
    show (nd₀.log ++ [Effect.launch d.name cmd pid]) ++ after = _
    rw [hlog]
    simp
  constructor
  · rintro ⟨pid', -, ⟨d', cmd', new, hget', hnew, hmem, hcomplete, hstarts⟩, -⟩
    rw [List.append_cancel_left (hnew.symm.trans hall)] at hmem
    simp only [List.mem_append, List.mem_singleton, hnone, hnone', Effect.launch.injEq,
      or_false, false_or] at hmem
    obtain ⟨hname, rfl, -⟩ := hmem
    obtain rfl : d' = d := Except.ok.inj (hget'.symm.trans hget)
    exact ⟨hname.symm, hcomplete, hstarts⟩
  · rintro ⟨rfl, hcomplete, hstarts⟩
    obtain ⟨entry, hfind⟩ := Option.isSome_iff_exists.mp hentry
    refine ⟨pid, (ProcessTable.fork_eq_some hfork).1,
      ⟨d, cmd, _, hget, hall, by simp, hcomplete, hstarts⟩,
      ⟨{ nd₀.dom d.name with pid, status }, ?_, rfl, hstatus⟩,
      { entry with pid, status := "running" }, ?_, rfl, ?_⟩
    · rw [hafter.domains, Node.lookup_modDom, if_pos rfl]
      rfl
    · rw [hafter.save]
      show (saveDomainPid d.name pid nd₀.save).find d.name = _
      rw [find_saveDomainPid, if_pos rfl, hfind]
      rfl
    · show mapAt domainStatusMap "running" ≠ .shutOff
      decide

theorem not_honest_of_noLaunch (h : NoLaunch nd nd') (domainName msg : String) :
    ¬ StartHonest starts domainName nd (.returned ⟨0, msg⟩ nd') := by
  intro hhonest
  obtain ⟨pid, -, hlaunched, -⟩ := hhonest (by simp)
  exact not_launchedSince starts h domainName pid hlaunched

theorem startNative_honest_iff (hget : nd.getDomain domainName = .ok d)
    (hno : NoLaunch nd nd₀) (hos : nd₀.os = nd.os)
    (hentry : (nd₀.save.find domainName).isSome) (env : Env) (script : Script) :
    StartHonest starts domainName nd ((startNative env domainName d nd₀).exec answering script).1 ↔
      nd.os.fork env.fork d.name ≠ none ∧ Bootable starts domainName d (generateVmCmd d).2 := by
  have hcomplete : Complete d nd.currentStatus (generateVmCmd d).2 ↔ d.knownOs :=
    ⟨Complete.knownOs, complete_generateVmCmd nd.currentStatus⟩
  rw [← hos]
  unfold startNative Bootable
  rcases nd₀.runNewVm_cases env d.name (generateVmCmd d).2 with
    ⟨hfork, heq⟩ | ⟨pid, os, hfork, heq⟩
  · rw [heq]
    have hno' : NoLaunch nd (nd₀.modDom domainName fun ds =>
        { ds with pid := -1, status := .running }) := hno
    have hnot := not_honest_of_noLaunch starts hno' domainName
      ("domain " ++ domainName ++ " start.")
    simpa [hfork] using hnot
  · rw [heq]
    have hiff := honest_launched_iff starts hget hno hfork hentry (by decide)
      (Quiet.refl ((nd₀.launched d.name (generateVmCmd d).2 pid os).modDom domainName fun ds =>
        { ds with pid, status := .running }))
    rw [hcomplete] at hiff
    simpa [hfork, StartHonest] using hiff

theorem startHost_honest_iff (hget : nd.getDomain domainName = .ok d)
    (hno : NoLaunch nd nd₀) (husable : nd₀.remoteClient.usable = true)
    (hconnection : nd₀.currentStatus = nd.currentStatus)
    (hentry : (nd₀.save.find domainName).isSome) (env : Env) (role : ColoDomainStatus)
    (script : Script) :
    StartHonest starts domainName nd
        ((startHost env domainName role d nd₀).exec answering script).1 ↔
      (nd₀.os.fork env.fork d.name ≠ none →
        coloTailEnd env role (script.reply 0) ≠ .died ∧
          (coloTailEnd env role (script.reply 0) = .complete →
            (role = .primary ∨ role = .secondary) ∧
              Bootable starts domainName d (coloCmd role d nd.currentStatus))) := by
  unfold startHost
  rcases nd₀.runNewVm_cases env d.name (coloCmd role d nd₀.currentStatus) with
    ⟨hfork, heq⟩ | ⟨pid, os, hfork, heq⟩
  · rw [heq]
    simp [hfork, StartHonest]
  · rw [heq]
    have hpos := (ProcessTable.fork_eq_some hfork).1
    have hpos' : ¬ pid < 0 := by omega
    generalize hnd₂ : (nd₀.launched d.name (coloCmd role d nd₀.currentStatus) pid os).modDom
      domainName (fun ds => { ds with pid, status := .coloEnabled }) = nd₂
    have husable₂ : nd₂.remoteClient.usable = true := by
      rw [← hnd₂]
      exact husable
    have hends := startQmp_endsAs husable₂ env domainName role d script
    simp only [hpos', if_false, hnd₂, hfork, ne_eq, reduceCtorEq, not_false_eq_true,
      true_implies]
    cases hend : coloTailEnd env role (script.reply 0) with
    | died =>
        rw [hend] at hends
        obtain ⟨nd', hout⟩ := hends
        simp [hout, StartHonest]
    | failed =>
        rw [hend] at hends
        obtain ⟨msg, nd', hout⟩ := hends
        simp [hout, StartHonest]
    | complete =>
        rw [hend] at hends
        obtain ⟨msg, nd', hout, hquiet⟩ := hends
        have hiff := honest_launched_iff starts hget hno hfork hentry (by decide)
          (hnd₂ ▸ hquiet)
        rw [hconnection, complete_coloCmd_iff] at hiff
        have hreorder : (d.name = domainName ∧ (d.knownOs ∧ (role = .primary ∨ role = .secondary)) ∧
            starts (coloCmd role d nd.currentStatus) = true) ↔
              (role = .primary ∨ role = .secondary) ∧
                Bootable starts domainName d (coloCmd role d nd.currentStatus) := by
          unfold Bootable
          tauto
        simpa [hout, StartHonest] using hiff.trans hreorder

end

/-- `colod_start` reports the truth exactly when `HonestWhen` holds. -/
theorem startHonest_iff (starts : ShellCommand → Bool) (env : Env) (script : Script)
    (domainName : String) (colo : Bool) (nd : Node) :
    StartHonest starts domainName nd
        ((colodStart env domainName colo nd).exec answering script).1 ↔
      HonestWhen starts env script domainName colo nd := by
  have hno : NoLaunch nd (nd.testDomainStatus domainName).2 := noLaunch_of_log_eq (by simp)
  have hos : (nd.testDomainStatus domainName).2.os = nd.os :=
    Node.testDomainStatus_os domainName nd
  have hclient : (nd.testDomainStatus domainName).2.remoteClient = nd.remoteClient :=
    Node.testDomainStatus_remoteClient domainName nd
  have hconnection : (nd.testDomainStatus domainName).2.currentStatus = nd.currentStatus :=
    Node.testDomainStatus_currentStatus domainName nd
  have hcolo : ((nd.testDomainStatus domainName).2.dom domainName).coloEnable =
      (nd.dom domainName).coloEnable := Node.coloEnable_testDomainStatus domainName nd
  have hsame := getDomain_testDomainStatus domainName nd
  unfold colodStart HonestWhen
  simp only [Node.testDomainStatus_touch]
  generalize nd.testDomainStatus domainName = test at hno hos hclient hconnection hcolo hsame ⊢
  by_cases hoff : test.1 = .shutOff
  · simp only [hoff, ne_eq, not_true_eq_false, if_false, true_implies]
    cases hd : test.2.getDomain domainName with
    | error stop =>
        cases stop with
        | thrown exn => simp [StartHonest]
        | refused err => simp [StartHonest]
    | ok d =>
        have hentry := Node.find_of_getDomain hd
        have hget := (hsame d).mp hd
        cases colo with
        | false => simpa using startNative_honest_iff starts hget hno hos hentry env script
        | true =>
            by_cases henabled : (nd.dom domainName).coloEnable = true
            · by_cases husable : nd.remoteClient.usable = true
              · have husable₀ : test.2.remoteClient.usable = true := by rw [hclient, husable]
                simp only [hcolo, henabled, husable, Bool.not_true, if_false, if_true,
                  Bool.false_eq_true, true_and]
                by_cases haccepted : accepted (script.reply 0) = true
                · rw [exec_checkReply_accepted husable₀ (answering_eq _ _ _) haccepted]
                  have hafter := hno.trans (quiet_answered test.2
                    (.peerStartDomain domainName true) script.meanwhile).log
                  have husable₁ := usable_answered husable₀
                    (.peerStartDomain domainName true) script.meanwhile
                  simp only [haccepted, true_implies]
                  rw [startHost_honest_iff starts hget hafter husable₁ hconnection hentry env,
                    Script.reply_tail, ← hos]
                  rfl
                · obtain ⟨msg, nd', heq, -⟩ := exec_checkReply_refused husable₀
                    (answering_eq _ _ _) (by simpa using haccepted)
                    ("colo domain " ++ domainName ++ " secondary start failed.")
                    (startHost env domainName (nd.dom domainName).coloStatus d)
                  rw [heq]
                  simp [StartHonest, haccepted]
              · have husable₀ : test.2.remoteClient.usable = false := by
                  rw [hclient]
                  simpa using husable
                simp only [hcolo, henabled, Bool.not_true, Bool.false_eq_true, if_false]
                rw [exec_of_not_usable husable₀]
                simp [StartHonest, husable]
            · simp only [hcolo, henabled]
              simpa using not_honest_of_noLaunch starts hno domainName
                ("domain " ++ domainName ++ " is not colo enable.")
  · simp [hoff, StartHonest]

theorem StartHonest.pid_pos {starts : ShellCommand → Bool} {domainName : String} {nd : Node}
    {o : Outcome Node ColodRetVal} (h : StartHonest starts domainName nd o)
    (hcode : o.value.map ColodRetVal.code = some 0) :
    ∃ pid, 0 < pid ∧
      (o.state.domains.lookup domainName).map ColodDomainStatus.pid = some pid := by
  obtain ⟨ret, nd', rfl, hret⟩ := Outcome.exists_returned hcode
  obtain ⟨pid, hpos, -, ⟨ds, hds, rfl, -⟩, -⟩ := h (by omega)
  exact ⟨ds.pid, hpos, by simp [Outcome.state, hds]⟩

/-- A native start whose fork fails is reported as a success. -/
theorem not_startHonest_fork_fails :
    ¬ StartHonest (fun _ => true) "d" definedNode
      ((colodStart { Env.smooth 100 with fork := none } "d" false definedNode).exec
        answering []).1 := by
  intro h
  obtain ⟨pid, hpos, hpid⟩ := h.pid_pos (by decide +kernel)
  have hrecorded : (((colodStart { Env.smooth 100 with fork := none } "d" false
      definedNode).exec answering []).1.state.domains.lookup "d").map ColodDomainStatus.pid =
        some (-1) := by
    decide +kernel
  have heq := Option.some.inj (hrecorded.symm.trans hpid)
  omega

end ColoManage
