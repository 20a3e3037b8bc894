import ColoManage.Server
import ColoManage.Steps

/-!
# Which VM a QMP list reaches

The port that a VM opens for QMP is the `telnet_port` of its definition, which
the generators put into the command line.  `send_qmp_cmds` connects to a port of
its own.  A list reaches the VM of its domain exactly when the two ports are
the same for that VM and for no running VM of another domain.
-/

namespace ColoManage

open Resumption EventSystem

/-! ## The port of a VM -/

/-- The options of the command lines that stand without a value. -/
def isFlag (opt : String) : Bool :=
  opt = "-enable-kvm" || opt = "-no-user-config" || opt = "-nodefaults" || opt = "-S"

/-- The options of an emulator's command line with their values. -/
def options : List String → List (String × String)
  | [] => []
  | [_] => []
  | opt :: value :: rest =>
      if isFlag opt then options (value :: rest) else (opt, value) :: options rest

def qmpChardev : String := "socket,id=qmp,port="

def chardevPort (value : String) : Option ℕ :=
  if qmpChardev.toList.isPrefixOf value.toList then
    some (Nat.ofDigitChars 10
      ((value.toList.drop qmpChardev.length).takeWhile Char.isDigit) 0)
  else none

/-- The port of the character device `qmp`.  The first argument is the name of the emulator. -/
def ShellCommand.qmpPort (cmd : ShellCommand) : Option ℕ :=
  (options cmd.args.tail).findSome? fun option =>
    if option.1 = "-chardev" then chardevPort option.2 else none

theorem chardevPort_eq (port : UInt16) {chardevEnd : String}
    (hend : chardevEnd.toList.head? = some ',') :
    chardevPort (qmpChardev ++ portStr port ++ chardevEnd) = some port.toNat := by
  have hlist : (qmpChardev ++ portStr port ++ chardevEnd).toList =
      qmpChardev.toList ++ (Nat.toDigits 10 port.toNat ++ chardevEnd.toList) := by
    simp [portStr]
  have hdigits : ∀ c ∈ Nat.toDigits 10 port.toNat, c.isDigit = true := fun c hc =>
    Nat.isDigit_of_mem_toDigits (by decide) (by decide) hc
  have hstop : chardevEnd.toList.takeWhile Char.isDigit = [] := by
    cases hcs : chardevEnd.toList with
    | nil => rfl
    | cons c cs =>
        rw [hcs, List.head?_cons, Option.some.injEq] at hend
        rw [hend]
        rfl
  unfold chardevPort
  rw [hlist, if_pos (List.isPrefixOf_iff_prefix.mpr (List.prefix_append _ _)),
    List.drop_left' String.length_toList, List.takeWhile_append_of_pos hdigits, hstop,
    List.append_nil, Nat.ofDigitChars_ten_toDigits]

theorem qmpPort_machineArgs (d : Domain) (telnetPort : UInt16) {chardevEnd : String}
    (hend : chardevEnd.toList.head? = some ',') (binaryPath : String) (more : List String) :
    (ShellCommand.mk binaryPath (machineArgs d telnetPort chardevEnd ++ more)).qmpPort =
      some telnetPort.toNat := by
  have hport : chardevPort ("socket,id=qmp,port=" ++ portStr telnetPort ++ chardevEnd) = _ :=
    chardevPort_eq telnetPort hend
  simp [ShellCommand.qmpPort, machineArgs, options, isFlag, hport]

theorem qmpPort_generateCmd (d : Domain) (telnetPort : UInt16) {chardevEnd : String}
    (hend : chardevEnd.toList.head? = some ',') (rest : List String) :
    (generateCmd d telnetPort chardevEnd rest).2.qmpPort = some telnetPort.toNat := by
  unfold generateCmd
  cases cpuArgs d with
  | none => simpa using qmpPort_machineArgs d telnetPort hend d.qemuPath []
  | some cpu =>
      simp only [List.append_assoc]
      exact qmpPort_machineArgs d telnetPort hend d.qemuPath _

/-- The telnet port of the definition for a role; without one there is no command. -/
def rolePort (role : ColoDomainStatus) (d : Domain) : Option ℕ :=
  match role with
  | .primary => some d.pri.telnetPort.toNat
  | .secondary => some d.sec.telnetPort.toNat
  | _ => none

theorem qmpPort_coloCmd (role : ColoDomainStatus) (d : Domain) (cs : ColoStatus) :
    (coloCmd role d cs).qmpPort = rolePort role d := by
  cases role with
  | primary => exact qmpPort_generateCmd d _ (by decide) _
  | secondary => exact qmpPort_generateCmd d _ (by decide) _
  | _ => rfl

/-! ## The property -/

/-- The port in the command that the process was launched with. -/
def launchPort (log : List Effect) (pid : ℤ) : Option ℕ :=
  log.foldl (fun found effect =>
    match effect with
    | .launch _ cmd launched => if launched = pid then cmd.qmpPort else found
    | _ => found) none

/-- A VM of the domain listens on the port, and no other VM does. -/
def ListensAlone (os : ProcessTable) (ports : ℤ → Option ℕ) (domainName : String) (port : ℕ) :
    Prop :=
  (∃ vm ∈ os.vms, vm.running = true ∧ vm.name = domainName ∧ ports vm.pid = some port) ∧
    ∀ vm ∈ os.vms, vm.running = true → ports vm.pid = some port → vm.name = domainName

instance (os : ProcessTable) (ports : ℤ → Option ℕ) (domainName : String) (port : ℕ) :
    Decidable (ListensAlone os ports domainName port) :=
  inferInstanceAs (Decidable (_ ∧ _))

/-- What has been sent since `first` has gone to the VM of the domain. -/
def SentTo (domainName : String) (first last : Node) : Prop :=
  ∀ port text, .qmp port text ∈ last.log.drop first.log.length →
    ListensAlone last.os (launchPort last.log) domainName port

/-- The domain that the request sends QMP commands for. -/
def Request.qmpDomain : Request → Option String
  | .start domainName _ => some domainName
  | .setParams domainName _ _ => some domainName
  | .doFailover domainName => some domainName
  | .peerSendQmpcmds domainName _ => some domainName
  | _ => none

def Reaches (env : Env) (script : Script) (req : Request) (nd : Node) : Prop :=
  ∀ domainName, req.qmpDomain = some domainName →
    (handle env req nd).LegsAlong Node.osAfter (SentTo domainName) nd script

/-! ## When it holds -/

/-- The socket answers, and the first command goes out. -/
def QmpScript.Speaks (script : QmpScript) : Prop :=
  script.connects = true ∧ (∃ text, script.greeting = .data text) ∧
    ∃ count, (script.exchange 0).1 = .sent count

/-- Whenever a list is sent, a VM of the domain is running that was launched
with the port of `send_qmp_cmds`, and no running VM of another domain was.  For
a start this includes the VM it has just launched. -/
def Tuned (env : Env) (script : Script) (nd : Node) : Request → Prop
  | .start domainName colo => colo = true → (nd.testDomainStatus domainName).1 = .shutOff →
      (nd.dom domainName).coloEnable = true → nd.remoteClient.usable = true →
        accepted (script.reply 0) = true → env.qmp.Speaks →
          ∀ d pid os, nd.getDomain domainName = .ok d →
            (nd.os.after script.meanwhile).fork env.fork d.name = some (pid, os) →
              let role := (nd.dom domainName).coloStatus
              let ports := Function.update (launchPort nd.log) pid (rolePort role d)
              (role = .primary → accepted (script.reply 1) = true →
                ListensAlone (os.after (Script.meanwhile script.tail)) ports domainName qmpPort) ∧
                (role = .secondary → ListensAlone os ports domainName qmpPort)
  | .setParams domainName property value => (nd.dom domainName).status ≠ .shutOff →
      (nd.dom domainName).coloEnable = true → (setParamsCmd property value).isSome = true →
        env.qmp.Speaks → ListensAlone nd.os (launchPort nd.log) domainName qmpPort
  | .doFailover domainName => (nd.dom domainName).status ≠ .shutOff →
      (nd.dom domainName).coloEnable = true →
        ((nd.dom domainName).coloStatus = .primary ∨ (nd.dom domainName).coloStatus = .secondary) →
          env.qmp.Speaks → ListensAlone nd.os (launchPort nd.log) domainName qmpPort
  | .peerSendQmpcmds domainName cds => (nd.testDomainStatus domainName).1 ≠ .shutOff →
      (∃ d, nd.getDomain domainName = .ok d) → cds = .secondary →
        env.qmp.Speaks → ListensAlone nd.os (launchPort nd.log) domainName qmpPort
  | _ => True

/-! ## The log of a leg -/

def NoQmp (effects : List Effect) : Prop := ∀ port text, .qmp port text ∉ effects

theorem qmpScriptTexts_ne_nil_iff (script : QmpScript) {cmds : List String} (hcmds : cmds ≠ []) :
    Node.qmpScriptTexts script cmds ≠ [] ↔ script.Speaks := by
  obtain ⟨cmd, rest, rfl⟩ := List.exists_cons_of_ne_nil hcmds
  unfold Node.qmpScriptTexts QmpScript.Speaks
  cases hconnects : script.connects with
  | false => simp
  | true =>
      cases hgreeting : script.greeting with
      | error => simp
      | data text =>
          cases hexchange : script.exchange 0 with
          | mk send recv =>
              cases send with
              | error => simp [Node.qmpTexts, hexchange]
              | broken => simp [Node.qmpTexts, hexchange]
              | sent count => cases recv <;> simp [Node.qmpTexts, hexchange]

theorem launchPort_append {log more : List Effect}
    (hmore : ∀ name cmd pid, .launch name cmd pid ∉ more) :
    launchPort (log ++ more) = launchPort log := by
  induction more generalizing log with
  | nil => rw [List.append_nil]
  | cons effect more ih =>
      rw [← List.singleton_append, ← List.append_assoc,
        ih fun name cmd pid hmem => hmore name cmd pid (List.mem_cons_of_mem effect hmem)]
      funext pid
      unfold launchPort
      rw [List.foldl_append]
      cases effect with
      | launch name cmd pid => exact absurd (by simp) (hmore name cmd pid)
      | _ => rfl

theorem launchPort_launch (log : List Effect) (name : String) (cmd : ShellCommand) (pid : ℤ) :
    launchPort (log ++ [.launch name cmd pid]) =
      Function.update (launchPort log) pid cmd.qmpPort := by
  funext other
  unfold launchPort
  rw [List.foldl_append]
  by_cases h : other = pid
  · subst h
    simp
  · simp [h, Ne.symm h]

section

variable {domainName : String} {first last nd : Node} {pre post : List Effect}

theorem sentTo_of_noQmp (hlog : last.log = first.log ++ pre) (hpre : NoQmp pre) :
    SentTo domainName first last := by
  intro port text hmem
  rw [hlog, List.drop_left] at hmem
  exact absurd hmem (hpre port text)

theorem sentTo_iff {texts : List String}
    (hlog : last.log = first.log ++ (pre ++ texts.map (.qmp qmpPort) ++ post))
    (hpre : NoQmp pre) (hpost : NoQmp post) :
    SentTo domainName first last ↔
      (texts ≠ [] → ListensAlone last.os (launchPort last.log) domainName qmpPort) := by
  unfold SentTo
  rw [hlog, List.drop_left, ← hlog]
  constructor
  · intro h htexts
    obtain ⟨text, rest, rfl⟩ := List.exists_cons_of_ne_nil htexts
    exact h qmpPort text (by simp)
  · intro h port text hmem
    simp only [List.mem_append, List.mem_map, Effect.qmp.injEq] at hmem
    rcases hmem with (hmem | ⟨sent, hsent, rfl, -⟩) | hmem
    · exact absurd hmem (hpre port text)
    · exact h (List.ne_nil_of_mem hsent)
    · exact absurd hmem (hpost port text)

theorem launchPort_sentQmp (texts : List String) (nd : Node) :
    launchPort (nd.sentQmp texts).log = launchPort nd.log :=
  launchPort_append (by simp)

/-- The leg in which a list is sent, when nothing follows it there that the
property looks at. -/
theorem legsAlong_checkQmp {env : Env} {cmds : List String} {failure : String} {script : Script}
    {k : Node → Colod} (hcmds : cmds ≠ []) (hlog : nd.log = first.log ++ pre) (hpre : NoQmp pre)
    (hk : ∀ texts, (k (nd.sentQmp texts)).LegsAlong Node.osAfter (SentTo domainName) first script ↔
      SentTo domainName first (nd.sentQmp texts)) :
    (checkQmp failure (nd.sendQmpCmds env cmds) k).LegsAlong Node.osAfter (SentTo domainName)
        first script ↔
      (env.qmp.Speaks → ListensAlone nd.os (launchPort nd.log) domainName qmpPort) := by
  have hsent : SentTo domainName first (nd.sentQmp (Node.qmpScriptTexts env.qmp cmds)) ↔
      (env.qmp.Speaks → ListensAlone nd.os (launchPort nd.log) domainName qmpPort) := by
    have hlast : (nd.sentQmp (Node.qmpScriptTexts env.qmp cmds)).log = first.log ++
        (pre ++ (Node.qmpScriptTexts env.qmp cmds).map (.qmp qmpPort) ++ []) := by
      simp [Node.sentQmp, hlog]
    rw [sentTo_iff hlast hpre (by simp [NoQmp]), qmpScriptTexts_ne_nil_iff env.qmp hcmds,
      launchPort_sentQmp]
    rfl
  rw [Node.sendQmpCmds_eq, ← hsent]
  cases Node.qmpScriptEnd env.qmp cmds.length with
  | died => exact Act.legsAlong_crash
  | failed => exact Act.legsAlong_done
  | complete => exact hk _

end

/-! ## The requests without a call -/

theorem noQmp_nil : NoQmp [] := by simp [NoQmp]

theorem legsAlong_quiet {domainName : String} {first last : Node} {script : Script}
    {ret : ColodRetVal} (hlog : last.log = first.log) :
    (Act.done ret last : Colod).LegsAlong Node.osAfter (SentTo domainName) first script :=
  Act.legsAlong_done.mpr (sentTo_of_noQmp (by rw [hlog, List.append_nil]) noQmp_nil)

theorem legsAlong_sends {env : Env} {cmds : List String} {failure domainName : String}
    {first nd : Node} {script : Script} {ret : ColodRetVal} {g : Node → Node} (hcmds : cmds ≠ [])
    (hlog : nd.log = first.log) (hg : ∀ nd, (g nd).log = nd.log ∧ (g nd).os = nd.os) :
    (checkQmp failure (nd.sendQmpCmds env cmds) fun nd => .done ret (g nd)).LegsAlong
        Node.osAfter (SentTo domainName) first script ↔
      (env.qmp.Speaks → ListensAlone nd.os (launchPort nd.log) domainName qmpPort) := by
  refine legsAlong_checkQmp hcmds (by rw [hlog, List.append_nil]) noQmp_nil ?_
  intro texts
  rw [Act.legsAlong_done, SentTo, SentTo, (hg _).1, (hg _).2]

/-- The two guards of a command for a live domain refuse before anything is sent. -/
theorem legsAlong_guards {shut Q : Prop} [Decidable shut] {flag : Bool} {domainName : String}
    {first last : Node} {script : Script} {off disabled : ColodRetVal} {k : Colod}
    (hlog : last.log = first.log)
    (hk : ¬ shut → flag = true →
      (k.LegsAlong Node.osAfter (SentTo domainName) first script ↔ Q)) :
    (if shut then (.done off last : Colod) else if !flag then .done disabled last else k).LegsAlong
        Node.osAfter (SentTo domainName) first script ↔ (¬ shut → flag = true → Q) := by
  by_cases hshut : shut
  · rw [if_pos hshut]
    exact iff_of_true (legsAlong_quiet hlog) fun hnot => absurd hshut hnot
  · rw [if_neg hshut]
    cases flag with
    | false => exact iff_of_true (legsAlong_quiet hlog) fun _ henable => by cases henable
    | true => simpa [hshut] using hk hshut rfl

theorem colodSetParams_reaches_iff (env : Env) (script : Script) (domainName property : String)
    (value : ℤ) (nd : Node) :
    (colodSetParams env domainName property value nd).LegsAlong Node.osAfter (SentTo domainName)
        nd script ↔ Tuned env script nd (.setParams domainName property value) := by
  unfold colodSetParams Tuned
  simp only [Node.dom_touch]
  apply legsAlong_guards (by rfl)
  intro hshut henable
  cases hcmd : setParamsCmd property value with
  | none => exact iff_of_true (legsAlong_quiet rfl) fun hsome => by simp at hsome
  | some cmd =>
      refine Iff.trans (legsAlong_sends (by simp) rfl fun _ => ⟨rfl, rfl⟩) ?_
      exact ⟨fun h _ => h, fun h => h rfl⟩

theorem colodDoFailover_reaches_iff (env : Env) (script : Script) (domainName : String)
    (nd : Node) :
    (colodDoFailover env domainName nd).LegsAlong Node.osAfter (SentTo domainName) nd script ↔
      Tuned env script nd (.doFailover domainName) := by
  unfold colodDoFailover Tuned
  simp only [Node.dom_touch]
  apply legsAlong_guards (by rfl)
  intro hshut henable
  cases hrole : (nd.dom domainName).coloStatus with
  | primary =>
      refine Iff.trans (legsAlong_sends (by simp [primaryFailoverCmds]) rfl fun _ => ⟨rfl, rfl⟩) ?_
      exact ⟨fun h _ => h, fun h => h (.inl rfl)⟩
  | secondary =>
      refine Iff.trans (legsAlong_sends (by simp [secondaryFailoverCmds]) rfl fun _ => ⟨rfl, rfl⟩) ?_
      exact ⟨fun h _ => h, fun h => h (.inr rfl)⟩
  | _ => exact iff_of_true (legsAlong_quiet rfl) fun hroles => by simp at hroles

theorem peerColodSendQmpcmds_reaches_iff (env : Env) (script : Script) (domainName : String)
    (cds : ColoDomainStatus) (nd : Node) :
    (peerColodSendQmpcmds env domainName cds nd).LegsAlong Node.osAfter (SentTo domainName) nd
        script ↔ Tuned env script nd (.peerSendQmpcmds domainName cds) := by
  unfold peerColodSendQmpcmds Tuned
  have hlog := Node.testDomainStatus_log domainName nd
  dsimp only
  split
  · rename_i hshut
    exact iff_of_true (legsAlong_quiet hlog) fun hnot => absurd hshut hnot
  · rename_i hshut
    have hget : (∃ d, nd.getDomain domainName = .ok d) ↔
        ∃ d, (nd.testDomainStatus domainName).2.getDomain domainName = .ok d :=
      exists_congr fun d => (getDomain_testDomainStatus domainName nd d).symm
    rw [hget]
    cases hd : (nd.testDomainStatus domainName).2.getDomain domainName with
    | error stop =>
        cases stop with
        | thrown exn =>
            refine iff_of_true (Act.legsAlong_crash.mpr ?_) (by simp)
            exact sentTo_of_noQmp (by rw [hlog, List.append_nil]) noQmp_nil
        | refused err => exact iff_of_true (legsAlong_quiet hlog) (by simp)
    | ok d =>
        cases cds with
        | secondary =>
            refine Iff.trans (legsAlong_sends (by simp [generateSvmQmpcmd]) hlog fun _ => ⟨rfl, rfl⟩) ?_
            rw [hlog, Node.testDomainStatus_os]
            exact ⟨fun h _ _ _ => h, fun h => h hshut ⟨d, rfl⟩ rfl⟩
        | _ => exact iff_of_true (legsAlong_quiet hlog) (by simp)

/-! ## A start -/

section

variable {domainName : String} {first nd : Node} {request : Request} {script : Script}

theorem sentTo_called_iff : SentTo domainName first (nd.called request) ↔
    SentTo domainName first nd := by
  have hports : launchPort (nd.called request).log = launchPort nd.log :=
    launchPort_append (by simp)
  have hmem : ∀ port text, Effect.qmp port text ∈ (nd.called request).log.drop first.log.length ↔
      .qmp port text ∈ nd.log.drop first.log.length := by
    intro port text
    show Effect.qmp port text ∈ (nd.log ++ [_]).drop first.log.length ↔ _
    rw [List.drop_append, List.mem_append]
    refine or_iff_left fun hmem => ?_
    simpa using List.mem_of_mem_drop hmem
  simp only [SentTo, hmem, hports]
  exact Iff.rfl

/-- A call that a failing reply ends: the leg up to it, and those after a good reply. -/
theorem legsAlong_checkReply (husable : nd.remoteClient.usable = true) {failure : String}
    {k : Node → Colod} :
    (nd.remoteCall request fun ret nd => checkReply failure ret nd k).LegsAlong Node.osAfter
        (SentTo domainName) first script ↔
      SentTo domainName first nd ∧ (accepted (script.reply 0) = true →
        (k ((nd.called request).osAfter script.meanwhile).replied).LegsAlong Node.osAfter
          (SentTo domainName) ((nd.called request).osAfter script.meanwhile) script.tail) := by
  have hcalled : SentTo domainName first (nd.called request) ↔ _ := sentTo_called_iff
  rw [Node.remoteCall_of_usable husable, ← hcalled]
  cases script with
  | nil => simp [Act.LegsAlong, Script.reply, accepted]
  | cons entry rest =>
      refine and_congr_right fun _ => ?_
      show (Node.received _ entry.2 ((nd.called request).osAfter entry.1)).LegsAlong _ _ _ rest ↔
        (accepted entry.2 = true → _)
      cases haccepted : accepted entry.2 with
      | true =>
          rw [received_checkReply_accepted haccepted]
          exact ⟨fun h _ => h, fun h => h rfl⟩
      | false =>
          obtain ⟨msg, nd', heq, hsame⟩ := received_checkReply_refused haccepted failure k
            ((nd.called request).osAfter entry.1)
          rw [heq]
          exact iff_of_true (legsAlong_quiet hsame.log) fun h => absurd h (by simp)

theorem launchPort_called (nd : Node) (request : Request) (events : List OsEvent) :
    launchPort ((nd.called request).osAfter events).replied.log = launchPort nd.log :=
  launchPort_append (by simp)

/-- The part of a start that follows the launch.  `nd` has the new VM in its
table and its launch at the end of the log. -/
theorem startQmp_reaches_iff {env : Env} {role : ColoDomainStatus} {d : Domain} {effect : Effect}
    {os : ProcessTable} {ports : ℤ → Option ℕ} (husable : nd.remoteClient.usable = true)
    (hlog : nd.log = first.log ++ [effect]) (hlaunch : NoQmp [effect]) (hos : nd.os = os)
    (hports : launchPort nd.log = ports) :
    (startQmp env domainName role d nd).LegsAlong Node.osAfter (SentTo domainName) first script ↔
      (role = .primary → accepted (script.reply 0) = true → env.qmp.Speaks →
        ListensAlone (os.after script.meanwhile) ports domainName qmpPort) ∧
        (role = .secondary → env.qmp.Speaks → ListensAlone os ports domainName qmpPort) := by
  subst hos hports
  have hquiet : SentTo domainName first nd := sentTo_of_noQmp hlog hlaunch
  cases role with
  | primary =>
      simp only [startQmp, reduceCtorEq, false_implies, and_true, true_implies]
      rw [legsAlong_checkReply husable, and_iff_right hquiet]
      refine forall_congr' fun _ => ?_
      refine Iff.trans (legsAlong_sends (by simp [generatePvmQmpcmd]) rfl fun _ => ⟨rfl, rfl⟩) ?_
      rw [launchPort_called]
      exact Iff.rfl
  | secondary =>
      simp only [startQmp, reduceCtorEq, false_implies, true_and, true_implies]
      refine legsAlong_checkQmp (by simp [generateSvmQmpcmd]) hlog hlaunch ?_
      intro texts
      have husable' : (nd.sentQmp texts).remoteClient.usable = true := husable
      rw [legsAlong_checkReply husable']
      exact and_iff_left_of_imp fun _ _ => legsAlong_quiet rfl
  | _ =>
      simp only [startQmp, reduceCtorEq, false_implies, and_true, iff_true]
      exact Act.legsAlong_done.mpr hquiet

theorem noQmp_launch (name : String) (cmd : ShellCommand) (pid : ℤ) :
    NoQmp [.launch name cmd pid] := by simp [NoQmp]

theorem startHost_reaches_iff {env : Env} {role : ColoDomainStatus} {d : Domain}
    (husable : nd.remoteClient.usable = true) (hlog : nd.log = first.log) :
    (startHost env domainName role d nd).LegsAlong Node.osAfter (SentTo domainName) first script ↔
      ∀ pid os, nd.os.fork env.fork d.name = some (pid, os) →
        let ports := Function.update (launchPort nd.log) pid (rolePort role d)
        (role = .primary → accepted (script.reply 0) = true → env.qmp.Speaks →
          ListensAlone (os.after script.meanwhile) ports domainName qmpPort) ∧
          (role = .secondary → env.qmp.Speaks →
            ListensAlone os ports domainName qmpPort) := by
  unfold startHost
  dsimp only
  rcases nd.runNewVm_cases env d.name (coloCmd role d nd.currentStatus) with
    ⟨hfork, heq⟩ | ⟨pid, os, hfork, heq⟩
  · rw [heq, if_pos (by decide : (-1 : ℤ) < 0), hfork]
    exact iff_of_true (legsAlong_quiet hlog) (by simp)
  · have hpos := (ProcessTable.fork_eq_some hfork).1
    rw [heq, if_neg (by omega : ¬ pid < 0), hfork]
    have hports : launchPort (nd.log ++ [.launch d.name (coloCmd role d nd.currentStatus) pid]) =
        Function.update (launchPort nd.log) pid (rolePort role d) := by
      rw [launchPort_launch, qmpPort_coloCmd]
    refine Iff.trans (startQmp_reaches_iff husable (congrArg (· ++ [_]) hlog)
      (noQmp_launch d.name _ pid) rfl hports) ?_
    constructor
    · rintro h _ _ ⟨⟩
      exact h
    · exact fun h => h pid os rfl

end

theorem startNative_legsAlong {env : Env} {domainName : String} {d : Domain} {first nd : Node}
    {script : Script} (hlog : nd.log = first.log) :
    (startNative env domainName d nd).LegsAlong Node.osAfter (SentTo domainName) first script := by
  refine Act.legsAlong_done.mpr ?_
  rcases nd.runNewVm_cases env d.name (generateVmCmd d).2 with ⟨-, heq⟩ | ⟨pid, os, -, heq⟩
  · rw [heq]
    exact sentTo_of_noQmp (hlog.trans (List.append_nil _).symm) noQmp_nil
  · rw [heq]
    exact sentTo_of_noQmp (congrArg (· ++ [_]) hlog) (noQmp_launch d.name _ pid)

theorem colodStart_reaches_iff (env : Env) (script : Script) (domainName : String) (colo : Bool)
    (nd : Node) :
    (colodStart env domainName colo nd).LegsAlong Node.osAfter (SentTo domainName) nd script ↔
      Tuned env script nd (.start domainName colo) := by
  unfold colodStart Tuned
  have hlog := Node.testDomainStatus_log domainName nd
  simp only [Node.testDomainStatus_touch]
  split
  · rename_i hshut
    exact iff_of_true (legsAlong_quiet hlog) fun _ hnot => absurd hnot hshut
  · rename_i hshut
    cases hd : (nd.testDomainStatus domainName).2.getDomain domainName with
    | error stop =>
        have hnone := getDomain_ne_ok_of_error hd
        cases stop with
        | thrown exn =>
            refine iff_of_true (Act.legsAlong_crash.mpr ?_) fun _ _ _ _ _ _ d _ _ hget =>
              absurd hget (hnone d)
            exact sentTo_of_noQmp (by rw [hlog, List.append_nil]) noQmp_nil
        | refused err =>
            exact iff_of_true (legsAlong_quiet hlog) fun _ _ _ _ _ _ d _ _ hget =>
              absurd hget (hnone d)
    | ok d =>
        have hget : nd.getDomain domainName = .ok d :=
          (getDomain_testDomainStatus domainName nd d).mp hd
        have hshut' : (nd.testDomainStatus domainName).1 = .shutOff := by simpa using hshut
        cases colo with
        | false => exact iff_of_true (startNative_legsAlong hlog) (by simp)
        | true =>
            simp only [Bool.not_true, Bool.false_eq_true, if_false, true_implies,
              Node.coloEnable_testDomainStatus]
            cases henable : (nd.dom domainName).coloEnable with
            | false => exact iff_of_true (legsAlong_quiet hlog) (by simp)
            | true =>
                simp only [Bool.not_true, Bool.false_eq_true, if_false, true_implies]
                cases husable : nd.remoteClient.usable with
                | false =>
                    rw [Node.remoteCall_of_not_usable (by simpa using husable)]
                    refine iff_of_true (Act.legsAlong_crash.mpr ?_) (by simp)
                    exact sentTo_of_noQmp (congrArg (· ++ [_]) hlog) (by simp [NoQmp])
                | true =>
                    have husable' := Node.usable_testDomainStatus husable domainName
                    have hquiet : SentTo domainName nd (nd.testDomainStatus domainName).2 :=
                      sentTo_of_noQmp (hlog.trans (List.append_nil _).symm) noQmp_nil
                    have hports : launchPort (((nd.testDomainStatus domainName).2.called
                        (.peerStartDomain domainName true)).osAfter script.meanwhile).replied.log =
                          launchPort nd.log := by
                      rw [launchPort_called, hlog]
                    have hfirst : ∀ nd' : Node, nd'.replied.log = nd'.log := fun _ => rfl
                    rw [legsAlong_checkReply husable', and_iff_right hquiet,
                      startHost_reaches_iff (usable_answered husable' _ _) (hfirst _), hports]
                    simp only [Node.replied, Node.setAwaiting, Node.setErrorCode, Node.osAfter,
                      Node.called, Node.issue, Node.record, Node.testDomainStatus_os,
                      Script.reply_tail]
                    constructor
                    · intro h _ _ haccepted hspeaks d' pid os hget' hfork
                      obtain rfl : d = d' := Except.ok.inj (hget.symm.trans hget')
                      obtain ⟨hprimary, hsecondary⟩ := h haccepted pid os hfork
                      exact ⟨fun hrole hreply => hprimary hrole hreply hspeaks,
                        fun hrole => hsecondary hrole hspeaks⟩
                    · intro h haccepted pid os hfork
                      exact ⟨fun hrole hreply hspeaks =>
                          (h hshut' trivial haccepted hspeaks d pid os hget hfork).1 hrole hreply,
                        fun hrole hspeaks =>
                          (h hshut' trivial haccepted hspeaks d pid os hget hfork).2 hrole⟩

/-! ## Runs -/

theorem reaches_iff (env : Env) (script : Script) (req : Request) (nd : Node) :
    Reaches env script req nd ↔ Tuned env script nd req := by
  have hone : ∀ domainName, req.qmpDomain = some domainName →
      (Reaches env script req nd ↔ (handle env req nd).LegsAlong Node.osAfter
        (SentTo domainName) nd script) := by
    intro domainName hdomain
    refine ⟨fun h => h domainName hdomain, fun h other hother => ?_⟩
    rw [hdomain, Option.some.injEq] at hother
    exact hother ▸ h
  cases req with
  | start domainName colo =>
      exact (hone domainName rfl).trans (colodStart_reaches_iff env script domainName colo nd)
  | setParams domainName property value =>
      exact (hone domainName rfl).trans
        (colodSetParams_reaches_iff env script domainName property value nd)
  | doFailover domainName =>
      exact (hone domainName rfl).trans (colodDoFailover_reaches_iff env script domainName nd)
  | peerSendQmpcmds domainName cds =>
      exact (hone domainName rfl).trans
        (peerColodSendQmpcmds_reaches_iff env script domainName cds nd)
  | _ => exact iff_of_true (fun _ hdomain => by simp [Request.qmpDomain] at hdomain) trivial

def EventReaches (server : Server) : ServerEvent → Prop
  | .request req env script => server.up = true → Reaches env script req server.node
  | _ => True

def EventTuned (server : Server) : ServerEvent → Prop
  | .request req env script => server.up = true → Tuned env script server.node req
  | _ => True

/-- In a run every list reaches the VM of its domain, and no other, exactly when
each is sent while that VM has the port of `send_qmp_cmds` to itself. -/
theorem along_eventReaches_iff (server : Server) (events : List ServerEvent) :
    Along Server.step EventReaches server events ↔ Along Server.step EventTuned server events := by
  apply along_congr
  intro server event
  cases event with
  | request req env script => exact forall_congr' fun _ => reaches_iff env script req server.node
  | _ => exact Iff.rfl

/-- A definition of the domain `e` whose VMs open the port 5555 for QMP. -/
def otherPortDefinition : Yaml.Node :=
  let ports : Yaml.Node := .map [
    ("pri", .map [("telnet_port", .scalar "5555"), ("mirror_port", .scalar "9103"),
      ("cmp0_port", .scalar "9101"), ("cmp1_port", .scalar "9104"),
      ("cmp_out_port", .scalar "9105")]),
    ("sec", .map [("telnet_port", .scalar "5555"), ("nbd_port", .scalar "9199"),
      ("migrate_port", .scalar "9198"), ("red0_port", .scalar "9103"),
      ("red1_port", .scalar "9104")])]
  match sampleDefinition "e" with
  | .map fields =>
      .map (fields.map fun field => if field.1 = "colo" then ("colo", ports) else field)
  | other => other

/-- The domain `d` is running; the peer enables `e`, which is started as well. -/
def twoDomains : List ServerEvent :=
  [.request (.define "/root/d.yaml") (.smooth 100) [],
    .request (.start "d" false) (.smooth 100) [],
    .writeFile "/vm/e.yaml" otherPortDefinition,
    .request (.peerSaveDomain ⟨-1, "e", .shutOff, true, .primary, "/vm/e.yaml"⟩) (.smooth 200) [],
    .request (.start "e" false) (.smooth 200) []]

theorem not_along_eventReaches_twoDomains :
    ¬ Along Server.step EventReaches (Server.boot .fresh)
      (twoDomains ++ [.request (.doFailover "e") (.smooth 300) []]) := by
  intro h
  obtain ⟨hlast, -⟩ := (along_append.mp h).2
  have htuned := (colodDoFailover_reaches_iff (.smooth 300) [] "e" _).mp
    (hlast (by decide +kernel) "e" rfl)
  have hlisten := htuned (by decide +kernel) (by decide +kernel) (.inr (by decide +kernel))
    ⟨rfl, ⟨"", rfl⟩, 65536, rfl⟩
  exact absurd hlisten (by decide +kernel)

end ColoManage
