import ColoManage.QmpTarget

/-!
# Where the two command lines meet

The hosts and ports that stand in the commands of the two sides, read off the
texts.  A text with a host and a port in it determines both, since the port is
digits and what follows it is fixed, so that each side has one address for each
of its sockets and the two can be compared.
-/

namespace ColoManage

/-! ## Addresses in the texts -/

def socketText (id host : String) (port : UInt16) (rest : String) : String :=
  "socket,id=" ++ id ++ ",host=" ++ host ++ ",port=" ++ portStr port ++ rest

theorem socketText_eq (id host : String) (port : UInt16) (rest : String) :
    socketText id host port rest =
      "socket,id=" ++ id ++ ",host=" ++ host ++ ",port=" ++ portStr port ++ rest := rfl

/-- The command line has a client socket of the name for this address. -/
def Dials (cmd : ShellCommand) (id host : String) (port : UInt16) : Prop :=
  ("-chardev", socketText id host port ",reconnect=1") ∈ options cmd.args.tail

/-- The command line has a server socket of the name at this address. -/
def Listens (cmd : ShellCommand) (id host : String) (port : UInt16) : Prop :=
  ∃ rest ∈ [",server=on,wait=on", ",server=on,wait=off"],
    ("-chardev", socketText id host port rest) ∈ options cmd.args.tail

/-- The VM waits for a migration on the port, at every address of its machine. -/
def AcceptsMigration (cmd : ShellCommand) (port : UInt16) : Prop :=
  ("-incoming", "tcp:0:" ++ portStr port) ∈ options cmd.args.tail

def driveAddText (host : String) (port : UInt16) : String :=
  "\x7b'execute': 'human-monitor-command', 'arguments': \x7b'command-line': 'drive_add -n buddy " ++
    "driver=replication,mode=primary,file.driver=nbd,file.host=" ++ host ++
    ",file.port=" ++ portStr port ++ ",file.export=parent0,node-name=replication0'\x7d\x7d"

def migrateText (host : String) (port : UInt16) : String :=
  "\x7b'execute': 'migrate', 'arguments': \x7b'uri': 'tcp:" ++ host ++ ":" ++
    portStr port ++ "', 'colo':true \x7d \x7d"

def nbdServerStartText (host : String) (port : UInt16) : String :=
  "\x7b'execute': 'nbd-server-start', 'arguments': \x7b'addr': \x7b'type': 'inet', 'data': \x7b'host': '" ++
    host ++ "', 'port':'" ++ portStr port ++ "' \x7d \x7d \x7d \x7d"

/-- The node is the primary and the other the secondary, with each other's addresses. -/
structure MirroredStatus (a b : ColoStatus) : Prop where
  primary : a.localStatus = .primary
  secondary : b.localStatus = .secondary
  hostIp : b.hostIp = a.peerIp
  peerIp : b.peerIp = a.hostIp

/-- What the SVM dials, and where the primary sends its disk and its state, is
where the other side listens. -/
structure Connects (pvm svm : ShellCommand) (pvmQmp svmQmp : List String) (svmIp : String) :
    Prop where
  red0 : ∀ host port, Dials svm "red0" host port → Listens pvm "mirror0" host port
  red1 : ∀ host port, Dials svm "red1" host port → Listens pvm "compare1" host port
  drive : ∀ host port, driveAddText host port ∈ pvmQmp → nbdServerStartText host port ∈ svmQmp
  migrate : ∀ host port, migrateText host port ∈ pvmQmp →
    host = svmIp ∧ AcceptsMigration svm port

/-! ## An address is determined by its text -/

theorem append_digits_inj {xs ys ds es : List Char} {c : Char} (hc : c.isDigit = false)
    (hds : ∀ d ∈ ds, d.isDigit = true) (hes : ∀ e ∈ es, e.isDigit = true)
    (h : xs ++ [c] ++ ds = ys ++ [c] ++ es) : xs = ys ∧ ds = es := by
  have hlast : ∀ {us vs ws : List Char}, us ++ [c] = vs ++ [c] ++ ws →
      (∀ w ∈ ws, w.isDigit = true) → ws = [] := by
    intro us vs ws heq hws
    rcases List.eq_nil_or_concat ws with hnil | ⟨front, last, rfl⟩
    · exact hnil
    · rw [List.concat_eq_append, ← List.append_assoc] at heq
      have hlast := List.append_inj_right' heq rfl
      injection hlast with hlast
      have hdigit := hws last (by simp)
      rw [← hlast, hc] at hdigit
      nomatch hdigit
  rcases List.append_eq_append_iff.mp h with ⟨more, hys, hmore⟩ | ⟨more, hxs, hmore⟩
  · have hnil : more = [] := hlast hys fun w hw => hds w (by rw [hmore]; simp [hw])
    subst hnil
    rw [List.append_nil] at hys
    exact ⟨(List.append_inj_left' hys rfl).symm, hmore⟩
  · have hnil : more = [] := hlast hxs fun w hw => hes w (by rw [hmore]; simp [hw])
    subst hnil
    rw [List.append_nil] at hxs
    exact ⟨List.append_inj_left' hxs rfl, hmore.symm⟩

theorem portStr_toList (port : UInt16) : (portStr port).toList = Nat.toDigits 10 port.toNat := by
  simp [portStr]

theorem toDigits_port_inj {port port' : UInt16}
    (h : Nat.toDigits 10 port.toNat = Nat.toDigits 10 port'.toNat) : port = port' := by
  have hvalue := congrArg (fun digits => Nat.ofDigitChars 10 digits 0) h
  simp only [Nat.ofDigitChars_ten_toDigits] at hvalue
  exact UInt16.toNat_inj.mp hvalue

theorem portStr_inj {port port' : UInt16} : portStr port = portStr port' ↔ port = port' := by
  refine ⟨fun h => toDigits_port_inj ?_, congrArg portStr⟩
  rw [← portStr_toList, ← portStr_toList, h]

/-- A text around a host and a port.  The separator ends in `c`, which is no digit. -/
theorem address_inj (c : Char) {front host host' separator back : String} {port port' : UInt16}
    (hlast : separator.toList.getLast? = some c) (hc : c.isDigit = false) :
    front ++ host ++ separator ++ portStr port ++ back =
        front ++ host' ++ separator ++ portStr port' ++ back ↔
      host = host' ∧ port = port' := by
  constructor
  · intro h
    obtain ⟨init, hseparator⟩ := List.getLast?_eq_some_iff.mp hlast
    have hdigits : ∀ p : UInt16, ∀ d ∈ Nat.toDigits 10 p.toNat, d.isDigit = true := fun p d hd =>
      Nat.isDigit_of_mem_toDigits (by decide) (by decide) hd
    have hlist := congrArg String.toList h
    simp only [String.toList_append, portStr_toList, hseparator, List.append_assoc] at hlist
    have htail := List.append_cancel_left hlist
    simp only [← List.append_assoc] at htail
    obtain ⟨hhost, hport⟩ := append_digits_inj hc (hdigits port) (hdigits port')
      (List.append_cancel_right htail)
    exact ⟨String.toList_inj.mp (List.append_cancel_right hhost), toDigits_port_inj hport⟩
  · rintro ⟨rfl, rfl⟩
    rfl

theorem socketText_inj (id rest : String) {host host' : String} {port port' : UInt16} :
    socketText id host port rest = socketText id host' port' rest ↔
      host = host' ∧ port = port' :=
  address_inj '=' (by decide) (by decide)

theorem driveAddText_inj {host host' : String} {port port' : UInt16} :
    driveAddText host port = driveAddText host' port' ↔ host = host' ∧ port = port' :=
  address_inj '=' (by decide) (by decide)

theorem migrateText_inj {host host' : String} {port port' : UInt16} :
    migrateText host port = migrateText host' port' ↔ host = host' ∧ port = port' :=
  address_inj ':' (by decide) (by decide)

theorem nbdServerStartText_inj {host host' : String} {port port' : UInt16} :
    nbdServerStartText host port = nbdServerStartText host' port' ↔
      host = host' ∧ port = port' :=
  address_inj (Char.ofNat 39) (by decide) (by decide)

/-! ## The addresses of each command -/

/-- The address both generators take for the primary's machine. -/
def priIp (cs : ColoStatus) : String := if cs.localStatus = .primary then cs.hostIp else cs.peerIp

variable {d : Domain} {cs : ColoStatus} {host : String} {port : UInt16}

/-- The common half of a command line has one character device and accepts no migration. -/
theorem mem_options_generateCmd {telnetPort : UInt16} {chardevEnd value : String}
    {rest : List String} (h : (generateCmd d telnetPort chardevEnd rest).1 = 0) :
    (("-chardev", value) ∈ options (generateCmd d telnetPort chardevEnd rest).2.args.tail ↔
        value = "socket,id=qmp,port=" ++ portStr telnetPort ++ chardevEnd ∨
          ("-chardev", value) ∈ options rest) ∧
      (("-incoming", value) ∈ options (generateCmd d telnetPort chardevEnd rest).2.args.tail ↔
        ("-incoming", value) ∈ options rest) := by
  unfold generateCmd at *
  cases hcpu : cpuArgs d with
  | none => simp [hcpu] at h
  | some cpu =>
      unfold cpuArgs at hcpu
      split at hcpu
      · injection hcpu with hcpu
        simp [← hcpu, machineArgs, deviceArgs, options, isFlag]
      · split at hcpu
        · injection hcpu with hcpu
          simp [← hcpu, machineArgs, deviceArgs, options, isFlag]
        · cases hcpu

theorem mem_chardevs_svm (h : (generateSvmCmd d cs).1 = 0) (value : String) :
    ("-chardev", value) ∈ options (generateSvmCmd d cs).2.args.tail ↔
      value = "socket,id=qmp,port=" ++ portStr d.sec.telnetPort ++ ",host=localhost,server" ∨
        value = socketText "red0" (priIp cs) d.sec.red0Port ",reconnect=1" ∨
        value = socketText "red1" (priIp cs) d.sec.red1Port ",reconnect=1" := by
  rw [generateSvmCmd, (mem_options_generateCmd h).1]
  simp [options, isFlag, socketText_eq, priIp]

theorem mem_chardevs_pvm (h : (generatePvmCmd d cs).1 = 0) (value : String) :
    ("-chardev", value) ∈ options (generatePvmCmd d cs).2.args.tail ↔
      value = "socket,id=qmp,port=" ++ portStr d.pri.telnetPort ++ ",host=localhost,server" ∨
        value = socketText "mirror0" (priIp cs) d.pri.mirrorPort ",server=on,wait=off" ∨
        value = socketText "compare1" (priIp cs) d.pri.cmp1Port ",server=on,wait=on" ∨
        value = socketText "compare0" (priIp cs) d.pri.cmp0Port ",server=on,wait=off" ∨
        value = socketText "compare0-0" (priIp cs) d.pri.cmp0Port ",reconnect=1" ∨
        value = socketText "compare_out" (priIp cs) d.pri.cmpOutPort ",server=on,wait=off" ∨
        value = socketText "compare_out0" (priIp cs) d.pri.cmpOutPort ",reconnect=1" := by
  rw [generatePvmCmd, (mem_options_generateCmd h).1]
  simp [options, isFlag, socketText_eq, priIp]

theorem acceptsMigration_svm_iff (h : (generateSvmCmd d cs).1 = 0) :
    AcceptsMigration (generateSvmCmd d cs).2 port ↔ port = d.sec.migratePort := by
  have hmem : ∀ value, ("-incoming", value) ∈ options (generateSvmCmd d cs).2.args.tail ↔
      value = "tcp:0:" ++ portStr d.sec.migratePort := by
    intro value
    rw [generateSvmCmd, (mem_options_generateCmd h).2]
    simp [options, isFlag]
  rw [AcceptsMigration, hmem, String.append_right_inj, portStr_inj]

theorem dials_red0_iff (h : (generateSvmCmd d cs).1 = 0) :
    Dials (generateSvmCmd d cs).2 "red0" host port ↔ host = priIp cs ∧ port = d.sec.red0Port := by
  rw [Dials, mem_chardevs_svm h, ← socketText_inj "red0" ",reconnect=1"]
  simp [socketText_eq, ← String.toList_inj]

theorem dials_red1_iff (h : (generateSvmCmd d cs).1 = 0) :
    Dials (generateSvmCmd d cs).2 "red1" host port ↔ host = priIp cs ∧ port = d.sec.red1Port := by
  rw [Dials, mem_chardevs_svm h, ← socketText_inj "red1" ",reconnect=1"]
  simp [socketText_eq, ← String.toList_inj]

/-- The two endings of a server socket differ. -/
theorem socketText_wait_ne {id host host' : String} {port port' : UInt16} :
    socketText id host port ",server=on,wait=on" ≠
      socketText id host' port' ",server=on,wait=off" := by
  intro h
  have hon : ",server=on,wait=on".toList.getLast? = some 'n' := by decide
  have hoff : ",server=on,wait=off".toList.getLast? = some 'f' := by decide
  have hlast := congrArg (fun text => text.toList.getLast?) h
  simp only [socketText_eq, String.toList_append, List.getLast?_append, hon, hoff,
    Option.some_or] at hlast
  exact absurd hlast (by decide)

theorem listens_mirror0_iff (h : (generatePvmCmd d cs).1 = 0) :
    Listens (generatePvmCmd d cs).2 "mirror0" host port ↔
      host = priIp cs ∧ port = d.pri.mirrorPort := by
  have hwaiting : ("-chardev", socketText "mirror0" host port ",server=on,wait=on") ∉
      options (generatePvmCmd d cs).2.args.tail := by
    rw [mem_chardevs_pvm h]
    rintro (heq | heq | heq)
    · simp [socketText_eq, ← String.toList_inj] at heq
    · exact socketText_wait_ne heq
    · simp [socketText_eq, ← String.toList_inj] at heq
  have hpassing : ("-chardev", socketText "mirror0" host port ",server=on,wait=off") ∈
      options (generatePvmCmd d cs).2.args.tail ↔ host = priIp cs ∧ port = d.pri.mirrorPort := by
    rw [mem_chardevs_pvm h, ← socketText_inj "mirror0" ",server=on,wait=off"]
    simp [socketText_eq, ← String.toList_inj]
  simp [Listens, hwaiting, hpassing]

theorem listens_compare1_iff (h : (generatePvmCmd d cs).1 = 0) :
    Listens (generatePvmCmd d cs).2 "compare1" host port ↔
      host = priIp cs ∧ port = d.pri.cmp1Port := by
  have hwaiting : ("-chardev", socketText "compare1" host port ",server=on,wait=on") ∈
      options (generatePvmCmd d cs).2.args.tail ↔ host = priIp cs ∧ port = d.pri.cmp1Port := by
    rw [mem_chardevs_pvm h, ← socketText_inj "compare1" ",server=on,wait=on"]
    simp [socketText_eq, ← String.toList_inj]
  have hpassing : ("-chardev", socketText "compare1" host port ",server=on,wait=off") ∉
      options (generatePvmCmd d cs).2.args.tail := by
    rw [mem_chardevs_pvm h]
    rintro (heq | heq | heq | heq)
    · simp [socketText_eq, ← String.toList_inj] at heq
    · simp [socketText_eq, ← String.toList_inj] at heq
    · exact socketText_wait_ne heq.symm
    · simp [socketText_eq, ← String.toList_inj] at heq
  simp [Listens, hpassing, hwaiting]

/-! ## The addresses of the QMP lists -/

/-- Enough of a command to tell it from the others. -/
def verb (text : String) : List Char := text.toList.take 25

theorem verb_ofList (chars : List Char) : verb (String.ofList chars) = chars.take 25 := by
  rw [verb, String.toList_ofList]

theorem verb_append_eq {chars chars' : List Char} (rest : String) (hlength : 25 ≤ chars.length)
    (h : chars.take 25 = chars'.take 25) :
    verb (String.ofList chars ++ rest) = verb (String.ofList chars') := by
  rw [verb_ofList, ← h, verb, String.toList_append, String.toList_ofList,
    List.take_append_of_le_length hlength]

theorem verb_ne {chars chars' : List Char} (h : chars.take 25 ≠ chars'.take 25) :
    verb (String.ofList chars) ≠ verb (String.ofList chars') := by
  rwa [verb_ofList, verb_ofList]

theorem verb_driveAddText :
    verb (driveAddText host port) = verb "\x7b'execute': 'human-monitor-command'" := by
  delta driveAddText
  rewrite [String.append_assoc, String.append_assoc, String.append_assoc, String.append_assoc]
  exact verb_append_eq _ (by decide) (by decide)

theorem verb_migrateText :
    verb (migrateText host port) = verb "\x7b'execute': 'migrate', 'arguments'" := by
  delta migrateText
  rewrite [String.append_assoc, String.append_assoc, String.append_assoc]
  exact verb_append_eq _ (by decide) (by decide)

theorem verb_nbdServerStartText :
    verb (nbdServerStartText host port) = verb "\x7b'execute': 'nbd-server-start'" := by
  delta nbdServerStartText
  rewrite [String.append_assoc, String.append_assoc, String.append_assoc]
  exact verb_append_eq _ (by decide) (by decide)

variable {ds : ColodDomainStatus}

theorem driveAddText_mem_iff : driveAddText host port ∈ generatePvmQmpcmd d cs ds ↔
    host = sndIp cs ds ∧ port = d.sec.nbdPort := by
  rw [← driveAddText_inj]
  constructor
  · intro hmem
    have hverb : ∀ {other}, driveAddText host port = other →
        verb other = verb "\x7b'execute': 'human-monitor-command'" := by
      intro other heq
      rw [← heq, verb_driveAddText]
    simp only [generatePvmQmpcmd, List.mem_cons, List.not_mem_nil, or_false] at hmem
    rcases hmem with heq | heq | heq | heq | heq | heq
    · exact absurd (hverb heq) (verb_ne (by decide))
    · exact heq
    · exact absurd (hverb heq) (verb_ne (by decide))
    · exact absurd (hverb heq) (verb_ne (by decide))
    · exact absurd (hverb heq) (verb_ne (by decide))
    · have hmigrate := verb_migrateText.symm.trans (hverb heq)
      exact absurd hmigrate (verb_ne (by decide))
  · intro heq
    rw [heq]
    exact List.mem_cons_of_mem _ List.mem_cons_self

theorem migrateText_mem_iff : migrateText host port ∈ generatePvmQmpcmd d cs ds ↔
    host = sndIp cs ds ∧ port = d.sec.migratePort := by
  rw [← migrateText_inj]
  constructor
  · intro hmem
    have hverb : ∀ {other}, migrateText host port = other →
        verb other = verb "\x7b'execute': 'migrate', 'arguments'" := by
      intro other heq
      rw [← heq, verb_migrateText]
    simp only [generatePvmQmpcmd, List.mem_cons, List.not_mem_nil, or_false] at hmem
    rcases hmem with heq | heq | heq | heq | heq | heq
    · exact absurd (hverb heq) (verb_ne (by decide))
    · have hdrive := verb_driveAddText.symm.trans (hverb heq)
      exact absurd hdrive (verb_ne (by decide))
    · exact absurd (hverb heq) (verb_ne (by decide))
    · exact absurd (hverb heq) (verb_ne (by decide))
    · exact absurd (hverb heq) (verb_ne (by decide))
    · exact heq
  · intro heq
    rw [heq]
    exact List.mem_append_right [_, _, _, _, _] List.mem_cons_self

theorem nbdServerStartText_mem_iff : nbdServerStartText host port ∈ generateSvmQmpcmd d cs ds ↔
    host = sndIp cs ds ∧ port = d.sec.nbdPort := by
  rw [← nbdServerStartText_inj]
  constructor
  · intro hmem
    have hverb : ∀ {other}, nbdServerStartText host port = other →
        verb other = verb "\x7b'execute': 'nbd-server-start'" := by
      intro other heq
      rw [← heq, verb_nbdServerStartText]
    simp only [generateSvmQmpcmd, List.mem_cons, List.not_mem_nil, or_false] at hmem
    rcases hmem with heq | heq | heq | heq
    · exact absurd (hverb heq) (verb_ne (by decide))
    · exact heq
    · exact absurd (hverb heq) (verb_ne (by decide))
    · exact absurd (hverb heq) (verb_ne (by decide))
  · intro heq
    rw [heq]
    exact List.mem_cons_of_mem _ List.mem_cons_self

/-! ## Both sides -/

variable {a b : ColoStatus} {pvmDs svmDs : ColodDomainStatus}

theorem MirroredStatus.priIp_eq (h : MirroredStatus a b) : priIp b = priIp a := by
  simp [priIp, h.primary, h.secondary, h.peerIp]

/-- The two sides take the same machines, and the disk and the state of the
primary go where the other side listens.  The sockets of the SVM meet those of
the PVM exactly when the definition gives them the same ports. -/
theorem commands_meet (hpvm : (generatePvmCmd d a).1 = 0) (hsvm : (generateSvmCmd d b).1 = 0)
    (hmirrored : MirroredStatus a b) (hprimary : pvmDs.coloStatus = .primary)
    (hsecondary : svmDs.coloStatus = .secondary) :
    (∀ host port, Dials (generateSvmCmd d b).2 "red0" host port →
        Listens (generatePvmCmd d a).2 "mirror0" host d.pri.mirrorPort) ∧
      (∀ host port, Dials (generateSvmCmd d b).2 "red1" host port →
        Listens (generatePvmCmd d a).2 "compare1" host d.pri.cmp1Port) ∧
      (∀ host port, driveAddText host port ∈ generatePvmQmpcmd d a pvmDs →
        nbdServerStartText host port ∈ generateSvmQmpcmd d b svmDs) ∧
      (∀ host port, migrateText host port ∈ generatePvmQmpcmd d a pvmDs →
        host = b.hostIp ∧ AcceptsMigration (generateSvmCmd d b).2 port) ∧
      (Connects (generatePvmCmd d a).2 (generateSvmCmd d b).2 (generatePvmQmpcmd d a pvmDs)
          (generateSvmQmpcmd d b svmDs) b.hostIp ↔
        d.sec.red0Port = d.pri.mirrorPort ∧ d.sec.red1Port = d.pri.cmp1Port) := by
  have hsnd : sndIp a pvmDs = b.hostIp := by simp [sndIp, hprimary, hmirrored.hostIp]
  have hsnd' : sndIp b svmDs = b.hostIp := by simp [sndIp, hsecondary]
  have hpri : priIp b = priIp a := hmirrored.priIp_eq
  have hdrive : ∀ host port, driveAddText host port ∈ generatePvmQmpcmd d a pvmDs →
      nbdServerStartText host port ∈ generateSvmQmpcmd d b svmDs := by
    intro host port hmem
    rw [nbdServerStartText_mem_iff, hsnd', ← hsnd]
    exact driveAddText_mem_iff.mp hmem
  have hmigrate : ∀ host port, migrateText host port ∈ generatePvmQmpcmd d a pvmDs →
      host = b.hostIp ∧ AcceptsMigration (generateSvmCmd d b).2 port := by
    intro host port hmem
    rw [acceptsMigration_svm_iff hsvm, ← hsnd]
    exact migrateText_mem_iff.mp hmem
  refine ⟨?_, ?_, hdrive, hmigrate, ?_, ?_⟩
  · intro host port hdials
    rw [listens_mirror0_iff hpvm, ← hpri]
    exact ⟨((dials_red0_iff hsvm).mp hdials).1, rfl⟩
  · intro host port hdials
    rw [listens_compare1_iff hpvm, ← hpri]
    exact ⟨((dials_red1_iff hsvm).mp hdials).1, rfl⟩
  · intro hconnects
    have hred0 := hconnects.red0 (priIp b) d.sec.red0Port ((dials_red0_iff hsvm).mpr ⟨rfl, rfl⟩)
    have hred1 := hconnects.red1 (priIp b) d.sec.red1Port ((dials_red1_iff hsvm).mpr ⟨rfl, rfl⟩)
    exact ⟨((listens_mirror0_iff hpvm).mp hred0).2, ((listens_compare1_iff hpvm).mp hred1).2⟩
  · rintro ⟨hred0, hred1⟩
    refine ⟨?_, ?_, hdrive, hmigrate⟩
    · intro host port hdials
      rwa [listens_mirror0_iff hpvm, ← hpri, ← hred0, ← dials_red0_iff hsvm]
    · intro host port hdials
      rwa [listens_compare1_iff hpvm, ← hpri, ← hred1, ← dials_red1_iff hsvm]

/-! ## Sample statuses -/

def primaryStatus : ColoStatus :=
  ⟨.primary, 5678, "10.0.0.1", "root", "/root/", "10.0.0.2", "root", "/root/"⟩

def recordAs (role : ColoDomainStatus) : ColodDomainStatus :=
  ⟨-1, "d", .shutOff, true, role, "/root/d.yaml"⟩

theorem mirrored_primaryStatus : MirroredStatus primaryStatus (mirrorStatus primaryStatus) :=
  ⟨rfl, rfl, rfl, rfl⟩

theorem commands_meet_sample :
    Connects (generatePvmCmd (sampleDomain "d") primaryStatus).2
      (generateSvmCmd (sampleDomain "d") (mirrorStatus primaryStatus)).2
      (generatePvmQmpcmd (sampleDomain "d") primaryStatus (recordAs .primary))
      (generateSvmQmpcmd (sampleDomain "d") (mirrorStatus primaryStatus) (recordAs .secondary))
      "10.0.0.2" :=
  (commands_meet (d := sampleDomain "d") (by decide +kernel) (by decide +kernel)
    mirrored_primaryStatus rfl rfl).2.2.2.2.mpr ⟨by decide, by decide⟩

/-- The definition with other ports for the client sockets or another guest system. -/
def alteredDefinition (osOS red0Port : String) : Yaml.Node :=
  match sampleDefinition "d" with
  | .map fields =>
      .map (fields.map fun field =>
        if field.1 = "os" then
          ("os", .map [("arch", .scalar "x86_64"), ("machine", .scalar "pc-i440fx-2.8"),
            ("type", .scalar "hvm"), ("OS", .scalar osOS)])
        else if field.1 = "colo" then
          ("colo", .map [
            ("pri", .map [("telnet_port", .scalar "4444"), ("mirror_port", .scalar "9003"),
              ("cmp0_port", .scalar "9001"), ("cmp1_port", .scalar "9004"),
              ("cmp_out_port", .scalar "9005")]),
            ("sec", .map [("telnet_port", .scalar "4444"), ("nbd_port", .scalar "9999"),
              ("migrate_port", .scalar "9998"), ("red0_port", .scalar red0Port),
              ("red1_port", .scalar "9004")])])
        else field)
  | other => other

def crossedDomain : Domain :=
  { sampleDomain "d" with sec := ⟨4444, 9999, 9998, 9103, 9004⟩ }

def otherOsDomain : Domain := { sampleDomain "d" with osOS := "macos" }

/-- A client socket with a port of its own dials where nothing listens, and a
guest system the generators do not know leaves no `-incoming`. -/
theorem not_connects_altered :
    (vmConfigParse (alteredDefinition "linux" "9103") = .ok crossedDomain ∧
      ¬ Connects (generatePvmCmd crossedDomain primaryStatus).2
        (generateSvmCmd crossedDomain (mirrorStatus primaryStatus)).2
        (generatePvmQmpcmd crossedDomain primaryStatus (recordAs .primary))
        (generateSvmQmpcmd crossedDomain (mirrorStatus primaryStatus) (recordAs .secondary))
        "10.0.0.2") ∧
    (vmConfigParse (alteredDefinition "macos" "9003") = .ok otherOsDomain ∧
      ¬ Connects (generatePvmCmd otherOsDomain primaryStatus).2
        (generateSvmCmd otherOsDomain (mirrorStatus primaryStatus)).2
        (generatePvmQmpcmd otherOsDomain primaryStatus (recordAs .primary))
        (generateSvmQmpcmd otherOsDomain (mirrorStatus primaryStatus) (recordAs .secondary))
        "10.0.0.2") := by
  refine ⟨⟨rfl, fun hconnects => ?_⟩, rfl, fun hconnects => ?_⟩
  · have hdials : Dials (generateSvmCmd crossedDomain (mirrorStatus primaryStatus)).2 "red0"
        "10.0.0.1" 9103 := by
      rw [dials_red0_iff (by decide +kernel)]
      exact ⟨rfl, rfl⟩
    have hlistens := hconnects.red0 "10.0.0.1" 9103 hdials
    rw [listens_mirror0_iff (by decide +kernel)] at hlistens
    exact absurd hlistens.2 (by decide)
  · have hmem : migrateText "10.0.0.2" 9998 ∈
        generatePvmQmpcmd otherOsDomain primaryStatus (recordAs .primary) := by
      rw [migrateText_mem_iff]
      exact ⟨rfl, rfl⟩
    obtain ⟨-, haccepts⟩ := hconnects.migrate "10.0.0.2" 9998 hmem
    revert haccepts
    unfold AcceptsMigration
    decide +kernel

end ColoManage
