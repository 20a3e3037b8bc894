import ColoManage.Config
import ColoManage.Library.Yaml

/-!
# Domain definitions and the commands built from them

`vmConfigParse` reads a definition document key by key; it may refuse the
document with a message or be cut short by an exception of the YAML library.
The three command generators share their first half: a definition whose
`os.OS` is neither `linux` nor `windows` makes them stop after it and return
`-1`, with the arguments added so far left in the command.
-/

namespace ColoManage

structure Disk where
  driver : String
  diskSize : ℤ
  path : String
  hiddenPath : String
  activePath : String
  deriving DecidableEq, Repr

structure NetDevice where
  id : String
  br : String
  helper : String
  mac : String
  deriving DecidableEq, Repr

structure Pri where
  telnetPort : UInt16
  mirrorPort : UInt16
  cmp0Port : UInt16
  cmp1Port : UInt16
  cmpOutPort : UInt16
  deriving DecidableEq, Repr

structure Sec where
  telnetPort : UInt16
  nbdPort : UInt16
  migratePort : UInt16
  red0Port : UInt16
  red1Port : UInt16
  deriving DecidableEq, Repr

structure Domain where
  name : String
  qemuPath : String
  memorySize : ℤ
  vcpu : ℤ
  osArchType : String
  osMachine : String
  osType : String
  osOS : String
  cpuType : String
  disk : Disk
  vncPort : UInt16
  net : NetDevice
  pri : Pri
  sec : Sec
  deriving DecidableEq, Repr

/-! ## Parsing a definition -/

/-- How reading a document ends early: an exception, or `-1` with a message. -/
inductive ParseStop
  | thrown (exn : Yaml.Exn)
  | refused (err : String)
  deriving DecidableEq, Repr

abbrev Parsed (α : Type) : Type := Except ParseStop α

def fromYaml {α : Type} (result : Except Yaml.Exn α) : Parsed α :=
  result.mapError .thrown

/-- `node[key]` after the check that it is defined. -/
def requireKey (node : Yaml.Node) (key err : String) : Parsed Yaml.Node := do
  match ← fromYaml (node.sub key) with
  | some value => pure value
  | none => throw (.refused err)

def requireString (node : Yaml.Node) (key err : String) : Parsed String := do
  fromYaml (← requireKey node key err).asString

def requireUShort (node : Yaml.Node) (key err : String) : Parsed UInt16 := do
  fromYaml (← requireKey node key err).asUShort

/-- The size fields must also be scalars. -/
def requireScalarInt (node : Yaml.Node) (key err : String) : Parsed ℤ := do
  let value ← requireKey node key err
  if value.isScalar then fromYaml value.asInt else throw (.refused err)

/-- `node[key].as<std::string>()` without a check. -/
def asStringAt (node : Yaml.Node) (key : String) : Parsed String := do
  match ← fromYaml (node.sub key) with
  | some value => fromYaml value.asString
  | none => throw (.thrown .invalidNode)

def vmConfigParse (config : Yaml.Node) : Parsed Domain := do
  let name ← asStringAt config "name"
  let qemuPath ← requireString config "qemu" "cannot find qemu emulator."
  let memorySize ← requireScalarInt config "memory" "cannot parse vm memory size."
  let vcpu ← requireScalarInt config "vcpu" "cannot parse vcpu size."
  let os ← requireKey config "os" "cannot find os definition."
  let osArchType ← requireString os "arch" "cannot find os architecture."
  let osMachine ← requireString os "machine" "cannot find os machine."
  let osType ← requireString os "type" "cannot find os type."
  let osOS ← requireString os "OS" "cannot find operate system."
  let cpuType ← requireString config "cpu" "cannot find cpu def."
  let disk ← requireKey config "disk" "cannot find disk definition."
  let driver ← requireString disk "driver" "cannot find disk driver."
  let diskSize ← requireScalarInt disk "size" "cannot find disk size."
  let path ← requireString disk "path" "cannot find disk path."
  let hiddenPath ← requireString disk "hidden_path" "cannot find disk hidden_path."
  let activePath ← requireString disk "active_path" "cannot find disk active_path."
  let display ← requireKey config "display" "cannot find display definition."
  let vncPort ← requireUShort display "vnc_port" "cannot find display vnc_port."
  let net ← requireKey config "net" "cannot find net definition."
  let id ← requireString net "id" "cannot find net id."
  let br ← requireString net "br" "cannot find net br."
  let helper ← requireString net "helper" "cannot find net helper."
  let mac ← requireString net "mac" "cannot find net mac."
  let colo ← requireKey config "colo" "cannot find colo definition."
  let pri ← requireKey colo "pri" "cannot find colo pri definition."
  let priTelnet ← requireUShort pri "telnet_port" "cannot find colo pri telnet_port."
  let mirrorPort ← requireUShort pri "mirror_port" "cannot find colo pri mirror_port."
  let cmp0Port ← requireUShort pri "cmp0_port" "cannot find colo pri cmp0_port."
  let cmp1Port ← requireUShort pri "cmp1_port" "cannot find colo pri cmp1_port."
  let cmpOutPort ← requireUShort pri "cmp_out_port" "cannot find colo pri cmp_out_port."
  let sec ← requireKey colo "sec" "cannot find colo sec definition."
  let secTelnet ← requireUShort sec "telnet_port" "cannot find colo sec telnet_port."
  let nbdPort ← requireUShort sec "nbd_port" "cannot find colo sec nbd_port."
  let migratePort ← requireUShort sec "migrate_port" "cannot find colo sec migrate_port."
  let red0Port ← requireUShort sec "red0_port" "cannot find colo sec red0_port."
  let red1Port ← requireUShort sec "red1_port" "cannot find colo sec red1_port."
  pure {
    name, qemuPath, memorySize, vcpu, osArchType, osMachine, osType, osOS, cpuType
    disk := { driver, diskSize, path, hiddenPath, activePath }
    vncPort
    net := { id, br, helper, mac }
    pri := { telnetPort := priTelnet, mirrorPort, cmp0Port, cmp1Port, cmpOutPort }
    sec := { telnetPort := secTelnet, nbdPort, migratePort, red0Port, red1Port } }

theorem bind_eq_ok {ε α β : Type} {x : Except ε α} {f : α → Except ε β} {b : β} :
    x >>= f = .ok b ↔ ∃ a, x = .ok a ∧ f a = .ok b := by
  cases x <;> simp [bind, Except.bind]

theorem fromYaml_eq_ok {α : Type} {result : Except Yaml.Exn α} {value : α} :
    fromYaml result = .ok value ↔ result = .ok value := by
  cases result <;> simp [fromYaml, Except.mapError]

theorem requireKey_eq_ok {node value : Yaml.Node} {key err : String} :
    requireKey node key err = .ok value ↔ node.sub key = .ok (some value) := by
  simp only [requireKey, bind_eq_ok, fromYaml_eq_ok]
  constructor
  · rintro ⟨found, hfound, h⟩
    cases found with
    | none => simp [throw, throwThe, MonadExceptOf.throw] at h
    | some found =>
        simp only [pure, Except.pure, Except.ok.injEq] at h
        rw [hfound, h]
  · intro h
    exact ⟨some value, h, rfl⟩

theorem requireString_eq_ok {node : Yaml.Node} {key err text : String} :
    requireString node key err = .ok text ↔
      ∃ value, node.sub key = .ok (some value) ∧ value.asString = .ok text := by
  simp only [requireString, bind_eq_ok, requireKey_eq_ok, fromYaml_eq_ok]

theorem vmConfigParse_name {config : Yaml.Node} {d : Domain}
    (h : vmConfigParse config = .ok d) (err : String) :
    requireString config "name" err = .ok d.name := by
  simp only [vmConfigParse, bind_eq_ok] at h
  obtain ⟨name, hname, h⟩ := h
  repeat obtain ⟨_, _, h⟩ := h
  simp only [asStringAt, bind_eq_ok, fromYaml_eq_ok] at hname
  obtain ⟨found, hfound, hname⟩ := hname
  cases found with
  | none => simp [throw, throwThe, MonadExceptOf.throw] at hname
  | some value => exact requireString_eq_ok.mpr ⟨value, hfound, fromYaml_eq_ok.mp hname⟩

/-! ## Command lines -/

structure ShellCommand where
  binaryPath : String
  args : List String
  deriving DecidableEq, Repr

/-- A `shell_command` no generator has filled. -/
instance : Inhabited ShellCommand := ⟨⟨"", []⟩⟩

def portStr (port : UInt16) : String := toString port.toNat

/-- The arguments up to `-boot`, with the text that ends the QMP chardev. -/
def machineArgs (d : Domain) (telnetPort : UInt16) (chardevEnd : String) : List String :=
  [d.qemuPath, "-enable-kvm", "-machine",
    d.osMachine ++ ",accel=kvm,usb=off,dump-guest-core=off,kernel_irqchip=on",
    "-m", toString d.memorySize, "-smp", toString d.vcpu,
    "-overcommit", "mem-lock=off",
    "-chardev", "socket,id=qmp,port=" ++ portStr telnetPort ++ chardevEnd,
    "-mon", "chardev=qmp,mode=control,pretty=off",
    "-vnc", ":" ++ portStr d.vncPort, "-rtc", "base=utc", "-smbios", "type=1",
    "-no-user-config", "-nodefaults", "-boot", "menu=on,strict=on"]

/-- The arguments that depend on the guest system; `none` is `return -1`. -/
def cpuArgs (d : Domain) : Option (List String) :=
  if d.osOS = "linux" then
    some ["-cpu", d.cpuType, "-device", "cirrus-vga,id=video0,bus=pci.0,addr=0x2"]
  else if d.osOS = "windows" then
    some ["-cpu", d.cpuType ++
        ",kvm=off,hv-vapic,hv-vpindex,hv-frequencies,hv-time,hv-relaxed,hv-spinlocks=0x1000",
      "-device", "VGA,vgamem_mb=256,id=video0,bus=pci.0,addr=0x2"]
  else none

def deviceArgs (d : Domain) : List String :=
  ["-device", "piix3-usb-uhci,id=usb,bus=pci.0,addr=0x1.0x2",
    "-device", "usb-tablet,id=input0,bus=usb.0,port=1",
    "-netdev", "tap,id=" ++ d.net.id ++ ",vhost=off,br=" ++ d.net.br ++
      ",helper=" ++ d.net.helper,
    "-device", "virtio-net-pci,id=e0,netdev=" ++ d.net.id ++
      ",csum=false,mrg_rxbuf=false,gso=false,mac=" ++ d.net.mac]

def generateCmd (d : Domain) (telnetPort : UInt16) (chardevEnd : String)
    (rest : List String) : ℤ × ShellCommand :=
  match cpuArgs d with
  | none => (-1, ⟨d.qemuPath, machineArgs d telnetPort chardevEnd⟩)
  | some cpu =>
      (0, ⟨d.qemuPath, machineArgs d telnetPort chardevEnd ++ cpu ++ deviceArgs d ++ rest⟩)

def quorumDrive (d : Domain) : String :=
  "if=virtio,id=colo-disk0,driver=quorum,read-pattern=fifo,vote-threshold=1,children.0.file.filename="
    ++ d.disk.path ++ ",children.0.driver=" ++ d.disk.driver

def generateVmCmd (d : Domain) : ℤ × ShellCommand :=
  generateCmd d d.pri.telnetPort ",host=localhost,server=on,wait=off"
    ["-drive", quorumDrive d]

def generatePvmCmd (d : Domain) (cs : ColoStatus) : ℤ × ShellCommand :=
  let hostIp := if cs.localStatus = .primary then cs.hostIp else cs.peerIp
  let listen (id : String) (port : UInt16) (rest : String) : String :=
    "socket,id=" ++ id ++ ",host=" ++ hostIp ++ ",port=" ++ portStr port ++ rest
  generateCmd d d.pri.telnetPort ",host=localhost,server"
    ["-chardev", listen "mirror0" d.pri.mirrorPort ",server=on,wait=off",
      "-chardev", listen "compare1" d.pri.cmp1Port ",server=on,wait=on",
      "-chardev", listen "compare0" d.pri.cmp0Port ",server=on,wait=off",
      "-chardev", listen "compare0-0" d.pri.cmp0Port ",reconnect=1",
      "-chardev", listen "compare_out" d.pri.cmpOutPort ",server=on,wait=off",
      "-chardev", listen "compare_out0" d.pri.cmpOutPort ",reconnect=1",
      "-object", "filter-mirror,id=m0,netdev=" ++ d.net.id ++ ",queue=tx,outdev=mirror0",
      "-object", "filter-redirector,netdev=" ++ d.net.id ++
        ",id=redire0,queue=rx,indev=compare_out",
      "-object", "filter-redirector,netdev=" ++ d.net.id ++
        ",id=redire1,queue=rx,outdev=compare0",
      "-object", "iothread,id=iothread1",
      "-object", "colo-compare,id=comp0,primary_in=compare0-0,secondary_in=compare1," ++
        "outdev=compare_out0,iothread=iothread1",
      "-drive", quorumDrive d, "-S"]

def generateSvmCmd (d : Domain) (cs : ColoStatus) : ℤ × ShellCommand :=
  let priIp := if cs.localStatus = .primary then cs.hostIp else cs.peerIp
  let dial (id : String) (port : UInt16) : String :=
    "socket,id=" ++ id ++ ",host=" ++ priIp ++ ",port=" ++ portStr port ++ ",reconnect=1"
  generateCmd d d.sec.telnetPort ",host=localhost,server"
    ["-chardev", dial "red0" d.sec.red0Port, "-chardev", dial "red1" d.sec.red1Port,
      "-object", "filter-redirector,id=f1,netdev=" ++ d.net.id ++
        ",queue=tx,indev=red0,vnet_hdr_support",
      "-object", "filter-redirector,id=f2,netdev=" ++ d.net.id ++
        ",queue=rx,outdev=red1,vnet_hdr_support",
      "-object", "filter-rewriter,id=rew0,netdev=" ++ d.net.id ++ ",queue=all,vnet_hdr_support",
      "-drive", "if=none,id=parent0,file.filename=" ++ d.disk.path,
      "-drive", "if=none,id=childs0,driver=replication,mode=secondary,file.driver=" ++
        d.disk.driver ++ ",top-id=colo-disk0,file.file.filename=" ++ d.disk.activePath ++
        ",file.backing.driver=" ++ d.disk.driver ++ ",file.backing.file.filename=" ++
        d.disk.hiddenPath ++ ",file.backing.backing=parent0",
      "-drive", "if=virtio,id=colo-disk0,driver=quorum,read-pattern=fifo," ++
        "vote-threshold=1,children.0=childs0",
      "-incoming", "tcp:0:" ++ portStr d.sec.migratePort]

/-! ## QMP command lists -/

def qmpCapabilities : String :=
  "\x7b'execute':'qmp_capabilities', 'arguments': \x7b 'enable': [ 'oob' ]\x7d\x7d"

def maxBandwidthCmd : String :=
  "\x7b'execute': 'migrate-set-parameters', 'arguments': \x7b'max-bandwidth': 40000000000 \x7d \x7d"

/-- The address both QMP lists take for the secondary node. -/
def sndIp (cs : ColoStatus) (cds : ColodDomainStatus) : String :=
  if cds.coloStatus = .primary then cs.peerIp else cs.hostIp

def generatePvmQmpcmd (d : Domain) (cs : ColoStatus) (cds : ColodDomainStatus) : List String :=
  [qmpCapabilities,
    "\x7b'execute': 'human-monitor-command', 'arguments': \x7b'command-line': 'drive_add -n buddy " ++
      "driver=replication,mode=primary,file.driver=nbd,file.host=" ++ sndIp cs cds ++
      ",file.port=" ++ portStr d.sec.nbdPort ++
      ",file.export=parent0,node-name=replication0'\x7d\x7d",
    "\x7b'execute': 'x-blockdev-change', 'arguments':\x7b'parent': 'colo-disk0', 'node': 'replication0' \x7d \x7d",
    "\x7b'execute': 'migrate-set-capabilities', 'arguments': \x7b'capabilities': [ \x7b'capability': 'x-colo', 'state': true \x7d] \x7d \x7d",
    maxBandwidthCmd,
    "\x7b'execute': 'migrate', 'arguments': \x7b'uri': 'tcp:" ++ sndIp cs cds ++ ":" ++
      portStr d.sec.migratePort ++ "', 'colo':true \x7d \x7d"]

def generateSvmQmpcmd (d : Domain) (cs : ColoStatus) (cds : ColodDomainStatus) : List String :=
  [qmpCapabilities,
    "\x7b'execute': 'nbd-server-start', 'arguments': \x7b'addr': \x7b'type': 'inet', 'data': \x7b'host': '" ++
      sndIp cs cds ++ "', 'port':'" ++ portStr d.sec.nbdPort ++ "' \x7d \x7d \x7d \x7d",
    "\x7b'execute': 'nbd-server-add', 'arguments': \x7b'device': 'parent0', 'writable': true \x7d \x7d",
    maxBandwidthCmd]

/-! ## A definition with every key -/

def sampleDomain (name : String) : Domain where
  name := name
  qemuPath := "/usr/bin/qemu-system-x86_64"
  memorySize := 2048
  vcpu := 2
  osArchType := "x86_64"
  osMachine := "pc-i440fx-2.8"
  osType := "hvm"
  osOS := "linux"
  cpuType := "host"
  disk := ⟨"qcow2", 20480, "/vm/disk.img", "/vm/hidden.img", "/vm/active.img"⟩
  vncPort := 7
  net := ⟨"hn0", "br0", "/usr/libexec/qemu-bridge-helper", "52:54:00:12:34:56"⟩
  pri := ⟨4444, 9003, 9001, 9004, 9005⟩
  sec := ⟨4444, 9999, 9998, 9003, 9004⟩

def sampleDefinition (name : String) : Yaml.Node :=
  .map [("name", .scalar name), ("qemu", .scalar "/usr/bin/qemu-system-x86_64"),
    ("memory", .scalar "2048"), ("vcpu", .scalar "2"),
    ("os", .map [("arch", .scalar "x86_64"), ("machine", .scalar "pc-i440fx-2.8"),
      ("type", .scalar "hvm"), ("OS", .scalar "linux")]),
    ("cpu", .scalar "host"),
    ("disk", .map [("driver", .scalar "qcow2"), ("size", .scalar "20480"),
      ("path", .scalar "/vm/disk.img"), ("hidden_path", .scalar "/vm/hidden.img"),
      ("active_path", .scalar "/vm/active.img")]),
    ("display", .map [("vnc_port", .scalar "7")]),
    ("net", .map [("id", .scalar "hn0"), ("br", .scalar "br0"),
      ("helper", .scalar "/usr/libexec/qemu-bridge-helper"),
      ("mac", .scalar "52:54:00:12:34:56")]),
    ("colo", .map [
      ("pri", .map [("telnet_port", .scalar "4444"), ("mirror_port", .scalar "9003"),
        ("cmp0_port", .scalar "9001"), ("cmp1_port", .scalar "9004"),
        ("cmp_out_port", .scalar "9005")]),
      ("sec", .map [("telnet_port", .scalar "4444"), ("nbd_port", .scalar "9999"),
        ("migrate_port", .scalar "9998"), ("red0_port", .scalar "9003"),
        ("red1_port", .scalar "9004")])])]

theorem vmConfigParse_sample (name : String) :
    vmConfigParse (sampleDefinition name) = .ok (sampleDomain name) := by
  rfl

end ColoManage
