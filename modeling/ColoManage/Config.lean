import Mathlib.Data.Int.Notation
import Mathlib.Data.List.AList

/-!
# Constants, enumerations and records

The enumerations of `config.h` with their string maps, and the three records
that colod keeps and exchanges.  A string stands for a `std::string`, one
character for one byte.
-/

namespace ColoManage

def defaultSaveFile : String := "/usr/local/etc/colod/save.yaml"

def colodPort : ℕ := 5678

/-- The port `send_qmp_cmds` connects to. -/
def qmpPort : ℕ := 4444

inductive ColoNodeStatus
  | none
  | primary
  | secondary
  | error
  deriving DecidableEq, Repr

inductive DomainStatus
  | shutOff
  | start
  | running
  | coloEnabled
  | error
  deriving DecidableEq, Repr

inductive ColoDomainStatus
  | none
  | primary
  | secondary
  | failover
  | degrade
  | dead
  deriving DecidableEq, Repr

/-- The value of a value-initialised enumeration is its first enumerator. -/
instance : Inhabited ColoNodeStatus := ⟨.none⟩
instance : Inhabited DomainStatus := ⟨.shutOff⟩
instance : Inhabited ColoDomainStatus := ⟨.none⟩

/-! ## String maps -/

/-- `map[key]` of an `unordered_map`: an absent key is inserted with the
value-initialised value, so every look-up of it gives that value. -/
def mapAt {β : Type} [Inhabited β] (table : List (String × β)) (key : String) : β :=
  (table.lookup key).getD default

def coloNodeStatusMap : List (String × ColoNodeStatus) :=
  [("none", .none), ("primary", .primary), ("secondary", .secondary), ("error", .error)]

def domainStatusMap : List (String × DomainStatus) :=
  [("shutoff", .shutOff), ("start", .start), ("running", .running),
    ("colo-enabled", .coloEnabled), ("error", .error)]

def coloDomainStatusMap : List (String × ColoDomainStatus) :=
  [("none", .none), ("primary", .primary), ("secondary", .secondary),
    ("failover", .failover), ("degrade", .degrade), ("dead", .dead)]

def coloNodeStatusToStr : ColoNodeStatus → String
  | .none => "none"
  | .primary => "primary"
  | .secondary => "secondary"
  | .error => "error"

def domainStatusToStr : DomainStatus → String
  | .shutOff => "shutoff"
  | .start => "start"
  | .running => "running"
  | .coloEnabled => "colo-enabled"
  | .error => "error"

def coloDomainStatusToStr : ColoDomainStatus → String
  | .none => "none"
  | .primary => "primary"
  | .secondary => "secondary"
  | .failover => "failover"
  | .degrade => "degrade"
  | .dead => "dead"

@[simp] theorem coloNodeStatusMap_toStr (status : ColoNodeStatus) :
    mapAt coloNodeStatusMap (coloNodeStatusToStr status) = status := by
  cases status <;> decide

@[simp] theorem domainStatusMap_toStr (status : DomainStatus) :
    mapAt domainStatusMap (domainStatusToStr status) = status := by
  cases status <;> decide

@[simp] theorem coloDomainStatusMap_toStr (status : ColoDomainStatus) :
    mapAt coloDomainStatusMap (coloDomainStatusToStr status) = status := by
  cases status <;> decide

/-! ## Records -/

structure ColoStatus where
  localStatus : ColoNodeStatus
  colodPort : ℤ
  hostIp : String
  hostUser : String
  hostFilePath : String
  peerIp : String
  peerUser : String
  peerFilePath : String
  deriving DecidableEq, Repr

structure ColodDomainStatus where
  pid : ℤ
  name : String
  status : DomainStatus
  coloEnable : Bool
  coloStatus : ColoDomainStatus
  configFilePath : String
  deriving DecidableEq, Repr

structure ColodRetVal where
  code : ℤ
  msg : String
  deriving DecidableEq, Repr

/-- The static `rs` starts with its memory zeroed. -/
instance : Inhabited ColoStatus := ⟨⟨.none, 0, "", "", "", "", "", ""⟩⟩

/-- The record `operator[]` inserts for an absent key. -/
instance : Inhabited ColodDomainStatus := ⟨⟨0, "", .shutOff, false, .none, ""⟩⟩

/-- The table `rs.domains`. -/
abbrev Domains : Type := AList fun _ : String => ColodDomainStatus

end ColoManage
