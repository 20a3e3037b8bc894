import ColoManage.Config
import Mathlib.Data.List.TakeDrop

/-!
# Requests, replies and the client object

The twenty functions that `server_init` binds are the constructors of
`Request`.  Every argument crosses the wire in the encoding of
`Serializer.hpp`, whose strings carry a length of sixteen bits: `wireString`
is what the receiver decodes.

`Buttonrpc` is the part of a client that `net_call` reads: the socket, whether
a request has gone out on it that no reply has answered, and the sticky error
code.
-/

namespace ColoManage

inductive Request
  | connectPeer (configFilePath : String)
  | connectStatus
  | define (vmFilePath : String)
  | undefine (domainName : String)
  | list (showAll : Bool)
  | start (domainName : String) (coloEnable : Bool)
  | destroy (domainName : String)
  | coloEnable (domainName : String)
  | coloDisable (domainName : String)
  | vmStatus (domainName : String)
  | setParams (domainName property : String) (value : ℤ)
  | doFailover (domainName : String)
  | connectTest
  | connectReply
  | domainTest (domainName : String)
  | peerSaveStatus (cs : ColoStatus)
  | peerSaveDomain (ds : ColodDomainStatus)
  | peerStartDomain (domainName : String) (coloEnable : Bool)
  | peerDestroyDomain (domainName : String)
  | peerSendQmpcmds (domainName : String) (cds : ColoDomainStatus)
  deriving DecidableEq, Repr

/-- The command-line tool sends these; the others come from the peer colod. -/
def Request.isLocal : Request → Bool
  | .connectReply => false
  | .peerSaveStatus _ => false
  | .peerSaveDomain _ => false
  | .peerStartDomain _ _ => false
  | .peerDestroyDomain _ => false
  | .peerSendQmpcmds _ _ => false
  | _ => true

/-! ## Strings on the wire -/

/-- `Serializer << string`: the length modulo 65536, low byte first, and that
many bytes. -/
def putString (s : String) : List Char :=
  let len := s.length % 65536
  Char.ofNat (len % 256) :: Char.ofNat (len / 256) :: s.toList.take len

/-- `Serializer >> string` on a default-constructed string. -/
def getString : List Char → Option (String × List Char)
  | low :: high :: rest =>
      let len := low.toNat + 256 * high.toNat
      if len ≤ rest.length then some (String.ofList (rest.take len), rest.drop len)
      else none
  | _ => none

def wireString (s : String) : String :=
  String.ofList (s.toList.take (s.length % 65536))

theorem toNat_ofNat_byte {n : ℕ} (h : n < 256) : (Char.ofNat n).toNat = n := by
  have hvalid : n.isValidChar := Or.inl (by omega)
  rw [Char.ofNat, dif_pos hvalid]
  rfl

theorem getString_putString (s : String) (rest : List Char) :
    getString (putString s ++ rest) = some (wireString s, rest) := by
  have hlow : (Char.ofNat (s.length % 65536 % 256)).toNat = s.length % 65536 % 256 :=
    toNat_ofNat_byte (by omega)
  have hhigh : (Char.ofNat (s.length % 65536 / 256)).toNat = s.length % 65536 / 256 :=
    toNat_ofNat_byte (by omega)
  have hlen : s.length % 65536 % 256 + 256 * (s.length % 65536 / 256) =
      s.length % 65536 := Nat.mod_add_div _ _
  have htake : (s.toList.take (s.length % 65536)).length = s.length % 65536 := by
    rw [List.length_take, String.length_toList]
    exact Nat.min_eq_left (Nat.mod_le _ _)
  simp only [putString, List.cons_append, getString, hlow, hhigh, hlen]
  rw [if_pos (by rw [List.length_append, htake]; omega), List.take_left' htake,
    List.drop_left' htake]
  rfl

theorem wireString_of_lt {s : String} (h : s.length < 65536) : wireString s = s := by
  have htake : s.toList.take (s.length % 65536) = s.toList := by
    apply List.take_of_length_le
    rw [String.length_toList, Nat.mod_eq_of_lt h]
  rw [wireString, htake, String.ofList_toList]

theorem wireString_eq_iff {s : String} : wireString s = s ↔ s.length < 65536 := by
  refine ⟨fun h => ?_, wireString_of_lt⟩
  have hlength := congrArg String.length h
  simp only [wireString, String.length_ofList, List.length_take, String.length_toList] at hlength
  omega

/-! ## Messages on the wire -/

def ColoStatus.wire (cs : ColoStatus) : ColoStatus :=
  { cs with
    hostIp := wireString cs.hostIp
    hostUser := wireString cs.hostUser
    hostFilePath := wireString cs.hostFilePath
    peerIp := wireString cs.peerIp
    peerUser := wireString cs.peerUser
    peerFilePath := wireString cs.peerFilePath }

def ColodDomainStatus.wire (ds : ColodDomainStatus) : ColodDomainStatus :=
  { ds with
    name := wireString ds.name
    configFilePath := wireString ds.configFilePath }

def ColodRetVal.wire (ret : ColodRetVal) : ColodRetVal :=
  { ret with msg := wireString ret.msg }

def Request.wire : Request → Request
  | .connectPeer configFilePath => .connectPeer (wireString configFilePath)
  | .define vmFilePath => .define (wireString vmFilePath)
  | .undefine domainName => .undefine (wireString domainName)
  | .start domainName colo => .start (wireString domainName) colo
  | .destroy domainName => .destroy (wireString domainName)
  | .coloEnable domainName => .coloEnable (wireString domainName)
  | .coloDisable domainName => .coloDisable (wireString domainName)
  | .vmStatus domainName => .vmStatus (wireString domainName)
  | .setParams domainName property value =>
      .setParams (wireString domainName) (wireString property) value
  | .doFailover domainName => .doFailover (wireString domainName)
  | .domainTest domainName => .domainTest (wireString domainName)
  | .peerSaveStatus cs => .peerSaveStatus cs.wire
  | .peerSaveDomain ds => .peerSaveDomain ds.wire
  | .peerStartDomain domainName colo => .peerStartDomain (wireString domainName) colo
  | .peerDestroyDomain domainName => .peerDestroyDomain (wireString domainName)
  | .peerSendQmpcmds domainName cds => .peerSendQmpcmds (wireString domainName) cds
  | request => request

/-! ## The client -/

inductive RpcErrCode
  | success
  | functionNotBind
  | recvTimeout
  deriving DecidableEq, Repr

/-- `value_t<colod_ret_val>`; `val` is read only when the code is `success`. -/
structure ValueT where
  code : RpcErrCode
  val : ColodRetVal
  deriving DecidableEq, Repr

def ValueT.answer (ret : ColodRetVal) : ValueT := ⟨.success, ret.wire⟩

/-- What `net_call` returns when `recv` gives an empty message. -/
def ValueT.timeout : ValueT := ⟨.recvTimeout, ⟨0, ""⟩⟩

/-- A REQ socket.  `awaiting` is its state machine: a request is out that no
reply has answered, so that `send` fails and `recv` waits; otherwise it is
`recv` that fails. -/
structure ReqSocket where
  id : ℕ
  ip : String
  awaiting : Bool
  deriving DecidableEq, Repr

structure Buttonrpc where
  socket : Option ReqSocket
  errorCode : RpcErrCode
  deriving DecidableEq, Repr

instance : Inhabited Buttonrpc := ⟨⟨none, .success⟩⟩

def Buttonrpc.sends (client : Buttonrpc) : Bool := decide (client.errorCode ≠ .recvTimeout)

/-- The socket is in the state that the next `net_call` needs. -/
def Buttonrpc.usable (client : Buttonrpc) : Bool :=
  match client.socket with
  | none => false
  | some socket => socket.awaiting == !client.sends

/-- A handler waiting in `recv`, and whether its `net_call` sent the request. -/
structure Query where
  request : Request
  sent : Bool
  deriving DecidableEq, Repr

end ColoManage
