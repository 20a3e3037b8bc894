import ColoManage.Service
import ColoManage.Library.Decoding

/-!
# Messages as bytes

`Serializer.hpp` writes a scalar as the bytes of its type, low byte first, and
a string behind its length.  The `<<` and `>>` of the three records are kept
apart, each with the fields in the order its own source lists them.

A request is the name of a function and its argument tuple; the server looks
the name up among the functions `server_init` bound and reads the tuple that
this function takes.  A reply is the envelope `value_t` around the value.
-/

namespace ColoManage

open Decoding

/-! ## Scalars -/

def inputType (len n : ℕ) : List Char := littleEndian Char.ofNat len n

/-- At the end of the stream the variable keeps the value it had. -/
def outputType {α : Type} (len : ℕ) (ofBytes : ℕ → Option α) (t : α) : Decoder Char α
  | [] => some (t, [])
  | stream => do
      let (n, rest) ← readLittleEndian Char.toNat len stream
      let a ← ofBytes n
      some (a, rest)

theorem reads_outputType {α : Type} {len n : ℕ} {ofBytes : ℕ → Option α} {t a : α}
    (hn : n < 256 ^ (len + 1)) (ha : ofBytes n = some a) :
    Reads (outputType (len + 1) ofBytes t) (inputType (len + 1) n) a := by
  intro rest
  have hbyte : ∀ b, b < 256 → (Char.ofNat b).toNat = b := fun _ => toNat_ofNat_byte
  have hread := readLittleEndian_littleEndian hbyte (len + 1) n hn rest
  rw [littleEndian, List.cons_append] at hread
  rw [inputType, littleEndian, List.cons_append, outputType, hread]
  · simp only [Option.bind_eq_bind, Option.bind_some, ha]
  · apply List.cons_ne_nil

/-- What an `int` holds. -/
def FitsInt (i : ℤ) : Prop := -2 ^ 31 ≤ i ∧ i < 2 ^ 31

def putInt (i : ℤ) : List Char := inputType 4 (BitVec.ofInt 32 i).toNat

def getInt (t : ℤ) : Decoder Char ℤ :=
  outputType 4 (fun n => some (BitVec.ofNat 32 n).toInt) t

def putBool (b : Bool) : List Char := inputType 1 b.toNat

def getBool (t : Bool) : Decoder Char Bool :=
  outputType 1 (fun n => some (decide (n ≠ 0))) t

/-- An enumeration with `enumerators` in their order, in `len` bytes. -/
def putEnum {α : Type} [DecidableEq α] (len : ℕ) (enumerators : List α) (a : α) : List Char :=
  inputType len (enumerators.idxOf a)

def getEnum {α : Type} (len : ℕ) (enumerators : List α) (t : α) : Decoder Char α :=
  outputType len (fun n => enumerators[n]?) t

theorem reads_getInt {i t : ℤ} (hi : FitsInt i) : Reads (getInt t) (putInt i) i := by
  apply reads_outputType
  · exact (BitVec.ofInt 32 i).isLt
  · have htoInt : (BitVec.ofInt 32 i).toInt = i := by
      rw [BitVec.toInt_ofInt]
      apply Int.bmod_eq_of_le
      · exact hi.1
      · exact hi.2
    rw [BitVec.ofNat_toNat, BitVec.setWidth_eq, htoInt]

theorem reads_getBool {b t : Bool} : Reads (getBool t) (putBool b) b := by
  apply reads_outputType
  · cases b <;> decide
  · cases b <;> rfl

theorem reads_getEnum {α : Type} [DecidableEq α] {len : ℕ} {enumerators : List α} {t a : α}
    (ha : a ∈ enumerators) (hlen : enumerators.length ≤ 256 ^ (len + 1)) :
    Reads (getEnum (len + 1) enumerators t) (putEnum (len + 1) enumerators a) a := by
  have hidx : enumerators.idxOf a < enumerators.length := List.idxOf_lt_length_iff.mpr ha
  apply reads_outputType
  · omega
  · exact List.getElem?_idxOf ha

theorem reads_getString (s : String) : Reads getString (putString s) (wireString s) :=
  getString_putString s

def ColoNodeStatus.enumerators : List ColoNodeStatus := [.none, .primary, .secondary, .error]

def DomainStatus.enumerators : List DomainStatus :=
  [.shutOff, .start, .running, .coloEnabled, .error]

def ColoDomainStatus.enumerators : List ColoDomainStatus :=
  [.none, .primary, .secondary, .failover, .degrade, .dead]

def RpcErrCode.enumerators : List RpcErrCode := [.success, .functionNotBind, .recvTimeout]

theorem ColoNodeStatus.reads (status t : ColoNodeStatus) :
    Reads (getEnum 4 enumerators t) (putEnum 4 enumerators status) status := by
  apply reads_getEnum
  · cases status <;> decide
  · decide

theorem DomainStatus.reads (status t : DomainStatus) :
    Reads (getEnum 4 enumerators t) (putEnum 4 enumerators status) status := by
  apply reads_getEnum
  · cases status <;> decide
  · decide

theorem ColoDomainStatus.reads (status t : ColoDomainStatus) :
    Reads (getEnum 4 enumerators t) (putEnum 4 enumerators status) status := by
  apply reads_getEnum
  · cases status <;> decide
  · decide

/-- `code_type` is `uint16_t`. -/
theorem RpcErrCode.reads (code t : RpcErrCode) :
    Reads (getEnum 2 enumerators t) (putEnum 2 enumerators code) code := by
  apply reads_getEnum
  · cases code <;> decide
  · decide

/-! ## Records -/

def ColoStatus.put (cs : ColoStatus) : List Char :=
  putEnum 4 ColoNodeStatus.enumerators cs.localStatus ++ (putInt cs.colodPort ++
    (putString cs.hostIp ++ (putString cs.hostUser ++ (putString cs.hostFilePath ++
      (putString cs.peerIp ++ (putString cs.peerUser ++ putString cs.peerFilePath))))))

/-- The `>>` of a record whose strings are empty. -/
def ColoStatus.get (cs : ColoStatus) : Decoder Char ColoStatus := do
  let localStatus ← getEnum 4 ColoNodeStatus.enumerators cs.localStatus
  let colodPort ← getInt cs.colodPort
  let hostIp ← getString
  let hostUser ← getString
  let hostFilePath ← getString
  let peerIp ← getString
  let peerUser ← getString
  let peerFilePath ← getString
  pure { localStatus, colodPort, hostIp, hostUser, hostFilePath, peerIp, peerUser, peerFilePath }

def ColodDomainStatus.put (ds : ColodDomainStatus) : List Char :=
  putInt ds.pid ++ (putString ds.name ++ (putEnum 4 DomainStatus.enumerators ds.status ++
    (putBool ds.coloEnable ++ (putEnum 4 ColoDomainStatus.enumerators ds.coloStatus ++
      putString ds.configFilePath))))

def ColodDomainStatus.get (ds : ColodDomainStatus) : Decoder Char ColodDomainStatus := do
  let pid ← getInt ds.pid
  let name ← getString
  let status ← getEnum 4 DomainStatus.enumerators ds.status
  let coloEnable ← getBool ds.coloEnable
  let coloStatus ← getEnum 4 ColoDomainStatus.enumerators ds.coloStatus
  let configFilePath ← getString
  pure { pid, name, status, coloEnable, coloStatus, configFilePath }

def ColodRetVal.put (ret : ColodRetVal) : List Char := putInt ret.code ++ putString ret.msg

def ColodRetVal.get (ret : ColodRetVal) : Decoder Char ColodRetVal := do
  let code ← getInt ret.code
  let msg ← getString
  pure { code, msg }

theorem ColoStatus.reads {cs t : ColoStatus} (hport : FitsInt cs.colodPort) :
    Reads t.get cs.put cs.wire := by
  apply Reads.bind (ColoNodeStatus.reads cs.localStatus t.localStatus)
  apply Reads.bind (reads_getInt hport)
  apply Reads.bind (reads_getString cs.hostIp)
  apply Reads.bind (reads_getString cs.hostUser)
  apply Reads.bind (reads_getString cs.hostFilePath)
  apply Reads.bind (reads_getString cs.peerIp)
  apply Reads.bind (reads_getString cs.peerUser)
  exact Reads.bind_pure (reads_getString cs.peerFilePath)

theorem ColodDomainStatus.reads {ds t : ColodDomainStatus} (hpid : FitsInt ds.pid) :
    Reads t.get ds.put ds.wire := by
  apply Reads.bind (reads_getInt hpid)
  apply Reads.bind (reads_getString ds.name)
  apply Reads.bind (DomainStatus.reads ds.status t.status)
  apply Reads.bind reads_getBool
  apply Reads.bind (ColoDomainStatus.reads ds.coloStatus t.coloStatus)
  exact Reads.bind_pure (reads_getString ds.configFilePath)

theorem ColodRetVal.reads {ret t : ColodRetVal} (hcode : FitsInt ret.code) :
    Reads t.get ret.put ret.wire := by
  apply Reads.bind (reads_getInt hcode)
  exact Reads.bind_pure (reads_getString ret.msg)

/-! ## Argument tuples -/

/-- The types of the parameters of the bound functions. -/
inductive ArgType
  | string
  | bool
  | int
  | coloDomainStatus
  | coloStatus
  | colodDomainStatus
  deriving DecidableEq, Repr

namespace ArgType

abbrev Val : ArgType → Type
  | string => String
  | bool => Bool
  | int => ℤ
  | coloDomainStatus => ColoDomainStatus
  | coloStatus => ColoStatus
  | colodDomainStatus => ColodDomainStatus

def put : (t : ArgType) → t.Val → List Char
  | string, s => putString s
  | bool, b => putBool b
  | int, i => putInt i
  | coloDomainStatus, cds => putEnum 4 ColoDomainStatus.enumerators cds
  | coloStatus, cs => cs.put
  | colodDomainStatus, ds => ds.put

/-- Into a value of the default-constructed tuple. -/
def get : (t : ArgType) → Decoder Char t.Val
  | string => getString
  | bool => getBool default
  | int => getInt 0
  | coloDomainStatus => getEnum 4 ColoDomainStatus.enumerators default
  | coloStatus => ColoStatus.get default
  | colodDomainStatus => ColodDomainStatus.get default

/-- The integers of the value are of the width of their C type. -/
def Fits : (t : ArgType) → t.Val → Prop
  | string, _ => True
  | bool, _ => True
  | int, i => FitsInt i
  | coloDomainStatus, _ => True
  | coloStatus, cs => FitsInt cs.colodPort
  | colodDomainStatus, ds => FitsInt ds.pid

def wire : (t : ArgType) → t.Val → t.Val
  | string, s => wireString s
  | bool, b => b
  | int, i => i
  | coloDomainStatus, cds => cds
  | coloStatus, cs => cs.wire
  | colodDomainStatus, ds => ds.wire

theorem reads (t : ArgType) (v : t.Val) (hv : t.Fits v) : Reads t.get (t.put v) (t.wire v) := by
  cases t with
  | string => exact reads_getString v
  | bool => exact reads_getBool
  | int => exact reads_getInt hv
  | coloDomainStatus => exact ColoDomainStatus.reads v default
  | coloStatus => exact ColoStatus.reads hv
  | colodDomainStatus => exact ColodDomainStatus.reads hv

abbrev Tuple : List ArgType → Type
  | [] => Unit
  | t :: ts => t.Val × Tuple ts

end ArgType

open ArgType (Tuple)

def packageParams : (ts : List ArgType) → Tuple ts → List Char
  | [], _ => []
  | t :: ts, (v, vs) => t.put v ++ packageParams ts vs

def getTuple : (ts : List ArgType) → Decoder Char (Tuple ts)
  | [] => pure ()
  | t :: ts => do
      let v ← t.get
      let vs ← getTuple ts
      pure (v, vs)

namespace ArgType

def FitsAll : (ts : List ArgType) → Tuple ts → Prop
  | [], _ => True
  | t :: ts, (v, vs) => t.Fits v ∧ FitsAll ts vs

def wireAll : (ts : List ArgType) → Tuple ts → Tuple ts
  | [], _ => ()
  | t :: ts, (v, vs) => (t.wire v, wireAll ts vs)

theorem reads_getTuple (ts : List ArgType) (vs : Tuple ts) (hvs : FitsAll ts vs) :
    Reads (getTuple ts) (packageParams ts vs) (wireAll ts vs) := by
  induction ts with
  | nil => exact Reads.pure ()
  | cons t ts ih =>
      apply Reads.bind (t.reads vs.1 hvs.1)
      exact Reads.bind_pure (f := fun rest => (t.wire vs.1, rest)) (ih vs.2 hvs.2)

end ArgType

/-! ## Requests -/

/-- What `buttonrpc::call` is given. -/
structure RpcCall where
  name : String
  argTypes : List ArgType
  args : Tuple argTypes

def RpcCall.put (call : RpcCall) : List Char :=
  putString call.name ++ packageParams call.argTypes call.args

def RpcCall.Fits (call : RpcCall) : Prop := ArgType.FitsAll call.argTypes call.args

/-- The call behind each request: by the command-line tool, whose names are
those of `colo_cmd_type_to_str_map`, or by the peer. -/
def Request.call : Request → RpcCall
  | .connectPeer configFilePath => ⟨"connect-peer", [.string], (configFilePath, ())⟩
  | .connectStatus => ⟨"connect-status", [], ()⟩
  | .define vmFilePath => ⟨"define", [.string], (vmFilePath, ())⟩
  | .undefine domainName => ⟨"undefine", [.string], (domainName, ())⟩
  | .list showAll => ⟨"list", [.bool], (showAll, ())⟩
  | .start domainName colo => ⟨"start", [.string, .bool], (domainName, colo, ())⟩
  | .destroy domainName => ⟨"destroy", [.string], (domainName, ())⟩
  | .coloEnable domainName => ⟨"colo-enable", [.string], (domainName, ())⟩
  | .coloDisable domainName => ⟨"colo-disable", [.string], (domainName, ())⟩
  | .vmStatus domainName => ⟨"vm-status", [.string], (domainName, ())⟩
  | .setParams domainName property value =>
      ⟨"set-params", [.string, .string, .int], (domainName, property, value, ())⟩
  | .doFailover domainName => ⟨"do-failover", [.string], (domainName, ())⟩
  | .connectTest => ⟨"connect-test", [], ()⟩
  | .connectReply => ⟨"connect-reply", [], ()⟩
  | .domainTest domainName => ⟨"domain-test", [.string], (domainName, ())⟩
  | .peerSaveStatus cs => ⟨"peer-save-status", [.coloStatus], (cs, ())⟩
  | .peerSaveDomain ds => ⟨"peer-save-domain", [.colodDomainStatus], (ds, ())⟩
  | .peerStartDomain domainName colo =>
      ⟨"peer-start-domain", [.string, .bool], (domainName, colo, ())⟩
  | .peerDestroyDomain domainName => ⟨"peer-destroy-domain", [.string], (domainName, ())⟩
  | .peerSendQmpcmds domainName cds =>
      ⟨"peer-send-qmpcmds", [.string, .coloDomainStatus], (domainName, cds, ())⟩

/-- A row of `m_handlers`: the tuple the function takes and the function. -/
structure Binding where
  argTypes : List ArgType
  invoke : Tuple argTypes → Request

/-- `server_init`. -/
def serverInit : List (String × Binding) :=
  [("connect-peer", ⟨[.string], fun (configFilePath, _) => .connectPeer configFilePath⟩),
    ("connect-status", ⟨[], fun _ => .connectStatus⟩),
    ("define", ⟨[.string], fun (vmFilePath, _) => .define vmFilePath⟩),
    ("undefine", ⟨[.string], fun (domainName, _) => .undefine domainName⟩),
    ("list", ⟨[.bool], fun (showAll, _) => .list showAll⟩),
    ("start", ⟨[.string, .bool], fun (domainName, colo, _) => .start domainName colo⟩),
    ("destroy", ⟨[.string], fun (domainName, _) => .destroy domainName⟩),
    ("colo-enable", ⟨[.string], fun (domainName, _) => .coloEnable domainName⟩),
    ("colo-disable", ⟨[.string], fun (domainName, _) => .coloDisable domainName⟩),
    ("vm-status", ⟨[.string], fun (domainName, _) => .vmStatus domainName⟩),
    ("set-params", ⟨[.string, .string, .int],
      fun (domainName, property, value, _) => .setParams domainName property value⟩),
    ("do-failover", ⟨[.string], fun (domainName, _) => .doFailover domainName⟩),
    ("connect-test", ⟨[], fun _ => .connectTest⟩),
    ("connect-reply", ⟨[], fun _ => .connectReply⟩),
    ("domain-test", ⟨[.string], fun (domainName, _) => .domainTest domainName⟩),
    ("peer-save-status", ⟨[.coloStatus], fun (cs, _) => .peerSaveStatus cs⟩),
    ("peer-save-domain", ⟨[.colodDomainStatus], fun (ds, _) => .peerSaveDomain ds⟩),
    ("peer-start-domain", ⟨[.string, .bool],
      fun (domainName, colo, _) => .peerStartDomain domainName colo⟩),
    ("peer-destroy-domain", ⟨[.string], fun (domainName, _) => .peerDestroyDomain domainName⟩),
    ("peer-send-qmpcmds", ⟨[.string, .coloDomainStatus],
      fun (domainName, cds, _) => .peerSendQmpcmds domainName cds⟩)]

/-- `call_` up to the invocation.  An unbound name is answered by its own
reply, and no function runs. -/
def callHandler (name : String) : Decoder Char (Except RpcErrCode Request) :=
  match serverInit.lookup name with
  | none => pure (.error .functionNotBind)
  | some binding => do
      let args ← getTuple binding.argTypes
      pure (.ok (binding.invoke args))

/-- The name of a request and the tuple behind it. -/
def getCall (argTypes : List ArgType) : Decoder Char (String × Tuple argTypes) := do
  let name ← getString
  let args ← getTuple argTypes
  pure (name, args)

/-- One turn of `buttonrpc::run` up to the invocation. -/
def readRequest : Decoder Char (Except RpcErrCode Request) := do
  let funname ← getString
  callHandler funname

theorem RpcCall.reads {call : RpcCall} (hfits : call.Fits) :
    Reads (getCall call.argTypes) call.put
      (wireString call.name, ArgType.wireAll call.argTypes call.args) := by
  apply Reads.bind (reads_getString call.name)
  exact Reads.bind_pure (ArgType.reads_getTuple call.argTypes call.args hfits)

theorem bound_call (request : Request) : request.call.name ∈ serverInit.map Prod.fst := by
  cases request <;> simp [Request.call, serverInit]

theorem wireString_serverInit :
    ∀ name ∈ serverInit.map Prod.fst, wireString name = name := by
  decide +kernel

theorem reads_readRequest {request : Request} (hfits : request.call.Fits) :
    Reads readRequest request.call.put (.ok request.wire) := by
  have hname : wireString request.call.name = request.call.name :=
    wireString_serverInit request.call.name (bound_call request)
  have hread : Reads (callHandler request.call.name)
      (packageParams request.call.argTypes request.call.args) (.ok request.wire) := by
    have htuple := ArgType.reads_getTuple request.call.argTypes request.call.args hfits
    cases request <;> exact Reads.bind_pure htuple
  apply Reads.bind (reads_getString request.call.name)
  rw [hname]
  exact hread

/-! ## Replies -/

/-- `value_t` around the value a function returned; `msg_` is empty. -/
def putReply (ret : ColodRetVal) : List Char :=
  putEnum 2 RpcErrCode.enumerators .success ++ (putString "" ++ ret.put)

/-- The reply of `call_` to a name that is not bound. -/
def putNotBound (name : String) : List Char :=
  putEnum 2 RpcErrCode.enumerators .functionNotBind ++ putString ("function not bind: " ++ name)

def ValueT.get : Decoder Char ValueT := do
  let code ← getEnum 2 RpcErrCode.enumerators .success
  let _ ← getString
  if code = .success then do
    let val ← ColodRetVal.get ⟨0, ""⟩
    pure ⟨code, val⟩
  else pure ⟨code, ⟨0, ""⟩⟩

theorem reads_putReply {ret : ColodRetVal} (hcode : FitsInt ret.code) :
    Reads ValueT.get (putReply ret) (ValueT.answer ret) := by
  apply Reads.bind (RpcErrCode.reads .success .success)
  apply Reads.bind (reads_getString "")
  exact Reads.bind_pure (ColodRetVal.reads hcode)

end ColoManage
