import ColoManage.Codec

/-!
# What short messages carry

A string shorter than 65536 bytes crosses the wire whole.  A message all of
whose strings are that short is therefore read back field by field, from the
front of any stream: the buffer of the receiver runs past the end of what was
written, by one byte in `net_call` and by two more in `call_`.
-/

namespace ColoManage

open Decoding
open ArgType (Tuple)

abbrev ShortString (s : String) : Prop := s.length < 65536

structure ColoStatus.Short (cs : ColoStatus) : Prop where
  hostIp : ShortString cs.hostIp
  hostUser : ShortString cs.hostUser
  hostFilePath : ShortString cs.hostFilePath
  peerIp : ShortString cs.peerIp
  peerUser : ShortString cs.peerUser
  peerFilePath : ShortString cs.peerFilePath

structure ColodDomainStatus.Short (ds : ColodDomainStatus) : Prop where
  name : ShortString ds.name
  configFilePath : ShortString ds.configFilePath

theorem ColoStatus.wire_of_short {cs : ColoStatus} (h : cs.Short) : cs.wire = cs := by
  rw [wire, wireString_of_lt h.hostIp, wireString_of_lt h.hostUser,
    wireString_of_lt h.hostFilePath, wireString_of_lt h.peerIp, wireString_of_lt h.peerUser,
    wireString_of_lt h.peerFilePath]

theorem ColodDomainStatus.wire_of_short {ds : ColodDomainStatus} (h : ds.Short) :
    ds.wire = ds := by
  rw [wire, wireString_of_lt h.name, wireString_of_lt h.configFilePath]

theorem ColodRetVal.wire_of_short {ret : ColodRetVal} (h : ShortString ret.msg) :
    ret.wire = ret := by
  rw [wire, wireString_of_lt h]

namespace ArgType

def Short : (t : ArgType) → t.Val → Prop
  | string, s => ShortString s
  | bool, _ => True
  | int, _ => True
  | coloDomainStatus, _ => True
  | coloStatus, cs => cs.Short
  | colodDomainStatus, ds => ds.Short

theorem wire_of_short (t : ArgType) (v : t.Val) (hv : t.Short v) : t.wire v = v := by
  cases t with
  | string => exact wireString_of_lt hv
  | bool => rfl
  | int => rfl
  | coloDomainStatus => rfl
  | coloStatus => exact ColoStatus.wire_of_short hv
  | colodDomainStatus => exact ColodDomainStatus.wire_of_short hv

def ShortAll : (ts : List ArgType) → Tuple ts → Prop
  | [], _ => True
  | t :: ts, (v, vs) => t.Short v ∧ ShortAll ts vs

theorem wireAll_of_shortAll (ts : List ArgType) (vs : Tuple ts) (hvs : ShortAll ts vs) :
    wireAll ts vs = vs := by
  induction ts with
  | nil => rfl
  | cons t ts ih =>
      have hhead : t.wire vs.1 = vs.1 := t.wire_of_short vs.1 hvs.1
      have htail : wireAll ts vs.2 = vs.2 := ih vs.2 hvs.2
      rw [wireAll, hhead, htail]

end ArgType

structure RpcCall.Short (call : RpcCall) : Prop where
  name : ShortString call.name
  args : ArgType.ShortAll call.argTypes call.args

theorem Request.wire_of_short {request : Request} (h : request.call.Short) :
    request.wire = request := by
  have hargs : ArgType.ShortAll request.call.argTypes request.call.args := h.args
  cases request with
  | peerSaveStatus cs => rw [wire, ColoStatus.wire_of_short hargs.1]
  | peerSaveDomain ds => rw [wire, ColodDomainStatus.wire_of_short hargs.1]
  | setParams domainName property value =>
      rw [wire, wireString_of_lt hargs.1, wireString_of_lt hargs.2.1]
  | connectStatus | list | connectTest | connectReply => rfl
  | _ => rw [wire, wireString_of_lt hargs.1]

/-! ## The round trip -/

theorem messages_round_trip (trailing : List Char) :
    (∀ cs : ColoStatus, FitsInt cs.colodPort → cs.Short →
      ColoStatus.get default (cs.put ++ trailing) = some (cs, trailing)) ∧
    (∀ ds : ColodDomainStatus, FitsInt ds.pid → ds.Short →
      ColodDomainStatus.get default (ds.put ++ trailing) = some (ds, trailing)) ∧
    (∀ ret : ColodRetVal, FitsInt ret.code → ShortString ret.msg →
      ColodRetVal.get ⟨0, ""⟩ (ret.put ++ trailing) = some (ret, trailing) ∧
        ValueT.get (putReply ret ++ trailing) = some (⟨.success, ret⟩, trailing)) ∧
    (∀ call : RpcCall, call.Fits → call.Short →
      getCall call.argTypes (call.put ++ trailing) =
        some ((call.name, call.args), trailing)) ∧
    ∀ request : Request, request.call.Fits → request.call.Short →
      readRequest (request.call.put ++ trailing) = some (.ok request, trailing) := by
  refine ⟨fun cs hfits hshort => ?_, fun ds hfits hshort => ?_, fun ret hfits hshort => ?_,
    fun call hfits hshort => ?_, fun request hfits hshort => ?_⟩
  · have hread := ColoStatus.reads (t := default) hfits trailing
    rwa [ColoStatus.wire_of_short hshort] at hread
  · have hread := ColodDomainStatus.reads (t := default) hfits trailing
    rwa [ColodDomainStatus.wire_of_short hshort] at hread
  · have hwire : ret.wire = ret := ColodRetVal.wire_of_short hshort
    have hread := ColodRetVal.reads (t := ⟨0, ""⟩) hfits trailing
    have hreply := reads_putReply hfits trailing
    rw [ValueT.answer] at hreply
    rw [hwire] at hread hreply
    exact ⟨hread, hreply⟩
  · have hread := RpcCall.reads hfits trailing
    rwa [wireString_of_lt hshort.name, ArgType.wireAll_of_shortAll _ _ hshort.args] at hread
  · have hread := reads_readRequest hfits trailing
    rwa [Request.wire_of_short hshort] at hread

def sampleStatus : ColoStatus where
  localStatus := .secondary
  colodPort := 5678
  hostIp := "10.0.0.2"
  hostUser := "root"
  hostFilePath := "/root/"
  peerIp := "10.0.0.1"
  peerUser := "root"
  peerFilePath := "/home/"

theorem sampleStatus_short : sampleStatus.Short where
  hostIp := by decide +kernel
  hostUser := by decide +kernel
  hostFilePath := by decide +kernel
  peerIp := by decide +kernel
  peerUser := by decide +kernel
  peerFilePath := by decide +kernel

theorem sample_messages_round_trip :
    ColoStatus.get default (sampleStatus.put ++ ['x']) = some (sampleStatus, ['x']) ∧
      ColodDomainStatus.get default (ColodDomainStatus.put ⟨-1, "d", .shutOff, true, .primary,
          "/root/d.yaml"⟩ ++ ['x']) =
        some (⟨-1, "d", .shutOff, true, .primary, "/root/d.yaml"⟩, ['x']) ∧
      ValueT.get (putReply ⟨-1, "refused"⟩ ++ ['x']) =
        some (⟨.success, ⟨-1, "refused"⟩⟩, ['x']) ∧
      getCall [.string, .bool] (RpcCall.put ⟨"start", [.string, .bool], ("d", true, ())⟩ ++ ['x']) =
        some (("start", ("d", true, ())), ['x']) ∧
      readRequest ((Request.peerSaveStatus sampleStatus).call.put ++ ['x']) =
        some (.ok (.peerSaveStatus sampleStatus), ['x']) := by
  have hport : FitsInt 5678 := ⟨by decide, by decide⟩
  have hcode : FitsInt (-1) := ⟨by decide, by decide⟩
  have hshort : ∀ s ∈ ["d", "start", "refused", "/root/d.yaml", "peer-save-status"],
      ShortString s := by
    decide +kernel
  obtain ⟨hstatus, hdomain, hret, hcall, hrequest⟩ := messages_round_trip ['x']
  refine ⟨hstatus sampleStatus hport sampleStatus_short, ?_, ?_, ?_, ?_⟩
  · apply hdomain ⟨-1, "d", .shutOff, true, .primary, "/root/d.yaml"⟩ hcode
    exact ⟨hshort "d" (by simp), hshort "/root/d.yaml" (by simp)⟩
  · exact (hret ⟨-1, "refused"⟩ hcode (hshort "refused" (by simp))).2
  · apply hcall ⟨"start", [.string, .bool], ("d", true, ())⟩ ⟨trivial, trivial, trivial⟩
    exact ⟨hshort "start" (by simp), hshort "d" (by simp), trivial, trivial⟩
  · apply hrequest (.peerSaveStatus sampleStatus) ⟨hport, trivial⟩
    exact ⟨hshort "peer-save-status" (by simp), sampleStatus_short, trivial⟩

end ColoManage
