import ColoManage.ToolRequests
import ColoManage.Codec
import ColoManage.Server
import ColoManage.Steps

/-!
# A command from the line to the answer

The tool packs its request, colod reads it off the wire, runs the function that
is bound to the name and sends the value back, which the tool unpacks and
prints.  Both ends read what the other has written: a command acts on colod as
the request of the line does, with its strings cut as the wire cuts them.
-/

namespace ColoManage

open Resumption Forking CommandLine CmdParser

/-! ## The codes of the handlers -/

/-- Whatever happens, the handler returns `0` or `-1`. -/
def PlainCodes (act : Colod) : Prop :=
  act.Post Node.Meanwhile (fun _ _ => True) (fun ret _ => ret.code = 0 ∨ ret.code = -1)
    fun _ => True

section

variable {env : Env} {nd : Node}

theorem plain_remoteCall {request : Request} {k : ValueT → Node → Colod}
    (h : ∀ ret nd, PlainCodes (k ret nd)) : PlainCodes (nd.remoteCall request k) :=
  Node.post_remoteCall (fun _ _ => trivial) (fun _ _ _ => trivial) fun ret nd' _ => h ret nd'

theorem plain_checkReply {failure : String} {ret : ValueT} {k : Node → Colod}
    (h : PlainCodes (k nd)) : PlainCodes (checkReply failure ret nd k) :=
  post_checkReply (.inr rfl) (.inr rfl) h

theorem plain_checkQmp {failure : String} {cmds : List String} {k : Node → Colod}
    (h : ∀ nd, PlainCodes (k nd)) :
    PlainCodes (checkQmp failure (nd.sendQmpCmds env cmds) k) :=
  post_checkQmp (fun _ => trivial) (fun _ => .inr rfl) fun _ => h _

theorem plain_connectPeer (configFilePath : String) :
    PlainCodes (colodConnectPeer env configFilePath nd) := by
  unfold colodConnectPeer
  split
  · trivial
  · split
    · trivial
    · exact .inr rfl
    · split
      · trivial
      · refine plain_remoteCall fun ret nd => ?_
        split
        · exact .inr rfl
        · split
          · exact .inr rfl
          · exact .inl rfl

theorem plain_connectStatus : PlainCodes (colodConnectStatus nd) := by
  unfold colodConnectStatus
  split
  · refine plain_remoteCall fun ret nd => ?_
    split <;> exact .inl rfl
  · exact .inr rfl

theorem plain_startQmp (domainName : String) (curStatus : ColoDomainStatus) (d : Domain) :
    PlainCodes (startQmp env domainName curStatus d nd) := by
  cases curStatus with
  | primary =>
      exact plain_remoteCall fun ret nd => plain_checkReply (plain_checkQmp fun nd => .inl rfl)
  | secondary =>
      exact plain_checkQmp fun nd => plain_remoteCall fun ret nd => plain_checkReply (.inl rfl)
  | _ => exact .inl rfl

theorem plain_startHost (domainName : String) (curStatus : ColoDomainStatus) (d : Domain) :
    PlainCodes (startHost env domainName curStatus d nd) := by
  unfold startHost
  dsimp only
  split
  · exact .inr rfl
  · exact plain_startQmp domainName curStatus d

theorem plain_start (domainName : String) (colo : Bool) :
    PlainCodes (colodStart env domainName colo nd) := by
  unfold colodStart
  dsimp only
  split
  · exact .inr rfl
  · split
    · trivial
    · exact .inr rfl
    · split
      · exact .inl rfl
      · split
        · exact .inl rfl
        · exact plain_remoteCall fun ret nd =>
            plain_checkReply (plain_startHost domainName _ _)

theorem plain_destroyHost (domainName success : String) :
    PlainCodes (destroyHost env domainName success nd) := by
  unfold destroyHost
  dsimp only
  split
  · exact .inr rfl
  · exact .inl rfl

theorem plain_destroy (domainName : String) : PlainCodes (colodDestroy env domainName nd) := by
  unfold colodDestroy
  dsimp only
  split
  · exact .inr rfl
  · split
    · exact plain_destroyHost domainName _
    · exact plain_remoteCall fun ret nd => plain_checkReply (plain_destroyHost domainName _)
    · exact .inr rfl

theorem plain_enableAnswered (domainName : String) (ret : ValueT) :
    PlainCodes (enableAnswered domainName ret nd) := by
  unfold enableAnswered
  dsimp only
  split
  · exact .inr rfl
  · split
    · exact .inr rfl
    · split
      · exact .inr rfl
      · exact .inl rfl

theorem plain_coloEnable (domainName : String) :
    PlainCodes (colodColoEnable env domainName nd) := by
  unfold colodColoEnable
  split
  · exact .inr rfl
  · dsimp only
    split
    · trivial
    · exact plain_remoteCall fun ret nd => plain_enableAnswered domainName ret

theorem plain_setParams (domainName property : String) (value : ℤ) :
    PlainCodes (colodSetParams env domainName property value nd) := by
  unfold colodSetParams
  dsimp only
  split
  · exact .inr rfl
  · split
    · exact .inr rfl
    · split
      · exact .inr rfl
      · exact plain_checkQmp fun nd => .inl rfl

theorem plain_doFailover (domainName : String) :
    PlainCodes (colodDoFailover env domainName nd) := by
  unfold colodDoFailover
  dsimp only
  split
  · exact .inr rfl
  · split
    · exact .inr rfl
    · split
      · exact plain_checkQmp fun nd => .inl rfl
      · exact plain_checkQmp fun nd => .inl rfl
      · exact .inr rfl

theorem plain_peerSendQmpcmds (domainName : String) (cds : ColoDomainStatus) :
    PlainCodes (peerColodSendQmpcmds env domainName cds nd) := by
  unfold peerColodSendQmpcmds
  dsimp only
  split
  · exact .inr rfl
  · split
    · trivial
    · exact .inr rfl
    · split
      · exact .inl rfl
      · exact plain_checkQmp fun nd => .inl rfl
      · exact .inr rfl

theorem plain_handle (env : Env) (request : Request) (nd : Node) :
    PlainCodes (handle env request nd) := by
  cases request with
  | connectPeer configFilePath => exact plain_connectPeer configFilePath
  | connectStatus => exact plain_connectStatus
  | define vmFilePath =>
      show PlainCodes (colodDefine vmFilePath nd)
      unfold colodDefine
      split
      · trivial
      · exact .inr rfl
      · dsimp only
        split
        · exact .inr rfl
        · exact .inl rfl
  | undefine domainName =>
      show PlainCodes (colodUndefine domainName nd)
      unfold colodUndefine
      dsimp only
      split
      · exact .inr rfl
      · exact .inl rfl
  | list showAll =>
      show PlainCodes (colodList showAll nd)
      unfold colodList
      split <;> exact .inl rfl
  | start domainName colo => exact plain_start domainName colo
  | destroy domainName => exact plain_destroy domainName
  | coloEnable domainName => exact plain_coloEnable domainName
  | coloDisable domainName =>
      show PlainCodes (colodColoDisable domainName nd)
      unfold colodColoDisable
      dsimp only
      split
      · exact .inr rfl
      · exact .inl rfl
  | vmStatus domainName =>
      show PlainCodes (colodVmStatus domainName nd)
      unfold colodVmStatus
      split
      · trivial
      · exact .inr rfl
      · exact .inl rfl
  | setParams domainName property value => exact plain_setParams domainName property value
  | doFailover domainName => exact plain_doFailover domainName
  | connectTest =>
      show PlainCodes (peerColodConnectTest nd)
      unfold peerColodConnectTest
      split
      · refine plain_remoteCall fun ret nd => ?_
        split
        · exact .inr rfl
        · exact .inl rfl
      · exact .inl rfl
  | connectReply => exact .inl rfl
  | domainTest domainName => exact .inl rfl
  | peerSaveStatus cs =>
      show PlainCodes (peerColodSaveStatus env cs nd)
      unfold peerColodSaveStatus
      dsimp only
      split
      · trivial
      · exact .inl rfl
  | peerSaveDomain ds =>
      show PlainCodes (peerColodSaveDomain ds nd)
      unfold peerColodSaveDomain
      dsimp only
      split
      · exact .inr rfl
      · split
        · exact .inr rfl
        · exact .inl rfl
  | peerStartDomain domainName colo =>
      show PlainCodes (peerColodStartDomain env domainName colo nd)
      unfold peerColodStartDomain
      dsimp only
      split
      · exact .inr rfl
      · split
        · exact .inr rfl
        · split
          · trivial
          · exact .inr rfl
          · split
            · exact .inr rfl
            · exact .inl rfl
  | peerDestroyDomain domainName =>
      show PlainCodes (peerColodDestroyDomain env domainName nd)
      unfold peerColodDestroyDomain
      dsimp only
      split
      · exact .inr rfl
      · split
        · exact .inr rfl
        · exact plain_destroyHost domainName _
  | peerSendQmpcmds domainName cds => exact plain_peerSendQmpcmds domainName cds

end

/-! ## One call over the wire -/

/-- What `net_call` makes of the bytes it receives. -/
def unpacked (reply : List Char) : ValueT := ((ValueT.get reply).map Prod.fst).getD .timeout

/-- colod takes a request off the wire and answers it.  The buffers of both ends run past
the message by `trailing`. -/
def colodServes (env : Env) (script : Script) (trailing : List Char) (request : Request)
    (out : List String) (server : Server) : ValueT × List String × Server :=
  if server.up then
    match readRequest (request.call.put ++ trailing) with
    | some (.ok req, _) =>
        match (handle env req server.node).follow Node.osAfter script with
        | .returned ret nd => (unpacked (putReply ret ++ trailing), out, ⟨nd, true⟩)
        | .crashed nd => (.timeout, out, ⟨nd, false⟩)
    | some (.error _, _) =>
        (unpacked (putNotBound request.call.name ++ trailing), out, server)
    | none => (.timeout, out, server)
  else (.timeout, out, server)

/-- The value of the handler, or none in time. -/
def Server.answer (server : Server) (env : Env) (script : Script) (req : Request) : ValueT :=
  if server.up then
    match (handle env req server.node).follow Node.osAfter script with
    | .returned ret _ => .answer ret
    | .crashed _ => .timeout
  else .timeout

/-- The line that the tool prints for an answer. -/
def ValueT.line (ret : ValueT) : String :=
  if ret.code = .success then ret.val.msg else "connect to colod timeout."

theorem code_of_follow {env : Env} {req : Request} {nd nd' : Node} {script : Script}
    {ret : ColodRetVal}
    (h : (handle env req nd).follow Node.osAfter script = .returned ret nd') :
    FitsInt ret.code := by
  have hpost := Act.follow_of_post (fun events nd => (⟨events, rfl⟩ : Node.Meanwhile nd _))
    (fun _ _ _ => trivial) (plain_handle env req nd) script
  rw [h] at hpost
  rcases hpost with hcode | hcode
  · rw [hcode]
    exact ⟨by decide, by decide⟩
  · rw [hcode]
    exact ⟨by decide, by decide⟩

/-- Both ends read what the other has written. -/
theorem colodServes_eq {request : Request} (hfits : request.call.Fits) (env : Env)
    (script : Script) (trailing : List Char) (out : List String) (server : Server) :
    colodServes env script trailing request out server =
      (server.answer env script request.wire, out,
        server.step (.request request.wire env script)) := by
  unfold colodServes Server.answer
  cases hup : server.up with
  | false => simp [Server.step, hup]
  | true =>
      rw [reads_readRequest hfits trailing]
      simp only [if_true, Server.step, hup]
      cases hfollow : (handle env request.wire server.node).follow Node.osAfter script with
      | crashed nd => rfl
      | returned ret nd =>
          have hread : unpacked (putReply ret ++ trailing) = .answer ret := by
            rw [unpacked, reads_putReply (code_of_follow hfollow) trailing]
            rfl
          dsimp only
          rw [hread]
          rfl

/-! ## The command -/

theorem fits_lexicalCastInt {text : String} {value : ℤ} (h : lexicalCastInt text = some value) :
    FitsInt value := by
  obtain ⟨-, hrange⟩ := Option.filter_eq_some_iff.mp h
  simp only [decide_eq_true_eq] at hrange
  exact ⟨by omega, by omega⟩

theorem fits_params {settings : List Setting} :
    ∀ param ∈ (typed settings).params, FitsInt param.2 := by
  intro param hparam
  obtain ⟨property, -, hproperty⟩ := List.mem_filterMap.mp hparam
  obtain ⟨value, hvalue, rfl⟩ := Option.map_eq_some_iff.mp hproperty
  obtain ⟨text, -, hread⟩ := Option.bind_eq_some_iff.mp hvalue
  exact fits_lexicalCastInt hread

theorem fits_request {settings : List Setting} {request : Request}
    (h : (typed settings).request = some request) : request.call.Fits := by
  obtain ⟨command, -, hrequest⟩ := Option.bind_eq_some_iff.mp h
  cases command with
  | setParams =>
      obtain ⟨name, -, hparams⟩ := Option.bind_eq_some_iff.mp hrequest
      split at hparams
      · rename_i property value hvalue
        cases hparams
        have hmem : (property, value) ∈ (typed settings).params := by
          rw [hvalue]
          exact List.mem_singleton_self _
        exact ⟨trivial, trivial, fits_params _ hmem, trivial⟩
      · cases hparams
  | connectPeer | list =>
      cases hrequest
      exact ⟨trivial, trivial⟩
  | connectStatus =>
      cases hrequest
      trivial
  | start =>
      obtain ⟨name, -, rfl⟩ := Option.map_eq_some_iff.mp hrequest
      exact ⟨trivial, trivial, trivial⟩
  | _ =>
      obtain ⟨name, -, rfl⟩ := Option.map_eq_some_iff.mp hrequest
      exact ⟨trivial, trivial⟩

/-- A command acts on colod as the request that the line stands for, and prints the
message of its handler. -/
theorem exec_toolMain (machine : ToolEnv) (hpid : machine.pid ≠ 0) {args : List String}
    {settings : List Setting} {others : List String}
    (hspells : tool.grammar.Spells args settings others) (hruns : (typed settings).Runs)
    {request : Request} (hrequest : (typed settings).request = some request)
    (hplain : ∀ name, request ≠ .coloEnable name) (prog : String) (env : Env) (script : Script)
    (trailing : List Char) (server : Server) :
    ∃ notes, (toolMain machine (prog :: args)).parent.exec
        (colodServes env script trailing) server =
      (.returned 0 (greeting machine ++ notes ++ [(server.answer env script request.wire).line]),
        server.step (.request request.wire env script)) := by
  have hplays := plays_toolMain hpid hspells hruns prog
  rw [hrequest] at hplays
  generalize htask : toolMain machine (prog :: args) = task at hplays
  cases hplays with
  | enables name => exact absurd rfl (hplain name)
  | calls hne notes =>
      refine ⟨notes, ?_⟩
      rw [callLocal, Task.parent, Act.exec_await, colodServes_eq (fits_request hrequest)]
      unfold ValueT.line
      dsimp only
      split <;> simp_all [Task.parent]

theorem spells_list :
    tool.grammar.Spells ["--command-type", "list", "--all"]
      [.text "command-type" "list", .flag "all"] [] := by
  have htakes : tool.grammar.Takes "command-type" "list" :=
    ⟨by decide +kernel, by decide +kernel⟩
  have hflag : tool.grammar.takesText "all" = some false := by decide +kernel
  exact .cons (.apart (by decide +kernel) htakes) (.cons (.flag (by decide +kernel) hflag) .nil)

/-- A machine on which colod runs and `scp` cannot be forked. -/
def toolMachine : ToolEnv := ⟨7, .fresh, ⟨⟨none, false⟩, 0⟩, ⟨⟨none, false⟩, 0⟩⟩

theorem exec_list :
    ∃ notes, (toolMain toolMachine ["colo", "--command-type", "list", "--all"]).parent.exec
        (colodServes (.smooth 100) [] []) (Server.boot .fresh) =
      (.returned 0 (["colod is running with pid : 7"] ++ notes ++ ["no defined domain."]),
        Server.boot .fresh) := by
  have hruns : (typed [.text "command-type" "list", .flag "all"]).Runs :=
    ⟨rfl, by decide +kernel, by decide +kernel⟩
  have hrequest : (typed [.text "command-type" "list", .flag "all"]).request =
      some (.list true) := by decide +kernel
  obtain ⟨notes, hexec⟩ := exec_toolMain toolMachine (by decide) spells_list hruns hrequest
    (by simp) "colo" (.smooth 100) [] [] (Server.boot .fresh)
  exact ⟨notes, hexec⟩

end ColoManage
