import ColoManage.Network

/-!
# Handlers that do not wait

A colod that serves its peer does not call it, and of the requests of the tool most are
served without a call.  Such a handler has one leg, and no script changes its run.
-/

namespace ColoManage

open Resumption

section

variable {env : Env} {nd : Node}

theorem follow_of_waits_eq_none {act : Colod} (h : Net.waits act = none) (script : Script) :
    act.follow Node.osAfter script = act.follow Node.osAfter [] := by
  cases act with
  | done value state => rfl
  | crash state => rfl
  | await query state resume => cases h

theorem legs_of_waits_eq_none {act : Colod} (h : Net.waits act = none) {first : Node}
    {rely T : Node → Node → Prop} {G : Query → Node → Prop} (hstop : T first act.stop) :
    act.Legs rely T G first := by
  cases act with
  | done value state => exact hstop
  | crash state => exact hstop
  | await query state resume => cases h

/-! ## Requests of the tool -/

theorem waits_checkQmp {failure : String} {result : Except Node (ℤ × Node)}
    {k : Node → Colod} (hk : ∀ nd, Net.waits (k nd) = none) :
    Net.waits (checkQmp failure result k) = none := by
  unfold checkQmp
  split
  · rfl
  · split
    · rfl
    · exact hk _

theorem waits_startNative (domainName : String) :
    Net.waits (colodStart env domainName false nd) = none := by
  unfold colodStart
  dsimp only
  split
  · rfl
  · split <;> rfl

theorem waits_destroyHost (domainName success : String) :
    Net.waits (destroyHost env domainName success nd) = none := by
  unfold destroyHost
  dsimp only
  split <;> rfl

theorem waits_define (vmFilePath : String) : Net.waits (colodDefine vmFilePath nd) = none := by
  unfold colodDefine
  split
  · rfl
  · rfl
  · dsimp only
    split <;> rfl

theorem waits_undefine (domainName : String) :
    Net.waits (colodUndefine domainName nd) = none := by
  unfold colodUndefine
  dsimp only
  split <;> rfl

theorem waits_list (showAll : Bool) : Net.waits (colodList showAll nd) = none := by
  unfold colodList
  split <;> rfl

theorem waits_coloDisable (domainName : String) :
    Net.waits (colodColoDisable domainName nd) = none := by
  unfold colodColoDisable
  dsimp only
  split <;> rfl

theorem waits_vmStatus (domainName : String) :
    Net.waits (colodVmStatus domainName nd) = none := by
  unfold colodVmStatus
  split <;> rfl

theorem waits_setParams (domainName property : String) (value : ℤ) :
    Net.waits (colodSetParams env domainName property value nd) = none := by
  unfold colodSetParams
  dsimp only
  split
  · rfl
  · split
    · rfl
    · split
      · rfl
      · exact waits_checkQmp fun _ => rfl

theorem waits_doFailover (domainName : String) :
    Net.waits (colodDoFailover env domainName nd) = none := by
  unfold colodDoFailover
  dsimp only
  split
  · rfl
  · split
    · rfl
    · split
      · exact waits_checkQmp fun _ => rfl
      · exact waits_checkQmp fun _ => rfl
      · rfl

/-! ## Requests of the peer -/

theorem waits_saveStatus (cs : ColoStatus) : Net.waits (peerColodSaveStatus env cs nd) = none := by
  unfold peerColodSaveStatus
  dsimp only
  split <;> rfl

theorem waits_saveDomain (ds : ColodDomainStatus) :
    Net.waits (peerColodSaveDomain ds nd) = none := by
  unfold peerColodSaveDomain
  dsimp only
  split
  · rfl
  · split <;> rfl

theorem waits_startDomain (domainName : String) (colo : Bool) :
    Net.waits (peerColodStartDomain env domainName colo nd) = none := by
  unfold peerColodStartDomain
  split
  · rfl
  · dsimp only
    split
    · rfl
    · split
      · rfl
      · rfl
      · split <;> rfl

theorem waits_destroyDomain (domainName : String) :
    Net.waits (peerColodDestroyDomain env domainName nd) = none := by
  unfold peerColodDestroyDomain
  dsimp only
  split
  · rfl
  · split
    · rfl
    · exact waits_destroyHost domainName _

theorem waits_sendQmpcmds (domainName : String) (cds : ColoDomainStatus) :
    Net.waits (peerColodSendQmpcmds env domainName cds nd) = none := by
  unfold peerColodSendQmpcmds
  dsimp only
  split
  · rfl
  · split
    · rfl
    · rfl
    · split
      · rfl
      · exact waits_checkQmp fun _ => rfl
      · rfl

theorem waits_of_not_local {req : Request} (h : req.isLocal = false) :
    Net.waits (handle env req nd) = none := by
  cases req with
  | connectReply => rfl
  | peerSaveStatus cs => exact waits_saveStatus cs
  | peerSaveDomain ds => exact waits_saveDomain ds
  | peerStartDomain domainName colo => exact waits_startDomain domainName colo
  | peerDestroyDomain domainName => exact waits_destroyDomain domainName
  | peerSendQmpcmds domainName cds => exact waits_sendQmpcmds domainName cds
  | _ => cases h

end

end ColoManage
