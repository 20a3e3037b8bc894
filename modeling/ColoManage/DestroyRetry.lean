import ColoManage.DestroyRecord
import ColoManage.PeerDestroy

/-!
# Repeating a destroy

`colod_destroy` asks the peer first, and `peer_colod_destroy_domain` refuses a domain
that is shut off there.  Once the peer has destroyed its VM, or has found it gone, it
refuses every further call, and the caller stops at the refusal.  After a timeout the
client does not send again; it waits for the reply to the first call.
-/

namespace ColoManage

open Resumption EventSystem

/-! ## One attempt -/

/-- A destroy on a node with its peer. -/
def attempt (env : Env) (fate : Fate) (late : Option ColodRetVal) (meanwhile : List OsEvent)
    (domainName : String) (nd peer : Node) : Outcome Node ColodRetVal × Node :=
  (handle env (.destroy domainName) nd).exec (serveAttempt fate late meanwhile) peer

/-- The request has returned `0`, and the domain tests as shut off on both nodes. -/
def Completed (domainName : String) (result : Outcome Node ColodRetVal × Node) : Prop :=
  ∃ ret nd, result.1 = .returned ret nd ∧ ret.code = 0 ∧
    (nd.testDomainStatus domainName).1 = .shutOff ∧
      (result.2.testDomainStatus domainName).1 = .shutOff

/-! ## When an attempt completes -/

/-- The file has a pid of the domain, and its process stays for both signals. -/
def Node.Killable (env : Env) (domainName : String) (nd : Node) : Prop :=
  ∃ pid, getDomainPid domainName nd.save = some pid ∧ Survives env nd.os pid

/-- The VM here is up and can be killed.  Out of COLO mode it is shut off over there; in
COLO mode the peer can destroy its own, or the call is not sent, an earlier one is
answered with a success, and the VM is shut off over there. -/
def Completable (env envPeer : Env) (late : Option ColodRetVal) (meanwhile : List OsEvent)
    (domainName : String) (nd peer : Node) : Prop :=
  (nd.testDomainStatus domainName).1 ≠ .shutOff ∧
    match (nd.dom domainName).status with
    | .running =>
        nd.Killable env domainName ∧ (peer.testDomainStatus domainName).1 = .shutOff
    | .coloEnabled =>
        nd.remoteClient.usable = true ∧ (nd.osAfter meanwhile).Killable env domainName ∧
          if nd.remoteClient.sends then peer.Destroyable envPeer domainName
          else accepted (late.map .answer) = true ∧
            (peer.testDomainStatus domainName).1 = .shutOff
    | _ => False

/-! ## Shut off for good -/

section

variable {env envPeer : Env} {fate : Fate} {late : Option ColodRetVal} {meanwhile : List OsEvent}
  {domainName : String} {nd nd' peer peer' : Node} {ret : ColodRetVal}

/-- Whatever becomes of a process, the record tests as shut off. -/
def Node.RecordedOff (domainName : String) (nd : Node) : Prop :=
  (nd.dom domainName).pid = -1 ∨ (nd.dom domainName).status = .shutOff

theorem testDomainStatus_of_recordedOff (h : nd.RecordedOff domainName) :
    (nd.testDomainStatus domainName).1 = .shutOff := by
  by_contra hup
  have hstatus := h.resolve_left (Node.pid_of_not_shutOff hup)
  exact hup ((Node.status_of_not_shutOff hup).trans hstatus)

theorem recordedOff_of_shutOff (h : (nd.testDomainStatus domainName).1 = .shutOff) :
    (nd.testDomainStatus domainName).2.RecordedOff domainName := by
  unfold Node.RecordedOff
  rw [Node.dom_testDomainStatus]
  by_cases hdead : nd.FoundDead domainName
  · rw [if_pos hdead]
    exact .inr rfl
  · rw [if_neg hdead]
    rw [Node.testDomainStatus_of_not_dead hdead] at h
    by_cases hpid : (nd.dom domainName).pid = -1
    · exact .inl hpid
    · rw [if_neg hpid] at h
      exact .inr h

theorem destroyHost_cases (env : Env) (domainName success : String) (nd : Node) :
    (nd.Killable env domainName ∧
        ∃ nd', destroyHost env domainName success nd = .done ⟨0, success⟩ nd' ∧
          nd'.RecordedOff domainName) ∨
      (¬ nd.Killable env domainName ∧
        ∃ nd', destroyHost env domainName success nd =
            .done ⟨-1, "can not destroy domain."⟩ nd' ∧
          getDomainPid domainName nd'.save = none ∧ nd'.domains = nd.domains) := by
  cases hpid : getDomainPid domainName nd.save with
  | none =>
      have hfails : nd.destroyDomain env domainName = (-1, nd) := by
        simp [Node.destroyDomain, hpid]
      refine .inr ⟨?_, nd, destroyHost_failed hfails success, hpid, rfl⟩
      rintro ⟨pid, hsome, -⟩
      rw [hpid] at hsome
      cases hsome
  | some pid =>
      by_cases hsurvives : Survives env nd.os pid
      · have hdone := Node.destroyDomain_of_survives hpid hsurvives.1 hsurvives.2
        refine .inl ⟨⟨pid, hpid, hsurvives⟩, _, destroyHost_done hdone success, .inl ?_⟩
        rw [Node.dom_modDom_self]
      · obtain ⟨os, hfails⟩ := destroyDomain_of_not_survives hpid hsurvives
        refine .inr ⟨?_, _, destroyHost_failed hfails success, getDomainPid_removed nd.save, rfl⟩
        rintro ⟨pid', hsome, hsurvives'⟩
        rw [hpid, Option.some.injEq] at hsome
        exact hsurvives (hsome ▸ hsurvives')

theorem destroyable_iff_killable (env : Env) (hflag : (nd.dom domainName).coloEnable = true)
    (hup : (nd.testDomainStatus domainName).1 ≠ .shutOff) :
    nd.Destroyable env domainName ↔ nd.Killable env domainName := by
  refine ⟨fun h => h.recorded, fun hkillable => ⟨hflag, ?_, ?_, hkillable⟩⟩
  · rw [← Node.status_of_not_shutOff hup]
    exact hup
  · exact ⟨Node.pid_of_not_shutOff hup, Node.alive_of_not_shutOff hup⟩

/-- A peer that refuses goes on refusing. -/
theorem runPeer_destroy_cases (env : Env) (domainName : String) (nd : Node) :
    (nd.Destroyable env domainName ∧
        ∃ msg nd', runPeer env (.peerDestroyDomain domainName) nd = .returned ⟨0, msg⟩ nd' ∧
          nd'.RecordedOff domainName) ∨
      (¬ nd.Destroyable env domainName ∧
        ∃ msg nd', runPeer env (.peerDestroyDomain domainName) nd = .returned ⟨-1, msg⟩ nd' ∧
          ∀ env' events, ¬ (nd'.osAfter events).Destroyable env' domainName) := by
  unfold runPeer handle peerColodDestroyDomain
  simp only [Node.testDomainStatus_touch, Node.dom_touch]
  by_cases hflag : (nd.dom domainName).coloEnable = true
  · rw [if_neg (by simp [hflag])]
    by_cases hshut : (nd.testDomainStatus domainName).1 = .shutOff
    · have hoff := recordedOff_of_shutOff hshut
      rw [if_pos hshut]
      refine .inr ⟨?_, _, _, rfl, fun env' events h => ?_⟩
      · intro h
        rw [h.tested.2.2] at hshut
        exact h.notShutOff hshut
      · rcases hoff with hpid | hstatus
        · exact h.alive.1 hpid
        · exact h.notShutOff hstatus
    · rw [if_neg hshut, tested_eq_self hshut]
      have hiff := destroyable_iff_killable env hflag hshut
      rcases destroyHost_cases env domainName ("colo domain " ++ domainName ++ " destroy.") nd with
        ⟨hkillable, nd', hdone, hoff⟩ | ⟨hnot, nd', hfails, hnone, -⟩
      · exact .inl ⟨hiff.mpr hkillable, _, nd', by rw [hdone, Act.follow], hoff⟩
      · refine .inr ⟨mt hiff.mp hnot, _, nd', by rw [hfails, Act.follow], fun env' events h => ?_⟩
        obtain ⟨pid, hsome, -⟩ := h.recorded
        have hforgotten : getDomainPid domainName (nd'.osAfter events).save = none := hnone
        rw [hforgotten] at hsome
        cases hsome
  · rw [if_pos (by simpa using hflag)]
    refine .inr ⟨fun h => hflag h.flagged, _, _, rfl, fun env' events h => hflag ?_⟩
    have hdom : (nd.touch domainName).dom domainName = nd.dom domainName := Node.dom_touch _ _ nd
    rw [← hdom]
    exact h.flagged

/-! ## The branches of an attempt -/

theorem not_completed_refused {msg : String} {result : Outcome Node ColodRetVal × Node}
    (h : result.1 = .returned ⟨-1, msg⟩ nd) : ¬ Completed domainName result := by
  rintro ⟨ret, nd', hreturned, hcode, -⟩
  obtain ⟨rfl, -⟩ := Outcome.returned.inj (h.symm.trans hreturned)
  exact absurd hcode (show ¬ (-1 : ℤ) = 0 by decide)

theorem completed_destroyHost_iff (success : String)
    (serve : Query → Node → Node → Option ValueT × Node × Node) :
    Completed domainName ((destroyHost env domainName success nd).exec serve peer) ↔
      nd.Killable env domainName ∧ (peer.testDomainStatus domainName).1 = .shutOff := by
  rcases destroyHost_cases env domainName success nd with
    ⟨hkillable, nd', hdone, hoff⟩ | ⟨hnot, nd', hfails, -⟩
  · rw [hdone, Act.exec_done]
    constructor
    · rintro ⟨ret, found, -, -, -, hpeer⟩
      exact ⟨hkillable, hpeer⟩
    · rintro ⟨-, hpeer⟩
      exact ⟨_, nd', rfl, rfl, testDomainStatus_of_recordedOff hoff, hpeer⟩
  · rw [hfails, Act.exec_done]
    exact iff_of_false (not_completed_refused rfl) fun h => hnot h.1

theorem attempt_shutOff (h : (nd.testDomainStatus domainName).1 = .shutOff) :
    attempt env fate late meanwhile domainName nd peer =
      (.returned ⟨-1, "domain is shutoff."⟩ (nd.testDomainStatus domainName).2, peer) := by
  unfold attempt handle colodDestroy
  simp only [h, if_true]
  rfl

theorem attempt_running (h : (nd.testDomainStatus domainName).1 ≠ .shutOff)
    (hstatus : (nd.dom domainName).status = .running) :
    attempt env fate late meanwhile domainName nd peer =
      (destroyHost env domainName ("domain " ++ domainName ++ " destroy.") nd).exec
        (serveAttempt fate late meanwhile) peer := by
  unfold attempt handle colodDestroy
  simp only [h, if_false, tested_eq_self h, hstatus]

theorem attempt_wrongStatus (env : Env) (fate : Fate) (late : Option ColodRetVal)
    (meanwhile : List OsEvent) (peer : Node)
    (h : (nd.testDomainStatus domainName).1 ≠ .shutOff)
    (hrunning : (nd.dom domainName).status ≠ .running)
    (hcolo : (nd.dom domainName).status ≠ .coloEnabled) :
    ∃ msg, attempt env fate late meanwhile domainName nd peer = (.returned ⟨-1, msg⟩ nd, peer) := by
  unfold attempt handle colodDestroy
  simp only [h, if_false, tested_eq_self h]
  cases hstatus : (nd.dom domainName).status with
  | running => exact absurd hstatus hrunning
  | coloEnabled => exact absurd hstatus hcolo
  | _ => exact ⟨_, rfl⟩

/-- What comes back from the peer, and the state of the two nodes then. -/
def answerOf (fate : Fate) (late : Option ColodRetVal) (meanwhile : List OsEvent)
    (domainName : String) (nd peer : Node) : Option ValueT × Node × Node :=
  serveAttempt fate late meanwhile ⟨.peerDestroyDomain domainName, nd.remoteClient.sends⟩
    (nd.called (.peerDestroyDomain domainName)) peer

theorem attempt_unusable (env : Env) (fate : Fate) (late : Option ColodRetVal)
    (meanwhile : List OsEvent) (peer : Node)
    (h : (nd.testDomainStatus domainName).1 ≠ .shutOff)
    (hstatus : (nd.dom domainName).status = .coloEnabled)
    (husable : nd.remoteClient.usable = false) :
    ∃ nd', attempt env fate late meanwhile domainName nd peer = (.crashed nd', peer) := by
  unfold attempt handle colodDestroy
  simp only [h, if_false, tested_eq_self h, hstatus]
  exact ⟨_, exec_of_not_usable husable _⟩

theorem attempt_accepted (h : (nd.testDomainStatus domainName).1 ≠ .shutOff)
    (hstatus : (nd.dom domainName).status = .coloEnabled)
    (husable : nd.remoteClient.usable = true)
    (haccepted : accepted (answerOf fate late meanwhile domainName nd peer).1 = true) :
    attempt env fate late meanwhile domainName nd peer =
      (destroyHost env domainName ("colo domain " ++ domainName ++ " destroy.")
        (answerOf fate late meanwhile domainName nd peer).2.1.replied).exec
          (serveAttempt fate late meanwhile)
          (answerOf fate late meanwhile domainName nd peer).2.2 := by
  unfold attempt handle colodDestroy
  simp only [h, if_false, tested_eq_self h, hstatus]
  exact exec_checkReply_accepted husable rfl haccepted _ _

theorem attempt_refused (env : Env) (fate : Fate) (late : Option ColodRetVal)
    (meanwhile : List OsEvent) (peer : Node)
    (h : (nd.testDomainStatus domainName).1 ≠ .shutOff)
    (hstatus : (nd.dom domainName).status = .coloEnabled)
    (husable : nd.remoteClient.usable = true)
    (hrefused : accepted (answerOf fate late meanwhile domainName nd peer).1 = false) :
    ∃ msg nd', attempt env fate late meanwhile domainName nd peer =
        (.returned ⟨-1, msg⟩ nd', (answerOf fate late meanwhile domainName nd peer).2.2) ∧
      SameTables (answerOf fate late meanwhile domainName nd peer).2.1 nd' := by
  unfold attempt handle colodDestroy
  simp only [h, if_false, tested_eq_self h, hstatus]
  exact exec_checkReply_refused husable rfl hrefused _ _

/-- After a timeout the next call is not sent. -/
theorem attempt_timeout (env : Env) (fate : Fate) (late : Option ColodRetVal)
    (meanwhile : List OsEvent) (peer : Node)
    (h : (nd.testDomainStatus domainName).1 ≠ .shutOff)
    (hstatus : (nd.dom domainName).status = .coloEnabled)
    (husable : nd.remoteClient.usable = true)
    (hnone : (answerOf fate late meanwhile domainName nd peer).1 = none) :
    ∃ msg nd', attempt env fate late meanwhile domainName nd peer =
        (.returned ⟨-1, msg⟩ nd', (answerOf fate late meanwhile domainName nd peer).2.2) ∧
      nd'.domains = (answerOf fate late meanwhile domainName nd peer).2.1.domains ∧
        nd'.remoteClient.sends = false := by
  unfold answerOf at hnone ⊢
  unfold attempt handle colodDestroy
  simp only [h, if_false, tested_eq_self h, hstatus]
  rw [exec_of_usable husable, hnone]
  exact ⟨_, _, rfl, rfl, by simp [Buttonrpc.sends, Node.setPeerInit, Node.setErrorCode]⟩

/-! ## The answer of the peer -/

theorem answerOf_node :
    (answerOf fate late meanwhile domainName nd peer).2.1 =
      (nd.called (.peerDestroyDomain domainName)).osAfter meanwhile := by
  unfold answerOf serveAttempt
  split
  · cases fate with
    | answered env =>
        dsimp only
        split <;> rfl
    | replyLost env => rfl
    | lost => rfl
  · rfl

theorem answerOf_unsent (hsends : nd.remoteClient.sends = false) :
    answerOf fate late meanwhile domainName nd peer =
      (late.map .answer, (nd.called (.peerDestroyDomain domainName)).osAfter meanwhile, peer) := by
  simp [answerOf, serveAttempt, hsends]

/-- A peer that answers in time accepts the call if it can destroy its VM, and can not
do so later if it refuses. -/
theorem answerOf_answered (envPeer : Env) (late : Option ColodRetVal) (meanwhile : List OsEvent)
    (peer : Node) (hlength : domainName.length < 65536) (hsends : nd.remoteClient.sends = true) :
    ∃ ret peer', answerOf (.answered envPeer) late meanwhile domainName nd peer =
        (some (.answer ret), (nd.called (.peerDestroyDomain domainName)).osAfter meanwhile, peer') ∧
      ((peer.Destroyable envPeer domainName ∧ accepted (some (.answer ret)) = true ∧
          peer'.RecordedOff domainName) ∨
        (¬ peer.Destroyable envPeer domainName ∧ accepted (some (.answer ret)) = false ∧
          ∀ env' events, ¬ (peer'.osAfter events).Destroyable env' domainName)) := by
  have hwire : (Request.peerDestroyDomain domainName).wire = .peerDestroyDomain domainName := by
    rw [Request.wire, wireString_of_lt hlength]
  simp only [answerOf, serveAttempt, hsends, if_true, hwire]
  rcases runPeer_destroy_cases envPeer domainName peer with
    ⟨hdestroyable, msg, peer', hrun, hoff⟩ | ⟨hnot, msg, peer', hrun, hlater⟩
  · rw [hrun]
    exact ⟨_, peer', rfl, .inl ⟨hdestroyable, rfl, hoff⟩⟩
  · rw [hrun]
    exact ⟨_, peer', rfl, .inr ⟨hnot, rfl, hlater⟩⟩

/-! ## The retry -/

theorem completed_accepted_iff (hshut : (nd.testDomainStatus domainName).1 ≠ .shutOff)
    (hcolo : (nd.dom domainName).status = .coloEnabled) (husable : nd.remoteClient.usable = true)
    {reply : Option ValueT}
    (hanswer : answerOf fate late meanwhile domainName nd peer =
      (reply, (nd.called (.peerDestroyDomain domainName)).osAfter meanwhile, peer')) :
    Completed domainName (attempt env fate late meanwhile domainName nd peer) ↔
      accepted reply = true ∧ (nd.osAfter meanwhile).Killable env domainName ∧
        (peer'.testDomainStatus domainName).1 = .shutOff := by
  by_cases haccepted : accepted reply = true
  · rw [attempt_accepted hshut hcolo husable (by rw [hanswer]; exact haccepted), hanswer,
      completed_destroyHost_iff, and_iff_right haccepted]
    exact Iff.rfl
  · obtain ⟨msg, nd', hattempt, -⟩ := attempt_refused env fate late meanwhile peer hshut hcolo
      husable (by rw [hanswer]; simpa using haccepted)
    rw [hattempt]
    exact iff_of_false (not_completed_refused rfl) fun h => haccepted h.1

theorem completed_iff (hlength : domainName.length < 65536) (env envPeer : Env)
    (late : Option ColodRetVal) (meanwhile : List OsEvent) (nd peer : Node) :
    Completed domainName (attempt env (.answered envPeer) late meanwhile domainName nd peer) ↔
      Completable env envPeer late meanwhile domainName nd peer := by
  unfold Completable
  by_cases hshut : (nd.testDomainStatus domainName).1 = .shutOff
  · rw [attempt_shutOff hshut]
    exact iff_of_false (not_completed_refused rfl) fun h => h.1 hshut
  rw [and_iff_right hshut]
  by_cases hrunning : (nd.dom domainName).status = .running
  · rw [attempt_running hshut hrunning, hrunning]
    exact completed_destroyHost_iff _ _
  by_cases hcolo : (nd.dom domainName).status = .coloEnabled
  · rw [hcolo]
    by_cases husable : nd.remoteClient.usable = true
    · rw [and_iff_right husable]
      cases hsends : nd.remoteClient.sends with
      | true =>
          obtain ⟨ret, peer', hanswer, hcase⟩ :=
            answerOf_answered envPeer late meanwhile peer hlength hsends
          rw [completed_accepted_iff hshut hcolo husable hanswer, if_pos rfl]
          rcases hcase with ⟨hdestroyable, haccepted, hoff⟩ | ⟨hnot, hrefused, -⟩
          · rw [and_iff_right haccepted, and_iff_left hdestroyable,
              and_iff_left (testDomainStatus_of_recordedOff hoff)]
          · refine iff_of_false ?_ fun h => hnot h.2
            rintro ⟨haccepted, -⟩
            rw [hrefused] at haccepted
            cases haccepted
      | false =>
          rw [completed_accepted_iff hshut hcolo husable (answerOf_unsent hsends),
            if_neg Bool.false_ne_true]
          exact and_left_comm
    · obtain ⟨nd', hattempt⟩ := attempt_unusable env (.answered envPeer) late meanwhile peer
        hshut hcolo (by simpa using husable)
      rw [hattempt]
      refine iff_of_false ?_ fun h => husable h.1
      rintro ⟨ret, found, hreturned, -⟩
      cases hreturned
  · obtain ⟨msg, hattempt⟩ := attempt_wrongStatus env (.answered envPeer) late meanwhile peer
      hshut hrunning hcolo
    rw [hattempt]
    refine iff_of_false (not_completed_refused rfl) ?_
    split
    · contradiction
    · contradiction
    · exact id

/-! ## After a failure -/

/-- A destroy whose own call was not overtaken by an earlier one, and which has failed. -/
structure Failed (domainName : String) (nd peer nd' peer' : Node) : Prop where
  fresh : nd.remoteClient.sends = true
  failed : ∃ env fate late meanwhile ret,
    attempt env fate late meanwhile domainName nd peer = (.returned ret nd', peer') ∧ ret.code < 0

theorem not_completable_of_forgotten (hnone : getDomainPid domainName nd.save = none) :
    ¬ Completable env envPeer late meanwhile domainName nd peer := by
  have hnot : ∀ events, ¬ (nd.osAfter events).Killable env domainName := by
    rintro events ⟨pid, hsome, -⟩
    have hforgotten : getDomainPid domainName (nd.osAfter events).save = none := hnone
    rw [hforgotten] at hsome
    cases hsome
  rintro ⟨-, h⟩
  split at h
  · exact hnot [] h.1
  · exact hnot meanwhile h.2.1
  · exact h

theorem not_completable_of_wrongStatus (hrunning : (nd.dom domainName).status ≠ .running)
    (hcolo : (nd.dom domainName).status ≠ .coloEnabled) :
    ¬ Completable env envPeer late meanwhile domainName nd peer := by
  rintro ⟨-, h⟩
  split at h
  · contradiction
  · contradiction
  · exact h

theorem not_completable_of_refusing (hcolo : (nd.dom domainName).status = .coloEnabled)
    (hsends : nd.remoteClient.sends = true) (hnot : ¬ peer.Destroyable envPeer domainName) :
    ¬ Completable env envPeer late meanwhile domainName nd peer := by
  rintro ⟨-, h⟩
  rw [hcolo] at h
  rw [hsends] at h
  exact hnot h.2.2

/-- A failure to kill the VM here has taken the pid out of the file. -/
theorem forgotten_of_destroyHost {success : String} {nd₁ peer₁ : Node}
    {serve : Query → Node → Node → Option ValueT × Node × Node}
    (h : (destroyHost env domainName success nd).exec serve peer = (.returned ret nd₁, peer₁))
    (hcode : ret.code < 0) : getDomainPid domainName nd₁.save = none := by
  rcases destroyHost_cases env domainName success nd with
    ⟨-, nd', hdone, -⟩ | ⟨-, nd', hfails, hnone, -⟩
  · rw [hdone] at h
    cases h
    exact absurd hcode (Int.lt_irrefl 0)
  · rw [hfails] at h
    cases h
    exact hnone

/-- A call that is sent and refused has been executed, and the peer goes on refusing. -/
theorem answerOf_refused (hlength : domainName.length < 65536)
    (hsends : nd.remoteClient.sends = true) {reply : ValueT}
    (hanswer : (answerOf fate late meanwhile domainName nd peer).1 = some reply)
    (hrefused : ¬ accepted (some reply) = true) :
    ∀ env' events, ¬ ((answerOf fate late meanwhile domainName nd peer).2.2.osAfter
      events).Destroyable env' domainName := by
  cases fate with
  | answered envPeer =>
      obtain ⟨ret, peer', heq, hcase⟩ :=
        answerOf_answered envPeer late meanwhile peer hlength hsends
      rw [heq] at hanswer ⊢
      obtain rfl := Option.some.inj hanswer
      rcases hcase with ⟨-, haccepted, -⟩ | ⟨-, -, hlater⟩
      · exact absurd haccepted hrefused
      · exact hlater
  | replyLost envPeer => simp [answerOf, serveAttempt, hsends] at hanswer
  | lost => simp [answerOf, serveAttempt, hsends] at hanswer

/-- Nothing can be completed after a failure that is not a timeout of the call. -/
theorem timedOut_of_completable {nd₁ peer₁ : Node} (hlength : domainName.length < 65536)
    (hfailed : Failed domainName nd peer nd₁ peer₁) {events eventsPeer : List OsEvent}
    (h : Completable env envPeer late meanwhile domainName (nd₁.osAfter events)
      (peer₁.osAfter eventsPeer)) :
    nd₁.remoteClient.sends = false ∧ (nd₁.dom domainName).status = .coloEnabled := by
  obtain ⟨env₁, fate, late₁, meanwhile₁, ret, hattempt, hcode⟩ := hfailed.failed
  have hkept : getDomainPid domainName nd₁.save ≠ none := by
    intro hnone
    have hforgotten : getDomainPid domainName (nd₁.osAfter events).save = none := hnone
    exact not_completable_of_forgotten hforgotten h
  by_cases hshut : (nd.testDomainStatus domainName).1 = .shutOff
  · rw [attempt_shutOff hshut] at hattempt
    cases hattempt
    have hoff : ((nd.testDomainStatus domainName).2.osAfter events).RecordedOff domainName :=
      recordedOff_of_shutOff hshut
    exact absurd (testDomainStatus_of_recordedOff hoff) h.1
  by_cases hrunning : (nd.dom domainName).status = .running
  · rw [attempt_running hshut hrunning] at hattempt
    exact absurd (forgotten_of_destroyHost hattempt hcode) hkept
  by_cases hcolo : (nd.dom domainName).status = .coloEnabled
  · by_cases husable : nd.remoteClient.usable = true
    · have hstatus : nd₁.domains = (answerOf fate late₁ meanwhile₁ domainName nd peer).2.1.domains →
          (nd₁.dom domainName).status = .coloEnabled := by
        intro hdomains
        rw [answerOf_node] at hdomains
        rw [← hcolo, Node.dom_of_domains_eq hdomains]
        rfl
      cases hanswer : (answerOf fate late₁ meanwhile₁ domainName nd peer).1 with
      | none =>
          obtain ⟨msg, nd', htimeout, hdomains, hsilent⟩ :=
            attempt_timeout env₁ fate late₁ meanwhile₁ peer hshut hcolo husable hanswer
          rw [htimeout] at hattempt
          cases hattempt
          exact ⟨hsilent, hstatus hdomains⟩
      | some reply =>
          by_cases haccepted : accepted (some reply) = true
          · rw [attempt_accepted hshut hcolo husable (by rw [hanswer]; exact haccepted)] at hattempt
            exact absurd (forgotten_of_destroyHost hattempt hcode) hkept
          · obtain ⟨msg, nd', hrefused, hsame⟩ := attempt_refused env₁ fate late₁ meanwhile₁ peer
              hshut hcolo husable (by rw [hanswer]; simpa using haccepted)
            rw [hrefused] at hattempt
            cases hattempt
            refine ⟨?_, hstatus hsame.domains⟩
            have hlater := answerOf_refused hlength hfailed.fresh hanswer haccepted
            have hstatus' : ((nd₁.osAfter events).dom domainName).status = .coloEnabled :=
              hstatus hsame.domains
            by_contra hsends
            have hclient : (nd₁.osAfter events).remoteClient.sends = true :=
              Bool.of_not_eq_false hsends
            exact not_completable_of_refusing hstatus' hclient (hlater envPeer eventsPeer) h
    · obtain ⟨nd', hcrashed⟩ := attempt_unusable env₁ fate late₁ meanwhile₁ peer hshut hcolo
        (by simpa using husable)
      rw [hcrashed] at hattempt
      cases hattempt
  · obtain ⟨msg, hwrong⟩ := attempt_wrongStatus env₁ fate late₁ meanwhile₁ peer hshut hrunning
      hcolo
    rw [hwrong] at hattempt
    cases hattempt
    have hrunning' : ((nd.osAfter events).dom domainName).status ≠ .running := hrunning
    exact absurd h (not_completable_of_wrongStatus hrunning' hcolo)

/-- A destroy completes exactly when `Completable` holds of the two nodes before it,
whatever has led to them.  Directly after an attempt that has failed this needs the
reply to the call of that attempt, after it has timed out: a call that is sent again is refused. -/
theorem destroyRetry_iff (hlength : domainName.length < 65536) (env envPeer : Env)
    (late : Option ColodRetVal) (meanwhile : List OsEvent) (nd peer : Node) :
    (Completed domainName (attempt env (.answered envPeer) late meanwhile domainName nd peer) ↔
        Completable env envPeer late meanwhile domainName nd peer) ∧
      ∀ start startPeer nd₁ peer₁ events eventsPeer,
        Failed domainName start startPeer nd₁ peer₁ → nd = nd₁.osAfter events →
          peer = peer₁.osAfter eventsPeer →
            Completable env envPeer late meanwhile domainName nd peer →
              nd₁.remoteClient.sends = false ∧ accepted (late.map .answer) = true := by
  refine ⟨completed_iff hlength env envPeer late meanwhile nd peer, ?_⟩
  rintro start startPeer nd₁ peer₁ events eventsPeer hfailed rfl rfl h
  obtain ⟨hsends, hcolo⟩ := timedOut_of_completable hlength hfailed h
  have hstatus : ((nd₁.osAfter events).dom domainName).status = .coloEnabled := hcolo
  have hclient : (nd₁.osAfter events).remoteClient.sends = false := hsends
  obtain ⟨-, hcase⟩ := h
  rw [hstatus, hclient] at hcase
  exact ⟨hsends, hcase.2.2.1⟩

end

/-- A domain runs in COLO mode on the two nodes. -/
def coloRun : List NetEvent :=
  enabledRun ++
    [.writeFile .b "/vm/d.yaml" (sampleDefinition "d"),
      .request .a (.start "d" true) (.smooth 100), .execute .b 0 (.smooth 200), .reply .a 0,
      .execute .b 0 (.smooth 200), .reply .a 0]

def coloNode (x : NodeId) : Node :=
  ((coloRun.foldl Net.step (Net.boot fun _ => .fresh)).party x).node

/-- The peer destroys its VM, and its reply does not come in time. -/
def firstDestroy : Outcome Node ColodRetVal × Node :=
  attempt (.smooth 100) (.replyLost (.smooth 200)) none [] "d" (coloNode .a) (coloNode .b)

/-- The reply comes while the second attempt waits. -/
theorem completed_lateReply :
    firstDestroy.1.value.map ColodRetVal.code = some (-1) ∧
      Completed "d" (attempt (.smooth 100) (.answered (.smooth 200))
        (some ⟨0, "colo domain d destroy."⟩) [] "d" firstDestroy.1.state firstDestroy.2) := by
  refine ⟨by decide +kernel, ?_⟩
  refine (destroyRetry_iff (by decide) (.smooth 100) (.smooth 200) _ [] _ _).1.mpr ?_
  refine ⟨by decide +kernel, ?_⟩
  rw [show (firstDestroy.1.state.dom "d").status = .coloEnabled by decide +kernel]
  refine ⟨by decide +kernel, ⟨100, by decide +kernel, by decide +kernel⟩, ?_⟩
  rw [if_neg (by decide +kernel)]
  exact ⟨by decide +kernel, by decide +kernel⟩

theorem not_completed_replyLost :
    firstDestroy.1.value.map ColodRetVal.code = some (-1) ∧
      (coloNode .b).Killed firstDestroy.2 200 ∧
        ¬ Completed "d" (attempt (.smooth 100) (.answered (.smooth 200)) none [] "d"
          firstDestroy.1.state firstDestroy.2) := by
  refine ⟨by decide +kernel, ⟨[.kill 200], by decide +kernel, by simp⟩, ?_⟩
  rintro ⟨ret, nd, hreturned, hcode, -⟩
  have hvalue : (attempt (.smooth 100) (.answered (.smooth 200)) none [] "d"
      firstDestroy.1.state firstDestroy.2).1.value.map ColodRetVal.code = some (-1) := by
    decide +kernel
  rw [hreturned, Outcome.value, Option.map_some, hcode] at hvalue
  exact absurd hvalue (by decide)

end ColoManage
