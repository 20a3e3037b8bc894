import ColoManage.Moves
import ColoManage.Server

/-!
# The record of a destroy that fails

`destroy_domain` takes the pid out of the save file before it looks for the
process.  When a signal then finds nobody, the request is refused, and the file
has already forgotten the pid that the table still has.
-/

namespace ColoManage

open Resumption EventSystem

/-! ## The property -/

/-- The state in which the request calls `destroy_domain`, if it gets there:
after the tests, and in COLO mode after a reply of the peer that reports no
failure. -/
def destroysIn (script : Script) (nd : Node) : Request → Option Node
  | .destroy domainName =>
      let test := nd.testDomainStatus domainName
      if test.1 = .shutOff then none
      else
        match (test.2.dom domainName).status with
        | .running => some test.2
        | .coloEnabled =>
            if test.2.remoteClient.usable && accepted (script.reply 0) then
              some (((test.2.called (.peerDestroyDomain domainName)).osAfter
                script.meanwhile).replied)
            else none
        | _ => none
  | .peerDestroyDomain domainName =>
      let nd := nd.touch domainName
      if !(nd.dom domainName).coloEnable then none
      else
        let test := nd.testDomainStatus domainName
        if test.1 = .shutOff then none else some test.2
  | _ => none

/-- Pid and status of the domain are what they were in both copies, and the two
copies agree on them. -/
structure RecordKept (domainName : String) (before after : Node) : Prop where
  pid : (after.dom domainName).pid = (before.dom domainName).pid
  status : (after.dom domainName).status = (before.dom domainName).status
  file : (after.save.find domainName).map (fun entry => (entry.pid, entry.status)) =
    (before.save.find domainName).map fun entry => (entry.pid, entry.status)
  agrees : ∃ entry, after.save.find domainName = some entry ∧
    (after.dom domainName).pid = entry.pid ∧
      ((after.dom domainName).status = .shutOff ↔ entry.status = "shutoff")

/-- The process on record has been killed, and both copies say so. -/
structure RecordGone (domainName : String) (before after : Node) : Prop where
  killed : before.Killed after (before.dom domainName).pid
  pid : (after.dom domainName).pid = -1
  status : (after.dom domainName).status = .shutOff
  file : ∃ entry, after.save.find domainName = some entry ∧ entry.pid = -1 ∧
    entry.status = "shutoff"

/-- A failure of `destroy_domain` is reported and leaves the record; a success
of the request has killed the process on record. -/
def DestroyHonest (env : Env) (script : Script) (nd : Node) (req : Request) : Prop :=
  ∀ domainName, req.Destroys domainName → ∀ ret nd',
    (handle env req nd).follow Node.osAfter script = .returned ret nd' →
      ((∃ found, destroysIn script nd req = some found ∧
          (found.destroyDomain env domainName).1 < 0) →
        ret.code < 0 ∧ RecordKept domainName nd nd') ∧
      (ret.code = 0 → RecordGone domainName nd nd')

/-- Where `destroy_domain` is called, the file has the pid of the table, and a
process has it when each of the two signals is sent. -/
def DestroyClean (env : Env) (script : Script) (nd : Node) (req : Request) : Prop :=
  ∀ domainName, req.Destroys domainName → ∀ found, destroysIn script nd req = some found →
    getDomainPid domainName found.save = some (found.dom domainName).pid ∧
      Survives env found.os (found.dom domainName).pid

/-! ## The state in which a domain is destroyed -/

section

variable {env : Env} {script : Script} {nd found : Node} {req : Request} {domainName : String}

/-- The tables of the state are those before the request, and the domain counts
as started. -/
structure Found (domainName : String) (nd found : Node) : Prop where
  domains : found.domains = nd.domains
  save : found.save = nd.save
  log : ∃ more, found.log = nd.log ++ more ∧ ∀ pid, .kill pid ∉ more
  mem : domainName ∈ nd.domains
  pid : (nd.dom domainName).pid ≠ -1

theorem Found.dom (h : Found domainName nd found) (name : String) :
    found.dom name = nd.dom name :=
  Node.dom_of_domains_eq h.domains name

theorem found_of_test {message : List Effect} (h : (nd.testDomainStatus domainName).1 ≠ .shutOff)
    (hdomains : found.domains = nd.domains) (hsave : found.save = nd.save)
    (hlog : found.log = nd.log ++ message) (hmessage : ∀ pid, .kill pid ∉ message) :
    Found domainName nd found where
  domains := hdomains
  save := hsave
  log := ⟨message, hlog, hmessage⟩
  mem := (Node.known_of_not_shutOff h).1
  pid := Node.pid_of_not_shutOff h

theorem tested_eq_self (h : (nd.testDomainStatus domainName).1 ≠ .shutOff) :
    (nd.testDomainStatus domainName).2 = nd := by
  obtain ⟨hmem, hdead⟩ := Node.known_of_not_shutOff h
  rw [Node.testDomainStatus_of_not_dead hdead, Node.touch_of_mem hmem]

/-- The call of the peer and its reply, along a script. -/
theorem follow_checkReply_accepted {request : Request} (husable : nd.remoteClient.usable = true)
    (haccepted : accepted (script.reply 0) = true) (failure : String) (k : Node → Colod) :
    (nd.remoteCall request fun ret nd => checkReply failure ret nd k).follow Node.osAfter script =
      (k ((nd.called request).osAfter script.meanwhile).replied).follow Node.osAfter
        script.tail := by
  rw [Node.remoteCall_of_usable husable]
  cases script with
  | nil => exact absurd haccepted (by simp [Script.reply, accepted])
  | cons entry script =>
      have hreceived := received_checkReply_accepted haccepted failure k
        ((nd.called request).osAfter entry.1)
      exact congrArg (fun act => act.follow Node.osAfter script) hreceived

theorem follow_checkReply_refused {request : Request}
    (h : ¬(nd.remoteClient.usable = true ∧ accepted (script.reply 0) = true)) (failure : String)
    (k : Node → Colod) {ret : ColodRetVal} {nd' : Node}
    (hreturned : (nd.remoteCall request fun ret nd => checkReply failure ret nd k).follow
      Node.osAfter script = .returned ret nd') : ret.code < 0 := by
  by_cases husable : nd.remoteClient.usable = true
  · rw [Node.remoteCall_of_usable husable] at hreturned
    cases script with
    | nil => cases hreturned
    | cons entry script =>
        have hrefused : accepted entry.2 = false := by
          simpa [husable, Script.reply] using h
        obtain ⟨msg, nd₁, heq, -⟩ := received_checkReply_refused hrefused failure k
          ((nd.called request).osAfter entry.1)
        have hdone := (congrArg (fun act => act.follow Node.osAfter script) heq).symm.trans
          hreturned
        injection hdone with hret
        rw [← hret]
        show (-1 : ℤ) < 0
        decide
  · rw [Node.remoteCall_of_not_usable (by simpa using husable)] at hreturned
    cases hreturned

/-- The request ends as `destroy_domain` does where it calls it. -/
theorem follow_destroys (env : Env) (hreq : req.Destroys domainName)
    (h : destroysIn script nd req = some found) :
    Found domainName nd found ∧ ∃ success rest,
      (handle env req nd).follow Node.osAfter script =
        (destroyHost env domainName success found).follow Node.osAfter rest := by
  rcases hreq with rfl | rfl
  · simp only [destroysIn] at h
    by_cases hshut : (nd.testDomainStatus domainName).1 = .shutOff
    · simp [hshut] at h
    · have hself := tested_eq_self hshut
      simp only [hshut, if_false, hself] at h
      show Found domainName nd found ∧ ∃ success rest,
        (colodDestroy env domainName nd).follow Node.osAfter script = _
      simp only [colodDestroy, hshut, if_false, hself]
      cases hstatus : (nd.dom domainName).status with
      | running =>
          simp only [hstatus, Option.some.injEq] at h
          subst h
          exact ⟨found_of_test hshut rfl rfl (List.append_nil nd.log).symm (by simp),
            _, script, rfl⟩
      | coloEnabled =>
          simp only [hstatus, Option.ite_none_right_eq_some, Bool.and_eq_true,
            Option.some.injEq] at h
          obtain ⟨⟨husable, haccepted⟩, rfl⟩ := h
          exact ⟨found_of_test hshut rfl rfl rfl (by simp), _, script.tail,
            follow_checkReply_accepted husable haccepted _ _⟩
      | shutOff => simp [hstatus] at h
      | start => simp [hstatus] at h
      | error => simp [hstatus] at h
  · simp only [destroysIn, Node.dom_touch, Node.testDomainStatus_touch] at h
    by_cases hflag : (nd.dom domainName).coloEnable = true
    · by_cases hshut : (nd.testDomainStatus domainName).1 = .shutOff
      · simp [hflag, hshut] at h
      · have hself := tested_eq_self hshut
        simp only [hflag, Bool.not_true, if_neg Bool.false_ne_true, hshut, if_false, hself,
          Option.some.injEq] at h
        subst h
        refine ⟨found_of_test hshut rfl rfl (List.append_nil nd.log).symm (by simp),
          "colo domain " ++ domainName ++ " destroy.", script, ?_⟩
        show (peerColodDestroyDomain env domainName nd).follow Node.osAfter script = _
        simp only [peerColodDestroyDomain, Node.dom_touch, Node.testDomainStatus_touch, hflag,
          Bool.not_true, if_neg Bool.false_ne_true, hshut, if_false, hself]
    · simp [hflag] at h

theorem code_of_refused {msg : String} {nd₁ nd' : Node} {ret : ColodRetVal}
    (h : (Act.done ⟨-1, msg⟩ nd₁ : Colod).follow Node.osAfter script = .returned ret nd') :
    ret.code < 0 := by
  injection h with hret
  rw [← hret]
  show (-1 : ℤ) < 0
  decide

theorem follow_not_destroys (hreq : req.Destroys domainName) (h : destroysIn script nd req = none)
    {ret : ColodRetVal} {nd' : Node}
    (hreturned : (handle env req nd).follow Node.osAfter script = .returned ret nd') :
    ret.code < 0 := by
  rcases hreq with rfl | rfl
  · have hdestroy : (colodDestroy env domainName nd).follow Node.osAfter script =
        .returned ret nd' := hreturned
    simp only [destroysIn] at h
    by_cases hshut : (nd.testDomainStatus domainName).1 = .shutOff
    · simp only [colodDestroy, hshut, if_true] at hdestroy
      exact code_of_refused hdestroy
    · have hself := tested_eq_self hshut
      simp only [hshut, if_false, hself] at h
      simp only [colodDestroy, hshut, if_false, hself] at hdestroy
      cases hstatus : (nd.dom domainName).status with
      | running => simp [hstatus] at h
      | coloEnabled =>
          have hnot : ¬(nd.remoteClient.usable = true ∧ accepted (script.reply 0) = true) := by
            simpa [hstatus] using h
          simp only [hstatus] at hdestroy
          exact follow_checkReply_refused hnot _ _ hdestroy
      | shutOff =>
          simp only [hstatus] at hdestroy
          exact code_of_refused hdestroy
      | start =>
          simp only [hstatus] at hdestroy
          exact code_of_refused hdestroy
      | error =>
          simp only [hstatus] at hdestroy
          exact code_of_refused hdestroy
  · have hdestroy : (peerColodDestroyDomain env domainName nd).follow Node.osAfter script =
        .returned ret nd' := hreturned
    simp only [destroysIn, Node.dom_touch, Node.testDomainStatus_touch] at h
    simp only [peerColodDestroyDomain, Node.dom_touch, Node.testDomainStatus_touch] at hdestroy
    by_cases hflag : (nd.dom domainName).coloEnable = true
    · by_cases hshut : (nd.testDomainStatus domainName).1 = .shutOff
      · simp only [hflag, Bool.not_true, if_neg Bool.false_ne_true, hshut, if_true] at hdestroy
        exact code_of_refused hdestroy
      · simp [hflag, hshut] at h
    · simp only [hflag, Bool.not_false, if_true] at hdestroy
      exact code_of_refused hdestroy

/-! ## What is left of the record -/

/-- Without the process, `destroy_domain` fails when the file has lost the pid. -/
theorem destroyDomain_of_not_survives {pid : ℤ} (hpid : getDomainPid domainName nd.save = some pid)
    (hnot : ¬Survives env nd.os pid) :
    ∃ os, nd.destroyDomain env domainName =
      (-1, { nd with save := (removeDomainPid domainName nd.save).2, os }) := by
  rcases nd.destroyDomain_cases env domainName with ⟨hnone, -⟩ | ⟨pid', os, -, -, hgone | hkilled⟩
  · rw [hpid] at hnone
    cases hnone
  · exact ⟨os, hgone.2⟩
  · have hlog : nd.Killed (nd.destroyDomain env domainName).2 pid' := by
      rw [hkilled.2]
      exact ⟨[.kill pid'], rfl, List.mem_singleton.mpr rfl⟩
    obtain ⟨hpid', hsurvives⟩ := (Node.killed_destroyDomain_iff env domainName nd pid').mp hlog
    rw [hpid, Option.some.injEq] at hpid'
    exact absurd (hpid' ▸ hsurvives) hnot

/-- A record whose pid is not in the file does not agree with the file. -/
theorem not_recordKept_of_getDomainPid {nd' : Node} (hpid : (nd.dom domainName).pid ≠ -1)
    (hnone : getDomainPid domainName nd'.save = none) : ¬RecordKept domainName nd nd' := by
  intro hkept
  obtain ⟨entry, hfind, hentry, -⟩ := hkept.agrees
  rw [hkept.pid] at hentry
  have hsome : getDomainPid domainName nd'.save = some (nd.dom domainName).pid :=
    Node.getDomainPid_eq_some_iff.mpr ⟨hpid, entry, hfind, hentry.symm⟩
  rw [hsome] at hnone
  cases hnone

theorem getDomainPid_removed (sf : SaveFile) :
    getDomainPid domainName (removeDomainPid domainName sf).2 = none := by
  unfold getDomainPid
  rw [find_removeDomainPid, if_pos rfl]
  cases sf.find domainName <;> simp

theorem recordGone_destroyed_iff (h : Found domainName nd found) {pid : ℤ}
    (hpid : getDomainPid domainName found.save = some pid) (os : ProcessTable) :
    RecordGone domainName nd ({ found with
        save := (removeDomainPid domainName found.save).2
        os := os
        log := found.log ++ [Effect.kill pid] }.modDom domainName fun ds =>
          { ds with pid := -1, status := .shutOff }) ↔ (nd.dom domainName).pid = pid := by
  obtain ⟨more, hlog, hnokill⟩ := h.log
  constructor
  · intro hgone
    obtain ⟨effects, heffects, hmem⟩ := hgone.killed
    have hsplit : found.log ++ [Effect.kill pid] = nd.log ++ effects := heffects
    rw [hlog, List.append_assoc] at hsplit
    rw [← List.append_cancel_left hsplit] at hmem
    rcases List.mem_append.mp hmem with hkill | hkill
    · exact absurd hkill (hnokill _)
    · exact Effect.kill.inj (List.mem_singleton.mp hkill)
  · intro heq
    obtain ⟨-, entry, hfind, -⟩ := Node.getDomainPid_eq_some_iff.mp hpid
    refine ⟨⟨more ++ [.kill pid], ?_, ?_⟩, ?_, ?_, ?_⟩
    · show found.log ++ [Effect.kill pid] = _
      rw [hlog, List.append_assoc]
    · rw [heq]
      simp
    · simp
    · simp
    · refine ⟨{ entry with pid := -1, status := "shutoff" }, ?_, rfl, rfl⟩
      show (removeDomainPid domainName found.save).2.find domainName = _
      rw [find_removeDomainPid, if_pos rfl, hfind]
      rfl

/-! ## One request -/

theorem destroyHost_failed {nd' : Node} (h : nd.destroyDomain env domainName = (-1, nd'))
    (success : String) :
    destroyHost env domainName success nd = .done ⟨-1, "can not destroy domain."⟩ nd' := by
  unfold destroyHost
  rw [h]
  rfl

theorem destroyHost_done {nd' : Node} (h : nd.destroyDomain env domainName = (0, nd'))
    (success : String) :
    destroyHost env domainName success nd = .done ⟨0, success⟩
      (nd'.modDom domainName fun ds => { ds with pid := -1, status := .shutOff }) := by
  unfold destroyHost
  rw [h]
  rfl

/-- A failure of `destroy_domain` leaves a record that is not what it was, or
never agreed with the file. -/
theorem not_honest_of_failed (hfound : Found domainName nd found) {nd' : Node} {success : String}
    {rest : Script} (hfails : found.destroyDomain env domainName = (-1, nd'))
    (hnone : getDomainPid domainName nd'.save = none)
    (hhonest : ∀ ret nd₁, (destroyHost env domainName success found).follow Node.osAfter rest =
      .returned ret nd₁ → ((found.destroyDomain env domainName).1 < 0 →
        ret.code < 0 ∧ RecordKept domainName nd nd₁)) : False := by
  rw [destroyHost_failed hfails, hfails] at hhonest
  have hnegative : (-1 : ℤ) < 0 := by decide
  obtain ⟨-, hkept⟩ := hhonest _ nd' rfl hnegative
  exact not_recordKept_of_getDomainPid hfound.pid hnone hkept

theorem destroyHonest_iff (env : Env) (script : Script) (nd : Node) (req : Request) :
    DestroyHonest env script nd req ↔ DestroyClean env script nd req := by
  unfold DestroyHonest DestroyClean
  refine forall_congr' fun domainName => forall_congr' fun hreq => ?_
  cases hdestroys : destroysIn script nd req with
  | none =>
      refine iff_of_true (fun ret nd' hreturned => ⟨?_, fun hzero => ?_⟩) ?_
      · rintro ⟨found, hfound, -⟩
        cases hfound
      · have hcode := follow_not_destroys hreq hdestroys hreturned
        omega
      · intro found hfound
        cases hfound
  | some found =>
      obtain ⟨hfound, success, rest, hfollow⟩ := follow_destroys env hreq hdestroys
      simp only [hfollow, Option.some.injEq, exists_eq_left', forall_eq', hfound.dom]
      cases hpid : getDomainPid domainName found.save with
      | none =>
          have hfails : found.destroyDomain env domainName = (-1, found) := by
            simp [Node.destroyDomain, hpid]
          simp only [reduceCtorEq, false_and, iff_false]
          intro hhonest
          exact not_honest_of_failed hfound hfails hpid fun ret nd' h => (hhonest ret nd' h).1
      | some pid =>
          by_cases hsurvives : Survives env found.os pid
          · have hdone := Node.destroyDomain_of_survives hpid hsurvives.1 hsurvives.2
            rw [destroyHost_done hdone, hdone]
            have hgone := recordGone_destroyed_iff hfound hpid
              (((found.os.after env.beforeProbe).after env.beforeKill).sigkill pid)
            constructor
            · intro hhonest
              have heq := hgone.mp ((hhonest _ _ rfl).2 rfl)
              rw [heq]
              exact ⟨rfl, hsurvives⟩
            · rintro ⟨hsame, -⟩ ret nd' hreturned
              rw [Option.some.injEq] at hsame
              obtain ⟨rfl, rfl⟩ := Outcome.returned.inj hreturned
              exact ⟨fun hfails => absurd hfails (Int.lt_irrefl 0), fun _ => hgone.mpr hsame.symm⟩
          · obtain ⟨os, hfails⟩ := destroyDomain_of_not_survives hpid hsurvives
            refine iff_of_false (fun hhonest => ?_) ?_
            · exact not_honest_of_failed hfound hfails (getDomainPid_removed found.save)
                fun ret nd' h => (hhonest ret nd' h).1
            · rintro ⟨hsame, halive⟩
              rw [Option.some.injEq] at hsame
              exact hsurvives (hsame ▸ halive)

end

/-! ## Runs -/

def EventDestroyHonest (server : Server) : ServerEvent → Prop
  | .request req env script => server.up = true → DestroyHonest env script server.node req
  | _ => True

def EventDestroyClean (server : Server) : ServerEvent → Prop
  | .request req env script => server.up = true → DestroyClean env script server.node req
  | _ => True

/-- In a run every destroy reports what it has done to the record exactly when
each `destroy_domain` finds the same pid in both copies and a process that stays
for both signals. -/
theorem along_destroyHonest_iff (server : Server) (events : List ServerEvent) :
    Along Server.step EventDestroyHonest server events ↔
      Along Server.step EventDestroyClean server events := by
  apply along_congr
  intro server event
  cases event with
  | request req env script =>
      exact forall_congr' fun _ => destroyHonest_iff env script server.node req
  | _ => exact Iff.rfl

/-- A VM is started, and colod is restarted; the VM is then no child of colod any more. -/
def inheritedVm : List ServerEvent :=
  [.writeFile "/root/r.yaml" (sampleDefinition "running"),
    .request (.define "/root/r.yaml") (.smooth 100) [],
    .request (.start "running" false) (.smooth 100) [], .restart]

/-- Its process is gone between the probe of the pid and the kill. -/
def goneBeforeKill : Env := { Env.smooth 100 with beforeKill := [.exit 100, .reap 100] }

theorem not_along_destroyHonest_gone :
    ¬Along Server.step EventDestroyHonest (Server.boot .fresh)
      (inheritedVm ++ [.request (.destroy "running") goneBeforeKill []]) := by
  intro h
  obtain ⟨hlast, -⟩ := (along_append.mp h).2
  have hclean := (destroyHonest_iff _ _ _ _).mp (hlast (by decide +kernel))
  have hgone : (destroysIn [] (inheritedVm.foldl Server.step (Server.boot .fresh)).node
      (.destroy "running")).map (fun found =>
        decide (Survives goneBeforeKill found.os (found.dom "running").pid)) = some false := by
    decide +kernel
  obtain ⟨found, hfound, hdead⟩ := Option.map_eq_some_iff.mp hgone
  exact of_decide_eq_false hdead (hclean "running" (Or.inl rfl) found hfound).2

end ColoManage
