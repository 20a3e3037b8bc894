import ColoManage.Server
import ColoManage.Steps

/-!
# Failing over again

A failover that is refused must leave the domain as it was, or the next request
takes another branch.  The primary branch changes nothing before its QMP
exchange.  The secondary branch stores the status `failover` first and does not
take it back, so an exchange that fails leaves a status that no branch accepts.
-/

namespace ColoManage

open EventSystem Resumption

/-! ## An exchange that fails -/

/-- The exchange returns `-1`: there is no connection, or some `send` fails
after commands that were all sent and answered. -/
def QmpScript.Fails (script : QmpScript) (count : ℕ) : Prop :=
  script.connects = false ∨
    ((∃ text, script.greeting = .data text) ∧
      ∃ i < count, (script.exchange i).1 = .error ∧
        ∀ j < i, ∃ n text, script.exchange j = (.sent n, .data text))

namespace Node

theorem qmpEnd_failed_iff (exchange : ℕ → QmpSend × QmpRecv) (i count : ℕ) :
    qmpEnd exchange i count = .failed ↔
      ∃ k < count, (exchange (i + k)).1 = .error ∧
        ∀ j < k, ∃ n text, exchange (i + j) = (.sent n, .data text) := by
  induction count generalizing i with
  | zero => simp [qmpEnd]
  | succ count ih =>
      have hshift : ∀ k, i + 1 + k = i + (k + 1) := fun k => by omega
      rw [qmpEnd]
      rcases hfirst : exchange i with ⟨send, recv⟩
      cases send with
      | error =>
          simp only [true_iff]
          refine ⟨0, by omega, by rw [Nat.add_zero, hfirst], fun j hj => ?_⟩
          omega
      | broken =>
          simp only [reduceCtorEq, false_iff]
          rintro ⟨k, -, herror, hbefore⟩
          cases k with
          | zero => simp [hfirst] at herror
          | succ k =>
              obtain ⟨n, text, h⟩ := hbefore 0 (by omega)
              simp [hfirst] at h
      | sent n =>
          cases recv with
          | error =>
              simp only [reduceCtorEq, false_iff]
              rintro ⟨k, -, herror, hbefore⟩
              cases k with
              | zero => simp [hfirst] at herror
              | succ k =>
                  obtain ⟨n, text, h⟩ := hbefore 0 (by omega)
                  simp [hfirst] at h
          | data text =>
              simp only [ih, hshift]
              constructor
              · rintro ⟨k, hk, herror, hbefore⟩
                refine ⟨k + 1, by omega, herror, fun j hj => ?_⟩
                cases j with
                | zero => exact ⟨n, text, hfirst⟩
                | succ j => exact hbefore j (by omega)
              · rintro ⟨k, hk, herror, hbefore⟩
                cases k with
                | zero => simp [hfirst] at herror
                | succ k =>
                    exact ⟨k, by omega, herror, fun j hj => hbefore (j + 1) (by omega)⟩

theorem qmpScriptEnd_failed_iff (script : QmpScript) (count : ℕ) :
    qmpScriptEnd script count = .failed ↔ script.Fails count := by
  unfold qmpScriptEnd QmpScript.Fails
  by_cases hconnects : script.connects = true
  · cases hgreeting : script.greeting with
    | error => simp [hconnects]
    | data text =>
        simp only [hconnects, if_true, qmpEnd_failed_iff, Nat.zero_add]
        simp
  · simp [hconnects]

end Node

/-! ## The request -/

def SameStatus (domainName : String) (nd nd' : Node) : Prop :=
  (nd'.dom domainName).status = (nd.dom domainName).status ∧
    (nd'.dom domainName).coloStatus = (nd.dom domainName).coloStatus

/-- A refused failover leaves the two statuses of the domain alone. -/
def RetrySafe (env : Env) (domainName : String) (nd : Node) : Prop :=
  ∀ ret nd', colodDoFailover env domainName nd = .done ret nd' → ret.code < 0 →
    SameStatus domainName nd nd'

/-- The request takes the secondary branch and its exchange fails. -/
structure StuckFailover (env : Env) (domainName : String) (nd : Node) : Prop where
  up : (nd.dom domainName).status ≠ .shutOff
  enabled : (nd.dom domainName).coloEnable = true
  secondary : (nd.dom domainName).coloStatus = .secondary
  fails : env.qmp.Fails secondaryFailoverCmds.length

theorem sameStatus_of_dom {domainName : String} {nd nd' : Node}
    (h : nd'.dom domainName = nd.dom domainName) : SameStatus domainName nd nd' := by
  rw [SameStatus, h]
  exact ⟨rfl, rfl⟩

theorem retrySafe_of_done {env : Env} {domainName : String} {nd nd' : Node} {ret : ColodRetVal}
    (hdone : colodDoFailover env domainName nd = .done ret nd')
    (h : ret.code < 0 → SameStatus domainName nd nd') : RetrySafe env domainName nd := by
  intro ret' nd'' hdone' hcode
  rw [hdone] at hdone'
  injection hdone' with hret hnd
  subst hret hnd
  exact h hcode

theorem retrySafe_of_crash {env : Env} {domainName : String} {nd nd' : Node}
    (hcrash : colodDoFailover env domainName nd = .crash nd') : RetrySafe env domainName nd := by
  intro ret nd'' hdone
  rw [hcrash] at hdone
  nomatch hdone

theorem colodDoFailover_secondary (env : Env) {domainName : String} {nd : Node}
    (hup : (nd.dom domainName).status ≠ .shutOff)
    (henabled : (nd.dom domainName).coloEnable = true)
    (hrole : (nd.dom domainName).coloStatus = .secondary) :
    colodDoFailover env domainName nd =
      checkQmp ("colo domain " ++ domainName ++ " set params failed : send qmp cmds failed.")
        (((nd.touch domainName).modDom domainName fun ds =>
          { ds with coloStatus := .failover }).sendQmpCmds env secondaryFailoverCmds)
        (failedOver domainName "Primary vm crash and do failover.") := by
  simp [colodDoFailover, hup, henabled, hrole]

theorem colodDoFailover_primary (env : Env) {domainName : String} {nd : Node}
    (hup : (nd.dom domainName).status ≠ .shutOff)
    (henabled : (nd.dom domainName).coloEnable = true)
    (hrole : (nd.dom domainName).coloStatus = .primary) :
    colodDoFailover env domainName nd =
      checkQmp ("colo domain " ++ domainName ++ " set params failed : send qmp cmds failed.")
        ((nd.touch domainName).sendQmpCmds env primaryFailoverCmds)
        (failedOver domainName "Secondary vm crash and do failover.") := by
  simp [colodDoFailover, hup, henabled, hrole]

theorem colodDoFailover_wrongRole (env : Env) {domainName : String} {nd : Node}
    (hup : (nd.dom domainName).status ≠ .shutOff)
    (henabled : (nd.dom domainName).coloEnable = true)
    (hprimary : (nd.dom domainName).coloStatus ≠ .primary)
    (hsecondary : (nd.dom domainName).coloStatus ≠ .secondary) :
    colodDoFailover env domainName nd =
      .done ⟨-1, "can not do failover in wrong colo status."⟩ (nd.touch domainName) := by
  cases hrole : (nd.dom domainName).coloStatus with
  | primary => exact absurd hrole hprimary
  | secondary => exact absurd hrole hsecondary
  | _ => simp [colodDoFailover, hup, henabled, hrole]

theorem retrySafe_secondary_iff {env : Env} {domainName : String} {nd : Node}
    (hup : (nd.dom domainName).status ≠ .shutOff)
    (henabled : (nd.dom domainName).coloEnable = true)
    (hrole : (nd.dom domainName).coloStatus = .secondary) :
    RetrySafe env domainName nd ↔ ¬ env.qmp.Fails secondaryFailoverCmds.length := by
  have heq := colodDoFailover_secondary env hup henabled hrole
  rw [checkQmp_eq] at heq
  rw [← Node.qmpScriptEnd_failed_iff]
  cases hend : Node.qmpScriptEnd env.qmp secondaryFailoverCmds.length with
  | died =>
      rw [hend] at heq
      exact iff_of_true (retrySafe_of_crash heq) nofun
  | complete =>
      rw [hend] at heq
      refine iff_of_true (retrySafe_of_done heq fun hcode => ?_) nofun
      exact absurd hcode (by decide)
  | failed =>
      rw [hend] at heq
      refine iff_of_false (fun hsafe => ?_) (fun hnot => hnot rfl)
      have hcode : (-1 : ℤ) < 0 := by decide
      have hstatus := (hsafe _ _ heq hcode).2
      rw [hrole] at hstatus
      simp [Node.sentQmp, Node.dom] at hstatus

theorem retrySafe_primary {env : Env} {domainName : String} {nd : Node}
    (hup : (nd.dom domainName).status ≠ .shutOff)
    (henabled : (nd.dom domainName).coloEnable = true)
    (hrole : (nd.dom domainName).coloStatus = .primary) : RetrySafe env domainName nd := by
  have heq := colodDoFailover_primary env hup henabled hrole
  rw [checkQmp_eq] at heq
  cases hend : Node.qmpScriptEnd env.qmp primaryFailoverCmds.length with
  | died =>
      rw [hend] at heq
      exact retrySafe_of_crash heq
  | complete =>
      rw [hend] at heq
      refine retrySafe_of_done heq fun hcode => ?_
      exact absurd hcode (by decide)
  | failed =>
      rw [hend] at heq
      apply retrySafe_of_done heq
      intro _
      apply sameStatus_of_dom
      exact Node.dom_touch domainName domainName nd

/-- A refused failover can be repeated unless it is a secondary's and failed in
its QMP exchange. -/
theorem retrySafe_iff (env : Env) (domainName : String) (nd : Node) :
    RetrySafe env domainName nd ↔ ¬ StuckFailover env domainName nd := by
  have hrefused : ∀ err, colodDoFailover env domainName nd = .done ⟨-1, err⟩ (nd.touch domainName) →
      RetrySafe env domainName nd := by
    intro err hdone
    apply retrySafe_of_done hdone
    intro _
    exact sameStatus_of_dom (Node.dom_touch domainName domainName nd)
  by_cases hup : (nd.dom domainName).status = .shutOff
  · refine iff_of_true (hrefused "can not do failover for a shutoff domain." ?_)
      fun hstuck => hstuck.up hup
    simp [colodDoFailover, hup]
  by_cases henabled : (nd.dom domainName).coloEnable = true
  · by_cases hsecondary : (nd.dom domainName).coloStatus = .secondary
    · rw [retrySafe_secondary_iff hup henabled hsecondary]
      exact not_congr ⟨fun hfails => ⟨hup, henabled, hsecondary, hfails⟩, StuckFailover.fails⟩
    refine iff_of_true ?_ fun hstuck => hsecondary hstuck.secondary
    by_cases hprimary : (nd.dom domainName).coloStatus = .primary
    · exact retrySafe_primary hup henabled hprimary
    · apply hrefused "can not do failover in wrong colo status."
      exact colodDoFailover_wrongRole env hup henabled hprimary hsecondary
  · refine iff_of_true (hrefused "can not do failover for a colo-disabled domain." ?_)
      fun hstuck => henabled hstuck.enabled
    simp [colodDoFailover, hup, henabled]

/-! ## Runs -/

def EventRetrySafe (server : Server) : ServerEvent → Prop
  | .request (.doFailover domainName) env _ =>
      server.up = true → RetrySafe env domainName server.node
  | _ => True

def EventNotStuck (server : Server) : ServerEvent → Prop
  | .request (.doFailover domainName) env _ =>
      server.up = true → ¬ StuckFailover env domainName server.node
  | _ => True

/-- In a run every refused failover can be repeated exactly when none of them
is a secondary's whose exchange fails. -/
theorem along_retrySafe_iff (server : Server) (events : List ServerEvent) :
    Along Server.step EventRetrySafe server events ↔
      Along Server.step EventNotStuck server events := by
  apply along_congr
  intro server event
  cases event with
  | request req env script =>
      cases req with
      | doFailover domainName =>
          exact forall_congr' fun _ => retrySafe_iff env domainName server.node
      | _ => exact Iff.rfl
  | _ => exact Iff.rfl

/-- The peer enables `d` in COLO mode and starts its secondary here. -/
def startedSecondary : List ServerEvent :=
  [.request (.define "/root/d.yaml") (.smooth 100) [],
    .request (.peerSaveStatus ⟨.primary, 5678, "", "", "", "", "", ""⟩) (.smooth 100) [],
    .request (.peerSaveDomain ⟨-1, "d", .shutOff, true, .primary, "d.yaml"⟩) (.smooth 100) [],
    .request (.peerStartDomain "d" true) (.smooth 100) []]

/-- The QMP port of the VM refuses the connection. -/
def refusedEnv : Env := { Env.smooth 100 with qmp := ⟨false, .data "", fun _ => (.error, .error)⟩ }

theorem not_along_retrySafe_startedSecondary :
    ¬ Along Server.step EventRetrySafe (Server.boot .fresh)
      (startedSecondary ++ [.request (.doFailover "d") refusedEnv []]) := by
  intro h
  obtain ⟨hlast, -⟩ := (along_append.mp h).2
  have hsafe : RetrySafe refusedEnv "d" _ := hlast (by decide +kernel)
  have hstuck := (retrySafe_secondary_iff (by decide +kernel) (by decide +kernel)
    (by decide +kernel)).mp hsafe
  exact hstuck (.inl rfl)

end ColoManage
