import ColoManage.FailoverRetry

/-!
# Commands for a VM that is not in COLO mode

`colod_set_params` and `colod_do_failover` look at the status that was stored
last and at the flag `colo_enable`; they do not test the process.  A domain
started without `--colo`, one that has failed over and one whose process is
gone all pass, and the commands go out.
-/

namespace ColoManage

open EventSystem Resumption

/-- `test_domain_status` finds the domain's VM alive and in COLO mode. -/
def Node.LiveColo (domainName : String) (nd : Node) : Prop :=
  (nd.testDomainStatus domainName).1 = .coloEnabled

/-- The handler returns a negative code and has sent nothing. -/
def Refuses (handler : Colod) (nd : Node) : Prop :=
  ∃ ret nd', handler = .done ret nd' ∧ ret.code < 0 ∧ nd'.log = nd.log

/-- The exchange returns `-1` before a command has gone out. -/
def QmpScript.Silent (script : QmpScript) : Prop :=
  script.connects = false ∨
    ((∃ text, script.greeting = .data text) ∧ (script.exchange 0).1 = .error)

/-! ## The exchange -/

theorem refuses_done {ret : ColodRetVal} {nd nd' : Node} (hcode : ret.code < 0)
    (hlog : nd'.log = nd.log) : Refuses (.done ret nd') nd :=
  ⟨ret, nd', rfl, hcode, hlog⟩

theorem not_refuses_of_nonneg {ret : ColodRetVal} {nd nd' : Node} (hcode : 0 ≤ ret.code) :
    ¬ Refuses (.done ret nd') nd := by
  rintro ⟨ret', nd'', hdone, hneg, -⟩
  injection hdone with hret
  subst hret
  omega

theorem not_refuses_crash (nd nd' : Node) : ¬ Refuses (.crash nd') nd := by
  rintro ⟨ret, nd'', hdone, -⟩
  nomatch hdone

/-- A list of commands whose handler answers `0` after it is refused exactly
when the exchange is over before the first command. -/
theorem refuses_checkQmp_iff {env : Env} {failure cmd msg : String} {cmds : List String}
    {nd nd' : Node} {f : Node → Node} (hlog : nd'.log = nd.log) :
    Refuses (checkQmp failure (nd'.sendQmpCmds env (cmd :: cmds)) fun nd => .done ⟨0, msg⟩ (f nd))
        nd ↔ env.qmp.Silent := by
  rw [checkQmp_eq]
  unfold QmpScript.Silent Node.qmpScriptEnd Node.qmpScriptTexts
  by_cases hconnects : env.qmp.connects = true
  · cases hgreeting : env.qmp.greeting with
    | error =>
        simp only [hconnects, if_true]
        exact iff_of_false (not_refuses_crash nd _) (by simp)
    | data text =>
        simp only [hconnects, if_true, List.length_cons, Node.qmpEnd, Node.qmpTexts]
        rcases hfirst : env.qmp.exchange 0 with ⟨send, recv⟩
        cases send with
        | error =>
            refine iff_of_true (refuses_done (by simp) ?_) (by simp)
            simp [Node.sentQmp, hlog]
        | broken => exact iff_of_false (not_refuses_crash nd _) (by simp)
        | sent n =>
            cases recv with
            | error => exact iff_of_false (not_refuses_crash nd _) (by simp)
            | data reply =>
                refine iff_of_false ?_ (by simp)
                dsimp only
                cases Node.qmpEnd env.qmp.exchange (0 + 1) cmds.length with
                | died => exact not_refuses_crash nd _
                | complete => exact not_refuses_of_nonneg (by simp)
                | failed =>
                    rintro ⟨ret, nd'', hdone, -, hsame⟩
                    injection hdone with hret hnd
                    rw [← hnd] at hsame
                    simp [Node.sentQmp, hlog] at hsame
  · simp only [hconnects]
    refine iff_of_true (refuses_done (by simp) ?_) (by simp)
    simp [Node.sentQmp, hlog]

/-! ## The two requests -/

/-- What stops the request before it sends, from the stored record of its
domain, its own arguments and the QMP port. -/
def StopsEarly (env : Env) (nd : Node) : Request → Prop
  | .setParams domainName property value =>
      (nd.dom domainName).status = .shutOff ∨ (nd.dom domainName).coloEnable = false ∨
        setParamsCmd property value = none ∨ env.qmp.Silent
  | .doFailover domainName =>
      (nd.dom domainName).status = .shutOff ∨ (nd.dom domainName).coloEnable = false ∨
        ((nd.dom domainName).coloStatus ≠ .primary ∧
          (nd.dom domainName).coloStatus ≠ .secondary) ∨ env.qmp.Silent
  | _ => True

theorem colodSetParams_refuses_iff (env : Env) (domainName property : String) (value : ℤ)
    (nd : Node) :
    Refuses (colodSetParams env domainName property value nd) nd ↔
      StopsEarly env nd (.setParams domainName property value) := by
  have hcode : (-1 : ℤ) < 0 := by decide
  simp only [colodSetParams, StopsEarly, Node.dom_touch]
  by_cases hup : (nd.dom domainName).status = .shutOff
  · simp only [hup, if_true, true_or, iff_true]
    exact refuses_done hcode rfl
  by_cases henabled : (nd.dom domainName).coloEnable = true
  · cases hcmd : setParamsCmd property value with
    | none =>
        simp only [hup, henabled, if_false, Bool.not_true, Bool.false_eq_true, true_or, or_true,
          iff_true]
        exact refuses_done hcode rfl
    | some cmd =>
        simp only [hup, henabled, if_false, Bool.not_true, Bool.false_eq_true, false_or,
          reduceCtorEq]
        exact refuses_checkQmp_iff rfl
  · simp only [hup, henabled, if_false, Bool.not_false, if_true, true_or, or_true, iff_true]
    exact refuses_done hcode rfl

theorem colodDoFailover_refuses_iff (env : Env) (domainName : String) (nd : Node) :
    Refuses (colodDoFailover env domainName nd) nd ↔
      StopsEarly env nd (.doFailover domainName) := by
  have hcode : (-1 : ℤ) < 0 := by decide
  by_cases hup : (nd.dom domainName).status = .shutOff
  · refine iff_of_true ?_ (.inl hup)
    simp only [colodDoFailover, Node.dom_touch, hup, if_true]
    exact refuses_done hcode rfl
  by_cases henabled : (nd.dom domainName).coloEnable = true
  · simp only [StopsEarly]
    rw [or_iff_right hup, henabled, or_iff_right Bool.false_ne_true.symm]
    by_cases hsecondary : (nd.dom domainName).coloStatus = .secondary
    · rw [colodDoFailover_secondary env hup henabled hsecondary,
        or_iff_right fun hnot => hnot.2 hsecondary]
      exact refuses_checkQmp_iff rfl
    by_cases hprimary : (nd.dom domainName).coloStatus = .primary
    · rw [colodDoFailover_primary env hup henabled hprimary,
        or_iff_right fun hnot => hnot.1 hprimary]
      exact refuses_checkQmp_iff rfl
    · refine iff_of_true ?_ (.inl ⟨hprimary, hsecondary⟩)
      rw [colodDoFailover_wrongRole env hup henabled hprimary hsecondary]
      exact refuses_done hcode rfl
  · refine iff_of_true ?_ (.inr (.inl (by simpa using henabled)))
    simp only [colodDoFailover, Node.dom_touch, hup, henabled, if_false, Bool.not_false, if_true]
    exact refuses_done hcode rfl

/-! ## Runs -/

/-- The domain whose VM the request is meant for. -/
def Request.runtimeDomain : Request → Option String
  | .setParams domainName _ _ => some domainName
  | .doFailover domainName => some domainName
  | _ => none

/-- Unless the domain's VM is alive in COLO mode the request is refused, and
nothing is sent. -/
def OnlyLive (env : Env) (req : Request) (nd : Node) : Prop :=
  ∀ domainName, req.runtimeDomain = some domainName → ¬ nd.LiveColo domainName →
    Refuses (handle env req nd) nd

/-- The VM is alive in COLO mode, or something else stops the request. -/
def LiveOrStopped (env : Env) (req : Request) (nd : Node) : Prop :=
  ∀ domainName, req.runtimeDomain = some domainName →
    nd.LiveColo domainName ∨ StopsEarly env nd req

theorem onlyLive_iff (env : Env) (req : Request) (nd : Node) :
    OnlyLive env req nd ↔ LiveOrStopped env req nd := by
  apply forall_congr'
  intro domainName
  apply forall_congr'
  intro hdomain
  have hrefuses : Refuses (handle env req nd) nd ↔ StopsEarly env nd req := by
    cases req with
    | setParams name property value => exact colodSetParams_refuses_iff env name property value nd
    | doFailover name => exact colodDoFailover_refuses_iff env name nd
    | _ => simp [Request.runtimeDomain] at hdomain
  rw [hrefuses]
  exact or_iff_not_imp_left.symm

def EventOnlyLive (server : Server) : ServerEvent → Prop
  | .request req env _ => server.up = true → OnlyLive env req server.node
  | _ => True

def EventLiveOrStopped (server : Server) : ServerEvent → Prop
  | .request req env _ => server.up = true → LiveOrStopped env req server.node
  | _ => True

/-- In a run the runtime commands reach only VMs alive in COLO mode exactly when
every other such request is stopped by the stored status, the flag, its
arguments or the QMP port. -/
theorem along_onlyLive_iff (server : Server) (events : List ServerEvent) :
    Along Server.step EventOnlyLive server events ↔
      Along Server.step EventLiveOrStopped server events := by
  apply along_congr
  intro server event
  cases event with
  | request req env script => exact forall_congr' fun _ => onlyLive_iff env req server.node
  | _ => exact Iff.rfl

/-- `d` is enabled by the peer and started here without `--colo`. -/
def startedPlain : List ServerEvent :=
  [.request (.define "/root/d.yaml") (.smooth 100) [],
    .request (.peerSaveDomain ⟨-1, "d", .shutOff, true, .secondary, "d.yaml"⟩) (.smooth 100) [],
    .request (.start "d" false) (.smooth 100) []]

theorem not_along_onlyLive_startedPlain :
    ¬ Along Server.step EventOnlyLive (Server.boot .fresh)
      (startedPlain ++ [.request (.doFailover "d") (.smooth 100) []]) := by
  intro h
  obtain ⟨hlast, -⟩ := (along_append.mp h).2
  have hlive := (onlyLive_iff (.smooth 100) (.doFailover "d") _).mp
    (hlast (by decide +kernel)) "d" rfl
  rcases hlive with hlive | hshutOff | hdisabled | ⟨hprimary, -⟩ | hconnects | ⟨-, hsend⟩
  · revert hlive
    unfold Node.LiveColo
    decide +kernel
  · revert hshutOff
    decide +kernel
  · revert hdisabled
    decide +kernel
  · revert hprimary
    decide +kernel
  · exact absurd hconnects (by decide)
  · exact absurd hsend (by decide)

end ColoManage
