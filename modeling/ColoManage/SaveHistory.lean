import ColoManage.Moves
import ColoManage.SaveDocument

/-!
# The save file along a run

Whatever colod does in a run, its save file changes by the calls of
`SaveDocument` and by nothing else.  The table of the system model is therefore,
at every moment, what the document on disk loads as.
-/

namespace ColoManage

open Resumption EventSystem SaveDocument

/-! ## What colod writes -/

theorem applyAll_append (calls calls' : List SaveCall) (sf : SaveFile) :
    (applyAll (calls ++ calls') sf).2 = (applyAll calls' (applyAll calls sf).2).2 := by
  induction calls generalizing sf with
  | nil => rfl
  | cons call calls ih => exact ih (call.apply sf).2

/-- The save file of the second node comes from the one of the first by writes. -/
def Writes (nd nd' : Node) : Prop :=
  ∃ calls : List SaveCall, (∀ call ∈ calls, call.Fits) ∧ nd'.save = (applyAll calls nd.save).2

section

variable {env : Env} {req : Request} {start first nd nd' nd'' : Node}

theorem Writes.of_save_eq (h : nd'.save = nd.save) : Writes nd nd' := ⟨[], by simp, h⟩

theorem Writes.trans (h : Writes nd nd') (h' : Writes nd' nd'') : Writes nd nd'' := by
  obtain ⟨calls, hcalls, hsave⟩ := h
  obtain ⟨calls', hcalls', hsave'⟩ := h'
  refine ⟨calls ++ calls', List.forall_mem_append.mpr ⟨hcalls, hcalls'⟩, ?_⟩
  rw [hsave', hsave, applyAll_append]

theorem Writes.one (call : SaveCall) (hcall : call.Fits) (h : nd'.save = (call.apply nd.save).2) :
    Writes nd nd' := ⟨[call], by simpa using hcall, h⟩

/-- The pids of the machine are of the type `int`, and a definition is not copied over the
save file. -/
structure SafeRequest (env : Env) (req : Request) (nd : Node) : Prop where
  fork : ∀ pid, env.fork = some pid → FitsInt pid
  define : ∀ path doc d, req = .define path → nd.loadFile path = some doc →
    vmConfigParse doc = .ok d → nd.definitionFile d.name ≠ some defaultSaveFile

theorem writes_move (hsafe : SafeRequest env req start) (h : Move env req start nd nd') :
    Writes nd nd' := by
  cases h with
  | talked htalked => exact .of_save_eq htalked.save
  | touched domainName => exact .of_save_eq rfl
  | swept hdead => exact .one (.removePid _) trivial rfl
  | savedStatus cs => exact .one (.saveStatus cs) trivial rfl
  | wrote hreq hload hparse hfile =>
      refine .of_save_eq ?_
      have hpath := hsafe.define _ _ _ hreq hload hparse
      rw [Node.writeFile, if_neg fun hsave => hpath (hfile.trans (congrArg some hsave))]
  | @defined path ds save nd hreq hpid hstatus henable hsave =>
      refine .one (.saveInfo ds) trivial ?_
      simp only [SaveCall.apply, hsave]
      rfl
  | @undefined domainName nd hreq => exact .one (.undefine domainName) trivial rfl
  | @launched domainName colo d cmd pid os status nd hreq henable hget hfork hstatus =>
      refine .one (.savePid d.name pid) (hsafe.fork pid ?_) rfl
      unfold ProcessTable.fork at hfork
      split at hfork
      · cases hfork
      · split at hfork
        · cases hfork
          assumption
        · cases hfork
  | forkFailed hreq => exact .of_save_eq rfl
  | @missed domainName pid events nd hreq hpid hevents =>
      exact .one (.removePid domainName) trivial rfl
  | @killed domainName pid events nd hreq hpid hevents hstarted hsave =>
      exact .one (.removePid domainName) trivial rfl
  | flagged value role hreq => exact .of_save_eq rfl
  | @savedEnable domainName nd hreq => exact .one (.setEnable domainName _) trivial rfl
  | @disabled domainName nd hreq => exact .one (.setDisable domainName) trivial rfl
  | failedOver hreq hold hnew hrole => exact .of_save_eq rfl
  | @peerSaved ds save nd hreq hsave =>
      refine .one (.saveInfo (mirrorDomain ds)) trivial ?_
      simp only [SaveCall.apply, hsave]
      rfl
  | @peerStored ds save nd hreq hsave =>
      have hstored : Writes nd (nd.setSave save) := by
        refine .one (.saveInfo (mirrorDomain ds)) trivial ?_
        simp only [SaveCall.apply, hsave]
        rfl
      exact hstored.trans (.one (.setEnable ds.name (mirrorDomain ds).coloStatus) trivial rfl)

theorem writes_moves (hsafe : SafeRequest env req start) (h : Moves env req start first nd) :
    Writes first nd :=
  inv_of_moves (fun _ _ hwrites hmove => hwrites.trans (writes_move hsafe hmove))
    (.of_save_eq rfl) h

/-- A request, along any script and killed in any wait. -/
theorem writes_follow (hsafe : SafeRequest env req nd) (script : Script) :
    Writes nd ((handle env req nd).follow Node.osAfter script).state :=
  Act.state_follow_of_legs (S := Writes) (fun h₁ h₂ => h₁.trans h₂)
    (fun events nd => Node.apart_osAfter nd events) (fun _ _ => .of_save_eq rfl)
    (fun _ _ hmoves => writes_moves hsafe hmoves) (handle_moving env req nd) script

end

/-! ## Runs -/

def SafeEvent (server : Server) : ServerEvent → Prop
  | .request req env _ => SafeRequest env req server.node
  | _ => True

theorem writes_step {server : Server} {event : ServerEvent} (hsafe : SafeEvent server event) :
    Writes server.node (server.step event).node := by
  cases event with
  | request req env script =>
      rw [Server.node_step_request]
      split
      · exact writes_follow hsafe script
      · exact .of_save_eq rfl
  | restart => exact .of_save_eq rfl
  | os event => exact .of_save_eq rfl
  | writeFile path doc =>
      refine .of_save_eq ?_
      by_cases hpath : path = defaultSaveFile
      · simp [Server.step, hpath]
      · simp [Server.step, hpath, Node.writeFile]

theorem writes_run {server : Server} {events : List ServerEvent}
    (hrun : Along Server.step SafeEvent server events) :
    Writes server.node (events.foldl Server.step server).node := by
  induction events generalizing server with
  | nil => exact .of_save_eq rfl
  | cons event events ih => exact (writes_step hrun.1).trans (ih hrun.2)

/-- A domain is defined on a new machine and started, its VM dies, and colod restarts. -/
def shortHistory : List ServerEvent :=
  [.request (.define "/root/d.yaml") (.smooth 100) [],
    .request (.start "d" false) (.smooth 100) [], .os (.exit 100), .restart]

end ColoManage
