import ColoManage.Moves
import ColoManage.Library.EventSystem

/-!
# One colod and its children

One node, event by event.  A handler that waits for the peer is part of the
state, the machine moves on meanwhile, and any answer may come.  The VMs that
the running colod has launched are its children: it never waits for one, so the
system reaps none of them before colod itself ends.
-/

namespace ColoManage

open Resumption EventSystem Relation

namespace ProcessTable

/-- A VM launched under this name has the pid, running or a zombie. -/
def Has (os : ProcessTable) (pid : ℤ) (name : String) : Prop :=
  ∃ vm ∈ os.vms, vm.pid = pid ∧ vm.name = name

end ProcessTable

namespace Node

/-- The effects from the point `born` of the log on. -/
def since (born : ℕ) (nd : Node) : List Effect := nd.log.drop born

def launchedSince (born : ℕ) (nd : Node) : List ℤ := (nd.since born).filterMap Effect.launchedPid

end Node

/-- A handler that waits for the peer. -/
structure Job where
  req : Request
  env : Env
  resume : Option ValueT → Node → Colod

/-- `born` is the length of the log when the running colod was started. -/
structure Host where
  node : Node
  up : Bool
  job : Option Job
  born : ℕ

inductive HostEvent
  | request (req : Request) (env : Env)
  | answer (reply : Option ValueT)
  | os (event : OsEvent)
  | restart
  | writeFile (path : String) (doc : Yaml.Node)

namespace Host

def settle (req : Request) (env : Env) (act : Colod) (host : Host) : Host :=
  match act with
  | .done _ nd => { host with node := nd, job := none }
  | .crash nd => { host with node := nd, up := false, job := none }
  | .await _ nd resume => { host with node := nd, job := some ⟨req, env, resume⟩ }

def idle (host : Host) : Bool := host.up && host.job.isNone

def step (host : Host) : HostEvent → Host
  | .request req env =>
      if host.idle then host.settle req env (handle env req host.node) else host
  | .answer reply =>
      match host.job with
      | some job => host.settle job.req job.env (job.resume reply host.node)
      | none => host
  | .os event => { host with node := host.node.osAfter [event] }
  | .restart => ⟨host.node.rsInit, true, none, host.node.log.length⟩
  | .writeFile path doc =>
      if path = defaultSaveFile then host else { host with node := host.node.writeFile path doc }

def boot (nd : Node) : Host := ⟨nd.rsInit, true, none, nd.log.length⟩

/-- The VMs that the running colod has launched; after a death of colod the
system takes them over. -/
def children (host : Host) : List ℤ :=
  if host.up then host.node.launchedSince host.born else []

/-- No child of colod is reaped. -/
def Legal (host : Host) : HostEvent → Prop
  | .os event => ∀ pid ∈ host.children, event ≠ .reap pid
  | .request _ env =>
      ∀ pid ∈ host.children, .reap pid ∉ env.beforeProbe ++ env.beforeKill
  | _ => True

instance (host : Host) (event : HostEvent) : Decidable (host.Legal event) :=
  match event with
  | .os event => inferInstanceAs (Decidable (∀ pid ∈ host.children, event ≠ .reap pid))
  | .request _ env => inferInstanceAs (Decidable
      (∀ pid ∈ host.children, .reap pid ∉ env.beforeProbe ++ env.beforeKill))
  | .answer _ => .isTrue trivial
  | .restart => .isTrue trivial
  | .writeFile _ _ => .isTrue trivial

/-- The request on which colod works in this event. -/
def working (host : Host) : HostEvent → Option Request
  | .request req _ => if host.idle then some req else none
  | .answer _ => host.job.map Job.req
  | _ => none

end Host

/-! ## Invariants -/

namespace Host

/-- While colod is up, `I` holds of its node, and `B` of a handler at work: of its
request, the node in which it was taken and the node it is in. -/
structure Holds (I : ℕ → Node → Prop) (B : ℕ → Env → Request → Node → Node → Prop)
    (host : Host) : Prop where
  node : host.up = true → I host.born host.node
  job : ∀ job, host.job = some job → host.up = true ∧ ∃ start,
    B host.born job.env job.req start host.node ∧ ∀ answer nd, host.node.Apart nd →
      Moving job.env job.req start nd (job.resume answer nd)

variable {I : ℕ → Node → Prop} {B : ℕ → Env → Request → Node → Node → Prop} {host : Host}

theorem holds_boot (hrestart : ∀ nd : Node, I nd.log.length nd.rsInit) (nd : Node) :
    Holds I B (boot nd) :=
  ⟨fun _ => hrestart nd, by simp [boot]⟩

theorem holds_settle {env : Env} {req : Request} {start first : Node}
    (hmove : ∀ nd nd', B host.born env req start nd → Move env req start nd nd' →
      B host.born env req start nd')
    (hend : ∀ nd, B host.born env req start nd → I host.born nd) (hup : host.up = true)
    (hfirst : B host.born env req start first) {act : Colod}
    (hact : Moving env req start first act) : Holds I B (host.settle req env act) := by
  have hall : ∀ nd, Moves env req start first nd → B host.born env req start nd :=
    fun nd hmoves => inv_of_moves hmove hfirst hmoves
  unfold settle
  cases act with
  | done value nd => exact ⟨fun _ => hend nd (hall nd hact), by simp⟩
  | crash nd => exact ⟨by simp, by simp⟩
  | await query nd resume =>
      obtain ⟨⟨hmoves, -⟩, hresume⟩ := hact
      refine ⟨fun _ => hend nd (hall nd hmoves), ?_⟩
      intro job hjob
      obtain rfl := Option.some.inj hjob
      exact ⟨hup, start, hall nd hmoves, hresume⟩

/-- One event keeps an invariant when a restart sets it up and the moves of the
handlers, the machine and other writers keep it. -/
theorem holds_step {C : Host → HostEvent → Prop}
    (hrestart : ∀ nd : Node, I nd.log.length nd.rsInit)
    (hbegin : ∀ host req env, I host.born host.node → host.up = true →
      C host (.request req env) → B host.born env req host.node host.node)
    (hmove : ∀ born env req start nd nd', B born env req start nd →
      Move env req start nd nd' → B born env req start nd')
    (hend : ∀ born env req start nd, B born env req start nd → I born nd)
    (hos : ∀ host event, host.up = true → C host (.os event) →
      (I host.born host.node → I host.born (host.node.osAfter [event])) ∧
        ∀ env req start, B host.born env req start host.node →
          B host.born env req start (host.node.osAfter [event]))
    (hwrite : ∀ born nd path doc, path ≠ defaultSaveFile →
      (I born nd → I born (nd.writeFile path doc)) ∧
        ∀ env req start, B born env req start nd → B born env req start (nd.writeFile path doc))
    {event : HostEvent} (hevent : C host event) (h : Holds I B host) :
    Holds I B (host.step event) := by
  have hapart : ∀ nd, host.node.Apart nd → (host.up = true → I host.born nd) →
      (∀ env req start, host.up = true → B host.born env req start host.node →
        B host.born env req start nd) → Holds I B { host with node := nd } := by
    intro nd hnode hI hB
    refine ⟨hI, ?_⟩
    intro job hjob
    obtain ⟨hup, start, hbusy, hresume⟩ := h.job job hjob
    exact ⟨hup, start, hB _ _ _ hup hbusy,
      fun answer nd' hnode' => hresume answer nd' (hnode.trans hnode')⟩
  unfold step
  cases event with
  | request req env =>
      dsimp only
      split
      · rename_i hidle
        simp only [idle, Bool.and_eq_true] at hidle
        exact holds_settle (hmove _ _ _ _) (hend _ _ _ _) hidle.1
          (hbegin host req env (h.node hidle.1) hidle.1 hevent) (handle_moving env req _)
      · exact h
  | answer reply =>
      dsimp only
      split
      · rename_i job hjob
        obtain ⟨hup, start, hbusy, hresume⟩ := h.job job hjob
        exact holds_settle (hmove _ _ _ _) (hend _ _ _ _) hup hbusy
          (hresume reply _ (Node.apart_refl _))
      · exact h
  | os event =>
      exact hapart _ (Node.apart_osAfter _ _)
        (fun hup => (hos host event hup hevent).1 (h.node hup))
        fun env req start hup => (hos host event hup hevent).2 env req start
  | restart => exact ⟨fun _ => hrestart host.node, by simp⟩
  | writeFile path doc =>
      dsimp only
      split
      · exact h
      · rename_i hpath
        exact hapart _ (Node.apart_writeFile hpath _ _)
          (fun hup => (hwrite _ _ path doc hpath).1 (h.node hup))
          fun env req start _ => (hwrite _ _ path doc hpath).2 env req start

end Host

/-! ## Zombies stay -/

namespace ProcessTable

variable {os os' : ProcessTable} {pid : ℤ} {name : String}

theorem Has.kill0 (h : os.Has pid name) : os.kill0 pid = true := by
  obtain ⟨vm, hvm, rfl, -⟩ := h
  exact kill0_of_mem hvm

theorem has_map_stop {p : VmProcess → Bool} {others : List ℤ} (h : os.Has pid name) :
    Has ⟨os.vms.map fun vm => if p vm then vm.stop else vm, others⟩ pid name := by
  obtain ⟨vm, hvm, hpid, hname⟩ := h
  refine ⟨_, List.mem_map_of_mem hvm, ?_⟩
  by_cases hp : p vm = true
  · simpa [hp, VmProcess.stop] using ⟨hpid, hname⟩
  · simpa [hp] using ⟨hpid, hname⟩

theorem has_step (h : os.Has pid name) {event : OsEvent} (hevent : event ≠ .reap pid) :
    (os.step event).Has pid name := by
  cases event with
  | exit target =>
      have hstop : Has ⟨os.vms.map fun vm => if decide (vm.pid = target) then vm.stop else vm,
          os.others⟩ pid name := has_map_stop h
      simpa [step] using hstop
  | reap target =>
      obtain ⟨vm, hvm, rfl, hname⟩ := h
      have hother : vm.pid ≠ target := fun heq => hevent (by rw [heq])
      exact ⟨vm, List.mem_filter.mpr ⟨hvm, by simp [hother]⟩, rfl, hname⟩
  | appear target =>
      unfold step
      dsimp only
      split <;> exact h
  | vanish target => exact h

theorem has_after (h : os.Has pid name) {events : List OsEvent}
    (hevents : .reap pid ∉ events) : (os.after events).Has pid name := by
  induction events generalizing os with
  | nil => exact h
  | cons event events ih =>
      rw [List.mem_cons, not_or] at hevents
      exact ih (has_step h (Ne.symm hevents.1)) hevents.2

theorem has_sigkill (h : os.Has pid name) (target : ℤ) : (os.sigkill target).Has pid name :=
  has_map_stop h

theorem has_forked {answer : Option ℤ} (hfork : os.fork answer name = some (pid, os')) :
    os'.Has pid name := by
  obtain ⟨-, -, hvms⟩ := fork_eq_some hfork
  exact ⟨_, by rw [hvms]; exact List.mem_cons_self, rfl, rfl⟩

theorem has_fork (h : os.Has pid name) {answer : Option ℤ} {forked : String} {pid' : ℤ}
    (hfork : os.fork answer forked = some (pid', os')) : os'.Has pid name := by
  obtain ⟨-, -, hvms⟩ := fork_eq_some hfork
  obtain ⟨vm, hvm, hpid, hname⟩ := h
  exact ⟨vm, by rw [hvms]; exact List.mem_cons_of_mem _ hvm, hpid, hname⟩

end ProcessTable

section

variable {env : Env} {req : Request} {start nd nd' : Node} {born : ℕ}

/-- Every VM that the running colod has launched is in the table, at least as a
zombie. -/
structure Kept (born : ℕ) (nd : Node) : Prop where
  born_le : born ≤ nd.log.length
  has : ∀ name cmd pid, .launch name cmd pid ∈ nd.since born → nd.os.Has pid name

/-- Nothing that the handler's environment does reaps a child. -/
def Spared (born : ℕ) (env : Env) (req : Request) (nd : Node) : Prop :=
  ∀ domainName, req.Destroys domainName → ∀ name cmd pid, .launch name cmd pid ∈ nd.since born →
    .reap pid ∉ env.beforeProbe ++ env.beforeKill

theorem since_append {more : List Effect} (hborn : born ≤ nd.log.length)
    (hlog : nd'.log = nd.log ++ more) : nd'.since born = nd.since born ++ more := by
  unfold Node.since
  rw [hlog, List.drop_append_of_le_length hborn]

theorem mem_since_of_mem {more : List Effect} (hborn : born ≤ nd.log.length)
    (hlog : nd'.log = nd.log ++ more) {effect : Effect} (hmem : effect ∈ more) :
    effect ∈ nd'.since born := by
  rw [since_append hborn hlog]
  exact List.mem_append_right _ hmem

theorem mem_launchedSince {pid : ℤ} :
    pid ∈ nd.launchedSince born ↔ ∃ name cmd, .launch name cmd pid ∈ nd.since born := by
  unfold Node.launchedSince
  rw [List.mem_filterMap]
  constructor
  · rintro ⟨effect, heffect, hpid⟩
    cases effect with
    | launch name cmd pid' =>
        obtain rfl := Option.some.inj hpid
        exact ⟨name, cmd, heffect⟩
    | _ => simp [Effect.launchedPid] at hpid
  · rintro ⟨name, cmd, hmem⟩
    exact ⟨_, hmem, rfl⟩

/-- The VMs launched so far, after an effect that is no launch. -/
theorem launch_mem_since {more : List Effect} (hborn : born ≤ nd.log.length)
    (hlog : nd'.log = nd.log ++ more)
    (hmore : ∀ effect ∈ more, effect.launchedPid = none) {name : String} {cmd : ShellCommand}
    {pid : ℤ} (hmem : .launch name cmd pid ∈ nd'.since born) :
    .launch name cmd pid ∈ nd.since born := by
  rw [since_append hborn hlog, List.mem_append] at hmem
  refine hmem.resolve_right ?_
  intro hnew
  simpa [Effect.launchedPid] using hmore _ hnew

theorem kept_move (h : Kept born nd) (hspared : Spared born env req nd)
    (hmove : Move env req start nd nd') : Kept born nd' ∧ Spared born env req nd' := by
  have hlength : ∀ more, nd'.log = nd.log ++ more → born ≤ nd'.log.length := by
    intro more hlog
    rw [hlog, List.length_append]
    exact Nat.le_add_right_of_le h.born_le
  cases machine_of_move hmove with
  | talked hos hlog hmessages =>
      have hnone := launchedPid_of_isMessage hmessages
      refine ⟨⟨hlength _ hlog, ?_⟩, ?_⟩
      · intro name cmd pid hmem
        rw [hos]
        exact h.has name cmd pid (launch_mem_since h.born_le hlog hnone hmem)
      · intro domainName hreq name cmd pid hmem
        exact hspared domainName hreq name cmd pid (launch_mem_since h.born_le hlog hnone hmem)
  | launched hreq henable hget hfork hlog =>
      refine ⟨⟨hlength _ hlog, ?_⟩, ?_⟩
      · intro name cmd pid hmem
        rw [since_append h.born_le hlog, List.mem_append, List.mem_singleton] at hmem
        rcases hmem with hold | hnew
        · exact ProcessTable.has_fork (h.has name cmd pid hold) hfork
        · obtain ⟨rfl, -, rfl⟩ := Effect.launch.inj hnew
          exact ProcessTable.has_forked hfork
      · intro domainName hdestroys
        rcases hreq with rfl | rfl <;> rcases hdestroys with heq | heq <;> cases heq
  | missed hreq hevents hos hlog =>
      have hnothing : nd'.log = nd.log ++ [] := by rw [hlog, List.append_nil]
      have hold : ∀ name cmd pid, .launch name cmd pid ∈ nd'.since born →
          .launch name cmd pid ∈ nd.since born := fun _ _ _ =>
        launch_mem_since h.born_le hnothing (by simp)
      refine ⟨⟨hlength [] hnothing, ?_⟩, ?_⟩
      · intro name cmd pid hmem
        rw [hos]
        refine ProcessTable.has_after (h.has name cmd pid (hold name cmd pid hmem)) ?_
        exact fun hreap => hspared _ hreq name cmd pid (hold name cmd pid hmem) (hevents _ hreap)
      · intro domainName hreq name cmd pid hmem
        exact hspared domainName hreq name cmd pid (hold name cmd pid hmem)
  | killed hreq hevents hpid hstarted hsave hos hlog =>
      have hold : ∀ name cmd pid, .launch name cmd pid ∈ nd'.since born →
          .launch name cmd pid ∈ nd.since born := fun _ _ _ =>
        launch_mem_since h.born_le hlog (by simp [Effect.launchedPid])
      refine ⟨⟨hlength _ hlog, ?_⟩, ?_⟩
      · intro name cmd pid hmem
        rw [hos]
        refine ProcessTable.has_sigkill (ProcessTable.has_after (h.has name cmd pid
          (hold name cmd pid hmem)) ?_) _
        exact fun hreap => hspared _ hreq name cmd pid (hold name cmd pid hmem) (hevents _ hreap)
      · intro domainName hreq name cmd pid hmem
        exact hspared domainName hreq name cmd pid (hold name cmd pid hmem)

theorem kept_rsInit (nd : Node) : Kept nd.log.length nd.rsInit := by
  refine ⟨le_rfl, ?_⟩
  intro name cmd pid hmem
  simp [Node.since, Node.rsInit] at hmem

theorem kept_writeFile (h : Kept born nd) (path : String) (doc : Yaml.Node) :
    Kept born (nd.writeFile path doc) := by
  unfold Node.writeFile
  split
  · exact ⟨h.born_le, h.has⟩
  · exact ⟨h.born_le, h.has⟩

theorem spared_writeFile (h : Spared born env req nd) (path : String) (doc : Yaml.Node) :
    Spared born env req (nd.writeFile path doc) := by
  unfold Node.writeFile
  split <;> exact h

theorem mem_children {host : Host} (hup : host.up = true) {name : String} {cmd : ShellCommand}
    {pid : ℤ} (hmem : .launch name cmd pid ∈ host.node.since host.born) :
    pid ∈ host.children := by
  unfold Host.children
  rw [if_pos hup]
  exact mem_launchedSince.mpr ⟨name, cmd, hmem⟩

theorem kept_osAfter {host : Host} (h : Kept host.born host.node) (hup : host.up = true)
    {event : OsEvent} (hlegal : host.Legal (.os event)) :
    Kept host.born (host.node.osAfter [event]) := by
  refine ⟨h.born_le, ?_⟩
  intro name cmd pid hmem
  exact ProcessTable.has_step (h.has name cmd pid hmem) (hlegal pid (mem_children hup hmem))

theorem spared_of_legal {host : Host} (hup : host.up = true)
    (hlegal : host.Legal (.request req env)) : Spared host.born env req host.node :=
  fun _ _ _ _ pid hmem => hlegal pid (mem_children hup hmem)

/-- The children stay in every legal run. -/
theorem holds_kept_step {host : Host} {event : HostEvent} (hlegal : host.Legal event)
    (h : host.Holds Kept fun born env req _ nd => Kept born nd ∧ Spared born env req nd) :
    (host.step event).Holds Kept fun born env req _ nd =>
      Kept born nd ∧ Spared born env req nd := by
  refine Host.holds_step (C := Host.Legal) kept_rsInit ?_ ?_ ?_ ?_ ?_ hlegal h
  · exact fun _ _ _ hkept hup hlegal => ⟨hkept, spared_of_legal hup hlegal⟩
  · exact fun _ _ _ _ _ _ hbusy hmove => kept_move hbusy.1 hbusy.2 hmove
  · exact fun _ _ _ _ _ hbusy => hbusy.1
  · intro host event hup hlegal
    refine ⟨fun hkept => kept_osAfter hkept hup hlegal, ?_⟩
    exact fun _ _ _ hbusy => ⟨kept_osAfter hbusy.1 hup hlegal, hbusy.2⟩
  · intro born nd path doc _
    refine ⟨fun hkept => kept_writeFile hkept path doc, ?_⟩
    exact fun _ _ _ hbusy => ⟨kept_writeFile hbusy.1 path doc, spared_writeFile hbusy.2 path doc⟩

theorem settle_node (host : Host) (req : Request) (env : Env) (act : Colod) :
    (host.settle req env act).node = (act.follow Node.osAfter []).state := by
  cases act <;> rfl

theorem moves_settle {first : Node} {act : Colod} (h : Moving env req start first act)
    (host : Host) : Moves env req start first (host.settle req env act).node := by
  rw [settle_node]
  exact Act.follow_nil_of_legs h

/-- A colod that is not restarted goes on with its log. -/
theorem log_append_of_step {I : ℕ → Node → Prop} {B : ℕ → Env → Request → Node → Node → Prop}
    {host : Host} (h : host.Holds I B) {event : HostEvent} (hevent : event ≠ .restart) :
    (host.step event).born = host.born ∧
      ∃ more, (host.step event).node.log = host.node.log ++ more := by
  have hsame : ∃ more, host.node.log = host.node.log ++ more := ⟨[], (List.append_nil _).symm⟩
  have hsettle : ∀ env req start act, Moving env req start host.node act →
      (host.settle req env act).born = host.born ∧
        ∃ more, (host.settle req env act).node.log = host.node.log ++ more := by
    intro env req start act hact
    refine ⟨?_, log_append_of_moves (moves_settle hact host)⟩
    unfold Host.settle
    split <;> rfl
  unfold Host.step
  cases event with
  | request req env =>
      dsimp only
      split
      · exact hsettle env req _ _ (handle_moving env req _)
      · exact ⟨rfl, hsame⟩
  | answer reply =>
      dsimp only
      split
      · rename_i job hjob
        obtain ⟨-, start, -, hresume⟩ := h.job job hjob
        exact hsettle _ _ _ _ (hresume reply _ (Node.apart_refl _))
      · exact ⟨rfl, hsame⟩
  | os event => exact ⟨rfl, hsame⟩
  | restart => exact absurd rfl hevent
  | writeFile path doc =>
      dsimp only
      split
      · exact ⟨rfl, hsame⟩
      · refine ⟨rfl, ?_⟩
        unfold Node.writeFile
        split <;> exact hsame

end

/-- Define a domain and start it. -/
def startedRun : List HostEvent :=
  [.request (.define "/root/d.yaml") (.smooth 100), .request (.start "d" false) (.smooth 100)]

def destroyedRun : List HostEvent := startedRun ++ [.request (.destroy "d") (.smooth 100)]

end ColoManage
