import ColoManage.Library.Forking

/-!
# What every process of a pool keeps

A property `I` of the state of a process is to hold of all processes of a pool, each seen
whenever it has come to the end of a leg.  A request may be `Good` or not in the state in
which it is taken.  The handlers keep `I` on good requests and lose it on the others, and
a child whose command does not start loses it in its first leg.  Then a pool keeps `I`
exactly as long as it takes good requests and the command of every child starts:
`settled_step_iff` says so of one event.
-/

namespace Forking

open Resumption EventSystem

variable {σ Q R C α ρ ε : Type} {rely : σ → σ → Prop} {I : σ → Prop}

namespace Task

/-- Every child of the program, whatever it starts from, has `B`. -/
def Children (B : Task σ Q R C α → Prop) : Task σ Q R C α → Prop
  | .done _ _ => True
  | .crash _ => True
  | .await _ _ resume => ∀ answer state, (resume answer state).Children B
  | .fork _ _ child rest => (∀ state, B (child state)) ∧ rest.Children B

theorem children_ofAct (B : Task σ Q R C α → Prop) (act : Act σ Q R α) :
    (ofAct act).Children B := by
  induction act with
  | done value state => trivial
  | crash state => trivial
  | await query state resume ih => exact ih

/-- The child does not keep `I` when it carries on. -/
def Strays (I : σ → Prop) (child : Task σ Q R C α) : Prop := ¬I child.parent.stop

/-- The first process keeps `I`, and its children stray. -/
def Kept (rely : σ → σ → Prop) (I : σ → Prop) : Task σ Q R C α → Prop
  | .done _ state => I state
  | .crash state => I state
  | .await _ state resume =>
      I state ∧ ∀ answer state', rely state state' → (resume answer state').Kept rely I
  | .fork _ _ child rest => (∀ state, (child state).Strays I) ∧ rest.Kept rely I

theorem kept_of_legs {G : Q → σ → Prop} {first : σ} {task : Task σ Q R C α}
    (hlegs : task.parent.Legs rely (fun _ state => I state) G first)
    (hchildren : task.Children (Strays I)) : task.Kept rely I := by
  induction task generalizing first with
  | done value state => exact hlegs
  | crash state => exact hlegs
  | await query state resume ih =>
      refine ⟨hlegs.1.1, fun answer state' hrely => ?_⟩
      exact ih answer state' (hlegs.2 answer state' hrely) (hchildren answer state')
  | fork command state child rest ihchild ihrest =>
      exact ⟨hchildren.1, ihrest hlegs hchildren.2⟩

end Task

/-- The process has come to the end of a leg. -/
def Phase.settled : Phase σ Q R C α → Bool
  | .idle => true
  | .waiting _ _ _ => true
  | .died => true
  | _ => false

/-- `I` holds of every process that has come to the end of a leg. -/
def Settled (service : Service ρ ε σ Q R C α) (I : σ → Prop) (pool : Pool σ Q R C α) : Prop :=
  ∀ (i : ℕ) (p : Process σ Q R C α), pool.processes[i]? = some p → p.phase.settled = true →
    I (service.share p.memory pool.world)

/-- A request is taken in a state in which it is good. -/
def Takes (service : Service ρ ε σ Q R C α) (Good : ρ → σ → Prop) (pool : Pool σ Q R C α) :
    Event ρ ε R → Prop
  | .request i req => ∀ memory, pool.processes[i]? = some ⟨memory, .idle⟩ →
      Good req (service.share memory pool.world)
  | _ => True

/-- What the service has to do with `I`.  `rely` bounds what the world does to a process
that waits. -/
structure Service.Holds (service : Service ρ ε σ Q R C α) (rely : σ → σ → Prop)
    (I : σ → Prop) (Good : ρ → σ → Prop) : Prop where
  refl : ∀ state, rely state state
  trans : ∀ {s s' s''}, rely s s' → rely s' s'' → rely s s''
  share : ∀ state, service.share state state = state
  change : ∀ memory world event,
    rely (service.share memory world) (service.share memory (service.change event world))
  inv : ∀ {s s'}, I s → rely s s' → I s'
  kept : ∀ {req state}, I state → Good req state → (service.serve req state).Kept rely I
  lost : ∀ {req state}, I state → ¬Good req state → ¬I (service.serve req state).parent.stop

/-- Behind the first process there are commands, and children that are about to stray. -/
structure Behind (I : σ → Prop) (pool : Pool σ Q R C α) : Prop where
  unsettled : ∀ (i : ℕ) (p : Process σ Q R C α), i ≠ 0 → pool.processes[i]? = some p →
    p.phase.settled = false
  strays : ∀ (i : ℕ) (memory : σ) (request : ℕ) (command : C) (child : σ → Task σ Q R C α),
    pool.processes[i]? = some ⟨memory, .forked request command child⟩ →
      ∀ state, (child state).Strays I

/-- What holds of a pool in which no child has strayed: the first process, where it waits,
goes on to keep `I`. -/
structure Tended (service : Service ρ ε σ Q R C α) (rely : σ → σ → Prop) (I : σ → Prop)
    (pool : Pool σ Q R C α) : Prop where
  orderly : Orderly pool
  behind : Behind I pool
  waits : ∀ (memory : σ) (request : ℕ) (query : Q) (resume : R → σ → Task σ Q R C α),
    pool.processes[0]? = some ⟨memory, .waiting request query resume⟩ →
      ∀ answer state, rely (service.share memory pool.world) state →
        (resume answer state).Kept rely I

section

variable {service : Service ρ ε σ Q R C α} {Good : ρ → σ → Prop} {pool : Pool σ Q R C α}

/-! ## One leg -/

/-- Where a process is after a leg. -/
theorem settle_self {i : ℕ} (hi : i < pool.processes.length) (request : ℕ)
    (task : Task σ Q R C α) :
    (pool.settle i request task).world = task.parent.stop ∧
      ∃ phase, (pool.settle i request task).processes[i]? = some ⟨task.parent.stop, phase⟩ ∧
        phase.settled = true := by
  induction task generalizing pool with
  | done value state => exact ⟨rfl, .idle, by simp [Pool.settle, Pool.put, hi]; rfl, rfl⟩
  | crash state => exact ⟨rfl, .died, by simp [Pool.settle, Pool.put, hi]; rfl, rfl⟩
  | await query state resume ih =>
      exact ⟨rfl, .waiting request query resume, by simp [Pool.settle, Pool.put, hi]; rfl, rfl⟩
  | fork command state child rest ihchild ihrest =>
      refine ihrest ?_
      rw [List.length_append]
      omega

theorem run_self {i : ℕ} (hi : i < pool.processes.length) (request : ℕ)
    (task : Task σ Q R C α) :
    (pool.run i request task).world = task.parent.stop ∧
      ∃ phase, (pool.run i request task).processes[i]? = some ⟨task.parent.stop, phase⟩ ∧
        phase.settled = true := by
  refine settle_self ?_ request task
  exact hi

/-- A leg of a process that does not keep `I`. -/
theorem not_settled_run (hservice : service.Holds rely I Good) {i : ℕ}
    (hi : i < pool.processes.length) (request : ℕ) {task : Task σ Q R C α}
    (hlost : ¬I task.parent.stop) : ¬Settled service I (pool.run i request task) := by
  intro h
  obtain ⟨hworld, phase, hp, hphase⟩ := run_self hi request task
  have hstate := h i _ hp hphase
  rw [hworld, hservice.share] at hstate
  exact hlost hstate

/-- A child joins the others. -/
theorem Behind.fork (h : Behind I pool) {state : σ} {request : ℕ} {command : C}
    {child : σ → Task σ Q R C α} (hchild : ∀ state, (child state).Strays I) :
    Behind I { pool with
      processes := pool.processes ++ [⟨state, .forked request command child⟩] } := by
  constructor
  · intro i q hi hq
    rw [List.getElem?_append] at hq
    split at hq
    · exact h.unsettled i q hi hq
    · obtain rfl := List.mem_singleton.mp (List.mem_of_getElem? hq)
      rfl
  · intro i memory request' command' child' hq
    rw [List.getElem?_append] at hq
    split at hq
    · exact h.strays i memory request' command' child' hq
    · cases List.mem_singleton.mp (List.mem_of_getElem? hq)
      exact hchild

/-- The first process has come to the end of a leg, and the others are as before. -/
theorem tended_put (hservice : service.Holds rely I Good) (hbehind : Behind I pool)
    {p : Process σ Q R C α} (hp : p.phase.settled = true) (hI : I p.memory)
    (hwaits : ∀ request query resume, p.phase = .waiting request query resume →
      ∀ answer state, rely p.memory state → (resume answer state).Kept rely I)
    {pool' : Pool σ Q R C α} (horderly : Orderly pool') (hworld : pool'.world = p.memory)
    (hprocesses : pool'.processes = pool.processes.set 0 p) :
    Tended service rely I pool' ∧ Settled service I pool' := by
  have hfirst : ∀ q, pool'.processes[0]? = some q → q = p := by
    intro q hq
    rw [hprocesses, List.getElem?_set] at hq
    split at hq
    · split at hq
      · exact (Option.some.inj hq).symm
      · cases hq
    · rename_i hne
      exact absurd rfl hne
  have hrest : ∀ (i : ℕ) (q : Process σ Q R C α), i ≠ 0 → pool'.processes[i]? = some q →
      pool.processes[i]? = some q := by
    intro i q hi hq
    rw [hprocesses, List.getElem?_set_ne (Ne.symm hi)] at hq
    exact hq
  refine ⟨⟨horderly, ⟨?_, ?_⟩, ?_⟩, ?_⟩
  · exact fun i q hi hq => hbehind.unsettled i q hi (hrest i q hi hq)
  · intro i memory request command child hq
    by_cases hi : i = 0
    · subst hi
      have heq := hfirst _ hq
      subst heq
      cases hp
    · exact hbehind.strays i memory request command child (hrest i _ hi hq)
  · intro memory request query resume hq answer state hrely
    have heq := hfirst _ hq
    subst heq
    rw [hworld, hservice.share] at hrely
    exact hwaits request query resume rfl answer state hrely
  · intro i q hq hsettled
    by_cases hi : i = 0
    · subst hi
      rw [hfirst q hq, hworld, hservice.share]
      exact hI
    · rw [hbehind.unsettled i q hi (hrest i q hi hq)] at hsettled
      cases hsettled

/-- A leg of the first process that keeps `I`. -/
theorem tended_settle (hservice : service.Holds rely I Good) {request : ℕ}
    (hworking : Working request pool) (hbehind : Behind I pool) {task : Task σ Q R C α}
    (hkept : task.Kept rely I) :
    Tended service rely I (pool.settle 0 request task) ∧
      Settled service I (pool.settle 0 request task) := by
  induction task generalizing pool with
  | done value state =>
      exact tended_put hservice hbehind (p := ⟨state, .idle⟩) rfl hkept (by simp)
        (orderly_settle hworking _) rfl rfl
  | crash state =>
      exact tended_put hservice hbehind (p := ⟨state, .died⟩) rfl hkept (by simp)
        (orderly_settle hworking _) rfl rfl
  | await query state resume ih =>
      refine tended_put hservice hbehind (p := ⟨state, .waiting request query resume⟩) rfl
        hkept.1 ?_ (orderly_settle hworking _) rfl rfl
      intro request' query' resume' hphase
      cases hphase
      exact hkept.2
  | fork command state child rest ihchild ihrest =>
      refine ihrest ⟨?_, by simp, hworking.answers, hworking.old, hworking.recent,
        hworking.unanswered⟩ (hbehind.fork hkept.1) hkept.2
      intro i q hi hq
      rw [List.getElem?_append] at hq
      split at hq
      · exact at_of_ne hi (hworking.others i q hi hq)
      · obtain rfl := List.mem_singleton.mp (List.mem_of_getElem? hq)
        exact hi

theorem tended_run (hservice : service.Holds rely I Good) {request : ℕ}
    (h : Tended service rely I pool) {pool' : Pool σ Q R C α}
    (hworking : Working request pool') (hprocesses : pool'.processes = pool.processes)
    {task : Task σ Q R C α} (hkept : task.Kept rely I) :
    Tended service rely I (pool'.run 0 request task) ∧
      Settled service I (pool'.run 0 request task) := by
  have hlegs : Working request { pool' with legs := pool'.legs ++ [⟨request, 0⟩] } :=
    ⟨fun i p hi hp => at_of_ne hi (hworking.others i p hi hp), hworking.nonempty,
      hworking.answers, hworking.old, hworking.recent, hworking.unanswered⟩
  refine tended_settle hservice hlegs ⟨?_, ?_⟩ hkept
  · intro i q hi hq
    exact h.behind.unsettled i q hi (hprocesses ▸ hq)
  · intro i memory request command child hq
    exact h.behind.strays i memory request command child (hprocesses ▸ hq)

/-! ## One event -/

/-- The first process starts anew. -/
def Pool.restart (state : σ) (pool : Pool σ Q R C α) : Pool σ Q R C α :=
  pool.put 0 ⟨state, .idle⟩

theorem Orderly.restart (h : Orderly pool) (state : σ) : Orderly (pool.restart state) := by
  refine ⟨?_, ?_, h.answers, h.old⟩
  · intro i p hp
    by_cases hi : i = 0
    · subst hi
      rw [Pool.restart, Pool.put, List.getElem?_set_self (List.length_pos_iff.mpr h.nonempty)] at hp
      obtain rfl := Option.some.inj hp
      rfl
    · rw [Pool.restart, Pool.put, List.getElem?_set_ne (Ne.symm hi)] at hp
      exact at_of_ne hi (h.phases i p hp)
  · simpa [Pool.restart, Pool.put] using h.nonempty

theorem tended_restart (hservice : service.Holds rely I Good)
    (h : Tended service rely I pool) {state : σ} (hI : I state) :
    Tended service rely I (pool.restart state) ∧ Settled service I (pool.restart state) :=
  tended_put hservice h.behind (p := ⟨state, .idle⟩) rfl hI (by simp)
    (h.orderly.restart state) rfl rfl

theorem settled_restart_iff (hservice : service.Holds rely I Good)
    (h : Tended service rely I pool) (state : σ) :
    Settled service I (pool.restart state) ↔ I state := by
  refine ⟨fun hI => ?_, fun hI => (tended_restart hservice h hI).2⟩
  have hp : (pool.restart state).processes[0]? = some ⟨state, .idle⟩ :=
    List.getElem?_set_self (List.length_pos_iff.mpr h.orderly.nonempty)
  have hstate := hI 0 _ hp rfl
  rwa [Pool.restart, Pool.put, hservice.share] at hstate

theorem tended_boot (hservice : service.Holds rely I Good) {state : σ} (hI : I state) :
    Tended service rely I (Pool.boot state) ∧ Settled service I (Pool.boot state) := by
  have hprocesses : (Pool.boot state : Pool σ Q R C α).processes =
      (Pool.boot state : Pool σ Q R C α).processes.set 0 ⟨state, .idle⟩ := rfl
  refine tended_put hservice ⟨?_, ?_⟩ rfl hI (by simp) (orderly_boot state) rfl hprocesses
  · intro i q hi hq
    simp [Pool.boot, hi] at hq
  · intro i memory request command child hq
    rcases Nat.eq_zero_or_pos i with rfl | hi
    · simp [Pool.boot] at hq
    · simp [Pool.boot, Nat.ne_of_gt hi] at hq

/-- The world moves on around the processes. -/
theorem tended_outside (hservice : service.Holds rely I Good)
    (h : Tended service rely I pool) (hI : Settled service I pool) (event : ε) :
    Tended service rely I (service.step pool (.outside event)) ∧
      Settled service I (service.step pool (.outside event)) := by
  have hchange := fun memory => hservice.change memory pool.world event
  refine ⟨⟨h.orderly.step trivial, ⟨h.behind.unsettled, h.behind.strays⟩, ?_⟩, ?_⟩
  · intro memory request query resume hp answer state hrely
    exact h.waits memory request query resume hp answer state
      (hservice.trans (hchange memory) hrely)
  · exact fun i p hp hphase => hservice.inv (hI i p hp hphase) (hchange p.memory)

/-- The command of a child starts. -/
theorem tended_replaced (h : Tended service rely I pool) (hI : Settled service I pool) {i : ℕ}
    (hi : i ≠ 0) (memory : σ) :
    Tended service rely I { pool with processes := pool.processes.set i ⟨memory, .replaced⟩ } ∧
      Settled service I { pool with processes := pool.processes.set i ⟨memory, .replaced⟩ } := by
  have hold : ∀ (j : ℕ) (q : Process σ Q R C α),
      (pool.processes.set i ⟨memory, .replaced⟩)[j]? = some q →
        pool.processes[j]? = some q ∨ q = ⟨memory, .replaced⟩ := by
    intro j q hq
    rw [List.getElem?_set] at hq
    split at hq
    · split at hq
      · exact .inr (Option.some.inj hq).symm
      · cases hq
    · exact .inl hq
  refine ⟨⟨h.orderly.replaces hi memory, ⟨?_, ?_⟩, ?_⟩, ?_⟩
  · intro j q hj hq
    rcases hold j q hq with hq | rfl
    · exact h.behind.unsettled j q hj hq
    · rfl
  · intro j memory' request command child hq
    rcases hold j _ hq with hq | hq
    · exact h.behind.strays j memory' request command child hq
    · cases hq
  · intro memory' request query resume hq
    rcases hold 0 _ hq with hq | hq
    · exact h.waits memory' request query resume hq
    · cases hq
  · intro j q hq hphase
    rcases hold j q hq with hq | rfl
    · exact hI j q hq hphase
    · cases hphase

/-- An event that starts its child and takes a good request. -/
theorem tended_step (hservice : service.Holds rely I Good) (h : Tended service rely I pool)
    (hI : Settled service I pool) {event : Event ρ ε R} (hstarts : ExecStarts pool event)
    (htakes : Takes service Good pool event) :
    Tended service rely I (service.step pool event) ∧
      Settled service I (service.step pool event) := by
  cases event with
  | request i req =>
      unfold Service.step
      dsimp only
      split
      · rename_i memory hp
        obtain rfl : i = 0 := h.orderly.phases i _ hp
        exact tended_run hservice h h.orderly.takes rfl
          (hservice.kept (hI 0 _ hp rfl) (htakes memory hp))
      · exact ⟨h, hI⟩
  | answer i reply =>
      unfold Service.step
      dsimp only
      split
      · rename_i memory request query resume hp
        obtain ⟨rfl, hworking⟩ := h.orderly.resumes hp
        exact tended_run hservice h hworking rfl
          (h.waits memory request query resume hp reply _ (hservice.refl _))
      · exact ⟨h, hI⟩
  | exec i starts =>
      unfold Service.step
      dsimp only
      split
      · rename_i memory request command child hp
        have hi : i ≠ 0 := h.orderly.phases i _ hp
        rw [hstarts _ _ _ _ hp, if_pos rfl]
        exact tended_replaced h hI hi memory
      · exact ⟨h, hI⟩
  | outside event => exact tended_outside hservice h hI event

/-- An event of another kind. -/
theorem not_settled_step (hservice : service.Holds rely I Good)
    (h : Tended service rely I pool) (hI : Settled service I pool) {event : Event ρ ε R}
    (hevent : ExecStarts pool event → ¬Takes service Good pool event) :
    ¬Settled service I (service.step pool event) := by
  have hlength : ∀ {i : ℕ} {p : Process σ Q R C α}, pool.processes[i]? = some p →
      i < pool.processes.length := fun hp => (List.getElem?_eq_some_iff.mp hp).1
  cases event with
  | request i req =>
      obtain ⟨memory, htakes⟩ := not_forall.mp (hevent trivial)
      obtain ⟨hp, hgood⟩ := Classical.not_imp.mp htakes
      simp only [Service.step, hp]
      refine not_settled_run hservice ?_ _ (hservice.lost (hI i _ hp rfl) hgood)
      exact hlength hp
  | answer i reply => exact absurd trivial (hevent trivial)
  | exec i starts =>
      have hstarts : ¬ExecStarts pool (.exec i starts : Event ρ ε R) := fun hstarts =>
        hevent hstarts trivial
      cases starts with
      | true => exact absurd (fun _ _ _ _ _ => rfl) hstarts
      | false =>
          simp only [ExecStarts, not_forall] at hstarts
          obtain ⟨memory, request, command, child, hp, -⟩ := hstarts
          simp only [Service.step, hp, Bool.false_eq_true, if_false]
          exact not_settled_run hservice (hlength hp) _ (h.behind.strays i _ _ _ _ hp _)
  | outside event => exact absurd trivial (hevent trivial)

/-- One event keeps `I` in all processes exactly when it takes a good request, if any, and
the command of its child starts, if it forked one. -/
theorem settled_step_iff (hservice : service.Holds rely I Good)
    (h : Tended service rely I pool) (hI : Settled service I pool) (event : Event ρ ε R) :
    Settled service I (service.step pool event) ↔
      ExecStarts pool event ∧ Takes service Good pool event := by
  constructor
  · intro hnext
    by_contra hevent
    exact not_settled_step hservice h hI (not_and.mp hevent) hnext
  · exact fun hevent => (tended_step hservice h hI hevent.1 hevent.2).2

end

end Forking
