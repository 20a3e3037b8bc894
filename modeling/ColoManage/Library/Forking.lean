import ColoManage.Library.EventSystem
import ColoManage.Library.Resumption

/-!
# Programs that fork

A `Task` is a program over a state `σ` that may, besides what an `Act` does, fork
a child for a command.  The child has a copy of the state; it is replaced by the
command, or runs on in a continuation of its own if the command does not start.
`parent` reads a task as the `Act` of its first process, `returns` lists the
values of all processes that return, and `asked` the queries of all processes.

A `Service` answers requests by tasks, and a `Pool` has its processes.  Of a state
each process has the memory for itself, while the world outside is one for all:
`share memory world` is the state of a process.  `always_oneProcess_iff` says in
which runs a single process serves.
-/

namespace Forking

open Resumption EventSystem

inductive Task (σ Q R C α : Type) : Type
  | done (value : α) (state : σ)
  | crash (state : σ)
  | await (query : Q) (state : σ) (resume : R → σ → Task σ Q R C α)
  | fork (command : C) (state : σ) (child : σ → Task σ Q R C α) (parent : Task σ Q R C α)

variable {σ Q R C α β ρ ε : Type}

namespace Task

/-- The program that the first process runs. -/
def parent : Task σ Q R C α → Act σ Q R α
  | .done value state => .done value state
  | .crash state => .crash state
  | .await query state resume => .await query state fun answer state => (resume answer state).parent
  | .fork _ _ _ rest => rest.parent

/-- A program without forks. -/
def ofAct : Act σ Q R α → Task σ Q R C α
  | .done value state => .done value state
  | .crash state => .crash state
  | .await query state resume => .await query state fun answer state => ofAct (resume answer state)

@[simp] theorem parent_ofAct (act : Act σ Q R α) : (ofAct act : Task σ Q R C α).parent = act := by
  induction act with
  | done value state => rfl
  | crash state => rfl
  | await query state resume ih =>
      simp only [ofAct, parent]
      congr
      funext answer state
      exact ih answer state

/-- The values returned by the processes of a program that does not wait, where
`starts` says which commands can be executed. -/
def returns (starts : C → Bool) : Task σ Q R C α → List α
  | .done value _ => [value]
  | .crash _ => []
  | .await _ _ _ => []
  | .fork command state child rest =>
      rest.returns starts ++ if starts command then [] else (child state).returns starts

/-- The processes that return, each with its state. -/
def ends (starts : C → Bool) : Task σ Q R C α → List (α × σ)
  | .done value state => [(value, state)]
  | .crash _ => []
  | .await _ _ _ => []
  | .fork command state child rest =>
      rest.ends starts ++ if starts command then [] else (child state).ends starts

/-- The queries of all processes of a program, where `answer` replies to them. -/
def asked (starts : C → Bool) (answer : Q → R) : Task σ Q R C α → List Q
  | .done _ _ => []
  | .crash _ => []
  | .await query state resume => query :: (resume (answer query) state).asked starts answer
  | .fork command state child rest =>
      rest.asked starts answer ++
        if starts command then [] else (child state).asked starts answer

/-- Call a function that forks but does not wait; each process that returns from it
goes on with `k`. -/
def andThen : Task σ Empty Empty C α → (α → σ → Task σ Q R C β) → Task σ Q R C β
  | .done value state, k => k value state
  | .crash state, _ => .crash state
  | .await query _ _, _ => query.elim
  | .fork command state child rest, k =>
      .fork command state (fun state => (child state).andThen k) (rest.andThen k)

theorem returns_eq_map_ends (starts : C → Bool) (task : Task σ Q R C α) :
    task.returns starts = (task.ends starts).map Prod.fst := by
  induction task with
  | done value state => rfl
  | crash state => rfl
  | await query state resume ih => rfl
  | fork command state child rest ihchild ihrest =>
      simp only [returns, ends, ihrest, List.map_append]
      split
      · rfl
      · rw [ihchild state]

/-- After a call the processes ask what they ask once it has returned in them. -/
theorem asked_andThen (starts : C → Bool) (answer : Q → R) (task : Task σ Empty Empty C α)
    (k : α → σ → Task σ Q R C β) :
    (task.andThen k).asked starts answer =
      (task.ends starts).flatMap fun final => (k final.1 final.2).asked starts answer := by
  induction task with
  | done value state => simp [andThen, ends]
  | crash state => rfl
  | await query state resume ih => exact query.elim
  | fork command state child rest ihchild ihrest =>
      simp only [andThen, asked, ends, ihrest, List.flatMap_append]
      split
      · rfl
      · rw [ihchild state]

/-- How many processes return from a function that forks once. -/
def returning (forked starts : Bool) : ℕ := if forked && !starts then 2 else 1

theorem returning_eq_one_iff (forked starts : Bool) :
    returning forked starts = 1 ↔ forked = false ∨ starts = true := by
  cases forked <;> cases starts <;> simp [returning]

/-- Both processes of a fork run on if the command does not start. -/
theorem length_returns_fork {starts : C → Bool} {command : C} {state : σ}
    {child : σ → Task σ Q R C α} {rest : Task σ Q R C α} {n : ℕ}
    (hchild : ((child state).returns starts).length = n)
    (hrest : (rest.returns starts).length = n) :
    ((fork command state child rest).returns starts).length =
      returning true (starts command) * n := by
  cases hstarts : starts command with
  | true => simp [returns, returning, hstarts, hrest]
  | false =>
      simp only [returns, hstarts, Bool.false_eq_true, if_false, List.length_append, hrest, hchild,
        returning, Bool.not_false, Bool.and_self, if_true]
      omega

end Task

structure Service (ρ ε σ Q R C α : Type) where
  serve : ρ → σ → Task σ Q R C α
  share : σ → σ → σ
  change : ε → σ → σ

/-- Where a process is: in the loop, in `recv` for a request, or forked for one
and about to execute its command. -/
inductive Phase (σ Q R C α : Type) : Type
  | idle
  | waiting (request : ℕ) (query : Q) (resume : R → σ → Task σ Q R C α)
  | forked (request : ℕ) (command : C) (child : σ → Task σ Q R C α)
  | replaced
  | died

/-- The process is in the code of the service. -/
def Phase.serves : Phase σ Q R C α → Bool
  | .idle => true
  | .waiting _ _ _ => true
  | _ => false

structure Process (σ Q R C α : Type) where
  memory : σ
  phase : Phase σ Q R C α

/-- A process works on a request. -/
structure Leg where
  request : ℕ
  process : ℕ
  deriving DecidableEq, Repr

/-- `legs` lists who has run a leg of the code for which request, and `answers`
who has come to the end of it. -/
structure Pool (σ Q R C α : Type) where
  world : σ
  processes : List (Process σ Q R C α)
  requests : ℕ
  legs : List Leg
  answers : List Leg

inductive Event (ρ ε R : Type) : Type
  | request (i : ℕ) (req : ρ)
  | answer (i : ℕ) (reply : R)
  | exec (i : ℕ) (starts : Bool)
  | outside (event : ε)

namespace Pool

def put (i : ℕ) (p : Process σ Q R C α) (pool : Pool σ Q R C α) : Pool σ Q R C α :=
  { pool with world := p.memory, processes := pool.processes.set i p }

def settle (i request : ℕ) : Task σ Q R C α → Pool σ Q R C α → Pool σ Q R C α
  | .done _ state, pool =>
      { pool.put i ⟨state, .idle⟩ with answers := pool.answers ++ [⟨request, i⟩] }
  | .crash state, pool => pool.put i ⟨state, .died⟩
  | .await query state resume, pool => pool.put i ⟨state, .waiting request query resume⟩
  | .fork command state child rest, pool =>
      settle i request rest
        { pool with processes := pool.processes ++ [⟨state, .forked request command child⟩] }

def run (i request : ℕ) (task : Task σ Q R C α) (pool : Pool σ Q R C α) : Pool σ Q R C α :=
  settle i request task { pool with legs := pool.legs ++ [⟨request, i⟩] }

def boot (state : σ) : Pool σ Q R C α := ⟨state, [⟨state, .idle⟩], 0, [], []⟩

end Pool

def Service.step (service : Service ρ ε σ Q R C α) (pool : Pool σ Q R C α) :
    Event ρ ε R → Pool σ Q R C α
  | .request i req =>
      match pool.processes[i]? with
      | some ⟨memory, .idle⟩ =>
          { pool with requests := pool.requests + 1 }.run i pool.requests
            (service.serve req (service.share memory pool.world))
      | _ => pool
  | .answer i reply =>
      match pool.processes[i]? with
      | some ⟨memory, .waiting request _ resume⟩ =>
          pool.run i request (resume reply (service.share memory pool.world))
      | _ => pool
  | .exec i starts =>
      match pool.processes[i]? with
      | some ⟨memory, .forked request _ child⟩ =>
          if starts then { pool with processes := pool.processes.set i ⟨memory, .replaced⟩ }
          else pool.run i request (child (service.share memory pool.world))
      | _ => pool
  | .outside event => { pool with world := service.change event pool.world }

/-! ## One process -/

/-- The first process serves until it dies, and no other does: it alone works on
requests, and answers none twice. -/
structure OneProcess (pool : Pool σ Q R C α) : Prop where
  first : ∃ p, pool.processes[0]? = some p ∧ (p.phase.serves = true ∨ p.phase = .died)
  alone : ∀ i p, pool.processes[i]? = some p → p.phase.serves = true → i = 0
  legs : ∀ leg ∈ pool.legs, leg.process = 0
  answers : (pool.answers.map Leg.request).Nodup

/-- The command of a child starts. -/
def ExecStarts (pool : Pool σ Q R C α) : Event ρ ε R → Prop
  | .exec i starts => ∀ memory request command child,
      pool.processes[i]? = some ⟨memory, .forked request command child⟩ → starts = true
  | _ => True

/-- Where the process with this number may be. -/
def Phase.At (i : ℕ) (pool : Pool σ Q R C α) : Phase σ Q R C α → Prop
  | .idle => i = 0
  | .waiting request _ _ =>
      i = 0 ∧ request < pool.requests ∧ ∀ answer ∈ pool.answers, answer.request ≠ request
  | .forked _ _ _ => i ≠ 0
  | .replaced => i ≠ 0
  | .died => True

/-- What holds of a pool in which no child has carried on. -/
structure Orderly (pool : Pool σ Q R C α) : Prop where
  phases : ∀ (i : ℕ) (p : Process σ Q R C α), pool.processes[i]? = some p → p.phase.At i pool
  nonempty : pool.processes ≠ []
  answers : (pool.answers.map Leg.request).Nodup
  old : ∀ answer ∈ pool.answers, answer.request < pool.requests

/-- The first process is at work on a request. -/
structure Working (request : ℕ) (pool : Pool σ Q R C α) : Prop where
  others : ∀ (i : ℕ) (p : Process σ Q R C α), i ≠ 0 → pool.processes[i]? = some p → p.phase.At i pool
  nonempty : pool.processes ≠ []
  answers : (pool.answers.map Leg.request).Nodup
  old : ∀ answer ∈ pool.answers, answer.request < pool.requests
  recent : request < pool.requests
  unanswered : ∀ answer ∈ pool.answers, answer.request ≠ request

section

variable {service : Service ρ ε σ Q R C α} {pool : Pool σ Q R C α} {request i : ℕ}

@[simp] theorem legs_settle (i request : ℕ) (task : Task σ Q R C α) (pool : Pool σ Q R C α) :
    (pool.settle i request task).legs = pool.legs := by
  induction task generalizing pool with
  | done value state => rfl
  | crash state => rfl
  | await query state resume ih => rfl
  | fork command state child rest ihchild ihrest =>
      rw [Pool.settle, ihrest]

@[simp] theorem legs_run (i request : ℕ) (task : Task σ Q R C α) (pool : Pool σ Q R C α) :
    (pool.run i request task).legs = pool.legs ++ [⟨request, i⟩] := by
  simp [Pool.run]

/-- The processes behind the first one are where they may be, whatever the first
one does. -/
theorem at_of_ne {pool' : Pool σ Q R C α} {p : Process σ Q R C α} (hi : i ≠ 0)
    (h : p.phase.At i pool) : p.phase.At i pool' := by
  cases hphase : p.phase with
  | idle => exact absurd (by simpa [hphase, Phase.At] using h) hi
  | waiting request query resume =>
      rw [hphase] at h
      exact absurd h.1 hi
  | forked request command child => exact hi
  | replaced => exact hi
  | died => trivial

theorem orderly_put (h : Working request pool) {p : Process σ Q R C α} {answers : List Leg}
    (hanswers : (answers.map Leg.request).Nodup)
    (hold : ∀ answer ∈ answers, answer.request < pool.requests)
    (hp : p.phase.At 0 { pool.put 0 p with answers }) :
    Orderly { pool.put 0 p with answers } := by
  refine ⟨?_, ?_, hanswers, hold⟩
  · intro i q hq
    by_cases hi : i = 0
    · subst hi
      simp only [Pool.put, List.getElem?_set, if_true] at hq
      split at hq
      · obtain rfl := Option.some.inj hq
        exact hp
      · cases hq
    · have hq' : pool.processes[i]? = some q := by
        simpa [Pool.put, List.getElem?_set, Ne.symm hi] using hq
      exact at_of_ne hi (h.others i q hi hq')
  · simpa [Pool.put] using h.nonempty

theorem orderly_settle (h : Working request pool) (task : Task σ Q R C α) :
    Orderly (pool.settle 0 request task) := by
  induction task generalizing pool with
  | done value state =>
      refine orderly_put h ?_ ?_ rfl
      · rw [List.map_append, List.map_cons, List.map_nil, List.nodup_append]
        refine ⟨h.answers, by simp, ?_⟩
        intro number hnumber number' hnumber'
        obtain ⟨answer, hanswer, rfl⟩ := List.mem_map.mp hnumber
        rw [List.mem_singleton.mp hnumber']
        exact h.unanswered answer hanswer
      · intro answer hanswer
        rcases List.mem_append.mp hanswer with hanswer | hanswer
        · exact h.old answer hanswer
        · rw [List.mem_singleton.mp hanswer]
          exact h.recent
  | crash state => exact orderly_put h (p := ⟨state, .died⟩) h.answers h.old trivial
  | await query state resume ih =>
      exact orderly_put h (p := ⟨state, .waiting request query resume⟩) h.answers h.old
        ⟨rfl, h.recent, h.unanswered⟩
  | fork command state child rest ihchild ihrest =>
      refine ihrest ⟨?_, by simp, h.answers, h.old, h.recent, h.unanswered⟩
      intro i p hi hp
      rw [List.getElem?_append] at hp
      split at hp
      · exact at_of_ne hi (h.others i p hi hp)
      · obtain rfl := List.mem_singleton.mp (List.mem_of_getElem? hp)
        exact hi

theorem orderly_run (h : Working request pool) (task : Task σ Q R C α) :
    Orderly (pool.run 0 request task) := by
  have hworking : Working request { pool with legs := pool.legs ++ [⟨request, 0⟩] } :=
    ⟨fun i p hi hp => at_of_ne hi (h.others i p hi hp), h.nonempty, h.answers, h.old, h.recent,
      h.unanswered⟩
  exact orderly_settle hworking task

theorem Orderly.oneProcess (h : Orderly pool) (hlegs : ∀ leg ∈ pool.legs, leg.process = 0) :
    OneProcess pool := by
  refine ⟨?_, ?_, hlegs, h.answers⟩
  · obtain ⟨p, rest, hprocesses⟩ := List.exists_cons_of_ne_nil h.nonempty
    have hp : pool.processes[0]? = some p := by simp [hprocesses]
    refine ⟨p, hp, ?_⟩
    have hat := h.phases 0 p hp
    cases hphase : p.phase with
    | idle => exact .inl rfl
    | waiting request query resume => exact .inl rfl
    | forked request command child =>
        rw [hphase] at hat
        exact absurd rfl hat
    | replaced =>
        rw [hphase] at hat
        exact absurd rfl hat
    | died => exact .inr rfl
  · intro i p hp hserves
    have hat := h.phases i p hp
    cases hphase : p.phase with
    | idle =>
        rw [hphase] at hat
        exact hat
    | waiting request query resume =>
        rw [hphase] at hat
        exact hat.1
    | _ =>
        rw [hphase] at hserves
        cases hserves

/-- A request is taken by the first process, with a number of its own. -/
theorem Orderly.takes (h : Orderly pool) :
    Working pool.requests { pool with requests := pool.requests + 1 } := by
  refine ⟨?_, h.nonempty, h.answers, ?_, Nat.lt_succ_self _, ?_⟩
  · exact fun i p hi hp => at_of_ne hi (h.phases i p hp)
  · exact fun answer hanswer => Nat.lt_succ_of_lt (h.old answer hanswer)
  · exact fun answer hanswer => Nat.ne_of_lt (h.old answer hanswer)

/-- A process that waits is the first one. -/
theorem Orderly.resumes (h : Orderly pool) {memory : σ} {query : Q}
    {resume : R → σ → Task σ Q R C α}
    (hp : pool.processes[i]? = some ⟨memory, .waiting request query resume⟩) :
    i = 0 ∧ Working request pool := by
  obtain ⟨hi, hrecent, hunanswered⟩ := h.phases i _ hp
  refine ⟨hi, ?_, h.nonempty, h.answers, h.old, hrecent, hunanswered⟩
  exact fun j p _ hp => h.phases j p hp

theorem Orderly.replaces (h : Orderly pool) (hi : i ≠ 0) (memory : σ) :
    Orderly { pool with processes := pool.processes.set i ⟨memory, .replaced⟩ } := by
  refine ⟨?_, ?_, h.answers, h.old⟩
  · intro j q hq
    rw [List.getElem?_set] at hq
    split at hq
    · rename_i hij
      subst hij
      split at hq
      · obtain rfl := Option.some.inj hq
        exact hi
      · cases hq
    · exact h.phases j q hq
  · simpa using h.nonempty

/-- One event of a pool in which no child has carried on.  Either nobody but the
first process runs a leg and none does after it, or a child does. -/
theorem orderly_step (h : Orderly pool) (event : Event ρ ε R) :
    (ExecStarts pool event ∧ Orderly (service.step pool event) ∧
      ∀ leg ∈ (service.step pool event).legs, leg ∈ pool.legs ∨ leg.process = 0) ∨
    (¬ ExecStarts pool event ∧ ∃ leg ∈ (service.step pool event).legs, leg.process ≠ 0) := by
  have hsame : Orderly pool ∧ ∀ leg ∈ pool.legs, leg ∈ pool.legs ∨ leg.process = 0 :=
    ⟨h, fun _ hleg => .inl hleg⟩
  have hfirst : ∀ (request : ℕ), ∀ leg ∈ pool.legs ++ [⟨request, 0⟩],
      leg ∈ pool.legs ∨ leg.process = 0 := by
    intro request leg hleg
    rcases List.mem_append.mp hleg with hleg | hleg
    · exact .inl hleg
    · rw [List.mem_singleton.mp hleg]
      exact .inr rfl
  unfold Service.step
  cases event with
  | request i req =>
      refine .inl ⟨trivial, ?_⟩
      dsimp only
      split
      · rename_i memory hp
        obtain rfl : i = 0 := h.phases i _ hp
        exact ⟨orderly_run h.takes _, by simpa using hfirst pool.requests⟩
      · exact hsame
  | answer i reply =>
      refine .inl ⟨trivial, ?_⟩
      dsimp only
      split
      · rename_i memory request query resume hp
        obtain ⟨rfl, hworking⟩ := h.resumes hp
        exact ⟨orderly_run hworking _, by simpa using hfirst request⟩
      · exact hsame
  | exec i starts =>
      dsimp only
      split
      · rename_i memory request command child hp
        have hi : i ≠ 0 := h.phases i _ hp
        cases starts with
        | true => exact .inl ⟨fun _ _ _ _ _ => rfl, h.replaces hi memory, hsame.2⟩
        | false =>
            refine .inr ⟨fun hstarts => absurd (hstarts _ _ _ _ hp) (by simp), ⟨request, i⟩, ?_, hi⟩
            simp
      · rename_i hnone
        refine .inl ⟨?_, hsame⟩
        intro memory request command child hp
        exact absurd hp (hnone memory request command child)
  | outside event =>
      exact .inl ⟨trivial, ⟨h.phases, h.nonempty, h.answers, h.old⟩, hsame.2⟩

/-- Only the first process takes requests. -/
theorem Orderly.step_request_of_ne (h : Orderly pool) (hi : i ≠ 0) (req : ρ) :
    service.step pool (.request i req) = pool := by
  unfold Service.step
  dsimp only
  split
  · rename_i memory hp
    exact absurd (h.phases i _ hp) hi
  · rfl

theorem Orderly.step_answer_of_ne (h : Orderly pool) (hi : i ≠ 0) (reply : R) :
    service.step pool (.answer i reply) = pool := by
  unfold Service.step
  dsimp only
  split
  · rename_i memory request query resume hp
    exact absurd (h.resumes hp).1 hi
  · rfl

theorem Orderly.step (h : Orderly pool) {event : Event ρ ε R} (hstarts : ExecStarts pool event) :
    Orderly (service.step pool event) := by
  rcases orderly_step h event with ⟨-, hnext, -⟩ | ⟨hnot, -⟩
  · exact hnext
  · exact absurd hstarts hnot

/-- The legs of a pool are kept. -/
theorem legs_step (event : Event ρ ε R) (leg : Leg) (h : leg ∈ pool.legs) :
    leg ∈ (service.step pool event).legs := by
  unfold Service.step
  cases event with
  | request i req =>
      dsimp only
      split
      · simp [h]
      · exact h
  | answer i reply =>
      dsimp only
      split
      · simp [h]
      · exact h
  | exec i starts =>
      dsimp only
      split
      · split
        · exact h
        · simp [h]
      · exact h
  | outside event => exact h

theorem orderly_boot (state : σ) : Orderly (Pool.boot state : Pool σ Q R C α) := by
  refine ⟨?_, by simp [Pool.boot], by simp [Pool.boot], by simp [Pool.boot]⟩
  intro i p hp
  cases i with
  | zero =>
      obtain rfl := Option.some.inj hp
      rfl
  | succ i => simp [Pool.boot] at hp

/-- A run of a service has a single process throughout if and only if the command
of every child starts. -/
theorem always_oneProcess_iff (service : Service ρ ε σ Q R C α) (state : σ)
    (events : List (Event ρ ε R)) :
    Always service.step OneProcess (Pool.boot state) events ↔
      Along service.step ExecStarts (Pool.boot state) events := by
  refine always_iff_along
    (J := fun pool => (∀ leg ∈ pool.legs, leg.process = 0) → Orderly pool) ?_ ?_
    (fun _ => orderly_boot state) ((orderly_boot state).oneProcess (by simp [Pool.boot])) events
  · intro pool event h hlegs
    have hpool := h fun leg hleg => hlegs leg (legs_step event leg hleg)
    rcases orderly_step hpool event with ⟨-, hnext, -⟩ | ⟨-, leg, hleg, hne⟩
    · exact hnext
    · exact absurd (hlegs leg hleg) hne
  · intro pool event h hone
    have hpool := h hone.legs
    rcases orderly_step hpool event with
      ⟨hstarts, hnext, hlegs⟩ | ⟨hstarts, leg, hleg, hne⟩
    · refine iff_of_true (hnext.oneProcess ?_) hstarts
      exact fun leg hleg => (hlegs leg hleg).elim (hone.legs leg) id
    · exact iff_of_false (fun hnext => hne (hnext.legs leg hleg)) hstarts

end

end Forking
