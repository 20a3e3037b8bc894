import Mathlib.Init

/-!
# Programs that wait for an answer

An `Act` is a program over a state `σ`: it returns, it dies, or it stops with
a query and goes on when an answer arrives.  The state is handed back with the
answer, because others may have changed it in the meantime.

Four readings are given.  `exec` runs a program against a server which answers
each query and may carry a state of its own.  `follow` runs it along a script of
answers and kills it in its wait when the script is at its end.  `Post` is the
weakest precondition over all answers: `rely` bounds what may happen to the
state during a wait, `G` must hold at each query, `D` at a return and `C` at a
death.  `exec_of_post` and `follow_of_post` connect it to the other two.
`Legs` looks at the stretches between waits: each must take its first state to a
last one in a given relation.  `LegsAlong` asks this of the legs that a script
leads through.
-/

namespace Resumption

/-- A program over the state `σ` that may stop with a query of type `Q` and
be resumed with an answer of type `R`. -/
inductive Act (σ Q R α : Type) : Type
  | done (value : α) (state : σ)
  | crash (state : σ)
  | await (query : Q) (state : σ) (resume : R → σ → Act σ Q R α)

inductive Outcome (σ α : Type) : Type
  | returned (value : α) (state : σ)
  | crashed (state : σ)
  deriving DecidableEq

variable {σ Q R α ω ε : Type}

def Outcome.state : Outcome σ α → σ
  | .returned _ s => s
  | .crashed s => s

def Outcome.value : Outcome σ α → Option α
  | .returned a _ => some a
  | .crashed _ => none

theorem Outcome.exists_returned {o : Outcome σ α} {f : α → β} {b : β}
    (h : o.value.map f = some b) : ∃ a s, o = .returned a s ∧ f a = b := by
  cases o with
  | returned a s => exact ⟨a, s, rfl, Option.some.inj h⟩
  | crashed s => cases h

namespace Act

/-- Run a program against a server.  The server sees the query and the
waiting program's state, and may change both that state and its own. -/
def exec (serve : Q → σ → ω → R × σ × ω) : Act σ Q R α → ω → Outcome σ α × ω
  | .done value state, w => (.returned value state, w)
  | .crash state, w => (.crashed state, w)
  | .await query state resume, w =>
      let answer := serve query state w
      (resume answer.1 answer.2.1).exec serve answer.2.2

/-- The state at the end of the first leg. -/
def stop : Act σ Q R α → σ
  | .done _ state => state
  | .crash state => state
  | .await _ state _ => state

/-- Run a program along a script.  An entry says what happens to the state
during a wait and with which answer the wait ends. -/
def follow (change : ε → σ → σ) : Act σ Q R α → List (ε × R) → Outcome σ α
  | .done value state, _ => .returned value state
  | .crash state, _ => .crashed state
  | .await _ state _, [] => .crashed state
  | .await _ state resume, entry :: script =>
      (resume entry.2 (change entry.1 state)).follow change script

/-- Along the script some wait ends with a bad answer. -/
def hears (change : ε → σ → σ) (bad : R → Bool) : Act σ Q R α → List (ε × R) → Bool
  | .done _ _, _ => false
  | .crash _, _ => false
  | .await _ _ _, [] => false
  | .await _ state resume, entry :: script =>
      bad entry.2 || (resume entry.2 (change entry.1 state)).hears change bad script

/-- What holds whatever the answers are. -/
def Post (rely : σ → σ → Prop) (G : Q → σ → Prop) (D : α → σ → Prop)
    (C : σ → Prop) : Act σ Q R α → Prop
  | .done value state => D value state
  | .crash state => C state
  | .await query state resume =>
      G query state ∧
        ∀ answer state', rely state state' →
          (resume answer state').Post rely G D C

variable {rely : σ → σ → Prop} {G G' : Q → σ → Prop} {D D' : α → σ → Prop}
  {C C' : σ → Prop}

@[simp] theorem exec_done (serve : Q → σ → ω → R × σ × ω) (value : α)
    (state : σ) (w : ω) :
    (Act.done value state : Act σ Q R α).exec serve w =
      (.returned value state, w) := rfl

@[simp] theorem exec_crash (serve : Q → σ → ω → R × σ × ω)
    (state : σ) (w : ω) :
    (Act.crash state : Act σ Q R α).exec serve w = (.crashed state, w) := rfl

theorem exec_await (serve : Q → σ → ω → R × σ × ω) (query : Q) (state : σ)
    (resume : R → σ → Act σ Q R α) (w : ω) :
    (Act.await query state resume).exec serve w =
      (resume (serve query state w).1 (serve query state w).2.1).exec serve
        (serve query state w).2.2 := rfl

@[simp] theorem post_done {value : α} {state : σ} :
    (Act.done value state : Act σ Q R α).Post rely G D C ↔ D value state :=
  Iff.rfl

@[simp] theorem post_crash {state : σ} :
    (Act.crash state : Act σ Q R α).Post rely G D C ↔ C state :=
  Iff.rfl

theorem Post.mono (hG : ∀ q s, G q s → G' q s) (hD : ∀ a s, D a s → D' a s)
    (hC : ∀ s, C s → C' s) {act : Act σ Q R α}
    (h : act.Post rely G D C) : act.Post rely G' D' C' := by
  induction act with
  | done value state => exact hD value state h
  | crash state => exact hC state h
  | await query state resume ih =>
      exact ⟨hG query state h.1,
        fun answer state' hrely => ih answer state' (h.2 answer state' hrely)⟩

/-- A server which only changes the state of a waiting program as `rely`
allows ends the program in its postcondition. -/
theorem exec_of_post {serve : Q → σ → ω → R × σ × ω}
    (hserve : ∀ q s w, rely s (serve q s w).2.1)
    {act : Act σ Q R α} (h : act.Post rely G D C) (w : ω) :
    match (act.exec serve w).1 with
    | .returned value state => D value state
    | .crashed state => C state := by
  induction act generalizing w with
  | done value state => exact h
  | crash state => exact h
  | await query state resume ih =>
      rw [exec_await]
      exact ih _ _ (h.2 _ _ (hserve query state w)) _

/-- A script which only changes the state as `rely` allows ends the program in
its postcondition, if what holds at a query is enough for a death there. -/
theorem follow_of_post {change : ε → σ → σ} (hchange : ∀ e s, rely s (change e s))
    (hkill : ∀ q s, G q s → C s) {act : Act σ Q R α} (h : act.Post rely G D C)
    (script : List (ε × R)) :
    match act.follow change script with
    | .returned value state => D value state
    | .crashed state => C state := by
  induction act generalizing script with
  | done value state => exact h
  | crash state => exact h
  | await query state resume ih =>
      cases script with
      | nil => exact hkill query state h.1
      | cons entry script => exact ih _ _ (h.2 _ _ (hchange entry.1 state)) script

theorem state_follow_of_post {change : ε → σ → σ} (hchange : ∀ e s, rely s (change e s))
    {S : σ → Prop} {act : Act σ Q R α} (h : act.Post rely (fun _ => S) (fun _ => S) S)
    (script : List (ε × R)) : S (act.follow change script).state := by
  have hkill : ∀ (_ : Q) s, S s → S s := fun _ _ hs => hs
  have hend := follow_of_post hchange hkill h script
  cases hout : act.follow change script with
  | returned value state =>
      rw [hout] at hend
      exact hend
  | crashed state =>
      rw [hout] at hend
      exact hend

/-- Every leg of the program, from its start or the end of a wait to the next
wait or the end of the program, takes its first state to one related by `T`,
and `G` holds at each query. -/
def Legs (rely T : σ → σ → Prop) (G : Q → σ → Prop) : σ → Act σ Q R α → Prop
  | first, .done _ state => T first state
  | first, .crash state => T first state
  | first, .await query state resume =>
      (T first state ∧ G query state) ∧
        ∀ answer state', rely state state' →
          (resume answer state').Legs rely T G state'

variable {T T' : σ → σ → Prop}

theorem Legs.mono (hT : ∀ s s', T s s' → T' s s') (hG : ∀ q s, G q s → G' q s) {first : σ}
    {act : Act σ Q R α} (h : act.Legs rely T G first) : act.Legs rely T' G' first := by
  induction act generalizing first with
  | done value state => exact hT first state h
  | crash state => exact hT first state h
  | await query state resume ih =>
      exact ⟨⟨hT first state h.1.1, hG query state h.1.2⟩,
        fun answer state' hrely => ih answer state' (h.2 answer state' hrely)⟩

theorem Legs.of_first {first first' : σ} (hT : ∀ state, T first state → T first' state)
    {act : Act σ Q R α} (h : act.Legs rely T G first) : act.Legs rely T G first' := by
  cases act with
  | done value state => exact hT state h
  | crash state => exact hT state h
  | await query state resume => exact ⟨⟨hT state h.1.1, h.1.2⟩, h.2⟩

theorem Legs.and {G₁ G₂ : Q → σ → Prop} {first : σ} {act : Act σ Q R α}
    (h : act.Legs rely T G₁ first) (h' : act.Legs rely T' G₂ first) :
    act.Legs rely (fun s s' => T s s' ∧ T' s s') (fun q s => G₁ q s ∧ G₂ q s) first := by
  induction act generalizing first with
  | done value state => exact ⟨h, h'⟩
  | crash state => exact ⟨h, h'⟩
  | await query state resume ih =>
      exact ⟨⟨⟨h.1.1, h'.1.1⟩, h.1.2, h'.1.2⟩, fun answer state' hwait =>
        ih answer state' (h.2 answer state' hwait) (h'.2 answer state' hwait)⟩

/-- What legs and waits keep holds at the end of every leg. -/
theorem Legs.inv {I : σ → Prop} (hT : ∀ s s', I s → T s s' → I s')
    (hrely : ∀ s s', I s → rely s s' → I s') {first : σ} (hfirst : I first)
    {act : Act σ Q R α} (h : act.Legs rely T G first) :
    act.Legs rely (fun _ s => I s) G first := by
  induction act generalizing first with
  | done value state => exact hT first state hfirst h
  | crash state => exact hT first state hfirst h
  | await query state resume ih =>
      have hstate : I state := hT first state hfirst h.1.1
      exact ⟨⟨hstate, h.1.2⟩, fun answer state' hwait =>
        ih answer state' (hrely state state' hstate hwait) (h.2 answer state' hwait)⟩

/-- A program that is run along a script ends in a state of its last leg; one
that never waits has a single leg. -/
theorem follow_nil_of_legs {change : ε → σ → σ} {first : σ} {act : Act σ Q R α}
    (h : act.Legs rely T G first) : T first (act.follow change []).state := by
  cases act with
  | done value state => exact h
  | crash state => exact h
  | await query state resume => exact h.1.1

/-- A relation that every leg and every wait stays in leads to the end of a
run along a script. -/
theorem state_follow_of_legs {change : ε → σ → σ} {S : σ → σ → Prop}
    (htrans : ∀ {s₁ s₂ s₃}, S s₁ s₂ → S s₂ s₃ → S s₁ s₃) (hchange : ∀ e s, rely s (change e s))
    (hwait : ∀ e s, S s (change e s)) (hleg : ∀ s s', T s s' → S s s') {first : σ}
    {act : Act σ Q R α} (h : act.Legs rely T G first) (script : List (ε × R)) :
    S first (act.follow change script).state := by
  induction act generalizing first script with
  | done value state => exact hleg first state h
  | crash state => exact hleg first state h
  | await query state resume ih =>
      have hstate : S first state := hleg first state h.1.1
      cases script with
      | nil => exact hstate
      | cons entry script =>
          have hresumed : S state (change entry.1 state) := hwait entry.1 state
          have hrest := h.2 entry.2 _ (hchange entry.1 state)
          exact htrans (htrans hstate hresumed) (ih entry.2 _ hrest script)

/-- The legs that the program takes along a script. -/
def LegsAlong (change : ε → σ → σ) (T : σ → σ → Prop) : σ → Act σ Q R α → List (ε × R) → Prop
  | first, .done _ state, _ => T first state
  | first, .crash state, _ => T first state
  | first, .await _ state _, [] => T first state
  | first, .await _ state resume, entry :: script =>
      T first state ∧
        (resume entry.2 (change entry.1 state)).LegsAlong change T (change entry.1 state) script

theorem legsAlong_done {change : ε → σ → σ} {first state : σ} {value : α}
    {script : List (ε × R)} :
    (Act.done value state : Act σ Q R α).LegsAlong change T first script ↔ T first state := by
  cases script <;> exact Iff.rfl

theorem legsAlong_crash {change : ε → σ → σ} {first state : σ} {script : List (ε × R)} :
    (Act.crash state : Act σ Q R α).LegsAlong change T first script ↔ T first state := by
  cases script <;> exact Iff.rfl

end Act

end Resumption
