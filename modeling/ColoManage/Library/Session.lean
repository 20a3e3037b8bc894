import ColoManage.Library.Resumption
import Mathlib.Algebra.Order.Ring.Nat

/-!
# Sessions

A session is what may be said in a conversation, in its order; a speaker may leave out
parts of it and may end it early.  `Act.Speaks` says that a program keeps to a session
whatever it is answered.  `Spoken` says of a trace of beginnings and messages that each
conversation keeps to the session it was begun with, and `length_messages_le` bounds the
messages by the sessions.
-/

namespace Resumption

variable {σ Q R α M E : Type}

/-- The program asks what the session lists, in this order. -/
def Act.Speaks (tell : Q → M) : Act σ Q R α → List (M → Prop) → Prop
  | .done _ _, _ => True
  | .crash _, _ => True
  | .await _ _ _, [] => False
  | .await query _ resume, part :: session =>
      part (tell query) ∧ ∀ answer state, (resume answer state).Speaks tell session

/-- All that is asked in a session is a part of it. -/
theorem Act.Speaks.legs {tell : Q → M} {P : M → Prop} {rely T : σ → σ → Prop} {G : Q → σ → Prop}
    {session : List (M → Prop)} {act : Act σ Q R α} (h : act.Speaks tell session)
    (hP : ∀ part ∈ session, ∀ m, part m → P m) {first : σ} (hlegs : act.Legs rely T G first) :
    act.Legs rely T (fun query _ => P (tell query)) first := by
  induction act generalizing session first with
  | done value state => exact hlegs
  | crash state => exact hlegs
  | await query state resume ih =>
      cases session with
      | nil => exact h.elim
      | cons part session =>
          obtain ⟨hpart, hrest⟩ := List.forall_mem_cons.mp hP
          exact ⟨⟨hlegs.1.1, hpart _ h.1⟩, fun answer state' hwait =>
            ih answer state' (h.2 answer state') hrest (hlegs.2 answer state' hwait)⟩

/-- The trace keeps to the sessions, and what is left of the last one. -/
inductive Spoken (session : E → List (M → Prop)) : List (E ⊕ M) → List (M → Prop) → Prop
  | nil : Spoken session [] []
  | begun {trace : List (E ⊕ M)} {rest : List (M → Prop)} (e : E)
      (h : Spoken session trace rest) : Spoken session (trace ++ [.inl e]) (session e)
  | said {trace : List (E ⊕ M)} {part : M → Prop} {rest : List (M → Prop)} {m : M}
      (h : Spoken session trace (part :: rest)) (hm : part m) :
      Spoken session (trace ++ [.inr m]) rest
  | skipped {trace : List (E ⊕ M)} {part : M → Prop} {rest : List (M → Prop)}
      (h : Spoken session trace (part :: rest)) : Spoken session trace rest

def begins (trace : List (E ⊕ M)) : List E := trace.filterMap Sum.getLeft?

def messages (trace : List (E ⊕ M)) : List M := trace.filterMap Sum.getRight?

/-- Every message belongs to a part of a session that was begun. -/
theorem length_messages_le {session : E → List (M → Prop)} {trace : List (E ⊕ M)}
    {rest : List (M → Prop)} (h : Spoken session trace rest) :
    (messages trace).length + rest.length ≤
      ((begins trace).map fun e => (session e).length).sum := by
  induction h with
  | nil => simp [messages, begins]
  | @begun trace rest e _ ih =>
      have hmessages : messages (trace ++ [.inl e]) = messages trace := by simp [messages]
      have hbegins : begins (trace ++ [.inl e]) = begins trace ++ [e] := by simp [begins]
      rw [hmessages, hbegins, List.map_append, List.sum_append]
      simp only [List.map_cons, List.map_nil, List.sum_cons, List.sum_nil]
      omega
  | @said trace part rest m _ _ ih =>
      have hmessages : messages (trace ++ [.inr m]) = messages trace ++ [m] := by simp [messages]
      have hbegins : begins (trace ++ [.inr m]) = begins trace := by simp [begins]
      rw [List.length_cons] at ih
      rw [hmessages, hbegins, List.length_append, List.length_singleton]
      omega
  | skipped _ ih =>
      rw [List.length_cons] at ih
      omega

theorem length_messages_le_mul {session : E → List (M → Prop)} {n : ℕ}
    (hn : ∀ e, (session e).length ≤ n) {trace : List (E ⊕ M)} {rest : List (M → Prop)}
    (h : Spoken session trace rest) : (messages trace).length ≤ n * (begins trace).length := by
  have hsum : ∀ es : List E, (es.map fun e => (session e).length).sum ≤ n * es.length := by
    intro es
    induction es with
    | nil => simp
    | cons e es ih =>
        rw [List.map_cons, List.sum_cons, List.length_cons, Nat.mul_succ]
        have hfirst := hn e
        omega
  have hle := length_messages_le h
  have hbegins := hsum (begins trace)
  omega

end Resumption
