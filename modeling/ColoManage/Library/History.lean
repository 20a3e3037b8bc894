import ColoManage.Library.EventSystem

/-!
# What a run shows

An event may show something of the state it is taken in.  `seen` collects what a
run shows, in its order; `inv_seen` is the invariant rule for properties of the
state and of what has been shown so far.

`Preceded` says that whatever needs a cause comes after it.
-/

namespace EventSystem

variable {S E α : Type*}

def seen (step : S → E → S) (shows : S → E → List α) : S → List E → List α
  | _, [] => []
  | s, e :: es => shows s e ++ seen step shows (step s e) es

theorem inv_seen {step : S → E → S} {shows : S → E → List α} {J : S → List α → Prop}
    (hstep : ∀ s e out, J s out → J (step s e) (out ++ shows s e)) {s : S} {out : List α}
    (hinit : J s out) (es : List E) :
    J (es.foldl step s) (out ++ seen step shows s es) := by
  induction es generalizing s out with
  | nil => simpa [seen] using hinit
  | cons e es ih =>
      rw [seen, ← List.append_assoc]
      exact ih (hstep s e out hinit)

/-- Everything in the list comes after what it needs. -/
def Preceded (needs : α → Option α) (out : List α) : Prop :=
  ∀ before a after, out = before ++ a :: after → ∀ cause, needs a = some cause → cause ∈ before

variable {needs : α → Option α}

theorem preceded_nil : Preceded needs [] := by
  intro before a after heq
  exact absurd heq (by simp)

theorem preceded_concat {out : List α} {a : α} :
    Preceded needs (out ++ [a]) ↔
      Preceded needs out ∧ ∀ cause, needs a = some cause → cause ∈ out := by
  constructor
  · intro h
    refine ⟨?_, h out a [] rfl⟩
    intro before b after heq
    exact h before b (after ++ [a]) (by rw [heq, List.append_assoc, List.cons_append])
  · rintro ⟨hout, ha⟩ before b after heq
    rcases List.eq_nil_or_concat after with rfl | ⟨front, last, rfl⟩
    · obtain ⟨rfl, hlast⟩ := List.append_inj' heq rfl
      cases hlast
      exact ha
    · rw [List.concat_eq_append, ← List.cons_append, ← List.append_assoc] at heq
      obtain ⟨rfl, -⟩ := List.append_inj' heq rfl
      exact hout before b front rfl

theorem Preceded.mem {out : List α} (h : Preceded needs out) {a cause : α} (ha : a ∈ out)
    (hneeds : needs a = some cause) : cause ∈ out := by
  obtain ⟨before, after, rfl⟩ := List.append_of_mem ha
  exact List.mem_append_left _ (h before a after rfl cause hneeds)

end EventSystem
