import Mathlib.Data.List.Basic

/-!
# Deterministic event systems

A system is a total step function `S → E → S`: what is left open by the
environment is part of the event.  A run is a left fold.  `Along` says that
every event of a run meets a condition on the state it is taken in, `Always`
that every state the run passes through has a property.

`always_of_along` is the invariant rule with a side condition on the steps.
`always_iff_along` is its exact form: when the condition says precisely which
steps keep the property, a run keeps it throughout if and only if all its
steps meet the condition.
-/

namespace EventSystem

variable {S E : Type*} (step : S → E → S)

/-- Every event of the run meets `C` in the state it is taken in. -/
def Along (C : S → E → Prop) : S → List E → Prop
  | _, [] => True
  | s, e :: es => C s e ∧ Along C (step s e) es

/-- Every state the run passes through, the first and the last included,
has the property `P`. -/
def Always (P : S → Prop) : S → List E → Prop
  | s, [] => P s
  | s, e :: es => P s ∧ Always P (step s e) es

variable {step}

instance decidableAlong (C : S → E → Prop) [∀ s e, Decidable (C s e)] :
    (s : S) → (es : List E) → Decidable (Along step C s es)
  | _, [] => isTrue trivial
  | s, e :: es =>
      have := decidableAlong C (step s e) es
      inferInstanceAs (Decidable (C s e ∧ Along step C (step s e) es))

theorem Always.head {P : S → Prop} {s : S} {es : List E}
    (h : Always step P s es) : P s := by
  cases es with
  | nil => exact h
  | cons e es => exact h.1

theorem Always.mono {P Q : S → Prop} (hPQ : ∀ s, P s → Q s)
    {s : S} {es : List E} (h : Always step P s es) : Always step Q s es := by
  induction es generalizing s with
  | nil => exact hPQ s h
  | cons e es ih => exact ⟨hPQ s h.1, ih h.2⟩

theorem Always.last {P : S → Prop} {s : S} {es : List E}
    (h : Always step P s es) : P (es.foldl step s) := by
  induction es generalizing s with
  | nil => exact h
  | cons e es ih => exact ih h.2

theorem along_append {C : S → E → Prop} {s : S} {es es' : List E} :
    Along step C s (es ++ es') ↔ Along step C s es ∧ Along step C (es.foldl step s) es' := by
  induction es generalizing s with
  | nil => simp [Along]
  | cons e es ih =>
      rw [List.cons_append, List.foldl_cons]
      exact (and_congr_right fun _ => ih).trans and_assoc.symm

theorem along_congr {C C' : S → E → Prop} (h : ∀ s e, C s e ↔ C' s e) (s : S) (es : List E) :
    Along step C s es ↔ Along step C' s es := by
  induction es generalizing s with
  | nil => exact Iff.rfl
  | cons e es ih => exact and_congr (h s e) (ih (step s e))

theorem along_of_forall {C : S → E → Prop} {es : List E} (h : ∀ e ∈ es, ∀ s, C s e) (s : S) :
    Along step C s es := by
  induction es generalizing s with
  | nil => trivial
  | cons e es ih =>
      obtain ⟨hfirst, hrest⟩ := List.forall_mem_cons.mp h
      exact ⟨hfirst s, ih hrest (step s e)⟩

/-- A system whose states carry more takes its steps as the one without does. -/
theorem along_map {S' : Type*} {step' : S' → E → S'} {f : S → S'} {C : S' → E → Prop}
    (hf : ∀ s e, f (step s e) = step' (f s) e) {s : S} {es : List E} :
    Along step (fun s e => C (f s) e) s es ↔ Along step' C (f s) es := by
  induction es generalizing s with
  | nil => exact Iff.rfl
  | cons e es ih =>
      rw [Along, Along, ← hf]
      exact and_congr_right fun _ => ih

/-- The invariant rule for a run all of whose steps meet a condition. -/
theorem always_of_along {Inv : S → Prop} {C : S → E → Prop}
    (hstep : ∀ s e, Inv s → C s e → Inv (step s e))
    {s : S} {es : List E} (hinit : Inv s) (hrun : Along step C s es) :
    Always step Inv s es := by
  induction es generalizing s with
  | nil => exact hinit
  | cons e es ih =>
      exact ⟨hinit, ih (hstep s e hinit hrun.1) hrun.2⟩

theorem along_and {C C' : S → E → Prop} {s : S} {es : List E} (h : Along step C s es)
    (h' : Along step C' s es) : Along step (fun s e => C s e ∧ C' s e) s es := by
  induction es generalizing s with
  | nil => trivial
  | cons e es ih => exact ⟨⟨h.1, h'.1⟩, ih h.2 h'.2⟩

/-- The rule for a property of the steps: the invariant of the state gives it. -/
theorem along_of_inv {Inv : S → Prop} {C D : S → E → Prop}
    (hstep : ∀ s e, Inv s → C s e → Inv (step s e)) (hD : ∀ s e, Inv s → C s e → D s e)
    {s : S} {es : List E} (hinit : Inv s) (hrun : Along step C s es) : Along step D s es := by
  induction es generalizing s with
  | nil => trivial
  | cons e es ih => exact ⟨hD s e hinit hrun.1, ih (hstep s e hinit hrun.1) hrun.2⟩

/-- Two conditions that agree on an invariant are met by the same runs, if a step
that meets them keeps it. -/
theorem along_congr_of_inv {Inv : S → Prop} {C C' : S → E → Prop}
    (hstep : ∀ s e, Inv s → C' s e → Inv (step s e)) (h : ∀ s e, Inv s → (C s e ↔ C' s e))
    {s : S} (hinit : Inv s) (es : List E) : Along step C s es ↔ Along step C' s es := by
  induction es generalizing s with
  | nil => exact Iff.rfl
  | cons e es ih =>
      have hfirst := h s e hinit
      constructor
      · rintro ⟨hC, hrest⟩
        have hC' := hfirst.mp hC
        exact ⟨hC', (ih (hstep s e hinit hC')).mp hrest⟩
      · rintro ⟨hC', hrest⟩
        exact ⟨hfirst.mpr hC', (ih (hstep s e hinit hC')).mpr hrest⟩

/-- Two properties that agree on an invariant are kept by the same runs. -/
theorem always_congr {Inv P Q : S → Prop} {s : S} {es : List E}
    (hinv : Always step Inv s es) (h : ∀ s, Inv s → (P s ↔ Q s)) :
    Always step P s es ↔ Always step Q s es := by
  induction es generalizing s with
  | nil => exact h s hinv
  | cons e es ih => exact and_congr (h s hinv.1) (ih hinv.2)

/-- The exact rule.  Under `J` a step keeps `P` precisely when it meets `C`, and such a
step keeps `J`. -/
theorem always_iff_along_while {J P : S → Prop} {C : S → E → Prop}
    (hJ : ∀ s e, J s → P s → C s e → J (step s e))
    (hexact : ∀ s e, J s → P s → (P (step s e) ↔ C s e))
    {s : S} (hJs : J s) (hPs : P s) (es : List E) :
    Always step P s es ↔ Along step C s es := by
  induction es generalizing s with
  | nil => exact ⟨fun _ => trivial, fun _ => hPs⟩
  | cons e es ih =>
      have hstep := hexact s e hJs hPs
      constructor
      · intro h
        have hnext : P (step s e) := h.2.head
        have hevent : C s e := hstep.mp hnext
        exact ⟨hevent, (ih (hJ s e hJs hPs hevent) hnext).mp h.2⟩
      · intro h
        have hnext : P (step s e) := hstep.mpr h.1
        exact ⟨hPs, (ih (hJ s e hJs hPs h.1) hnext).mpr h.2⟩

/-- The same, where every step keeps `J`. -/
theorem always_iff_along {J P : S → Prop} {C : S → E → Prop}
    (hJ : ∀ s e, J s → J (step s e))
    (hexact : ∀ s e, J s → P s → (P (step s e) ↔ C s e))
    {s : S} (hJs : J s) (hPs : P s) (es : List E) :
    Always step P s es ↔ Along step C s es :=
  always_iff_along_while (fun s e hs _ _ => hJ s e hs) hexact hJs hPs es

end EventSystem
