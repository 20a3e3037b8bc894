import Mathlib.Data.List.Nodup
import Mathlib.Data.List.Induction

/-!
# The keys of a table over its history

Seen from its keys a stored table does three things: it takes a key in, at the
end unless it is there already; it gives a key up; or it changes records
without changing keys.  The keys stay distinct, a key is there when it was
taken in after it was last given up, and two keys keep their order for as long
as neither is given up.
-/

namespace KeyHistory

inductive Act (κ : Type*)
  | put (k : κ)
  | drop (k : κ)
  | keep

variable {κ : Type*}

/-- The key was taken in, or was there at first, and has not been given up since. -/
def Held (keys : List κ) (acts : List (Act κ)) (k : κ) : Prop :=
  (∃ before after, acts = before ++ .put k :: after ∧ .drop k ∉ after) ∨
    (k ∈ keys ∧ .drop k ∉ acts)

/-- The last act either takes the key in itself or leaves the question to those before it. -/
theorem taken_concat {acts : List (Act κ)} {act : Act κ} {k : κ} :
    (∃ before after, acts ++ [act] = before ++ .put k :: after ∧ .drop k ∉ after) ↔
      act = .put k ∨
        (act ≠ .drop k ∧ ∃ before after, acts = before ++ .put k :: after ∧ .drop k ∉ after) := by
  constructor
  · rintro ⟨before, after, heq, hafter⟩
    rcases List.eq_nil_or_concat after with rfl | ⟨front, last, rfl⟩
    · left
      have hlast := List.append_inj_right' heq rfl
      injection hlast
    · right
      rw [List.concat_eq_append] at heq hafter
      rw [← List.cons_append, ← List.append_assoc] at heq
      have hfront := List.append_inj_left' heq rfl
      have hlast := List.append_inj_right' heq rfl
      injection hlast with hlast
      rw [List.mem_append, List.mem_singleton, not_or, ← hlast] at hafter
      exact ⟨hafter.2 ∘ Eq.symm, before, front, hfront, hafter.1⟩
  · rintro (rfl | ⟨hact, before, after, rfl, hafter⟩)
    · exact ⟨acts, [], rfl, List.not_mem_nil⟩
    · refine ⟨before, after ++ [act], by simp, ?_⟩
      rw [List.mem_append, List.mem_singleton, not_or]
      exact ⟨hafter, hact ∘ Eq.symm⟩

theorem held_concat {keys : List κ} {acts : List (Act κ)} {act : Act κ} {k : κ} :
    Held keys (acts ++ [act]) k ↔ act = .put k ∨ (act ≠ .drop k ∧ Held keys acts k) := by
  have hkept : k ∈ keys ∧ Act.drop k ∉ acts ++ [act] ↔
      act ≠ .drop k ∧ k ∈ keys ∧ Act.drop k ∉ acts := by
    rw [List.mem_append, List.mem_singleton, not_or, eq_comm, ← and_assoc, and_comm]
  rw [Held, Held, taken_concat, hkept, or_assoc, and_or_left]

/-! ## One step -/

variable [DecidableEq κ]

def step (keys : List κ) : Act κ → List κ
  | .put k => if k ∈ keys then keys else keys ++ [k]
  | .drop k => keys.filter (· ≠ k)
  | .keep => keys

theorem nodup_step {keys : List κ} (h : keys.Nodup) (act : Act κ) : (step keys act).Nodup := by
  cases act with
  | put k =>
      by_cases hk : k ∈ keys
      · rwa [step, if_pos hk]
      · rw [step, if_neg hk]
        apply h.append (List.nodup_singleton k)
        intro other hother hsingle
        rw [List.mem_singleton] at hsingle
        exact hk (hsingle ▸ hother)
  | drop k => exact h.filter _
  | keep => exact h

theorem mem_step {k : κ} {keys : List κ} {act : Act κ} :
    k ∈ step keys act ↔ act = .put k ∨ (act ≠ .drop k ∧ k ∈ keys) := by
  cases act with
  | put other =>
      by_cases hother : other ∈ keys
      · rw [step, if_pos hother]
        refine ⟨fun hk => .inr ⟨nofun, hk⟩, ?_⟩
        rintro (heq | ⟨-, hk⟩)
        · injection heq with heq
          rwa [← heq]
        · exact hk
      · rw [step, if_neg hother, List.mem_append, List.mem_singleton, or_comm]
        simp [eq_comm]
  | drop other =>
      have hne : k ≠ other ↔ Act.drop other ≠ Act.drop k := by
        rw [Ne, Ne, Act.drop.injEq, eq_comm]
      rw [step, List.mem_filter, decide_eq_true_iff, hne, and_comm]
      simp
  | keep => simp [step]

theorem sublist_step {pair keys : List κ} (h : pair.Sublist keys) {act : Act κ}
    (hdrop : ∀ k ∈ pair, act ≠ .drop k) : pair.Sublist (step keys act) := by
  cases act with
  | put k =>
      by_cases hk : k ∈ keys
      · rwa [step, if_pos hk]
      · rw [step, if_neg hk]
        exact h.trans (List.sublist_append_left keys [k])
  | drop k =>
      have hpair : pair.filter (· ≠ k) = pair := by
        apply List.filter_eq_self.mpr
        intro other hother
        have hne : other ≠ k := by
          rintro rfl
          exact hdrop other hother rfl
        simpa using hne
      rw [← hpair]
      exact h.filter _
  | keep => exact h

/-! ## A run -/

def run (keys : List κ) (acts : List (Act κ)) : List κ := acts.foldl step keys

theorem run_append (keys : List κ) (first second : List (Act κ)) :
    run keys (first ++ second) = run (run keys first) second := List.foldl_append

theorem nodup_run {keys : List κ} (h : keys.Nodup) (acts : List (Act κ)) :
    (run keys acts).Nodup := by
  induction acts generalizing keys with
  | nil => exact h
  | cons act acts ih => exact ih (nodup_step h act)

theorem mem_run_iff {keys : List κ} {acts : List (Act κ)} {k : κ} :
    k ∈ run keys acts ↔ Held keys acts k := by
  induction acts using List.reverseRecOn with
  | nil => simp [run, Held]
  | append_singleton acts act ih =>
      rw [run_append]
      show k ∈ step (run keys acts) act ↔ _
      rw [mem_step, held_concat, ih]

theorem sublist_run {pair keys : List κ} (h : pair.Sublist keys) {acts : List (Act κ)}
    (hdrop : ∀ k ∈ pair, Act.drop k ∉ acts) : pair.Sublist (run keys acts) := by
  induction acts generalizing keys with
  | nil => exact h
  | cons act acts ih =>
      apply ih
      · apply sublist_step h
        rintro k hk rfl
        exact hdrop k hk List.mem_cons_self
      · intro k hk hmem
        exact hdrop k hk (List.mem_cons_of_mem act hmem)

end KeyHistory
