import Mathlib.Data.List.Basic
import Mathlib.Data.List.Nodup

/-!
# Lists of records with a key

A file that stores a table as a list is read and written by loops over the
list which compare the key of each record.  The five loops here are the ones
such code consists of: look up, change the first match, replace every match,
drop every match, and replace or append.  Each has one lemma saying what it
does to the look-up function, and one for the list of keys.
-/

namespace KeyedList

variable {α κ : Type*} [DecidableEq κ] (key : α → κ)

def find (k : κ) (l : List α) : Option α :=
  l.find? fun a => decide (key a = k)

def updateFirst (k : κ) (f : α → α) : List α → List α
  | [] => []
  | a :: l => if key a = k then f a :: l else a :: updateFirst k f l

def replaceAll (k : κ) (new : α) (l : List α) : List α :=
  l.map fun a => if key a = k then new else a

def removeAll (k : κ) (l : List α) : List α :=
  l.filter fun a => decide (key a ≠ k)

/-- Replace every record with the key of `new`, or append `new`. -/
def upsert (new : α) (l : List α) : List α :=
  if l.any fun a => decide (key a = key new) then
    replaceAll key (key new) new l
  else l ++ [new]

variable {key}

@[simp] theorem find_nil (k : κ) : find key k [] = none := rfl

theorem find_cons (k : κ) (a : α) (l : List α) :
    find key k (a :: l) = if key a = k then some a else find key k l := by
  by_cases h : key a = k <;> simp [find, h]

theorem find_eq_none_iff {k : κ} {l : List α} :
    find key k l = none ↔ k ∉ l.map key := by
  induction l with
  | nil => simp
  | cons a l ih =>
      rw [find_cons]
      by_cases h : key a = k
      · simp [h]
      · simp only [if_neg h, ih, List.map_cons, List.mem_cons, not_or]
        exact ⟨fun hl => ⟨fun hk => h hk.symm, hl⟩, fun hl => hl.2⟩

theorem isSome_find_iff {k : κ} {l : List α} :
    (find key k l).isSome ↔ k ∈ l.map key := by
  rw [← not_iff_not, Bool.not_eq_true, Option.isSome_eq_false_iff,
    Option.isNone_iff_eq_none, find_eq_none_iff]

/-- With pairwise distinct keys a member is what its key finds. -/
theorem find_of_mem {l : List α} (hnodup : (l.map key).Nodup) {a : α}
    (ha : a ∈ l) : find key (key a) l = some a := by
  induction l with
  | nil => simp at ha
  | cons b l ih =>
      rw [List.map_cons, List.nodup_cons] at hnodup
      rw [find_cons]
      rcases List.mem_cons.mp ha with rfl | ha
      · simp
      · have hne : key b ≠ key a := fun h =>
          hnodup.1 (h ▸ List.mem_map_of_mem ha)
        rw [if_neg hne, ih hnodup.2 ha]

theorem find_map {f : α → α} (hf : ∀ a, key (f a) = key a) (k : κ) (l : List α) :
    find key k (l.map f) = (find key k l).map f := by
  induction l with
  | nil => rfl
  | cons a l ih =>
      rw [List.map_cons, find_cons, find_cons, hf, ih]
      split <;> rfl

theorem find_updateFirst {f : α → α} (hf : ∀ a, key (f a) = key a)
    (k m : κ) (l : List α) :
    find key m (updateFirst key k f l) =
      if m = k then (find key k l).map f else find key m l := by
  induction l with
  | nil => simp [updateFirst]
  | cons a l ih =>
      by_cases ha : key a = k
      · by_cases hm : m = k
        · simp [updateFirst, find_cons, ha, hm, hf]
        · simp [updateFirst, find_cons, ha, hm, hf, Ne.symm hm]
      · by_cases hm : m = k
        · subst hm
          simp only [updateFirst, if_neg ha, find_cons, ih, if_true]
        · simp only [updateFirst, if_neg ha, find_cons, ih, if_neg hm]

theorem map_updateFirst {β : Type*} {f : α → α} {g : α → β} (hf : ∀ a, g (f a) = g a)
    (k : κ) (l : List α) :
    (updateFirst key k f l).map g = l.map g := by
  induction l with
  | nil => rfl
  | cons a l ih =>
      by_cases ha : key a = k
      · simp [updateFirst, ha, hf]
      · simp [updateFirst, ha, ih]

theorem map_key_updateFirst {f : α → α} (hf : ∀ a, key (f a) = key a)
    (k : κ) (l : List α) :
    (updateFirst key k f l).map key = l.map key :=
  map_updateFirst hf k l

theorem updateFirst_eq_nil_iff {f : α → α} {k : κ} {l : List α} :
    updateFirst key k f l = [] ↔ l = [] := by
  cases l with
  | nil => rfl
  | cons a l =>
      rw [updateFirst]
      split <;> simp

theorem updateFirst_eq_self {f : α → α} {k : κ} {l : List α} (h : k ∉ l.map key) :
    updateFirst key k f l = l := by
  induction l with
  | nil => rfl
  | cons a l ih =>
      rw [List.map_cons, List.mem_cons, not_or] at h
      rw [updateFirst, if_neg (Ne.symm h.1), ih h.2]

/-- With pairwise distinct keys the first match is the only one. -/
theorem updateFirst_eq_map {f : α → α} {k : κ} {l : List α} (hnodup : (l.map key).Nodup) :
    updateFirst key k f l = l.map fun a => if key a = k then f a else a := by
  induction l with
  | nil => rfl
  | cons a l ih =>
      rw [List.map_cons, List.nodup_cons] at hnodup
      rw [List.map_cons, ← ih hnodup.2, updateFirst]
      by_cases ha : key a = k
      · subst ha
        rw [if_pos rfl, if_pos rfl, updateFirst_eq_self hnodup.1]
      · rw [if_neg ha, if_neg ha]

/-- Changes under two different keys do not see each other. -/
theorem updateFirst_comm {f g : α → α} (hf : ∀ a, key (f a) = key a)
    (hg : ∀ a, key (g a) = key a) {k m : κ} (hne : k ≠ m) (l : List α) :
    updateFirst key m g (updateFirst key k f l) =
      updateFirst key k f (updateFirst key m g l) := by
  induction l with
  | nil => rfl
  | cons a l ih =>
      by_cases ha : key a = k
      · simp [updateFirst, ha, hf, hne]
      · by_cases hb : key a = m
        · simp [updateFirst, hb, hg, Ne.symm hne]
        · simp [updateFirst, ha, hb, ih]

theorem mem_updateFirst {f : α → α} {k : κ} {l : List α} {a : α}
    (h : a ∈ updateFirst key k f l) : a ∈ l ∨ ∃ b ∈ l, key b = k ∧ a = f b := by
  induction l with
  | nil => simp [updateFirst] at h
  | cons b l ih =>
      by_cases hb : key b = k
      · simp only [updateFirst, if_pos hb, List.mem_cons] at h
        rcases h with rfl | h
        · exact Or.inr ⟨b, by simp, hb, rfl⟩
        · exact Or.inl (List.mem_cons_of_mem b h)
      · simp only [updateFirst, if_neg hb, List.mem_cons] at h
        rcases h with rfl | h
        · exact Or.inl (by simp)
        · rcases ih h with h | ⟨c, hc, hkey, rfl⟩
          · exact Or.inl (List.mem_cons_of_mem b h)
          · exact Or.inr ⟨c, List.mem_cons_of_mem b hc, hkey, rfl⟩

/-- Where the key occurs once at most, every record under it has been changed. -/
theorem mem_updateFirst_of_count {f : α → α} {k : κ} {l : List α} {a : α}
    (hcount : (l.map key).count k ≤ 1) (h : a ∈ updateFirst key k f l) (hkey : key a = k) :
    ∃ b ∈ l, a = f b := by
  induction l with
  | nil => simp [updateFirst] at h
  | cons b l ih =>
      rw [List.map_cons, List.count_cons] at hcount
      by_cases hb : key b = k
      · simp only [updateFirst, if_pos hb, List.mem_cons] at h
        rcases h with rfl | h
        · exact ⟨b, by simp, rfl⟩
        · have hmem : 0 < (l.map key).count k :=
            List.count_pos_iff.mpr (List.mem_map.mpr ⟨a, h, hkey⟩)
          simp only [hb, beq_self_eq_true, if_true] at hcount
          omega
      · simp only [updateFirst, if_neg hb, List.mem_cons] at h
        rcases h with rfl | h
        · exact absurd hkey hb
        · obtain ⟨c, hc, heq⟩ := ih (by omega) h
          exact ⟨c, List.mem_cons_of_mem b hc, heq⟩

theorem find_removeAll (k m : κ) (l : List α) :
    find key m (removeAll key k l) =
      if m = k then none else find key m l := by
  induction l with
  | nil => simp [removeAll]
  | cons a l ih =>
      have hcons : removeAll key k (a :: l) =
          if key a = k then removeAll key k l
          else a :: removeAll key k l := by
        by_cases ha : key a = k <;> simp [removeAll, ha]
      rw [hcons]
      by_cases ha : key a = k
      · rw [if_pos ha, ih, find_cons]
        by_cases hm : m = k
        · simp [hm]
        · have hne : key a ≠ m := fun h => hm (h.symm.trans ha)
          rw [if_neg hm, if_neg hm, if_neg hne]
      · rw [if_neg ha, find_cons, find_cons, ih]
        by_cases hm : m = k
        · subst hm
          simp [ha]
        · simp [hm]

theorem find_replaceAll {k : κ} {new : α} (hnew : key new = k)
    (m : κ) (l : List α) :
    find key m (replaceAll key k new l) =
      if m = k then (find key k l).map fun _ => new else find key m l := by
  induction l with
  | nil => simp [replaceAll]
  | cons a l ih =>
      have hcons : replaceAll key k new (a :: l) =
          (if key a = k then new else a) :: replaceAll key k new l := rfl
      rw [hcons, find_cons, find_cons, find_cons, ih]
      by_cases ha : key a = k
      · by_cases hm : m = k
        · simp [ha, hm, hnew]
        · simp [ha, hm, hnew, Ne.symm hm]
      · by_cases hm : m = k
        · simp [ha, hm]
        · simp [ha, hm]

theorem replaceAll_eq_self {k : κ} {new : α} {l : List α} (h : k ∉ l.map key) :
    replaceAll key k new l = l := by
  have hother : ∀ a ∈ l, (if key a = k then new else a) = a := by
    intro a ha
    rw [if_neg]
    rintro rfl
    exact h (List.mem_map_of_mem ha)
  exact (List.map_congr_left hother).trans (List.map_id' l)

theorem map_key_replaceAll {k : κ} {new : α} (hnew : key new = k)
    (l : List α) : (replaceAll key k new l).map key = l.map key := by
  rw [replaceAll, List.map_map]
  apply List.map_congr_left
  intro a _
  by_cases ha : key a = k
  · simp [ha, hnew]
  · simp [ha]

theorem any_key_iff {k : κ} {l : List α} :
    (l.any fun a => decide (key a = k)) = true ↔ k ∈ l.map key := by
  simp [List.any_eq_true, List.mem_map]

/-- Replace or append makes `new` the record of its key and leaves the other
keys alone. -/
theorem find_upsert (new : α) (m : κ) (l : List α) :
    find key m (upsert key new l) =
      if m = key new then some new else find key m l := by
  unfold upsert
  by_cases hany : (l.any fun a => decide (key a = key new)) = true
  · rw [if_pos hany, find_replaceAll rfl]
    by_cases hm : m = key new
    · have hsome := isSome_find_iff.mpr (any_key_iff.mp hany)
      obtain ⟨old, hold⟩ := Option.isSome_iff_exists.mp hsome
      simp [hm, hold]
    · simp [hm]
  · rw [if_neg hany]
    have hnone : find key (key new) l = none :=
      find_eq_none_iff.mpr fun h => hany (any_key_iff.mpr h)
    by_cases hm : m = key new
    · subst hm
      have happend : find key (key new) (l ++ [new]) =
          (find key (key new) l).or (find key (key new) [new]) := by
        simp [find, List.find?_append]
      rw [happend, hnone]
      simp [find_cons]
    · have happend : find key m (l ++ [new]) =
          (find key m l).or (find key m [new]) := by
        simp [find, List.find?_append]
      rw [happend, if_neg hm, find_cons, if_neg (Ne.symm hm)]
      simp

theorem map_key_upsert (new : α) (l : List α) :
    (upsert key new l).map key =
      if key new ∈ l.map key then l.map key else l.map key ++ [key new] := by
  unfold upsert
  by_cases hany : (l.any fun a => decide (key a = key new)) = true
  · rw [if_pos hany, if_pos (any_key_iff.mp hany), map_key_replaceAll rfl]
  · rw [if_neg hany, if_neg (mt any_key_iff.mpr hany), List.map_append, List.map_singleton]

theorem map_key_removeAll (k : κ) (l : List α) :
    (removeAll key k l).map key = (l.map key).filter (· ≠ k) := by
  rw [removeAll, List.filter_map]
  rfl

theorem mem_upsert {new a : α} {l : List α} (h : a ∈ upsert key new l) :
    a = new ∨ a ∈ l := by
  unfold upsert at h
  split at h
  · obtain ⟨b, hb, hba⟩ := List.mem_map.mp h
    by_cases hkey : key b = key new
    · exact Or.inl (by simpa [hkey] using hba.symm)
    · rw [if_neg hkey] at hba
      exact Or.inr (hba ▸ hb)
  · rcases List.mem_append.mp h with h | h
    · exact Or.inr h
    · exact Or.inl (by simpa using h)

theorem eq_of_mem_upsert {new a : α} {l : List α} (h : a ∈ upsert key new l)
    (hkey : key a = key new) : a = new := by
  unfold upsert at h
  split at h
  · obtain ⟨b, -, rfl⟩ := List.mem_map.mp h
    by_cases hb : key b = key new
    · rw [if_pos hb]
    · rw [if_neg hb] at hkey
      exact absurd hkey hb
  · rename_i hany
    rcases List.mem_append.mp h with h | h
    · exact absurd (any_key_iff.mpr (List.mem_map.mpr ⟨a, h, hkey⟩)) hany
    · exact List.mem_singleton.mp h

/-! ## The records of one key -/

theorem filter_key_updateFirst {f : α → α} (hf : ∀ a, key (f a) = key a) {k m : κ} (hne : m ≠ k)
    (l : List α) :
    (updateFirst key k f l).filter (fun a => decide (key a = m)) =
      l.filter fun a => decide (key a = m) := by
  induction l with
  | nil => rfl
  | cons a l ih =>
      by_cases ha : key a = k
      · simp [updateFirst, ha, hf, Ne.symm hne]
      · simp only [updateFirst, if_neg ha, List.filter_cons, ih]

theorem filter_key_replaceAll {k m : κ} {new : α} (hnew : key new = k) (hne : m ≠ k) (l : List α) :
    (replaceAll key k new l).filter (fun a => decide (key a = m)) =
      l.filter fun a => decide (key a = m) := by
  induction l with
  | nil => rfl
  | cons a l ih =>
      have ih' : (l.map fun a => if key a = k then new else a).filter
          (fun a => decide (key a = m)) = l.filter fun a => decide (key a = m) := ih
      by_cases ha : key a = k
      · simp [replaceAll, ha, hnew, Ne.symm hne, ih']
      · simp only [replaceAll, List.map_cons, if_neg ha, List.filter_cons, ih']

theorem filter_key_upsert {new : α} {m : κ} (hne : m ≠ key new) (l : List α) :
    (upsert key new l).filter (fun a => decide (key a = m)) =
      l.filter fun a => decide (key a = m) := by
  unfold upsert
  split
  · exact filter_key_replaceAll rfl hne l
  · simp [List.filter_append, Ne.symm hne]

end KeyedList
