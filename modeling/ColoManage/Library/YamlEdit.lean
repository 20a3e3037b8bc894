import ColoManage.Library.Yaml
import Mathlib.Data.List.Defs
import Mathlib.Tactic.Common

/-!
# Changing YAML documents

Assigning to a key of a node, and reading back what was assigned.  An integer
is written in decimal digits and a truth value as `true` or `false`.
-/

namespace Yaml

/-- The first field of a key is replaced, or one is added. -/
def setField (key : String) (value : Node) : List (String × Node) → List (String × Node)
  | [] => [(key, value)]
  | field :: fields =>
      if field.1 = key then (key, value) :: fields else field :: setField key value fields

/-- A list that is subscripted by a string becomes a map of its positions. -/
def positions (items : List Node) : List (String × Node) :=
  items.zipIdx.map fun (item, i) => (toString i, item)

/-- A node that has been subscripted by a string to be written. -/
def Node.opened : Node → Node
  | .null => .map []
  | .scalar text => .scalar text
  | .seq items => .map (positions items)
  | .map fields => .map fields

/-- `node[key] = value`. -/
def Node.assign (node : Node) (key : String) (value : Node) : Except Exn Node :=
  match node.opened with
  | .map fields => .ok (.map (setField key value fields))
  | _ => .error .badSubscript

def ofInt (i : ℤ) : Node := .scalar (toString i)

def ofBool (b : Bool) : Node := .scalar (if b then "true" else "false")

/-! ## Fields -/

theorem lookup_setField (key other : String) (value : Node) (fields : List (String × Node)) :
    (setField key value fields).lookup other =
      if other = key then some value else fields.lookup other := by
  induction fields with
  | nil =>
      rw [setField, List.lookup_cons]
      by_cases h : other = key <;> simp [h, beq_eq_false_iff_ne.mpr]
  | cons field fields ih =>
      rw [setField]
      by_cases hfield : field.1 = key
      · rw [if_pos hfield, List.lookup_cons, List.lookup_cons, hfield]
        by_cases h : other = key
        · simp [h]
        · simp [h, beq_eq_false_iff_ne.mpr h]
      · rw [if_neg hfield, List.lookup_cons, List.lookup_cons, ih]
        by_cases h : other = key
        · subst h
          simp [beq_eq_false_iff_ne.mpr (Ne.symm hfield)]
        · simp [h]

/-- Documents whose keys can be assigned: a map, or nothing yet. -/
inductive Node.IsTable : Node → Prop
  | null : IsTable .null
  | map (fields : List (String × Node)) : IsTable (.map fields)

theorem Node.IsTable.exists_assign {node : Node} (h : node.IsTable) (key : String) (value : Node) :
    ∃ node', node.assign key value = .ok node' ∧ node'.IsTable ∧
      ∀ other, node'.sub other = if other = key then .ok (some value) else node.sub other := by
  cases h with
  | null =>
      refine ⟨.map [(key, value)], rfl, .map _, fun other => ?_⟩
      have hlookup := lookup_setField key other value []
      show Except.ok ((setField key value []).lookup other) = _
      rw [hlookup]
      split <;> rfl
  | map fields =>
      refine ⟨.map (setField key value fields), rfl, .map _, fun other => ?_⟩
      show Except.ok ((setField key value fields).lookup other) = _
      rw [lookup_setField]
      split <;> rfl

theorem Node.IsTable.opened {node : Node} (h : node.IsTable) :
    node.opened.IsTable ∧ ∀ key, node.opened.sub key = node.sub key := by
  cases h with
  | null => exact ⟨.map [], fun _ => rfl⟩
  | map fields => exact ⟨.map fields, fun _ => rfl⟩

/-! ## Integers -/

theorem digitValue_of_isDigit {c : Char} (h : c.isDigit = true) :
    digitValue c = c.toNat - 48 ∧ digitValue c < 10 := by
  have hrange : 48 ≤ c.toNat ∧ c.toNat ≤ 57 := by
    simp only [Char.isDigit, Bool.and_eq_true, decide_eq_true_eq] at h
    exact h
  rw [digitValue, if_pos h]
  exact ⟨rfl, by omega⟩

theorem readDigits_toDigits (n : ℕ) : readDigits 10 (Nat.toDigits 10 n) = some n := by
  have hdigit : ∀ c ∈ Nat.toDigits 10 n, c.isDigit = true :=
    fun c hc => Nat.isDigit_of_mem_toDigits (by decide) (by decide) hc
  have hfold : ∀ (cs : List Char) (init : ℕ), (∀ c ∈ cs, c.isDigit = true) →
      cs.foldl (fun value c => 10 * value + digitValue c) init = Nat.ofDigitChars 10 cs init := by
    intro cs
    induction cs with
    | nil => intro init _; rfl
    | cons c cs ih =>
        intro init hcs
        obtain ⟨hc, hrest⟩ := List.forall_mem_cons.mp hcs
        rw [List.foldl_cons, ih _ hrest, Nat.ofDigitChars_cons, (digitValue_of_isDigit hc).1]
        rfl
  have hbad : (Nat.toDigits 10 n).any (fun c => decide (10 ≤ digitValue c)) = false := by
    rw [List.any_eq_false]
    intro c hc
    have hlt := (digitValue_of_isDigit (hdigit c hc)).2
    simpa using hlt
  have hempty : (Nat.toDigits 10 n).isEmpty = false := by simp
  rw [readDigits, hempty, hbad, hfold _ 0 hdigit, Nat.ofDigitChars_ten_toDigits]
  rfl

/-- The digits of a number start with `0` only if it is zero. -/
theorem exists_toDigits_cons {n : ℕ} (hn : 0 < n) :
    ∃ c cs, Nat.toDigits 10 n = c :: cs ∧ c ≠ '0' ∧ c.isDigit = true := by
  have hdigit : ∀ c ∈ Nat.toDigits 10 n, c.isDigit = true :=
    fun c hc => Nat.isDigit_of_mem_toDigits (by decide) (by decide) hc
  suffices h : ∃ c cs, Nat.toDigits 10 n = c :: cs ∧ c ≠ '0' by
    obtain ⟨c, cs, heq, hc⟩ := h
    exact ⟨c, cs, heq, hc, hdigit c (heq ▸ List.mem_cons_self)⟩
  clear hdigit
  induction n using Nat.strongRecOn with
  | ind n ih =>
      by_cases hsmall : n < 10
      · refine ⟨n.digitChar, [], Nat.toDigits_of_lt_base hsmall, ?_⟩
        rw [ne_eq, Nat.digitChar_eq_zero]
        omega
      · obtain ⟨c, cs, heq, hc⟩ := ih (n / 10) (by omega) (by omega)
        rw [Nat.toDigits_of_base_le (by decide) (by omega), heq]
        exact ⟨c, _, rfl, hc⟩

theorem readNat_cons {c : Char} (hc : c ≠ '0') (cs : List Char) :
    readNat (c :: cs) = readDigits 10 (c :: cs) := by
  unfold readNat
  split
  all_goals first | rfl | simp_all

theorem readNat_toDigits (n : ℕ) : readNat (Nat.toDigits 10 n) = some n := by
  by_cases hn : n = 0
  · subst hn
    decide
  · obtain ⟨c, cs, heq, hc, -⟩ := exists_toDigits_cons (Nat.pos_of_ne_zero hn)
    have hread := readDigits_toDigits n
    rw [heq] at hread ⊢
    rw [readNat_cons hc, hread]

theorem trimEnd_append_digits (cs : List Char) (n : ℕ) :
    trimEnd (cs ++ Nat.toDigits 10 n) = cs ++ Nat.toDigits 10 n := by
  have hne : Nat.toDigits 10 n ≠ [] := Nat.toDigits_ne_nil
  have hlast : ((Nat.toDigits 10 n).getLast hne).isDigit = true :=
    Nat.isDigit_of_mem_toDigits (by decide) (by decide) (List.getLast_mem hne)
  have hspace : isSpace ((Nat.toDigits 10 n).getLast hne) = false := by
    generalize (Nat.toDigits 10 n).getLast hne = c at hlast
    by_contra hc
    simp only [isSpace, Char.isWhitespace, Bool.not_eq_false, Bool.or_eq_true, decide_eq_true_eq,
      beq_iff_eq] at hc
    rcases hc with ((((rfl | rfl) | rfl) | rfl) | htab) | hfeed
    · cases hlast
    · cases hlast
    · cases hlast
    · cases hlast
    · simp [Char.isDigit_iff_toNat, htab] at hlast
    · simp [Char.isDigit_iff_toNat, hfeed] at hlast
  rw [← List.dropLast_append_getLast hne, ← List.append_assoc, trimEnd, List.reverse_append,
    List.reverse_singleton, List.singleton_append, List.dropWhile_cons_of_neg (by simp [hspace])]
  simp

theorem readInt_toString (i : ℤ) : readInt (toString i) = some i := by
  cases i with
  | ofNat n =>
      have htext : (toString (Int.ofNat n)).toList = Nat.toDigits 10 n := Nat.toList_repr
      have htrim := trimEnd_append_digits [] n
      rw [List.nil_append] at htrim
      have hread := readNat_toDigits n
      obtain ⟨c, cs, heq⟩ := List.exists_cons_of_ne_nil (Nat.toDigits_ne_nil (b := 10) (n := n))
      have hc : c.isDigit = true :=
        Nat.isDigit_of_mem_toDigits (by decide) (by decide) (heq ▸ List.mem_cons_self)
      rw [readInt, htext, htrim]
      rw [heq] at hread ⊢
      split
      · rename_i hminus
        cases hminus
        cases hc
      · rename_i hplus
        cases hplus
        cases hc
      · rw [hread]
        rfl
  | negSucc n =>
      have htext : (toString (Int.negSucc n)).toList = '-' :: Nat.toDigits 10 (n + 1) := by
        show ("-" ++ Nat.repr (n + 1)).toList = _
        rw [String.toList_append, Nat.toList_repr]
        rfl
      have htrim : trimEnd ('-' :: Nat.toDigits 10 (n + 1)) = '-' :: Nat.toDigits 10 (n + 1) :=
        trimEnd_append_digits ['-'] (n + 1)
      rw [readInt, htext, htrim]
      simp only [readNat_toDigits]
      rfl

theorem asInt_ofInt {i : ℤ} (hlow : -2147483648 ≤ i) (hhigh : i ≤ 2147483647) :
    (ofInt i).asInt = .ok i := by
  rw [ofInt, Node.asInt, readInt_toString]
  simp [hlow, hhigh]

theorem asBool_ofBool (b : Bool) : (ofBool b).asBool = .ok b := by
  cases b <;> decide +kernel

end Yaml
