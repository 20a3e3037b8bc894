import ColoManage.Library.Yaml
import Mathlib.Data.List.Forall2

/-!
# Reading a tree by a schema

A reader that takes a document apart key by key, section by section, is a
schema.  A key is read in one of four forms, which differ in what is looked at
before the conversion; what is not looked at is an exception.  A schema reads
what its list of full paths reads, one after the other, and the first path that
does not fit decides how the reading ends.
-/

namespace Yaml

/-- `bareText` converts without a look; `text` and `port` look whether the key
is defined, `size` also whether it is a scalar. -/
inductive Form
  | bareText
  | text
  | port
  | size
  deriving DecidableEq, Repr

inductive Value
  | text (value : String)
  | port (value : UInt16)
  | size (value : ℤ)
  deriving DecidableEq, Repr

def Form.convert : Form → Node → Except Exn Value
  | .bareText, node => node.asString.map .text
  | .text, node => node.asString.map .text
  | .port, node => node.asUShort.map .port
  | .size, node => node.asInt.map .size

/-- The node at the end of a path of keys. -/
def Node.walk : Node → List String → Except Exn (Option Node)
  | node, [] => .ok (some node)
  | node, key :: path =>
      match node.sub key with
      | .error exn => .error exn
      | .ok none => .ok none
      | .ok (some value) => value.walk path

structure Requirement where
  path : List String
  form : Form
  deriving DecidableEq, Repr

/-- The key is there and converts. -/
def Requirement.Fits (doc : Node) (value : Value) (req : Requirement) : Prop :=
  ∃ node, doc.walk req.path = .ok (some node) ∧ req.form.convert node = .ok value

/-- The key does not fit, and what is looked at shows it. -/
def Requirement.Caught (doc : Node) (req : Requirement) : Prop :=
  (doc.walk req.path = .ok none ∧ req.form ≠ .bareText) ∨
    ∃ node, doc.walk req.path = .ok (some node) ∧ node.isScalar = false ∧ req.form = .size

/-- In reading order, the first key that does not fit is caught. -/
def Orderly (doc : Node) (reqs : List Requirement) : Prop :=
  ∀ before req after, reqs = before ++ req :: after →
    (∀ earlier ∈ before, ∃ value, earlier.Fits doc value) →
      (∃ value, req.Fits doc value) ∨ req.Caught doc

/-! ## Reading one key -/

/-- The error is the exception, or `none` for a refusal. -/
abbrev Reading (α : Type) : Type := Except (Option Exn) α

def Requirement.read (doc : Node) (req : Requirement) : Reading Value :=
  match doc.walk req.path with
  | .error exn => .error (some exn)
  | .ok none => .error (if req.form = .bareText then some .invalidNode else none)
  | .ok (some node) =>
      if req.form = .size ∧ node.isScalar = false then .error none
      else (req.form.convert node).mapError some

theorem isScalar_of_convert {node : Node} {value : Value}
    (h : Form.size.convert node = .ok value) : node.isScalar = true := by
  cases node with
  | scalar text => rfl
  | null => simp [Form.convert, Node.asInt, Except.map] at h
  | seq items => simp [Form.convert, Node.asInt, Except.map] at h
  | map fields => simp [Form.convert, Node.asInt, Except.map] at h

theorem read_eq_ok_iff {doc : Node} {req : Requirement} {value : Value} :
    req.read doc = .ok value ↔ req.Fits doc value := by
  unfold Requirement.read Requirement.Fits
  cases hwalk : doc.walk req.path with
  | error exn => simp
  | ok found =>
      cases found with
      | none => simp
      | some node =>
          simp only [Except.ok.injEq, Option.some.injEq, exists_eq_left']
          by_cases hcaught : req.form = .size ∧ node.isScalar = false
          · rw [if_pos hcaught]
            simp only [reduceCtorEq, false_iff]
            intro hconvert
            rw [hcaught.1] at hconvert
            rw [isScalar_of_convert hconvert] at hcaught
            exact absurd hcaught.2 (by decide)
          · rw [if_neg hcaught]
            cases req.form.convert node <;> simp [Except.mapError]

theorem read_eq_refused_iff {doc : Node} {req : Requirement} :
    req.read doc = .error none ↔ req.Caught doc := by
  unfold Requirement.read Requirement.Caught
  cases hwalk : doc.walk req.path with
  | error exn => simp
  | ok found =>
      cases found with
      | none => by_cases hform : req.form = .bareText <;> simp [hform]
      | some node =>
          by_cases hcaught : req.form = .size ∧ node.isScalar = false
          · simp [hcaught]
          · have hnot : ¬(node.isScalar = false ∧ req.form = .size) := fun h =>
              hcaught ⟨h.2, h.1⟩
            simp only [if_neg hcaught]
            cases req.form.convert node <;> simp [Except.mapError, hnot]

/-! ## Reading a list of keys -/

theorem mapM_read_eq_ok_iff {doc : Node} {reqs : List Requirement} {values : List Value} :
    reqs.mapM (Requirement.read doc) = .ok values ↔
      List.Forall₂ (fun req value => req.Fits doc value) reqs values := by
  induction reqs generalizing values with
  | nil => cases values <;> simp [pure, Except.pure]
  | cons req reqs ih =>
      rw [List.mapM_cons, List.forall₂_cons_left_iff]
      constructor
      · intro h
        cases hread : req.read doc with
        | error stop => simp [hread, bind, Except.bind] at h
        | ok value =>
            cases hrest : reqs.mapM (Requirement.read doc) with
            | error stop => simp [hread, hrest, bind, Except.bind] at h
            | ok rest =>
                simp only [hread, hrest, bind, Except.bind, pure, Except.pure,
                  Except.ok.injEq] at h
                exact ⟨value, rest, read_eq_ok_iff.mp hread, ih.mp hrest, h.symm⟩
      · rintro ⟨value, rest, hread, hrest, rfl⟩
        rw [read_eq_ok_iff.mpr hread, ih.mpr hrest]
        rfl

/-- What holds of every element that comes after good ones: it holds of the first, and
of the others if the first is good. -/
theorem forall_after_good_cons_iff {α : Type} {good holds : α → Prop} {a : α} {l : List α} :
    (∀ before b after, a :: l = before ++ b :: after → (∀ c ∈ before, good c) → holds b) ↔
      holds a ∧ (good a →
        ∀ before b after, l = before ++ b :: after → (∀ c ∈ before, good c) → holds b) := by
  constructor
  · intro h
    refine ⟨h [] a l rfl (by simp), fun hgood before b after heq hbefore => ?_⟩
    refine h (a :: before) b after (by rw [heq]; rfl) ?_
    exact List.forall_mem_cons.mpr ⟨hgood, hbefore⟩
  · rintro ⟨hfirst, hrest⟩ before b after heq hbefore
    cases before with
    | nil =>
        obtain ⟨rfl, rfl⟩ := List.cons.inj heq
        exact hfirst
    | cons head before =>
        obtain ⟨rfl, rfl⟩ := List.cons.inj heq
        obtain ⟨hgood, hbefore⟩ := List.forall_mem_cons.mp hbefore
        exact hrest hgood before b after rfl hbefore

theorem orderly_cons_iff {doc : Node} {req : Requirement} {reqs : List Requirement} :
    Orderly doc (req :: reqs) ↔
      ((∃ value, req.Fits doc value) ∨ req.Caught doc) ∧
        ((∃ value, req.Fits doc value) → Orderly doc reqs) :=
  forall_after_good_cons_iff

/-- A list ends without an exception exactly when it is orderly. -/
theorem mapM_read_orderly_iff {doc : Node} {reqs : List Requirement} :
    (∀ exn, reqs.mapM (Requirement.read doc) ≠ .error (some exn)) ↔ Orderly doc reqs := by
  induction reqs with
  | nil =>
      simp only [List.mapM_nil]
      constructor
      · intro _ before req after heq
        simp at heq
      · intro _ exn h
        cases h
  | cons req reqs ih =>
      rw [orderly_cons_iff, List.mapM_cons]
      cases hread : req.read doc with
      | error stop =>
          have hnofit : ¬∃ value, req.Fits doc value := by
            rintro ⟨value, hfits⟩
            rw [read_eq_ok_iff.mpr hfits] at hread
            cases hread
          rw [← read_eq_refused_iff, hread]
          simp only [hnofit, false_or, IsEmpty.forall_iff, and_true, bind, Except.bind]
          cases stop <;> simp
      | ok value =>
          have hfits : ∃ value, req.Fits doc value := ⟨value, read_eq_ok_iff.mp hread⟩
          simp only [hfits, true_or, true_and, true_imp_iff, ← ih]
          cases reqs.mapM (Requirement.read doc) <;>
            simp [bind, Except.bind, pure, Except.pure]

/-! ## Sections -/

/-- The keys of a section in reading order; a `group` looks whether its key is
defined and goes into it. -/
inductive Schema
  | done
  | leaf (key : String) (form : Form) (rest : Schema)
  | group (key : String) (inner rest : Schema)

namespace Schema

def read : Schema → Node → Reading (List Value)
  | .done, _ => pure []
  | .leaf key form rest, node => do
      let value ← Requirement.read node ⟨[key], form⟩
      let values ← rest.read node
      pure (value :: values)
  | .group key inner rest, node =>
      match node.sub key with
      | .error exn => .error (some exn)
      | .ok none => .error none
      | .ok (some value) => do
          let values ← inner.read value
          let more ← rest.read node
          pure (values ++ more)

/-- The full paths of the keys that are converted. -/
def requirements : Schema → List Requirement
  | .done => []
  | .leaf key form rest => ⟨[key], form⟩ :: rest.requirements
  | .group key inner rest =>
      (inner.requirements.map fun req => ⟨key :: req.path, req.form⟩) ++ rest.requirements

/-- The first key of the section is looked at. -/
def Opens : Schema → Prop
  | .done => False
  | .leaf _ form _ => form ≠ .bareText
  | .group _ inner _ => inner.Opens

/-- The first key of every section within is looked at. -/
def Guarded : Schema → Prop
  | .done => True
  | .leaf _ _ rest => rest.Guarded
  | .group _ inner rest => inner.Opens ∧ inner.Guarded ∧ rest.Guarded

theorem requirements_of_opens {schema : Schema} (h : schema.Opens) :
    ∃ req reqs, schema.requirements = req :: reqs ∧ req.form ≠ .bareText := by
  induction schema with
  | done => exact absurd h id
  | leaf key form rest => exact ⟨⟨[key], form⟩, rest.requirements, rfl, h⟩
  | group key inner rest ih _ =>
      obtain ⟨req, reqs, heq, hform⟩ := ih h
      exact ⟨⟨key :: req.path, req.form⟩, _, by rw [requirements, heq]; rfl, hform⟩

theorem read_below {doc value : Node} {key : String} (h : doc.sub key = .ok (some value))
    (req : Requirement) :
    Requirement.read doc ⟨key :: req.path, req.form⟩ = req.read value := by
  simp only [Requirement.read, Node.walk, h]

/-- Where the section is not there its first key says so. -/
theorem read_outside {doc : Node} {key : String} (req : Requirement)
    (hform : req.form ≠ .bareText) :
    (∀ exn, doc.sub key = .error exn →
        Requirement.read doc ⟨key :: req.path, req.form⟩ = .error (some exn)) ∧
      (doc.sub key = .ok none →
        Requirement.read doc ⟨key :: req.path, req.form⟩ = .error none) := by
  constructor
  · intro exn h
    simp only [Requirement.read, Node.walk, h]
  · intro h
    simp only [Requirement.read, Node.walk, h, if_neg hform]

/-- A schema reads what the list of its full paths reads. -/
theorem read_eq_mapM {schema : Schema} (h : schema.Guarded) (doc : Node) :
    schema.read doc = schema.requirements.mapM (Requirement.read doc) := by
  induction schema generalizing doc with
  | done => rfl
  | leaf key form rest ih =>
      rw [read, requirements, List.mapM_cons, ih h doc]
  | group key inner rest ihInner ihRest =>
      obtain ⟨hopens, hinner, hrest⟩ := h
      obtain ⟨req, reqs, hreqs, hform⟩ := requirements_of_opens hopens
      rw [read, requirements, List.mapM_append, ← ihRest hrest doc]
      cases hsub : doc.sub key with
      | error exn =>
          rw [hreqs, List.map_cons, List.mapM_cons, (read_outside req hform).1 exn hsub]
          rfl
      | ok found =>
          cases found with
          | none =>
              rw [hreqs, List.map_cons, List.mapM_cons, (read_outside req hform).2 hsub]
              rfl
          | some value =>
              have hbelow : (inner.requirements.map fun req =>
                    (⟨key :: req.path, req.form⟩ : Requirement)).mapM (Requirement.read doc) =
                  inner.requirements.mapM (Requirement.read value) := by
                rw [List.mapM_map]
                exact congrArg (fun f => inner.requirements.mapM f)
                  (funext fun req => read_below hsub req)
              rw [hbelow, ← ihInner hinner value]

end Schema

/-! ## Reading with a conversion of its own type -/

/-- `node[key]` in one of the forms, for a conversion of its own type. -/
def readKey {α : Type} (form : Form) (convert : Node → Except Exn α) (node : Node)
    (key : String) : Reading α :=
  match node.sub key with
  | .error exn => .error (some exn)
  | .ok none => .error (if form = .bareText then some .invalidNode else none)
  | .ok (some value) =>
      if form = .size ∧ value.isScalar = false then .error none
      else (convert value).mapError some

def readSection (node : Node) (key : String) : Reading Node :=
  readKey .text .ok node key

theorem readSection_bind {α : Type} (form : Form) (convert : Node → Except Exn α)
    (node : Node) (key : String) (hform : form ≠ .bareText) :
    (readSection node key >>= fun value =>
        if form = .size ∧ value.isScalar = false then .error none
        else (convert value).mapError some) = readKey form convert node key := by
  unfold readSection readKey
  cases node.sub key with
  | error exn => rfl
  | ok found =>
      cases found with
      | none => simp [bind, Except.bind, hform]
      | some value => rfl

theorem requirement_read {α : Type} {form : Form} {convert : Node → Except Exn α}
    {inject : α → Value} (h : ∀ node, form.convert node = (convert node).map inject)
    (node : Node) (key : String) :
    Requirement.read node ⟨[key], form⟩ = inject <$> readKey form convert node key := by
  simp only [Requirement.read, Node.walk, readKey]
  cases node.sub key with
  | error exn => rfl
  | ok found =>
      cases found with
      | none => rfl
      | some value =>
          by_cases hcaught : form = .size ∧ value.isScalar = false
          · simp only [if_pos hcaught]
            rfl
          · simp only [if_neg hcaught, h]
            cases convert value <;> rfl

theorem read_leaf {α : Type} {form : Form} {convert : Node → Except Exn α}
    {inject : α → Value} (h : ∀ node, form.convert node = (convert node).map inject)
    (key : String) (rest : Schema) (node : Node) :
    (Schema.leaf key form rest).read node =
      readKey form convert node key >>= fun value =>
        (inject value :: ·) <$> rest.read node := by
  rw [Schema.read, requirement_read h]
  cases readKey form convert node key with
  | error stop => rfl
  | ok value => cases rest.read node <;> rfl

theorem read_group (key : String) (inner rest : Schema) (node : Node) :
    (Schema.group key inner rest).read node =
      readSection node key >>= fun value =>
        inner.read value >>= fun values => (values ++ ·) <$> rest.read node := by
  rw [Schema.read]
  unfold readSection readKey
  cases node.sub key with
  | error exn => rfl
  | ok found =>
      cases found with
      | none => rfl
      | some value =>
          show (inner.read value >>= fun values => rest.read node >>= fun more =>
              pure (values ++ more)) = inner.read value >>= _
          simp only [bind_pure_comp]

theorem read_bareText (key : String) (rest : Schema) (node : Node) :
    (Schema.leaf key .bareText rest).read node =
      readKey .bareText Node.asString node key >>= fun value =>
        (Value.text value :: ·) <$> rest.read node :=
  read_leaf (fun _ => rfl) key rest node

theorem read_text (key : String) (rest : Schema) (node : Node) :
    (Schema.leaf key .text rest).read node =
      readKey .text Node.asString node key >>= fun value =>
        (Value.text value :: ·) <$> rest.read node :=
  read_leaf (fun _ => rfl) key rest node

theorem read_port (key : String) (rest : Schema) (node : Node) :
    (Schema.leaf key .port rest).read node =
      readKey .port Node.asUShort node key >>= fun value =>
        (Value.port value :: ·) <$> rest.read node :=
  read_leaf (fun _ => rfl) key rest node

theorem read_size (key : String) (rest : Schema) (node : Node) :
    (Schema.leaf key .size rest).read node =
      readKey .size Node.asInt node key >>= fun value =>
        (Value.size value :: ·) <$> rest.read node :=
  read_leaf (fun _ => rfl) key rest node

theorem read_done (node : Node) : Schema.done.read node = pure [] := rfl

end Yaml
