import ColoManage.Library.Schema
import ColoManage.Service

/-!
# Which malformed definitions are refused

`vm_config_parse` looks whether a key is defined before it converts it, and in
three places whether it is a scalar.  A section that is a scalar, a text that
is no number and a missing name are not looked for, and throw.  The table
`requiredKeys` is what the parser converts, in its order.
-/

namespace ColoManage

open Yaml

/-! ## The required keys -/

/-- A required key, the form it is read in, and the member it is read for. -/
structure RequiredKey where
  path : List String
  form : Form
  member : Domain → Value

def requiredKeys : List RequiredKey :=
  [⟨["name"], .bareText, fun d => .text d.name⟩,
    ⟨["qemu"], .text, fun d => .text d.qemuPath⟩,
    ⟨["memory"], .size, fun d => .size d.memorySize⟩,
    ⟨["vcpu"], .size, fun d => .size d.vcpu⟩,
    ⟨["os", "arch"], .text, fun d => .text d.osArchType⟩,
    ⟨["os", "machine"], .text, fun d => .text d.osMachine⟩,
    ⟨["os", "type"], .text, fun d => .text d.osType⟩,
    ⟨["os", "OS"], .text, fun d => .text d.osOS⟩,
    ⟨["cpu"], .text, fun d => .text d.cpuType⟩,
    ⟨["disk", "driver"], .text, fun d => .text d.disk.driver⟩,
    ⟨["disk", "size"], .size, fun d => .size d.disk.diskSize⟩,
    ⟨["disk", "path"], .text, fun d => .text d.disk.path⟩,
    ⟨["disk", "hidden_path"], .text, fun d => .text d.disk.hiddenPath⟩,
    ⟨["disk", "active_path"], .text, fun d => .text d.disk.activePath⟩,
    ⟨["display", "vnc_port"], .port, fun d => .port d.vncPort⟩,
    ⟨["net", "id"], .text, fun d => .text d.net.id⟩,
    ⟨["net", "br"], .text, fun d => .text d.net.br⟩,
    ⟨["net", "helper"], .text, fun d => .text d.net.helper⟩,
    ⟨["net", "mac"], .text, fun d => .text d.net.mac⟩,
    ⟨["colo", "pri", "telnet_port"], .port, fun d => .port d.pri.telnetPort⟩,
    ⟨["colo", "pri", "mirror_port"], .port, fun d => .port d.pri.mirrorPort⟩,
    ⟨["colo", "pri", "cmp0_port"], .port, fun d => .port d.pri.cmp0Port⟩,
    ⟨["colo", "pri", "cmp1_port"], .port, fun d => .port d.pri.cmp1Port⟩,
    ⟨["colo", "pri", "cmp_out_port"], .port, fun d => .port d.pri.cmpOutPort⟩,
    ⟨["colo", "sec", "telnet_port"], .port, fun d => .port d.sec.telnetPort⟩,
    ⟨["colo", "sec", "nbd_port"], .port, fun d => .port d.sec.nbdPort⟩,
    ⟨["colo", "sec", "migrate_port"], .port, fun d => .port d.sec.migratePort⟩,
    ⟨["colo", "sec", "red0_port"], .port, fun d => .port d.sec.red0Port⟩,
    ⟨["colo", "sec", "red1_port"], .port, fun d => .port d.sec.red1Port⟩]

def RequiredKey.requirement (key : RequiredKey) : Requirement := ⟨key.path, key.form⟩

/-- Every required key is there and converts to its member of `d`. -/
def ReadsAs (doc : Yaml.Node) (d : Domain) : Prop :=
  ∀ key ∈ requiredKeys, key.requirement.Fits doc (key.member d)

/-- The parser ends normally, and accepts what reads as a domain. -/
def ParseHonest (doc : Yaml.Node) (result : Parsed Domain) : Prop :=
  (∃ d, result = .ok d ∧ ReadsAs doc d) ∨
    ((∃ err, result = .error (.refused err)) ∧ ∀ d, ¬ReadsAs doc d)

/-- The same of `vm_define`, which refuses the name of the save file. -/
def DefineHonest (doc : Yaml.Node) (result : Parsed (Domain × Node)) : Prop :=
  (∃ d nd', result = .ok (d, nd') ∧ ReadsAs doc d) ∨
    ((∃ err, result = .error (.refused err)) ∧ ∀ d, ReadsAs doc d → d.name = "save")

/-- The same of `get_domain`, which reads the document of every entry of the
name and keeps the last. -/
def GetHonest (docs : List Yaml.Node) (result : Parsed Domain) : Prop :=
  (∃ d before last, result = .ok d ∧ docs = before ++ [last] ∧ ReadsAs last d ∧
      ∀ doc ∈ before, ∃ d, ReadsAs doc d) ∨
    ((∃ err, result = .error (.refused err)) ∧
      (docs = [] ∨ ∃ doc ∈ docs, ∀ d, ¬ReadsAs doc d))

def parsedKeys : List Requirement := requiredKeys.map RequiredKey.requirement

/-- Every document is orderly that comes after documents that read. -/
def AllOrderly (docs : List Yaml.Node) : Prop :=
  ∀ before doc after, docs = before ++ doc :: after →
    (∀ earlier ∈ before, ∃ d, ReadsAs earlier d) →
      Orderly doc parsedKeys

/-- What the entries of the name in the save file point to. -/
def domainDocs (domainName : String) (nd : Node) : List (Option Yaml.Node) :=
  (nd.save.domains.entries.filter fun entry => decide (entry.name = domainName)).map
    fun entry => nd.loadFile entry.path

/-- What `vm_define` looks at: the name is looked at, too. -/
def definedKeys : List Requirement := ⟨["name"], .text⟩ :: parsedKeys.tail

/-- The name reads as the one that `vm_define` refuses. -/
def Reserved (doc : Yaml.Node) : Prop :=
  (⟨["name"], .text⟩ : Requirement).Fits doc (.text "save")

/-! ## The parser as a schema -/

def osSchema : Schema :=
  .leaf "arch" .text <| .leaf "machine" .text <| .leaf "type" .text <| .leaf "OS" .text .done

def diskSchema : Schema :=
  .leaf "driver" .text <| .leaf "size" .size <| .leaf "path" .text <|
    .leaf "hidden_path" .text <| .leaf "active_path" .text .done

def netSchema : Schema :=
  .leaf "id" .text <| .leaf "br" .text <| .leaf "helper" .text <| .leaf "mac" .text .done

def priSchema : Schema :=
  .leaf "telnet_port" .port <| .leaf "mirror_port" .port <| .leaf "cmp0_port" .port <|
    .leaf "cmp1_port" .port <| .leaf "cmp_out_port" .port .done

def secSchema : Schema :=
  .leaf "telnet_port" .port <| .leaf "nbd_port" .port <| .leaf "migrate_port" .port <|
    .leaf "red0_port" .port <| .leaf "red1_port" .port .done

def domainSchema : Schema :=
  .leaf "name" .bareText <| .leaf "qemu" .text <| .leaf "memory" .size <|
    .leaf "vcpu" .size <| .group "os" osSchema <| .leaf "cpu" .text <|
    .group "disk" diskSchema <| .group "display" (.leaf "vnc_port" .port .done) <|
    .group "net" netSchema <|
    .group "colo" (.group "pri" priSchema <| .group "sec" secSchema .done) .done

theorem domainSchema_requirements : domainSchema.requirements = parsedKeys := rfl

theorem domainSchema_guarded : domainSchema.Guarded := by
  simp [domainSchema, osSchema, diskSchema, netSchema, priSchema, secSchema,
    Schema.Guarded, Schema.Opens]

/-- How the parser ends, without the text of a refusal. -/
def ended {α : Type} : Parsed α → Reading α
  | .ok value => .ok value
  | .error (.thrown exn) => .error (some exn)
  | .error (.refused _) => .error none

theorem ended_bind {α β : Type} (x : Parsed α) (f : α → Parsed β) :
    ended (x >>= f) = ended x >>= fun a => ended (f a) := by
  cases x with
  | error stop => cases stop <;> rfl
  | ok a => rfl

theorem ended_fromYaml {α : Type} (result : Except Exn α) :
    ended (fromYaml result) = result.mapError some := by
  cases result <;> rfl

theorem ended_requireKey (node : Yaml.Node) (key err : String) :
    ended (requireKey node key err) = readSection node key := by
  unfold requireKey readSection readKey
  cases node.sub key with
  | error exn => rfl
  | ok found => cases found <;> rfl

theorem ended_requireString (node : Yaml.Node) (key err : String) :
    ended (requireString node key err) = readKey .text Yaml.Node.asString node key := by
  rw [← readSection_bind .text _ node key (by decide)]
  simp [requireString, ended_bind, ended_requireKey, ended_fromYaml]

theorem ended_requireUShort (node : Yaml.Node) (key err : String) :
    ended (requireUShort node key err) = readKey .port Yaml.Node.asUShort node key := by
  rw [← readSection_bind .port _ node key (by decide)]
  simp [requireUShort, ended_bind, ended_requireKey, ended_fromYaml]

theorem ended_requireScalarInt (node : Yaml.Node) (key err : String) :
    ended (requireScalarInt node key err) = readKey .size Yaml.Node.asInt node key := by
  rw [← readSection_bind .size _ node key (by decide)]
  simp only [requireScalarInt, ended_bind, ended_requireKey, true_and]
  congr 1
  funext value
  cases hscalar : value.isScalar with
  | true => exact ended_fromYaml value.asInt
  | false => rfl

theorem ended_asStringAt (node : Yaml.Node) (key : String) :
    ended (asStringAt node key) = readKey .bareText Yaml.Node.asString node key := by
  unfold asStringAt readKey
  cases node.sub key with
  | error exn => rfl
  | ok found =>
      cases found with
      | none => rfl
      | some value => exact ended_fromYaml value.asString

def members (d : Domain) : List Value := requiredKeys.map fun key => key.member d

theorem ended_pure {α : Type} (value : α) : ended (pure value : Parsed α) = pure value := rfl

theorem members_vmConfigParse (doc : Yaml.Node) :
    members <$> ended (vmConfigParse doc) = domainSchema.read doc := by
  simp only [vmConfigParse, ended_bind, ended_asStringAt, ended_requireString,
    ended_requireScalarInt, ended_requireKey, ended_requireUShort, domainSchema, osSchema,
    diskSchema, netSchema, priSchema, secSchema, read_bareText, read_text, read_size, read_port,
    read_group, read_done, ended_pure, map_bind, bind_assoc, map_pure, pure_bind]
  rfl

theorem ended_vmConfigParse (doc : Yaml.Node) :
    members <$> ended (vmConfigParse doc) = parsedKeys.mapM (Requirement.read doc) := by
  rw [members_vmConfigParse, Schema.read_eq_mapM domainSchema_guarded, domainSchema_requirements]

theorem members_injective {d d' : Domain} (h : members d = members d') : d = d' := by
  rcases d with ⟨_, _, _, _, _, _, _, _, _, ⟨_⟩, _, ⟨_⟩, ⟨_⟩, ⟨_⟩⟩
  rcases d' with ⟨_, _, _, _, _, _, _, _, _, ⟨_⟩, _, ⟨_⟩, ⟨_⟩, ⟨_⟩⟩
  simpa [members, requiredKeys, and_assoc] using h

/-! ## The parser -/

theorem fits_members_iff {doc : Yaml.Node} {d : Domain} :
    List.Forall₂ (fun req value => req.Fits doc value) parsedKeys (members d) ↔ ReadsAs doc d := by
  unfold parsedKeys members
  rw [List.forall₂_map_left_iff, List.forall₂_map_right_iff, List.forall₂_same]
  rfl

theorem vmConfigParse_eq_ok_iff {doc : Yaml.Node} {d : Domain} :
    vmConfigParse doc = .ok d ↔ ReadsAs doc d := by
  have hread := ended_vmConfigParse doc
  constructor
  · intro h
    rw [h] at hread
    exact fits_members_iff.mp (mapM_read_eq_ok_iff.mp hread.symm)
  · intro h
    rw [mapM_read_eq_ok_iff.mpr (fits_members_iff.mpr h)] at hread
    cases hparse : vmConfigParse doc with
    | error stop =>
        rw [hparse] at hread
        cases stop <;> cases hread
    | ok d' =>
        rw [hparse] at hread
        rw [members_injective (Except.ok.inj hread)]

theorem vmConfigParse_quiet_iff {doc : Yaml.Node} :
    (∀ exn, vmConfigParse doc ≠ .error (.thrown exn)) ↔ Orderly doc parsedKeys := by
  rw [← mapM_read_orderly_iff, ← ended_vmConfigParse]
  cases vmConfigParse doc with
  | error stop => cases stop <;> simp [ended, Functor.map, Except.map]
  | ok d => simp [ended, Functor.map, Except.map]

theorem parseHonest_iff (doc : Yaml.Node) :
    ParseHonest doc (vmConfigParse doc) ↔ Orderly doc parsedKeys := by
  rw [← vmConfigParse_quiet_iff]
  constructor
  · rintro (⟨d, hok, -⟩ | ⟨⟨err, hrefused⟩, -⟩) exn h
    · rw [hok] at h
      cases h
    · rw [hrefused] at h
      cases h
  · intro hquiet
    cases hparse : vmConfigParse doc with
    | ok d => exact Or.inl ⟨d, rfl, vmConfigParse_eq_ok_iff.mp hparse⟩
    | error stop =>
        cases stop with
        | thrown exn => exact absurd hparse (hquiet exn)
        | refused err =>
            refine Or.inr ⟨⟨err, rfl⟩, fun d hreads => ?_⟩
            rw [vmConfigParse_eq_ok_iff.mpr hreads] at hparse
            cases hparse

/-! ## `vm_define` -/

theorem fits_name_of_readsAs {doc : Yaml.Node} {d : Domain} (h : ReadsAs doc d) :
    (⟨["name"], .text⟩ : Requirement).Fits doc (.text d.name) :=
  h ⟨["name"], .bareText, fun d => .text d.name⟩ (List.mem_cons_self ..)

theorem ended_requireName (doc : Yaml.Node) (err : String) :
    Value.text <$> ended (requireString doc "name" err) =
      (⟨["name"], .text⟩ : Requirement).read doc := by
  rw [ended_requireString]
  exact (requirement_read (fun _ => rfl) doc "name").symm

/-- With a name that reads, looking at it first makes no difference. -/
theorem orderly_definedKeys_iff {doc : Yaml.Node} {value : Value}
    (h : (⟨["name"], .text⟩ : Requirement).Fits doc value) :
    Orderly doc definedKeys ↔ Orderly doc parsedKeys := by
  have hbare : (⟨["name"], .bareText⟩ : Requirement).Fits doc value := h
  have hparsed : parsedKeys = ⟨["name"], .bareText⟩ :: parsedKeys.tail := rfl
  rw [hparsed, definedKeys, orderly_cons_iff, orderly_cons_iff]
  have hfits : ∃ value, (⟨["name"], .text⟩ : Requirement).Fits doc value := ⟨value, h⟩
  have hfitsBare : ∃ value, (⟨["name"], .bareText⟩ : Requirement).Fits doc value := ⟨value, hbare⟩
  simp only [hfits, hfitsBare, true_or, true_and, true_imp_iff]

/-- The three ways of `vm_define` after its look at the name. -/
theorem vmDefine_cases {nd : Node} {vmDefFilepath : String} {doc : Yaml.Node}
    (hload : nd.loadFile vmDefFilepath = some doc) (savePath : String) :
    (∃ stop, requireString doc "name" "cannot parse vm name." = .error stop ∧
        nd.vmDefine vmDefFilepath savePath = .error stop) ∨
      (requireString doc "name" "cannot parse vm name." = .ok "save" ∧
        nd.vmDefine vmDefFilepath savePath =
          .error (.refused "cannot define vm with name 'save'.")) ∨
      ∃ name, requireString doc "name" "cannot parse vm name." = .ok name ∧ name ≠ "save" ∧
        nd.vmDefine vmDefFilepath savePath = (vmConfigParse doc).map fun d =>
          (d, nd.saveNewVmFile doc name savePath) := by
  have hdoc : nd.loadDoc vmDefFilepath = .ok doc := by
    simp only [Node.loadDoc, hload]
  simp only [Node.vmDefine, hdoc, bind, Except.bind]
  cases requireString doc "name" "cannot parse vm name." with
  | error stop => exact Or.inl ⟨stop, rfl, rfl⟩
  | ok name =>
      by_cases hsave : name = "save"
      · subst hsave
        exact Or.inr (Or.inl ⟨rfl, rfl⟩)
      · refine Or.inr (Or.inr ⟨name, rfl, hsave, ?_⟩)
        show (if name = "save" then _ else _) = _
        rw [if_neg hsave]
        cases vmConfigParse doc <;> rfl

theorem defineHonest_map_iff {doc : Yaml.Node} (h : ∀ d, ReadsAs doc d → d.name ≠ "save")
    (f : Domain → Node) :
    DefineHonest doc ((vmConfigParse doc).map fun d => (d, f d)) ↔
      ParseHonest doc (vmConfigParse doc) := by
  have hreserved : (∀ d, ReadsAs doc d → d.name = "save") ↔ ∀ d, ¬ReadsAs doc d :=
    ⟨fun hall d hreads => h d hreads (hall d hreads), fun hnone d hreads => absurd hreads (hnone d)⟩
  unfold DefineHonest ParseHonest
  rw [hreserved]
  cases vmConfigParse doc with
  | error stop => simp [Except.map]
  | ok d => simp [Except.map]

theorem defineHonest_iff {nd : Node} {vmDefFilepath : String} {doc : Yaml.Node}
    (hload : nd.loadFile vmDefFilepath = some doc) (savePath : String) :
    DefineHonest doc (nd.vmDefine vmDefFilepath savePath) ↔
      Reserved doc ∨ Orderly doc definedKeys := by
  have hname := ended_requireName doc "cannot parse vm name."
  have hfits : ∀ {name}, requireString doc "name" "cannot parse vm name." = .ok name →
      ∀ other, (⟨["name"], .text⟩ : Requirement).Fits doc (.text other) ↔ other = name := by
    intro name hread other
    rw [hread] at hname
    rw [← read_eq_ok_iff, ← hname]
    constructor
    · intro h
      injection h with h
      injection h with h
      exact h.symm
    · rintro rfl
      rfl
  unfold Reserved
  rcases vmDefine_cases hload savePath with
    ⟨stop, hread, heq⟩ | ⟨hread, heq⟩ | ⟨name, hread, hsave, heq⟩
  · rw [hread] at hname
    have hnofit : ∀ value, ¬(⟨["name"], .text⟩ : Requirement).Fits doc value := by
      intro value hfits
      rw [read_eq_ok_iff.mpr hfits] at hname
      cases stop <;> cases hname
    have horderly : Orderly doc definedKeys ↔ (⟨["name"], .text⟩ : Requirement).Caught doc := by
      rw [definedKeys, orderly_cons_iff]
      simp [hnofit]
    have hunread : ∀ d, ¬ReadsAs doc d := fun d hreads => hnofit _ (fits_name_of_readsAs hreads)
    rw [heq, horderly, ← read_eq_refused_iff, ← hname]
    simp only [hnofit, false_or]
    cases stop with
    | thrown exn => simp [DefineHonest, ended, Functor.map, Except.map]
    | refused err => simp [DefineHonest, ended, Functor.map, Except.map, hunread]
  · have hreserved : ∀ d, ReadsAs doc d → d.name = "save" := fun d hreads =>
      (hfits hread d.name).mp (fits_name_of_readsAs hreads)
    rw [heq]
    exact iff_of_true (Or.inr ⟨⟨_, rfl⟩, hreserved⟩) (Or.inl ((hfits hread "save").mpr rfl))
  · have hother : ∀ d, ReadsAs doc d → d.name ≠ "save" := by
      intro d hreads hreserved
      have hdname : d.name = name := (hfits hread d.name).mp (fits_name_of_readsAs hreads)
      exact hsave (hdname.symm.trans hreserved)
    have hnosave : ¬(⟨["name"], .text⟩ : Requirement).Fits doc (.text "save") := fun h =>
      hsave ((hfits hread "save").mp h).symm
    rw [heq, defineHonest_map_iff hother, parseHonest_iff,
      orderly_definedKeys_iff ((hfits hread name).mpr rfl)]
    simp only [hnosave, false_or]

/-! ## `get_domain` -/

/-- The loop of `get_domain` over the documents it loads. -/
def parseAll : List Yaml.Node → Option Domain → Parsed Domain
  | [], some d => .ok d
  | [], none => .error (.refused "")
  | doc :: docs, _ => do
      let d ← vmConfigParse doc
      parseAll docs (some d)

theorem getDomainLoop_eq_parseAll {load : String → Option Yaml.Node} {domainName : String}
    {entries : List SaveEntry} {docs : List Yaml.Node}
    (h : ((entries.filter fun entry => decide (entry.name = domainName)).map
      fun entry => load entry.path) = docs.map some) (found : Option Domain) :
    getDomainLoop load domainName entries found = parseAll docs found := by
  induction entries generalizing docs found with
  | nil =>
      have hdocs : docs = [] := List.map_eq_nil_iff.mp h.symm
      subst hdocs
      cases found <;> rfl
  | cons entry entries ih =>
      by_cases hname : entry.name = domainName
      · rw [List.filter_cons_of_pos (by simpa using hname), List.map_cons] at h
        cases docs with
        | nil => simp at h
        | cons doc docs =>
            rw [List.map_cons, List.cons.injEq] at h
            simp only [getDomainLoop, if_pos hname, h.1, parseAll, bind, Except.bind]
            cases vmConfigParse doc with
            | error stop => rfl
            | ok d => exact ih h.2 (some d)
      · rw [List.filter_cons_of_neg (by simpa using hname)] at h
        simp only [getDomainLoop, if_neg hname]
        exact ih h found

theorem parseAll_eq_ok_iff {docs : List Yaml.Node} {found : Option Domain} {d : Domain} :
    parseAll docs found = .ok d ↔ (docs = [] ∧ found = some d) ∨
      ∃ before last, docs = before ++ [last] ∧ ReadsAs last d ∧
        ∀ doc ∈ before, ∃ d, ReadsAs doc d := by
  induction docs generalizing found with
  | nil =>
      have hnone : ¬∃ before last, ([] : List Yaml.Node) = before ++ [last] ∧ ReadsAs last d ∧
          ∀ doc ∈ before, ∃ d, ReadsAs doc d := by
        rintro ⟨before, last, heq, -⟩
        exact absurd heq.symm (List.append_ne_nil_of_right_ne_nil before (by simp))
      rw [or_iff_left hnone]
      cases found with
      | none => simp only [parseAll, reduceCtorEq, and_false]
      | some d' => simp only [parseAll, Except.ok.injEq, Option.some.injEq, true_and]
  | cons doc docs ih =>
      simp only [parseAll, bind_eq_ok, ih, vmConfigParse_eq_ok_iff]
      constructor
      · rintro ⟨d', hreads, ⟨rfl, hd⟩ | ⟨before, last, rfl, hlast, hbefore⟩⟩
        · injection hd with hd
          exact Or.inr ⟨[], doc, rfl, hd ▸ hreads, by simp⟩
        · refine Or.inr ⟨doc :: before, last, rfl, hlast, ?_⟩
          exact List.forall_mem_cons.mpr ⟨⟨d', hreads⟩, hbefore⟩
      · rintro (⟨hnil, -⟩ | ⟨before, last, heq, hlast, hbefore⟩)
        · cases hnil
        · cases before with
          | nil =>
              obtain ⟨rfl, rfl⟩ := List.cons.inj heq
              exact ⟨d, hlast, Or.inl ⟨rfl, rfl⟩⟩
          | cons head before =>
              obtain ⟨rfl, rfl⟩ := List.cons.inj heq
              obtain ⟨⟨d', hreads⟩, hrest⟩ := List.forall_mem_cons.mp hbefore
              exact ⟨d', hreads, Or.inr ⟨before, last, rfl, hlast, hrest⟩⟩

theorem allOrderly_cons_iff {doc : Yaml.Node} {docs : List Yaml.Node} :
    AllOrderly (doc :: docs) ↔
      Orderly doc parsedKeys ∧ ∀ d, ReadsAs doc d → AllOrderly docs := by
  unfold AllOrderly
  rw [forall_after_good_cons_iff, forall_exists_index]

theorem parseAll_quiet_iff {docs : List Yaml.Node} (found : Option Domain) :
    (∀ exn, parseAll docs found ≠ .error (.thrown exn)) ↔ AllOrderly docs := by
  induction docs generalizing found with
  | nil =>
      refine iff_of_true ?_ ?_
      · cases found <;> simp [parseAll]
      · intro before doc after heq
        simp at heq
  | cons doc docs ih =>
      rw [allOrderly_cons_iff, ← vmConfigParse_quiet_iff]
      simp only [parseAll, ← vmConfigParse_eq_ok_iff, bind, Except.bind]
      cases vmConfigParse doc with
      | error stop => simp
      | ok d => simp [← ih (some d)]

theorem getHonest_iff {domainName : String} {nd : Node} {docs : List Yaml.Node}
    (hdocs : domainDocs domainName nd = docs.map some) :
    GetHonest docs (nd.getDomain domainName) ↔ AllOrderly docs := by
  have hget : nd.getDomain domainName = parseAll docs none := by
    unfold domainDocs at hdocs
    exact getDomainLoop_eq_parseAll hdocs none
  rw [hget, ← parseAll_quiet_iff none]
  constructor
  · rintro (⟨d, before, last, hok, -⟩ | ⟨⟨err, hrefused⟩, -⟩) exn h
    · rw [hok] at h
      cases h
    · rw [hrefused] at h
      cases h
  · intro hquiet
    cases hparse : parseAll docs none with
    | ok d =>
        rcases parseAll_eq_ok_iff.mp hparse with ⟨-, hnone⟩ | ⟨before, last, heq, hlast, hbefore⟩
        · cases hnone
        · exact Or.inl ⟨d, before, last, rfl, heq, hlast, hbefore⟩
    | error stop =>
        cases stop with
        | thrown exn => exact absurd hparse (hquiet exn)
        | refused err =>
            refine Or.inr ⟨⟨err, rfl⟩, ?_⟩
            by_contra hreads
            rw [not_or] at hreads
            obtain ⟨hsome, hall⟩ := hreads
            push Not at hall
            obtain ⟨before, last, rfl⟩ := (List.eq_nil_or_concat' docs).resolve_left hsome
            obtain ⟨d, hlast⟩ := hall last (by simp)
            have hok : parseAll (before ++ [last]) none = .ok d :=
              parseAll_eq_ok_iff.mpr (Or.inr ⟨before, last, rfl, hlast,
                fun doc hmem => hall doc (by simp [hmem])⟩)
            rw [hparse] at hok
            cases hok

/-! ## The requests -/

theorem colodDefine_ne_crash {doc : Yaml.Node} {vmFilePath : String} {nd : Node}
    (h : DefineHonest doc (nd.vmDefine vmFilePath nd.currentStatus.hostFilePath)) (nd' : Node) :
    colodDefine vmFilePath nd ≠ .crash nd' := by
  unfold colodDefine
  rcases h with ⟨d, defined, hok, -⟩ | ⟨⟨err, hrefused⟩, -⟩
  · rw [hok]
    dsimp only
    split <;> simp
  · rw [hrefused]
    simp

/-- `vm_define` and `get_domain` tell the truth about the documents in which
the first key that does not fit is one that is looked at. -/
theorem definitions_refused_iff {nd : Node} {vmDefFilepath domainName : String}
    {doc : Yaml.Node} {docs : List Yaml.Node} (savePath : String)
    (hload : nd.loadFile vmDefFilepath = some doc)
    (hdocs : domainDocs domainName nd = docs.map some) :
    (DefineHonest doc (nd.vmDefine vmDefFilepath savePath) ↔
        Reserved doc ∨ Orderly doc definedKeys) ∧
      (Reserved doc ∨ Orderly doc definedKeys →
        ∀ nd', colodDefine vmDefFilepath nd ≠ .crash nd') ∧
      (GetHonest docs (nd.getDomain domainName) ↔ AllOrderly docs) := by
  refine ⟨defineHonest_iff hload savePath, fun horderly => ?_, getHonest_iff hdocs⟩
  exact colodDefine_ne_crash ((defineHonest_iff hload _).mpr horderly)

theorem orderly_of_readsAs {doc : Yaml.Node} {d : Domain} (h : ReadsAs doc d) :
    Orderly doc parsedKeys := by
  rw [← vmConfigParse_quiet_iff]
  intro exn hthrown
  rw [vmConfigParse_eq_ok_iff.mpr h] at hthrown
  cases hthrown

def sampleDefined : Node :=
  { Node.fresh with save := ⟨none, .seq [⟨"d", "/root/d.yaml", -1, "shutoff", false, "none"⟩]⟩ }

theorem sampleDefined_honest :
    DefineHonest (sampleDefinition "d") (sampleDefined.vmDefine "/root/d.yaml" "/root/") ∧
      GetHonest [sampleDefinition "d"] (sampleDefined.getDomain "d") := by
  have hreads : ReadsAs (sampleDefinition "d") (sampleDomain "d") :=
    vmConfigParse_eq_ok_iff.mp (vmConfigParse_sample "d")
  have horderly := orderly_of_readsAs hreads
  have hload : sampleDefined.loadFile "/root/d.yaml" = some (sampleDefinition "d") := rfl
  have hdocs : domainDocs "d" sampleDefined = [sampleDefinition "d"].map some := rfl
  have hrequests := definitions_refused_iff "/root/" hload hdocs
  refine ⟨hrequests.1.mpr (Or.inr ?_), hrequests.2.2.mpr ?_⟩
  · exact (orderly_definedKeys_iff (fits_name_of_readsAs hreads)).mpr horderly
  · rw [allOrderly_cons_iff]
    refine ⟨horderly, fun d _ before doc after heq => ?_⟩
    simp at heq

/-- The section `os` is the name of a system. -/
def scalarOs : Yaml.Node :=
  .map [("name", .scalar "d"), ("qemu", .scalar "/usr/bin/qemu"), ("memory", .scalar "2048"),
    ("vcpu", .scalar "2"), ("os", .scalar "linux")]

theorem not_defineHonest_scalarOs :
    ¬DefineHonest scalarOs (Node.vmDefine "/root/d.yaml" "/root/"
      { Node.fresh with files := fun _ => some scalarOs }) := by
  have hthrown : Node.vmDefine "/root/d.yaml" "/root/"
      { Node.fresh with files := fun _ => some scalarOs } =
        .error (.thrown .badSubscript) := rfl
  rw [hthrown]
  rintro (⟨d, nd', h, -⟩ | ⟨⟨err, h⟩, -⟩)
  · cases h
  · cases h

end ColoManage
