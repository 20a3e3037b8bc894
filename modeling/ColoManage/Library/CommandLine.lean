import Mathlib.Data.List.Forall2
import Mathlib.Data.String.Basic

/-!
# Command lines

A command line is a list of arguments.  Options have names and may have a
letter; a flag stands alone and every other option takes a text, behind `=` or
in the argument that follows.  Letters can be bundled behind one `-`, and only
the last of a bundle may take a text.

`Spells` is the grammar: which settings a command line makes, and which
arguments it leaves over.  `Stuck` says how reading goes wrong at an argument.
Every command line is spelled, or is spelled up to an argument at which reading
is stuck.
-/

namespace CommandLine

/-- The options of a program: whether a name takes a text, which name a letter
stands for, and the texts that can be read. -/
structure Syntax where
  takesText : String → Option Bool
  letter : Char → Option String
  reads : String → String → Bool
  letter_known : ∀ {c name}, letter c = some name → (takesText name).isSome

inductive Setting
  | flag (name : String)
  | text (name value : String)
  deriving DecidableEq, Repr

inductive Fault
  | undefined (name : String)
  | undefinedLetter (c : Char)
  | needsText (name : String)
  | invalid (name value : String)
  deriving DecidableEq, Repr

def Setting.name : Setting → String
  | .flag name => name
  | .text name _ => name

def Setting.textOf (name : String) : Setting → Option String
  | .flag _ => none
  | .text other value => if other = name then some value else none

/-- The last text that is set for a name. -/
def lastText (name : String) (settings : List Setting) : Option String :=
  (settings.filterMap (Setting.textOf name)).getLast?

theorem lastText_cons (name : String) (setting : Setting) (settings : List Setting) :
    lastText name (setting :: settings) = (lastText name settings).or (setting.textOf name) := by
  unfold lastText
  cases htext : setting.textOf name with
  | none => rw [List.filterMap_cons_none htext, Option.or_none]
  | some value =>
      rw [List.filterMap_cons_some htext, List.getLast?_cons]
      cases (settings.filterMap (Setting.textOf name)).getLast? <;> rfl

theorem exists_of_lastText {name value : String} {settings : List Setting}
    (h : lastText name settings = some value) :
    ∃ setting ∈ settings, setting.textOf name = some value :=
  List.mem_filterMap.mp (List.mem_of_getLast? h)

namespace Syntax

variable (g : Syntax)

/-- An option whose text can be read. -/
def Takes (name value : String) : Prop :=
  g.takesText name = some true ∧ g.reads name value = true

/-- Letters of flags, with the names that they stand for. -/
def Flags (cs : List Char) (names : List String) : Prop :=
  List.Forall₂ (fun c name => g.letter c = some name ∧ g.takesText name = some false) cs names

/-- One item of a command line, its settings and what it leaves over. -/
inductive Item : List String → List Setting → List String → Prop
  | other {arg : String} (h : arg.toList.head? ≠ some '-') : Item [arg] [] [arg]
  | dash : Item ["-"] [] []
  | joined {name value : String} (hname : '=' ∉ name.toList) (h : g.Takes name value) :
      Item ["--" ++ name ++ "=" ++ value] [.text name value] []
  | apart {name value : String} (hname : '=' ∉ name.toList) (h : g.Takes name value) :
      Item ["--" ++ name, value] [.text name value] []
  | flag {name : String} (hname : '=' ∉ name.toList) (h : g.takesText name = some false) :
      Item ["--" ++ name] [.flag name] []
  | letters {c : Char} {cs : List Char} {names : List String} (hc : c ≠ '-')
      (h : g.Flags (c :: cs) names) :
      Item [String.ofList ('-' :: c :: cs)] (names.map .flag) []
  | lettersText {cs : List Char} {c : Char} {names : List String} {name value : String}
      (hc : (cs ++ [c]).head? ≠ some '-') (h : g.Flags cs names) (hletter : g.letter c = some name)
      (htakes : g.Takes name value) :
      Item [String.ofList ('-' :: (cs ++ [c])), value] (names.map .flag ++ [.text name value]) []

/-- The settings of a command line and the arguments it leaves over. -/
inductive Spells : List String → List Setting → List String → Prop
  | nil : Spells [] [] []
  | cons {args args' others others' : List String} {settings settings' : List Setting}
      (hitem : g.Item args settings others) (hrest : Spells args' settings' others') :
      Spells (args ++ args') (settings ++ settings') (others ++ others')

/-- Reading cannot get past the first argument. -/
inductive Stuck : List String → Fault → Prop
  | undefined {name : String} {rest : List String} (hname : '=' ∉ name.toList)
      (h : g.takesText name = none) : Stuck (("--" ++ name) :: rest) (.undefined name)
  | undefinedJoined {name value : String} {rest : List String} (hname : '=' ∉ name.toList)
      (h : g.takesText name = none) :
      Stuck (("--" ++ name ++ "=" ++ value) :: rest) (.undefined name)
  | invalidJoined {name value : String} {rest : List String} (hname : '=' ∉ name.toList)
      (hknown : (g.takesText name).isSome) (h : ¬ g.Takes name value) :
      Stuck (("--" ++ name ++ "=" ++ value) :: rest) (.invalid name value)
  | missing {name : String} (hname : '=' ∉ name.toList) (h : g.takesText name = some true) :
      Stuck ["--" ++ name] (.needsText name)
  | invalidApart {name value : String} {rest : List String} (hname : '=' ∉ name.toList)
      (h : g.takesText name = some true) (hreads : g.reads name value = false) :
      Stuck (("--" ++ name) :: value :: rest) (.invalid name value)
  | undefinedLetter {cs cs' : List Char} {c : Char} {names rest : List String}
      (hc : (cs ++ [c]).head? ≠ some '-') (h : g.Flags cs names) (hletter : g.letter c = none) :
      Stuck (String.ofList ('-' :: (cs ++ c :: cs')) :: rest) (.undefinedLetter c)
  | inside {cs cs' : List Char} {c c' : Char} {names rest : List String} {name : String}
      (hc : (cs ++ [c]).head? ≠ some '-') (h : g.Flags cs names) (hletter : g.letter c = some name)
      (htakes : g.takesText name = some true) :
      Stuck (String.ofList ('-' :: (cs ++ c :: c' :: cs')) :: rest) (.needsText name)
  | missingLast {cs : List Char} {c : Char} {names : List String} {name : String}
      (hc : (cs ++ [c]).head? ≠ some '-') (h : g.Flags cs names) (hletter : g.letter c = some name)
      (htakes : g.takesText name = some true) :
      Stuck [String.ofList ('-' :: (cs ++ [c]))] (.needsText name)
  | invalidLast {cs : List Char} {c : Char} {names rest : List String} {name value : String}
      (hc : (cs ++ [c]).head? ≠ some '-') (h : g.Flags cs names) (hletter : g.letter c = some name)
      (htakes : g.takesText name = some true) (hreads : g.reads name value = false) :
      Stuck (String.ofList ('-' :: (cs ++ [c])) :: value :: rest) (.invalid name value)

/-- The first fault of a command line. -/
def FirstFault (args : List String) (fault : Fault) : Prop :=
  ∃ good settings others rest,
    args = good ++ rest ∧ g.Spells good settings others ∧ g.Stuck rest fault

variable {g}

/-- A setting of the option's own kind. -/
def Accepts (g : Syntax) : Setting → Prop
  | .flag name => g.takesText name = some false
  | .text name value => g.Takes name value

theorem accepts_of_flags {cs : List Char} {names : List String} (h : g.Flags cs names) :
    ∀ setting ∈ names.map Setting.flag, g.Accepts setting := by
  induction h with
  | nil => simp
  | cons hfirst _ ih =>
      intro setting hmem
      rcases List.mem_cons.mp hmem with rfl | hrest
      · exact hfirst.2
      · exact ih setting hrest

theorem Item.accepts {args others : List String} {settings : List Setting}
    (h : g.Item args settings others) : ∀ setting ∈ settings, g.Accepts setting := by
  cases h with
  | other h => simp
  | dash => simp
  | joined hname h => exact List.forall_mem_singleton.mpr h
  | apart hname h => exact List.forall_mem_singleton.mpr h
  | flag hname h => exact List.forall_mem_singleton.mpr h
  | letters hc h => exact accepts_of_flags h
  | lettersText hc h hletter htakes =>
      intro setting hmem
      rcases List.mem_append.mp hmem with hflag | htext
      · exact accepts_of_flags h setting hflag
      · rw [List.mem_singleton.mp htext]
        exact htakes

theorem Spells.accepts {args others : List String} {settings : List Setting}
    (h : g.Spells args settings others) : ∀ setting ∈ settings, g.Accepts setting := by
  induction h with
  | nil => simp
  | cons hitem _ ih =>
      intro setting hmem
      rcases List.mem_append.mp hmem with hfirst | hrest
      · exact hitem.accepts setting hfirst
      · exact ih setting hrest

/-- An option that takes a text is set exactly when some text is. -/
theorem mem_names_iff_lastText {settings : List Setting} {name : String}
    (h : ∀ setting ∈ settings, g.Accepts setting) (hname : g.takesText name = some true) :
    name ∈ settings.map Setting.name ↔ (lastText name settings).isSome := by
  rw [lastText, List.getLast?_isSome, ne_eq, List.filterMap_eq_nil_iff, List.mem_map]
  push Not
  refine exists_congr fun setting => and_congr_right fun hmem => ?_
  cases setting with
  | flag other =>
      have hflag : g.takesText other = some false := h _ hmem
      refine iff_of_false ?_ (by simp [Setting.textOf])
      rintro rfl
      cases hflag.symm.trans hname
  | text other value =>
      by_cases heq : other = name <;> simp [Setting.name, Setting.textOf, heq]

theorem mem_names_iff_flag {settings : List Setting} {name : String}
    (h : ∀ setting ∈ settings, g.Accepts setting) (hname : g.takesText name = some false) :
    name ∈ settings.map Setting.name ↔ .flag name ∈ settings := by
  rw [List.mem_map]
  constructor
  · rintro ⟨setting, hmem, rfl⟩
    cases setting with
    | flag other => exact hmem
    | text other value =>
        cases (h _ hmem).1.symm.trans hname
  · exact fun hmem => ⟨_, hmem, rfl⟩

theorem FirstFault.of_stuck {args : List String} {fault : Fault} (h : g.Stuck args fault) :
    g.FirstFault args fault :=
  ⟨[], [], [], args, rfl, .nil, h⟩

theorem FirstFault.cons {item rest others : List String} {settings : List Setting} {fault : Fault}
    (hitem : g.Item item settings others) (h : g.FirstFault rest fault) :
    g.FirstFault (item ++ rest) fault := by
  obtain ⟨good, settings', others', stuck, rfl, hgood, hstuck⟩ := h
  exact ⟨item ++ good, settings ++ settings', others ++ others', stuck,
    (List.append_assoc _ _ _).symm, .cons hitem hgood, hstuck⟩

/-! ## Every command line is spelled or faulty -/

/-- An argument that starts with `--` is a name, or a name and a text. -/
theorem long_cases (cs : List Char) :
    (∃ name : String, '=' ∉ name.toList ∧ String.ofList ('-' :: '-' :: cs) = "--" ++ name) ∨
      ∃ name value : String, '=' ∉ name.toList ∧
        String.ofList ('-' :: '-' :: cs) = "--" ++ name ++ "=" ++ value := by
  by_cases hmem : '=' ∈ cs
  · obtain ⟨before, after, rfl, hbefore⟩ := List.eq_append_cons_of_mem hmem
    refine .inr ⟨String.ofList before, String.ofList after, by simpa using hbefore, ?_⟩
    apply String.toList_injective
    simp
  · refine .inl ⟨String.ofList cs, by simpa using hmem, ?_⟩
    apply String.toList_injective
    simp

theorem Flags.concat {cs : List Char} {c : Char} {names : List String}
    (h : g.Flags (cs ++ [c]) names) :
    ∃ names' name, names = names' ++ [name] ∧ g.Flags cs names' ∧ g.letter c = some name ∧
      g.takesText name = some false := by
  induction cs generalizing names with
  | nil =>
      obtain ⟨name, names', hfirst, hrest, rfl⟩ := List.forall₂_cons_left_iff.mp h
      obtain rfl := List.forall₂_nil_left_iff.mp hrest
      exact ⟨[], name, rfl, .nil, hfirst⟩
  | cons d cs ih =>
      obtain ⟨name, names', hfirst, hrest, rfl⟩ := List.forall₂_cons_left_iff.mp h
      obtain ⟨before, last, rfl, hflags, hlast⟩ := ih hrest
      exact ⟨name :: before, last, rfl, .cons hfirst hflags, hlast⟩

/-- A bundle holds flags only, or flags up to a letter that is none. -/
theorem flags_cases (cs : List Char) :
    (∃ names, g.Flags cs names) ∨
      ∃ before c after names, cs = before ++ c :: after ∧ g.Flags before names ∧
        (g.letter c = none ∨ ∃ name, g.letter c = some name ∧ g.takesText name = some true) := by
  induction cs with
  | nil => exact .inl ⟨[], .nil⟩
  | cons c cs ih =>
      cases hletter : g.letter c with
      | none => exact .inr ⟨[], c, cs, [], rfl, .nil, .inl hletter⟩
      | some name =>
          obtain ⟨takes, htakes⟩ := Option.isSome_iff_exists.mp (g.letter_known hletter)
          cases takes with
          | true => exact .inr ⟨[], c, cs, [], rfl, .nil, .inr ⟨name, hletter, htakes⟩⟩
          | false =>
              rcases ih with ⟨names, hflags⟩ | ⟨before, d, after, names, rfl, hflags, hd⟩
              · exact .inl ⟨name :: names, .cons ⟨hletter, htakes⟩ hflags⟩
              · exact .inr ⟨c :: before, d, after, name :: names, rfl,
                  .cons ⟨hletter, htakes⟩ hflags, hd⟩

/-- The front of a command line is an item, or reading is stuck. -/
theorem item_or_stuck (arg : String) (rest : List String) :
    (∃ item settings others rest', arg :: rest = item ++ rest' ∧
        rest'.length ≤ rest.length ∧ g.Item item settings others) ∨
      ∃ fault, g.Stuck (arg :: rest) fault := by
  have hone : ∀ {settings others}, g.Item [arg] settings others →
      ∃ item settings others rest', arg :: rest = item ++ rest' ∧
        rest'.length ≤ rest.length ∧ g.Item item settings others :=
    fun hitem => ⟨[arg], _, _, rest, rfl, le_rfl, hitem⟩
  have htwo : ∀ {value rest' settings others}, rest = value :: rest' →
      g.Item [arg, value] settings others →
      ∃ item settings others rest', arg :: rest = item ++ rest' ∧
        rest'.length ≤ rest.length ∧ g.Item item settings others := by
    rintro value rest' settings others rfl hitem
    exact ⟨[arg, value], _, _, rest', rfl, by simp, hitem⟩
  obtain ⟨cs, rfl⟩ : ∃ cs, arg = String.ofList cs := ⟨arg.toList, by simp⟩
  by_cases hhead : cs.head? = some '-'
  · obtain ⟨cs, rfl⟩ := List.head?_eq_some_iff.mp hhead
    cases cs with
    | nil => exact .inl (hone .dash)
    | cons c cs =>
        by_cases hc : c = '-'
        · subst hc
          rcases long_cases cs with ⟨name, hname, harg⟩ | ⟨name, value, hname, harg⟩
          · rw [harg] at hone htwo ⊢
            cases htakes : g.takesText name with
            | none => exact .inr ⟨_, .undefined hname htakes⟩
            | some takes =>
                cases takes with
                | false => exact .inl (hone (.flag hname htakes))
                | true =>
                    cases rest with
                    | nil => exact .inr ⟨_, .missing hname htakes⟩
                    | cons value rest =>
                        cases hreads : g.reads name value with
                        | true => exact .inl (htwo rfl (.apart hname ⟨htakes, hreads⟩))
                        | false => exact .inr ⟨_, .invalidApart hname htakes hreads⟩
          · rw [harg] at hone ⊢
            by_cases htakes : g.Takes name value
            · exact .inl (hone (.joined hname htakes))
            · cases hknown : g.takesText name with
              | none => exact .inr ⟨_, .undefinedJoined hname hknown⟩
              | some takes =>
                  exact .inr ⟨_, .invalidJoined hname (by rw [hknown]; rfl) htakes⟩
        · rcases flags_cases (g := g) (c :: cs) with
            ⟨names, hflags⟩ | ⟨before, d, after, names, hcs, hflags, hd⟩
          · exact .inl (hone (.letters hc hflags))
          · have hfirst : (before ++ [d]).head? ≠ some '-' := by
              have hheads : (before ++ [d]).head? = (before ++ d :: after).head? := by
                cases before <;> rfl
              rw [hheads, ← hcs]
              simpa using hc
            rw [hcs] at hone htwo ⊢
            rcases hd with hletter | ⟨name, hletter, htakes⟩
            · exact .inr ⟨_, .undefinedLetter hfirst hflags hletter⟩
            · cases after with
              | cons c' cs' => exact .inr ⟨_, .inside hfirst hflags hletter htakes⟩
              | nil =>
                  cases rest with
                  | nil => exact .inr ⟨_, .missingLast hfirst hflags hletter htakes⟩
                  | cons value rest =>
                      cases hreads : g.reads name value with
                      | true =>
                          exact .inl (htwo rfl
                            (.lettersText hfirst hflags hletter ⟨htakes, hreads⟩))
                      | false =>
                          exact .inr ⟨_, .invalidLast hfirst hflags hletter htakes hreads⟩
  · exact .inl (hone (.other (by simpa using hhead)))

theorem spells_or_firstFault (args : List String) :
    (∃ settings others, g.Spells args settings others) ∨ ∃ fault, g.FirstFault args fault := by
  induction hlength : args.length using Nat.strong_induction_on generalizing args with
  | _ n ih =>
      cases args with
      | nil => exact .inl ⟨[], [], .nil⟩
      | cons arg rest =>
          rcases item_or_stuck (g := g) arg rest with
            ⟨item, settings, others, rest', hargs, hle, hitem⟩ | ⟨fault, hstuck⟩
          · have hlt : rest'.length < n := by
              rw [List.length_cons] at hlength
              omega
            rw [hargs]
            rcases ih rest'.length hlt rest' rfl with
              ⟨settings', others', hrest⟩ | ⟨fault, hfault⟩
            · exact .inl ⟨_, _, .cons hitem hrest⟩
            · exact .inr ⟨fault, hfault.cons hitem⟩
          · exact .inr ⟨fault, .of_stuck hstuck⟩

end Syntax

end CommandLine
