import ColoManage.Cmdline
import ColoManage.Library.CommandLine
import Mathlib.Data.List.Duplicate

/-!
# What the command-line parser reads

A parser whose letters are distinct reads the command lines of the grammar in
`Library.CommandLine`: it accepts what is spelled and has every needed option,
the last text of an option is its value, and a line that it refuses leaves the
message of its first fault in front.
-/

namespace ColoManage

open CommandLine

/-! ## The grammar of a parser -/

/-- What the loop reads of an option. -/
structure Decl where
  name : String
  shortName : Option Char
  type : OptionType

def CmdOption.decl (opt : CmdOption) : Decl := ⟨opt.name, opt.shortName, opt.type⟩

def lettered (decls : List Decl) (c : Char) : Option Decl :=
  decls.find? fun d => decide (d.name ≠ "") && decide (d.shortName = some c)

def syntaxOf (decls : List Decl) : Syntax where
  takesText name := (KeyedList.find Decl.name name decls).map fun d => d.type.hasValue
  letter c := (lettered decls c).map Decl.name
  reads name value :=
    (KeyedList.find Decl.name name decls).any fun d => (d.type.read value).isSome
  letter_known := by
    intro c name h
    obtain ⟨d, hd, rfl⟩ := Option.map_eq_some_iff.mp h
    rw [Option.isSome_map, KeyedList.isSome_find_iff]
    exact List.mem_map_of_mem (List.mem_of_find?_eq_some hd)

namespace CmdParser

def decls (p : CmdParser) : List Decl := p.options.map CmdOption.decl

def grammar (p : CmdParser) : Syntax := syntaxOf p.decls

theorem find_decls (name : String) (p : CmdParser) :
    KeyedList.find Decl.name name p.decls = (p.find name).map CmdOption.decl := by
  unfold decls find
  induction p.options with
  | nil => rfl
  | cons opt opts ih =>
      rw [List.map_cons, KeyedList.find_cons, KeyedList.find_cons, ih]
      by_cases hname : opt.name = name <;> simp [CmdOption.decl, hname]

theorem takesText_grammar (name : String) (p : CmdParser) :
    p.grammar.takesText name = (p.find name).map fun opt => opt.type.hasValue := by
  show (KeyedList.find Decl.name name p.decls).map _ = _
  rw [find_decls, Option.map_map]
  rfl

theorem any_hasValue {name : String} {p : CmdParser} {takes : Bool}
    (h : p.grammar.takesText name = some takes) :
    ((p.find name).any fun opt => opt.type.hasValue) = takes := by
  rw [takesText_grammar, Option.map_eq_some_iff] at h
  obtain ⟨opt, hfind, hopt⟩ := h
  rw [hfind, Option.any_some, hopt]

theorem reads_grammar (name value : String) (p : CmdParser) :
    p.grammar.reads name value = (p.find name).any fun opt => (opt.type.read value).isSome := by
  show (KeyedList.find Decl.name name p.decls).any _ = _
  rw [find_decls]
  cases p.find name <;> rfl

theorem lookup_lookupTable {opts : List CmdOption} {table table' : List (Char × String)}
    (h : lookupTable opts table = .ok table') (c : Char) :
    table'.lookup c =
      (table.lookup c).or ((lettered (opts.map CmdOption.decl) c).map Decl.name) := by
  induction opts generalizing table with
  | nil =>
      obtain rfl : table = table' := by simpa [lookupTable] using h
      simp [lettered]
  | cons opt opts ih =>
      have hskip : opt.name = "" ∨ opt.shortName ≠ some c →
          lettered ((opt :: opts).map CmdOption.decl) c =
            lettered (opts.map CmdOption.decl) c := by
        intro hopt
        rw [lettered, List.map_cons, List.find?_cons_of_neg]
        · rfl
        · rcases hopt with hname | hshort
          · simp [CmdOption.decl, hname]
          · simp [CmdOption.decl, hshort]
      unfold lookupTable at h
      split at h
      · rename_i hname
        rw [hskip (.inl hname)]
        exact ih h
      · rename_i hname
        split at h
        · rename_i hshort
          rw [hskip (.inr (by rw [hshort]; exact Option.some_ne_none c |>.symm))]
          exact ih h
        · rename_i initial hshort
          split at h
          · cases h
          · rename_i hnew
            rw [ih h, List.lookup_cons]
            by_cases hc : c = initial
            · subst hc
              have hnone : table.lookup c = none := Option.not_isSome_iff_eq_none.mp hnew
              have hfirst : lettered ((opt :: opts).map CmdOption.decl) c = some opt.decl := by
                rw [lettered, List.map_cons, List.find?_cons_of_pos]
                simp [CmdOption.decl, hname, hshort]
              rw [hnone, hfirst, beq_self_eq_true]
              rfl
            · rw [hskip (.inr (by rw [hshort]; simpa using Ne.symm hc)),
                beq_eq_false_iff_ne.mpr hc]

/-! ## What a setting does -/

@[simp] theorem decls_fail (message : String) (p : CmdParser) :
    (p.fail message).decls = p.decls := rfl

theorem decls_update {name : String} {f : CmdOption → CmdOption}
    (hf : ∀ opt, (f opt).name = opt.name) (hdecl : ∀ opt, (f opt).decl = opt.decl)
    (p : CmdParser) : (p.update name f hf).decls = p.decls :=
  KeyedList.map_updateFirst hdecl name p.options

theorem decl_setValue (value : String) (opt : CmdOption) :
    (opt.setValue value).decl = opt.decl := by
  unfold CmdOption.setValue
  split <;> rfl

def assign (p : CmdParser) : Setting → CmdParser
  | .flag name => p.update name CmdOption.set CmdOption.name_set
  | .text name value => p.update name (CmdOption.setValue value) (CmdOption.name_setValue value)

@[simp] theorem decls_assign (p : CmdParser) (setting : Setting) :
    (p.assign setting).decls = p.decls := by
  cases setting with
  | flag name => exact decls_update CmdOption.name_set (fun _ => rfl) p
  | text name value =>
      exact decls_update (CmdOption.name_setValue value) (decl_setValue value) p

theorem setOption_of_flag {name : String} {p : CmdParser}
    (h : p.grammar.takesText name = some false) :
    p.setOption name = p.assign (.flag name) := by
  rw [takesText_grammar, Option.map_eq_some_iff] at h
  obtain ⟨opt, hfind, hvalue⟩ := h
  simp [setOption, hfind, hvalue, assign]

theorem setOption_of_takesText {name : String} {p : CmdParser}
    (h : p.grammar.takesText name = some true) :
    p.setOption name = p.fail ("option needs value: --" ++ name) := by
  rw [takesText_grammar, Option.map_eq_some_iff] at h
  obtain ⟨opt, hfind, hvalue⟩ := h
  simp [setOption, hfind, hvalue]

theorem setOptionValue_of_takes {name value : String} {p : CmdParser}
    (h : p.grammar.Takes name value) :
    p.setOptionValue name value = p.assign (.text name value) := by
  obtain ⟨-, hreads⟩ := h
  rw [reads_grammar, Option.any_eq_true] at hreads
  obtain ⟨opt, hfind, hread⟩ := hreads
  obtain ⟨actual, hactual⟩ := Option.isSome_iff_exists.mp hread
  simp [setOptionValue, hfind, hactual, assign]

theorem setOptionValue_of_none {name : String} (value : String) {p : CmdParser}
    (h : p.grammar.takesText name = none) :
    p.setOptionValue name value = p.fail ("undefined option: --" ++ name) := by
  rw [takesText_grammar, Option.map_eq_none_iff] at h
  simp [setOptionValue, h]

/-- A known option that does not take the text: a flag, or a text that it cannot read. -/
theorem setOptionValue_of_not_takes {name value : String} {p : CmdParser}
    (hknown : (p.grammar.takesText name).isSome) (h : ¬ p.grammar.Takes name value) :
    p.setOptionValue name value =
      p.fail ("option value is invalid: --" ++ name ++ "=" ++ value) := by
  rw [takesText_grammar, Option.isSome_map] at hknown
  obtain ⟨opt, hfind⟩ := Option.isSome_iff_exists.mp hknown
  have hread : opt.type.read value = none := by
    cases htype : opt.type.hasValue with
    | false =>
        obtain ⟨optName, shortName, desc, type, need, has, actual⟩ := opt
        cases type <;> first | rfl | cases htype
    | true =>
        by_contra hread
        refine h ⟨?_, ?_⟩
        · rw [takesText_grammar, hfind, Option.map_some, htype]
        · rw [reads_grammar, hfind, Option.any_some]
          exact Option.isSome_iff_ne_none.mpr hread
  simp [setOptionValue, hfind, hread]

/-! ## The loop -/

def faultText : Fault → String
  | .undefined name => "undefined option: --" ++ name
  | .undefinedLetter c => "undefined short option: -" ++ c.toString
  | .needsText name => "option needs value: --" ++ name
  | .invalid name value => "option value is invalid: --" ++ name ++ "=" ++ value

/-- The table has the letters of the options. -/
def Letters (table : List (Char × String)) (g : Syntax) : Prop :=
  ∀ c, table.lookup c = g.letter c

theorem ne_empty_of_letter {c : Char} {name : String} {p : CmdParser}
    (h : p.grammar.letter c = some name) : name ≠ "" := by
  obtain ⟨d, hd, rfl⟩ := Option.map_eq_some_iff.mp h
  have hnamed := List.find?_some hd
  simp only [Bool.and_eq_true, decide_eq_true_eq] at hnamed
  exact hnamed.1

/-! ### No message is taken back -/

theorem errors_fail (message : String) (p : CmdParser) :
    p.errors <+: (p.fail message).errors := List.prefix_append _ _

theorem errors_setOption (name : String) (p : CmdParser) :
    p.errors <+: (p.setOption name).errors := by
  unfold setOption
  split
  · exact errors_fail _ p
  · split
    · exact errors_fail _ p
    · exact List.prefix_rfl

theorem errors_setOptionValue (name value : String) (p : CmdParser) :
    p.errors <+: (p.setOptionValue name value).errors := by
  unfold setOptionValue
  split
  · exact errors_fail _ p
  · split
    · exact errors_fail _ p
    · exact List.prefix_rfl

theorem errors_parseBundle (table : List (Char × String)) (cs : List Char) (p : CmdParser) :
    p.errors <+: (parseBundle table cs p).errors := by
  induction cs generalizing p with
  | nil => exact List.prefix_rfl
  | cons c cs ih =>
      unfold parseBundle
      split
      · exact (errors_fail _ p).trans (ih _)
      · split
        · exact (errors_fail _ p).trans (ih _)
        · exact (errors_setOption _ p).trans (ih _)

theorem errors_parseArgs (table : List (Char × String)) (args : List String) (p : CmdParser) :
    p.errors <+: (parseArgs table args p).errors := by
  fun_induction parseArgs table args p with
  | case1 p => exact List.prefix_rfl
  | case2 arg rest p cs harg hmem ih => exact (errors_setOptionValue _ _ p).trans ih
  | case3 arg rest p cs harg hmem name hfind ih => exact (errors_fail _ p).trans ih
  | case4 arg p cs harg hmem name opt hfind hvalue => exact errors_fail _ p
  | case5 arg p cs harg hmem name opt hfind hvalue value rest ih =>
      exact (errors_setOptionValue _ _ p).trans ih
  | case6 arg rest p cs harg hmem name opt hfind hvalue ih => exact (errors_setOption _ p).trans ih
  | case7 arg rest p harg ih => exact ih
  | case8 arg rest p c cs hc harg last p' hlookup ih =>
      exact ((errors_parseBundle table _ p).trans (errors_fail _ p')).trans ih
  | case9 arg rest p c cs hc harg last p' hlookup ih =>
      exact ((errors_parseBundle table _ p).trans (errors_fail _ p')).trans ih
  | case10 arg p c cs hc harg last p' name hlookup hname hvalue =>
      exact (errors_parseBundle table _ p).trans (errors_setOption name p')
  | case11 arg p c cs hc harg last p' name hlookup hname hvalue value rest ih =>
      exact ((errors_parseBundle table _ p).trans (errors_setOptionValue name value p')).trans ih
  | case12 arg rest p c cs hc harg last p' name hlookup hname hvalue ih =>
      exact ((errors_parseBundle table _ p).trans (errors_setOption name p')).trans ih
  | case13 arg rest p hlong hdash hshort ih => exact ih

theorem errors_parseArgs_fail (table : List (Char × String)) (args : List String)
    (message : String) (p : CmdParser) :
    p.errors ++ [message] <+: (parseArgs table args (p.fail message)).errors :=
  errors_parseArgs table args (p.fail message)

/-! ### One argument -/

section

variable {table : List (Char × String)} {p : CmdParser}

theorem toList_long (name : String) : ("--" ++ name).toList = '-' :: '-' :: name.toList := by
  simp

theorem toList_joined (name value : String) :
    ("--" ++ name ++ "=" ++ value).toList =
      '-' :: '-' :: (name.toList ++ '=' :: value.toList) := by
  simp

/-- An argument with two dashes: the text up to its first `=`, or all of it. -/
theorem parseArgs_long {arg : String} {cs : List Char} (harg : arg.toList = '-' :: '-' :: cs)
    (rest : List String) :
    parseArgs table (arg :: rest) p =
      if '=' ∈ cs then
        parseArgs table rest (p.setOptionValue (String.ofList (cs.takeWhile (· != '=')))
          (String.ofList (cs.dropWhile (· != '=')).tail))
      else
        match p.find (String.ofList cs) with
        | none => parseArgs table rest (p.fail ("undefined option: --" ++ String.ofList cs))
        | some opt =>
            if opt.type.hasValue then
              match rest with
              | [] => p.fail ("option needs value: --" ++ String.ofList cs)
              | value :: rest => parseArgs table rest (p.setOptionValue (String.ofList cs) value)
            else parseArgs table rest (p.setOption (String.ofList cs)) := by
  rw [parseArgs, harg]
  rfl

theorem parseArgs_joined {name value : String} (hname : '=' ∉ name.toList) (rest : List String) :
    parseArgs table (("--" ++ name ++ "=" ++ value) :: rest) p =
      parseArgs table rest (p.setOptionValue name value) := by
  have hbefore : ∀ c ∈ name.toList, (c != '=') = true := by
    intro c hc
    exact bne_iff_ne.mpr fun heq => hname (heq ▸ hc)
  rw [parseArgs_long (toList_joined name value)]
  simp only [List.mem_append, List.mem_cons, true_or, or_true, if_true]
  rw [List.takeWhile_append_of_pos hbefore, List.dropWhile_append_of_pos hbefore]
  simp

theorem parseArgs_flag {name : String} (hname : '=' ∉ name.toList)
    (h : p.grammar.takesText name = some false) (rest : List String) :
    parseArgs table (("--" ++ name) :: rest) p = parseArgs table rest (p.setOption name) := by
  rw [takesText_grammar, Option.map_eq_some_iff] at h
  obtain ⟨opt, hfind, hvalue⟩ := h
  rw [parseArgs_long (toList_long name)]
  simp [hname, hfind, hvalue]

theorem parseArgs_apart {name : String} (hname : '=' ∉ name.toList)
    (h : p.grammar.takesText name = some true) (value : String) (rest : List String) :
    parseArgs table (("--" ++ name) :: value :: rest) p =
      parseArgs table rest (p.setOptionValue name value) := by
  rw [takesText_grammar, Option.map_eq_some_iff] at h
  obtain ⟨opt, hfind, hvalue⟩ := h
  rw [parseArgs_long (toList_long name)]
  simp [hname, hfind, hvalue]

theorem parseArgs_missing {name : String} (hname : '=' ∉ name.toList)
    (h : p.grammar.takesText name = some true) :
    parseArgs table ["--" ++ name] p = p.fail ("option needs value: --" ++ name) := by
  rw [takesText_grammar, Option.map_eq_some_iff] at h
  obtain ⟨opt, hfind, hvalue⟩ := h
  rw [parseArgs_long (toList_long name)]
  simp [hname, hfind, hvalue]

theorem parseArgs_undefined {name : String} (hname : '=' ∉ name.toList)
    (h : p.grammar.takesText name = none) (rest : List String) :
    parseArgs table (("--" ++ name) :: rest) p =
      parseArgs table rest (p.fail ("undefined option: --" ++ name)) := by
  rw [takesText_grammar, Option.map_eq_none_iff] at h
  rw [parseArgs_long (toList_long name)]
  simp [hname, h]

theorem parseArgs_other {arg : String} (h : arg.toList.head? ≠ some '-') (rest : List String) :
    parseArgs table (arg :: rest) p =
      parseArgs table rest { p with others := p.others ++ [arg] } := by
  rw [parseArgs]
  split
  · rename_i harg
    simp [harg] at h
  · rename_i harg
    simp [harg] at h
  · rename_i harg
    simp [harg] at h
  · rfl

theorem parseArgs_dash (rest : List String) :
    parseArgs table ("-" :: rest) p = parseArgs table rest p := by
  rw [parseArgs]
  rfl

/-- An argument with one dash: the letters before the last one, then the last. -/
theorem parseArgs_bundle {cs : List Char} {c : Char} (hc : (cs ++ [c]).head? ≠ some '-')
    (rest : List String) :
    parseArgs table (String.ofList ('-' :: (cs ++ [c])) :: rest) p =
      match table.lookup c with
      | none =>
          parseArgs table rest ((parseBundle table cs p).fail
            ("undefined short option: -" ++ c.toString))
      | some name =>
          if name = "" then
            parseArgs table rest ((parseBundle table cs p).fail
              ("ambiguous short option: -" ++ c.toString))
          else if ((parseBundle table cs p).find name).any fun opt => opt.type.hasValue then
            match rest with
            | [] => (parseBundle table cs p).setOption name
            | value :: rest =>
                parseArgs table rest ((parseBundle table cs p).setOptionValue name value)
          else parseArgs table rest ((parseBundle table cs p).setOption name) := by
  obtain ⟨d, ds, hds⟩ : ∃ d ds, cs ++ [c] = d :: ds := by
    cases cs with
    | nil => exact ⟨c, [], rfl⟩
    | cons d cs => exact ⟨d, cs ++ [c], rfl⟩
  have hd : d ≠ '-' := by simpa [hds] using hc
  have hlast : (d :: ds).getLast (List.cons_ne_nil d ds) = c := by
    simp [← hds]
  have hinit : (d :: ds).dropLast = cs := by
    rw [← hds, List.dropLast_concat]
  rw [parseArgs, String.toList_ofList, hds]
  split
  · rename_i heq
    simp only [List.cons.injEq] at heq
    exact absurd heq.2.1 hd
  · rename_i heq
    simp at heq
  · rename_i c' cs' hne heq
    simp only [List.cons.injEq, true_and] at heq
    obtain ⟨rfl, rfl⟩ := heq
    subst hlast hinit
    rfl
  · rename_i hnot
    exact absurd rfl (hnot d ds)

/-! ### A spelled line, and a faulty one -/

/-- The parser after settings, with arguments left over. -/
def leave (others : List String) (p : CmdParser) : CmdParser :=
  { p with others := p.others ++ others }

def assignAll (settings : List Setting) (p : CmdParser) : CmdParser := settings.foldl assign p

@[simp] theorem leave_nil (p : CmdParser) : p.leave [] = p := by
  cases p
  simp [leave]

@[simp] theorem decls_assignAll (settings : List Setting) (p : CmdParser) :
    (p.assignAll settings).decls = p.decls := by
  induction settings generalizing p with
  | nil => rfl
  | cons setting settings ih =>
      exact (ih (p.assign setting)).trans (decls_assign p setting)

theorem grammar_assignAll (settings : List Setting) (p : CmdParser) :
    (p.assignAll settings).grammar = p.grammar :=
  congrArg syntaxOf (decls_assignAll settings p)

@[simp] theorem errors_assignAll (settings : List Setting) (p : CmdParser) :
    (p.assignAll settings).errors = p.errors := by
  induction settings generalizing p with
  | nil => rfl
  | cons setting settings ih =>
      refine (ih (p.assign setting)).trans ?_
      cases setting <;> rfl

@[simp] theorem others_assignAll (settings : List Setting) (p : CmdParser) :
    (p.assignAll settings).others = p.others := by
  induction settings generalizing p with
  | nil => rfl
  | cons setting settings ih =>
      refine (ih (p.assign setting)).trans ?_
      cases setting <;> rfl

theorem assignAll_append (settings settings' : List Setting) (p : CmdParser) :
    p.assignAll (settings ++ settings') = (p.assignAll settings).assignAll settings' :=
  List.foldl_append

theorem assignAll_leave (settings : List Setting) (others : List String) (p : CmdParser) :
    (p.leave others).assignAll settings = (p.assignAll settings).leave others := by
  induction settings generalizing p with
  | nil => rfl
  | cons setting settings ih =>
      have hassign : (p.leave others).assign setting = (p.assign setting).leave others := by
        cases setting <;> rfl
      show ((p.leave others).assign setting).assignAll settings = _
      rw [hassign]
      exact ih (p.assign setting)

theorem leave_leave (others others' : List String) (p : CmdParser) :
    (p.leave others).leave others' = p.leave (others ++ others') := by
  cases p
  simp [leave]

theorem parseBundle_append (cs ds : List Char) (p : CmdParser) :
    parseBundle table (cs ++ ds) p = parseBundle table ds (parseBundle table cs p) := by
  induction cs generalizing p with
  | nil => rfl
  | cons c cs ih =>
      rw [List.cons_append, parseBundle, parseBundle]
      split
      · exact ih _
      · split
        · exact ih _
        · exact ih _

theorem parseBundle_flags {cs : List Char} {names : List String}
    (hletters : Letters table p.grammar) (h : p.grammar.Flags cs names) :
    parseBundle table cs p = p.assignAll (names.map .flag) := by
  induction cs generalizing p names with
  | nil =>
      obtain rfl := List.forall₂_nil_left_iff.mp h
      rfl
  | cons c cs ih =>
      obtain ⟨name, names', hfirst, hrest, rfl⟩ := List.forall₂_cons_left_iff.mp h
      have hgrammar : (p.assign (.flag name)).grammar = p.grammar :=
        congrArg syntaxOf (decls_assign p _)
      rw [parseBundle, hletters, hfirst.1]
      simp only [ne_empty_of_letter hfirst.1, if_false, setOption_of_flag hfirst.2]
      exact ih (hgrammar ▸ hletters) (hgrammar ▸ hrest)

theorem parseBundle_flags_frame {cs : List Char} {names : List String}
    (hletters : Letters table p.grammar) (h : p.grammar.Flags cs names) :
    (parseBundle table cs p).errors = p.errors ∧
      (parseBundle table cs p).grammar = p.grammar := by
  rw [parseBundle_flags hletters h]
  exact ⟨errors_assignAll _ p, grammar_assignAll _ p⟩

theorem parseArgs_item {args others : List String} {settings : List Setting}
    (hletters : Letters table p.grammar) (hitem : p.grammar.Item args settings others)
    (rest : List String) :
    parseArgs table (args ++ rest) p =
      parseArgs table rest ((p.assignAll settings).leave others) := by
  cases hitem with
  | other h => exact parseArgs_other h rest
  | dash =>
      rw [leave_nil]
      exact parseArgs_dash rest
  | joined hname h =>
      rw [leave_nil, List.singleton_append, parseArgs_joined hname, setOptionValue_of_takes h]
      rfl
  | apart hname h =>
      rw [leave_nil, List.cons_append, List.singleton_append, parseArgs_apart hname h.1,
        setOptionValue_of_takes h]
      rfl
  | flag hname h =>
      rw [leave_nil, List.singleton_append, parseArgs_flag hname h, setOption_of_flag h]
      rfl
  | @letters c cs names hc h =>
      obtain ⟨before, last, hcs⟩ : ∃ before last, c :: cs = before ++ [last] :=
        ⟨_, _, (List.dropLast_append_getLast (List.cons_ne_nil c cs)).symm⟩
      have hfirst : (before ++ [last]).head? ≠ some '-' := by
        rw [← hcs]
        simpa using hc
      rw [hcs] at h ⊢
      obtain ⟨names', name, rfl, hflags, hletter, htakes⟩ := h.concat
      have hgrammar := grammar_assignAll (names'.map .flag) p
      have hflag : (p.assignAll (names'.map .flag)).grammar.takesText name = some false :=
        hgrammar ▸ htakes
      rw [leave_nil, List.singleton_append, parseArgs_bundle hfirst, hletters, hletter,
        parseBundle_flags hletters hflags]
      simp only [ne_empty_of_letter hletter, if_false, any_hasValue hflag, Bool.false_eq_true]
      rw [setOption_of_flag hflag, List.map_append, assignAll_append]
      rfl
  | @lettersText cs c names name value hc h hletter htakes =>
      have hbundle := parseBundle_flags hletters h
      have hgrammar := grammar_assignAll (names.map .flag) p
      have hvalue := any_hasValue (p := p.assignAll (names.map .flag)) (hgrammar ▸ htakes.1)
      rw [leave_nil, List.cons_append, List.singleton_append, parseArgs_bundle hc, hletters, hletter,
        hbundle]
      simp only [ne_empty_of_letter hletter, if_false, hvalue, if_true]
      rw [setOptionValue_of_takes (p := p.assignAll (names.map .flag)) (hgrammar ▸ htakes),
        assignAll_append]
      rfl

theorem parseArgs_spells {args others : List String} {settings : List Setting}
    (hletters : Letters table p.grammar) (h : p.grammar.Spells args settings others)
    (rest : List String) :
    parseArgs table (args ++ rest) p =
      parseArgs table rest ((p.assignAll settings).leave others) := by
  generalize hg : p.grammar = g at hletters h
  induction h generalizing p with
  | nil =>
      rw [leave_nil]
      rfl
  | @cons args args' others others' settings settings' hitem hrest ih =>
      have hgrammar : ((p.assignAll settings).leave others).grammar = g :=
        (grammar_assignAll settings p).trans hg
      rw [List.append_assoc, parseArgs_item (hg ▸ hletters) (hg ▸ hitem), ih hgrammar,
        assignAll_leave, leave_leave, ← assignAll_append]

/-- Nothing that comes after a bundle takes back the messages of its letters. -/
theorem errors_parseArgs_bundle {cs : List Char} {c : Char} (hc : (cs ++ [c]).head? ≠ some '-')
    (rest : List String) :
    (parseBundle table cs p).errors <+:
      (parseArgs table (String.ofList ('-' :: (cs ++ [c])) :: rest) p).errors := by
  rw [parseArgs_bundle hc]
  split
  · exact (errors_fail _ _).trans (errors_parseArgs table rest _)
  · split
    · exact (errors_fail _ _).trans (errors_parseArgs table rest _)
    · split
      · split
        · exact errors_setOption _ _
        · exact (errors_setOptionValue _ _ _).trans (errors_parseArgs table _ _)
      · exact (errors_setOption _ _).trans (errors_parseArgs table rest _)

/-- A letter that leaves a message leaves it also in front of others. -/
theorem errors_parseArgs_letter {cs cs' : List Char} {c : Char} {message : String}
    (hc : (cs ++ [c]).head? ≠ some '-') (hcs' : cs' ≠ [])
    (h : parseBundle table (cs ++ [c]) p = (parseBundle table cs p).fail message)
    (rest : List String) :
    (parseBundle table cs p).errors ++ [message] <+:
      (parseArgs table (String.ofList ('-' :: (cs ++ c :: cs')) :: rest) p).errors := by
  obtain ⟨init, last, rfl⟩ : ∃ init last, cs' = init ++ [last] :=
    ⟨_, _, (List.dropLast_append_getLast hcs').symm⟩
  have harg : cs ++ c :: (init ++ [last]) = (cs ++ [c] ++ init) ++ [last] := by simp
  have hfirst : (cs ++ [c] ++ init ++ [last]).head? ≠ some '-' := by
    cases cs <;> simpa using hc
  rw [harg]
  refine List.IsPrefix.trans ?_ (errors_parseArgs_bundle hfirst rest)
  rw [parseBundle_append, h]
  exact errors_parseBundle table init ((parseBundle table cs p).fail message)

theorem errors_parseArgs_stuck {args : List String} {fault : Fault}
    (hletters : Letters table p.grammar) (h : p.grammar.Stuck args fault) :
    p.errors ++ [faultText fault] <+: (parseArgs table args p).errors := by
  cases h with
  | undefined hname h =>
      rw [parseArgs_undefined hname h]
      exact errors_parseArgs_fail table _ _ p
  | undefinedJoined hname h =>
      rw [parseArgs_joined hname, setOptionValue_of_none _ h]
      exact errors_parseArgs_fail table _ _ p
  | invalidJoined hname hknown h =>
      rw [parseArgs_joined hname, setOptionValue_of_not_takes hknown h]
      exact errors_parseArgs_fail table _ _ p
  | missing hname h =>
      rw [parseArgs_missing hname h]
      exact List.prefix_rfl
  | invalidApart hname h hreads =>
      rw [parseArgs_apart hname h, setOptionValue_of_not_takes (by rw [h]; rfl)
        fun htakes => absurd htakes.2 (by simp [hreads])]
      exact errors_parseArgs_fail table _ _ p
  | @undefinedLetter cs cs' c names rest hc h hletter =>
      obtain ⟨herrors, -⟩ := parseBundle_flags_frame hletters h
      rw [← herrors]
      by_cases hcs' : cs' = []
      · subst hcs'
        rw [parseArgs_bundle hc, hletters, hletter]
        exact errors_parseArgs_fail table rest _ _
      · refine errors_parseArgs_letter hc hcs' ?_ rest
        rw [parseBundle_append, parseBundle, hletters, hletter]
        rfl
  | @inside cs cs' c c' names rest name hc h hletter htakes =>
      obtain ⟨herrors, hgrammar⟩ := parseBundle_flags_frame hletters h
      rw [← herrors]
      refine errors_parseArgs_letter hc (List.cons_ne_nil c' cs') ?_ rest
      rw [parseBundle_append, parseBundle, hletters, hletter]
      simp only [ne_empty_of_letter hletter, if_false]
      exact setOption_of_takesText (hgrammar ▸ htakes)
  | @missingLast cs c names name hc h hletter htakes =>
      obtain ⟨herrors, hgrammar⟩ := parseBundle_flags_frame hletters h
      have htakes' : (parseBundle table cs p).grammar.takesText name = some true :=
        hgrammar ▸ htakes
      rw [← herrors, parseArgs_bundle hc, hletters, hletter]
      simp only [ne_empty_of_letter hletter, if_false, any_hasValue htakes', if_true]
      rw [setOption_of_takesText htakes']
      exact List.prefix_rfl
  | @invalidLast cs c names rest name value hc h hletter htakes hreads =>
      obtain ⟨herrors, hgrammar⟩ := parseBundle_flags_frame hletters h
      have htakes' : (parseBundle table cs p).grammar.takesText name = some true :=
        hgrammar ▸ htakes
      have hnot : ¬ (parseBundle table cs p).grammar.Takes name value := by
        rw [hgrammar]
        exact fun h => absurd h.2 (by simp [hreads])
      rw [← herrors, parseArgs_bundle hc, hletters, hletter]
      simp only [ne_empty_of_letter hletter, if_false, any_hasValue htakes', if_true]
      rw [setOptionValue_of_not_takes (by rw [htakes']; rfl) hnot]
      exact errors_parseArgs_fail table rest _ _

theorem errors_parseArgs_firstFault {args : List String} {fault : Fault}
    (hletters : Letters table p.grammar) (h : p.grammar.FirstFault args fault) :
    p.errors ++ [faultText fault] <+: (parseArgs table args p).errors := by
  obtain ⟨good, settings, others, rest, rfl, hgood, hstuck⟩ := h
  have hgrammar : ((p.assignAll settings).leave others).grammar = p.grammar :=
    grammar_assignAll settings p
  have herrors : ((p.assignAll settings).leave others).errors = p.errors :=
    errors_assignAll settings p
  rw [parseArgs_spells hletters hgood, ← herrors]
  exact errors_parseArgs_stuck (hgrammar ▸ hletters) (hgrammar ▸ hstuck)

end

/-! ## The value of an option -/

end CmdParser

namespace CmdOption

/-- What a setting makes of an option. -/
def apply (opt : CmdOption) (setting : Setting) : CmdOption :=
  if opt.name = setting.name then
    match setting with
    | .flag _ => opt.set
    | .text _ value => opt.setValue value
  else opt

def applyAll (settings : List Setting) (opt : CmdOption) : CmdOption := settings.foldl apply opt

@[simp] theorem decl_apply (opt : CmdOption) (setting : Setting) :
    (opt.apply setting).decl = opt.decl := by
  unfold apply
  split
  · cases setting with
    | flag name => rfl
    | text name value => exact CmdParser.decl_setValue value opt
  · rfl

theorem name_apply (opt : CmdOption) (setting : Setting) : (opt.apply setting).name = opt.name :=
  congrArg Decl.name (opt.decl_apply setting)

theorem need_apply (opt : CmdOption) (setting : Setting) : (opt.apply setting).need = opt.need := by
  unfold apply
  split
  · cases setting with
    | flag name => rfl
    | text name value =>
        show (opt.setValue value).need = opt.need
        unfold setValue
        split <;> rfl
  · rfl

theorem name_applyAll (settings : List Setting) (opt : CmdOption) :
    (opt.applyAll settings).name = opt.name := by
  induction settings generalizing opt with
  | nil => rfl
  | cons setting settings ih => exact (ih (opt.apply setting)).trans (name_apply opt setting)

theorem need_applyAll (settings : List Setting) (opt : CmdOption) :
    (opt.applyAll settings).need = opt.need := by
  induction settings generalizing opt with
  | nil => rfl
  | cons setting settings ih => exact (ih (opt.apply setting)).trans (need_apply opt setting)

/-- The text is read as the option's type reads it. -/
def readValue (opt : CmdOption) (text : String) : Option CmdValue :=
  (opt.type.read text).map opt.type.wrap

theorem value_setValue (text : String) (opt : CmdOption) :
    (opt.setValue text).value = (opt.readValue text).getD opt.value := by
  unfold setValue readValue
  split
  · rename_i actual hread
    rw [hread]
    rfl
  · rename_i hread
    rw [hread]
    rfl

theorem readValue_of_decl_eq {opt opt' : CmdOption} (h : opt.decl = opt'.decl) (text : String) :
    opt.readValue text = opt'.readValue text := by
  have htype : opt.type = opt'.type := congrArg Decl.type h
  unfold readValue
  rw [htype]

/-- The setting is one that the option takes, or of another option. -/
def Fits (opt : CmdOption) (setting : Setting) : Prop :=
  ∀ text, setting.textOf opt.name = some text → (opt.readValue text).isSome

theorem value_apply {opt : CmdOption} {setting : Setting} (h : opt.Fits setting) :
    (opt.apply setting).value =
      ((setting.textOf opt.name).bind opt.readValue).getD opt.value := by
  cases setting with
  | flag name =>
      unfold apply
      split <;> rfl
  | text name text =>
      by_cases hname : opt.name = name
      · subst hname
        have htext : (Setting.text opt.name text).textOf opt.name = some text := if_pos rfl
        obtain ⟨value, hvalue⟩ := Option.isSome_iff_exists.mp (h text htext)
        simp [apply, Setting.name, htext, value_setValue, hvalue]
      · simp [apply, Setting.name, Setting.textOf, hname, Ne.symm hname]

theorem has_apply {opt : CmdOption} {setting : Setting} (h : opt.Fits setting) :
    (opt.apply setting).has = (opt.has || decide (setting.name = opt.name)) := by
  by_cases hname : opt.name = setting.name
  · cases setting with
    | flag name => simp [apply, hname, set]
    | text name text =>
        have htext : (Setting.text name text).textOf opt.name = some text := if_pos hname.symm
        obtain ⟨value, hvalue⟩ := Option.isSome_iff_exists.mp (h text htext)
        obtain ⟨actual, hread, -⟩ := Option.map_eq_some_iff.mp hvalue
        simp [apply, hname, setValue, hread]
  · simp [apply, hname, Ne.symm hname]

/-- A run of settings, each of which is read with the same name and type. -/
theorem fits_apply {settings : List Setting} {opt : CmdOption}
    (h : ∀ setting ∈ settings, opt.Fits setting) (setting : Setting) :
    ∀ other ∈ settings, (opt.apply setting).Fits other := by
  intro other hother
  unfold Fits
  rw [name_apply, funext (readValue_of_decl_eq (opt.decl_apply setting))]
  exact h other hother

/-- The last text of an option is its value. -/
theorem value_applyAll {settings : List Setting} {opt : CmdOption}
    (h : ∀ setting ∈ settings, opt.Fits setting) :
    (opt.applyAll settings).value =
      ((lastText opt.name settings).bind opt.readValue).getD opt.value := by
  induction settings generalizing opt with
  | nil => rfl
  | cons setting settings ih =>
      obtain ⟨hfirst, htail⟩ := List.forall_mem_cons.mp h
      have hrest := ih (fits_apply htail setting)
      rw [name_apply, funext (readValue_of_decl_eq (opt.decl_apply setting)),
        value_apply hfirst] at hrest
      show ((opt.apply setting).applyAll settings).value = _
      rw [hrest, lastText_cons]
      cases hlast : lastText opt.name settings with
      | none => rfl
      | some text =>
          obtain ⟨other, hother, htext⟩ := exists_of_lastText hlast
          obtain ⟨value, hvalue⟩ := Option.isSome_iff_exists.mp (htail other hother text htext)
          simp [hvalue]

theorem has_applyAll {settings : List Setting} {opt : CmdOption}
    (h : ∀ setting ∈ settings, opt.Fits setting) :
    (opt.applyAll settings).has =
      (opt.has || decide (opt.name ∈ settings.map Setting.name)) := by
  induction settings generalizing opt with
  | nil => simp [applyAll]
  | cons setting settings ih =>
      obtain ⟨hfirst, htail⟩ := List.forall_mem_cons.mp h
      show ((opt.apply setting).applyAll settings).has = _
      rw [ih (fits_apply htail setting), name_apply, has_apply hfirst, Bool.or_assoc]
      simp [eq_comm]

end CmdOption

namespace CmdParser

theorem name_of_find {name : String} {p : CmdParser} {opt : CmdOption}
    (h : p.find name = some opt) : opt.name = name := by
  simpa using List.find?_some h

theorem options_assign (p : CmdParser) (setting : Setting) :
    (p.assign setting).options = p.options.map fun opt => opt.apply setting := by
  cases setting with
  | flag name => exact KeyedList.updateFirst_eq_map p.nodup
  | text name value => exact KeyedList.updateFirst_eq_map p.nodup

theorem options_assignAll (settings : List Setting) (p : CmdParser) :
    (p.assignAll settings).options = p.options.map (CmdOption.applyAll settings) := by
  induction settings generalizing p with
  | nil => exact (List.map_id p.options).symm
  | cons setting settings ih =>
      show ((p.assign setting).assignAll settings).options = _
      rw [ih, options_assign, List.map_map]
      rfl

theorem find_assignAll (settings : List Setting) (p : CmdParser) (name : String) :
    (p.assignAll settings).find name = (p.find name).map (CmdOption.applyAll settings) := by
  unfold find
  rw [options_assignAll, KeyedList.find_map (CmdOption.name_applyAll settings)]

/-! ## The letters -/

def lettersOf (opts : List CmdOption) : List Char :=
  (opts.filter fun opt => decide (opt.name ≠ "")).filterMap CmdOption.shortName

section

variable {opt : CmdOption} {opts : List CmdOption}

theorem lettersOf_of_name_empty (hname : opt.name = "") :
    lettersOf (opt :: opts) = lettersOf opts := by
  simp [lettersOf, hname]

theorem lettersOf_of_shortName_none (hname : opt.name ≠ "") (hshort : opt.shortName = none) :
    lettersOf (opt :: opts) = lettersOf opts := by
  simp [lettersOf, hname, hshort]

theorem lettersOf_of_shortName_some {initial : Char} (hname : opt.name ≠ "")
    (hshort : opt.shortName = some initial) :
    lettersOf (opt :: opts) = initial :: lettersOf opts := by
  simp [lettersOf, hname, hshort]

end

theorem exists_lookupTable_iff (opts : List CmdOption) (table : List (Char × String)) :
    (∃ table', lookupTable opts table = .ok table') ↔
      (lettersOf opts).Nodup ∧ ∀ c ∈ lettersOf opts, table.lookup c = none := by
  induction opts generalizing table with
  | nil => simp [lookupTable, lettersOf]
  | cons opt opts ih =>
      unfold lookupTable
      by_cases hname : opt.name = ""
      · rw [if_pos hname, lettersOf_of_name_empty hname]
        exact ih table
      · rw [if_neg hname]
        cases hshort : opt.shortName with
        | none =>
            rw [lettersOf_of_shortName_none hname hshort]
            exact ih table
        | some initial =>
            rw [lettersOf_of_shortName_some hname hshort, List.nodup_cons, List.forall_mem_cons]
            by_cases hsome : (table.lookup initial).isSome = true
            · have hlookup : table.lookup initial ≠ none := Option.isSome_iff_ne_none.mp hsome
              simp only [hsome, if_true, hlookup, false_and, and_false, iff_false]
              rintro ⟨table', h⟩
              cases h
            · have hlookup : table.lookup initial = none :=
                Option.not_isSome_iff_eq_none.mp hsome
              have hnew : ∀ c ∈ lettersOf opts,
                  (((initial, opt.name) :: table).lookup c = none ↔
                    c ≠ initial ∧ table.lookup c = none) := by
                intro c hc
                rw [List.lookup_cons]
                by_cases heq : c = initial
                · simp [heq]
                · rw [beq_eq_false_iff_ne.mpr heq]
                  simp [heq]
              simp only [hlookup, Option.isSome_none, Bool.false_eq_true, if_false, true_and]
              rw [ih, forall₂_congr hnew]
              constructor
              · rintro ⟨hnodup, hall⟩
                exact ⟨⟨fun hmem => (hall initial hmem).1 rfl, hnodup⟩, fun c hc => (hall c hc).2⟩
              · rintro ⟨⟨hnot, hnodup⟩, hall⟩
                exact ⟨hnodup, fun c hc => ⟨fun heq => hnot (heq ▸ hc), hall c hc⟩⟩

/-! ## The whole parse -/

theorem checkNeeds_eq (p : CmdParser) :
    p.checkNeeds = { p with
      errors := p.errors ++ (p.options.filter fun opt => !opt.valid).map
        fun opt => "need option: --" ++ opt.name } := by
  have hgeneral : ∀ (opts : List CmdOption) (p : CmdParser),
      opts.foldl (fun p opt => if opt.valid then p else p.fail ("need option: --" ++ opt.name)) p =
        { p with
          errors := p.errors ++ (opts.filter fun opt => !opt.valid).map
            fun opt => "need option: --" ++ opt.name } := by
    intro opts
    induction opts with
    | nil => simp
    | cons opt opts ih =>
        intro p
        rw [List.foldl_cons, ih]
        cases hvalid : opt.valid with
        | true => simp [hvalid]
        | false => simp [hvalid, fail]
  exact hgeneral p.options p

theorem errors_checkNeeds (p : CmdParser) :
    p.checkNeeds.errors = p.errors ++ (p.options.filter fun opt => !opt.valid).map
      fun opt => "need option: --" ++ opt.name := by
  rw [checkNeeds_eq]

/-- A letter that the table refuses is one of two options. -/
theorem duplicate_of_lookupTable {opts : List CmdOption} {table : List (Char × String)} {c : Char}
    (h : lookupTable opts table = .error c) :
    (c ∈ lettersOf opts ∧ (table.lookup c).isSome) ∨ List.Duplicate c (lettersOf opts) := by
  induction opts generalizing table with
  | nil => cases h
  | cons opt opts ih =>
      unfold lookupTable at h
      by_cases hname : opt.name = ""
      · rw [if_pos hname] at h
        rw [lettersOf_of_name_empty hname]
        exact ih h
      · rw [if_neg hname] at h
        cases hshort : opt.shortName with
        | none =>
            rw [hshort] at h
            rw [lettersOf_of_shortName_none hname hshort]
            exact ih h
        | some initial =>
            rw [hshort] at h
            rw [lettersOf_of_shortName_some hname hshort]
            dsimp only at h
            split at h
            · rename_i hsome
              cases h
              exact .inl ⟨List.mem_cons_self, hsome⟩
            · rcases ih h with ⟨hmem, hsome⟩ | hdup
              · by_cases hc : c = initial
                · subst hc
                  exact .inr (List.Mem.duplicate_cons_self hmem)
                · rw [List.lookup_cons, beq_eq_false_iff_ne.mpr hc] at hsome
                  exact .inl ⟨List.mem_cons_of_mem _ hmem, hsome⟩
              · exact .inr (hdup.duplicate_cons initial)

/-- Every option that is needed has been set. -/
def Supplied (p : CmdParser) (settings : List Setting) : Prop :=
  ∀ opt ∈ p.options, opt.need = true → opt.has = true ∨ opt.name ∈ settings.map Setting.name

/-- `q` holds what the settings say. -/
structure Holds (p : CmdParser) (settings : List Setting) (others : List String)
    (q : CmdParser) : Prop where
  others_eq : q.others = others
  exist_eq : ∀ name, q.exist name =
    (p.find name).any fun opt => opt.has || decide (name ∈ settings.map Setting.name)
  value_eq : ∀ name, (q.find name).map CmdOption.value =
    (p.find name).map fun opt => ((lastText name settings).bind opt.readValue).getD opt.value

theorem mem_of_find {name : String} {p : CmdParser} {opt : CmdOption}
    (h : p.find name = some opt) : opt ∈ p.options := List.mem_of_find?_eq_some h

theorem fits_of_accepts {p : CmdParser} {opt : CmdOption} {setting : Setting}
    (hopt : opt ∈ p.options) (h : p.grammar.Accepts setting) : opt.Fits setting := by
  intro text htext
  cases setting with
  | flag name => cases htext
  | text name value =>
      obtain ⟨rfl, rfl⟩ : name = opt.name ∧ value = text := by
        simpa [Setting.textOf] using htext
      have hfind : p.find opt.name = some opt := KeyedList.find_of_mem p.nodup hopt
      have hreads := h.2
      rw [reads_grammar, hfind, Option.any_some] at hreads
      rw [CmdOption.readValue, Option.isSome_map]
      exact hreads

section

variable {p : CmdParser} {args others : List String} {settings : List Setting}

theorem letters_of_lookupTable {table : List (Char × String)}
    (h : lookupTable p.options [] = .ok table) : Letters table p.grammar := by
  intro c
  rw [lookup_lookupTable h c]
  rfl

theorem parse_eq_of_table {table : List (Char × String)} (h : lookupTable p.options [] = .ok table)
    (prog : String) (args : List String) :
    p.parse (prog :: args) =
      ((parseArgs table args (p.cleared prog)).checkNeeds.errors.isEmpty,
        (parseArgs table args (p.cleared prog)).checkNeeds) := by
  have htable : lookupTable (p.cleared prog).options [] = .ok table := h
  simp only [parse, htable]

/-- A line that is spelled sets the options, and what is still missing is the only error. -/
theorem parse_of_spells (hletters : (lettersOf p.options).Nodup)
    (h : p.grammar.Spells args settings others) (prog : String) :
    (p.parse (prog :: args)).2 = (((p.cleared prog).assignAll settings).leave others).checkNeeds ∧
      (p.parse (prog :: args)).1 = (p.parse (prog :: args)).2.errors.isEmpty := by
  obtain ⟨table, htable⟩ := (exists_lookupTable_iff p.options []).mpr ⟨hletters, by simp⟩
  have hread := parseArgs_spells (p := p.cleared prog) (letters_of_lookupTable htable) h []
  rw [List.append_nil] at hread
  rw [parse_eq_of_table htable, hread]
  exact ⟨rfl, rfl⟩

theorem errors_of_spells (hletters : (lettersOf p.options).Nodup)
    (h : p.grammar.Spells args settings others) (prog : String) :
    (p.parse (prog :: args)).2.errors =
      ((p.options.map (CmdOption.applyAll settings)).filter fun opt => !opt.valid).map
        fun opt => "need option: --" ++ opt.name := by
  rw [(parse_of_spells hletters h prog).1, errors_checkNeeds]
  have herrors : (((p.cleared prog).assignAll settings).leave others).errors = [] :=
    errors_assignAll settings (p.cleared prog)
  have hoptions : (((p.cleared prog).assignAll settings).leave others).options =
      p.options.map (CmdOption.applyAll settings) := options_assignAll settings (p.cleared prog)
  rw [herrors, hoptions, List.nil_append]

theorem holds_of_spells (hletters : (lettersOf p.options).Nodup)
    (h : p.grammar.Spells args settings others) (prog : String) :
    p.Holds settings others (p.parse (prog :: args)).2 := by
  have hfind : ∀ name, (p.parse (prog :: args)).2.find name =
      (p.find name).map (CmdOption.applyAll settings) := by
    intro name
    rw [(parse_of_spells hletters h prog).1, checkNeeds_eq]
    exact find_assignAll settings (p.cleared prog) name
  have hfits : ∀ {opt}, opt ∈ p.options → ∀ setting ∈ settings, opt.Fits setting :=
    fun hopt setting hsetting => fits_of_accepts hopt (h.accepts setting hsetting)
  constructor
  case others_eq =>
    rw [(parse_of_spells hletters h prog).1, checkNeeds_eq]
    have hkept : ((p.cleared prog).assignAll settings).others = [] :=
      others_assignAll settings (p.cleared prog)
    exact (congrArg (· ++ others) hkept).trans (List.nil_append others)
  case exist_eq =>
    intro name
    rw [exist, hfind]
    cases hopt : p.find name with
    | none => rfl
    | some opt =>
        rw [Option.map_some, Option.any_some, Option.any_some,
          CmdOption.has_applyAll (hfits (mem_of_find hopt)), name_of_find hopt]
  case value_eq =>
    intro name
    rw [hfind]
    cases hopt : p.find name with
    | none => rfl
    | some opt =>
        rw [Option.map_some, Option.map_some, Option.map_some,
          CmdOption.value_applyAll (hfits (mem_of_find hopt)), name_of_find hopt]

theorem valid_applyAll {opt : CmdOption} (hopt : opt ∈ p.options)
    (h : p.grammar.Spells args settings others) :
    (opt.applyAll settings).valid = true ↔
      (opt.need = true → opt.has = true ∨ opt.name ∈ settings.map Setting.name) := by
  rw [CmdOption.valid, CmdOption.need_applyAll, CmdOption.has_applyAll fun setting hsetting =>
    fits_of_accepts hopt (h.accepts setting hsetting)]
  cases opt.need <;> cases opt.has <;> simp

theorem isEmpty_errors_of_spells (hletters : (lettersOf p.options).Nodup)
    (h : p.grammar.Spells args settings others) (prog : String) :
    (p.parse (prog :: args)).1 = true ↔ p.Supplied settings := by
  rw [(parse_of_spells hletters h prog).2, errors_of_spells hletters h, List.isEmpty_map,
    List.isEmpty_iff, List.filter_eq_nil_iff, List.forall_mem_map, Supplied]
  refine forall₂_congr fun opt hopt => ?_
  rw [← valid_applyAll hopt h]
  simp

theorem parse_of_firstFault {fault : Fault} (hletters : (lettersOf p.options).Nodup)
    (h : p.grammar.FirstFault args fault) (prog : String) :
    (p.parse (prog :: args)).1 = false ∧
      (p.parse (prog :: args)).2.error = faultText fault := by
  obtain ⟨table, htable⟩ := (exists_lookupTable_iff p.options []).mpr ⟨hletters, by simp⟩
  have hfirst := errors_parseArgs_firstFault (p := p.cleared prog)
    (letters_of_lookupTable htable) h
  have hchecked := hfirst.trans (errors_checkNeeds _ ▸ List.prefix_append _ _)
  obtain ⟨later, hlater⟩ := hchecked
  rw [parse_eq_of_table htable]
  refine ⟨?_, ?_⟩
  · rw [← hlater]
    rfl
  · rw [error, ← hlater]
    rfl

theorem parse_of_duplicate (h : ¬ (lettersOf p.options).Nodup) (prog : String)
    (args : List String) :
    ∃ c, List.Duplicate c (lettersOf p.options) ∧ (p.parse (prog :: args)).1 = false ∧
      (p.parse (prog :: args)).2.error = "short option '" ++ c.toString ++ "' is ambiguous" := by
  cases htable : lookupTable p.options [] with
  | ok table => exact absurd ((exists_lookupTable_iff p.options []).mp ⟨table, htable⟩).1 h
  | error c =>
      have hdup : List.Duplicate c (lettersOf p.options) := by
        rcases duplicate_of_lookupTable htable with ⟨-, hsome⟩ | hdup
        · cases hsome
        · exact hdup
      have htable' : lookupTable (p.cleared prog).options [] = .error c := htable
      refine ⟨c, hdup, ?_, ?_⟩
      · simp only [parse, htable']
      · simp only [parse, htable']
        rfl

theorem parse_eq_true_iff (p : CmdParser) (prog : String) (args : List String) :
    (p.parse (prog :: args)).1 = true ↔
      (lettersOf p.options).Nodup ∧
        ∃ settings others, p.grammar.Spells args settings others ∧ p.Supplied settings := by
  constructor
  · intro h
    have hletters : (lettersOf p.options).Nodup := by
      by_contra hdup
      obtain ⟨c, -, hfalse, -⟩ := parse_of_duplicate hdup prog args
      rw [hfalse] at h
      cases h
    refine ⟨hletters, ?_⟩
    rcases Syntax.spells_or_firstFault (g := p.grammar) args with
      ⟨settings, others, hspells⟩ | ⟨fault, hfault⟩
    · exact ⟨settings, others, hspells, (isEmpty_errors_of_spells hletters hspells prog).mp h⟩
    · rw [(parse_of_firstFault hletters hfault prog).1] at h
      cases h
  · rintro ⟨hletters, settings, others, hspells, hsupplied⟩
    exact (isEmpty_errors_of_spells hletters hspells prog).mpr hsupplied

/-- When no two options share a letter, the parser accepts the lines of its grammar that set
what is needed, and then holds what they say. -/
theorem parse_accepts_iff (p : CmdParser) (prog : String) (args : List String) :
    (p.parse (prog :: args)).1 = true ↔
      (lettersOf p.options).Nodup ∧ ∃ settings others, p.grammar.Spells args settings others ∧
        p.Supplied settings ∧ p.Holds settings others (p.parse (prog :: args)).2 := by
  rw [parse_eq_true_iff]
  refine and_congr_right fun hletters => exists₂_congr fun settings others => ?_
  refine and_congr_right fun hspells => ?_
  exact (and_iff_left (holds_of_spells hletters hspells prog)).symm

/-- The first option, by name, that is needed and not set. -/
def FirstMissing (p : CmdParser) (settings : List Setting) (opt : CmdOption) : Prop :=
  opt.need = true ∧ opt.has = false ∧ opt.name ∉ settings.map Setting.name ∧
    ∃ before after, p.options = before ++ opt :: after ∧
      ∀ other ∈ before, other.need = true →
        other.has = true ∨ other.name ∈ settings.map Setting.name

theorem exists_firstMissing (hletters : (lettersOf p.options).Nodup)
    (h : p.grammar.Spells args settings others) {prog : String}
    (hrefused : (p.parse (prog :: args)).1 = false) :
    ∃ opt, p.FirstMissing settings opt ∧
      (p.parse (prog :: args)).2.error = "need option: --" ++ opt.name := by
  have herrors := errors_of_spells hletters h prog
  rw [List.filter_map, List.map_map] at herrors
  have hhead : (p.parse (prog :: args)).2.errors.head? =
      (p.options.find? fun opt => !(opt.applyAll settings).valid).map
        fun opt => "need option: --" ++ opt.name := by
    rw [herrors, List.head?_map, List.head?_filter]
    refine Option.map_congr fun opt _ => ?_
    exact congrArg ("need option: --" ++ ·) (CmdOption.name_applyAll settings opt)
  cases hfind : p.options.find? fun opt => !(opt.applyAll settings).valid with
  | none =>
      rw [hfind, Option.map_none, List.head?_eq_none_iff] at hhead
      rw [(parse_of_spells hletters h prog).2, hhead] at hrefused
      cases hrefused
  | some opt =>
      obtain ⟨hinvalid, before, after, hoptions, hbefore⟩ := List.find?_eq_some_iff_append.mp hfind
      have hopt : opt ∈ p.options := List.mem_of_find?_eq_some hfind
      have hmissing : ¬ (opt.need = true →
          opt.has = true ∨ opt.name ∈ settings.map Setting.name) := by
        rw [← valid_applyAll hopt h]
        simpa using hinvalid
      refine ⟨opt, ⟨?_, ?_, ?_, before, after, hoptions, ?_⟩, ?_⟩
      · exact (Classical.not_imp.mp hmissing).1
      · exact Bool.eq_false_iff.mpr fun hhas => hmissing fun _ => .inl hhas
      · exact fun hname => hmissing fun _ => .inr hname
      · intro other hother
        have hmem : other ∈ p.options := hoptions ▸ List.mem_append_left _ hother
        rw [← valid_applyAll hmem h]
        simpa using hbefore other hother
      · rw [error, hhead, hfind]
        rfl

/-- A refused line shows the first thing that is wrong with it. -/
theorem error_of_refused (p : CmdParser) (prog : String) (args : List String)
    (h : (p.parse (prog :: args)).1 = false) :
    (∃ c, List.Duplicate c (lettersOf p.options) ∧
        (p.parse (prog :: args)).2.error = "short option '" ++ c.toString ++ "' is ambiguous") ∨
      (∃ fault, p.grammar.FirstFault args fault ∧
        (p.parse (prog :: args)).2.error = faultText fault) ∨
      ∃ settings others opt, p.grammar.Spells args settings others ∧
        p.FirstMissing settings opt ∧
        (p.parse (prog :: args)).2.error = "need option: --" ++ opt.name := by
  by_cases hletters : (lettersOf p.options).Nodup
  · refine .inr ?_
    rcases Syntax.spells_or_firstFault (g := p.grammar) args with
      ⟨settings, others, hspells⟩ | ⟨fault, hfault⟩
    · obtain ⟨opt, hmissing, herror⟩ := exists_firstMissing hletters hspells h
      exact .inr ⟨settings, others, opt, hspells, hmissing, herror⟩
    · exact .inl ⟨fault, hfault, (parse_of_firstFault hletters hfault prog).2⟩
  · obtain ⟨c, hdup, -, herror⟩ := parse_of_duplicate hletters prog args
    exact .inl ⟨c, hdup, herror⟩

end

end CmdParser

end ColoManage
