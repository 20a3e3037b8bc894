import ColoManage.Tool

/-!
# What the tool asks colod

`Typed` is what a command line says in the words of the options, and
`Typed.request` the request that it stands for.  The tool asks colod this
request and no other, except that `colo-enable` asks first whether the domain is
shut off; a line that the parser refuses asks nothing.
-/

namespace ColoManage

open Forking CommandLine CmdParser

/-! ## The parser of the tool -/

/-- The parser of `main` with the option that `parse_check` adds. -/
def tool : CmdParser :=
  match toolParser with
  | .ok p => p.addHelp
  | .error _ => .empty

theorem exists_toolParser : ∃ p, toolParser = .ok p ∧ p.addHelp = tool := by
  have hok : toolParser.isOk = true := by decide +kernel
  unfold tool
  cases h : toolParser with
  | ok p => exact ⟨p, rfl, rfl⟩
  | error message =>
      rw [h] at hok
      cases hok

theorem nodup_lettersOf_tool : (lettersOf tool.options).Nodup := by decide +kernel

/-- Three words of the line are well formed before the one that is not. -/
theorem refused_undefined :
    ∃ fault, tool.grammar.FirstFault ["-t", "list", "--all", "--force"] fault ∧
      (tool.parse ["tool", "-t", "list", "--all", "--force"]).2.error = faultText fault ∧
        faultText fault = "undefined option: --force" := by
  have hrefused : (tool.parse ["tool", "-t", "list", "--all", "--force"]).1 = false := by
    decide +kernel
  have htext : (tool.parse ["tool", "-t", "list", "--all", "--force"]).2.error =
      "undefined option: --force" := by
    decide +kernel
  rcases error_of_refused tool "tool" ["-t", "list", "--all", "--force"] hrefused with
    ⟨c, hdup, -⟩ | ⟨fault, hfault, herror⟩ | ⟨settings, others, opt, -, -, herror⟩
  · exact absurd nodup_lettersOf_tool (List.exists_duplicate_iff_not_nodup.mp ⟨c, hdup⟩)
  · exact ⟨fault, hfault, herror, herror.symm.trans htext⟩
  · have hneed := congrArg (fun text => text.toList.head?) (herror.symm.trans htext)
    simp at hneed

theorem need_tool : ∀ opt ∈ tool.options,
    (opt.need = true ↔ opt.name = "command-type") ∧ opt.has = false := by
  decide +kernel

def textOptions : List String := ["command-type", "vm-file", "config-file", "domain"]

def flagOptions : List String := ["all", "colo", "restart-colod", "help"]

def intOptions : List String := ["checkpoint-time", "compare-timeout", "max-queue-size"]

theorem find_text_tool : ∀ name ∈ textOptions,
    (tool.find name).map (fun opt => (opt.type, opt.value)) =
      some (OptionType.string, CmdValue.string "") := by
  decide +kernel

theorem find_flag_tool : ∀ name ∈ flagOptions,
    (tool.find name).map CmdOption.type = some OptionType.flag := by
  decide +kernel

theorem find_int_tool : ∀ name ∈ intOptions,
    (tool.find name).map CmdOption.type = some OptionType.int := by
  decide +kernel

theorem takesText_tool {name : String} {type : OptionType}
    (h : (tool.find name).map CmdOption.type = some type) :
    tool.grammar.takesText name = some type.hasValue := by
  obtain ⟨opt, hfind, rfl⟩ := Option.map_eq_some_iff.mp h
  rw [takesText_grammar, hfind, Option.map_some]

theorem type_text_tool {name : String} (h : name ∈ textOptions) :
    (tool.find name).map CmdOption.type = some OptionType.string := by
  have hfind := congrArg (Option.map Prod.fst) (find_text_tool name h)
  rwa [Option.map_map] at hfind

/-! ## What a line says -/

structure Typed where
  commandType : Option String
  vmFile : Option String
  configFile : Option String
  domain : Option String
  all : Bool
  colo : Bool
  params : List (String × ℤ)
  restart : Bool
  help : Bool

def typed (settings : List Setting) : Typed where
  commandType := lastText "command-type" settings
  vmFile := lastText "vm-file" settings
  configFile := lastText "config-file" settings
  domain := lastText "domain" settings
  all := decide (.flag "all" ∈ settings)
  colo := decide (.flag "colo" ∈ settings)
  params := ["max-queue-size", "compare-timeout", "checkpoint-time"].filterMap fun property =>
    ((lastText property settings).bind lexicalCastInt).map fun value => (property, value)
  restart := decide (.flag "restart-colod" ∈ settings)
  help := decide (.flag "help" ∈ settings)

/-- The line names a command and asks neither for help nor for a restart. -/
structure Typed.Runs (t : Typed) : Prop where
  command : t.commandType.isSome
  help : t.help = false
  restart : t.restart = false

def Typed.requestOf (t : Typed) : ColoCommandType → Option Request
  | .connectPeer => some (.connectPeer (t.configFile.getD defaultConfigFilePath))
  | .connectStatus => some .connectStatus
  | .define => t.vmFile.map .define
  | .undefine => t.domain.map .undefine
  | .list => some (.list t.all)
  | .start => t.domain.map fun name => .start name t.colo
  | .destroy => t.domain.map .destroy
  | .coloEnable => t.domain.map .coloEnable
  | .coloDisable => t.domain.map .coloDisable
  | .vmStatus => t.domain.map .vmStatus
  | .setParams =>
      t.domain.bind fun name =>
        match t.params with
        | [(property, value)] => some (.setParams name property value)
        | _ => none
  | .doFailover => t.domain.map .doFailover

/-- The request that the line stands for. -/
def Typed.request (t : Typed) : Option Request :=
  (t.commandType.bind fun text => commandTypeMap.lookup text).bind t.requestOf

section

variable {settings : List Setting} {others : List String} {q : CmdParser}

/-- What the parser answers to `main` is what the line says. -/
structure Answers (t : Typed) (q : CmdParser) : Prop where
  command : q.exist "command-type" = t.commandType.isSome ∧
    q.getString "command-type" = t.commandType.getD ""
  vmFile : q.exist "vm-file" = t.vmFile.isSome ∧ q.getString "vm-file" = t.vmFile.getD ""
  configFile : q.exist "config-file" = t.configFile.isSome ∧
    q.getString "config-file" = t.configFile.getD ""
  domain : q.exist "domain" = t.domain.isSome ∧ q.getString "domain" = t.domain.getD ""
  all : q.exist "all" = t.all
  colo : q.exist "colo" = t.colo
  restart : q.exist "restart-colod" = t.restart
  help : q.exist "help" = t.help
  params : q.params = t.params

theorem exist_of_holds (h : tool.Holds settings others q) {name : String}
    (hname : (tool.find name).isSome) :
    q.exist name = decide (name ∈ settings.map Setting.name) := by
  obtain ⟨opt, hfind⟩ := Option.isSome_iff_exists.mp hname
  rw [h.exist_eq, hfind, Option.any_some, (need_tool opt (mem_of_find hfind)).2, Bool.false_or]

theorem isSome_find_of_type {name : String} {type : OptionType}
    (h : (tool.find name).map CmdOption.type = some type) : (tool.find name).isSome := by
  rw [← Option.isSome_map (f := CmdOption.type), h]
  rfl

variable (haccepts : ∀ setting ∈ settings, tool.grammar.Accepts setting)

include haccepts

theorem exist_text (h : tool.Holds settings others q) {name : String} {type : OptionType}
    (hfind : (tool.find name).map CmdOption.type = some type) (htype : type.hasValue = true) :
    q.exist name = (lastText name settings).isSome := by
  have htakes := takesText_tool hfind
  rw [htype] at htakes
  rw [exist_of_holds h (isSome_find_of_type hfind), Bool.eq_iff_iff, decide_eq_true_iff]
  exact Syntax.mem_names_iff_lastText haccepts htakes

theorem exist_flag (h : tool.Holds settings others q) {name : String} (hname : name ∈ flagOptions) :
    q.exist name = decide (.flag name ∈ settings) := by
  have hfind := find_flag_tool name hname
  rw [exist_of_holds h (isSome_find_of_type hfind), decide_eq_decide]
  exact Syntax.mem_names_iff_flag haccepts (takesText_tool hfind)

theorem textOption_of_holds (h : tool.Holds settings others q) {name : String}
    (hname : name ∈ textOptions) :
    q.exist name = (lastText name settings).isSome ∧
      q.getString name = (lastText name settings).getD "" := by
  refine ⟨exist_text haccepts h (type_text_tool hname) rfl, ?_⟩
  obtain ⟨opt, hfind, hopt⟩ := Option.map_eq_some_iff.mp (find_text_tool name hname)
  obtain ⟨htype, hvalue⟩ := Prod.mk.inj hopt
  have hread : ∀ text, opt.readValue text = some (.string text) := by
    intro text
    rw [CmdOption.readValue, htype]
    rfl
  rw [CmdParser.getString, h.value_eq, hfind, Option.map_some, hvalue]
  cases lastText name settings with
  | none => rfl
  | some text => simp [hread]

theorem intOption_of_holds (h : tool.Holds settings others q) {name : String}
    (hname : name ∈ intOptions) :
    (if q.exist name then some (name, q.getInt name) else none) =
      ((lastText name settings).bind lexicalCastInt).map fun value => (name, value) := by
  have htype := find_int_tool name hname
  obtain ⟨opt, hfind, hopt⟩ := Option.map_eq_some_iff.mp htype
  have hread : ∀ text, opt.readValue text = (lexicalCastInt text).map .int := by
    intro text
    rw [CmdOption.readValue, hopt]
    rfl
  rw [exist_text haccepts h htype rfl, CmdParser.getInt, h.value_eq, hfind, Option.map_some]
  cases hlast : lastText name settings with
  | none => rfl
  | some text =>
      obtain ⟨setting, hsetting, htext⟩ := exists_of_lastText hlast
      have hfits := fits_of_accepts (mem_of_find hfind) (haccepts setting hsetting) text
      rw [name_of_find hfind, hread, Option.isSome_map] at hfits
      obtain ⟨value, hvalue⟩ := Option.isSome_iff_exists.mp (hfits htext)
      simp [hread, hvalue]

theorem answers_of_holds (h : tool.Holds settings others q) : Answers (typed settings) q where
  command := textOption_of_holds haccepts h (by decide)
  vmFile := textOption_of_holds haccepts h (by decide)
  configFile := textOption_of_holds haccepts h (by decide)
  domain := textOption_of_holds haccepts h (by decide)
  all := exist_flag haccepts h (by decide)
  colo := exist_flag haccepts h (by decide)
  restart := exist_flag haccepts h (by decide)
  help := exist_flag haccepts h (by decide)
  params := by
    have hproperty : ∀ name ∈ ["max-queue-size", "compare-timeout", "checkpoint-time"],
        name ∈ intOptions := by decide
    exact List.filterMap_congr fun name hname =>
      intOption_of_holds haccepts h (hproperty name hname)

end

/-! ## What the tool does -/

/-- The tool with a request: it makes the call, or enables a domain, or ends without. -/
inductive Plays (env : ToolEnv) (out : List String) : Option Request → Command → Prop
  | ends (status : ℤ) (out' : List String) : Plays env out none (.done status out')
  | enables (name : String) :
      Plays env out (some (.coloEnable name))
        (commandColoEnable env.config env.disk (some name) env.node out)
  | calls {request : Request} (h : ∀ name, request ≠ .coloEnable name) (notes : List String) :
      Plays env out (some request) (callLocal request (out ++ notes))

section

variable {env : ToolEnv} {t : Typed} {q : CmdParser} {out : List String}

theorem plays_call {request : Request} (h : ∀ name, request ≠ .coloEnable name) :
    Plays env out (some request) (callLocal request out) := by
  have hcall : Plays env out (some request) (callLocal request (out ++ [])) := .calls h []
  rwa [List.append_nil] at hcall

theorem plays_withDomain (h : Answers t q) {f : String → Option Request} {k : String → Command}
    (hk : ∀ name, Plays env out (f name) (k name)) :
    Plays env out (t.domain.bind f) (q.withDomain out k) := by
  unfold withDomain
  rw [h.domain.1, h.domain.2]
  cases t.domain with
  | none => exact .ends 0 _
  | some name => exact hk name

theorem plays_domainCall (h : Answers t q) {f : String → Request}
    (hf : ∀ name other, f name ≠ .coloEnable other) :
    Plays env out (t.domain.map f) (q.withDomain out fun name => callLocal (f name) out) := by
  rw [Option.map_eq_bind]
  exact plays_withDomain h fun name => plays_call (hf name)

theorem plays_runCommand (h : Answers t q) (command : ColoCommandType) :
    Plays env out (t.requestOf command) (q.runCommand env out command) := by
  cases command with
  | connectPeer =>
      unfold runCommand Typed.requestOf
      rw [h.configFile.1, h.configFile.2]
      cases t.configFile with
      | none => exact .calls (by simp) _
      | some path => exact .calls (by simp) _
  | connectStatus => exact plays_call (by simp)
  | define =>
      unfold runCommand Typed.requestOf
      rw [h.vmFile.1, h.vmFile.2]
      cases t.vmFile with
      | none => exact .ends 0 _
      | some path => exact .calls (by simp) _
  | undefine => exact plays_domainCall h (by simp)
  | list =>
      unfold runCommand Typed.requestOf
      rw [h.all]
      exact plays_call (by simp)
  | start =>
      unfold runCommand Typed.requestOf
      rw [h.colo]
      exact plays_domainCall h (by simp)
  | destroy => exact plays_domainCall h (by simp)
  | coloEnable =>
      unfold runCommand Typed.requestOf
      rw [h.domain.1, h.domain.2]
      cases t.domain with
      | none => exact .ends 0 _
      | some name => exact .enables name
  | coloDisable => exact plays_domainCall h (by simp)
  | vmStatus => exact plays_domainCall h (by simp)
  | setParams =>
      unfold runCommand Typed.requestOf
      rw [h.params]
      refine plays_withDomain h fun name => ?_
      match t.params with
      | [] => exact .ends 0 _
      | [(property, value)] => exact plays_call (by simp)
      | _ :: _ :: _ => exact .ends 0 _
  | doFailover => exact plays_domainCall h (by simp)

theorem plays_runTool (h : Answers t q) (hrestart : t.restart = false)
    (hcommand : t.commandType.isSome) : Plays env out t.request (q.runTool env out) := by
  obtain ⟨text, htext⟩ := Option.isSome_iff_exists.mp hcommand
  unfold runTool Typed.request
  rw [h.restart, hrestart, h.command.2, htext]
  simp only [Bool.false_eq_true, if_false, Option.getD_some, Option.bind_some]
  cases hlookup : commandTypeMap.lookup text with
  | none => exact .ends 0 _
  | some command => exact plays_runCommand h command

/-! ## The whole program -/

theorem supplied_tool_iff {settings : List Setting}
    (haccepts : ∀ setting ∈ settings, tool.grammar.Accepts setting) :
    tool.Supplied settings ↔ (typed settings).commandType.isSome := by
  have htype : (tool.find "command-type").map CmdOption.type = some OptionType.string :=
    type_text_tool (by decide)
  rw [show (typed settings).commandType = lastText "command-type" settings from rfl,
    ← Syntax.mem_names_iff_lastText haccepts (takesText_tool htype)]
  obtain ⟨command, hfind, -⟩ := Option.map_eq_some_iff.mp htype
  constructor
  · intro h
    have hmem := mem_of_find hfind
    have hname := name_of_find hfind
    have hset := h command hmem ((need_tool command hmem).1.mpr hname)
    rw [(need_tool command hmem).2, hname] at hset
    exact hset.resolve_left Bool.false_ne_true
  · intro h opt hopt hneed
    rw [(need_tool opt hopt).1.mp hneed]
    exact .inr h

section

variable {prog : String} {args others : List String} {settings : List Setting}

/-- What the tool prints before it reads its command line. -/
def greeting (env : ToolEnv) : List String :=
  ["colod is running with pid : " ++ toString env.pid]

theorem toolMain_eq (hpid : env.pid ≠ 0) (argv : List String) :
    toolMain env argv =
      match (tool.parse argv).2.check argv.length (tool.parse argv).1 with
      | .error exit => .done exit.status (greeting env ++ [exit.text])
      | .ok p => p.runTool env (greeting env) := by
  obtain ⟨p, hparser, htool⟩ := exists_toolParser
  simp only [toolMain, hpid, if_false, hparser, parseCheck, htool]
  rfl

/-- A line that is spelled and runs plays its request. -/
theorem plays_toolMain (hpid : env.pid ≠ 0) (hspells : tool.grammar.Spells args settings others)
    (hruns : (typed settings).Runs) (prog : String) :
    Plays env (greeting env) (typed settings).request (toolMain env (prog :: args)) := by
  have hanswers : Answers (typed settings) (tool.parse (prog :: args)).2 :=
    answers_of_holds hspells.accepts (holds_of_spells nodup_lettersOf_tool hspells prog)
  have hok : (tool.parse (prog :: args)).1 = true :=
    (isEmpty_errors_of_spells nodup_lettersOf_tool hspells prog).mpr
      ((supplied_tool_iff hspells.accepts).mpr hruns.command)
  have hcheck : (tool.parse (prog :: args)).2.check (prog :: args).length
      (tool.parse (prog :: args)).1 = .ok (tool.parse (prog :: args)).2 := by
    simp [check, hok, hanswers.help, hruns.help]
  rw [toolMain_eq hpid, hcheck]
  exact plays_runTool hanswers hruns.restart hruns.command

/-- Any other line ends the tool before it makes a call. -/
theorem toolMain_of_not_runs
    (h : ∀ settings others, tool.grammar.Spells args settings others → ¬ (typed settings).Runs)
    (prog : String) : Plays env (greeting env) none (toolMain env (prog :: args)) := by
  by_cases hpid : env.pid = 0
  · rw [toolMain, if_pos hpid]
    exact .ends 0 _
  rw [toolMain_eq hpid]
  cases hcheck : (tool.parse (prog :: args)).2.check (prog :: args).length
      (tool.parse (prog :: args)).1 with
  | error exit => exact .ends exit.status _
  | ok p =>
      unfold check at hcheck
      split at hcheck
      · cases hcheck
      · rename_i hhelp
        split at hcheck
        · cases hcheck
        · rename_i hok
          cases hcheck
          rw [Bool.not_eq_true, Bool.not_eq_false'] at hok
          obtain ⟨-, settings, others, hspells, hsupplied⟩ :=
            (parse_eq_true_iff tool prog args).mp hok
          have hanswers : Answers (typed settings) (tool.parse (prog :: args)).2 :=
            answers_of_holds hspells.accepts (holds_of_spells nodup_lettersOf_tool hspells prog)
          have hcommand := (supplied_tool_iff hspells.accepts).mp hsupplied
          have hrestart : (typed settings).restart = true := by
            by_contra hrestart
            refine h settings others hspells ⟨hcommand, ?_, by simpa using hrestart⟩
            rw [← hanswers.help]
            simpa [hok] using hhelp
          dsimp only
          rw [runTool, hanswers.restart, hrestart, if_pos rfl]
          exact .ends 0 _

/-- Whether the request is sent: a domain is enabled once colod has said that it is shut
off, by the processes that `colo_enable` leaves. -/
def SentWhen (starts : ShellCommand → Bool) (answer : Request → ValueT) (env : ToolEnv) :
    Request → Prop
  | .coloEnable name =>
      (answer (.domainTest name)).saysShutoff ∧
        (coloEnable env.config.toScpEnv env.disk.toScpEnv name env.node
          (greeting env)).returns starts ≠ []
  | _ => True

theorem mem_asked_of_plays {starts : ShellCommand → Bool} {answer : Request → ValueT}
    {request : Option Request} {task : Command} (h : Plays env (greeting env) request task)
    (asked : Request) :
    asked ∈ task.asked starts answer ↔
      (request = some asked ∧ SentWhen starts answer env asked) ∨
        ∃ name, asked = .domainTest name ∧ request = some (.coloEnable name) := by
  cases h with
  | ends status out => simp [Task.asked]
  | enables name =>
      by_cases hshutoff : (answer (.domainTest name)).saysShutoff
      · rw [asked_commandColoEnable hshutoff, List.mem_cons]
        cases asked with
        | coloEnable other =>
            rw [SentWhen, Task.returns_eq_map_ends]
            simp only [reduceCtorEq, false_or, List.mem_map, Request.coloEnable.injEq,
              Option.some.injEq, ne_eq, List.map_eq_nil_iff, false_and, exists_false, or_false]
            constructor
            · rintro ⟨final, hfinal, rfl⟩
              exact ⟨rfl, hshutoff, List.ne_nil_of_mem hfinal⟩
            · rintro ⟨rfl, -, hends⟩
              obtain ⟨final, hfinal⟩ := List.exists_mem_of_ne_nil _ hends
              exact ⟨final, hfinal, rfl⟩
        | _ => simp [eq_comm]
      · rw [asked_commandColoEnable_of_not hshutoff, List.mem_singleton]
        cases asked with
        | coloEnable other =>
            simp only [reduceCtorEq, false_iff, SentWhen, Option.some.injEq,
              Request.coloEnable.injEq, false_and, exists_false, or_false]
            rintro ⟨rfl, h, -⟩
            exact hshutoff h
        | _ => simp [eq_comm]
  | @calls request hne notes =>
      have hasked : (callLocal request (greeting env ++ notes)).asked starts answer = [request] := by
        refine congrArg (request :: ·) ?_
        dsimp only
        split <;> rfl
      rw [hasked, List.mem_singleton]
      have hsent : SentWhen starts answer env request := by
        cases request with
        | coloEnable name => exact absurd rfl (hne name)
        | _ => trivial
      constructor
      · rintro rfl
        exact .inl ⟨rfl, hsent⟩
      · rintro (⟨hrequest, -⟩ | ⟨name, -, hrequest⟩)
        · exact (Option.some.inj hrequest).symm
        · exact absurd (Option.some.inj hrequest) (hne name)

/-- A run of the tool asks colod what its command line spells, and nothing else. -/
theorem mem_asked_toolMain_iff (starts : ShellCommand → Bool) (answer : Request → ValueT)
    (env : ToolEnv) (prog : String) (args : List String) (request : Request) :
    request ∈ (toolMain env (prog :: args)).asked starts answer ↔
      env.pid ≠ 0 ∧ ∃ settings others, tool.grammar.Spells args settings others ∧
        (typed settings).Runs ∧
        (((typed settings).request = some request ∧ SentWhen starts answer env request) ∨
          ∃ name, request = .domainTest name ∧
            (typed settings).request = some (.coloEnable name)) := by
  by_cases hpid : env.pid = 0
  · simp [toolMain, hpid, Task.asked]
  by_cases hruns : ∃ settings others, tool.grammar.Spells args settings others ∧
      (typed settings).Runs
  · obtain ⟨settings, others, hspells, hruns⟩ := hruns
    rw [mem_asked_of_plays (plays_toolMain hpid hspells hruns prog)]
    constructor
    · exact fun h => ⟨hpid, settings, others, hspells, hruns, h⟩
    · rintro ⟨-, settings', others', hspells', hruns', h⟩
      have hplays := plays_toolMain hpid hspells' hruns' prog
      rw [← mem_asked_of_plays (plays_toolMain hpid hspells hruns prog),
        mem_asked_of_plays hplays]
      exact h
  · push Not at hruns
    rw [mem_asked_of_plays (toolMain_of_not_runs hruns prog)]
    simp only [reduceCtorEq, false_and, and_false, exists_false, or_false, false_iff]
    rintro ⟨-, settings, others, hspells, h, -⟩
    exact hruns settings others hspells h

end

end

end ColoManage
