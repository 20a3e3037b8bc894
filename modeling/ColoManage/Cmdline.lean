import ColoManage.Library.KeyedList
import ColoManage.Library.Yaml
import Mathlib.Data.List.Sort

/-!
# The command-line parser

`cmdline::parser` of `commandline.h`: the table of options, the loop over the
arguments and the messages it leaves.  An error does not end the loop, and the
first one is shown.
-/

namespace ColoManage

/-! ## Options -/

/-- The parameter of `option_with_value`; `flag` is `option_without_value`. -/
inductive OptionType
  | flag
  | string
  | int
  deriving DecidableEq, Repr

abbrev OptionType.Val : OptionType → Type
  | .flag => Unit
  | .string => String
  | .int => ℤ

def OptionType.hasValue : OptionType → Bool
  | .flag => false
  | .string => true
  | .int => true

def isSpace (c : Char) : Bool := c == ' ' || (9 ≤ c.toNat && c.toNat ≤ 13)

/-- `ss >> ret && ss.eof()` for an `int`: a number out of range sets `failbit`. -/
def lexicalCastInt (text : String) : Option ℤ :=
  let value : Option ℤ :=
    match text.toList.dropWhile isSpace with
    | '-' :: cs => (Yaml.readDigits 10 cs).map fun value => -(value : ℤ)
    | '+' :: cs => (Yaml.readDigits 10 cs).map fun value => (value : ℤ)
    | cs => (Yaml.readDigits 10 cs).map fun value => (value : ℤ)
  value.filter fun value => -2147483648 ≤ value ∧ value ≤ 2147483647

/-- `default_reader<T>`; a flag takes no value. -/
def OptionType.read : (t : OptionType) → String → Option t.Val
  | .flag, _ => none
  | .string, text => some text
  | .int, text => lexicalCastInt text

/-- A value with its type, as `get<T>` finds it. -/
inductive CmdValue
  | unit
  | string (text : String)
  | int (n : ℤ)
  deriving DecidableEq, Repr

def OptionType.wrap : (t : OptionType) → t.Val → CmdValue
  | .flag, _ => .unit
  | .string, text => .string text
  | .int, n => .int n

def OptionType.readableTypename : OptionType → String
  | .flag => ""
  | .string => "string"
  | .int => "int"

def OptionType.defaultValue : (t : OptionType) → t.Val → String
  | .flag, _ => ""
  | .string, text => text
  | .int, n => toString n

structure CmdOption where
  name : String
  shortName : Option Char
  desc : String
  type : OptionType
  need : Bool
  has : Bool
  actual : type.Val

namespace CmdOption

def flag (name : String) (shortName : Option Char) (desc : String) : CmdOption :=
  ⟨name, shortName, desc, .flag, false, false, ()⟩

def withValue (type : OptionType) (name : String) (shortName : Option Char) (desc : String)
    (need : Bool) (default : type.Val) : CmdOption where
  name
  shortName
  desc := desc ++ " (" ++ type.readableTypename ++
    (if need then "" else " [=" ++ type.defaultValue default ++ "]") ++ ")"
  type
  need
  has := false
  actual := default

/-- `set()` of a flag. -/
def set (opt : CmdOption) : CmdOption := { opt with has := true }

/-- `set(value)`: `has` is set once the value has been read. -/
def setValue (value : String) (opt : CmdOption) : CmdOption :=
  match opt.type.read value with
  | some actual => { opt with actual, has := true }
  | none => opt

def value (opt : CmdOption) : CmdValue := opt.type.wrap opt.actual

def valid (opt : CmdOption) : Bool := !(opt.need && !opt.has)

@[simp] theorem name_set (opt : CmdOption) : opt.set.name = opt.name := rfl

@[simp] theorem name_setValue (value : String) (opt : CmdOption) :
    (opt.setValue value).name = opt.name := by
  unfold setValue
  split <;> rfl

end CmdOption

/-! ## The parser -/

/-- `options` is a map by name, and `ordered` has its keys as they were added. -/
structure CmdParser where
  options : List CmdOption
  ordered : List String
  progName : String
  others : List String
  errors : List String
  nodup : (options.map CmdOption.name).Nodup

namespace CmdParser

def empty : CmdParser := ⟨[], [], "", [], [], List.nodup_nil⟩

def find (name : String) (p : CmdParser) : Option CmdOption :=
  KeyedList.find CmdOption.name name p.options

def add (p : CmdParser) (opt : CmdOption) : Except String CmdParser :=
  if h : opt.name ∈ p.options.map CmdOption.name then
    .error ("multiple definition: " ++ opt.name)
  else
    .ok { p with
      options := p.options.orderedInsert (fun a b => a.name ≤ b.name) opt
      ordered := p.ordered ++ [opt.name]
      nodup := by
        have hperm := (List.perm_orderedInsert (fun a b : CmdOption => a.name ≤ b.name) opt
          p.options).map CmdOption.name
        rw [hperm.nodup_iff, List.map_cons, List.nodup_cons]
        exact ⟨h, p.nodup⟩ }

def fail (message : String) (p : CmdParser) : CmdParser :=
  { p with errors := p.errors ++ [message] }

def update (name : String) (f : CmdOption → CmdOption) (hf : ∀ opt, (f opt).name = opt.name)
    (p : CmdParser) : CmdParser :=
  { p with
    options := KeyedList.updateFirst CmdOption.name name f p.options
    nodup := by
      rw [KeyedList.map_key_updateFirst hf]
      exact p.nodup }

/-- `set_option(name)`. -/
def setOption (name : String) (p : CmdParser) : CmdParser :=
  match p.find name with
  | none => p.fail ("undefined option: --" ++ name)
  | some opt =>
      if opt.type.hasValue then p.fail ("option needs value: --" ++ name)
      else p.update name CmdOption.set CmdOption.name_set

/-- `set_option(name, value)`. -/
def setOptionValue (name value : String) (p : CmdParser) : CmdParser :=
  match p.find name with
  | none => p.fail ("undefined option: --" ++ name)
  | some opt =>
      match opt.type.read value with
      | none => p.fail ("option value is invalid: --" ++ name ++ "=" ++ value)
      | some _ => p.update name (CmdOption.setValue value) (CmdOption.name_setValue value)

/-- The map `lookup` of the letters; a letter that two options have is an error. -/
def lookupTable : List CmdOption → List (Char × String) → Except Char (List (Char × String))
  | [], table => .ok table
  | opt :: opts, table =>
      if opt.name = "" then lookupTable opts table
      else
        match opt.shortName with
        | none => lookupTable opts table
        | some initial =>
            if (table.lookup initial).isSome then .error initial
            else lookupTable opts ((initial, opt.name) :: table)

/-- The letters of a bundle but the last. -/
def parseBundle (table : List (Char × String)) : List Char → CmdParser → CmdParser
  | [], p => p
  | c :: cs, p =>
      match table.lookup c with
      | none => parseBundle table cs (p.fail ("undefined short option: -" ++ c.toString))
      | some name =>
          if name = "" then
            parseBundle table cs (p.fail ("ambiguous short option: -" ++ c.toString))
          else parseBundle table cs (p.setOption name)

/-- The loop over the arguments. -/
def parseArgs (table : List (Char × String)) : List String → CmdParser → CmdParser
  | [], p => p
  | arg :: rest, p =>
      match arg.toList with
      | '-' :: '-' :: cs =>
          if '=' ∈ cs then
            parseArgs table rest (p.setOptionValue (String.ofList (cs.takeWhile (· != '=')))
              (String.ofList (cs.dropWhile (· != '=')).tail))
          else
            let name := String.ofList cs
            match p.find name with
            | none => parseArgs table rest (p.fail ("undefined option: --" ++ name))
            | some opt =>
                if opt.type.hasValue then
                  match rest with
                  | [] => p.fail ("option needs value: --" ++ name)
                  | value :: rest => parseArgs table rest (p.setOptionValue name value)
                else parseArgs table rest (p.setOption name)
      | ['-'] => parseArgs table rest p
      | '-' :: c :: cs =>
          let last := (c :: cs).getLast (List.cons_ne_nil c cs)
          let p := parseBundle table (c :: cs).dropLast p
          match table.lookup last with
          | none =>
              parseArgs table rest (p.fail ("undefined short option: -" ++ last.toString))
          | some name =>
              if name = "" then
                parseArgs table rest (p.fail ("ambiguous short option: -" ++ last.toString))
              else if (p.find name).any fun opt => opt.type.hasValue then
                match rest with
                | [] => p.setOption name
                | value :: rest => parseArgs table rest (p.setOptionValue name value)
              else parseArgs table rest (p.setOption name)
      | _ => parseArgs table rest { p with others := p.others ++ [arg] }

def checkNeeds (p : CmdParser) : CmdParser :=
  p.options.foldl
    (fun p opt => if opt.valid then p else p.fail ("need option: --" ++ opt.name)) p

/-- What `parse` starts from. -/
def cleared (prog : String) (p : CmdParser) : CmdParser :=
  { p with
    progName := if p.progName = "" then prog else p.progName
    others := []
    errors := [] }

def parse (argv : List String) (p : CmdParser) : Bool × CmdParser :=
  match argv with
  | [] => (false, (p.cleared "").fail "argument number must be longer than 0")
  | prog :: args =>
      let p := p.cleared prog
      match lookupTable p.options [] with
      | .error initial =>
          (false, p.fail ("short option '" ++ initial.toString ++ "' is ambiguous"))
      | .ok table =>
          let p := (parseArgs table args p).checkNeeds
          (p.errors.isEmpty, p)

def error (p : CmdParser) : String := p.errors.head?.getD ""

/-! ## `parse_check` -/

def usage (p : CmdParser) : String :=
  let ordered := p.ordered.filterMap p.find
  let maxWidth := (ordered.map fun opt => opt.name.length).foldl max 0
  let short (opt : CmdOption) : String :=
    "--" ++ opt.name ++ "=" ++ opt.type.readableTypename ++ " "
  let line (opt : CmdOption) : String :=
    (match opt.shortName with
      | some c => "  -" ++ c.toString ++ ", "
      | none => "      ") ++
    "--" ++ opt.name ++ String.ofList (List.replicate (maxWidth + 4 - opt.name.length) ' ') ++
    opt.desc ++ "\n"
  "usage: " ++ p.progName ++ " " ++ String.join ((ordered.filter CmdOption.need).map short) ++
    "[options] ... \n" ++ "options:\n" ++ String.join (ordered.map line)

/-- `add` refuses a second `help`, for which `parse_check` does not ask. -/
def addHelp (p : CmdParser) : CmdParser :=
  match p.add (.flag "help" (some '?') "print this message") with
  | .ok p => p
  | .error _ => p

/-! ## What a program asks its parser

A name that is not there, and a type that is not the one of the option, throw;
`main` asks for the options it has added. -/

def exist (name : String) (p : CmdParser) : Bool := (p.find name).any CmdOption.has

def getString (name : String) (p : CmdParser) : String :=
  match (p.find name).map CmdOption.value with
  | some (.string text) => text
  | _ => ""

def getInt (name : String) (p : CmdParser) : ℤ :=
  match (p.find name).map CmdOption.value with
  | some (.int n) => n
  | _ => 0

/-- The end of a program: its exit status and what it has written to `cerr`. -/
structure Exit where
  status : ℤ
  text : String

def check (argc : ℕ) (ok : Bool) (p : CmdParser) : Except Exit CmdParser :=
  if (argc == 1 && !ok) || p.exist "help" then .error ⟨0, p.usage⟩
  else if !ok then .error ⟨1, p.error ++ "\n" ++ p.usage⟩
  else .ok p

def parseCheck (argv : List String) (p : CmdParser) : Except Exit CmdParser :=
  let (ok, p) := p.addHelp.parse argv
  p.check argv.length ok

end CmdParser

end ColoManage
