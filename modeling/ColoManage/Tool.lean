import ColoManage.CmdlineGrammar
import ColoManage.EnableCommand

/-!
# The command line tool

`main` of `main.cpp`: it reads the command line, asks colod and prints the
answer.
-/

namespace ColoManage

open Forking CommandLine

def defaultConfigFilePath : String := "/usr/local/etc/colod/default_config.yaml"

inductive ColoCommandType
  | connectPeer
  | connectStatus
  | define
  | undefine
  | list
  | start
  | destroy
  | coloEnable
  | coloDisable
  | vmStatus
  | setParams
  | doFailover
  deriving DecidableEq, Repr

def commandTypeMap : List (String × ColoCommandType) :=
  [("connect-peer", .connectPeer), ("connect-status", .connectStatus), ("define", .define),
    ("undefine", .undefine), ("list", .list), ("start", .start), ("destroy", .destroy),
    ("colo-enable", .coloEnable), ("colo-disable", .coloDisable), ("vm-status", .vmStatus),
    ("set-params", .setParams), ("do-failover", .doFailover)]

/-- The options of `main` in the order in which it adds them. -/
def toolOptions : List CmdOption :=
  [.withValue .string "command-type" (some 't') "command type" true "",
    .withValue .string "vm-file" (some 'v') "vm definition file" false "",
    .withValue .string "config-file" (some 'c') "configuration file" false "",
    .withValue .string "domain" (some 'd') "domain name" false "",
    .withValue .string "qmp-command" (some 'q') "qmp-command" false "",
    .flag "all" none "show all the vms",
    .flag "colo" none "start vm in colo mode",
    .withValue .int "checkpoint-time" none "checkpoint time" false 1000,
    .withValue .int "compare-timeout" none "compare timeout" false 1000,
    .withValue .int "max-queue-size" none "max queue size" false 65535,
    .flag "restart-colod" (some 'r') "restart colod"]

def toolParser : Except String CmdParser := toolOptions.foldlM CmdParser.add .empty

/-- What `main` finds on its machine: the pid of colod, the files that `colo_enable`
reads and what becomes of its copies. -/
structure ToolEnv where
  pid : ℤ
  node : Node
  config : ScpRun
  disk : ScpRun

/-- Every command but `colo-enable` ends like this: the message is printed whatever the
code is. -/
def callLocal (request : Request) (out : List String) : Command :=
  .await request out fun ret out =>
    if ret.code ≠ .success then .done 0 (out ++ ["connect to colod timeout."])
    else .done 0 (out ++ [ret.val.msg])

namespace CmdParser

def withDomain (p : CmdParser) (out : List String) (k : String → Command) : Command :=
  if p.exist "domain" then k (p.getString "domain")
  else .done 0 (out ++ ["no domain name."])

/-- The parameters of `set-params` that are there, the last one first. -/
def params (p : CmdParser) : List (String × ℤ) :=
  ["max-queue-size", "compare-timeout", "checkpoint-time"].filterMap fun property =>
    if p.exist property then some (property, p.getInt property) else none

/-- The `switch` of `main`. -/
def runCommand (env : ToolEnv) (p : CmdParser) (out : List String) : ColoCommandType → Command
  | .connectPeer =>
      if p.exist "config-file" then
        let configFilePath := p.getString "config-file"
        callLocal (.connectPeer configFilePath)
          (out ++ ["read custom config file : " ++ configFilePath])
      else callLocal (.connectPeer defaultConfigFilePath) (out ++ ["read deafult config file"])
  | .connectStatus => callLocal .connectStatus out
  | .define =>
      if p.exist "vm-file" then
        let vmFilePath := p.getString "vm-file"
        callLocal (.define vmFilePath) (out ++ ["read vm definition file : " ++ vmFilePath])
      else .done 0 (out ++ ["no vm definition file"])
  | .undefine => p.withDomain out fun name => callLocal (.undefine name) out
  | .list => callLocal (.list (p.exist "all")) out
  | .start => p.withDomain out fun name => callLocal (.start name (p.exist "colo")) out
  | .destroy => p.withDomain out fun name => callLocal (.destroy name) out
  | .coloEnable =>
      commandColoEnable env.config env.disk
        (if p.exist "domain" then some (p.getString "domain") else none) env.node out
  | .coloDisable => p.withDomain out fun name => callLocal (.coloDisable name) out
  | .vmStatus => p.withDomain out fun name => callLocal (.vmStatus name) out
  | .setParams =>
      p.withDomain out fun name =>
        match p.params with
        | [] => .done 0 (out ++ ["no params to set."])
        | [(property, value)] => callLocal (.setParams name property value) out
        | _ => .done 0 (out ++ ["can only set one param."])
  | .doFailover => p.withDomain out fun name => callLocal (.doFailover name) out

/-- `main` once the command line is read. -/
def runTool (env : ToolEnv) (p : CmdParser) (out : List String) : Command :=
  if p.exist "restart-colod" then .done 0 (out ++ ["todo : restart colod."])
  else
    let commandType := p.getString "command-type"
    match commandTypeMap.lookup commandType with
    | none => .done 0 (out ++ ["command " ++ commandType ++ " is not defined!"])
    | some command => p.runCommand env out command

end CmdParser

/-- `main`; an exception of `add` would end the program. -/
def toolMain (env : ToolEnv) (argv : List String) : Command :=
  if env.pid = 0 then .done 0 ["please start colod."]
  else
    let out := ["colod is running with pid : " ++ toString env.pid]
    match toolParser with
    | .error _ => .crash out
    | .ok p =>
        match p.parseCheck argv with
        | .error exit => .done exit.status (out ++ [exit.text])
        | .ok p => p.runTool env out

end ColoManage
