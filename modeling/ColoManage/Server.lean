import ColoManage.Service
import ColoManage.Library.EventSystem

/-!
# Runs of one colod

One node under any sequence of requests, restarts and moves of the machine.
What the peer answers is open: a request comes with a script that says, for
each of its waits, what the machine does meanwhile and which reply arrives.  A
script that ends before the handler does kills colod in its wait.
-/

namespace ColoManage

open Resumption EventSystem

/-- For each wait of a handler, what the machine does and which reply comes. -/
abbrev Script : Type := List (List OsEvent × Option ValueT)

structure Server where
  node : Node
  up : Bool

inductive ServerEvent
  | request (req : Request) (env : Env) (script : Script)
  | restart
  | os (event : OsEvent)
  | writeFile (path : String) (doc : Yaml.Node)

/-- A peer that answers from a script.  Past its end every wait times out. -/
def answering : Query → Node → Script → Option ValueT × Node × Script
  | _, nd, [] => (none, nd, [])
  | _, nd, (events, reply) :: script => (reply, nd.osAfter events, script)

def Script.reply (script : Script) (i : ℕ) : Option ValueT := script[i]?.bind Prod.snd

def Script.meanwhile (script : Script) : List OsEvent := (script.head?.map Prod.fst).getD []

theorem Script.reply_tail (script : Script) (i : ℕ) :
    Script.reply script.tail i = script.reply (i + 1) := by
  cases script <;> simp [Script.reply]

theorem answering_eq (query : Query) (nd : Node) (script : Script) :
    answering query nd script = (script.reply 0, nd.osAfter script.meanwhile, script.tail) := by
  cases script with
  | nil => rfl
  | cons entry script => rfl

namespace Server

def afterHandler : Outcome Node ColodRetVal → Server
  | .returned _ nd => ⟨nd, true⟩
  | .crashed nd => ⟨nd, false⟩

/-- Others write any file but the save file, which is colod's own. -/
def step (server : Server) : ServerEvent → Server
  | .request req env script =>
      if server.up then
        afterHandler ((handle env req server.node).follow Node.osAfter script)
      else server
  | .restart => ⟨server.node.rsInit, true⟩
  | .os event => { server with node := server.node.osAfter [event] }
  | .writeFile path doc =>
      if path = defaultSaveFile then server
      else { server with node := server.node.writeFile path doc }

def boot (nd : Node) : Server := ⟨nd.rsInit, true⟩

theorem node_step_request (server : Server) (req : Request) (env : Env) (script : Script) :
    (server.step (.request req env script)).node =
      if server.up then ((handle env req server.node).follow Node.osAfter script).state
      else server.node := by
  cases hup : server.up with
  | false => simp [step, hup]
  | true =>
      simp only [step, hup, if_true]
      cases (handle env req server.node).follow Node.osAfter script <;> rfl

/-- A property of the server from one of the node while colod is up and one
while it is down. -/
def Holds (Up Down : Node → Prop) (server : Server) : Prop :=
  if server.up then Up server.node else Down server.node

/-- One event keeps a property when the handlers and the other three kinds of
event do.  A handler may be killed in a wait, so what it waits in must satisfy
the property of a server that is down. -/
theorem holds_step {Up Down : Node → Prop}
    (hdown : ∀ nd, Up nd → Down nd)
    (hrestart : ∀ nd, Down nd → Up nd.rsInit)
    (hos : ∀ nd events, (Up nd → Up (nd.osAfter events)) ∧ (Down nd → Down (nd.osAfter events)))
    (hwrite : ∀ nd path doc, path ≠ defaultSaveFile →
      (Up nd → Up (nd.writeFile path doc)) ∧ (Down nd → Down (nd.writeFile path doc)))
    {server : Server} {event : ServerEvent}
    (hrequest : ∀ req env script, event = .request req env script → server.up = true →
      Up server.node →
        (handle env req server.node).Post Node.Meanwhile (fun _ => Down) (fun _ => Up) Down)
    (h : server.Holds Up Down) : (server.step event).Holds Up Down := by
  cases event with
  | request req env script =>
      by_cases hup : server.up = true
      · simp only [Holds, hup, if_true] at h
        have hchange : ∀ events nd, Node.Meanwhile nd (nd.osAfter events) :=
          fun events _ => ⟨events, rfl⟩
        have hpost := Act.follow_of_post hchange (fun (_ : Query) (nd : Node) (hnd : Down nd) => hnd)
          (hrequest req env script rfl hup h) script
        simp only [step, hup, if_true]
        cases hout : (handle env req server.node).follow Node.osAfter script with
        | returned value nd => simpa [afterHandler, Holds, hout] using hpost
        | crashed nd => simpa [afterHandler, Holds, hout] using hpost
      · simpa [step, hup] using h
  | restart =>
      by_cases hup : server.up = true
      · simp only [Holds, hup, if_true] at h
        simpa [step, Holds] using hrestart _ (hdown _ h)
      · simp only [Holds, hup] at h
        simpa [step, Holds] using hrestart _ (by simpa using h)
  | os event =>
      by_cases hup : server.up = true
      · simpa [step, Holds, hup] using (hos _ _).1 (by simpa [Holds, hup] using h)
      · simpa [step, Holds, hup] using (hos _ _).2 (by simpa [Holds, hup] using h)
  | writeFile path doc =>
      by_cases hpath : path = defaultSaveFile
      · simpa [step, hpath] using h
      · by_cases hup : server.up = true
        · simpa [step, Holds, hup, hpath] using
            (hwrite _ path doc hpath).1 (by simpa [Holds, hup] using h)
        · simpa [step, Holds, hup, hpath] using
            (hwrite _ path doc hpath).2 (by simpa [Holds, hup] using h)

end Server

def definedNode : Node :=
  ((Server.boot .fresh).step (.request (.define "/root/d.yaml") (.smooth 100) [])).node

end ColoManage
