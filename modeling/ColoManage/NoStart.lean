import ColoManage.Disabled
import ColoManage.Pairing

/-!
# No COLO start after a disable

`colod_colo_disable` clears the flag in the table and the file of one node; the
other is not told.  What holds a start of the domain back there is the refusal
of this node, and what holds it back here is the flag, across restarts.  The
save file can be replaced by a definition that is written over it, and a long name
arrives cut.
-/

namespace ColoManage

open Resumption EventSystem

/-! ## The property -/

/-- Two nodes after the disable: which of them wait in a COLO start of the domain
that was requested since, and the numbers of the calls these starts have made. -/
structure Ban where
  net : Net
  starting : NodeId → Bool
  calls : List ℕ

namespace Ban

def start (net : Net) : Ban := ⟨net, fun _ => false, []⟩

/-- A COLO start of the domain begins on the node. -/
def begins (d : String) (ban : Ban) (event : NetEvent) (x : NodeId) : Bool :=
  match event with
  | .request y req _ =>
      decide (y = x) && decide (req = .start d true) && (ban.net.party y).idle
  | _ => false

def step (d : String) (ban : Ban) (event : NetEvent) : Ban where
  net := ban.net.step event
  starting := fun x => (ban.begins d event x || ban.starting x) &&
    ((ban.net.step event).party x).waiting.isSome
  calls :=
    if (ban.begins d event .a || ban.begins d event .b) &&
        decide (ban.net.nextCall < (ban.net.step event).nextCall) then
      ban.calls ++ [ban.net.nextCall]
    else ban.calls

/-- The event is part of a COLO start of the domain: its request, the execution
of its call, or the end of a wait of it. -/
def Concerns (d : String) (ban : Ban) (event : NetEvent) : Prop :=
  match event with
  | .request x _ _ => ban.begins d event x = true
  | .execute x i _ => ∃ call, (ban.net.party x).inbox[i]? = some call ∧ call.id ∈ ban.calls
  | .reply x _ => ban.starting x = true
  | .timeout x => ban.starting x = true
  | _ => False

def LaunchesNone (d : String) (ban : Ban) (event : NetEvent) : Prop :=
  ban.Concerns d event →
    ∀ x, NoLaunch (ban.net.party x).node ((ban.net.step event).party x).node

end Ban

/-- Two fresh colods come to this in some run. -/
def Net.Reachable (net : Net) : Prop :=
  ∃ (nd : NodeId → Node) (events : List NetEvent), net = events.foldl Net.step (Net.boot nd)

/-! ## The conditions -/

/-- A handler takes a reply to its own call only. -/
def OwnReply (net : Net) : NetEvent → Prop
  | .reply x i => ∀ w reply, (net.party x).waiting = some w →
      (net.party x).replies[i]? = some reply → (net.party x).receives reply = true →
        w.query.sent = true
  | _ => True

/-- No request that enables the domain is handled. -/
def NotEnabling (d : String) (net : Net) (event : NetEvent) : Prop :=
  ∀ x req, net.handled event = some (x, req) →
    req ≠ .coloEnable d ∧ ∀ ds, req = .peerSaveDomain ds → ds.name ≠ d

/-- A definition that is written over the save file of the node enables the
domain in no entry. -/
def KeepsDisabled (x : NodeId) (d : String) (net : Net) (event : NetEvent) : Prop :=
  ∀ vmFilePath doc domain, net.handled event = some (x, .define vmFilePath) →
    (net.party x).node.loadFile vmFilePath = some doc → vmConfigParse doc = .ok domain →
      (net.party x).node.definitionFile domain.name = some defaultSaveFile →
        ∀ entry ∈ (SaveFile.ofYaml doc).domains.entries, entry.name = d →
          entry.coloEnable = false

instance (net : Net) : (event : NetEvent) → Decidable (OwnReply net event)
  | .reply x i =>
      decidable_of_iff (∀ w ∈ (net.party x).waiting, ∀ reply ∈ (net.party x).replies[i]?,
          (net.party x).receives reply = true → w.query.sent = true)
        ⟨fun h w reply hw hreply => h w hw reply hreply, fun h w hw reply => h w reply hw⟩
  | .request _ _ _ | .execute _ _ _ | .dropCall _ _ | .dropReply _ _ | .timeout _ | .restart _
  | .os _ _ | .writeFile _ _ _ => isTrue trivial

/-- The request enables the domain. -/
def Request.enables (req : Request) (d : String) : Bool :=
  match req with
  | .coloEnable name => decide (name = d)
  | .peerSaveDomain ds => decide (ds.name = d)
  | _ => false

theorem enables_eq_false_iff {req : Request} {d : String} : req.enables d = false ↔
    req ≠ .coloEnable d ∧ ∀ ds, req = .peerSaveDomain ds → ds.name ≠ d := by
  cases req <;> simp [Request.enables]

instance (d : String) (net : Net) (event : NetEvent) : Decidable (NotEnabling d net event) :=
  decidable_of_iff (∀ taken ∈ net.handled event, taken.2.enables d = false)
    ⟨fun h x req hhandled => enables_eq_false_iff.mp (h (x, req) hhandled),
      fun h taken hhandled => enables_eq_false_iff.mpr (h taken.1 taken.2 hhandled)⟩

/-! ## A run in which one node is disabled -/

/-- The node is disabled, and the calls of the starts that wait on the other one
are refused. -/
structure Barred (d : String) (x : NodeId) (ban : Ban) : Prop where
  disabled : Disabled d (ban.net.party x)
  quiet : ban.starting x = false
  calls : ∀ id ∈ ban.calls, id < ban.net.nextCall
  inbox : ∀ call ∈ (ban.net.party x).inbox, call.id ∈ ban.calls →
    call.request = .peerStartDomain d true
  away : ∀ call ∈ (ban.net.party x.other).inbox, call.id ∉ ban.calls
  replies : ∀ reply ∈ (ban.net.party x.other).replies, reply.call.id ∈ ban.calls →
    reply.ret.code < 0
  waiting : ban.starting x.other = true → ∃ w, (ban.net.party x.other).waiting = some w ∧
    w.Refuses ∧ (w.query.sent = true → ∀ socketId id,
      (ban.net.party x.other).lastSent = some (socketId, id) → id ∈ ban.calls)

section

variable {ban : Ban} {net : Net} {d : String} {x y : NodeId} {starting : NodeId → Bool}
  {env : Env} {req : Request} {start : Node}

/-- One party changes and starts nothing. -/
theorem barred_modify (h : Barred d x ban) {f : Party → Party}
    (hnode : y = x → Disabled d (f (ban.net.party x)))
    (hinbox : ∀ call ∈ (f (ban.net.party y)).inbox, call ∈ (ban.net.party y).inbox)
    (hreplies : ∀ reply ∈ (f (ban.net.party y)).replies, reply ∈ (ban.net.party y).replies ∨
      (y = x.other → reply.call.id ∈ ban.calls → reply.ret.code < 0))
    (hlast : (f (ban.net.party y)).lastSent = (ban.net.party y).lastSent)
    (hquiet : starting x = false)
    (hstarting : starting x.other = true → ban.starting x.other = true ∧
      (y = x.other → (f (ban.net.party y)).waiting = (ban.net.party y).waiting)) :
    Barred d x ⟨ban.net.modify y f, starting, ban.calls⟩ := by
  rcases NodeId.eq_or_eq_other x y with rfl | rfl
  · have hself : (ban.net.modify y f).party y = f (ban.net.party y) := by simp
    have hother : (ban.net.modify y f).party y.other = ban.net.party y.other := by
      simp [NodeId.other_ne]
    refine ⟨?_, hquiet, h.calls, ?_, ?_, ?_, ?_⟩
    · rw [hself]
      exact hnode rfl
    · rw [hself]
      exact fun call hcall => h.inbox call (hinbox call hcall)
    · rw [hother]
      exact h.away
    · rw [hother]
      exact h.replies
    · rw [hother]
      exact fun hstart => h.waiting (hstarting hstart).1
  · have hself : (ban.net.modify x.other f).party x.other = f (ban.net.party x.other) := by simp
    have hother : (ban.net.modify x.other f).party x = ban.net.party x := by
      simp [NodeId.ne_other]
    refine ⟨?_, hquiet, h.calls, ?_, ?_, ?_, ?_⟩
    · rw [hother]
      exact h.disabled
    · rw [hother]
      exact h.inbox
    · rw [hself]
      exact fun call hcall => h.away call (hinbox call hcall)
    · rw [hself]
      intro reply hreply
      exact (hreplies reply hreply).elim (h.replies reply) fun hnew => hnew rfl
    · rw [hself, hlast]
      intro hstart
      rw [(hstarting hstart).2 rfl]
      exact h.waiting (hstarting hstart).1

/-- One party loses messages, or its machine moves on. -/
theorem barred_keep (h : Barred d x ban) {f : Party → Party}
    (hapart : (ban.net.party y).node.Apart (f (ban.net.party y)).node)
    (hinbox : ∀ call ∈ (f (ban.net.party y)).inbox, call ∈ (ban.net.party y).inbox)
    (hreplies : ∀ reply ∈ (f (ban.net.party y)).replies, reply ∈ (ban.net.party y).replies)
    (hlast : (f (ban.net.party y)).lastSent = (ban.net.party y).lastSent)
    (hwaiting : (f (ban.net.party y)).waiting = (ban.net.party y).waiting)
    (hquiet : starting x = false)
    (hstarting : starting x.other = true → ban.starting x.other = true) :
    Barred d x ⟨ban.net.modify y f, starting, ban.calls⟩ := by
  refine barred_modify h ?_ hinbox (fun reply hreply => .inl (hreplies reply hreply)) hlast hquiet
    fun hstart => ⟨hstarting hstart, fun _ => hwaiting⟩
  rintro rfl
  refine ⟨h.disabled.off.apart hapart, ?_⟩
  intro w hw
  rw [hwaiting] at hw
  exact (h.disabled.waiting w hw).apart hapart

/-- The disabled node takes a leg of a handler. -/
theorem barred_settle_self (h : Barred d x ban) (hreq : Harmless d req start) {act : Colod}
    (hact : Moving env req start (ban.net.party x).node act) (hquiet : starting x = false)
    (hstarting : starting x.other = true → ban.starting x.other = true) :
    Barred d x ⟨ban.net.settle x act, starting, ban.calls⟩ := by
  obtain ⟨calls, hother, hcalls⟩ := Net.party_settle_other x act ban.net
  obtain ⟨hinbox, -, -⟩ := Net.party_settle_self x act ban.net
  have hnext := Net.nextCall_le_settle x act ban.net
  refine ⟨disabled_settle h.disabled.off hreq hact, hquiet, ?_, ?_, ?_, ?_, ?_⟩
  · exact fun id hid => Nat.lt_of_lt_of_le (h.calls id hid) hnext
  · rw [hinbox]
    exact h.inbox
  · rw [hother]
    intro call hcall hid
    rcases List.mem_append.mp hcall with hcall | hcall
    · exact h.away call hcall hid
    · have hlt := h.calls call.id hid
      rw [(hcalls call hcall).1] at hlt
      omega
  · rw [hother]
    exact h.replies
  · rw [hother]
    exact fun hstart => h.waiting (hstarting hstart)

/-- The other node takes a leg of a handler that is no start of the domain or
that ends with it. -/
theorem barred_settle_other (h : Barred d x ban) (act : Colod) (hquiet : starting x = false)
    (hended : starting x.other = false) :
    Barred d x ⟨ban.net.settle x.other act, starting, ban.calls⟩ := by
  obtain ⟨calls, hother, hcalls⟩ := Net.party_settle_other x.other act ban.net
  obtain ⟨hinbox, hreplies, -⟩ := Net.party_settle_self x.other act ban.net
  have hnext := Net.nextCall_le_settle x.other act ban.net
  rw [NodeId.other_other] at hother
  refine ⟨?_, hquiet, ?_, ?_, ?_, ?_, ?_⟩
  · rw [hother]
    exact ⟨h.disabled.off, h.disabled.waiting⟩
  · exact fun id hid => Nat.lt_of_lt_of_le (h.calls id hid) hnext
  · rw [hother]
    intro call hcall hid
    rcases List.mem_append.mp hcall with hcall | hcall
    · exact h.inbox call hcall hid
    · have hlt := h.calls call.id hid
      rw [(hcalls call hcall).1] at hlt
      omega
  · rw [hinbox]
    exact h.away
  · rw [hreplies]
    exact h.replies
  · exact fun hstart => absurd (hended.symm.trans hstart) (by decide)

/-- A start on the other node has asked, and its call is noted. -/
theorem barred_begin (hlinked : ∀ y, Linked ban.net y) (h : Barred d x ban)
    (hlength : d.length < 65536) {query : Query} {nd : Node}
    {resume : Option ValueT → Node → Colod}
    (hact : handle env (.start d true) (ban.net.party x.other).node = .await query nd resume)
    {calls : List ℕ}
    (hcalls : ∀ id ∈ calls, id ∈ ban.calls ∨ id = ban.net.nextCall ∧
      id < (ban.net.settle x.other (.await query nd resume)).nextCall)
    (hnoted : ban.net.nextCall < (ban.net.settle x.other (.await query nd resume)).nextCall →
      ban.net.nextCall ∈ calls) (hquiet : starting x = false) :
    Barred d x ⟨ban.net.settle x.other (.await query nd resume), starting, calls⟩ := by
  obtain ⟨more, hother, hmore⟩ := Net.party_settle_other x.other (.await query nd resume) ban.net
  obtain ⟨hinbox, hreplies, -⟩ := Net.party_settle_self x.other (.await query nd resume) ban.net
  have hnext := Net.nextCall_le_settle x.other (.await query nd resume) ban.net
  rw [NodeId.other_other] at hother
  obtain ⟨hrefuses, hquery⟩ := start_waits (w := ⟨query, resume⟩) (by rw [hact]; rfl)
  have hold : ∀ id ∈ calls, id < ban.net.nextCall → id ∈ ban.calls := by
    intro id hid hlt
    refine (hcalls id hid).resolve_right ?_
    rintro ⟨rfl, -⟩
    exact absurd hlt (Nat.lt_irrefl _)
  refine ⟨?_, hquiet, ?_, ?_, ?_, ?_, ?_⟩
  · rw [hother]
    exact ⟨h.disabled.off, h.disabled.waiting⟩
  · intro id hid
    rcases hcalls id hid with hid | ⟨-, hlt⟩
    · exact Nat.lt_of_lt_of_le (h.calls id hid) hnext
    · exact hlt
  · rw [hother]
    intro call hcall hid
    rcases List.mem_append.mp hcall with hcall | hcall
    · have hlt := ((hlinked x.other).calls call (by simpa using hcall)).id_lt
      exact h.inbox call hcall (hold call.id hid hlt)
    · obtain ⟨-, -, query', nd', resume', heq, -, hrequest⟩ := hmore call hcall
      obtain ⟨rfl, -, -⟩ := Act.await.inj heq
      rw [hrequest, hquery, Request.wire, wireString_of_lt hlength]
  · rw [hinbox]
    intro call hcall hid
    have hlt := ((hlinked x).calls call hcall).id_lt
    exact h.away call hcall (hold call.id hid hlt)
  · rw [hreplies]
    intro reply hreply hid
    have hlt := ((hlinked x.other).replies reply hreply).id_lt
    exact h.replies reply hreply (hold reply.call.id hid hlt)
  · intro _
    refine ⟨⟨query, resume⟩, Net.waiting_settle _ _ _, hrefuses, ?_⟩
    intro hsent socketId id hlast
    have hissued : Issued query nd := by
      have hissues := handle_issues env (.start d true) (ban.net.party x.other).node nd
      rw [hact] at hissues
      exact hissues.1.2
    obtain ⟨rfl, hlt⟩ := Net.lastSent_settle x.other ban.net hsent hissued.2 hlast
    exact hnoted hlt

theorem barred_starting (h : Barred d x ban) (hquiet : starting x = false)
    (hstarting : starting x.other = true → ban.starting x.other = true) :
    Barred d x ⟨ban.net, starting, ban.calls⟩ :=
  ⟨h.disabled, hquiet, h.calls, h.inbox, h.away, h.replies, fun hstart => h.waiting (hstarting hstart)⟩

/-- A node executes a call: the disabled one refuses the calls of starts. -/
theorem barred_answer (h : Barred d x ban) (hidle : (ban.net.party y).waiting = none) {i : ℕ}
    {call : Call} (hcall : (ban.net.party y).inbox[i]? = some call) (env : Env)
    (hreq : y = x → Harmless d call.request (ban.net.party x).node) (hquiet : starting x = false)
    (hstarting : starting x.other = true → ban.starting x.other = true) :
    Barred d x ⟨(ban.net.modify y fun p =>
      { p with inbox := p.inbox.eraseIdx i }).answer y call env, starting, ban.calls⟩ := by
  have hdisabled : y = x → ∀ nd : Node, nd = (runPeer env call.request (ban.net.party y).node).state →
      ∀ p : Party, p.node = nd → p.waiting = (ban.net.party y).waiting → Disabled d p := by
    rintro rfl nd rfl p hnode hwaiting
    refine ⟨?_, ?_⟩
    · rw [hnode]
      exact off_runPeer h.disabled.off (hreq rfl) env
    · rw [hwaiting, hidle]
      simp
  have herase : Barred d x ⟨ban.net.modify y fun p => { p with inbox := p.inbox.eraseIdx i },
      ban.starting, ban.calls⟩ := by
    exact barred_keep h (Node.apart_refl _) (fun _ hmem => List.mem_of_mem_eraseIdx hmem)
      (fun _ hmem => hmem) rfl rfl h.quiet id
  -- the reply, if there is one, goes to the other party
  unfold Net.answer
  simp only [Net.party_modify, if_true]
  split
  · rename_i ret nd hrun
    have hnode : Barred d x ⟨(ban.net.modify y fun p =>
        { p with inbox := p.inbox.eraseIdx i }).modify y fun p => { p with node := nd },
        ban.starting, ban.calls⟩ := by
      refine barred_modify herase ?_ (fun _ hmem => hmem) (fun _ hmem => .inl hmem) rfl h.quiet
        fun hstart => ⟨hstart, fun _ => rfl⟩
      intro hyx
      refine hdisabled hyx nd (by rw [hrun]; rfl) _ rfl ?_
      simp [hyx]
    refine barred_modify hnode ?_ (fun _ hmem => hmem) ?_ rfl hquiet
      fun hstart => ⟨hstarting hstart, fun _ => rfl⟩
    · exact fun _ => ⟨hnode.disabled.off, hnode.disabled.waiting⟩
    · intro reply hreply
      rcases List.mem_append.mp hreply with hreply | hreply
      · exact .inl hreply
      · obtain rfl := List.mem_singleton.mp hreply
        refine .inr ?_
        intro hyx hid
        obtain rfl : y = x := by simpa using congrArg NodeId.other hyx
        have hrequest := h.inbox call (List.mem_of_getElem? hcall) hid
        rw [hrequest, runPeer_start_of_off h.disabled.off] at hrun
        obtain ⟨rfl, -⟩ := Outcome.returned.inj hrun
        exact (by decide : (-1 : ℤ) < 0)
  · rename_i nd hrun
    refine barred_modify herase ?_ (fun _ hmem => hmem) (fun _ hmem => .inl hmem) rfl hquiet
      fun hstart => ⟨hstarting hstart, fun _ => rfl⟩
    intro hyx
    refine hdisabled hyx nd (by rw [hrun]; rfl) _ rfl ?_
    simp [hyx]

/-! ## Steps -/

theorem harmless_of_handled {event : NetEvent} (henabling : NotEnabling d net event)
    (hkeeps : KeepsDisabled x d net event) (hhandled : net.handled event = some (x, req)) :
    Harmless d req (net.party x).node := by
  obtain ⟨henable, hsave⟩ := henabling x req hhandled
  refine ⟨henable, hsave, ?_⟩
  rintro vmFilePath doc domain rfl hload hparse hpath
  exact off_iff_entries.mpr (hkeeps vmFilePath doc domain hhandled hload hparse hpath)

theorem starting_step {event : NetEvent} {z : NodeId}
    (hbegins : ban.begins d event z = false) (h : (ban.step d event).starting z = true) :
    ban.starting z = true ∧ ((ban.net.step event).party z).waiting.isSome = true := by
  simpa [Ban.step, hbegins] using h

theorem begins_request {z : NodeId} (env : Env) :
    ban.begins d (.request y req env) z = true ↔
      y = z ∧ req = .start d true ∧ (ban.net.party y).idle = true := by
  simp [Ban.begins, and_assoc]

theorem calls_step {event : NetEvent} (h : ∀ z, ban.begins d event z = false) :
    (ban.step d event).calls = ban.calls := by
  simp [Ban.step, h]

/-- The step in which a start begins.  On the disabled node it waits for nothing. -/
theorem barred_step_start (hlinked : ∀ y, Linked ban.net y) (h : Barred d x ban)
    (hlength : d.length < 65536) (hidle : (ban.net.party y).idle = true) (env : Env)
    (hreq : y = x → Harmless d (.start d true) (ban.net.party x).node) :
    Barred d x (ban.step d (.request y (.start d true) env)) := by
  have hstep : ban.net.step (.request y (.start d true) env) =
      ban.net.settle y (handle env (.start d true) (ban.net.party y).node) := by
    simp [Net.step, hidle, Request.isLocal]
  have hother : ∀ z, y ≠ z → ban.begins d (.request y (.start d true) env) z = false := by
    intro z hne
    simp [Ban.begins, hne]
  have hunsent : Net.waits (handle env (.start d true) (ban.net.party y).node) = none →
      (ban.step d (.request y (.start d true) env)).starting y = false ∧
        (ban.step d (.request y (.start d true) env)).calls = ban.calls := by
    intro hnone
    refine ⟨?_, ?_⟩
    · simp [Ban.step, hstep, Net.waiting_settle, hnone]
    · simp [Ban.step, hstep, Net.nextCall_settle_of_waits y _ _ hnone]
  rcases NodeId.eq_or_eq_other x y with rfl | rfl
  · obtain ⟨hquiet, hcalls⟩ := hunsent (start_of_off h.disabled.off env)
    have hnext := barred_settle_self h (hreq rfl) (handle_moving env (.start d true) _) hquiet
      fun hstart => (starting_step (hother y.other (NodeId.ne_other y)) hstart).1
    rw [← hstep, ← hcalls] at hnext
    exact hnext
  · have hquiet : (ban.step d (.request x.other (.start d true) env)).starting x = false := by
      simp [Ban.step, hother x (NodeId.other_ne x), h.quiet]
    cases hact : handle env (.start d true) (ban.net.party x.other).node with
    | done value nd =>
        obtain ⟨hended, hcalls⟩ := hunsent (by rw [hact]; rfl)
        have hnext := barred_settle_other h (.done value nd) hquiet hended
        rw [← hact, ← hstep, ← hcalls] at hnext
        exact hnext
    | crash nd =>
        obtain ⟨hended, hcalls⟩ := hunsent (by rw [hact]; rfl)
        have hnext := barred_settle_other h (.crash nd) hquiet hended
        rw [← hact, ← hstep, ← hcalls] at hnext
        exact hnext
    | await query nd resume =>
        have hbegins : ban.begins d (.request x.other (.start d true) env) x.other = true :=
          (begins_request env).mpr ⟨rfl, rfl, hidle⟩
        have hcalls : (ban.step d (.request x.other (.start d true) env)).calls =
            if ban.net.nextCall < (ban.net.settle x.other (.await query nd resume)).nextCall then
              ban.calls ++ [ban.net.nextCall] else ban.calls := by
          have hany : (ban.begins d (.request x.other (.start d true) env) .a ||
              ban.begins d (.request x.other (.start d true) env) .b) = true := by
            rcases x with _ | _
            · rw [show ban.begins d _ .b = true from hbegins, Bool.or_true]
            · rw [show ban.begins d _ .a = true from hbegins, Bool.true_or]
          simp [Ban.step, hany, hstep, hact]
        have hnext : Barred d x ⟨ban.net.settle x.other (.await query nd resume),
            (ban.step d (.request x.other (.start d true) env)).starting,
            (ban.step d (.request x.other (.start d true) env)).calls⟩ := by
          refine barred_begin hlinked h hlength hact ?_ ?_ hquiet
          · rw [hcalls]
            intro id hid
            split at hid
            · rename_i hlt
              rcases List.mem_append.mp hid with hid | hid
              · exact .inl hid
              · obtain rfl := List.mem_singleton.mp hid
                exact .inr ⟨rfl, hlt⟩
            · exact .inl hid
          · intro hlt
            rw [hcalls, if_pos hlt]
            simp
        rw [← hact, ← hstep] at hnext
        exact hnext

/-- A wait ends.  If it was that of a start, so does the start. -/
theorem barred_resume (h : Barred d x ban) {w : Waiting} (hw : (ban.net.party y).waiting = some w)
    {answer : Option ValueT} (hrefused : ban.starting y = true → accepted answer = false)
    (hquiet : starting x = false)
    (hstarting : starting x.other = true → ban.starting x.other = true ∧
      ((ban.net.settle y (w.resume answer (ban.net.party y).node)).party
        x.other).waiting.isSome = true) :
    Barred d x ⟨ban.net.settle y (w.resume answer (ban.net.party y).node), starting,
      ban.calls⟩ := by
  rcases NodeId.eq_or_eq_other x y with rfl | rfl
  · obtain ⟨env, req, start, hreq, hresume⟩ := h.disabled.waiting w hw
    exact barred_settle_self h hreq (hresume answer _ (Node.apart_refl _)) hquiet
      fun hstart => (hstarting hstart).1
  · refine barred_settle_other h _ hquiet ?_
    by_contra hstart
    obtain ⟨hold, hsome⟩ := hstarting (by simpa using hstart)
    obtain ⟨w', hw', hrefuses, -⟩ := h.waiting hold
    obtain rfl := Option.some.inj (hw.symm.trans hw')
    obtain ⟨ret, nd, hdone, -⟩ := hrefuses answer (ban.net.party x.other).node (hrefused hold)
    rw [Net.waiting_settle, hdone] at hsome
    cases hsome

/-- The reply to the call of a start refuses. -/
theorem refused_of_reply (h : Barred d x ban) {i : ℕ} (hown : OwnReply ban.net (.reply y i))
    {w : Waiting} {reply : Reply} (hw : (ban.net.party y).waiting = some w)
    (hreply : (ban.net.party y).replies[i]? = some reply)
    (hreceives : (ban.net.party y).receives reply = true) (hstart : ban.starting y = true) :
    accepted (some (.answer reply.ret)) = false := by
  rcases NodeId.eq_or_eq_other x y with rfl | rfl
  · exact absurd (h.quiet.symm.trans hstart) (by decide)
  · obtain ⟨w', hw', -, hlast⟩ := h.waiting hstart
    obtain rfl := Option.some.inj (hw.symm.trans hw')
    obtain ⟨socketId, hsent⟩ := lastSent_of_receives hreceives
    have hid := hlast (hown w reply hw hreply hreceives) socketId reply.call.id hsent
    have hneg := h.replies reply (List.mem_of_getElem? hreply) hid
    simpa [accepted, ValueT.answer, ColodRetVal.wire] using hneg

theorem barred_request (h : Barred d x ban) (hidle : (ban.net.party y).idle = true)
    (env : Env) (hreq : y = x → Harmless d req (ban.net.party x).node) (hquiet : starting x = false)
    (hstarting : starting x.other = true → ban.starting x.other = true) :
    Barred d x ⟨ban.net.settle y (handle env req (ban.net.party y).node), starting,
      ban.calls⟩ := by
  rcases NodeId.eq_or_eq_other x y with rfl | rfl
  · exact barred_settle_self h (hreq rfl) (handle_moving env req _) hquiet hstarting
  · refine barred_settle_other h _ hquiet ?_
    by_contra hstart
    obtain ⟨w, hw, -⟩ := h.waiting (hstarting (by simpa using hstart))
    rw [(Party.idle_iff.mp hidle).2] at hw
    cases hw

theorem barred_reply (h : Barred d x ban) {i : ℕ} (hown : OwnReply ban.net (.reply y i))
    {w : Waiting} {reply : Reply} (hw : (ban.net.party y).waiting = some w)
    (hreply : (ban.net.party y).replies[i]? = some reply)
    (hreceives : (ban.net.party y).receives reply = true) (hquiet : starting x = false)
    (hstarting : starting x.other = true → ban.starting x.other = true ∧
      (((ban.net.modify y fun p => { p with replies := p.replies.eraseIdx i }).take y w
        reply).party x.other).waiting.isSome = true) :
    Barred d x ⟨(ban.net.modify y fun p =>
      { p with replies := p.replies.eraseIdx i }).take y w reply, starting, ban.calls⟩ := by
  have herase : Barred d x ⟨ban.net.modify y fun p =>
      { p with replies := p.replies.eraseIdx i }, ban.starting, ban.calls⟩ :=
    barred_keep h (Node.apart_refl _) (fun _ hmem => hmem)
      (fun _ hmem => List.mem_of_mem_eraseIdx hmem) rfl rfl h.quiet id
  have hnoted : Barred d x ⟨{ ban.net.modify y fun p =>
      { p with replies := p.replies.eraseIdx i } with
      taken := ban.net.taken ++ [⟨w.query, reply.call.request, reply.ret, reply.ret.wire⟩] },
      ban.starting, ban.calls⟩ :=
    ⟨herase.disabled, herase.quiet, herase.calls, herase.inbox, herase.away, herase.replies,
      herase.waiting⟩
  have hrefused := refused_of_reply h hown hw hreply hreceives
  exact barred_resume hnoted (y := y) (by simpa using hw) hrefused hquiet hstarting

/-- A restart ends every handler and reads the flag from the file. -/
theorem barred_restart (h : Barred d x ban) (hquiet : starting x = false)
    (hstarting : starting x.other = true → ban.starting x.other = true ∧
      ((ban.net.step (.restart y)).party x.other).waiting.isSome = true) :
    Barred d x ⟨ban.net.step (.restart y), starting, ban.calls⟩ := by
  unfold Net.step at hstarting ⊢
  refine barred_modify h ?_ (fun _ hmem => hmem) (fun _ hmem => .inl hmem) rfl hquiet ?_
  · rintro rfl
    exact ⟨off_rsInit h.disabled.off.2, by simp⟩
  · intro hstart
    obtain ⟨hbefore, hsome⟩ := hstarting hstart
    refine ⟨hbefore, ?_⟩
    rintro rfl
    simp at hsome

/-- A step in which no start begins. -/
theorem barred_step_quiet (h : Barred d x ban) {event : NetEvent}
    (hbegins : ∀ z, ban.begins d event z = false) (hown : OwnReply ban.net event)
    (henabling : NotEnabling d ban.net event) (hkeeps : KeepsDisabled x d ban.net event) :
    Barred d x (ban.step d event) := by
  have hstarting : ∀ z, (ban.step d event).starting z = true →
      ban.starting z = true ∧ ((ban.net.step event).party z).waiting.isSome = true :=
    fun z => starting_step (hbegins z)
  have hquiet : (ban.step d event).starting x = false := by
    by_contra hstart
    exact absurd (h.quiet.symm.trans (hstarting x (by simpa using hstart)).1) (by decide)
  have hbefore : (ban.step d event).starting x.other = true → ban.starting x.other = true :=
    fun hstart => (hstarting x.other hstart).1
  suffices hnext : Barred d x ⟨ban.net.step event, (ban.step d event).starting, ban.calls⟩ by
    rw [← calls_step hbegins] at hnext
    exact hnext
  revert hstarting hquiet hbefore
  generalize (ban.step d event).starting = starting
  intro hstarting hquiet hbefore
  cases event with
  | request y req env =>
      unfold Net.step
      dsimp only
      split
      · rename_i hgo
        have hhandled : ban.net.handled (.request y req env) = some (y, req) := if_pos hgo
        rw [Bool.and_eq_true] at hgo
        refine barred_request h hgo.1 env ?_ hquiet hbefore
        rintro rfl
        exact harmless_of_handled henabling hkeeps hhandled
      · exact barred_starting h hquiet hbefore
  | execute y i env =>
      unfold Net.step
      dsimp only
      split
      · exact barred_starting h hquiet hbefore
      · rename_i call hcall
        split
        · rename_i hidle
          refine barred_answer h (Party.idle_iff.mp hidle).2 hcall env ?_ hquiet hbefore
          rintro rfl
          refine harmless_of_handled henabling hkeeps ?_
          simp [Net.handled, hidle, hcall]
        · exact barred_starting h hquiet hbefore
  | dropCall y i =>
      dsimp only [Net.step]
      exact barred_keep h (Node.apart_refl _) (fun _ hmem => List.mem_of_mem_eraseIdx hmem)
        (fun _ hmem => hmem) rfl rfl hquiet hbefore
  | dropReply y i =>
      dsimp only [Net.step]
      exact barred_keep h (Node.apart_refl _) (fun _ hmem => hmem)
        (fun _ hmem => List.mem_of_mem_eraseIdx hmem) rfl rfl hquiet hbefore
  | reply y i =>
      revert hstarting
      unfold Net.step
      dsimp only
      split
      · rename_i w reply hw hreply
        split
        · rename_i hreceives
          exact fun hstarting =>
            barred_reply h hown hw hreply hreceives hquiet (hstarting x.other)
        · exact fun _ => barred_starting h hquiet hbefore
      · exact fun _ => barred_starting h hquiet hbefore
  | timeout y =>
      revert hstarting
      unfold Net.step
      dsimp only
      split
      · rename_i w hw
        exact fun hstarting => barred_resume h hw (fun _ => rfl) hquiet (hstarting x.other)
      · exact fun _ => barred_starting h hquiet hbefore
  | restart y => exact barred_restart h hquiet (hstarting x.other)
  | os y event =>
      dsimp only [Net.step]
      exact barred_keep h (Node.apart_osAfter _ _) (fun _ hmem => hmem) (fun _ hmem => hmem) rfl rfl
        hquiet hbefore
  | writeFile y path doc =>
      unfold Net.step
      dsimp only
      split
      · exact barred_starting h hquiet hbefore
      · rename_i hpath
        exact barred_keep h (Node.apart_writeFile hpath _ _) (fun _ hmem => hmem)
          (fun _ hmem => hmem) rfl rfl hquiet hbefore

theorem barred_step (hlinked : ∀ y, Linked ban.net y) (h : Barred d x ban)
    (hlength : d.length < 65536) {event : NetEvent} (hown : OwnReply ban.net event)
    (henabling : NotEnabling d ban.net event) (hkeeps : KeepsDisabled x d ban.net event) :
    Barred d x (ban.step d event) := by
  by_cases hbegins : ∃ z, ban.begins d event z = true
  · obtain ⟨z, hz⟩ := hbegins
    cases event with
    | request y req env =>
        obtain ⟨rfl, rfl, hidle⟩ := (begins_request env).mp hz
        refine barred_step_start hlinked h hlength hidle env ?_
        rintro rfl
        refine harmless_of_handled henabling hkeeps ?_
        simp [Net.handled, hidle, Request.isLocal]
    | _ => cases hz
  · exact barred_step_quiet h (by simpa using hbegins) hown henabling hkeeps

theorem noLaunch_settle {act : Colod}
    (h : NoLaunch (net.party y).node (act.follow Node.osAfter []).state) (z : NodeId) :
    NoLaunch (net.party z).node ((net.settle y act).party z).node := by
  rcases NodeId.eq_or_eq_other y z with rfl | rfl
  · rwa [Net.node_settle]
  · obtain ⟨calls, hother, -⟩ := Net.party_settle_other y act net
    rw [hother]
    exact NoLaunch.refl _

theorem noLaunch_take {w : Waiting} {reply : Reply}
    (h : ∀ nd, NoLaunch nd
      ((w.resume (some (.answer reply.ret)) nd).follow Node.osAfter []).state) (i : ℕ) (z : NodeId) :
    NoLaunch (net.party z).node (((net.modify y fun p =>
      { p with replies := p.replies.eraseIdx i }).take y w reply).party z).node := by
  unfold Net.take
  have hnode : (net.party z).node = ((net.modify y fun p =>
      { p with replies := p.replies.eraseIdx i }).party z).node := by
    rw [Net.party_modify]
    split <;> rfl
  have hsettled : ∀ taking noted : Net, noted.party = taking.party →
      NoLaunch (taking.party z).node ((noted.settle y
        (w.resume (some (.answer reply.ret)) (taking.party y).node)).party z).node := by
    intro taking noted hparty
    rw [← hparty]
    exact noLaunch_settle (h _) z
  rw [hnode]
  exact hsettled _ _ rfl

/-- A wait of a start ends with it. -/
theorem noLaunch_resume (h : Barred d x ban) {w : Waiting} (hstart : ban.starting y = true)
    (hw : (ban.net.party y).waiting = some w) {answer : Option ValueT}
    (hrefused : accepted answer = false) (nd : Node) :
    NoLaunch nd ((w.resume answer nd).follow Node.osAfter []).state := by
  rcases NodeId.eq_or_eq_other x y with rfl | rfl
  · exact absurd (h.quiet.symm.trans hstart) (by decide)
  · obtain ⟨w', hw', hrefuses, -⟩ := h.waiting hstart
    obtain rfl := Option.some.inj (hw.symm.trans hw')
    obtain ⟨ret, nd', hdone, hlog⟩ := hrefuses answer nd hrefused
    rw [hdone]
    exact noLaunch_of_log_eq hlog

theorem launchesNone_of_barred (h : Barred d x ban) {event : NetEvent}
    (hown : OwnReply ban.net event) : ban.LaunchesNone d event := by
  intro hconcerns
  cases event with
  | request y req env =>
      obtain ⟨-, rfl, hidle⟩ := (begins_request env).mp hconcerns
      intro z
      simp only [Net.step, hidle, Request.isLocal, Bool.and_self, if_true]
      exact noLaunch_settle (noLaunch_start env d _) z
  | execute y i env =>
      obtain ⟨call, hcall, hid⟩ := hconcerns
      rcases NodeId.eq_or_eq_other x y with rfl | rfl
      · intro z
        simp only [Net.step, hcall]
        split
        · have hrequest := h.inbox call (List.mem_of_getElem? hcall) hid
          simp only [Net.answer, Net.party_modify, if_true, hrequest,
            runPeer_start_of_off h.disabled.off]
          refine noLaunch_of_log_eq ?_
          rcases NodeId.eq_or_eq_other y z with rfl | rfl
          · simp [NodeId.ne_other, Node.touch]
          · simp [NodeId.other_ne]
        · exact NoLaunch.refl _
      · exact absurd hid (h.away call (List.mem_of_getElem? hcall))
  | reply y i =>
      intro z
      simp only [Net.step]
      split
      · rename_i w reply hw hreply
        split
        · rename_i hreceives
          have hrefused := refused_of_reply h hown hw hreply hreceives hconcerns
          exact noLaunch_take (noLaunch_resume h hconcerns hw hrefused) i z
        · exact NoLaunch.refl _
      · exact NoLaunch.refl _
  | timeout y =>
      intro z
      simp only [Net.step]
      split
      · rename_i w hw
        exact noLaunch_settle (noLaunch_resume h hconcerns hw rfl _) z
      · exact NoLaunch.refl _
  | dropCall | dropReply | restart | os | writeFile => exact hconcerns.elim

end

/-! ## Runs -/

theorem barred_start {net : Net} {d : String} {x : NodeId} {nd : Node} {ret : ColodRetVal}
    (hoff : nd.Off d) : Barred d x (Ban.start (net.settle x (.done ret nd))) := by
  have hself : ((net.settle x (.done ret nd)).party x).node = nd ∧
      ((net.settle x (.done ret nd)).party x).waiting = none := by simp [Net.settle]
  refine ⟨⟨?_, ?_⟩, rfl, ?_, ?_, ?_, ?_, ?_⟩
  · rw [show (Ban.start (net.settle x (.done ret nd))).net = net.settle x (.done ret nd) from rfl,
      hself.1]
    exact hoff
  · rw [show (Ban.start (net.settle x (.done ret nd))).net = net.settle x (.done ret nd) from rfl,
      hself.2]
    simp
  · simp [Ban.start]
  · simp [Ban.start]
  · simp [Ban.start]
  · simp [Ban.start]
  · simp [Ban.start]

/-- The enabled domain, with its definition on both machines. -/
def preparedRun : List NetEvent :=
  enabledRun ++ [.writeFile .b "/vm/d.yaml" (sampleDefinition "d")]

/-- Start the domain on the node that was not told, which asks the other one. -/
def startRun : List NetEvent :=
  [.request .b (.start "d" true) (.smooth 200), .execute .a 0 (.smooth 100), .reply .b 0]

/-- The status file that connects `a`, with a directory and the start of a file
name as the path of its definitions. -/
def prefixDocument : Yaml.Node :=
  .map [("colo", .map [("local_status", .scalar "primary"), ("host_ip", .scalar "10.0.0.1"),
    ("host_user", .scalar "root"), ("host_file_path", .scalar "/usr/local/etc/colod/s"),
    ("peer_ip", .scalar "10.0.0.2"), ("peer_user", .scalar "root"),
    ("peer_file_path", .scalar "/vm/")])]

/-- A definition of the domain `ave` with a list of domains, as a save file has. -/
def listingDefinition : Yaml.Node :=
  match sampleDefinition "ave" with
  | .map fields =>
      .map (fields ++ [("domains",
        .seq [SaveEntry.toYaml ⟨"d", "/root/d.yaml", -1, "shutoff", true, "primary"⟩])])
  | other => other

def prefixRun : List NetEvent :=
  .writeFile .a "/root/peer.yaml" prefixDocument :: enabledRun.tail ++
    [.writeFile .b "/usr/local/etc/colod/sd.yaml" (sampleDefinition "d")]

/-- Define `ave` over the save file, start colod again, and start `d`. -/
def overwriteRun : List NetEvent :=
  [.writeFile .a "/root/ave.yaml" listingDefinition,
    .request .a (.define "/root/ave.yaml") (.smooth 100), .restart .a,
    .request .b (.start "d" true) (.smooth 200)]

theorem launchedPids_of_noLaunch {nd nd' : Node} (h : NoLaunch nd nd') :
    nd'.log.filterMap Effect.launchedPid = nd.log.filterMap Effect.launchedPid := by
  obtain ⟨more, hlog, hnone⟩ := h
  have hempty : more.filterMap Effect.launchedPid = [] := by
    rw [List.filterMap_eq_nil_iff]
    intro effect heffect
    cases effect with
    | launch name cmd pid => exact absurd heffect (hnone name cmd pid)
    | kill pid => rfl
    | qmp port text => rfl
    | rpc connected peerIp request => rfl
  rw [hlog, List.filterMap_append, hempty, List.append_nil]

def overwrittenNet : Net :=
  (prefixRun.foldl Net.step (Net.boot fun _ => .fresh)).step
    (.request .a (.coloDisable "d") (.smooth 100))

end ColoManage
