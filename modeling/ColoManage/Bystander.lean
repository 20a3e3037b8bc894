import ColoManage.SaveHistory

/-!
# A domain that no request is about

Requests about other domains, with all they ask the peer and wherever they are killed,
exits of processes, other files and restarts leave the saved entry of a domain alone,
except that a domain whose process has died is found shut off.  Which domain a request is
about is said by its name or, for `define` and the two starts, also by the name in the
definition file that it loads.
-/

namespace ColoManage

open Resumption EventSystem

/-- The request is about other domains than `d`. -/
def Request.Spares (d : String) (nd : Node) : Request → Prop
  | .connectPeer _ => True
  | .connectStatus => True
  | .define path => ∀ doc defined, nd.loadFile path = some doc →
      vmConfigParse doc = .ok defined → defined.name ≠ d ∧
        nd.definitionFile defined.name ≠ some defaultSaveFile
  | .undefine domainName => domainName ≠ d
  | .list _ => True
  | .start domainName _ => domainName ≠ d ∧
      ∀ defined, nd.getDomain domainName = .ok defined → defined.name ≠ d
  | .destroy domainName => domainName ≠ d
  | .coloEnable domainName => domainName ≠ d
  | .coloDisable domainName => domainName ≠ d
  | .vmStatus _ => True
  | .setParams _ _ _ => True
  | .doFailover domainName => domainName ≠ d
  | .connectTest => True
  | .connectReply => True
  | .domainTest _ => True
  | .peerSaveStatus _ => True
  | .peerSaveDomain ds => ds.name ≠ d
  | .peerStartDomain domainName _ => domainName ≠ d ∧
      ∀ defined, nd.getDomain domainName = .ok defined → defined.name ≠ d
  | .peerDestroyDomain domainName => domainName ≠ d
  | .peerSendQmpcmds _ _ => True

def SaveEntry.shutOff (entry : SaveEntry) : SaveEntry :=
  { entry with pid := -1, status := "shutoff" }

/-- The entry of `d` is as it was, or as `remove_domain_pid` leaves it. -/
def EntrySpared (d : String) (sf sf' : SaveFile) : Prop :=
  sf'.find d = sf.find d ∨ sf'.find d = (sf.find d).map SaveEntry.shutOff

def RecordSpared (d : String) (nd nd' : Node) : Prop :=
  nd'.dom d = nd.dom d ∨ nd'.dom d = { nd.dom d with status := .shutOff }

/-- The domain is where it was, or found shut off. -/
structure Undisturbed (d : String) (nd nd' : Node) : Prop where
  entry : EntrySpared d nd.save nd'.save
  record : RecordSpared d nd nd'

section

variable {d : String} {sf sf' sf'' : SaveFile} {nd nd' nd'' : Node}

theorem EntrySpared.refl (d : String) (sf : SaveFile) : EntrySpared d sf sf := .inl rfl

theorem EntrySpared.trans (h : EntrySpared d sf sf') (h' : EntrySpared d sf' sf'') :
    EntrySpared d sf sf'' := by
  rcases h with h | h
  · rwa [EntrySpared, ← h]
  · right
    rcases h' with h' | h'
    · rw [h', h]
    · rw [h', h, Option.map_map]
      rfl

theorem RecordSpared.trans (h : RecordSpared d nd nd') (h' : RecordSpared d nd' nd'') :
    RecordSpared d nd nd'' := by
  rcases h' with h' | h'
  · rwa [RecordSpared, h']
  · right
    rcases h with h | h
    · rw [h', h]
    · rw [h', h]

theorem Undisturbed.of_same (hsave : EntrySpared d nd.save nd'.save) (hdom : nd'.dom d = nd.dom d) :
    Undisturbed d nd nd' := ⟨hsave, .inl hdom⟩

theorem Undisturbed.trans (h : Undisturbed d nd nd') (h' : Undisturbed d nd' nd'') :
    Undisturbed d nd nd'' :=
  ⟨h.entry.trans h'.entry, h.record.trans h'.record⟩

/-! ## The writers on other names -/

theorem entrySpared_of_find {f : Option SaveEntry} {name : String} (hne : name ≠ d)
    (h : sf'.find d = if d = name then f else sf.find d) : EntrySpared d sf sf' :=
  .inl (by rw [h, if_neg (Ne.symm hne)])

theorem entrySpared_removeDomainPid (name : String) :
    EntrySpared d sf (removeDomainPid name sf).2 := by
  by_cases hname : d = name
  · exact .inr (by rw [find_removeDomainPid, if_pos hname, hname]; rfl)
  · exact entrySpared_of_find (Ne.symm hname) (find_removeDomainPid name d sf)

theorem entrySpared_setShutOff {f : SaveEntry → SaveEntry}
    (hf : ∀ entry, (f entry).name = entry.name) {name : String} (hne : name ≠ d) :
    EntrySpared d sf (setShutOffEntry name f sf).2 :=
  entrySpared_of_find hne (find_setShutOffEntry hf name d sf)

theorem entrySpared_setDomainColoEnable {name : String} (hne : name ≠ d) (cds : ColoDomainStatus) :
    EntrySpared d sf (setDomainColoEnable name cds sf).2 :=
  entrySpared_setShutOff (by intro entry; rfl) hne

theorem entrySpared_setDomainColoDisable {name : String} (hne : name ≠ d) :
    EntrySpared d sf (setDomainColoDisable name sf).2 :=
  entrySpared_setShutOff (by intro entry; rfl) hne

theorem dom_setDom_of_ne {name : String} (hne : name ≠ d) (ds : ColodDomainStatus) (nd : Node) :
    (nd.setDom name ds).dom d = nd.dom d := by
  simp [Node.dom_setDom, Ne.symm hne]

/-! ## Handlers -/

variable {env : Env} {req : Request} {start first : Node}

/-- Any handler but `define`, which says the name of the domain in its file only. -/
theorem undisturbed_move (hspares : req.Spares d start) (hdefine : ∀ path, req ≠ .define path)
    (h : Move env req start nd nd') : Undisturbed d nd nd' := by
  cases h with
  | talked htalked =>
      refine .of_same (.inl (by rw [htalked.save])) ?_
      rw [Node.dom, Node.dom, htalked.domains]
  | touched domainName => exact .of_same (.inl rfl) (Node.dom_touch domainName d nd)
  | @swept domainName nd hdead =>
      refine ⟨entrySpared_removeDomainPid domainName, ?_⟩
      have hdom : (nd.swept domainName).dom d = if d = domainName then
          { nd.dom domainName with status := .shutOff } else nd.dom d := by
        have hset : (nd.swept domainName).dom d =
            ((nd.touch domainName).setDom domainName
              { (nd.touch domainName).dom domainName with status := .shutOff }).dom d := rfl
        rw [hset, Node.dom_setDom, Node.dom_touch, Node.dom_touch]
      rw [RecordSpared, hdom]
      split
      · rename_i hname
        exact .inr (by rw [hname])
      · exact .inl rfl
  | savedStatus cs => exact .of_same (.inl rfl) rfl
  | wrote hreq => exact absurd hreq (hdefine _)
  | defined hreq => exact absurd hreq (hdefine _)
  | @undefined domainName nd hreq =>
      subst hreq
      refine .of_same (entrySpared_of_find hspares (find_vmUndefine domainName d nd.save)) ?_
      have hne : d ≠ domainName := Ne.symm hspares
      simp [Node.dom, hne, Node.setSave]
  | @launched domainName colo dd cmd pid os status nd hreq henable hget hfork hstatus =>
      have hnames : domainName ≠ d ∧ dd.name ≠ d := by
        rcases hreq with rfl | rfl
        · exact ⟨hspares.1, hspares.2 dd hget⟩
        · exact ⟨hspares.1, hspares.2 dd hget⟩
      refine .of_same (entrySpared_of_find hnames.2 (find_saveDomainPid dd.name d pid nd.save)) ?_
      exact dom_setDom_of_ne hnames.1 _ _
  | @forkFailed domainName nd hreq =>
      subst hreq
      exact .of_same (.inl rfl) (dom_setDom_of_ne hspares.1 _ _)
  | @missed domainName pid events nd hreq hpid hevents =>
      exact .of_same (entrySpared_removeDomainPid domainName) rfl
  | @killed domainName pid events nd hreq hpid hevents hstarted hsave =>
      have hne : domainName ≠ d := by
        rcases hreq with rfl | rfl
        · exact hspares
        · exact hspares
      exact .of_same (entrySpared_removeDomainPid domainName) (dom_setDom_of_ne hne _ _)
  | @flagged domainName nd value role hreq =>
      subst hreq
      exact .of_same (.inl rfl) (dom_setDom_of_ne hspares _ _)
  | @savedEnable domainName nd hreq =>
      subst hreq
      exact .of_same (entrySpared_setDomainColoEnable hspares _) rfl
  | @disabled domainName nd hreq =>
      subst hreq
      exact .of_same (entrySpared_setDomainColoDisable hspares) (dom_setDom_of_ne hspares _ _)
  | @failedOver domainName status role nd hreq hold hnew hrole =>
      subst hreq
      exact .of_same (.inl rfl) (dom_setDom_of_ne hspares _ _)
  | @peerSaved ds save nd hreq hsave =>
      subst hreq
      have hne : (mirrorDomain ds).name ≠ d := (mirrorDomain_name ds).trans_ne hspares
      exact .of_same (entrySpared_of_find hne (find_saveDomainInfo hsave d)) rfl
  | @peerStored ds save nd hreq hsave =>
      subst hreq
      have hne : (mirrorDomain ds).name ≠ d := (mirrorDomain_name ds).trans_ne hspares
      have hsaved : EntrySpared d nd.save save :=
        entrySpared_of_find hne (find_saveDomainInfo hsave d)
      exact .of_same (hsaved.trans (entrySpared_setDomainColoEnable hspares _))
        (dom_setDom_of_ne hspares _ _)

theorem undisturbed_define {path : String} (hspares : (Request.define path).Spares d nd) :
    (colodDefine path nd).Legs Node.Apart (Undisturbed d) (fun _ _ => True) nd := by
  unfold colodDefine
  split
  · exact .of_same (.refl d _) rfl
  · exact .of_same (.refl d _) rfl
  · rename_i defined nd' hvm
    obtain ⟨doc, hload, hparse, rfl⟩ := Node.vmDefine_eq_ok hvm
    obtain ⟨hne, hpath⟩ := hspares doc defined hload hparse
    have hwrote : Undisturbed d nd
        (nd.saveNewVmFile doc defined.name nd.currentStatus.hostFilePath) :=
      Node.of_saveNewVmFile_apart hpath fun _ => .of_same (.refl d _) rfl
    dsimp only
    split
    · exact hwrote
    · rename_i save hsave
      exact hwrote.trans (.of_same
        (entrySpared_of_find hne (find_saveDomainInfo hsave d)) (dom_setDom_of_ne hne _ _))

/-- A request about other domains leaves `d` where it is in each leg. -/
theorem handle_undisturbed (hspares : req.Spares d nd) :
    (handle env req nd).Legs Node.Apart (Undisturbed d) (fun _ _ => True) nd := by
  by_cases hdefine : ∃ path, req = .define path
  · obtain ⟨path, rfl⟩ := hdefine
    exact undisturbed_define hspares
  · have hne : ∀ path, req ≠ .define path := fun path heq => hdefine ⟨path, heq⟩
    refine (handle_moving env req nd).mono (fun first last hmoves => ?_) fun _ _ _ => trivial
    exact inv_of_moves (I := Undisturbed d first)
      (fun _ _ hkept hmove => hkept.trans (undisturbed_move hspares hne hmove))
      (.of_same (.refl d _) rfl) hmoves

/-- The same along any script, and killed in any wait. -/
theorem undisturbed_follow (hspares : req.Spares d nd) (script : Script) :
    Undisturbed d nd ((handle env req nd).follow Node.osAfter script).state :=
  Act.state_follow_of_legs (S := Undisturbed d) (fun h₁ h₂ => h₁.trans h₂)
    (fun events nd => Node.apart_osAfter nd events) (fun _ _ => .of_same (.refl d _) rfl)
    (fun _ _ h => h) (handle_undisturbed hspares) script

end

/-! ## Runs -/

/-- Requests of the run are about other domains. -/
def EventSpares (d : String) (server : Server) : ServerEvent → Prop
  | .request req _ _ => req.Spares d server.node
  | _ => True

theorem entrySpared_step {d : String} {server : Server} {event : ServerEvent}
    (hevent : EventSpares d server event) :
    EntrySpared d server.node.save (server.step event).node.save := by
  cases event with
  | request req env script =>
      rw [Server.node_step_request]
      split
      · exact (undisturbed_follow hevent script).entry
      · exact .refl d _
  | restart => exact .refl d _
  | os event => exact .refl d _
  | writeFile path doc =>
      by_cases hpath : path = defaultSaveFile
      · rw [Server.step, if_pos hpath]
        exact .refl d _
      · rw [Server.step, if_neg hpath, Node.writeFile, if_neg hpath]
        exact .refl d _

theorem recordSpared_step {d : String} {server : Server} {event : ServerEvent}
    (hevent : EventSpares d server event) (hup : event ≠ .restart) :
    RecordSpared d server.node (server.step event).node := by
  cases event with
  | request req env script =>
      rw [Server.node_step_request]
      split
      · exact (undisturbed_follow hevent script).record
      · exact .inl rfl
  | restart => exact absurd rfl hup
  | os event => exact .inl rfl
  | writeFile path doc =>
      by_cases hpath : path = defaultSaveFile
      · rw [Server.step, if_pos hpath]
        exact .inl rfl
      · rw [Server.step, if_neg hpath, Node.writeFile, if_neg hpath]
        exact .inl rfl

/-- In a run whose requests are about other domains the saved entry of a domain is left
alone or found shut off, and so is its record for as long as colod is not restarted. -/
theorem bystander_run {d : String} {server : Server} {events : List ServerEvent}
    (hrun : Along Server.step (EventSpares d) server events) :
    EntrySpared d server.node.save (events.foldl Server.step server).node.save ∧
      ((∀ event ∈ events, event ≠ .restart) →
        RecordSpared d server.node (events.foldl Server.step server).node) := by
  induction events generalizing server with
  | nil => exact ⟨.refl d _, fun _ => .inl rfl⟩
  | cons event events ih =>
      obtain ⟨hentry, hrecord⟩ := ih hrun.2
      refine ⟨(entrySpared_step hrun.1).trans hentry, ?_⟩
      intro hup
      obtain ⟨hfirst, hrest⟩ := List.forall_mem_cons.mp hup
      exact (recordSpared_step hrun.1 hfirst).trans (hrecord hrest)

theorem bystander_run_short :
    EntrySpared "e" (Server.boot .fresh).node.save
        (shortHistory.foldl Server.step (Server.boot .fresh)).node.save ∧
      ((∀ event ∈ shortHistory, event ≠ .restart) →
        RecordSpared "e" (Server.boot .fresh).node
          (shortHistory.foldl Server.step (Server.boot .fresh)).node) := by
  refine bystander_run ⟨?_, ⟨by decide, ?_⟩, trivial, trivial, trivial⟩
  · intro doc defined hload hparse
    have hsample : Node.fresh.rsInit.loadFile "/root/d.yaml" = some (sampleDefinition "d") := rfl
    obtain rfl : sampleDefinition "d" = doc := Option.some.inj (hsample.symm.trans hload)
    obtain rfl : sampleDomain "d" = defined :=
      Except.ok.inj ((vmConfigParse_sample "d").symm.trans hparse)
    exact ⟨by decide, by decide⟩
  · intro defined hget
    have hstored : ((Server.boot .fresh).step (.request (.define "/root/d.yaml")
        (.smooth 100) [])).node.getDomain "d" = .ok (sampleDomain "d") := by
      decide +kernel
    obtain rfl : sampleDomain "d" = defined := Except.ok.inj (hstored.symm.trans hget)
    decide

end ColoManage
