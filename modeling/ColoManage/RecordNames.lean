import ColoManage.Coherence
import ColoManage.Guarantees
import ColoManage.Roles

/-!
# The name in a record

`rs.domains` is a map from names to records that carry a name themselves.  A record that
`operator[]` has made by itself carries none; every other one has the name that it is
stored under, on both nodes and in every run.
-/

namespace ColoManage

open Resumption EventSystem

/-- A record has its own name, or none. -/
def Node.Named (nd : Node) : Prop :=
  ∀ name, (nd.dom name).name = name ∨ (nd.dom name).name = ""

section

variable {nd nd' start first : Node} {env : Env} {req : Request} {ds : ColodDomainStatus}

theorem Node.Named.congr (h : nd.Named) (hdom : ∀ name, nd'.dom name = nd.dom name) :
    nd'.Named := by
  intro name
  rw [hdom]
  exact h name

theorem Node.Named.update (h : nd.Named) {name : String}
    (hdom : ∀ other, nd'.dom other = if other = name then ds else nd.dom other)
    (hname : ds.name = name ∨ ds.name = "") : nd'.Named := by
  intro other
  rw [hdom]
  split
  · rename_i heq
    rw [heq]
    exact hname
  · exact h other

theorem named_move (h : nd.Named) (hmove : Move env req start nd nd') : nd'.Named := by
  cases hmove with
  | talked htalked => exact h.congr (Node.dom_of_domains_eq htalked.domains)
  | touched domainName => exact h.congr fun name => Node.dom_touch domainName name nd
  | swept hdead => exact h.update (fun other => dom_swept _ other nd) (h _)
  | wrote hreq hload hparse hfile =>
      unfold Node.writeFile
      split
      · exact h
      · exact h
  | defined hreq hpid hstatus henable hsave =>
      exact h.update (fun other => Node.dom_setDom _ other _ _) (.inl rfl)
  | undefined hreq => exact h.update (fun other => dom_erased _ other nd) (.inr rfl)
  | launched hreq henable hget hfork hstatus =>
      exact h.update (fun other => Node.dom_setDom _ other _ _) (h _)
  | forkFailed hreq => exact h.update (fun other => Node.dom_setDom _ other _ _) (h _)
  | killed hreq hpid hevents hstarted hsave =>
      exact h.update (fun other => Node.dom_setDom _ other _ _) (h _)
  | flagged value role hreq => exact h.update (fun other => Node.dom_setDom _ other _ _) (h _)
  | disabled hreq => exact h.update (fun other => Node.dom_setDom _ other _ _) (h _)
  | failedOver hreq hold hnew hrole =>
      exact h.update (fun other => Node.dom_setDom _ other _ _) (h _)
  | peerStored hreq hsave =>
      exact h.update (fun other => Node.dom_setDom _ other _ _) (.inl (mirrorDomain_name _))
  | _ => exact h

theorem named_moves (h : first.Named) (hmoves : Moves env req start first nd) : nd.Named :=
  inv_of_moves (fun _ _ => named_move) h hmoves

theorem named_rsInit (nd : Node) : nd.rsInit.Named := by
  intro name
  cases hlookup : nd.rsInit.domains.lookup name with
  | none =>
      rw [Node.dom, hlookup]
      exact .inr rfl
  | some ds =>
      obtain ⟨entry, -, rfl, rfl⟩ := entry_of_lookup_domainsInit hlookup
      rw [Node.dom_eq_of_lookup hlookup]
      exact .inl rfl

end

/-! ## Runs of the net -/

theorem Node.Named.apart {nd nd' : Node} (h : nd.Named) (hapart : nd.Apart nd') : nd'.Named := by
  obtain ⟨os, files, rfl⟩ := hapart
  exact h.congr fun _ => rfl

theorem handle_named (env : Env) (req : Request) {nd : Node} (h : nd.Named) (x : NodeId) :
    Guards (fun _ nd => nd.Named) (fun _ _ => True) x (handle env req nd) := by
  have hlegs := (handle_moving env req nd).inv (I := Node.Named)
    (fun _ _ hnamed hmoves => named_moves hnamed hmoves) (fun _ _ hnamed hapart =>
      hnamed.apart hapart) h
  exact .of_legs (hlegs.mono (fun _ _ hnamed => hnamed) fun _ _ _ => trivial)

/-- A party whose records are named. -/
abbrev Party.Named (x : NodeId) (p : Party) : Prop :=
  p.Guarded (fun _ nd => nd.Named) (fun _ _ => True) (fun _ => True) x

theorem named_step {net : Net} (h : ∀ y, (net.party y).Named y) (event : NetEvent) (y : NodeId) :
    ((net.step event).party y).Named y := by
  have hguard : Guard (fun _ nd => nd.Named) (fun _ _ => True) fun _ => True :=
    ⟨fun _ _ _ hnamed hapart => hnamed.apart hapart, fun _ _ _ => trivial⟩
  exact guarded_step hguard h
    ⟨fun x req _ env => handle_named env req (h x).node x, fun _ _ => named_rsInit _⟩ y

theorem named_boot (nd : NodeId → Node) (y : NodeId) : ((Net.boot nd).party y).Named y :=
  guarded_boot (fun y => named_rsInit (nd y)) y

end ColoManage
