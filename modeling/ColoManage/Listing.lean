import ColoManage.RestartFidelity
import ColoManage.RoundTrip
import Mathlib.Algebra.Order.BigOperators.Group.List
import Mathlib.Algebra.Group.Action.Defs

/-!
# Listing many domains

The text of `colod_list` is one line and one block for each listed record, so
its length is a sum over the table.  The reply carries the length in sixteen
bits: the client reads the whole text exactly as long as that sum stays below
65536.
-/

namespace ColoManage

open Decoding

/-- What `colod_list` makes of `ret_val` at a record it shows. -/
def appendBlock (retVal : String) (ds : ColodDomainStatus) : String :=
  retVal
    ++ "       name : " ++ ds.name ++ "\n"
    ++ "     status : " ++ domainStatusToStr ds.status ++ "\n"
    ++ "       path : " ++ ds.configFilePath ++ "\n"
    ++ (if ds.coloEnable then
          "colo enable : on\n" ++
            "colo status : " ++ coloDomainStatusToStr ds.coloStatus ++ "\n"
        else "colo enable : off\n")
    ++ separator

def blockLength (ds : ColodDomainStatus) : ℕ :=
  ds.name.length + (domainStatusToStr ds.status).length + ds.configFilePath.length +
    if ds.coloEnable then 121 + (coloDomainStatusToStr ds.coloStatus).length else 107

namespace Node

/-- The record of a domain after `test_domain_status`. -/
def tested (nd : Node) (name : String) : ColodDomainStatus :=
  (nd.testDomainStatus name).2.dom name

/-- The loop does not skip the domain. -/
def lists (showAll : Bool) (nd : Node) (name : String) : Bool :=
  !(!showAll && (nd.tested name).status == .shutOff)

/-- The length of what `colod_list` returns, from the records it shows. -/
def listLength (showAll : Bool) (nd : Node) : ℕ :=
  if nd.domains.keys = [] then 18
  else
    44 + ((nd.domains.keys.filter (nd.lists showAll)).map
      fun name => blockLength (nd.tested name)).sum

end Node

theorem length_appendBlock (retVal : String) (ds : ColodDomainStatus) :
    (appendBlock retVal ds).length = retVal.length + blockLength ds := by
  have hname : "       name : ".length = 14 := by decide +kernel
  have hstatus : "     status : ".length = 14 := by decide +kernel
  have hpath : "       path : ".length = 14 := by decide +kernel
  have hnewline : "\n".length = 1 := by decide +kernel
  have hon : "colo enable : on\n".length = 17 := by decide +kernel
  have hcolo : "colo status : ".length = 14 := by decide +kernel
  have hoff : "colo enable : off\n".length = 18 := by decide +kernel
  have hseparator : separator.length = 44 := by decide +kernel
  unfold appendBlock blockLength
  cases hcase : ds.coloEnable
  · simp only [String.length_append, Bool.false_eq_true, if_false]
    omega
  · simp only [String.length_append, if_true]
    omega

/-! ## The loop -/

namespace Node

theorem foundDead_testDomainStatus {name other : String} (nd : Node) (h : other ≠ name) :
    (nd.testDomainStatus name).2.FoundDead other ↔ nd.FoundDead other := by
  have hdom : (nd.testDomainStatus name).2.dom other = nd.dom other := by
    unfold dom
    rw [lookup_testDomainStatus, if_neg h]
  rw [FoundDead, FoundDead, hdom, testDomainStatus_os]

/-- Testing one domain leaves the tests of the others as they are. -/
theorem tested_testDomainStatus {name other : String} (nd : Node) (h : other ≠ name) :
    (nd.testDomainStatus name).2.tested other = nd.tested other := by
  have hdom : (nd.testDomainStatus name).2.dom other = nd.dom other := by
    unfold dom
    rw [lookup_testDomainStatus, if_neg h]
  rw [tested, tested, dom_testDomainStatus, dom_testDomainStatus, hdom]
  by_cases hdead : nd.FoundDead other
  · rw [if_pos hdead, if_pos ((foundDead_testDomainStatus nd h).mpr hdead)]
  · rw [if_neg hdead, if_neg (mt (foundDead_testDomainStatus nd h).mp hdead)]

end Node

theorem lists_testDomainStatus {name other : String} (showAll : Bool) (nd : Node)
    (h : other ≠ name) : (nd.testDomainStatus name).2.lists showAll other = nd.lists showAll other := by
  rw [Node.lists, Node.lists, Node.tested_testDomainStatus nd h]

theorem colodListLoop_cons (showAll : Bool) (key : String) (keys : List String) (retVal : String)
    (nd : Node) :
    colodListLoop showAll (key :: keys) retVal nd =
      if !showAll && (nd.tested key).status == .shutOff then
        colodListLoop showAll keys retVal (nd.testDomainStatus key).2
      else
        colodListLoop showAll keys (appendBlock retVal (nd.tested key))
          (nd.testDomainStatus key).2 := by
  rw [colodListLoop]
  rfl

/-- The loop appends the blocks of the domains it does not skip, in the order of
the table. -/
theorem text_colodListLoop (showAll : Bool) (keys : List String) (retVal : String) (nd : Node)
    (hkeys : keys.Nodup) :
    (colodListLoop showAll keys retVal nd).1 =
      ((keys.filter (nd.lists showAll)).map nd.tested).foldl appendBlock retVal := by
  induction keys generalizing retVal nd with
  | nil => rfl
  | cons key keys ih =>
      have hother : ∀ other ∈ keys, other ≠ key := by
        rintro other hmem rfl
        exact (List.nodup_cons.mp hkeys).1 hmem
      have hfilter : keys.filter ((nd.testDomainStatus key).2.lists showAll) =
          keys.filter (nd.lists showAll) := by
        apply List.filter_congr
        intro other hmem
        exact lists_testDomainStatus showAll nd (hother other hmem)
      have hmap : (keys.filter (nd.lists showAll)).map (nd.testDomainStatus key).2.tested =
          (keys.filter (nd.lists showAll)).map nd.tested := by
        apply List.map_congr_left
        intro other hmem
        exact Node.tested_testDomainStatus nd (hother other (List.mem_of_mem_filter hmem))
      have ihnext := fun text : String =>
        ih text (nd.testDomainStatus key).2 (List.nodup_cons.mp hkeys).2
      rw [hfilter, hmap] at ihnext
      by_cases hskip : (!showAll && (nd.tested key).status == .shutOff) = true
      · have hlists : ¬ nd.lists showAll key = true := by
          rw [Node.lists, hskip]
          decide
        rw [colodListLoop_cons, if_pos hskip, ihnext, List.filter_cons_of_neg hlists]
      · have hlists : nd.lists showAll key = true := by
          rw [Node.lists, Bool.eq_false_of_not_eq_true hskip]
          rfl
        rw [colodListLoop_cons, if_neg hskip, ihnext, List.filter_cons_of_pos hlists]
        rfl

theorem length_foldl_appendBlock (records : List ColodDomainStatus) (retVal : String) :
    (records.foldl appendBlock retVal).length =
      retVal.length + (records.map blockLength).sum := by
  induction records generalizing retVal with
  | nil => rfl
  | cons ds records ih =>
      rw [List.foldl_cons, ih, length_appendBlock, List.map_cons, List.sum_cons, Nat.add_assoc]

theorem length_colodListLoop (showAll : Bool) (keys : List String) (retVal : String) (nd : Node)
    (hkeys : keys.Nodup) :
    (colodListLoop showAll keys retVal nd).1.length = retVal.length +
      ((keys.filter (nd.lists showAll)).map fun name => blockLength (nd.tested name)).sum := by
  rw [text_colodListLoop showAll keys retVal nd hkeys, length_foldl_appendBlock, List.map_map]
  rfl

theorem length_colodList (showAll : Bool) (nd : Node) :
    ∃ msg nd', colodList showAll nd = .done ⟨0, msg⟩ nd' ∧ msg.length = nd.listLength showAll := by
  by_cases hkeys : nd.domains.keys = []
  · refine ⟨"no defined domain.", nd, if_pos hkeys, ?_⟩
    rw [Node.listLength, if_pos hkeys]
    decide +kernel
  · refine ⟨_, _, if_neg hkeys, ?_⟩
    have hseparator : separator.length = 44 := by decide +kernel
    rw [length_colodListLoop showAll _ _ _ (AList.keys_nodup _), hseparator, Node.listLength,
      if_neg hkeys]

/-! ## At the client -/

/-- What the client finds in the bytes of a reply. -/
def clientReads (ret : ColodRetVal) (trailing : List Char) : Option ValueT :=
  (ValueT.get (putReply ret ++ trailing)).map Prod.fst

theorem clientReads_eq {ret : ColodRetVal} (hcode : FitsInt ret.code) (trailing : List Char) :
    clientReads ret trailing = some (ValueT.answer ret) := by
  rw [clientReads, reads_putReply hcode trailing, Option.map_some]

theorem text_reaches_client_iff (msg : String) (trailing : List Char) :
    (clientReads ⟨0, msg⟩ trailing).map (fun reply => reply.val.msg) = some msg ↔
      msg.length < 65536 := by
  have hcode : FitsInt (ColodRetVal.mk 0 msg).code := ⟨by simp, by simp⟩
  rw [clientReads_eq hcode trailing, ← wireString_eq_iff]
  exact Option.some_inj

/-- The text of a list request reaches the client exactly when the records it
shows make fewer than 65536 bytes. -/
theorem list_reaches_client_iff (showAll : Bool) (nd : Node) (trailing : List Char) :
    (∃ ret nd', colodList showAll nd = .done ret nd' ∧
        (clientReads ret trailing).map (fun reply => reply.val.msg) = some ret.msg) ↔
      nd.listLength showAll < 65536 := by
  obtain ⟨msg, nd', hlist, hlength⟩ := length_colodList showAll nd
  rw [← hlength, ← text_reaches_client_iff msg trailing]
  constructor
  · rintro ⟨ret, nd'', hdone, hmsg⟩
    rw [hlist] at hdone
    injection hdone with hret
    rwa [← hret] at hmsg
  · intro hmsg
    exact ⟨⟨0, msg⟩, nd', hlist, hmsg⟩

theorem le_listLength {nd : Node} (h : nd.domains.keys ≠ []) :
    nd.domains.keys.length * 107 ≤ nd.listLength true := by
  have hall : nd.domains.keys.filter (nd.lists true) = nd.domains.keys := by
    apply List.filter_eq_self.mpr
    intro name _
    rfl
  have hblocks := List.card_nsmul_le_sum
    (nd.domains.keys.map fun name => blockLength (nd.tested name)) 107 (by
      intro length hlength
      obtain ⟨name, -, rfl⟩ := List.mem_map.mp hlength
      unfold blockLength
      split <;> omega)
  rw [Node.listLength, if_neg h, hall]
  rw [List.length_map, smul_eq_mul] at hblocks
  omega

/-! ## Seven hundred domains -/

def crowdedSave : SaveFile where
  saveStatus := none
  domains := .seq ((List.range 700).map fun i =>
    { name := i.repr, path := "/usr/local/etc/colod/" ++ i.repr ++ ".yaml", pid := -1,
      status := "shutoff", coloEnable := false, coloStatus := "none" })

/-- colod started on a save file with seven hundred definitions. -/
def crowdedNode : Node := { Node.fresh with save := crowdedSave }.rsInit

theorem repr_injective : Function.Injective Nat.repr := by
  intro i j h
  have hdigits : Nat.toDigits 10 i = Nat.toDigits 10 j := String.ofList_injective h
  have hvalue := congrArg (fun digits => Nat.ofDigitChars 10 digits 0) hdigits
  simpa only [Nat.ofDigitChars_ten_toDigits] using hvalue

theorem length_keys_rsInit {nd : Node} {sf : SaveFile} (hsave : nd.save = sf)
    (h : sf.names.Nodup) : nd.rsInit.domains.keys.length = sf.names.length := by
  subst hsave
  exact (keys_domainsInit_perm h).length_eq

theorem length_keys_crowdedNode : crowdedNode.domains.keys.length = 700 := by
  have hnames : crowdedSave.names = (List.range 700).map Nat.repr := by
    simp [crowdedSave, SaveFile.names, DomainsNode.entries, Function.comp_def]
  have hnodup : crowdedSave.names.Nodup := by
    rw [hnames]
    exact List.nodup_range.map repr_injective
  have hlength : crowdedNode.domains.keys.length = crowdedSave.names.length := by
    apply length_keys_rsInit
    · rfl
    · exact hnodup
  rw [hlength, hnames, List.length_map, List.length_range]

theorem not_list_reaches_client_crowded :
    ¬ ∃ ret nd', colodList true crowdedNode = .done ret nd' ∧
      (clientReads ret []).map (fun reply => reply.val.msg) = some ret.msg := by
  rintro ⟨ret, nd', hdone, hmsg⟩
  obtain ⟨msg, nd'', hlist, hlength⟩ := length_colodList true crowdedNode
  rw [hlist] at hdone
  injection hdone with hret
  rw [← hret, text_reaches_client_iff, hlength] at hmsg
  have hkeys : crowdedNode.domains.keys ≠ [] := by
    intro hempty
    have hzero := length_keys_crowdedNode
    simp [hempty] at hzero
  have hle := le_listLength hkeys
  rw [length_keys_crowdedNode] at hle
  omega

end ColoManage
