import ColoManage.RoundTrip

/-!
# What is accepted off the wire

A stream on which the reading of a request ends before the stream does begins with the
name of a bound function and arguments of its types, or with a name that is not bound.
The bytes are those that the call of the request writes, except that any byte but zero
stands for `true`.  The same holds of replies, whose message text is free.
-/

namespace ColoManage

open Decoding
open ArgType (Tuple)

/-- A `char` of the source. -/
def IsByte (c : Char) : Prop := c.toNat < 256

/-! ## Scalars and strings -/

theorem sound_outputType {α : Type} (len : ℕ) (ofBytes : ℕ → Option α) (t : α) :
    Sound IsByte (outputType len ofBytes t) fun bytes a =>
      ∃ n < 256 ^ len, ofBytes n = some a ∧ bytes = inputType len n where
  spelled := by
    intro stream rest a hok hrest h
    cases stream with
    | nil =>
        cases h
        exact absurd rfl hrest
    | cons c stream =>
        obtain ⟨⟨n, rest'⟩, hread, hvalue⟩ := Option.bind_eq_some_iff.mp h
        obtain ⟨value, hof, hpair⟩ := Option.bind_eq_some_iff.mp hvalue
        cases hpair
        obtain ⟨hn, hstream⟩ := readLittleEndian_sound Char.ofNat_toNat hok hread
        exact ⟨inputType len n, ⟨n, hn, hof, rfl⟩, hstream⟩
  ended := by
    intro rest a h
    cases h
    rfl

theorem sound_getInt (t : ℤ) :
    Sound IsByte (getInt t) fun bytes i => FitsInt i ∧ bytes = putInt i := by
  refine (sound_outputType 4 _ t).mono ?_
  rintro bytes i ⟨n, hn, hvalue, rfl⟩
  obtain rfl := Option.some.inj hvalue
  have hlow := BitVec.le_toInt (BitVec.ofNat 32 n)
  have hhigh := BitVec.toInt_lt (x := BitVec.ofNat 32 n)
  refine ⟨⟨by simpa using hlow, by simpa using hhigh⟩, ?_⟩
  have hmod : n % 2 ^ 32 = n := Nat.mod_eq_of_lt (by simpa using hn)
  rw [putInt, BitVec.ofInt_toInt, BitVec.toNat_ofNat, hmod]

/-- The bytes of a `bool`. -/
def SpellsBool (bytes : List Char) (b : Bool) : Prop :=
  ∃ c : Char, b = decide (c.toNat ≠ 0) ∧ bytes = [c]

theorem sound_getBool (t : Bool) : Sound IsByte (getBool t) SpellsBool := by
  refine (sound_outputType 1 _ t).mono ?_
  rintro bytes b ⟨n, hn, hvalue, rfl⟩
  obtain rfl := Option.some.inj hvalue
  have hmod : n % 256 = n := Nat.mod_eq_of_lt (by simpa using hn)
  have hnat : (Char.ofNat n).toNat = n := toNat_ofNat_byte (by simpa using hn)
  exact ⟨Char.ofNat n, by rw [hnat], by rw [inputType, littleEndian, hmod]; rfl⟩

theorem reads_getBool_of_spells {bytes : List Char} {b t : Bool} (h : SpellsBool bytes b) :
    Reads (getBool t) bytes b := by
  obtain ⟨c, rfl, rfl⟩ := h
  intro rest
  rfl

theorem sound_getEnum {α : Type} [DecidableEq α] {len : ℕ} {enumerators : List α}
    (hnodup : enumerators.Nodup) (t : α) :
    Sound IsByte (getEnum len enumerators t) fun bytes a =>
      bytes = putEnum len enumerators a := by
  refine (sound_outputType len _ t).mono ?_
  rintro bytes a ⟨n, hn, hvalue, rfl⟩
  obtain ⟨hlt, rfl⟩ := List.getElem?_eq_some_iff.mp hvalue
  rw [putEnum, hnodup.idxOf_getElem]

theorem isByte_putString {s : String} (h : ∀ c ∈ s.toList, IsByte c) :
    ∀ c ∈ putString s, IsByte c := by
  intro c hc
  have hlow : s.length % 65536 % 256 < 256 := by omega
  have hhigh : s.length % 65536 / 256 < 256 := by omega
  rcases List.mem_cons.mp hc with rfl | hc
  · rw [IsByte, toNat_ofNat_byte hlow]
    exact hlow
  · rcases List.mem_cons.mp hc with rfl | hc
    · rw [IsByte, toNat_ofNat_byte hhigh]
      exact hhigh
    · exact h c (List.mem_of_mem_take hc)

theorem sound_getString :
    Sound IsByte getString fun bytes s => ShortString s ∧ bytes = putString s where
  spelled := by
    intro stream rest s hok _ h
    match stream, h with
    | low :: high :: stream, h =>
        obtain ⟨hlow, hok⟩ := List.forall_mem_cons.mp hok
        obtain ⟨hhigh, -⟩ := List.forall_mem_cons.mp hok
        unfold IsByte at hlow hhigh
        rw [getString] at h
        split at h
        · rename_i hle
          cases h
          have hlength : (String.ofList (stream.take (low.toNat + 256 * high.toNat))).length =
              low.toNat + 256 * high.toNat := by
            rw [String.length_ofList, List.length_take, Nat.min_eq_left hle]
          have hmod : (low.toNat + 256 * high.toNat) % 65536 = low.toNat + 256 * high.toNat :=
            Nat.mod_eq_of_lt (by omega)
          have hfirst : (low.toNat + 256 * high.toNat) % 256 = low.toNat := by omega
          have hsecond : (low.toNat + 256 * high.toNat) / 256 = high.toNat := by omega
          refine ⟨_, ⟨?_, rfl⟩, ?_⟩
          · rw [ShortString, hlength]
            omega
          · rw [putString, hlength, hmod, hfirst, hsecond, Char.ofNat_toNat, Char.ofNat_toNat,
              String.toList_ofList, List.take_take, Nat.min_self, List.cons_append,
              List.cons_append, List.take_append_drop]
        · cases h
  ended := by
    intro rest s h
    cases h

theorem reads_getString_of_short {s : String} (h : ShortString s) :
    Reads getString (putString s) s := by
  have hread := reads_getString s
  rwa [wireString_of_lt h] at hread

/-! ## Records -/

theorem ColoStatus.sound (t : ColoStatus) :
    Sound IsByte t.get fun bytes cs => FitsInt cs.colodPort ∧ cs.Short ∧ bytes = cs.put := by
  refine (sound_getEnum (by decide) t.localStatus).bind fun localStatus _ => ?_
  refine (sound_getInt t.colodPort).bind fun colodPort _ => ?_
  refine sound_getString.bind fun hostIp _ => ?_
  refine sound_getString.bind fun hostUser _ => ?_
  refine sound_getString.bind fun hostFilePath _ => ?_
  refine sound_getString.bind fun peerIp _ => ?_
  refine sound_getString.bind fun peerUser _ => ?_
  refine sound_getString.bind fun peerFilePath _ => ?_
  refine .pure ?_
  rintro ⟨hpeerFilePath, rfl⟩ ⟨hpeerUser, rfl⟩ ⟨hpeerIp, rfl⟩ ⟨hhostFilePath, rfl⟩
    ⟨hhostUser, rfl⟩ ⟨hhostIp, rfl⟩ ⟨hport, rfl⟩ rfl
  exact ⟨hport, ⟨hhostIp, hhostUser, hhostFilePath, hpeerIp, hpeerUser, hpeerFilePath⟩,
    by rw [ColoStatus.put, List.append_nil]⟩

/-- As `ColodDomainStatus.put`, with any byte of the `bool`. -/
def ColodDomainStatus.Spells (bytes : List Char) (ds : ColodDomainStatus) : Prop :=
  FitsInt ds.pid ∧ ds.Short ∧ ∃ flag, SpellsBool flag ds.coloEnable ∧
    bytes = putInt ds.pid ++ (putString ds.name ++ (putEnum 4 DomainStatus.enumerators ds.status ++
      (flag ++ (putEnum 4 ColoDomainStatus.enumerators ds.coloStatus ++
        putString ds.configFilePath))))

theorem ColodDomainStatus.sound (t : ColodDomainStatus) : Sound IsByte t.get Spells := by
  refine (sound_getInt t.pid).bind fun pid _ => ?_
  refine sound_getString.bind fun name _ => ?_
  refine (sound_getEnum (by decide) t.status).bind fun status _ => ?_
  refine (sound_getBool t.coloEnable).bind fun coloEnable flag => ?_
  refine (sound_getEnum (by decide) t.coloStatus).bind fun coloStatus _ => ?_
  refine sound_getString.bind fun configFilePath _ => ?_
  refine .pure ?_
  rintro ⟨hpath, rfl⟩ rfl hflag rfl ⟨hname, rfl⟩ ⟨hpid, rfl⟩
  exact ⟨hpid, ⟨hname, hpath⟩, flag, hflag, by rw [List.append_nil]⟩

theorem ColodDomainStatus.reads_of_spells {ds t : ColodDomainStatus} {bytes : List Char}
    (h : ds.Spells bytes) : Reads t.get bytes ds := by
  obtain ⟨hpid, hshort, flag, hflag, rfl⟩ := h
  apply Reads.bind (reads_getInt hpid)
  apply Reads.bind (reads_getString_of_short hshort.name)
  apply Reads.bind (DomainStatus.reads ds.status t.status)
  apply Reads.bind (reads_getBool_of_spells hflag)
  apply Reads.bind (ColoDomainStatus.reads ds.coloStatus t.coloStatus)
  exact Reads.bind_pure (reads_getString_of_short hshort.configFilePath)

theorem ColodRetVal.sound (t : ColodRetVal) :
    Sound IsByte t.get fun bytes ret =>
      FitsInt ret.code ∧ ShortString ret.msg ∧ bytes = ret.put := by
  refine (sound_getInt t.code).bind fun code _ => ?_
  refine sound_getString.bind fun msg _ => ?_
  refine .pure ?_
  rintro ⟨hmsg, rfl⟩ ⟨hcode, rfl⟩
  exact ⟨hcode, hmsg, by rw [ColodRetVal.put, List.append_nil]⟩

/-! ## Argument tuples -/

namespace ArgType

def Spells : (t : ArgType) → List Char → t.Val → Prop
  | string, bytes, s => ShortString s ∧ bytes = putString s
  | bool, bytes, b => SpellsBool bytes b
  | int, bytes, i => FitsInt i ∧ bytes = putInt i
  | coloDomainStatus, bytes, cds => bytes = putEnum 4 ColoDomainStatus.enumerators cds
  | coloStatus, bytes, cs => FitsInt cs.colodPort ∧ cs.Short ∧ bytes = cs.put
  | colodDomainStatus, bytes, ds => ColodDomainStatus.Spells bytes ds

def SpellsAll : (ts : List ArgType) → List Char → Tuple ts → Prop
  | [], bytes, _ => bytes = []
  | t :: ts, bytes, (v, vs) =>
      ∃ first others, t.Spells first v ∧ SpellsAll ts others vs ∧ bytes = first ++ others

theorem sound (t : ArgType) : Sound IsByte t.get t.Spells := by
  cases t with
  | string => exact sound_getString
  | bool => exact sound_getBool default
  | int => exact sound_getInt 0
  | coloDomainStatus => exact sound_getEnum (by decide) default
  | coloStatus => exact ColoStatus.sound default
  | colodDomainStatus => exact ColodDomainStatus.sound default

theorem reads_of_spells (t : ArgType) {bytes : List Char} {v : t.Val} (h : t.Spells bytes v) :
    Reads t.get bytes v := by
  cases t with
  | string =>
      obtain ⟨hshort, rfl⟩ := h
      exact reads_getString_of_short hshort
  | bool => exact reads_getBool_of_spells h
  | int =>
      obtain ⟨hfits, rfl⟩ := h
      exact reads_getInt hfits
  | coloDomainStatus =>
      obtain rfl := h
      exact ColoDomainStatus.reads v default
  | coloStatus =>
      obtain ⟨hport, hshort, rfl⟩ := h
      have hread := ColoStatus.reads (t := default) hport
      rwa [ColoStatus.wire_of_short hshort] at hread
  | colodDomainStatus => exact ColodDomainStatus.reads_of_spells h

theorem sound_getTuple (ts : List ArgType) : Sound IsByte (getTuple ts) (SpellsAll ts) := by
  induction ts with
  | nil => exact .pure rfl
  | cons t ts ih =>
      refine t.sound.bind fun v first => ?_
      refine ih.bind fun vs others => ?_
      refine .pure fun hothers hfirst => ?_
      exact ⟨first, others, hfirst, hothers, by rw [List.append_nil]⟩

theorem reads_getTuple_of_spells (ts : List ArgType) {bytes : List Char} {vs : Tuple ts}
    (h : SpellsAll ts bytes vs) : Reads (getTuple ts) bytes vs := by
  induction ts generalizing bytes with
  | nil =>
      obtain rfl := h
      exact Reads.pure ()
  | cons t ts ih =>
      obtain ⟨first, others, hfirst, hothers, rfl⟩ := h
      apply Reads.bind (t.reads_of_spells hfirst)
      exact Reads.bind_pure (f := fun rest => (vs.1, rest)) (ih hothers)

end ArgType

/-! ## Requests -/

def RpcCall.Spells (call : RpcCall) (bytes : List Char) : Prop :=
  ∃ tuple, ArgType.SpellsAll call.argTypes tuple call.args ∧ bytes = putString call.name ++ tuple

/-- A message for colod: a call of a bound function, or a name that is not bound. -/
def SpellsRequest (bytes : List Char) : Except RpcErrCode Request → Prop
  | .ok request => request.call.Spells bytes
  | .error code => code = .functionNotBind ∧
      ∃ name, ShortString name ∧ name ∉ serverInit.map Prod.fst ∧ bytes = putString name

/-- Each name is bound to the function that the name calls. -/
theorem call_invoke : ∀ row ∈ serverInit, ∀ args : Tuple row.2.argTypes,
    (row.2.invoke args).call = ⟨row.1, row.2.argTypes, args⟩ := by
  simp only [serverInit, List.forall_mem_cons, List.not_mem_nil, false_implies, implies_true,
    and_true]
  and_intros
  all_goals exact fun args => rfl

theorem sound_callHandler (name : String) :
    Sound IsByte (callHandler name) fun bytes result =>
      ShortString name → SpellsRequest (putString name ++ bytes) result := by
  unfold callHandler
  cases hlookup : serverInit.lookup name with
  | none =>
      refine .pure fun hname => ⟨rfl, name, hname, ?_, List.append_nil _⟩
      intro hbound
      obtain ⟨row, hrow, rfl⟩ := List.mem_map.mp hbound
      simpa using List.lookup_eq_none_iff.mp hlookup row hrow
  | some binding =>
      obtain ⟨before, after, hrows, -⟩ := List.lookup_eq_some_iff.mp hlookup
      have hrow : (name, binding) ∈ serverInit := by
        rw [hrows]
        exact List.mem_append_right _ List.mem_cons_self
      refine (ArgType.sound_getTuple binding.argTypes).bind fun args tuple => ?_
      refine .pure fun htuple _ => ?_
      have hcall := call_invoke (name, binding) hrow args
      rw [SpellsRequest, hcall]
      exact ⟨tuple, htuple, by rw [List.append_nil]⟩

theorem sound_readRequest : Sound IsByte readRequest SpellsRequest := by
  refine sound_getString.bind fun name first => ?_
  refine (sound_callHandler name).mono fun bytes result h => ?_
  rintro ⟨hname, rfl⟩
  exact h hname

theorem reads_readRequest_of_spells {bytes : List Char} {result : Except RpcErrCode Request}
    (h : SpellsRequest bytes result) : Reads readRequest bytes result := by
  cases result with
  | ok request =>
      obtain ⟨tuple, htuple, rfl⟩ := h
      have hname : wireString request.call.name = request.call.name :=
        wireString_serverInit request.call.name (bound_call request)
      have hread : Reads (callHandler request.call.name) tuple (.ok request) := by
        have hargs := ArgType.reads_getTuple_of_spells request.call.argTypes htuple
        cases request <;> exact Reads.bind_pure hargs
      apply Reads.bind (reads_getString request.call.name)
      rw [hname]
      exact hread
  | error code =>
      obtain ⟨rfl, name, hshort, hunbound, rfl⟩ := h
      have hlookup : serverInit.lookup name = none := by
        rw [List.lookup_eq_none_iff]
        intro row hrow
        simp only [bne_iff_ne]
        rintro rfl
        exact hunbound (List.mem_map_of_mem hrow)
      have hhandler : Reads (callHandler name) [] (.error .functionNotBind) := by
        rw [callHandler, hlookup]
        exact Reads.pure _
      have hread := Reads.bind (reads_getString_of_short hshort) hhandler
      rwa [List.append_nil] at hread

/-! ## Replies -/

/-- A reply, with any text for `msg_`. -/
def SpellsReply (bytes : List Char) (ret : ValueT) : Prop :=
  ∃ msg value, ShortString msg ∧
    bytes = putEnum 2 RpcErrCode.enumerators ret.code ++ (putString msg ++ value) ∧
    if ret.code = .success then
      FitsInt ret.val.code ∧ ShortString ret.val.msg ∧ value = ret.val.put
    else ret.val = ⟨0, ""⟩ ∧ value = []

theorem sound_valueT : Sound IsByte ValueT.get SpellsReply := by
  refine (sound_getEnum (by decide) RpcErrCode.success).bind fun code _ => ?_
  refine sound_getString.bind fun msg _ => ?_
  split
  · rename_i hcode
    refine (ColodRetVal.sound ⟨0, ""⟩).bind fun val _ => ?_
    refine .pure ?_
    rintro ⟨hfits, hval, rfl⟩ ⟨hmsg, rfl⟩ rfl
    refine ⟨msg, val.put, hmsg, by rw [List.append_nil], ?_⟩
    rw [if_pos hcode]
    exact ⟨hfits, hval, rfl⟩
  · rename_i hcode
    refine .pure ?_
    rintro ⟨hmsg, rfl⟩ rfl
    refine ⟨msg, [], hmsg, rfl, ?_⟩
    rw [if_neg hcode]
    exact ⟨rfl, rfl⟩

theorem reads_valueT_of_spells {bytes : List Char} {ret : ValueT} (h : SpellsReply bytes ret) :
    Reads ValueT.get bytes ret := by
  obtain ⟨msg, value, hmsg, rfl, hvalue⟩ := h
  apply Reads.bind (RpcErrCode.reads ret.code .success)
  apply Reads.bind (reads_getString_of_short hmsg)
  split at hvalue
  · rename_i hcode
    obtain ⟨hfits, hval, rfl⟩ := hvalue
    have hread := ColodRetVal.reads (t := ⟨0, ""⟩) hfits
    rw [ColodRetVal.wire_of_short hval] at hread
    rw [if_pos hcode]
    exact Reads.bind_pure (f := fun val => (⟨ret.code, val⟩ : ValueT)) hread
  · rename_i hcode
    obtain ⟨hval, rfl⟩ := hvalue
    rw [if_neg hcode, ← hval]
    exact Reads.pure ret

/-! ## Messages -/

/-- What is read off a stream, and not to its end, is a message of the grammar, and each
message of the grammar is read as what it spells. -/
theorem accepted_messages {stream rest : List Char} (hbytes : ∀ c ∈ stream, IsByte c)
    (hrest : rest ≠ []) :
    (∀ result, readRequest stream = some (result, rest) ↔
      ∃ bytes, SpellsRequest bytes result ∧ stream = bytes ++ rest) ∧
    ∀ ret, ValueT.get stream = some (ret, rest) ↔
      ∃ bytes, SpellsReply bytes ret ∧ stream = bytes ++ rest :=
  ⟨sound_readRequest.iff (fun _ _ => reads_readRequest_of_spells) hbytes hrest,
    sound_valueT.iff (fun _ _ => reads_valueT_of_spells) hbytes hrest⟩

/-- A `list` whose flag is the byte 7, and the byte that `net_call` adds. -/
theorem accepted_messages_list :
    readRequest (putString "list" ++ [Char.ofNat 7] ++ ['x']) = some (.ok (.list true), ['x']) := by
  have hbytes : ∀ c ∈ putString "list" ++ [Char.ofNat 7] ++ ['x'], IsByte c := by
    refine List.forall_mem_append.mpr ⟨List.forall_mem_append.mpr ⟨?_, ?_⟩, ?_⟩
    · exact isByte_putString (by simp [IsByte])
    · simp [IsByte]
    · simp [IsByte]
  have hspells : SpellsRequest (putString "list" ++ [Char.ofNat 7]) (.ok (.list true)) :=
    ⟨[Char.ofNat 7], ⟨[Char.ofNat 7], [], ⟨Char.ofNat 7, by decide, rfl⟩, rfl, rfl⟩, rfl⟩
  exact ((accepted_messages hbytes (by simp)).1 _).mpr ⟨_, hspells, rfl⟩

end ColoManage
