import ColoManage.FailoverRetry

/-!
# What a zero from `send_qmp_cmds` means

A monitor socket is a stream of bytes, and a `recv` cuts off what it finds of it.  The
loop looks at the sign of what `send` and `recv` return and at nothing else.  A `send`
that takes part of a command counts as sent; an end of the stream, or the rest of a
greeting, counts as a reply; and a `recv` below zero throws before its sign is looked at.
-/

namespace ColoManage

/-! ## The stream of a monitor -/

/-- The buffer of `qmp_recv`. -/
def recvBuffer : ℕ := 512

/-- What a VM says on its monitor, and how the system calls turn out.  `unasked i` comes
before the reply to command number `i`, so the greeting is in `unasked 0`.  By `recv`
number `n` `recvs n` bytes have come and are not taken yet; it is `none` where the
`recv` returns below zero. -/
structure QmpSocket where
  connects : Bool
  unasked : ℕ → String
  reply : ℕ → String
  sends : ℕ → QmpSend
  recvs : ℕ → Option ℕ

namespace QmpSocket

/-- All that the VM says before its reply to command number `n`. -/
def said (socket : QmpSocket) : ℕ → List Char
  | 0 => (socket.unasked 0).toList
  | n + 1 => socket.said n ++ (socket.reply n).toList ++ (socket.unasked (n + 1)).toList

/-- What the first `n` calls of `recv` take from the stream. -/
def received (socket : QmpSocket) : ℕ → List Char
  | 0 => []
  | n + 1 =>
      socket.received n ++
        ((socket.said n).drop (socket.received n).length).take
          (min recvBuffer ((socket.recvs n).getD 0))

def recv (socket : QmpSocket) (n : ℕ) : QmpRecv :=
  match socket.recvs n with
  | none => .error
  | some _ => .data (String.ofList ((socket.received (n + 1)).drop (socket.received n).length))

/-- Command number `i` is sent before `recv` number `i + 1`. -/
def script (socket : QmpSocket) : QmpScript where
  connects := socket.connects
  greeting := socket.recv 0
  exchange := fun i => (socket.sends i, socket.recv (i + 1))

/-- How much of the reply to command number `i` is among the first `count` bytes. -/
def heard (socket : QmpSocket) (i count : ℕ) : ℕ :=
  min (count - (socket.said i).length) (socket.reply i).length

/-- What is taken is the beginning of what has been said. -/
theorem received_isPrefix (socket : QmpSocket) (n : ℕ) :
    socket.received (n + 1) <+: socket.said n := by
  induction n with
  | zero => exact List.take_prefix _ _
  | succ n ih =>
      have hgrows : socket.received (n + 1) <+: socket.said (n + 1) :=
        ih.trans ((List.prefix_append _ _).trans (List.prefix_append _ _))
      obtain ⟨rest, hrest⟩ := hgrows
      rw [received, ← hrest, List.drop_left]
      exact (List.prefix_append_right_inj _).mpr (List.take_prefix _ _)

theorem length_received_succ (socket : QmpSocket) (n : ℕ) :
    (socket.received (n + 1)).length =
      (socket.received n).length +
        ((socket.received (n + 1)).drop (socket.received n).length).length := by
  rw [received, List.drop_left, List.length_append]

end QmpSocket

/-! ## The exchange, move by move -/

inductive QmpMove
  | sent (text : String)
  | received (text : String)
  deriving DecidableEq, Repr

/-- Every command goes out whole, in order, and a part of its own reply comes back before
the next one, of `need i` bytes at least.  `got` counts the bytes that have come. -/
inductive Answered (socket : QmpSocket) (need : ℕ → ℕ) :
    ℕ → ℕ → List String → List QmpMove → Prop
  | nil {i got : ℕ} : Answered socket need i got [] []
  | cons {i got : ℕ} {cmd text : String} {cmds : List String} {moves : List QmpMove} :
      max 1 (need i) ≤ socket.heard i (got + text.length) →
      Answered socket need (i + 1) (got + text.length) cmds moves →
        Answered socket need i got (cmd :: cmds) (.sent cmd :: .received text :: moves)

/-- The same, after the `recv` that waits for the greeting. -/
def AnsweredAll (socket : QmpSocket) (need : ℕ → ℕ) (cmds : List String)
    (moves : List QmpMove) : Prop :=
  ∃ text rest, moves = .received text :: rest ∧ Answered socket need 0 text.length cmds rest

def QmpMove.effect : QmpMove → Option Effect
  | .sent text => some (.qmp qmpPort text)
  | .received _ => none

namespace Node

/-- The moves of `send_qmp_cmds` in its loop, from command number `i` on. -/
def qmpMoves (exchange : ℕ → QmpSend × QmpRecv) : ℕ → List String → List QmpMove
  | _, [] => []
  | i, cmd :: cmds =>
      match exchange i with
      | (.error, _) => []
      | (.broken, _) => []
      | (.sent count, .error) => [.sent (String.ofList (cmd.toList.take count))]
      | (.sent count, .data reply) =>
          .sent (String.ofList (cmd.toList.take count)) :: .received reply ::
            qmpMoves exchange (i + 1) cmds

def qmpScriptMoves (script : QmpScript) (cmds : List String) : List QmpMove :=
  if script.connects then
    match script.greeting with
    | .error => []
    | .data text => .received text :: qmpMoves script.exchange 0 cmds
  else []

end Node

/-- The exchange ends normally; its moves are the ones in the log; the code is
`0` after a whole exchange, and negative otherwise. -/
def SoundExchange (env : Env) (socket : QmpSocket) (need : ℕ → ℕ) (cmds : List String)
    (nd : Node) : Prop :=
  ∃ ret nd', nd.sendQmpCmds { env with qmp := socket.script } cmds = .ok (ret, nd') ∧
    nd'.log = nd.log ++
      (Node.qmpScriptMoves socket.script cmds).filterMap QmpMove.effect ∧
    (ret = 0 ∧ AnsweredAll socket need cmds (Node.qmpScriptMoves socket.script cmds) ∨ ret < 0)

/-- `send` takes the whole command, and by the `recv` after it enough of its reply has come
and been taken. -/
structure QmpSocket.ServesCmd (socket : QmpSocket) (need : ℕ → ℕ) (i : ℕ) (cmd : String) :
    Prop where
  whole : ∃ count, socket.sends i = .sent count ∧ cmd.length ≤ count
  comes : (socket.recvs (i + 1)).isSome = true
  enough : max 1 (need i) ≤ socket.heard i (socket.received (i + 2)).length

structure QmpSocket.Serves (socket : QmpSocket) (need : ℕ → ℕ) (cmds : List String) : Prop where
  connects : socket.connects = true
  greets : (socket.recvs 0).isSome = true
  serves : ∀ i (h : i < cmds.length), socket.ServesCmd need i cmds[i]

/-! ## The moves and the texts -/

theorem qmpMoves_effects (exchange : ℕ → QmpSend × QmpRecv) (i : ℕ) (cmds : List String) :
    (Node.qmpMoves exchange i cmds).filterMap QmpMove.effect =
      (Node.qmpTexts exchange i cmds).map (.qmp qmpPort) := by
  induction cmds generalizing i with
  | nil => rfl
  | cons cmd cmds ih =>
      unfold Node.qmpMoves Node.qmpTexts
      rcases exchange i with ⟨send, recv⟩
      cases send with
      | error => rfl
      | broken => rfl
      | sent count =>
          cases recv with
          | error => rfl
          | data reply =>
              simp [List.filterMap_cons, QmpMove.effect, ih]

theorem qmpScriptMoves_effects (script : QmpScript) (cmds : List String) :
    (Node.qmpScriptMoves script cmds).filterMap QmpMove.effect =
      (Node.qmpScriptTexts script cmds).map (.qmp qmpPort) := by
  unfold Node.qmpScriptMoves Node.qmpScriptTexts
  by_cases hconnects : script.connects = true
  · rw [if_pos hconnects, if_pos hconnects]
    cases script.greeting with
    | error => rfl
    | data text =>
        rw [List.filterMap_cons]
        exact qmpMoves_effects script.exchange 0 cmds
  · rw [if_neg hconnects, if_neg hconnects]
    rfl

/-! ## Whole exchanges -/

section

variable {socket : QmpSocket} {need : ℕ → ℕ}

theorem answered_cons_iff {i got : ℕ} {cmd text reply : String} {cmds : List String}
    {moves : List QmpMove} :
    Answered socket need i got (cmd :: cmds) (.sent text :: .received reply :: moves) ↔
      text = cmd ∧ max 1 (need i) ≤ socket.heard i (got + reply.length) ∧
        Answered socket need (i + 1) (got + reply.length) cmds moves := by
  constructor
  · intro h
    cases h with
    | cons hreply hrest => exact ⟨rfl, hreply, hrest⟩
  · rintro ⟨rfl, hreply, hrest⟩
    exact .cons hreply hrest

theorem servesCmd_cons_iff {i : ℕ} {cmd : String} {cmds : List String} :
    (∀ k (h : k < (cmd :: cmds).length), socket.ServesCmd need (i + k) (cmd :: cmds)[k]) ↔
      socket.ServesCmd need i cmd ∧
        ∀ k (h : k < cmds.length), socket.ServesCmd need (i + 1 + k) cmds[k] := by
  have hshift : ∀ k, i + 1 + k = i + (k + 1) := fun k => by omega
  simp only [hshift]
  constructor
  · intro h
    refine ⟨h 0 (by simp), fun k hk => ?_⟩
    exact h (k + 1) (by simpa using hk)
  · rintro ⟨hfirst, hrest⟩ k hk
    cases k with
    | zero => exact hfirst
    | succ k => exact hrest k (by simpa using hk)

/-- The loop runs to its end over commands that are all answered exactly when
each pair of system calls does what the loop takes for granted. -/
theorem complete_answered_iff (socket : QmpSocket) (need : ℕ → ℕ) (i : ℕ)
    (cmds : List String) :
    (Node.qmpEnd socket.script.exchange i cmds.length = .complete ∧
        Answered socket need i (socket.received (i + 1)).length cmds
          (Node.qmpMoves socket.script.exchange i cmds)) ↔
      ∀ k (h : k < cmds.length), socket.ServesCmd need (i + k) cmds[k] := by
  induction cmds generalizing i with
  | nil => simpa [Node.qmpEnd, Node.qmpMoves] using Answered.nil
  | cons cmd cmds ih =>
      rw [servesCmd_cons_iff, ← ih, List.length_cons, Node.qmpEnd, Node.qmpMoves]
      have hexchange : socket.script.exchange i = (socket.sends i, socket.recv (i + 1)) := rfl
      rw [hexchange]
      cases hsend : socket.sends i with
      | error =>
          have hnot : ¬socket.ServesCmd need i cmd := fun h => by
            obtain ⟨count, hcount, -⟩ := h.whole
            simp [hsend] at hcount
          simp [hnot]
      | broken =>
          have hnot : ¬socket.ServesCmd need i cmd := fun h => by
            obtain ⟨count, hcount, -⟩ := h.whole
            simp [hsend] at hcount
          simp [hnot]
      | sent count =>
          cases hrecv : socket.recvs (i + 1) with
          | none =>
              have hnot : ¬socket.ServesCmd need i cmd := fun h => by
                simpa [hrecv] using h.comes
              simp [QmpSocket.recv, hrecv, hnot]
          | some bytes =>
              have hlength := socket.length_received_succ (i + 1)
              have hserves : socket.ServesCmd need i cmd ↔
                  cmd.length ≤ count ∧
                    max 1 (need i) ≤ socket.heard i (socket.received (i + 2)).length := by
                constructor
                · intro h
                  obtain ⟨count', hcount, hwhole⟩ := h.whole
                  cases hsend.symm.trans hcount
                  exact ⟨hwhole, h.enough⟩
                · rintro ⟨hwhole, henough⟩
                  exact ⟨⟨count, hsend, hwhole⟩, by rw [hrecv]; rfl, henough⟩
              simp only [QmpSocket.recv, hrecv, answered_cons_iff, take_toList_eq_iff,
                String.length_ofList, ← hlength, hserves]
              constructor
              · rintro ⟨hend, hwhole, henough, hrest⟩
                exact ⟨⟨hwhole, henough⟩, hend, hrest⟩
              · rintro ⟨⟨hwhole, henough⟩, hend, hrest⟩
                exact ⟨hend, hwhole, henough, hrest⟩

theorem complete_script_iff (socket : QmpSocket) (need : ℕ → ℕ) (cmds : List String) :
    (Node.qmpScriptEnd socket.script cmds.length = .complete ∧
        AnsweredAll socket need cmds (Node.qmpScriptMoves socket.script cmds)) ↔
      socket.Serves need cmds := by
  have hparts : socket.Serves need cmds ↔ socket.connects = true ∧
      (socket.recvs 0).isSome = true ∧
        ∀ i (h : i < cmds.length), socket.ServesCmd need (0 + i) cmds[i] := by
    simp only [Nat.zero_add]
    exact ⟨fun h => ⟨h.connects, h.greets, h.serves⟩, fun ⟨h₁, h₂, h₃⟩ => ⟨h₁, h₂, h₃⟩⟩
  rw [hparts, ← complete_answered_iff]
  unfold Node.qmpScriptEnd Node.qmpScriptMoves AnsweredAll
  have hscript : socket.script.connects = socket.connects := rfl
  have hgreeting : socket.script.greeting = socket.recv 0 := rfl
  rw [hscript, hgreeting]
  by_cases hconnects : socket.connects = true
  · cases hrecv : socket.recvs 0 with
    | none => simp [QmpSocket.recv, hrecv, hconnects]
    | some bytes =>
        have hlength : (socket.received 1).length =
            ((socket.received 1).drop (socket.received 0).length).length := by
          simp [QmpSocket.received]
        simp [QmpSocket.recv, hrecv, hconnects, String.length_ofList, ← hlength]
  · simp [hconnects]

end

/-- `send_qmp_cmds` tells the truth for the sockets that fail on a `connect` or
a `send`, or that never fail, never come short and answer in time. -/
theorem soundExchange_iff (env : Env) (socket : QmpSocket) (need : ℕ → ℕ) (cmds : List String)
    (nd : Node) :
    SoundExchange env socket need cmds nd ↔
      socket.script.Fails cmds.length ∨ socket.Serves need cmds := by
  have hlog : (nd.sentQmp (Node.qmpScriptTexts socket.script cmds)).log =
      nd.log ++ (Node.qmpScriptMoves socket.script cmds).filterMap QmpMove.effect := by
    rw [qmpScriptMoves_effects]
    rfl
  rw [← Node.qmpScriptEnd_failed_iff, ← complete_script_iff]
  unfold SoundExchange
  rw [Node.sendQmpCmds_eq]
  cases hend : Node.qmpScriptEnd socket.script cmds.length with
  | died => simp [Node.QmpEnd.result]
  | failed =>
      simp only [true_or, iff_true]
      exact ⟨-1, _, rfl, hlog, Or.inr (by decide)⟩
  | complete =>
      simp only [reduceCtorEq, false_or, true_and]
      constructor
      · rintro ⟨ret, nd', hdone, -, ⟨-, hanswered⟩ | hnegative⟩
        · exact hanswered
        · simp only [Node.QmpEnd.result, Except.ok.injEq, Prod.mk.injEq] at hdone
          omega
      · intro hanswered
        exact ⟨0, _, rfl, hlog, Or.inl ⟨rfl, hanswered⟩⟩

/-- The VM takes the first five bytes of the command and closes the stream. -/
def closingSocket : QmpSocket where
  connects := true
  unasked := fun i => if i = 0 then "\x7b\x7d" else ""
  reply := fun _ => ""
  sends := fun _ => .sent 5
  recvs := fun _ => some 2

theorem not_soundExchange_closing :
    ¬SoundExchange (.smooth 100) closingSocket (fun _ => 0)
      ["\x7b\"execute\": \"qmp_capabilities\"\x7d"] .fresh := by
  rintro ⟨ret, nd', hdone, -, ⟨-, hanswered⟩ | hnegative⟩
  · obtain ⟨text, rest, hmoves, hanswered⟩ := hanswered
    cases hmoves
    obtain ⟨-, hreply, -⟩ := answered_cons_iff.mp hanswered
    exact absurd hreply (by decide)
  · have hzero : ret = 0 := by
      have hcode := congrArg (Except.map Prod.fst) hdone
      exact (Except.ok.inj hcode).symm
    omega

/-- A greeting that comes in pieces: no reply comes before the second `recv` returns. -/
example :
    let socket : QmpSocket :=
      ⟨true, fun i => if i = 0 then "greeting" else "", fun _ => "return", fun _ => .sent 64,
        fun _ => some 4⟩
    ¬socket.ServesCmd (fun _ => 0) 0 "qmp_capabilities" := by
  intro socket h
  exact absurd h.enough (by decide)

end ColoManage
