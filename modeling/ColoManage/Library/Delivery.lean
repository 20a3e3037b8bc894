import ColoManage.Library.History
import Mathlib.Data.Multiset.UnionInter

/-!
# Calls that are delivered at most once

Parties send each other numbered calls and the replies to them.  What is on its way
may be delivered in any order or be lost.  `Step` is one move of the mail with the notes
it leaves; `Delivered` says of the notes that no call is executed twice and no reply
taken twice, that a call is executed after it was sent, and that a reply is taken after
the execution that returned it.
-/

namespace Delivery

open EventSystem

variable {C R : Type*}

/-- What is on its way, and the number of the next call. -/
structure Mail (C R : Type*) where
  next : ℕ
  calls : Multiset C
  replies : Multiset (C × R)

/-- An execution that dies returns nothing. -/
inductive Note (C R : Type*)
  | sent (call : C)
  | executed (call : C) (ret : Option R)
  | received (call : C) (ret : R)

namespace Note

def needs : Note C R → Option (Note C R)
  | .sent _ => none
  | .executed call _ => some (.sent call)
  | .received call ret => some (.executed call (some ret))

def executes : Note C R → Option C
  | .executed call _ => some call
  | _ => none

def receives : Note C R → Option C
  | .received call _ => some call
  | _ => none

end Note

variable (id : C → ℕ)

inductive Step : Mail C R → List (Note C R) → Mail C R → Prop
  | send {mail : Mail C R} {call : C} (hid : id call = mail.next) :
      Step mail [.sent call] ⟨mail.next + 1, call ::ₘ mail.calls, mail.replies⟩
  | execute {next : ℕ} {calls : Multiset C} {replies : Multiset (C × R)} (call : C) (ret : R) :
      Step ⟨next, call ::ₘ calls, replies⟩ [.executed call (some ret)]
        ⟨next, calls, (call, ret) ::ₘ replies⟩
  | die {next : ℕ} {calls : Multiset C} {replies : Multiset (C × R)} (call : C) :
      Step ⟨next, call ::ₘ calls, replies⟩ [.executed call none] ⟨next, calls, replies⟩
  | receive {next : ℕ} {calls : Multiset C} {replies : Multiset (C × R)} (call : C) (ret : R) :
      Step ⟨next, calls, (call, ret) ::ₘ replies⟩ [.received call ret] ⟨next, calls, replies⟩
  | loseCall {next : ℕ} {calls : Multiset C} {replies : Multiset (C × R)} (call : C) :
      Step ⟨next, call ::ₘ calls, replies⟩ [] ⟨next, calls, replies⟩
  | loseReply {next : ℕ} {calls : Multiset C} {replies : Multiset (C × R)} (reply : C × R) :
      Step ⟨next, calls, reply ::ₘ replies⟩ [] ⟨next, calls, replies⟩

/-- Some moves, one after the other. -/
inductive Steps : Mail C R → List (Note C R) → Mail C R → Prop
  | refl (mail : Mail C R) : Steps mail [] mail
  | tail {mail mail' mail'' : Mail C R} {notes notes' : List (Note C R)}
      (h : Steps mail notes mail') (hstep : Step id mail' notes' mail'') :
      Steps mail (notes ++ notes') mail''

variable {id}

theorem Step.steps {mail mail' : Mail C R} {notes : List (Note C R)}
    (h : Step id mail notes mail') : Steps id mail notes mail' := by
  simpa using Steps.tail (.refl mail) h

theorem Steps.trans {mail mail' mail'' : Mail C R} {notes notes' : List (Note C R)}
    (h : Steps id mail notes mail') (h' : Steps id mail' notes' mail'') :
    Steps id mail (notes ++ notes') mail'' := by
  induction h' with
  | refl => simpa using h
  | tail _ hstep ih =>
      rw [← List.append_assoc]
      exact ih.tail hstep

def executedIds (id : C → ℕ) (out : List (Note C R)) : List ℕ :=
  (out.filterMap Note.executes).map id

def receivedIds (id : C → ℕ) (out : List (Note C R)) : List ℕ :=
  (out.filterMap Note.receives).map id

structure Delivered (id : C → ℕ) (out : List (Note C R)) : Prop where
  executed : (executedIds id out).Nodup
  received : (receivedIds id out).Nodup
  caused : Preceded Note.needs out

/-- The mail together with the notes of the moves that led to it. -/
structure Good (id : C → ℕ) (mail : Mail C R) (out : List (Note C R)) : Prop where
  sent_lt : ∀ call, .sent call ∈ out → id call < mail.next
  calls_sent : ∀ call ∈ mail.calls, .sent call ∈ out
  replies_executed : ∀ reply ∈ mail.replies, .executed reply.1 (some reply.2) ∈ out
  calls_nodup : (mail.calls.map id + ↑(executedIds id out)).Nodup
  replies_nodup : (mail.replies.map (fun reply => id reply.1) + ↑(receivedIds id out)).Nodup
  caused : Preceded Note.needs out

theorem Good.delivered {mail : Mail C R} {out : List (Note C R)} (h : Good id mail out) :
    Delivered id out where
  executed := Multiset.coe_nodup.mp (Multiset.nodup_of_le (Multiset.le_add_left _ _) h.calls_nodup)
  received :=
    Multiset.coe_nodup.mp (Multiset.nodup_of_le (Multiset.le_add_left _ _) h.replies_nodup)
  caused := h.caused

theorem good_init : Good id (⟨0, 0, 0⟩ : Mail C R) [] where
  sent_lt := by simp
  calls_sent := by simp
  replies_executed := by simp
  calls_nodup := by simp [executedIds]
  replies_nodup := by simp [receivedIds]
  caused := preceded_nil

section

variable {mail : Mail C R} {out : List (Note C R)}

theorem executedIds_concat (note : Note C R) :
    executedIds id (out ++ [note]) = executedIds id out ++ (note.executes.toList.map id) := by
  unfold executedIds
  rw [List.filterMap_append, List.map_append]
  cases note <;> rfl

theorem receivedIds_concat (note : Note C R) :
    receivedIds id (out ++ [note]) = receivedIds id out ++ (note.receives.toList.map id) := by
  unfold receivedIds
  rw [List.filterMap_append, List.map_append]
  cases note <;> rfl

theorem add_concat (m : Multiset ℕ) (l : List ℕ) (n : ℕ) :
    m + ↑(l ++ [n]) = n ::ₘ (m + ↑l) := by
  rw [← Multiset.coe_add, ← Multiset.add_assoc, ← Multiset.singleton_add, Multiset.add_comm]
  rfl

theorem mem_executedIds {call : C} {ret : Option R} (h : .executed call ret ∈ out) :
    id call ∈ executedIds id out :=
  List.mem_map.mpr ⟨call, List.mem_filterMap.mpr ⟨_, h, rfl⟩, rfl⟩

/-- Every number that has been given away is below the next one. -/
theorem Good.executed_lt (h : Good id mail out) {n : ℕ} (hn : n ∈ executedIds id out) :
    n < mail.next := by
  obtain ⟨call, hcall, rfl⟩ := List.mem_map.mp hn
  obtain ⟨note, hnote, hexecutes⟩ := List.mem_filterMap.mp hcall
  cases note with
  | executed call' ret =>
      cases hexecutes
      exact h.sent_lt call (h.caused.mem hnote rfl)
  | sent call' => cases hexecutes
  | received call' ret => cases hexecutes

/-- A reply on its way or taken belongs to a call that was executed. -/
theorem Good.replied_executed (h : Good id mail out) {n : ℕ}
    (hn : n ∈ mail.replies.map (fun reply => id reply.1) + ↑(receivedIds id out)) :
    n ∈ executedIds id out := by
  rcases Multiset.mem_add.mp hn with hn | hn
  · obtain ⟨reply, hreply, rfl⟩ := Multiset.mem_map.mp hn
    exact mem_executedIds (h.replies_executed reply hreply)
  · obtain ⟨call, hcall, rfl⟩ := List.mem_map.mp (Multiset.mem_coe.mp hn)
    obtain ⟨note, hnote, hreceives⟩ := List.mem_filterMap.mp hcall
    cases note with
    | received call' ret =>
        cases hreceives
        exact mem_executedIds (h.caused.mem hnote rfl)
    | sent call' => cases hreceives
    | executed call' ret => cases hreceives

theorem Good.sent_fresh (h : Good id mail out) {call : C} (hid : id call = mail.next) :
    id call ∉ mail.calls.map id + ↑(executedIds id out) := by
  intro hmem
  rcases Multiset.mem_add.mp hmem with hmem | hmem
  · obtain ⟨other, hother, heq⟩ := Multiset.mem_map.mp hmem
    have hlt := h.sent_lt other (h.calls_sent other hother)
    omega
  · have hlt := h.executed_lt (Multiset.mem_coe.mp hmem)
    omega

/-- A call that is executed passes from the calls on their way to the executed ones. -/
theorem nodup_executed {calls : Multiset C} {call : C} (ret : Option R)
    (h : ((call ::ₘ calls).map id + ↑(executedIds id out)).Nodup) :
    id call ∉ executedIds id out ∧
      (calls.map id + ↑(executedIds id (out ++ [.executed call ret]))).Nodup := by
  rw [Multiset.map_cons, Multiset.cons_add] at h
  constructor
  · intro hmem
    exact (Multiset.nodup_cons.mp h).1 (Multiset.mem_add.mpr (.inr hmem))
  · rw [executedIds_concat]
    exact (add_concat _ _ _) ▸ h

/-- What is sent or lost leaves the executed and the received calls alone. -/
theorem good_step {mail' : Mail C R} {notes : List (Note C R)} (h : Good id mail out)
    (hstep : Step id mail notes mail') : Good id mail' (out ++ notes) := by
  cases hstep with
  | @send _ call hid =>
      refine ⟨?_, ?_, ?_, ?_, ?_, ?_⟩
      · intro other hother
        rcases List.mem_append.mp hother with hother | hother
        · exact Nat.lt_succ_of_lt (h.sent_lt other hother)
        · obtain rfl : other = call := by simpa using hother
          exact hid ▸ Nat.lt_succ_self mail.next
      · intro other hother
        rcases Multiset.mem_cons.mp hother with rfl | hother
        · simp
        · exact List.mem_append_left _ (h.calls_sent other hother)
      · exact fun reply hreply => List.mem_append_left _ (h.replies_executed reply hreply)
      · rw [executedIds_concat, Multiset.map_cons, Multiset.cons_add]
        simp only [Note.executes, Option.toList_none, List.map_nil, List.append_nil]
        exact Multiset.nodup_cons.mpr ⟨h.sent_fresh hid, h.calls_nodup⟩
      · rw [receivedIds_concat]
        simpa [Note.receives] using h.replies_nodup
      · exact preceded_concat.mpr ⟨h.caused, by simp [Note.needs]⟩
  | execute call ret =>
      obtain ⟨hexecuted, hcalls⟩ := nodup_executed (some ret) h.calls_nodup
      refine ⟨?_, ?_, ?_, ?_, ?_, ?_⟩
      · exact fun other hother => h.sent_lt other (by simpa using hother)
      · intro other hother
        exact List.mem_append_left _ (h.calls_sent other (Multiset.mem_cons_of_mem hother))
      · intro reply hreply
        rcases Multiset.mem_cons.mp hreply with rfl | hreply
        · simp
        · exact List.mem_append_left _ (h.replies_executed reply hreply)
      · exact hcalls
      · rw [receivedIds_concat, Multiset.map_cons, Multiset.cons_add]
        simp only [Note.receives, Option.toList_none, List.map_nil, List.append_nil]
        exact Multiset.nodup_cons.mpr ⟨mt h.replied_executed hexecuted, h.replies_nodup⟩
      · refine preceded_concat.mpr ⟨h.caused, ?_⟩
        rintro cause ⟨⟩
        exact h.calls_sent call (Multiset.mem_cons_self call _)
  | die call =>
      refine ⟨?_, ?_, ?_, ?_, ?_, ?_⟩
      · exact fun other hother => h.sent_lt other (by simpa using hother)
      · intro other hother
        exact List.mem_append_left _ (h.calls_sent other (Multiset.mem_cons_of_mem hother))
      · exact fun reply hreply => List.mem_append_left _ (h.replies_executed reply hreply)
      · exact (nodup_executed none h.calls_nodup).2
      · rw [receivedIds_concat]
        simpa [Note.receives] using h.replies_nodup
      · refine preceded_concat.mpr ⟨h.caused, ?_⟩
        rintro cause ⟨⟩
        exact h.calls_sent call (Multiset.mem_cons_self call _)
  | receive call ret =>
      have hnodup := h.replies_nodup
      rw [Multiset.map_cons, Multiset.cons_add] at hnodup
      refine ⟨?_, ?_, ?_, ?_, ?_, ?_⟩
      · exact fun other hother => h.sent_lt other (by simpa using hother)
      · exact fun other hother => List.mem_append_left _ (h.calls_sent other hother)
      · intro reply hreply
        exact List.mem_append_left _ (h.replies_executed reply (Multiset.mem_cons_of_mem hreply))
      · rw [executedIds_concat]
        simpa [Note.executes] using h.calls_nodup
      · rw [receivedIds_concat]
        exact (add_concat _ _ _) ▸ hnodup
      · refine preceded_concat.mpr ⟨h.caused, ?_⟩
        rintro cause ⟨⟩
        exact h.replies_executed (call, ret) (Multiset.mem_cons_self _ _)
  | loseCall call =>
      have hnodup := h.calls_nodup
      rw [Multiset.map_cons, Multiset.cons_add, Multiset.nodup_cons] at hnodup
      rw [List.append_nil]
      refine { h with calls_sent := ?_, calls_nodup := hnodup.2 }
      exact fun other hother => h.calls_sent other (Multiset.mem_cons_of_mem hother)
  | loseReply reply =>
      have hnodup := h.replies_nodup
      rw [Multiset.map_cons, Multiset.cons_add, Multiset.nodup_cons] at hnodup
      rw [List.append_nil]
      refine { h with replies_executed := ?_, replies_nodup := hnodup.2 }
      exact fun other hother => h.replies_executed other (Multiset.mem_cons_of_mem hother)

theorem good_steps {mail' : Mail C R} {notes : List (Note C R)} (h : Good id mail out)
    (hsteps : Steps id mail notes mail') : Good id mail' (out ++ notes) := by
  induction hsteps with
  | refl => simpa using h
  | tail _ hstep ih =>
      rw [← List.append_assoc]
      exact good_step ih hstep

end

/-- A system whose events move the mail and show the notes of these moves delivers each
call at most once. -/
theorem delivered_seen {S E : Type*} {step : S → E → S} {shows : S → E → List (Note C R)}
    {mailOf : S → Mail C R}
    (hsteps : ∀ s e, Steps id (mailOf s) (shows s e) (mailOf (step s e)))
    {s : S} (hmail : mailOf s = ⟨0, 0, 0⟩) (es : List E) :
    Delivered id (seen step shows s es) := by
  have hgood : Good id (mailOf (es.foldl step s)) ([] ++ seen step shows s es) := by
    refine inv_seen (J := fun s out => Good id (mailOf s) out) ?_ ?_ es
    · exact fun s e out h => good_steps h (hsteps s e)
    · rw [hmail]
      exact good_init
  exact hgood.delivered

end Delivery
