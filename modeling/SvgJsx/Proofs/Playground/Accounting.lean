import Mathlib.Algebra.GroupWithZero.Nat
import Mathlib.Data.List.Induction
import SvgJsx.Proofs.Playground.Backlog

/-! The account of a receiver over everything that is done with a channel. What it is answered hangs on
two things only: the messages sent since it has joined, and how many of them it has received or has been
told that it has missed. -/

namespace SvgJsx.Playground
namespace Channel

inductive Act where
  | subscribe
  | send (m : LiveMessage)
  | receive (receiver : Nat)
  deriving DecidableEq, Repr

def Act.message? : Act → Option LiveMessage
  | send m => some m
  | _ => none

def sends (acts : List Act) : List LiveMessage := acts.filterMap Act.message?

def sentSince : (receiver : Nat) → List Act → List LiveMessage
  | _, [] => []
  | 0, .subscribe :: acts => sends acts
  | receiver + 1, .subscribe :: acts => sentSince receiver acts
  | receiver, _ :: acts => sentSince receiver acts

def received (ds : List Delivery) : List LiveMessage := ds.filterMap Delivery.message?

def missed (ds : List Delivery) : Nat := (ds.map Delivery.missed).sum

/-- How many of the messages sent a receiver has got or has been told that it has missed. -/
def accounted (ds : List Delivery) : Nat := (received ds).length + missed ds

section Sending

theorem accounted_append (ds ds' : List Delivery) :
    accounted (ds ++ ds') = accounted ds + accounted ds' := by
  simp only [accounted, received, missed, List.filterMap_append, List.length_append, List.map_append,
    List.sum_append]
  omega

theorem accounted_singleton (d : Delivery) : accounted [d] = d.passes := by
  cases d with
  | message m | empty => rfl
  | lagged k => exact Nat.zero_add k

theorem sentSince_concat (receiver : Nat) (acts : List Act) (a : Act) :
    sentSince receiver (acts ++ [a]) = sentSince receiver acts ++
      if receiver < acts.count .subscribe then a.message?.toList else [] := by
  induction acts generalizing receiver with
  | nil => cases a <;> cases receiver <;> simp [sentSince, sends]
  | cons b acts ih =>
    cases b with
    | subscribe =>
      cases receiver with
      | zero =>
        rw [List.cons_append, sentSince, sentSince, sends, filterMap_concat,
          if_pos (by simp), ← sends]
      | succ receiver => simp [sentSince, ih]
    | send m => simp [sentSince, ih]
    | receive r => simp [sentSince, ih]

theorem sentSince_concat_quiet {a : Act} (ha : a.message? = none) (receiver : Nat) (acts : List Act) :
    sentSince receiver (acts ++ [a]) = sentSince receiver acts := by
  rw [sentSince_concat, ha, Option.toList_none, ite_self, List.append_nil]

theorem sentSince_append {receiver : Nat} {acts later : List Act}
    (hquiet : ∀ a ∈ later, a.message? = none) :
    sentSince receiver (acts ++ later) = sentSince receiver acts := by
  induction later using List.reverseRecOn with
  | nil => rw [List.append_nil]
  | append_singleton later a ih =>
    rw [List.forall_mem_append, List.forall_mem_singleton] at hquiet
    rw [← List.append_assoc, sentSince_concat_quiet hquiet.2, ih hquiet.1]

theorem sentSince_suffix (receiver : Nat) (acts : List Act) : sentSince receiver acts <:+ sends acts := by
  induction acts generalizing receiver with
  | nil => exact List.nil_suffix
  | cons a acts ih =>
    have hlater : sends acts <:+ sends (a :: acts) := by
      rw [sends, sends, List.filterMap_cons]
      split
      · exact List.suffix_refl _
      · exact List.suffix_cons _ _
    cases a with
    | subscribe =>
      cases receiver with
      | zero => exact hlater
      | succ receiver => exact (ih receiver).trans hlater
    | send m | receive r => exact (ih receiver).trans hlater

end Sending
section Answers

variable {σ : Type} [Channel σ]

def act (c : σ) : Act → σ
  | .subscribe => subscribe c
  | .send m => send c m
  | .receive receiver => (receive c receiver).2

def answersFrom (c : σ) (receiver : Nat) : List Act → List Delivery
  | [] => []
  | a :: acts =>
    (if a = .receive receiver then [(receive c receiver).1] else []) ++
      answersFrom (act c a) receiver acts

variable (σ)

def after (acts : List Act) : σ := acts.foldl act new

def answer (acts : List Act) (receiver : Nat) : Delivery := (receive (after σ acts) receiver).1

def answers (acts : List Act) (receiver : Nat) : List Delivery := answersFrom (new : σ) receiver acts

def unread (acts : List Act) (receiver : Nat) : List LiveMessage :=
  (sentSince receiver acts).drop (accounted (answers σ acts receiver))

def StaysNear (acts : List Act) (receiver : Nat) : Prop :=
  ∀ earlier, earlier <+: acts →
    (sentSince receiver earlier).length ≤ accounted (answers σ earlier receiver) + hubCapacity

end Answers
section Histories

variable {σ : Type} [Channel σ] {acts later : List Act} {a : Act} {receiver : Nat}

theorem after_concat (acts : List Act) (a : Act) : after σ (acts ++ [a]) = act (after σ acts) a := by
  rw [after, List.foldl_append]
  rfl

theorem answersFrom_append (c : σ) (receiver : Nat) (acts later : List Act) :
    answersFrom c receiver (acts ++ later) =
      answersFrom c receiver acts ++ answersFrom (acts.foldl act c) receiver later := by
  induction acts generalizing c with
  | nil => rfl
  | cons a acts ih => rw [List.cons_append, answersFrom, answersFrom, ih, List.append_assoc]; rfl

theorem answers_concat (acts : List Act) (a : Act) (receiver : Nat) :
    answers σ (acts ++ [a]) receiver =
      answers σ acts receiver ++ if a = .receive receiver then [answer σ acts receiver] else [] := by
  rw [answers, answersFrom_append, answersFrom, answersFrom, List.append_nil]
  rfl

theorem answers_of_ne (ha : a ≠ .receive receiver) :
    answers σ (acts ++ [a]) receiver = answers σ acts receiver := by
  rw [answers_concat, if_neg ha, List.append_nil]

theorem answers_append (hidle : .receive receiver ∉ later) :
    answers σ (acts ++ later) receiver = answers σ acts receiver := by
  induction later using List.reverseRecOn with
  | nil => rw [List.append_nil]
  | append_singleton later a ih =>
    rw [List.mem_append, not_or, List.mem_singleton] at hidle
    rw [← List.append_assoc, answers_of_ne (Ne.symm hidle.2), ih hidle.1]

theorem accounted_receive (acts : List Act) (receiver : Nat) :
    accounted (answers σ (acts ++ [.receive receiver]) receiver) =
      accounted (answers σ acts receiver) + (answer σ acts receiver).passes := by
  rw [answers_concat, if_pos rfl, accounted_append, accounted_singleton]

theorem mem_answers {d : Delivery} (hd : d ∈ answers σ acts receiver) :
    ∃ earlier, earlier <+: acts ∧ answer σ earlier receiver = d := by
  induction acts using List.reverseRecOn with
  | nil => exact absurd hd List.not_mem_nil
  | append_singleton acts a ih =>
    rw [answers_concat] at hd
    rcases List.mem_append.1 hd with hd | hd
    · obtain ⟨earlier, hprefix, hanswer⟩ := ih hd
      exact ⟨earlier, hprefix.trans (List.prefix_append acts [a]), hanswer⟩
    · split at hd
      · exact ⟨acts, List.prefix_append acts [a], (List.mem_singleton.1 hd).symm⟩
      · exact absurd hd List.not_mem_nil

end Histories
section Unread

variable {σ : Type} [Channel σ] {acts : List Act} {ws : List (List LiveMessage)}

/-- The backlogs behind some acts. What waits for a receiver has been sent and is not accounted for, and
nothing is accounted for that has not been sent. -/
structure Unread (σ : Type) [Channel σ] (acts : List Act) (ws : List (List LiveMessage)) : Prop where
  backlogs : Backlogs (after σ acts) ws
  length : ws.length = acts.count .subscribe
  waiting (receiver : Nat) : ws[receiver]?.getD [] = unread σ acts receiver
  accounted_le (receiver : Nat) :
    accounted (answers σ acts receiver) ≤ (sentSince receiver acts).length

theorem Unread.subscribe (hu : Unread σ acts ws) : Unread σ (acts ++ [.subscribe]) (ws ++ [[]]) where
  backlogs := by
    rw [after_concat]
    exact hu.backlogs.subscribe
  length := by rw [List.length_append, hu.length, List.count_append]; rfl
  waiting receiver := by
    rw [unread, sentSince_concat_quiet rfl, answers_of_ne (by simp), ← unread, ← hu.waiting,
      List.getElem?_append]
    split
    · rfl
    · next hlt =>
      rw [List.getElem?_eq_none (Nat.not_lt.1 hlt)]
      cases receiver - ws.length <;> rfl
  accounted_le receiver := by
    rw [sentSince_concat_quiet rfl, answers_of_ne (by simp)]
    exact hu.accounted_le receiver

theorem Unread.send (hu : Unread σ acts ws) (m : LiveMessage) :
    Unread σ (acts ++ [.send m]) (ws.map (· ++ [m])) where
  backlogs := by
    rw [after_concat]
    exact hu.backlogs.send m
  length := by rw [List.length_map, hu.length, List.count_append]; rfl
  waiting receiver := by
    rw [unread, sentSince_concat, answers_of_ne (by simp),
      List.drop_append_of_le_length (hu.accounted_le receiver), ← unread, ← hu.waiting, ← hu.length,
      List.getElem?_map]
    split_ifs with hlt
    · rw [List.getElem?_eq_getElem hlt]
      rfl
    · rw [List.getElem?_eq_none (Nat.not_lt.1 hlt)]
      rfl
  accounted_le receiver := by
    rw [sentSince_concat, answers_of_ne (by simp), List.length_append]
    exact Nat.le_add_right_of_le (hu.accounted_le receiver)

variable [Lawful σ]

theorem Unread.answer_eq (hu : Unread σ acts ws) (receiver : Nat) :
    answer σ acts receiver = front (unread σ acts receiver) := by
  rw [answer, Lawful.receive_eq receiver hu.backlogs, hu.waiting]

theorem Unread.receive (hu : Unread σ acts ws) (asking : Nat) :
    Unread σ (acts ++ [.receive asking]) (ws.modify asking rest) where
  backlogs := by
    rw [after_concat]
    exact hu.backlogs.receive asking
  length := by rw [List.length_modify, hu.length, List.count_append]; rfl
  waiting receiver := by
    rw [unread, sentSince_concat_quiet rfl]
    by_cases hasks : asking = receiver
    · subst hasks
      rw [accounted_receive, hu.answer_eq, ← List.drop_drop, ← unread, ← hu.waiting,
        List.getElem?_modify_eq]
      cases ws[asking]? <;> rfl
    · rw [answers_of_ne (by simpa using hasks), ← unread, ← hu.waiting,
        List.getElem?_modify_ne _ _ hasks]
  accounted_le receiver := by
    rw [sentSince_concat_quiet rfl]
    by_cases hasks : asking = receiver
    · subst hasks
      have hpasses := passes_front_le (unread σ acts asking)
      rw [unread, List.length_drop, ← unread] at hpasses
      have hle := hu.accounted_le asking
      rw [accounted_receive, hu.answer_eq]
      omega
    · rw [answers_of_ne (by simpa using hasks)]
      exact hu.accounted_le receiver

theorem exists_unread (acts : List Act) : ∃ ws, Unread σ acts ws := by
  induction acts using List.reverseRecOn with
  | nil => exact ⟨[], .new, rfl, fun _ => rfl, fun _ => Nat.le_refl 0⟩
  | append_singleton acts a ih =>
    obtain ⟨ws, hu⟩ := ih
    cases a with
    | subscribe => exact ⟨_, hu.subscribe⟩
    | send m => exact ⟨_, hu.send m⟩
    | receive r => exact ⟨_, hu.receive r⟩

/-- What a receiver is answered hangs on what has been sent since it joined and on how much of that is
accounted for. -/
theorem answer_eq (acts : List Act) (receiver : Nat) :
    answer σ acts receiver = front (unread σ acts receiver) := by
  obtain ⟨ws, hu⟩ := exists_unread (σ := σ) acts
  exact hu.answer_eq receiver

theorem accounted_le (acts : List Act) (receiver : Nat) :
    accounted (answers σ acts receiver) ≤ (sentSince receiver acts).length := by
  obtain ⟨ws, hu⟩ := exists_unread (σ := σ) acts
  exact hu.accounted_le receiver

theorem unread_receive (acts : List Act) (receiver : Nat) :
    unread σ (acts ++ [.receive receiver]) receiver = rest (unread σ acts receiver) := by
  rw [unread, sentSince_concat_quiet rfl, accounted_receive, answer_eq, ← List.drop_drop]
  rfl

theorem length_unread (acts : List Act) (receiver : Nat) :
    accounted (answers σ acts receiver) + (unread σ acts receiver).length =
      (sentSince receiver acts).length := by
  rw [unread, List.length_drop]
  exact Nat.add_sub_cancel' (accounted_le acts receiver)

end Unread
section Accounts

variable {σ : Type} [Channel σ] [Lawful σ] {acts later : List Act} {receiver : Nat}

theorem received_receive (acts : List Act) (receiver : Nat) :
    received (answers σ (acts ++ [.receive receiver]) receiver) =
      received (answers σ acts receiver) ++ (front (unread σ acts receiver)).message?.toList := by
  rw [answers_concat, if_pos rfl, answer_eq, received, List.filterMap_append]
  cases front (unread σ acts receiver) <;> rfl

theorem received_sublist_take (acts : List Act) (receiver : Nat) :
    (received (answers σ acts receiver)).Sublist
      ((sentSince receiver acts).take (accounted (answers σ acts receiver))) := by
  induction acts using List.reverseRecOn with
  | nil => exact .slnil
  | append_singleton acts a ih =>
    by_cases ha : a = .receive receiver
    · subst ha
      rw [received_receive, accounted_receive, sentSince_concat_quiet rfl, answer_eq, List.take_add]
      refine ih.append ?_
      rw [← unread]
      cases hfront : front (unread σ acts receiver) with
      | message m =>
        rw [eq_cons_of_front hfront]
        exact List.Sublist.refl _
      | lagged k | empty => exact List.nil_sublist _
    · rw [answers_of_ne ha, sentSince_concat,
        List.take_append_of_le_length (accounted_le acts receiver)]
      exact ih

theorem received_eq_take (h : missed (answers σ acts receiver) = 0) :
    received (answers σ acts receiver) =
      (sentSince receiver acts).take (accounted (answers σ acts receiver)) := by
  have hcount : accounted (answers σ acts receiver) = (received (answers σ acts receiver)).length := by
    rw [accounted, h, Nat.add_zero]
  refine (received_sublist_take acts receiver).eq_of_length ?_
  rw [List.length_take_of_le (accounted_le acts receiver), hcount]

theorem near_iff : (sentSince receiver acts).length ≤
    accounted (answers σ acts receiver) + hubCapacity ↔
      (unread σ acts receiver).length ≤ hubCapacity := by
  rw [← length_unread (σ := σ) acts receiver]
  exact Nat.add_le_add_iff_left

theorem StaysNear.not_lagged (h : StaysNear σ acts receiver) (k : Nat) :
    .lagged k ∉ answers σ acts receiver := by
  intro hmem
  obtain ⟨earlier, hprefix, hanswer⟩ := mem_answers hmem
  have hnear := near_iff.1 (h earlier hprefix)
  have hlag := lt_of_front ((answer_eq earlier receiver).symm.trans hanswer)
  omega

theorem missed_eq_zero {ds : List Delivery} (h : ∀ k, .lagged k ∉ ds) : missed ds = 0 := by
  induction ds with
  | nil => rfl
  | cons d ds ih =>
    have hlater : missed ds = 0 := ih fun k hk => h k (List.mem_cons_of_mem d hk)
    cases d with
    | lagged k => exact absurd (List.mem_cons_self ..) (h k)
    | message m | empty => exact (Nat.zero_add _).trans hlater

theorem received_replicate (hnear : (unread σ acts receiver).length ≤ hubCapacity) (n : Nat) :
    received (answers σ (acts ++ List.replicate n (.receive receiver)) receiver) =
      received (answers σ acts receiver) ++ (unread σ acts receiver).take n := by
  induction n generalizing acts with
  | zero => rw [List.replicate_zero, List.append_nil, List.take_zero, List.append_nil]
  | succ n ih =>
    have hnext : (unread σ (acts ++ [.receive receiver]) receiver).length ≤ hubCapacity := by
      rw [unread_receive]
      exact Nat.le_trans (length_rest_le _) hnear
    rw [List.replicate_succ, List.append_cons, ih hnext, received_receive, unread_receive,
      List.append_assoc, front_append_take hnear]

def without (other : Nat) (acts : List Act) : List Act := acts.filter (· ≠ .receive other)

theorem without_concat_self (other : Nat) (acts : List Act) :
    without other (acts ++ [.receive other]) = without other acts := by
  simp [without]

theorem without_concat {other : Nat} {a : Act} (ha : a ≠ .receive other) :
    without other (acts ++ [a]) = without other acts ++ [a] := by
  simp [without, ha]

theorem sentSince_without (other receiver : Nat) (acts : List Act) :
    sentSince receiver (without other acts) = sentSince receiver acts := by
  induction acts using List.reverseRecOn with
  | nil => rfl
  | append_singleton acts a ih =>
    by_cases ha : a = .receive other
    · subst ha
      rw [without_concat_self, ih, sentSince_append fun a ha => List.mem_singleton.1 ha ▸ rfl]
    · have hcount : (without other acts).count .subscribe = acts.count .subscribe :=
        List.count_filter (by simp)
      rw [without_concat ha, sentSince_concat, sentSince_concat, ih, hcount]

theorem answers_without {other : Nat} (hne : other ≠ receiver) :
    answers σ (without other acts) receiver = answers σ acts receiver := by
  induction acts using List.reverseRecOn with
  | nil => rfl
  | append_singleton acts a ih =>
    by_cases ha : a = .receive other
    · subst ha
      rw [without_concat_self, ih, answers_of_ne (by simpa using hne)]
    · have hanswer : answer σ (without other acts) receiver = answer σ acts receiver := by
        rw [answer_eq, answer_eq, unread, sentSince_without, ih, ← unread]
      rw [without_concat ha, answers_concat, answers_concat, ih, hanswer]

theorem answer_after_lag {k : Nat} (hlag : answer σ acts receiver = .lagged k)
    (hquiet : ∀ a ∈ later, a.message? = none) (hidle : .receive receiver ∉ later) :
    0 < k ∧ ∃ m, answer σ (acts ++ .receive receiver :: later) receiver = .message m ∧
      (sentSince receiver acts)[accounted (answers σ acts receiver) + k]? = some m := by
  have hfront : front (unread σ acts receiver) = .lagged k := (answer_eq acts receiver).symm.trans hlag
  obtain ⟨hpos, hlength⟩ := lt_of_front hfront
  have hafter : unread σ (acts ++ .receive receiver :: later) receiver =
      (unread σ acts receiver).drop k := by
    rw [List.append_cons, unread, sentSince_append hquiet, answers_append hidle, ← unread,
      unread_receive, rest, hfront, Delivery.passes]
  have hleft : ((unread σ acts receiver).drop k).length = hubCapacity := by
    rw [List.length_drop, ← hlength, Nat.add_sub_cancel_left]
  have hlt : k < (unread σ acts receiver).length := hlength ▸ Nat.lt_add_of_pos_right (by decide)
  refine ⟨hpos, (unread σ acts receiver)[k], ?_, ?_⟩
  · rw [answer_eq, hafter, front_of_near (Nat.le_of_eq hleft), List.head?_drop,
      List.getElem?_eq_getElem hlt]
    rfl
  · rw [← List.getElem?_drop, ← unread]
    exact List.getElem?_eq_getElem hlt

end Accounts

end Channel
namespace Hub
open Channel

/-- The account of a receiver over any acts with the hub, of which nothing is used but the laws of a
channel. It gets messages sent since it has joined, in their order and none twice. Where it finds
nothing, those that it got and those that it was told of as missed are all that was sent. Behind a lag
of `k` it gets the message `k` places after the one that was its next. If it always stays near it is
told of no lag, and by asking it gets message after message. What others ask for makes no difference to
it. -/
theorem receivers_account (acts : List Act) (receiver : Nat) :
    (received (answers Hub acts receiver)).Sublist (sentSince receiver acts) ∧
    (answer Hub acts receiver = .empty →
      (received (answers Hub acts receiver)).length + missed (answers Hub acts receiver) =
        (sentSince receiver acts).length) ∧
    (∀ k later, answer Hub acts receiver = .lagged k → (∀ a ∈ later, a.message? = none) →
      .receive receiver ∉ later →
        0 < k ∧ ∃ m, answer Hub (acts ++ .receive receiver :: later) receiver = .message m ∧
          (sentSince receiver acts)[accounted (answers Hub acts receiver) + k]? = some m) ∧
    (StaysNear Hub acts receiver → (∀ k, .lagged k ∉ answers Hub acts receiver) ∧
      ∀ n, received (answers Hub (acts ++ List.replicate n (.receive receiver)) receiver) =
        (sentSince receiver acts).take ((received (answers Hub acts receiver)).length + n)) ∧
    ∀ other, other ≠ receiver →
      answers Hub (without other acts) receiver = answers Hub acts receiver := by
  refine ⟨(received_sublist_take acts receiver).trans (List.take_sublist _ _), fun hempty => ?_,
    fun k later hlag hquiet hidle => answer_after_lag hlag hquiet hidle, fun hnear => ?_,
    fun other hne => answers_without hne⟩
  · have hnothing := eq_nil_of_front ((answer_eq acts receiver).symm.trans hempty)
    have hlength := length_unread (σ := Hub) acts receiver
    rwa [hnothing, List.length_nil, Nat.add_zero] at hlength
  · have hnone := hnear.not_lagged
    have hmissed := missed_eq_zero hnone
    have hcount : accounted (answers Hub acts receiver) =
        (received (answers Hub acts receiver)).length := by rw [accounted, hmissed, Nat.add_zero]
    refine ⟨hnone, fun n => ?_⟩
    rw [received_replicate (near_iff.1 (hnear acts (List.prefix_refl acts))), List.take_add,
      ← hcount, ← received_eq_take hmissed, ← unread]

section Overrun

/-- A receiver joins, and one message more is sent than the hub can hold. -/
def overrun : List Act :=
  .subscribe :: .send .connected :: List.replicate hubCapacity (.send (.output []))

def joined : List Act := [.subscribe, .send .connected]

theorem staysNear_joined : StaysNear Hub joined 0 := by
  intro earlier hbegins
  have hsince := (sentSince_suffix 0 earlier).length_le
  have hsends : (sends earlier).length ≤ 1 := (hbegins.filterMap Act.message?).length_le
  have hcapacity : 1 ≤ hubCapacity := by decide
  omega

theorem receivers_account_overrun :
    answer Hub overrun 0 = .lagged 1 ∧
    answer Hub (overrun ++ [.receive 0, .subscribe, .receive 1]) 0 = .message (.output []) ∧
    answer Hub [.subscribe] 0 = .empty ∧ (sentSince 0 [.subscribe]).length = 0 ∧
    StaysNear Hub joined 0 ∧ received (answers Hub (joined ++ [.receive 0]) 0) = [.connected] ∧
    answers Hub (without 1 (joined ++ [.receive 1])) 0 = answers Hub (joined ++ [.receive 1]) 0 := by
  have hlag : answer Hub overrun 0 = .lagged 1 := by decide +kernel
  have hempty : answer Hub [.subscribe] 0 = .empty := by decide
  obtain ⟨-, -, hbehind, -, -⟩ := receivers_account overrun 0
  obtain ⟨-, m, hm, hget⟩ := hbehind 1 [.subscribe, .receive 1] hlag (by decide) (by decide)
  have hsecond : (sentSince 0 overrun)[accounted (answers Hub overrun 0) + 1]? =
      some (.output []) := by decide +kernel
  obtain rfl := Option.some.inj (hget.symm.trans hsecond)
  exact ⟨hlag, hm, hempty, ((receivers_account [.subscribe] 0).2.1 hempty).symm,
    staysNear_joined, ((receivers_account joined 0).2.2.2.1 staysNear_joined).2 1,
    (receivers_account (joined ++ [.receive 1]) 0).2.2.2.2 1 (by decide)⟩

end Overrun
end Hub
end SvgJsx.Playground
