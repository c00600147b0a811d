import Mathlib.Data.List.Basic
import SvgJsx.Playground.Hub

/-! The messages that wait for the receivers of a channel, and the laws of a channel in terms of them.
Nothing else is used of a channel, and the hub keeps these laws. -/

namespace SvgJsx.Playground

theorem filterMap_concat {α β : Type} (f : α → Option β) (l : List α) (a : α) :
    (l ++ [a]).filterMap f = l.filterMap f ++ (f a).toList := by
  rw [List.filterMap_append]
  cases h : f a <;> simp [h]

namespace Delivery

def message? : Delivery → Option LiveMessage
  | message m => some m
  | _ => none

def missed : Delivery → Nat
  | lagged k => k
  | _ => 0

def passes : Delivery → Nat
  | message _ => 1
  | lagged k => k
  | empty => 0

end Delivery

namespace Channel

/-- What a receiver gets for which these messages wait, first of all those that are held no more. -/
def front (waiting : List LiveMessage) : Delivery :=
  if hubCapacity < waiting.length then .lagged (waiting.length - hubCapacity)
  else waiting.head?.elim .empty .message

def rest (waiting : List LiveMessage) : List LiveMessage := waiting.drop (front waiting).passes

section Fronts

variable {waiting : List LiveMessage}

theorem front_of_near (h : waiting.length ≤ hubCapacity) :
    front waiting = waiting.head?.elim .empty .message := if_neg (Nat.not_lt.2 h)

theorem front_of_far (h : hubCapacity < waiting.length) :
    front waiting = .lagged (waiting.length - hubCapacity) := if_pos h

theorem eq_cons_of_front {m : LiveMessage} (h : front waiting = .message m) :
    waiting = m :: rest waiting := by
  rcases Nat.lt_or_ge hubCapacity waiting.length with hfar | hnear
  · rw [front_of_far hfar] at h
    cases h
  · rw [rest, h]
    rw [front_of_near hnear] at h
    cases waiting with
    | nil => cases h
    | cons m' waiting =>
      cases h
      rfl

theorem lt_of_front {k : Nat} (h : front waiting = .lagged k) :
    0 < k ∧ k + hubCapacity = waiting.length := by
  rcases Nat.lt_or_ge hubCapacity waiting.length with hfar | hnear
  · rw [front_of_far hfar] at h
    have hk := Delivery.lagged.inj h
    omega
  · rw [front_of_near hnear] at h
    cases waiting <;> cases h

theorem eq_nil_of_front (h : front waiting = .empty) : waiting = [] := by
  rcases Nat.lt_or_ge hubCapacity waiting.length with hfar | hnear
  · rw [front_of_far hfar] at h
    cases h
  · rw [front_of_near hnear] at h
    cases waiting with
    | nil => rfl
    | cons m waiting => cases h

theorem passes_front_le (waiting : List LiveMessage) : (front waiting).passes ≤ waiting.length := by
  cases hfront : front waiting with
  | message m =>
    rw [eq_cons_of_front hfront]
    exact Nat.succ_le_succ (Nat.zero_le _)
  | empty => exact Nat.zero_le _
  | lagged k => exact (lt_of_front hfront).2 ▸ Nat.le_add_right k hubCapacity

theorem length_rest_le (waiting : List LiveMessage) : (rest waiting).length ≤ waiting.length := by
  rw [rest, List.length_drop]
  exact Nat.sub_le _ _

theorem front_append_rest (h : waiting.length ≤ hubCapacity) :
    (front waiting).message?.toList ++ rest waiting = waiting := by
  rw [rest, front_of_near h]
  cases waiting <;> rfl

theorem front_append_take (h : waiting.length ≤ hubCapacity) (n : Nat) :
    (front waiting).message?.toList ++ (rest waiting).take n = waiting.take (n + 1) := by
  rw [rest, front_of_near h]
  cases waiting <;> simp [Delivery.message?, Delivery.passes]

end Fronts

variable {σ : Type} [Channel σ]

/-- A channel as it comes about, with the messages that wait for each receiver. They are those sent
since it has joined, less what it has received or missed. -/
inductive Backlogs : σ → List (List LiveMessage) → Prop
  | new : Backlogs new []
  | subscribe {c : σ} {ws : List (List LiveMessage)} :
      Backlogs c ws → Backlogs (subscribe c) (ws ++ [[]])
  | send {c : σ} {ws : List (List LiveMessage)} (m : LiveMessage) :
      Backlogs c ws → Backlogs (send c m) (ws.map (· ++ [m]))
  | receive {c : σ} {ws : List (List LiveMessage)} (receiver : Nat) :
      Backlogs c ws → Backlogs (receive c receiver).2 (ws.modify receiver rest)

def Reached (c : σ) : Prop := ∃ ws, Backlogs c ws

/-- The laws of a channel. Whatever has been done with it, what it tells of a receiver is told by the
messages that wait for this receiver. -/
class Lawful (σ : Type) [Channel σ] : Prop where
  receivers_eq {c : σ} {ws : List (List LiveMessage)} : Backlogs c ws → receivers c = ws.length
  behind_eq {c : σ} {ws : List (List LiveMessage)} (receiver : Nat) :
    Backlogs c ws → behind c receiver = (ws[receiver]?.getD []).length
  receive_eq {c : σ} {ws : List (List LiveMessage)} (receiver : Nat) :
    Backlogs c ws → (receive c receiver).1 = front (ws[receiver]?.getD [])

end Channel
namespace Hub
open Channel (Backlogs front rest)

/-- The hub holds the last of all messages sent, and what waits for a receiver are those that come
behind its position. -/
structure Holds (h : Hub) (all : List LiveMessage) (ws : List (List LiveMessage)) : Prop where
  sent : h.sent = all.length
  held : h.held = all.drop (all.length - hubCapacity)
  position_le : ∀ position ∈ h.positions, position ≤ all.length
  waiting : ws = h.positions.map (all.drop ·)

section Holding

variable {h : Hub} {all : List LiveMessage} {ws : List (List LiveMessage)}

theorem Holds.subscribe (hh : h.Holds all ws) : h.subscribe.Holds all (ws ++ [[]]) where
  sent := hh.sent
  held := hh.held
  position_le position hp := by
    obtain hp | hp := List.mem_append.1 hp
    · exact hh.position_le position hp
    · exact Nat.le_of_eq ((List.mem_singleton.1 hp).trans hh.sent)
  waiting := by
    rw [hh.waiting, Hub.subscribe, List.map_append, List.map_singleton, hh.sent, List.drop_length]

theorem Holds.send (hh : h.Holds all ws) (m : LiveMessage) :
    (h.send m).Holds (all ++ [m]) (ws.map (· ++ [m])) where
  sent := by rw [Hub.send, hh.sent, List.length_append, List.length_singleton]
  held := by
    have hdrop : all.drop (all.length - hubCapacity) ++ [m] =
        (all ++ [m]).drop (all.length - hubCapacity) :=
      (List.drop_append_of_le_length (Nat.sub_le _ _)).symm
    rw [Hub.send, hh.held, hdrop, List.drop_drop, List.length_drop, List.length_append,
      List.length_singleton]
    have hcut : all.length - hubCapacity +
        (all.length - (all.length - hubCapacity) + 1 - hubCapacity) =
          all.length + 1 - hubCapacity := by omega
    rw [hcut]
  position_le position hp := by
    rw [List.length_append]
    exact Nat.le_add_right_of_le (hh.position_le position hp)
  waiting := by
    rw [hh.waiting, List.map_map]
    exact List.map_congr_left fun position hp =>
      (List.drop_append_of_le_length (hh.position_le position hp)).symm

theorem Holds.deliver (hh : h.Holds all ws) {position : Nat} (hle : position ≤ all.length) :
    h.deliver position =
      (front (all.drop position), position + (front (all.drop position)).passes) := by
  have hdropped : h.dropped = all.length - hubCapacity := by
    rw [dropped, hh.sent, hh.held, List.length_drop]
    omega
  have hlength : (all.drop position).length = all.length - position := List.length_drop
  rw [Hub.deliver, hdropped]
  split_ifs with hlags
  · rw [Channel.front_of_far (by omega), hlength, Delivery.passes]
    exact Prod.ext (congrArg Delivery.lagged (by omega)) (by omega)
  · have hget : h.held[position - (all.length - hubCapacity)]? = (all.drop position).head? := by
      rw [hh.held, List.getElem?_drop, Nat.add_sub_cancel' (Nat.not_lt.1 hlags), List.head?_drop]
    rw [hget, Channel.front_of_near (by omega)]
    cases all.drop position <;> rfl

theorem Holds.receive_of_position (hh : h.Holds all ws) {receiver position : Nat}
    (hp : h.positions[receiver]? = some position) :
    h.receive receiver = (front (all.drop position), { h with
      positions := h.positions.set receiver (position + (front (all.drop position)).passes) }) := by
  simp only [Hub.receive, hp, hh.deliver (hh.position_le position (List.mem_of_getElem? hp))]

theorem Holds.receive (hh : h.Holds all ws) (receiver : Nat) :
    (h.receive receiver).2.Holds all (ws.modify receiver rest) := by
  rw [hh.waiting, List.modify_eq_set_getElem?, List.getElem?_map]
  cases hp : h.positions[receiver]? with
  | none =>
    rw [Hub.receive, hp]
    exact ⟨hh.sent, hh.held, hh.position_le, rfl⟩
  | some position =>
    have hle := hh.position_le position (List.mem_of_getElem? hp)
    have hpasses := Channel.passes_front_le (all.drop position)
    rw [List.length_drop] at hpasses
    rw [hh.receive_of_position hp]
    refine ⟨hh.sent, hh.held, fun next hnext => ?_, ?_⟩
    · obtain hold | rfl := List.mem_or_eq_of_mem_set hnext
      · exact hh.position_le next hold
      · omega
    · rw [List.map_set, ← List.drop_drop]
      rfl

theorem exists_holds {h : Hub} (hb : Backlogs h ws) : ∃ all, h.Holds all ws := by
  induction hb with
  | new => exact ⟨[], rfl, rfl, fun _ hp => absurd hp List.not_mem_nil, rfl⟩
  | subscribe _ ih =>
    obtain ⟨all, hh⟩ := ih
    exact ⟨all, hh.subscribe⟩
  | send m _ ih =>
    obtain ⟨all, hh⟩ := ih
    exact ⟨all ++ [m], hh.send m⟩
  | receive receiver _ ih =>
    obtain ⟨all, hh⟩ := ih
    exact ⟨all, hh.receive receiver⟩

theorem Holds.getD_waiting (hh : h.Holds all ws) (receiver : Nat) :
    ws[receiver]?.getD [] = all.drop (h.positions[receiver]?.getD all.length) := by
  rw [hh.waiting, List.getElem?_map]
  cases h.positions[receiver]? with
  | none => exact (List.drop_length ..).symm
  | some position => rfl

end Holding

instance : Channel.Lawful Hub where
  receivers_eq hb := by
    obtain ⟨all, hh⟩ := exists_holds hb
    rw [hh.waiting, List.length_map]
    rfl
  behind_eq receiver hb := by
    obtain ⟨all, hh⟩ := exists_holds hb
    rw [hh.getD_waiting, List.length_drop, ← hh.sent]
    rfl
  receive_eq {h _} receiver hb := by
    obtain ⟨all, hh⟩ := exists_holds hb
    rw [hh.getD_waiting]
    change (h.receive receiver).1 = _
    cases hp : h.positions[receiver]? with
    | none =>
      rw [Hub.receive, hp, Option.getD_none, List.drop_length]
      rfl
    | some position => rw [hh.receive_of_position hp, Option.getD_some]

end Hub
end SvgJsx.Playground
