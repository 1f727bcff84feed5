import AlertFlow.Alert.Feed
import Mathlib.Data.List.Basic

/-!
Readings of a live feed, said over the alerts that were ever sent. The feed holds the last of them,
so a reader at a position among them reads the alert there, unless that is no longer held: then it
reads the oldest one that is, and the error counts those in between.
-/
namespace AlertFlow

/-- A feed that is open and holds the last of the alerts that were ever sent. -/
structure Feed.Carries (f : Feed) (all : List Alert) : Prop where
  held : f.held = all.drop f.dropped
  dropped_le : f.dropped ≤ all.length
  bound : f.held.length ≤ f.capacity
  /-- Alerts are given up only for want of room. -/
  full : 0 < f.dropped → f.held.length = f.capacity
  room : 0 < f.capacity
  isOpen : f.isClosed = false

namespace Feed.Carries

variable {f : Feed} {all : List Alert}

theorem ofCapacity (n : Nat) : (Feed.ofCapacity n).Carries [] where
  held := rfl
  dropped_le := Nat.le_refl 0
  bound := Nat.zero_le _
  full := fun h => absurd h (Nat.lt_irrefl 0)
  room := Nat.pos_of_isPowerOfTwo (Nat.isPowerOfTwo_nextPowerOfTwo _)
  isOpen := rfl

theorem send (h : f.Carries all) (a : Alert) : (f.send a).Carries (all ++ [a]) := by
  unfold Feed.send
  split
  · next hroom =>
    refine ⟨?_, ?_, ?_, ?_, h.room, h.isOpen⟩
    · rw [List.drop_append_of_le_length h.dropped_le, ← h.held]
    · rw [List.length_append]
      exact Nat.le_add_right_of_le h.dropped_le
    · rw [List.length_append]
      exact hroom
    · intro hdropped
      exact absurd (h.full hdropped) (Nat.ne_of_lt hroom)
  · next hfull =>
    have hcap : f.held.length = f.capacity := Nat.le_antisymm h.bound (Nat.le_of_not_lt hfull)
    have hlt : f.dropped < all.length := by
      have := congrArg List.length h.held
      have := h.room
      rw [List.length_drop] at *
      omega
    have hlen : (f.held.drop 1 ++ [a]).length = f.capacity := by
      have := h.room
      rw [List.length_append, List.length_drop, List.length_singleton]
      omega
    refine ⟨?_, ?_, Nat.le_of_eq hlen, fun _ => hlen, h.room, h.isOpen⟩
    · rw [List.drop_append_of_le_length hlt, h.held, List.drop_drop]
    · rw [List.length_append]
      exact Nat.le_succ_of_le hlt

/-- A feed that gave up alerts still holds one. -/
theorem dropped_lt (h : f.Carries all) (hd : 0 < f.dropped) : f.dropped < all.length := by
  have hlen := congrArg List.length h.held
  have hfull := h.full hd
  have hroom := h.room
  rw [List.length_drop] at hlen
  omega

theorem sent_eq (h : f.Carries all) : f.sent = all.length := by
  have hle := h.dropped_le
  rw [Feed.sent, h.held, List.length_drop]
  omega

/-- What is held at a position that has not been given up. -/
theorem getElem?_held (h : f.Carries all) {p : Nat} (hp : f.dropped ≤ p) :
    f.held[p - f.dropped]? = all[p]? := by
  rw [h.held, List.getElem?_drop, Nat.add_sub_cancel' hp]

end Feed.Carries

namespace Subscription

variable {f : Feed} {all : List Alert} {s : Subscription} {p : Nat}

/-- A reader that keeps up reads the alert at its position. -/
theorem next_of_dropped_le (hc : f.Carries all) (hr : s.replay = []) (hp : s.position = some p)
    (hle : f.dropped ≤ p) :
    s.next f =
      match all[p]? with
      | some a => (.alert a, { s with position := some (p + 1) })
      | none => (.pending, s) := by
  obtain ⟨replay, position, error⟩ := s
  obtain rfl : replay = [] := hr
  obtain rfl : position = some p := hp
  simp only [next, catchUp, nextLive, if_neg (Nat.not_lt.2 hle), hc.getElem?_held hle, hc.isOpen]
  cases all[p]? <;> rfl

/-- An overtaken reader reads the oldest alert held and records how many it has missed. -/
theorem next_of_lt_dropped (hc : f.Carries all) (hr : s.replay = []) (hp : s.position = some p)
    (hlt : p < f.dropped) :
    ∃ a, all[f.dropped]? = some a ∧
      s.next f = (.alert a, { s with
        position := some (f.dropped + 1), error := some (.lagged (f.dropped - p)) }) := by
  have hin := hc.dropped_lt (Nat.zero_lt_of_lt hlt)
  refine ⟨all[f.dropped], List.getElem?_eq_getElem hin, ?_⟩
  obtain ⟨replay, position, error⟩ := s
  obtain rfl : replay = [] := hr
  obtain rfl : position = some p := hp
  simp only [next, catchUp, nextLive, if_pos hlt, hc.getElem?_held (Nat.le_refl _),
    List.getElem?_eq_getElem hin]

end Subscription

end AlertFlow
