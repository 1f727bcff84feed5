import AlertFlow.Alert.Store
import AlertFlow.Proofs.Alert.Feed
import Mathlib.Data.List.Induction

/-!
What a store holds, said over the alerts that were put: under each fingerprint the last of them.
-/
namespace AlertFlow

/-- The last of some alerts that has a fingerprint. -/
def Alert.latest? (l : List Alert) (fp : Fingerprint) : Option Alert :=
  l.reverse.find? (·.fingerprint = fp)

theorem Alert.latest?_concat (l : List Alert) (a : Alert) (fp : Fingerprint) :
    latest? (l ++ [a]) fp = if a.fingerprint = fp then some a else latest? l fp := by
  unfold latest?
  rw [List.reverse_concat, List.find?_cons]
  by_cases h : a.fingerprint = fp
  · rw [if_pos h, decide_eq_true h]
  · rw [if_neg h, decide_eq_false h]

theorem Alert.latest?_eq_some {l : List Alert} {fp : Fingerprint} {a : Alert}
    (h : latest? l fp = some a) : a ∈ l ∧ a.fingerprint = fp :=
  ⟨List.mem_reverse.1 (List.mem_of_find?_eq_some h), by simpa using List.find?_some h⟩

theorem Alert.exists_latest? {l : List Alert} {a : Alert} (h : a ∈ l) :
    ∃ b, latest? l a.fingerprint = some b := by
  have hsome : (latest? l a.fingerprint).isSome = true := by
    rw [latest?, List.find?_isSome]
    exact ⟨a, List.mem_reverse.2 h, by simp⟩
  exact Option.isSome_iff_exists.1 hsome

theorem Alert.latest?_append (l l' : List Alert) (fp : Fingerprint) :
    latest? (l ++ l') fp = (latest? l' fp).or (latest? l fp) := by
  rw [latest?, List.reverse_append, List.find?_append]
  rfl

namespace AlertStore

theorem put_append (s : AlertStore) (l l' : List Alert) : s.put (l ++ l') = (s.put l).put l' := by
  unfold put
  exact List.foldl_append

/-- A batch overwrites a store, the last alert of a fingerprint standing. -/
theorem get?_put (s : AlertStore) (batch : List Alert) (fp : Fingerprint) :
    (s.put batch).alerts.get? fp = (Alert.latest? batch fp).or (s.alerts.get? fp) := by
  induction batch using List.reverseRecOn with
  | nil => rfl
  | append_singleton batch a ih =>
    rw [put_append, Alert.latest?_concat]
    show ((s.put batch).alerts.insert a.fingerprint a).get? fp = _
    rw [Table.get?_insert, ih]
    split <;> rfl

/-- The alerts of a store are what is left of a list of alerts. -/
def Stocks (s : AlertStore) (l : List Alert) : Prop :=
  ∀ fp, s.alerts.get? fp = Alert.latest? l fp

namespace Stocks

variable {s : AlertStore} {l : List Alert}

theorem ofCapacity (n : Nat) : (AlertStore.ofCapacity n).Stocks [] := fun _ => rfl

theorem put (h : s.Stocks l) (batch : List Alert) : (s.put batch).Stocks (l ++ batch) := by
  induction batch generalizing s l with
  | nil =>
    rw [List.append_nil]
    exact h
  | cons a batch ih =>
    rw [List.append_cons]
    refine @ih (s.putOne a) (l ++ [a]) fun fp => ?_
    rw [Alert.latest?_concat, ← h fp]
    exact Table.get?_insert s.alerts a.fingerprint fp a

theorem mem_values (h : s.Stocks l) {a : Alert} :
    a ∈ s.alerts.values ↔ s.alerts.get? a.fingerprint = some a := by
  rw [Table.mem_values]
  constructor
  · intro hmem
    obtain ⟨fp, hget⟩ := hmem
    obtain rfl : a.fingerprint = fp := (Alert.latest?_eq_some (h fp ▸ hget)).2
    exact hget
  · intro hget
    exact ⟨_, hget⟩

/-- The alerts of a store are what is left of themselves. -/
theorem values (h : s.Stocks l) : s.Stocks s.alerts.values := by
  intro fp
  cases hlast : Alert.latest? s.alerts.values fp with
  | none =>
    cases hget : s.alerts.get? fp with
    | none => rfl
    | some a =>
      obtain rfl : a.fingerprint = fp := (Alert.latest?_eq_some (h fp ▸ hget)).2
      have hnone := List.find?_eq_none.1 hlast a (List.mem_reverse.2 (h.mem_values.2 hget))
      simp at hnone
  | some a =>
    obtain ⟨hmem, rfl⟩ := Alert.latest?_eq_some hlast
    exact h.mem_values.1 hmem

/-- No two stored alerts share a fingerprint. -/
theorem nodup_values (h : s.Stocks l) : (s.alerts.values.map Alert.fingerprint).Nodup :=
  s.alerts.nodup_map_values _ fun fp _ hget => (Alert.latest?_eq_some (h fp ▸ hget)).2

end Stocks

end AlertStore

@[simp] theorem Feed.capacity_send (f : Feed) (a : Alert) : (f.send a).capacity = f.capacity := by
  unfold Feed.send
  split <;> rfl

@[simp] theorem AlertStore.capacity_put (s : AlertStore) (batch : List Alert) :
    (s.put batch).feed.capacity = s.feed.capacity := by
  induction batch generalizing s with
  | nil => rfl
  | cons a batch ih => exact (ih (s.putOne a)).trans (s.feed.capacity_send a)

/-- The feed of a store carries what is put. -/
theorem Feed.Carries.put {s : AlertStore} {all : List Alert} (h : s.feed.Carries all)
    (batch : List Alert) : (s.put batch).feed.Carries (all ++ batch) := by
  induction batch generalizing s all with
  | nil =>
    rw [List.append_nil]
    exact h
  | cons a batch ih =>
    rw [List.append_cons]
    exact @ih (s.putOne a) (all ++ [a]) (h.send a)

end AlertFlow
