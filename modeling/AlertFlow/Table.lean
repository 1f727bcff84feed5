/-!
Finite maps that remember the order in which their keys came in. A key stands at most once; writing
to a present key keeps its place, writing to a new one appends it. Nothing outside this module looks
at the order except where entries are listed, so a result that must not depend on it can be stated
over `toList` and a permutation.
-/
namespace AlertFlow

/-- A finite map, kept as its entries with no key twice. -/
structure Table (κ α : Type) where
  entries : List (κ × α)
  nodup : (entries.map Prod.fst).Nodup

namespace Table

variable {κ α β : Type} [DecidableEq κ]

/-- The first value under a key in a list of entries. -/
def lookup (k : κ) : List (κ × α) → Option α
  | [] => none
  | (k', a) :: rest => if k' = k then some a else lookup k rest

/-- Replaces the value under a key, or appends the key. -/
def put (k : κ) (a : α) : List (κ × α) → List (κ × α)
  | [] => [(k, a)]
  | (k', b) :: rest => if k' = k then (k, a) :: rest else (k', b) :: put k a rest

theorem mem_keys_put {k k' : κ} {a : α} {l : List (κ × α)} :
    k' ∈ (put k a l).map Prod.fst ↔ k' = k ∨ k' ∈ l.map Prod.fst := by
  induction l with
  | nil => simp [put]
  | cons e rest ih =>
    obtain ⟨k₀, b⟩ := e
    by_cases h : k₀ = k
    · subst h
      simp [put]
    · simp only [put, h, if_false, List.map_cons, List.mem_cons, ih]
      grind

theorem nodup_keys_put {k : κ} {a : α} {l : List (κ × α)} (h : (l.map Prod.fst).Nodup) :
    ((put k a l).map Prod.fst).Nodup := by
  induction l with
  | nil => simp [put]
  | cons e rest ih =>
    obtain ⟨k₀, b⟩ := e
    rw [List.map_cons, List.nodup_cons] at h
    by_cases hk : k₀ = k
    · subst hk
      simpa [put] using h
    · rw [put, if_neg hk, List.map_cons, List.nodup_cons, mem_keys_put]
      exact ⟨fun hm => hm.elim (fun e => hk e) h.1, ih h.2⟩

def empty : Table κ α := ⟨[], List.nodup_nil⟩

instance : Inhabited (Table κ α) := ⟨empty⟩

def get? (t : Table κ α) (k : κ) : Option α := lookup k t.entries

/-- Puts a value under a key. -/
def insert (t : Table κ α) (k : κ) (a : α) : Table κ α :=
  ⟨put k a t.entries, nodup_keys_put t.nodup⟩

/-- Keeps the entries that pass a test. -/
def filter (t : Table κ α) (p : κ → α → Bool) : Table κ α :=
  ⟨t.entries.filter fun e => p e.1 e.2,
    t.nodup.sublist (List.filter_sublist.map Prod.fst)⟩

def erase (t : Table κ α) (k : κ) : Table κ α := t.filter fun k' _ => decide (k' ≠ k)

def map (f : α → β) (t : Table κ α) : Table κ β :=
  ⟨t.entries.map fun e => (e.1, f e.2), by simpa [Function.comp_def] using t.nodup⟩

/-- Changes the value under a key, if there is one. -/
def modify (t : Table κ α) (k : κ) (f : α → α) : Table κ α :=
  match t.get? k with
  | some a => t.insert k (f a)
  | none => t

/-- The entries, in the order in which their keys came in. -/
def toList (t : Table κ α) : List (κ × α) := t.entries

/-- The values, in that order. -/
def values (t : Table κ α) : List α := t.entries.map Prod.snd

def size (t : Table κ α) : Nat := t.entries.length

def isEmpty (t : Table κ α) : Bool := t.entries.isEmpty

theorem lookup_put (k k' : κ) (a : α) (l : List (κ × α)) :
    lookup k' (put k a l) = if k = k' then some a else lookup k' l := by
  induction l with
  | nil => simp [put, lookup]
  | cons e rest ih =>
    obtain ⟨k₀, b⟩ := e
    by_cases h : k₀ = k
    · subst h
      by_cases h' : k₀ = k' <;> simp [put, lookup, h']
    · by_cases h' : k₀ = k'
      · subst h'
        have : ¬ k = k₀ := fun e => h e.symm
        simp [put, lookup, h, this]
      · simp [put, lookup, h, h', ih]

@[simp] theorem get?_empty (k : κ) : (empty : Table κ α).get? k = none := rfl

theorem get?_insert (t : Table κ α) (k k' : κ) (a : α) :
    (t.insert k a).get? k' = if k = k' then some a else t.get? k' :=
  lookup_put k k' a t.entries

@[simp] theorem get?_insert_self (t : Table κ α) (k : κ) (a : α) :
    (t.insert k a).get? k = some a := by simp [get?_insert]

theorem lookup_eq_none {k : κ} {l : List (κ × α)} (h : k ∉ l.map Prod.fst) : lookup k l = none := by
  induction l with
  | nil => rfl
  | cons e rest ih =>
    obtain ⟨k₀, b⟩ := e
    rw [List.map_cons, List.mem_cons, not_or] at h
    rw [lookup, if_neg (Ne.symm h.1), ih h.2]

theorem get?_filter (t : Table κ α) (p : κ → α → Bool) (k : κ) :
    (t.filter p).get? k = (t.get? k).filter (p k) := by
  obtain ⟨l, h⟩ := t
  simp only [get?, filter]
  induction l with
  | nil => simp [lookup]
  | cons e rest ih =>
    obtain ⟨k₀, b⟩ := e
    rw [List.map_cons, List.nodup_cons] at h
    rw [List.filter_cons]
    by_cases hk : k₀ = k
    · subst hk
      have hrest : lookup k₀ (rest.filter fun e => p e.1 e.2) = none := by
        rw [ih h.2, lookup_eq_none h.1]
        rfl
      cases hp : p k₀ b with
      | true => simp [lookup, Option.filter_some, hp]
      | false => simp [lookup, Option.filter_some, hp, hrest]
    · cases hp : p k₀ b with
      | true => simpa [lookup, hk] using ih h.2
      | false => simpa [lookup, hk] using ih h.2

theorem get?_filter_key (t : Table κ α) (p : κ → Bool) (k : κ) :
    (t.filter fun k' _ => p k').get? k = if p k then t.get? k else none := by
  rw [get?_filter]
  cases t.get? k with
  | none => simp
  | some a => rw [Option.filter_some]

theorem get?_erase (t : Table κ α) (k k' : κ) :
    (t.erase k).get? k' = if k = k' then none else t.get? k' := by
  simp only [erase, get?_filter_key]
  by_cases h : k = k'
  · subst h; simp
  · have : k' ≠ k := fun e => h e.symm
    simp [h, this]

theorem get?_map (f : α → β) (t : Table κ α) (k : κ) : (t.map f).get? k = (t.get? k).map f := by
  obtain ⟨l, h⟩ := t
  simp only [get?, map]
  clear h
  induction l with
  | nil => rfl
  | cons e rest ih =>
    obtain ⟨k₀, b⟩ := e
    by_cases hk : k₀ = k <;> simp [lookup, hk, ih]

theorem get?_modify (t : Table κ α) (k k' : κ) (f : α → α) :
    (t.modify k f).get? k' = if k = k' then (t.get? k).map f else t.get? k' := by
  unfold modify
  split
  · next a h => by_cases e : k = k' <;> simp_all [get?_insert]
  · next h =>
    by_cases e : k = k'
    · subst e; simp [h]
    · simp [e]

theorem mem_toList_iff (t : Table κ α) (k : κ) (a : α) :
    (k, a) ∈ t.toList ↔ t.get? k = some a := by
  obtain ⟨l, h⟩ := t
  simp only [toList, get?]
  induction l with
  | nil => simp [lookup]
  | cons e rest ih =>
    obtain ⟨k₀, b⟩ := e
    rw [List.map_cons, List.nodup_cons] at h
    by_cases hk : k₀ = k
    · subst hk
      have hn : (k₀, a) ∉ rest := fun hm => h.1 (List.mem_map.2 ⟨_, hm, rfl⟩)
      simp [lookup, hn, eq_comm]
    · have : ¬ k = k₀ := fun e => hk e.symm
      simp [lookup, hk, this, ih h.2]

theorem mem_values {t : Table κ α} {a : α} : a ∈ t.values ↔ ∃ k, t.get? k = some a := by
  simp only [values, List.mem_map, ← mem_toList_iff, toList]
  constructor
  · intro h
    obtain ⟨⟨k, a⟩, he, rfl⟩ := h
    exact ⟨k, he⟩
  · intro h
    obtain ⟨k, he⟩ := h
    exact ⟨_, he, rfl⟩

/-- A map has as many different values as keys if each value tells its key. -/
theorem nodup_map_values (t : Table κ α) (key : α → κ)
    (h : ∀ k a, t.get? k = some a → key a = k) : (t.values.map key).Nodup := by
  have hkeys : t.values.map key = t.entries.map Prod.fst := by
    rw [values, List.map_map]
    exact List.map_congr_left fun e he => h e.1 e.2 ((mem_toList_iff t e.1 e.2).1 he)
  rw [hkeys]
  exact t.nodup

theorem isEmpty_iff {t : Table κ α} : t.isEmpty = true ↔ ∀ k, t.get? k = none := by
  rw [isEmpty, List.isEmpty_iff]
  constructor
  · intro h k
    simp [get?, h, lookup]
  · intro h
    rw [List.eq_nil_iff_forall_not_mem]
    intro e he
    have := (mem_toList_iff t e.1 e.2).1 he
    rw [h e.1] at this
    cases this

end Table

end AlertFlow
