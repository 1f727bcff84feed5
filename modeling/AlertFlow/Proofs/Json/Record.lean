import AlertFlow.Json.Decode
import Mathlib.Data.List.Forall2

/-!
What readers of values and of records give, if they give anything. A record has what each of its
fields keeps. Two readers of records with the same field names are compared field by field: if
the one takes in the fields that the other one takes in, up to a property of what is collected, then
it takes in the same records, in either of their forms. Where the one meets changed values, what
they collect corresponds over all that is met one for one.
-/
namespace AlertFlow.Json

variable {δ ε : Type}

theorem bind_eq_ok {x : Except Fault δ} {f : δ → Except Fault ε} {b : ε} :
    x.bind f = .ok b ↔ ∃ a, x = .ok a ∧ f a = .ok b := by
  cases x <;> simp [Except.bind]

theorem map_eq_ok {x : Except Fault δ} {f : δ → ε} {b : ε} :
    x.map f = .ok b ↔ ∃ a, x = .ok a ∧ f a = b := by
  cases x <;> simp [Except.map]

theorem fill_eq_ok {slot new : Option δ} {value : Json → Except Fault δ} {j : Json} :
    fill slot value j = .ok new ↔ slot = none ∧ ∃ a, value j = .ok a ∧ some a = new := by
  cases slot with
  | none =>
    show (value j).map some = .ok new ↔ _
    rw [map_eq_ok]
    simp
  | some a => simp [fill]

theorem asWord_lt {j : Json} {n : Nat} (h : asWord j = .ok n) : n < wordLimit := by
  unfold asWord at h
  split at h
  · split at h
    · next hread =>
      cases h
      exact of_decide_eq_true (Option.filter_eq_some_iff.1 hread).2
    · cases h
  · cases h

theorem of_asText_eq_ok {parse? : String → Option δ} {j : Json} {a : δ}
    (h : asText parse? j = .ok a) : ∃ text, parse? text = some a := by
  obtain ⟨text, -, h⟩ := bind_eq_ok.1 h
  cases hparse : parse? text with
  | none => simp [hparse] at h
  | some b =>
    simp only [hparse] at h
    cases h
    exact ⟨text, hparse⟩

theorem foldlM_cons_eq_ok {α : Type} {f : δ → α → Except Fault δ} {a : α} {l : List α} {d d' : δ} :
    (a :: l).foldlM f d = .ok d' ↔ ∃ d₁, f d a = .ok d₁ ∧ l.foldlM f d₁ = .ok d' := by
  rw [List.foldlM_cons]
  exact bind_eq_ok

section Folds

variable {α : Type} {f : δ → α → Except Fault δ} {g : ε → α → Except Fault ε} (view : δ → ε)
  {P : δ → Prop}

/-- A property that is never gained is there from the start if it is there in the end. -/
theorem of_foldlM_eq_ok (hlost : ∀ d a d', f d a = .ok d' → P d' → P d) {l : List α} {d d' : δ}
    (h : l.foldlM f d = .ok d') (hP : P d') : P d := by
  induction l generalizing d with
  | nil =>
    cases h
    exact hP
  | cons a l ih =>
    obtain ⟨d₁, hfirst, hrest⟩ := foldlM_cons_eq_ok.1 h
    exact hlost d a d₁ hfirst (ih hrest)

/-- What is noted of the values that are taken in is noted of what is collected. -/
theorem any_of_foldlM_eq_ok (noted : δ → Bool) (p : α → Bool)
    (hstep : ∀ d a d', f d a = .ok d' → noted d' = (noted d || p a)) {l : List α} {d d' : δ}
    (h : l.foldlM f d = .ok d') : noted d' = (noted d || l.any p) := by
  induction l generalizing d with
  | nil =>
    cases h
    rw [List.any_nil, Bool.or_false]
  | cons a l ih =>
    obtain ⟨d₁, hfirst, hrest⟩ := foldlM_cons_eq_ok.1 h
    rw [ih hrest, hstep d a d₁ hfirst, List.any_cons, Bool.or_assoc]

theorem foldlM_eq_ok_iff (hlost : ∀ d a d', f d a = .ok d' → P d' → P d)
    (hstep : ∀ d a e, P d → (g (view d) a = .ok e ↔ ∃ d', f d a = .ok d' ∧ P d' ∧ view d' = e))
    {l : List α} {d : δ} (hP : P d) {e : ε} :
    l.foldlM g (view d) = .ok e ↔ ∃ d', l.foldlM f d = .ok d' ∧ P d' ∧ view d' = e := by
  induction l generalizing d with
  | nil =>
    constructor
    · intro h
      exact ⟨d, rfl, hP, by cases h; rfl⟩
    · intro h
      obtain ⟨d', hd, -, rfl⟩ := h
      cases hd
      rfl
  | cons a l ih =>
    constructor
    · intro h
      obtain ⟨e₁, hfirst, hrest⟩ := foldlM_cons_eq_ok.1 h
      obtain ⟨d₁, hd, hP₁, rfl⟩ := (hstep d a e₁ hP).1 hfirst
      obtain ⟨d', hd', hview⟩ := (ih hP₁).1 hrest
      exact ⟨d', foldlM_cons_eq_ok.2 ⟨d₁, hd, hd'⟩, hview⟩
    · intro h
      obtain ⟨d', hd', hP', hview⟩ := h
      obtain ⟨d₁, hfirst, hrest⟩ := foldlM_cons_eq_ok.1 hd'
      have hP₁ := of_foldlM_eq_ok hlost hrest hP'
      exact foldlM_cons_eq_ok.2 ⟨view d₁, (hstep d a _ hP).2 ⟨d₁, hfirst, hP₁, rfl⟩,
        (ih hP₁).2 ⟨d', hrest, hP', hview⟩⟩

/-- Over values that are met one for one, what is collected corresponds. -/
theorem foldlM_eq_map {β : Type} {g : ε → β → Except Fault ε} {l : List α} {l' : List β}
    (h : List.Forall₂ (fun a b => ∀ d, g (view d) b = (f d a).map view) l l') (d : δ) :
    l'.foldlM g (view d) = (l.foldlM f d).map view := by
  induction h generalizing d with
  | nil => rfl
  | @cons a b l l' hstep _ ih =>
    rw [List.foldlM_cons, List.foldlM_cons, hstep]
    cases f d a with
    | error fault => rfl
    | ok d₁ => exact ih d₁

end Folds

namespace RecordReader

variable {r : RecordReader δ} {r' : RecordReader ε} (view : δ → ε) {P : δ → Prop}

theorem takeMember_known {name : String} (h : r.names.contains name = true) (d : δ) (j : Json) :
    r.takeMember d (some name, j) = r.field name j d := by
  rw [takeMember]
  exact if_pos h

theorem takeMember_unknown {name : String} (h : r.names.contains name = false) (d : δ) (j : Json) :
    r.takeMember d (some name, j) = if j.isWhole then .ok d else .error .malformed := by
  rw [takeMember]
  exact if_neg (by rw [h]; decide)

/-- A member that is taken in is that of a field, or changes nothing. -/
theorem of_takeMember_eq_ok {d d' : δ} {m : Option String × Json}
    (h : r.takeMember d m = .ok d') : d' = d ∨ ∃ name, r.field name m.2 d = .ok d' := by
  obtain ⟨_ | name, j⟩ := m
  · cases h
  · cases hknown : r.names.contains name with
    | true => exact .inr ⟨name, takeMember_known hknown d j ▸ h⟩
    | false =>
      rw [takeMember_unknown hknown] at h
      split at h
      · cases h
        exact .inl rfl
      · cases h

/-- Takes in one value of the positional form, under the name of its place. -/
def takeItem (r : RecordReader δ) (fields : δ) (m : String × Json) : Except Fault δ :=
  r.field m.1 m.2 fields

theorem collect_array (d : δ) (items : List Json) :
    r.collect d (array items) =
      ((r.names.zip items).foldlM r.takeItem d).bind fun fields =>
        if items.length ≤ r.names.length then .ok fields else .error .malformed := rfl

theorem collect_array_eq_ok {d d' : δ} {items : List Json} :
    r.collect d (array items) = .ok d' ↔
      (r.names.zip items).foldlM r.takeItem d = .ok d' ∧ items.length ≤ r.names.length := by
  rw [collect_array, bind_eq_ok]
  constructor
  · intro h
    obtain ⟨d₁, hfields, h⟩ := h
    split at h
    · next hlength =>
      cases h
      exact ⟨hfields, hlength⟩
    · cases h
  · intro h
    exact ⟨d', h.1, if_pos h.2⟩

/-- A property that no field loses is there in the end if it is there from the start. -/
theorem collect_keeps {Q : δ → Prop} {d d' : δ} {j : Json}
    (hfield : ∀ name j d d', r.field name j d = .ok d' → Q d → Q d')
    (h : r.collect d j = .ok d') (hd : Q d) : Q d' := by
  by_contra hd'
  refine absurd hd ?_
  cases j with
  | object members =>
    refine of_foldlM_eq_ok (f := r.takeMember) (P := fun d => ¬ Q d) ?_ h hd'
    intro d m d' hm hd' hd
    rcases of_takeMember_eq_ok hm with rfl | ⟨name, hm⟩
    · exact hd' hd
    · exact hd' (hfield name m.2 d d' hm hd)
  | array items =>
    refine of_foldlM_eq_ok (f := r.takeItem) (P := fun d => ¬ Q d) ?_
      (collect_array_eq_ok.1 h).1 hd'
    exact fun d m d' hm hd' hd => hd' (hfield m.1 m.2 d d' hm hd)
  | _ => cases h

theorem collect_array_eq_map (hnames : r'.names = r.names) {items items' : List Json}
    (h : List.Forall₂ (fun m m' => ∀ d, r'.takeItem (view d) m' = (r.takeItem d m).map view)
      (r.names.zip items) (r'.names.zip items'))
    (hlength : items'.length = items.length) (d : δ) :
    r'.collect (view d) (array items') = (r.collect d (array items)).map view := by
  rw [collect_array, collect_array, foldlM_eq_map view h, hlength, hnames]
  cases (r.names.zip items).foldlM r.takeItem d with
  | error fault => rfl
  | ok fields =>
    by_cases hle : items.length ≤ r.names.length <;> simp [Except.bind, Except.map, hle]

/-- If two readers take in the same fields, as far as a property of what is collected goes, then
they take in the same records as far as it goes. The property is never gained. -/
theorem collect_eq_ok_iff (hnames : r'.names = r.names)
    (hlost : ∀ name j d d', r.field name j d = .ok d' → P d' → P d)
    (hfield : ∀ name j d e, P d →
      (r'.field name j (view d) = .ok e ↔ ∃ d', r.field name j d = .ok d' ∧ P d' ∧ view d' = e))
    {d : δ} (hP : P d) (j : Json) {e : ε} :
    r'.collect (view d) j = .ok e ↔ ∃ d', r.collect d j = .ok d' ∧ P d' ∧ view d' = e := by
  cases j with
  | object members =>
    refine foldlM_eq_ok_iff view (f := r.takeMember) (g := r'.takeMember) ?_ ?_ hP
    · intro d m d' h hP'
      rcases of_takeMember_eq_ok h with rfl | ⟨name, h⟩
      · exact hP'
      · exact hlost name m.2 d d' h hP'
    · intro d m e hP
      obtain ⟨_ | name, j⟩ := m
      · simp [takeMember]
      · cases hknown : r.names.contains name with
        | true =>
          rw [takeMember_known hknown, takeMember_known (hnames ▸ hknown)]
          exact hfield name j d e hP
        | false =>
          rw [takeMember_unknown hknown, takeMember_unknown (hnames ▸ hknown)]
          cases j.isWhole with
          | true => simp [hP]
          | false => simp
  | array items =>
    simp only [collect_array_eq_ok]
    rw [hnames, foldlM_eq_ok_iff view (f := r.takeItem) (g := r'.takeItem)
      (fun d m => hlost m.1 m.2 d) (fun d m e => hfield m.1 m.2 d e) hP]
    constructor
    · rintro ⟨⟨d', h, hview⟩, hlength⟩
      exact ⟨d', ⟨h, hlength⟩, hview⟩
    · rintro ⟨d', ⟨h, hlength⟩, hview⟩
      exact ⟨⟨d', h, hview⟩, hlength⟩
  | _ => simp [collect]

end RecordReader

end AlertFlow.Json
