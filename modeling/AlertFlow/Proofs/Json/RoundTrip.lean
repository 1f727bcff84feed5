import AlertFlow.Json.Writer
import AlertFlow.Proofs.Json.Record
import AlertFlow.Proofs.LabelSet
import AlertFlow.Proofs.Text.Decimal

/-!
JSON round trip. A value that is built from texts, integers and named members is read back from
what is written for it, with nothing left over. The text behind a value inside a document begins
with a comma or a closing bracket, which is where a number ends.
-/
namespace AlertFlow.Json

/-! ## Strings -/

theorem hexRead?_write (n : Nat) (h : n < 0x10000) :
    ∃ a b c d, Hex.write 4 n = [a, b, c, d] ∧ Hex.read? [a, b, c, d] = some n := by
  refine ⟨_, _, _, _, rfl, ?_⟩
  have := Hex.readFrom_write 4 n 0 h
  rw [Nat.zero_mul, Nat.zero_add] at this
  exact this

/-- A control character stands for itself in a four-digit escape; it is no half of a pair. -/
theorem join?_control {n : Nat} (h : n < 0x20) (ps : List Piece) :
    join? (.unit n :: ps) = (join? ps).map (Char.ofNat n :: ·) := by
  have hhigh : isHighHalf n = false := by
    simp only [isHighHalf, Bool.and_eq_false_iff, decide_eq_false_iff_not]
    omega
  have hlow : isLowHalf n = false := by
    simp only [isLowHalf, Bool.and_eq_false_iff, decide_eq_false_iff_not]
    omega
  rcases ps with _ | ⟨c | m, ps⟩ <;> simp [join?, hhigh, hlow]

theorem pieces?_letter {e c : Char} (h : escaped? e = some c) (cs : List Char) :
    pieces? ('\\' :: e :: cs) = (pieces? cs).map fun q => (.char c :: q.1, q.2) := by
  rw [pieces?, h]
  intro a b c' d cs' hu
  -- the letter of the four-digit escape is no letter of its own
  subst hu
  cases h

/-- A written character is read as one piece, which stands for that character. -/
theorem pieces?_escape (c : Char) (cs : List Char) :
    ∃ p, pieces? (escape c ++ cs) = (pieces? cs).map (fun q => (p :: q.1, q.2)) ∧
      ∀ ps, join? (p :: ps) = (join? ps).map (c :: ·) := by
  have letter : ∀ e, escaped? e = some c →
      ∃ p, pieces? ('\\' :: e :: cs) = (pieces? cs).map (fun q => (p :: q.1, q.2)) ∧
        ∀ ps, join? (p :: ps) = (join? ps).map (c :: ·) := by
    intro e he
    exact ⟨.char c, pieces?_letter he cs, fun ps => by rw [join?]⟩
  unfold escape
  split
  · next h =>
    subst h
    exact letter '"' rfl
  split
  · next h =>
    subst h
    exact letter '\\' rfl
  split
  · next h =>
    subst h
    exact letter 'n' rfl
  split
  · next h =>
    subst h
    exact letter 'r' rfl
  split
  · next h =>
    subst h
    exact letter 't' rfl
  split
  · next h =>
    subst h
    exact letter 'b' rfl
  split
  · next h =>
    subst h
    exact letter 'f' rfl
  split
  · next h =>
    obtain ⟨a, b, c', d, hw, hr⟩ := hexRead?_write c.toNat (by omega)
    refine ⟨.unit c.toNat, ?_, fun ps => ?_⟩
    · rw [hw]
      simp [pieces?, hr]
    · rw [join?_control h, Char.ofNat_toNat]
  · next hquote hslash _ _ _ _ _ hplain =>
    refine ⟨.char c, ?_, fun ps => by rw [join?]⟩
    rw [List.singleton_append, pieces?]
    · rw [if_neg hplain]
    · exact fun h => absurd h hquote
    · intro a b c' d cs' h
      exact absurd h hslash
    · intro a b h
      exact absurd h hslash

theorem pieces?_escapes (s rest : List Char) :
    ∃ ps, pieces? (s.flatMap escape ++ '"' :: rest) = some (ps, rest) ∧ join? ps = some s := by
  induction s with
  | nil => exact ⟨[], by rw [List.flatMap_nil, List.nil_append, pieces?], rfl⟩
  | cons c s ih =>
    obtain ⟨ps, hps, hjoin⟩ := ih
    obtain ⟨p, hp, hc⟩ := pieces?_escape c (s.flatMap escape ++ '"' :: rest)
    refine ⟨p :: ps, ?_, ?_⟩
    · rw [List.flatMap_cons, List.append_assoc, hp, hps]
      rfl
    · rw [hc, hjoin]
      rfl

/-- A written string is read back, behind its opening quote. -/
theorem pieces?_quote (s : String) (rest : List Char) :
    ∃ ps, pieces? (s.toList.flatMap escape ++ '"' :: rest) = some (ps, rest) ∧
      text? ps = some s := by
  obtain ⟨ps, hps, hjoin⟩ := pieces?_escapes s.toList rest
  refine ⟨ps, hps, ?_⟩
  rw [text?, hjoin, Option.map_some, String.ofList_toList]

theorem quote_append (s : String) (rest : List Char) :
    quote s ++ rest = '"' :: (s.toList.flatMap escape ++ '"' :: rest) := by
  simp [quote]

theorem scalar_quote (s : String) (rest : List Char) :
    scalar (quote s ++ rest) = (string s, some rest) := by
  obtain ⟨ps, hps, htext⟩ := pieces?_quote s rest
  rw [quote_append, scalar, hps]
  simp only [htext]

/-! ## Numbers -/

/-- The text behind a value: nothing, or what separates or closes. -/
def Follows (cs : List Char) : Prop := ∀ c ∈ cs.head?, c = ',' ∨ c = ']' ∨ c = '\x7d'

theorem follows_nil : Follows [] := by
  intro c hc
  cases hc

theorem follows_cons {c : Char} (h : c = ',' ∨ c = ']' ∨ c = '\x7d') (cs : List Char) :
    Follows (c :: cs) := by
  intro d hd
  cases hd
  exact h

theorem Follows.endsDigits {cs : List Char} (h : Follows cs) : Decimal.EndsDigits cs := by
  intro c hc
  rcases h c hc with rfl | rfl | rfl <;> rfl

/-- Behind a whole number there is neither a fraction nor an exponent. -/
theorem Follows.integral {cs : List Char} (h : Follows cs) :
    fractionPart? cs = some ([], cs) ∧ exponentPart? cs = some ([], cs) := by
  rcases cs with _ | ⟨c, cs⟩
  · exact ⟨rfl, rfl⟩
  · rcases h c rfl with rfl | rfl | rfl <;> simp [fractionPart?, exponentPart?]

theorem unsigned?_write (n : Nat) {rest : List Char} (h : Follows rest) :
    unsigned? (Decimal.write n ++ rest) = some (Decimal.write n, rest) := by
  obtain ⟨htake, hdrop⟩ := Decimal.takeWhile_digits (Decimal.digits_write n) h.endsDigits
  have hdigits : digits? (Decimal.write n ++ rest) = some (Decimal.write n, rest) := by
    rw [digits?, htake, hdrop, if_neg]
    simpa using Decimal.write_ne_nil n
  have hinteger : integerPart? (Decimal.write n ++ rest) = some (Decimal.write n, rest) := by
    rw [integerPart?, hdigits]
    split
    · next heq =>
      -- digits behind a leading zero are not written
      injection heq with heq
      injection heq with heq
      cases Decimal.write_eq_zero_cons heq
    · rfl
  rw [unsigned?, hinteger]
  simp [h.integral.1, h.integral.2]

theorem number?_writeInt (n : Int) {rest : List Char} (h : Follows rest) :
    number? (Decimal.writeInt n ++ rest) = some (Decimal.writeInt n, rest) := by
  unfold Decimal.writeInt
  split
  · rw [List.cons_append, number?, unsigned?_write _ h]
    rfl
  · rw [number?]
    · exact unsigned?_write _ h
    · intro cs heq
      obtain ⟨c, ds, hds⟩ := List.exists_cons_of_ne_nil (Decimal.write_ne_nil n.natAbs)
      have hc := Decimal.digits_write n.natAbs c (hds ▸ List.mem_cons_self)
      rw [hds, List.cons_append] at heq
      rw [List.head_eq_of_cons_eq heq] at hc
      cases hc

/-! ## Values -/

/-- A value that its text determines: its numbers are integers, its members have names, and nothing
breaks off. -/
inductive Written : Json → Prop where
  | null : Written null
  | bool (b : Bool) : Written (bool b)
  | int (n : Int) : Written (int n)
  | string (s : String) : Written (string s)
  | array {items : List Json} (h : ∀ j ∈ items, Written j) : Written (array items)
  | record {members : List (String × Json)} (h : ∀ m ∈ members, Written m.2) :
    Written (record members)

theorem Written.nat (n : Nat) : Written (nat n) := Written.int n

theorem Written.strings (texts : List String) : Written (.array (texts.map .string)) := by
  refine .array fun j hj => ?_
  obtain ⟨text, -, rfl⟩ := List.mem_map.1 hj
  exact .string text

theorem Written.labels (s : LabelSet) : Written (labels s) := by
  refine .record fun m hm => ?_
  obtain ⟨p, -, rfl⟩ := List.mem_map.1 hm
  exact .string p.2

theorem skipSpace_cons {c : Char} (h : isSpace c = false) (cs : List Char) :
    skipSpace (c :: cs) = c :: cs := by
  rw [skipSpace, List.dropWhile_cons, h]
  rfl

theorem render_int (n : Int) : render (int n) = Decimal.writeInt n := by
  rw [int, render, String.toList_ofList]

/-- The first character of an integer is its sign or a digit. -/
theorem writeInt_head (n : Int) :
    ∃ c cs, Decimal.writeInt n = c :: cs ∧ (c = '-' ∨ Decimal.isDigit c = true) := by
  unfold Decimal.writeInt
  split
  · exact ⟨'-', _, rfl, .inl rfl⟩
  · obtain ⟨c, cs, hcs⟩ := List.exists_cons_of_ne_nil (Decimal.write_ne_nil n.natAbs)
    exact ⟨c, cs, hcs, .inr (Decimal.digits_write n.natAbs c (hcs ▸ List.mem_cons_self))⟩

theorem writeInt_append_ne {c : Char} (hsign : c ≠ '-') (hdigit : Decimal.isDigit c = false)
    (n : Int) (rest cs : List Char) : Decimal.writeInt n ++ rest ≠ c :: cs := by
  intro heq
  obtain ⟨d, ds, hds, hd⟩ := writeInt_head n
  rw [hds, List.cons_append] at heq
  obtain rfl := List.head_eq_of_cons_eq heq
  rcases hd with hd | hd
  · exact hsign hd
  · rw [hd] at hdigit
    cases hdigit

theorem scalar_writeInt (n : Int) {rest : List Char} (h : Follows rest) :
    scalar (Decimal.writeInt n ++ rest) = (int n, some rest) := by
  have hnumber := number?_writeInt n h
  unfold scalar
  split
  · next heq => exact absurd heq (writeInt_append_ne (by decide) rfl n _ _)
  · next heq => exact absurd heq (writeInt_append_ne (by decide) rfl n _ _)
  · next heq => exact absurd heq (writeInt_append_ne (by decide) rfl n _ _)
  · next heq => exact absurd heq (writeInt_append_ne (by decide) rfl n _ _)
  · rw [hnumber]
    rfl

/-- A written value begins with a character that neither is blank nor closes an array. -/
theorem Written.head {j : Json} (h : Written j) :
    ∃ c cs, render j = c :: cs ∧ isSpace c = false ∧ c ≠ ']' := by
  cases h with
  | null => exact ⟨'n', _, rfl, rfl, by decide⟩
  | bool b =>
    cases b with
    | true => exact ⟨'t', _, rfl, rfl, by decide⟩
    | false => exact ⟨'f', _, rfl, rfl, by decide⟩
  | int n =>
    obtain ⟨c, cs, hcs, hc⟩ := writeInt_head n
    refine ⟨c, cs, (render_int n).trans hcs, ?_, ?_⟩
    · rcases hc with rfl | hc
      · rfl
      · rw [Bool.eq_false_iff]
        intro hspace
        simp only [isSpace, Bool.or_eq_true, decide_eq_true_eq] at hspace
        rcases hspace with ((rfl | rfl) | rfl) | rfl <;> cases hc
    · rintro rfl
      rcases hc with hc | hc <;> cases hc
  | string s => exact ⟨'"', _, rfl, rfl, by decide⟩
  | array h => exact ⟨'[', _, rfl, rfl, by decide⟩
  | record h => exact ⟨'\x7b', _, rfl, rfl, by decide⟩

theorem value_scalar {c : Char} {cs : List Char} (hspace : isSpace c = false) (hsquare : c ≠ '[')
    (hcurly : c ≠ '\x7b') (fuel : Nat) : value (fuel + 1) (c :: cs) = scalar (c :: cs) := by
  rw [value, skipSpace_cons hspace]
  split
  · next heq => exact absurd (List.head_eq_of_cons_eq heq) hsquare
  · next heq => exact absurd (List.head_eq_of_cons_eq heq) hcurly
  · rfl

/-- That a value is read back from what is written for it, with twice its length as fuel. -/
def ReadsBack (j : Json) : Prop :=
  ∀ (fuel : Nat) (rest : List Char), 2 * (render j).length ≤ fuel → Follows rest →
    value fuel (render j ++ rest) = (j, some rest)

theorem readsBack_scalar {j : Json} (hw : Written j)
    (hsquare : ∀ cs, render j ≠ '[' :: cs) (hcurly : ∀ cs, render j ≠ '\x7b' :: cs)
    (h : ∀ rest, Follows rest → scalar (render j ++ rest) = (j, some rest)) : ReadsBack j := by
  intro fuel rest hfuel hrest
  obtain ⟨c, cs, hcs, hspace, -⟩ := hw.head
  obtain ⟨fuel, rfl⟩ : ∃ k, fuel = k + 1 := ⟨fuel - 1, by simp [hcs] at hfuel; omega⟩
  rw [← h rest hrest, hcs, List.cons_append]
  refine value_scalar hspace ?_ ?_ fuel
  · rintro rfl
    exact hsquare cs hcs
  · rintro rfl
    exact hcurly cs hcs

section Steps

variable {fuel : Nat} {cs rest : List Char} {j : Json}

theorem value_array {c : Char} (hspace : isSpace c = false) (hclose : c ≠ ']') :
    value (fuel + 1) ('[' :: c :: cs) =
      (array (items fuel (c :: cs)).1, (items fuel (c :: cs)).2) := by
  rw [value, skipSpace_cons rfl]
  simp only [skipSpace_cons hspace]
  split
  · next heq => exact absurd (List.head_eq_of_cons_eq heq) hclose
  · rfl

theorem value_object {c : Char} (hspace : isSpace c = false) (hclose : c ≠ '\x7d') :
    value (fuel + 1) ('\x7b' :: c :: cs) =
      (object (members fuel (c :: cs)).1, (members fuel (c :: cs)).2) := by
  rw [value, skipSpace_cons rfl]
  simp only [skipSpace_cons hspace]
  split
  · next heq => exact absurd (List.head_eq_of_cons_eq heq) hclose
  · rfl

theorem items_close (h : value fuel cs = (j, some (']' :: rest))) :
    items (fuel + 1) cs = ([j], some rest) := by
  rw [items, h]
  simp (disch := decide) only [skipSpace_cons]

theorem items_comma (h : value fuel cs = (j, some (',' :: rest))) :
    items (fuel + 1) cs = (j :: (items fuel rest).1, (items fuel rest).2) := by
  rw [items, h]
  simp (disch := decide) only [skipSpace_cons]

theorem members_close {name : String} (h : value fuel cs = (j, some ('\x7d' :: rest))) :
    members (fuel + 1) (quote name ++ ':' :: cs) = ([(some name, j)], some rest) := by
  obtain ⟨ps, hps, htext⟩ := pieces?_quote name (':' :: cs)
  rw [members, quote_append, skipSpace_cons rfl]
  simp (disch := decide) only [hps, htext, skipSpace_cons, h]

theorem members_comma {name : String} (h : value fuel cs = (j, some (',' :: rest))) :
    members (fuel + 1) (quote name ++ ':' :: cs) =
      ((some name, j) :: (members fuel rest).1, (members fuel rest).2) := by
  obtain ⟨ps, hps, htext⟩ := pieces?_quote name (':' :: cs)
  rw [members, quote_append, skipSpace_cons rfl]
  simp (disch := decide) only [hps, htext, skipSpace_cons, h]

end Steps

/-- The items of an array, from the first on, are read back behind the opening bracket. -/
theorem items_renderItems {j : Json} {js : List Json} (h : ∀ i ∈ j :: js, ReadsBack i) (fuel : Nat)
    (hfuel : 2 * (renderItems (j :: js)).length + 1 ≤ fuel) (rest : List Char) :
    items fuel (renderItems (j :: js) ++ ']' :: rest) = (j :: js, some rest) := by
  induction js generalizing j fuel with
  | nil =>
    obtain ⟨fuel, rfl⟩ : ∃ k, fuel = k + 1 := ⟨fuel - 1, by omega⟩
    simp only [renderItems] at hfuel ⊢
    exact items_close (h j List.mem_cons_self fuel _ (by omega) (follows_cons (by simp) rest))
  | cons i js ih =>
    obtain ⟨fuel, rfl⟩ : ∃ k, fuel = k + 1 := ⟨fuel - 1, by omega⟩
    simp only [renderItems, List.length_append, List.length_cons] at hfuel
    obtain ⟨hj, hjs⟩ := List.forall_mem_cons.1 h
    have hmore := ih hjs fuel (by omega)
    rw [renderItems, List.append_assoc, List.cons_append,
      items_comma (hj fuel _ (by omega) (follows_cons (by simp) _)), hmore]
    exact List.cons_ne_nil i js

theorem members_renderMembers {m : String × Json} {ms : List (String × Json)}
    (h : ∀ n ∈ m :: ms, ReadsBack n.2) (fuel : Nat)
    (hfuel : 2 * (renderMembers ((m :: ms).map fun n => (some n.1, n.2))).length + 1 ≤ fuel)
    (rest : List Char) :
    members fuel (renderMembers ((m :: ms).map fun n => (some n.1, n.2)) ++ '\x7d' :: rest) =
      ((m :: ms).map fun n => (some n.1, n.2), some rest) := by
  induction ms generalizing m fuel with
  | nil =>
    obtain ⟨fuel, rfl⟩ : ∃ k, fuel = k + 1 := ⟨fuel - 1, by omega⟩
    simp only [List.map_cons, List.map_nil, renderMembers, Option.getD_some, List.length_append,
      List.length_cons] at hfuel ⊢
    rw [List.append_assoc, List.cons_append]
    exact members_close (h m List.mem_cons_self fuel _ (by omega) (follows_cons (by simp) rest))
  | cons n ms ih =>
    obtain ⟨fuel, rfl⟩ : ∃ k, fuel = k + 1 := ⟨fuel - 1, by omega⟩
    obtain ⟨hm, hms⟩ := List.forall_mem_cons.1 h
    simp only [List.map_cons, renderMembers, Option.getD_some, List.length_append,
      List.length_cons] at hfuel
    have hmore := ih hms fuel (by simp only [List.map_cons]; omega)
    simp only [List.map_cons, renderMembers, Option.getD_some, List.append_assoc,
      List.cons_append] at hmore ⊢
    rw [members_comma (hm fuel _ (by omega) (follows_cons (by simp) _)), hmore]

theorem readsBack_array {js : List Json} (hw : ∀ j ∈ js, Written j) (h : ∀ j ∈ js, ReadsBack j) :
    ReadsBack (array js) := by
  intro fuel rest hfuel hrest
  simp only [render, List.length_cons, List.length_append] at hfuel
  obtain ⟨fuel, rfl⟩ : ∃ k, fuel = k + 1 := ⟨fuel - 1, by omega⟩
  simp only [render, List.cons_append, List.append_assoc, List.nil_append]
  cases js with
  | nil =>
    rw [value, skipSpace_cons rfl]
    simp (disch := decide) only [renderItems, List.nil_append, skipSpace_cons]
  | cons j js =>
    have hitems := items_renderItems h fuel (by omega) rest
    obtain ⟨c, cs, hcs, hspace, hclose⟩ := (hw j List.mem_cons_self).head
    obtain ⟨ds, hds⟩ : ∃ ds, renderItems (j :: js) = c :: ds := by
      cases js with
      | nil => exact ⟨cs, hcs⟩
      | cons i js =>
        rw [renderItems, hcs, List.cons_append]
        · exact ⟨_, rfl⟩
        · exact List.cons_ne_nil i js
    rw [hds, List.cons_append] at hitems ⊢
    rw [value_array hspace hclose, hitems]

theorem readsBack_record {ms : List (String × Json)} (h : ∀ m ∈ ms, ReadsBack m.2) :
    ReadsBack (record ms) := by
  intro fuel rest hfuel hrest
  simp only [record, render, List.length_cons, List.length_append] at hfuel
  obtain ⟨fuel, rfl⟩ : ∃ k, fuel = k + 1 := ⟨fuel - 1, by omega⟩
  simp only [record, render, List.cons_append, List.append_assoc, List.nil_append]
  cases ms with
  | nil =>
    rw [value, skipSpace_cons rfl]
    simp (disch := decide) only [List.map_nil, renderMembers, List.nil_append, skipSpace_cons]
  | cons m ms =>
    have hmembers := members_renderMembers h fuel (by omega) rest
    obtain ⟨cs, hcs⟩ :
        ∃ cs, renderMembers ((m :: ms).map fun n => (some n.1, n.2)) = '"' :: cs := by
      cases ms with
      | nil => exact ⟨_, rfl⟩
      | cons n ms => exact ⟨_, rfl⟩
    rw [hcs, List.cons_append] at hmembers ⊢
    rw [value_object rfl (by decide), hmembers]

/-- Every written value is read back. -/
theorem Written.readsBack {j : Json} (h : Written j) : ReadsBack j := by
  induction h with
  | null =>
    exact readsBack_scalar .null (by simp [render]) (by simp [render]) fun rest _ => rfl
  | bool b =>
    refine readsBack_scalar (.bool b) ?_ ?_ fun rest _ => ?_
    · cases b <;> simp [render]
    · cases b <;> simp [render]
    · cases b <;> rfl
  | int n =>
    refine readsBack_scalar (.int n) ?_ ?_ fun rest h => ?_
    · intro cs
      rw [render_int, ← List.append_nil (Decimal.writeInt n)]
      exact writeInt_append_ne (by decide) rfl n [] cs
    · intro cs
      rw [render_int, ← List.append_nil (Decimal.writeInt n)]
      exact writeInt_append_ne (by decide) rfl n [] cs
    · rw [render_int]
      exact scalar_writeInt n h
  | string s =>
    refine readsBack_scalar (.string s) (by simp [render, quote]) (by simp [render, quote]) ?_
    intro rest _
    rw [render]
    exact scalar_quote s rest
  | array hw ih => exact readsBack_array hw ih
  | record _ ih => exact readsBack_record ih

/-! ## Documents -/

/-- **A written text is read as the value** it was written for, and nothing follows it. -/
theorem read_write {j : Json} (h : Written j) : read j.write = ⟨j, true⟩ := by
  have hvalue := h.readsBack (2 * (render j).length + 1) [] (by omega) follows_nil
  rw [List.append_nil] at hvalue
  rw [read, write, String.toList_ofList]
  simp only [hvalue]
  rfl

/-- A written text decodes as its value does. -/
theorem decode_write {α : Type} (value : Json → Except Fault α) {j : Json} (h : Written j) :
    decode value j.write = value j := by
  rw [decode, read_write h]
  cases value j <;> rfl

/-! ## Typed values -/

theorem asWord_nat {n : Nat} (h : n < wordLimit) : asWord (nat n) = .ok n := by
  rw [nat, asWord, String.toList_ofList, Decimal.read?_write]
  simp only [Option.filter_some, h, decide_true, if_true]

theorem asString_string (s : String) : asString (string s) = .ok s := rfl

theorem asText_string {α : Type} {parse? : String → Option α} {s : String} {a : α}
    (h : parse? s = some a) : asText parse? (string s) = .ok a := by
  simp only [asText, asString, bind, Except.bind, h]

theorem asOptional_string {α : Type} {value : Json → Except Fault α} {s : String} {a : α}
    (h : value (string s) = .ok a) : asOptional value (string s) = .ok (some a) := by
  show (value (string s)).map some = _
  rw [h]
  rfl

/-- A set of labels is read back: its labels come in the order in which it has them. -/
theorem asLabels_labels (s : LabelSet) : asLabels (labels s) = .ok s := by
  simp only [labels, record, asLabels, List.foldlM_map]
  exact List.foldlM_pure.trans (congrArg Except.ok s.ofList_toList)

/-- A list that is written item by item is read item by item. -/
theorem asList_map {α : Type} {value : Json → Except Fault α} {write : α → Json} {as : List α}
    (h : ∀ a ∈ as, value (write a) = .ok a) : asList value (array (as.map write)) = .ok as := by
  rw [asList]
  induction as with
  | nil => rfl
  | cons a as ih =>
    obtain ⟨ha, has⟩ := List.forall_mem_cons.1 h
    rw [List.map_cons, List.mapM_cons, ha, ih has]
    rfl

theorem asList_strings (texts : List String) :
    asList asString (array (texts.map string)) = .ok texts :=
  asList_map fun text _ => asString_string text

theorem fill_of_ok {α : Type} {value : Json → Except Fault α} {j : Json} {a : α}
    (h : value j = .ok a) : fill none value j = .ok (some a) := by
  rw [fill, h]
  rfl

/-! ## Records -/

/-- The members of a record are collected one after the other. A member fills the field of its name
with its value, if the field is empty. -/
theorem RecordReader.collect_fill {δ α : Type} {r : RecordReader δ} {fields : δ}
    {value : Json → Except Fault α} {set : Option α → δ} {name : String} {j : Json} {a : α}
    {members : List (String × Json)} {result : Except Fault δ}
    (hname : r.names.contains name = true) (hvalue : value j = .ok a)
    (hfield : ∀ j, r.field name j fields = (fill none value j).bind fun slot => .ok (set slot))
    (hrest : r.collect (set (some a)) (record members) = result) :
    r.collect fields (record ((name, j) :: members)) = result := by
  have htake : r.takeMember fields (some name, j) = .ok (set (some a)) := by
    rw [takeMember_known hname, hfield, fill_of_ok hvalue]
    rfl
  rw [← hrest]
  simp only [record, List.map_cons, collect, List.foldlM_cons, htake]
  rfl

/-- Members of unknown names are passed over, as long as they are JSON. -/
theorem RecordReader.collect_append_unknown {δ : Type} {r : RecordReader δ}
    {extra : List (String × Json)}
    (h : ∀ m ∈ extra, r.names.contains m.1 = false ∧ m.2.isWhole = true) (fields : δ)
    (members : List (String × Json)) :
    r.collect fields (record (members ++ extra)) = r.collect fields (record members) := by
  have hskip (fields : δ) : (extra.map fun m => (some m.1, m.2)).foldlM r.takeMember fields =
      .ok fields := by
    induction extra with
    | nil => rfl
    | cons m extra ih =>
      obtain ⟨⟨hname, hwhole⟩, hextra⟩ := List.forall_mem_cons.1 h
      have htake : r.takeMember fields (some m.1, m.2) = .ok fields := by
        rw [takeMember_unknown hname, hwhole]
        rfl
      rw [List.map_cons, List.foldlM_cons, htake]
      exact ih hextra
  simp only [record, List.map_append, collect, List.foldlM_append]
  cases (members.map fun m => (some m.1, m.2)).foldlM r.takeMember fields with
  | error fault => rfl
  | ok fields' => exact hskip fields'

end AlertFlow.Json
