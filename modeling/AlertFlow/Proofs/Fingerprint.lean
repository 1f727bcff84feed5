import AlertFlow.Fingerprint
import AlertFlow.Proofs.Json.RoundTrip
import AlertFlow.Proofs.Text.Hex

/-!
The texts of fingerprints. A fingerprint has many texts that are read as it, with a sign or without,
in either case and with any zeros in front, and one among them that is written. What is no such text
is refused by name. In JSON the same texts stand for the same fingerprints.
-/
namespace AlertFlow.Fingerprint

/-- A text that spells a number: a plus sign or none, and at least one hexadecimal digit of either
case, the number of the digits being one of 64 bits. -/
def Spells (text : String) (n : Nat) : Prop :=
  ∃ digits, digits ≠ [] ∧ (text.toList = digits ∨ text.toList = '+' :: digits) ∧
    Hex.Denotes digits n ∧ n < 2 ^ 64

/-- The form in which fingerprints are written: sixteen digits in lower case. -/
def IsCanonical (text : String) : Prop :=
  text.length = 16 ∧ ∀ c ∈ text.toList, c ∈ Hex.lowerDigits

variable {text : String} {fp : Fingerprint} {n : Nat}

/-! ## Reading -/

/-- Only a text with a plus sign in front is shortened, and no digit is a plus sign. -/
theorem dropPlus_eq_digits {cs digits : List Char} (hdigits : Hex.Denotes digits n)
    (hcs : cs = digits ∨ cs = '+' :: digits) : dropPlus cs = digits := by
  obtain ⟨ds, hds, -⟩ := hdigits
  rcases hcs with rfl | rfl
  · cases hds with
    | nil => rfl
    | cons hc _ =>
      refine dropPlus_of_head fun hplus => ?_
      subst hplus
      have hnone : Hex.value? '+' = none := by decide
      rw [Hex.value?_eq_some.2 hc] at hnone
      cases hnone
  · rfl

theorem eq_or_eq_of_dropPlus (cs : List Char) : cs = dropPlus cs ∨ cs = '+' :: dropPlus cs := by
  unfold dropPlus
  split
  · exact .inr rfl
  · exact .inl rfl

theorem value?_eq_some : value? text = some n ↔ Spells text n := by
  rw [value?, Option.filter_eq_some_iff, Hex.read?_eq_some, decide_eq_true_iff]
  constructor
  · intro h
    obtain ⟨⟨hne, hdenotes⟩, hlt⟩ := h
    exact ⟨dropPlus text.toList, hne, eq_or_eq_of_dropPlus _, hdenotes, hlt⟩
  · intro h
    obtain ⟨digits, hne, htext, hdenotes, hlt⟩ := h
    rw [dropPlus_eq_digits hdenotes htext]
    exact ⟨⟨hne, hdenotes⟩, hlt⟩

/-- The texts that are read as a fingerprint are those that spell its bits. -/
theorem read_eq_ok : read text = .ok fp ↔ Spells text fp.bits.toNat := by
  rw [← value?_eq_some, read]
  cases hvalue : value? text with
  | none => simp
  | some n =>
    obtain ⟨_, _, _, _, hlt⟩ := value?_eq_some.1 hvalue
    have hbits : (UInt64.ofNat n).toNat = n := UInt64.toNat_ofNat_of_lt' hlt
    constructor
    · intro h
      rw [← Except.ok.inj h, hbits]
    · intro h
      obtain rfl : n = fp.bits.toNat := Option.some.inj h
      exact congrArg (Except.ok ∘ Fingerprint.mk) UInt64.ofNat_toNat

/-- A text that spells nothing is refused, and nothing else is. -/
theorem read_eq_error {e : DomainError} :
    read text = .error e ↔ (∀ n, ¬ Spells text n) ∧ e = .invalidFingerprint text := by
  simp only [← value?_eq_some, read]
  cases value? text with
  | none => simp [eq_comm]
  | some n => simp

/-! ## Writing -/

theorem isCanonical_hex (fp : Fingerprint) : IsCanonical fp.hex := by
  refine ⟨?_, fun c hc => ?_⟩
  · rw [hex, String.length_ofList, Hex.length_write]
  · rw [hex, String.toList_ofList] at hc
    exact Hex.mem_lowerDigits_of_mem_write hc

theorem hex_inj {a b : Fingerprint} : a.hex = b.hex ↔ a = b := by
  constructor
  · intro h
    have hread := read_hex a
    rw [h, read_hex b] at hread
    exact (Except.ok.inj hread).symm
  · intro h
    rw [h]

/-- A canonical text is the written form of what it is read as. -/
theorem IsCanonical.eq_hex (h : IsCanonical text) (hread : read text = .ok fp) :
    text = fp.hex := by
  obtain ⟨hlength, hlower⟩ := h
  obtain ⟨digits, hne, htext, hdenotes, -⟩ := read_eq_ok.1 hread
  have hdigits : text.toList = digits := by
    refine htext.resolve_right fun hplus => ?_
    have hmem : '+' ∈ Hex.lowerDigits := hlower '+' (by rw [hplus]; exact List.mem_cons_self)
    revert hmem
    decide
  rw [← hdigits] at hne hdenotes
  have hvalue : Hex.read? text.toList = some fp.bits.toNat := Hex.read?_eq_some.2 ⟨hne, hdenotes⟩
  have hfrom : Hex.readFrom 0 text.toList = some fp.bits.toNat := by
    obtain ⟨c, cs, hcons⟩ := List.exists_cons_of_ne_nil hne
    rw [hcons] at hvalue ⊢
    exact hvalue
  have hwrite := Hex.write_of_readFrom hlower hfrom
  rw [String.length_toList, hlength] at hwrite
  rw [hex, hwrite, String.ofList_toList]

/-! ## JSON -/

/-- A JSON string is read as its text is. -/
theorem ofJson_string (text : String) :
    ofJson (.string text) = (read text).mapError fun _ => .mismatch := by
  rw [ofJson]
  unfold Json.asText
  cases h : read text <;>
    simp [Json.asString, h, Except.toOption, Except.mapError, bind, Except.bind]

theorem ofJson_string_eq_ok : ofJson (.string text) = .ok fp ↔ read text = .ok fp := by
  rw [ofJson_string]
  cases read text <;> simp [Except.mapError]

theorem ofJson_eq_ok {j : Json} :
    ofJson j = .ok fp ↔ ∃ text, j = .string text ∧ read text = .ok fp := by
  cases j with
  | string text => simp [ofJson_string_eq_ok]
  | _ =>
    refine iff_of_false (fun h => ?_) (by simp)
    cases h

/-- Digits need no escapes. -/
theorem write_toJson (fp : Fingerprint) : fp.toJson.write = "\"" ++ fp.hex ++ "\"" := by
  have plain : ∀ c ∈ Hex.lowerDigits, Json.escape c = [c] :=
    List.all_iff_forall_prop.1 (by decide)
  have hescape : fp.hex.toList.flatMap Json.escape = fp.hex.toList := by
    rw [List.flatMap_congr fun c hc => plain c ((isCanonical_hex fp).2 c hc),
      List.flatMap_singleton']
  rw [← String.toList_inj, Json.write, toJson, Json.render, Json.quote, hescape,
    String.toList_ofList, String.toList_append, String.toList_append]
  rfl

/-- **The texts of fingerprints are read exactly.** A text is read as a fingerprint exactly if it
spells the bits, and is refused by name exactly if it spells nothing. The written form is canonical
and read back, and is the only canonical text that is read as the fingerprint; so two texts that are
read are the same fingerprint exactly if they have one written form. JSON writes the same form
between quotes, and reads strings alone, each as its text is read. -/
theorem texts_read_exactly :
    (∀ text fp, read text = .ok fp ↔ Spells text fp.bits.toNat) ∧
      (∀ text e, read text = .error e ↔
        (∀ n, ¬ Spells text n) ∧ e = .invalidFingerprint text) ∧
      (∀ fp : Fingerprint, IsCanonical fp.hex ∧ read fp.hex = .ok fp) ∧
      (∀ text fp, IsCanonical text → (read text = .ok fp ↔ text = fp.hex)) ∧
      (∀ s t a b, read s = .ok a → read t = .ok b → (a = b ↔ a.hex = b.hex)) ∧
      (∀ fp : Fingerprint, fp.toJson.write = "\"" ++ fp.hex ++ "\"") ∧
      (∀ text fp, Json.decode ofJson (Json.string text).write = .ok fp ↔ read text = .ok fp) ∧
      ∀ j fp, ofJson j = .ok fp ↔ ∃ text, j = .string text ∧ read text = .ok fp := by
  refine ⟨fun _ _ => read_eq_ok, fun _ _ => read_eq_error,
    fun fp => ⟨isCanonical_hex fp, read_hex fp⟩, fun text fp hcanonical => ?_,
    fun _ _ _ _ _ _ => hex_inj.symm, write_toJson, fun text fp => ?_, fun _ _ => ofJson_eq_ok⟩
  · constructor
    · exact hcanonical.eq_hex
    · intro h
      rw [h, read_hex]
  · rw [Json.decode_write ofJson (.string text), ofJson_string_eq_ok]

end AlertFlow.Fingerprint
