import AlertFlow.Http.Path
import AlertFlow.Proofs.Hash.Layout
import AlertFlow.Proofs.Text.Hex

/-!
Paths can spell every text. A segment in which each byte of a text stands as a percent escape is
decoded to that text, and a path that is joined from segments is cut into them again.
-/
namespace AlertFlow.Path

/-! ## Percent escapes -/

/-- The percent escape of a byte. -/
def escape (b : UInt8) : List Char := ['%', Hex.digit (b.toNat / 16), Hex.digit (b.toNat % 16)]

/-- The segment that spells a text by escapes alone. -/
def escaped (text : String) : String := String.ofList (text.toUTF8.toList.flatMap escape)

/-- The characters of escapes. -/
def escapeChars : List Char := '%' :: Hex.lowerDigits

theorem mem_escapeChars {bytes : List UInt8} {c : Char} (h : c ∈ bytes.flatMap escape) :
    c ∈ escapeChars := by
  obtain ⟨b, -, hc⟩ := List.mem_flatMap.1 h
  have hb := b.toNat_lt
  simp only [escape, List.mem_cons, List.not_mem_nil, or_false] at hc
  rcases hc with rfl | rfl | rfl
  · exact List.mem_cons_self
  · have := Hex.digit_mem_lowerDigits (b.toNat / 16)
    rw [Nat.mod_eq_of_lt (by omega)] at this
    exact List.mem_cons_of_mem _ this
  · exact List.mem_cons_of_mem _ (Hex.digit_mem_lowerDigits b.toNat)

theorem hexValue?_digit {n : Nat} (h : n < 16) :
    hexValue? (UInt8.ofNat (Hex.digit n).toNat) = some n := by
  have all : ∀ m : Fin 16, hexValue? (UInt8.ofNat (Hex.digit m).toNat) = some m.val := by decide
  exact all ⟨n, h⟩

theorem unescape_escape (b : UInt8) (rest : List UInt8) :
    unescape ((escape b).map (fun c => UInt8.ofNat c.toNat) ++ rest) = b :: unescape rest := by
  have hb := b.toNat_lt
  have hhigh := hexValue?_digit (show b.toNat / 16 < 16 by omega)
  have hlow := hexValue?_digit (show b.toNat % 16 < 16 by omega)
  simp only [escape, List.map_cons, List.map_nil, List.cons_append, List.nil_append]
  rw [unescape, if_pos (by decide), hhigh, hlow]
  simp only [show 16 * (b.toNat / 16) + b.toNat % 16 = b.toNat by omega, UInt8.ofNat_toNat]

theorem unescape_escapes (bytes : List UInt8) :
    unescape ((bytes.flatMap escape).map fun c => UInt8.ofNat c.toNat) = bytes := by
  induction bytes with
  | nil => rfl
  | cons b bytes ih => rw [List.flatMap_cons, List.map_append, unescape_escape, ih]

/-- The bytes of a text of ASCII characters are their numbers. -/
theorem flatMap_utf8EncodeChar_ascii {cs : List Char} (h : ∀ c ∈ cs, c.toNat < 128) :
    cs.flatMap String.utf8EncodeChar = cs.map fun c => UInt8.ofNat c.toNat := by
  induction cs with
  | nil => rfl
  | cons c cs ih =>
    obtain ⟨hc, hcs⟩ := List.forall_mem_cons.1 h
    have hcode : String.utf8EncodeChar c = [UInt8.ofNat c.toNat] :=
      if_pos (Nat.le_of_lt_succ hc)
    rw [List.flatMap_cons, List.map_cons, hcode, ih hcs]
    rfl

/-- **Every text is the value of a segment.** -/
theorem decode?_escaped (text : String) : decode? (escaped text) = some text := by
  have ascii : ∀ c ∈ escapeChars, c.toNat < 128 := List.all_iff_forall_prop.1 (by decide)
  rw [decode?, escaped, toList_toUTF8, String.toList_ofList,
    flatMap_utf8EncodeChar_ascii fun c hc => ascii c (mem_escapeChars hc), unescape_escapes,
    toList_bytes]
  exact dif_pos text.isValidUTF8

/-- A text without a character that ends a segment or the path. -/
def Plain (text : String) : Prop := ∀ c ∈ text.toList, c ≠ '/' ∧ c ≠ '?' ∧ c ≠ '#'

instance : DecidablePred Plain := fun _ => decidable_of_iff _ List.all_iff_forall_prop

theorem plain_escaped (text : String) : Plain (escaped text) := by
  have plain : ∀ c ∈ escapeChars, c ≠ '/' ∧ c ≠ '?' ∧ c ≠ '#' :=
    List.all_iff_forall_prop.1 (by decide)
  intro c hc
  rw [escaped, String.toList_ofList] at hc
  exact plain c (mem_escapeChars hc)

/-! ## Segments -/

theorem split_ne_nil (cs : List Char) : split cs ≠ [] := by
  cases cs with
  | nil => simp [split]
  | cons c cs =>
    rw [split]
    split
    · simp
    · split <;> simp

theorem split_cons_of_ne {c : Char} (h : c ≠ '/') (cs : List Char) :
    ∃ piece rest, split cs = piece :: rest ∧ split (c :: cs) = (c :: piece) :: rest := by
  obtain ⟨piece, rest, hsplit⟩ := List.exists_cons_of_ne_nil (split_ne_nil cs)
  exact ⟨piece, rest, hsplit, by rw [split, hsplit]; exact if_neg h⟩

theorem split_slash (cs : List Char) : split ('/' :: cs) = [] :: split cs := by
  obtain ⟨piece, rest, hsplit⟩ := List.exists_cons_of_ne_nil (split_ne_nil cs)
  rw [split, hsplit]
  exact if_pos rfl

theorem split_of_notMem {piece : List Char} (h : '/' ∉ piece) : split piece = [piece] := by
  induction piece with
  | nil => rfl
  | cons c piece ih =>
    rw [List.mem_cons, not_or] at h
    obtain ⟨first, rest, hsplit, hcons⟩ := split_cons_of_ne (Ne.symm h.1) piece
    rw [ih h.2] at hsplit
    cases hsplit
    exact hcons

theorem split_append_slash {piece : List Char} (h : '/' ∉ piece) (cs : List Char) :
    split (piece ++ '/' :: cs) = piece :: split cs := by
  induction piece with
  | nil => exact split_slash cs
  | cons c piece ih =>
    rw [List.mem_cons, not_or] at h
    obtain ⟨first, rest, hsplit, hcons⟩ := split_cons_of_ne (Ne.symm h.1) (piece ++ '/' :: cs)
    rw [ih h.2] at hsplit
    cases hsplit
    exact hcons

/-- Pieces joined by slashes are cut at the slashes again. -/
theorem split_intercalate {pieces : List (List Char)} (hne : pieces ≠ [])
    (h : ∀ piece ∈ pieces, '/' ∉ piece) : split (['/'].intercalate pieces) = pieces := by
  induction pieces with
  | nil => exact absurd rfl hne
  | cons piece pieces ih =>
    obtain ⟨hpiece, hpieces⟩ := List.forall_mem_cons.1 h
    cases pieces with
    | nil =>
      rw [List.intercalate_singleton]
      exact split_of_notMem hpiece
    | cons next pieces =>
      rw [List.intercalate_cons_cons, List.append_assoc, List.singleton_append,
        split_append_slash hpiece, ih (List.cons_ne_nil next pieces) hpieces]

/-- A joined text has no characters but those of its pieces and slashes. -/
theorem mem_intercalate {pieces : List (List Char)} {c : Char}
    (h : c ∈ ['/'].intercalate pieces) : c = '/' ∨ ∃ piece ∈ pieces, c ∈ piece := by
  induction pieces with
  | nil => cases h
  | cons piece pieces ih =>
    cases pieces with
    | nil =>
      rw [List.intercalate_singleton] at h
      exact .inr ⟨piece, List.mem_cons_self, h⟩
    | cons next pieces =>
      rw [List.intercalate_cons_cons, List.append_assoc, List.mem_append, List.singleton_append,
        List.mem_cons] at h
      rcases h with h | h | h
      · exact .inr ⟨piece, List.mem_cons_self, h⟩
      · exact .inl h
      · refine (ih h).imp id fun hpiece => ?_
        obtain ⟨piece, hmem, hc⟩ := hpiece
        exact ⟨piece, List.mem_cons_of_mem _ hmem, hc⟩

/-- The path of some segments. -/
def ofSegments (segments : List String) : String :=
  String.ofList (['/'].intercalate (segments.map String.toList))

/-- **A path is cut into the segments it is joined from**, if these are plain. -/
theorem segments_ofSegments {l : List String} (hne : l ≠ []) (h : ∀ s ∈ l, Plain s) :
    segments (ofSegments l) = l := by
  have hplain : ∀ c ∈ ['/'].intercalate (l.map String.toList),
      (decide (c ≠ '?') && decide (c ≠ '#')) = true := by
    intro c hc
    rcases mem_intercalate hc with rfl | hpiece
    · decide
    · obtain ⟨piece, hpiece, hmem⟩ := hpiece
      obtain ⟨s, hs, rfl⟩ := List.mem_map.1 hpiece
      simpa using (h s hs c hmem).2
  have hslash : ∀ piece ∈ l.map String.toList, '/' ∉ piece := by
    intro piece hpiece hmem
    obtain ⟨s, hs, rfl⟩ := List.mem_map.1 hpiece
    exact (h s hs '/' hmem).1 rfl
  have hwhole := @List.takeWhile_append_of_pos _ _ _ [] hplain
  rw [List.takeWhile_nil, List.append_nil] at hwhole
  rw [segments, ofSegments, String.toList_ofList, hwhole,
    split_intercalate (by simpa using hne) hslash, List.map_map]
  simp [Function.comp_def]

end AlertFlow.Path
