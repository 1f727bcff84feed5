import AlertFlow.Proofs.Json.RoundTrip
import AlertFlow.Proofs.Time.DurationText
import AlertFlow.Route.Options

/-!
Route options and their JSON. The options of a route are read back from the text that is written for
them: the set of grouping names comes back from its list, and each of the timings from its text.
-/
namespace AlertFlow

open Json

namespace NameSet

theorem eq_of_names {s t : NameSet} (h : s.names = t.names) : s = t := by
  cases s
  cases t
  cases h
  rfl

/-- A name behind all others is put at the end. -/
theorem place_of_forall_lt {name : String} {l : List String} (h : ∀ n ∈ l, n < name) :
    place name l = l ++ [name] := by
  induction l with
  | nil => rfl
  | cons n l ih =>
    obtain ⟨hn, hl⟩ := List.forall_mem_cons.1 h
    have hne : name ≠ n := fun heq => String.lt_irrefl name (heq ▸ hn)
    rw [place, if_neg (String.lt_asymm hn), if_neg hne, ih hl]
    rfl

theorem names_foldl_insert {s : NameSet} {l : List String}
    (h : (s.names ++ l).Pairwise (· < ·)) : (l.foldl insert s).names = s.names ++ l := by
  induction l generalizing s with
  | nil => rw [List.foldl_nil, List.append_nil]
  | cons n l ih =>
    have hplace : (s.insert n).names = s.names ++ [n] :=
      place_of_forall_lt fun m hm => (List.pairwise_append.1 h).2.2 m hm n List.mem_cons_self
    have happend : s.names ++ n :: l = (s.insert n).names ++ l := by
      rw [hplace, List.append_assoc, List.singleton_append]
    rw [List.foldl_cons, ih (happend ▸ h), happend]

/-- The names of a set make that set. -/
theorem ofList_toList (s : NameSet) : ofList s.toList = s := by
  refine eq_of_names ?_
  rw [ofList, names_foldl_insert]
  · rfl
  · exact s.sorted

end NameSet

theorem Json.asNames_names (s : NameSet) :
    asNames (.array (s.toList.map .string)) = .ok s := by
  rw [asNames, asList_strings]
  exact congrArg Except.ok s.ofList_toList

namespace RouteOptions

theorem written_toJson (o : RouteOptions) : o.toJson.Written := by
  refine .record fun m hm => ?_
  simp only [List.mem_cons, List.not_mem_nil, or_false] at hm
  rcases hm with rfl | rfl | rfl | rfl | rfl
  · exact .string o.receiver
  · exact .strings o.groupBy.toList
  all_goals exact .string _

theorem collect_toJson (o : RouteOptions) :
    recordReader.collect {} o.toJson =
      .ok ⟨some o.receiver, some o.groupBy, some o.groupWait, some o.groupInterval,
        some o.repeatInterval⟩ := by
  have htime (d : Duration) : asText Duration.read? (.string d.write) = .ok d :=
    asText_string d.read?_write
  refine RecordReader.collect_fill rfl (asString_string o.receiver) (fun _ => rfl) ?_
  refine RecordReader.collect_fill rfl (asNames_names o.groupBy) (fun _ => rfl) ?_
  refine RecordReader.collect_fill rfl (htime o.groupWait) (fun _ => rfl) ?_
  refine RecordReader.collect_fill rfl (htime o.groupInterval) (fun _ => rfl) ?_
  exact RecordReader.collect_fill rfl (htime o.repeatInterval) (fun _ => rfl) rfl

/-- **Route options are read back** from their text, and any duration from its own. -/
theorem options_read_back :
    (∀ o : RouteOptions, Json.decode ofJson o.toJson.write = .ok o) ∧
      ∀ d : Duration, Duration.read? d.write = some d := by
  refine ⟨fun o => ?_, Duration.read?_write⟩
  rw [Json.decode_write ofJson o.written_toJson, ofJson, collect_toJson]
  rfl

end RouteOptions

end AlertFlow
