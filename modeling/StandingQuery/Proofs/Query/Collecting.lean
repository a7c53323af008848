import StandingQuery.Proofs.Query.Layout
import StandingQuery.Session.Basic

/-! A request that is read with a list of terms is the one that is built by adding the terms one by
one, the later of two under one name taking the place of the other. Only the empty list is special:
nothing is added for it, but it is read as a map of terms, if an empty one, and a request with that
map is not the one without any. -/

namespace StandingQuery.Request

open Json

/-- The terms added to the default request, one after another. -/
def collect (pairs : List (String × Term)) : Request :=
  pairs.foldl (fun q p => q.withTerm p.1 p.2) .default

/-- A value of a request that is the default one but for a map of terms, which has these pairs in
this order. -/
inductive ListsTerms : Value → List (String × Term) → Prop
  | object {ms : Members} {pairs : List (String × Term)} (once : Once slots ms.names)
      (rest : Given (slots.filter (·.name ≠ "searchTerms")) ms .default)
      (named : "searchTerms" ∈ ms.names)
      (lists : ∀ v, ("searchTerms", v) ∈ ms → MeansMap (MeansRecord Term.slots) v pairs) :
      ListsTerms (.object ms.keyed) pairs
  | array {incremental pageSize summarize terms : Value} {dates : List Value}
      {pairs : List (String × Term)}
      (first : Listed .default (slots.take 3) [incremental, pageSize, summarize])
      (lists : MeansMap (MeansRecord Term.slots) terms pairs)
      (last : Listed .default (slots.drop 4) dates) :
      ListsTerms (.array (incremental :: pageSize :: summarize :: terms :: dates)) pairs

/-- The text of one such value: an object without dates and without blanks. -/
def listing (pairs : List (String × Term)) : List Char :=
  printObject [
    ("incrementalResults", printBoolean default.incremental),
    ("maxResults", Text.decimal default.pageSize.value.toNat),
    ("summarize", printBoolean default.summarize),
    ("searchTerms", printObject (pairs.map fun p => (p.1, p.2.json)))]

/-- Saved over `p`, `q` is a change: it is put in its place for all who follow, and that is
noted. -/
def Changes (p q : Request) : Prop :=
  ∀ s : Session, s.request.value = some p →
    (s.carryOut (.save q)).request = s.request.put (some q) ∧
      (s.carryOut (.save q)).notes = .diagnostic (.changed true) :: s.notes

/-- The text is read as what is built of the pairs. With no pairs it is not read as the default
request, although nothing tells the two apart but the map itself. -/
structure ReadAsBuilt (pairs : List (String × Term)) (text : String) : Prop where
  built : pairs ≠ [] → ofText text = .ok (collect pairs)
  nothing : pairs = [] → ∃ q, ofText text = .ok q ∧ q.terms = some .empty ∧
    q.isScoped = false ∧ default.isScoped = false ∧ q ≠ default ∧
    Changes default q ∧ Changes q default

/-! ## What is built -/

theorem foldl_withTerm (pairs : List (String × Term)) (q : Request) (m : TermMap) :
    pairs.foldl (fun q p => q.withTerm p.1 p.2) { q with terms := some m } =
      { q with terms := some (pairs.foldl (fun m p => m.insert p.1 p.2) m) } := by
  induction pairs generalizing m with
  | nil => rfl
  | cons p pairs ih => exact ih (m.insert p.1 p.2)

theorem collect_of_ne_nil {pairs : List (String × Term)} (h : pairs ≠ []) :
    collect pairs = { default with terms := some (TermMap.ofList pairs) } := by
  obtain ⟨p, pairs, rfl⟩ := List.exists_cons_of_ne_nil h
  exact foldl_withTerm pairs default (TermMap.empty.insert p.1 p.2)

theorem changes_of_ne {p q : Request} (h : p ≠ q) : Changes p q := by
  intro s hs
  have hne : s.request.value ≠ some q := fun he => h (Option.some.inj (hs.symm.trans he))
  simp only [Session.carryOut, Session.persist, if_neg hne]
  exact ⟨rfl, rfl⟩

/-! ## What is read -/

/-- The slot of the map of terms. -/
def termsSlot : Slot Request :=
  ⟨"searchTerms", Option TermMap, OrNull TermMap.Means, terms, fun m q => { q with terms := m },
    some none⟩

theorem termsSlot_mem : termsSlot ∈ slots := by simp [slots, termsSlot]

/-- The other slots do not see the map. -/
theorem get_terms {s : Slot Request} (hs : s ∈ slots) (hne : s.name ≠ "searchTerms")
    (m : Option TermMap) : s.get { default with terms := m } = s.get default :=
  lawful.get_set_ne hs termsSlot_mem hne m default

theorem ListsTerms.means {v : Value} {pairs : List (String × Term)} (h : ListsTerms v pairs) :
    MeansRecord slots v { default with terms := some (TermMap.ofList pairs) } := by
  cases h with
  | @object ms _ once rest named lists =>
    have other {s : Slot Request} (hs : s ∈ slots) (hne : s.name ≠ "searchTerms") :
        s ∈ slots.filter (·.name ≠ "searchTerms") :=
      List.mem_filter.2 ⟨hs, decide_eq_true hne⟩
    refine .object once ⟨?said, ?left⟩
    case said =>
      intro s hs v hv
      by_cases hname : s.name = "searchTerms"
      · obtain rfl := lawful.eq_of_name hs termsSlot_mem hname
        exact .value ⟨pairs, lists v hv, rfl⟩
      · rw [get_terms hs hname]
        exact rest.said s (other hs hname) v hv
    case left =>
      intro s hs hn
      have hname : s.name ≠ "searchTerms" := fun he => hn (he ▸ named)
      rw [get_terms hs hname]
      exact rest.left s (other hs hname) hn
  | array first lists last =>
    have dates : ∀ s ∈ slots.drop 4, s.name ≠ "searchTerms" := by simp [slots]
    have last := last.of_get_eq fun s hs =>
      (get_terms (List.mem_of_mem_drop hs) (dates s hs) (some (TermMap.ofList pairs))).symm
    obtain ⟨hincremental, hpageSize, hsummarize, -⟩ := first
    exact .array ⟨hincremental, hpageSize, hsummarize, .value ⟨pairs, lists, rfl⟩, last⟩

theorem conveys_listing (pairs : List (String × Term)) :
    Conveys ListsTerms (listing pairs) pairs := by
  obtain ⟨incremental, hincremental, tincremental⟩ := conveys_boolean default.incremental
  obtain ⟨pageSize, hpageSize, tpageSize⟩ := conveys_natural default.pageSize.value.toNat
  obtain ⟨summarize, hsummarize, tsummarize⟩ := conveys_boolean default.summarize
  obtain ⟨terms, hterms, tterms⟩ := conveys_terms (fun _ => .brief) pairs
  let ms : Members := [("incrementalResults", incremental), ("maxResults", pageSize),
    ("summarize", summarize), ("searchTerms", terms)]
  have printed : Written (.object ms.keyed) (listing pairs) :=
    written_printObject (.cons ⟨rfl, tincremental⟩ <| .cons ⟨rfl, tpageSize⟩ <|
      .cons ⟨rfl, tsummarize⟩ <| .cons ⟨rfl, tterms⟩ .nil)
  refine ⟨.object ms.keyed, .object ?once ⟨?said, ?left⟩ ?named ?lists, printed⟩
  case once =>
    have distinct : ms.names.Nodup := by simp [ms, Members.names]
    intro s _
    exact List.nodup_iff_count_le_one.1 distinct s.name
  case said => simp [slots, ms, hincremental, hpageSize, hsummarize, PageSize.Means]
  case left => simp [slots, ms, Members.names, default]
  case named => simp [ms, Members.names]
  case lists => simp [ms, hterms]

/-- Reading a list of terms is adding them in turn, but for the empty one. -/
theorem reads_terms_as_built (pairs : List (String × Term)) :
    Conveys ListsTerms (listing pairs) pairs ∧
    ∀ v t w u, ListsTerms v pairs → Written v t → Blanks w → Blanks u →
      ReadAsBuilt pairs (String.ofList (w ++ (t ++ u))) := by
  refine ⟨conveys_listing pairs, ?_⟩
  intro v t w u hv ht hw hu
  have hread : ofText (String.ofList (w ++ (t ++ u))) =
      .ok { default with terms := some (TermMap.ofList pairs) } :=
    ((described _).takes_record hv.means ht).readAll hw hu
  constructor
  · intro hne
    rw [collect_of_ne_nil hne]
    exact hread
  · rintro rfl
    have hne : { default with terms := some .empty } ≠ default := by decide
    exact ⟨_, hread, rfl, rfl, rfl, hne, changes_of_ne hne.symm, changes_of_ne hne⟩

/-- A name that has to be escaped, with two terms. -/
theorem reads_terms_as_built_repeated :
    let pairs : List (String × Term) :=
      [("\"", .matching "x"), ("b", ⟨"y", true⟩), ("\"", .matching "z")]
    Conveys ListsTerms (listing pairs) pairs ∧
    ofText ("\x7b\"incrementalResults\":false,\"maxResults\":1000,\"summarize\":true," ++
      "\"searchTerms\":\x7b\"\\\"\":\x7b\"value\":\"x\",\"inverse\":false\x7d," ++
      "\"b\":\x7b\"value\":\"y\",\"inverse\":true\x7d," ++
      "\"\\\"\":\x7b\"value\":\"z\",\"inverse\":false\x7d\x7d\x7d") = .ok (collect pairs) ∧
    (collect pairs).term? "\"" = some (.matching "z") := by
  intro pairs
  obtain ⟨v, hv, ht⟩ := conveys_listing pairs
  have hread := (reads_terms_as_built pairs).2 v (listing pairs) [] [] hv ht .nil .nil
  refine ⟨⟨v, hv, ht⟩, ?_, by decide⟩
  rw [← hread.built (by decide)]
  refine congrArg ofText ?_
  decide +kernel

end StandingQuery.Request
