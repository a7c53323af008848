import StandingQuery.Proofs.Json.Telling
import StandingQuery.Query.Reader

/-! What becomes of an object read as a term, a request, a route, an event, results or an outcome is
a matter of its members alone. Each record has its slots, with the values that mean a content there;
the slots of a record inside another are what its values mean. -/

namespace StandingQuery

open Json

/-! ## What values mean -/

/-- A number of milliseconds of 64 bits, or the spelling of an instant, or null. -/
inductive Instant.IsDate : Value → Option Instant → Prop
  | null : IsDate .null none
  | millis {v : Value} {n : Int} {t : Instant} (hv : v.IsInteger n) (low : -2 ^ 63 ≤ n)
      (high : n < 2 ^ 63) (ht : ofMillis? n = some t) : IsDate v (some t)
  | text {v : Value} {s : String} {t : Instant} (hv : v.IsText s) (ht : read s.toList = .ok t) :
      IsDate v (some t)

@[simp] theorem Instant.isDate_null (t : Option Instant) : IsDate .null t ↔ t = none := by
  constructor
  · rintro (_ | ⟨hv, -, -, -⟩ | ⟨hv, -⟩)
    · rfl
    · exact absurd hv (Value.not_isInteger_null _)
    · exact absurd hv (Value.not_isText_null _)
  · rintro rfl
    exact .null

namespace Term

def slots : List (Slot Term) := [
  ⟨"value", String, Value.IsText, value, fun s t => { t with value := s }, none⟩,
  ⟨"inverse", Bool, Value.IsBoolean, inverse, fun b t => { t with inverse := b }, none⟩]

end Term

/-- Terms under any keys, the later of two with one key. -/
def TermMap.Means (v : Value) (m : TermMap) : Prop :=
  ∃ pairs, MeansMap (MeansRecord Term.slots) v pairs ∧ ofList pairs = m

@[simp] theorem TermMap.not_means_null (m : TermMap) : ¬ TermMap.Means .null m := by
  rintro ⟨pairs, hv, -⟩
  cases hv

def PageSize.Means (v : Value) (n : PageSize) : Prop := v.IsInteger n.value.toNat

@[simp] theorem PageSize.not_means_null (n : PageSize) : ¬ PageSize.Means .null n :=
  Value.not_isInteger_null _

namespace Request

def slots : List (Slot Request) := [
  ⟨"incrementalResults", Bool, Value.IsBoolean, incremental,
    fun b q => { q with incremental := b }, none⟩,
  ⟨"maxResults", PageSize, PageSize.Means, pageSize, fun n q => { q with pageSize := n }, none⟩,
  ⟨"summarize", Bool, Value.IsBoolean, summarize, fun b q => { q with summarize := b }, none⟩,
  ⟨"searchTerms", Option TermMap, OrNull TermMap.Means, terms,
    fun m q => { q with terms := m }, some none⟩,
  ⟨"startDate", Option Instant, Instant.IsDate, start, fun t q => { q with start := t }, some none⟩,
  ⟨"endDate", Option Instant, Instant.IsDate, stop, fun t q => { q with stop := t }, some none⟩]

end Request

namespace Route

def slots : List (Slot Route) := [
  ⟨"componentId", Option String, OrNull Value.IsText, componentId,
    fun s r => { r with componentId := s }, some none⟩,
  ⟨"flowFileUuid", Option String, OrNull Value.IsText, flowFileUuid,
    fun s r => { r with flowFileUuid := s }, some none⟩]

end Route

namespace Event

def slots : List (Slot Event) := [
  ⟨"id", String, Value.IsText, id, fun s e => { e with id := s }, none⟩,
  ⟨"eventType", Option String, OrNull Value.IsText, type,
    fun s e => { e with type := s }, some none⟩,
  ⟨"componentName", Option String, OrNull Value.IsText, component,
    fun s e => { e with component := s }, some none⟩]

end Event

namespace Results

def slots : List (Slot Results) := [
  ⟨"totalCount", UInt64, fun v n => v.IsInteger n.toNat, total,
    fun n r => { r with total := n }, none⟩,
  ⟨"provenanceEvents", List Event, MeansList (MeansRecord Event.slots), events,
    fun es r => { r with events := es }, some []⟩]

end Results

namespace Outcome

def slots : List (Slot Outcome) := [
  ⟨"request", Request, MeansRecord Request.slots, request,
    fun q o => { o with request := q }, none⟩,
  ⟨"results", Results, MeansRecord Results.slots, results,
    fun r o => { o with results := r }, none⟩]

end Outcome

/-! ## Reading them -/

variable {room : Nat} {v : Value} {text : List Char}

theorem takes_part {o : Option String} (hv : OrNull Value.IsText v o) (ht : Written v text) :
    Takes (readOptional readText) text o :=
  takes_optional hv ht Value.not_isText_null fun _ hs => takes_text hs ht

theorem PageSize.takes {n : PageSize} (hv : PageSize.Means v n) (ht : Written v text) :
    Takes PageSize.read text n :=
  Takes.map (fun k : { k : UInt32 // k ≠ 0 } => (⟨k.1, k.2⟩ : PageSize))
    (takes_positive32 (n := ⟨n.value, n.positive⟩) hv ht)

/-- A date is judged by its surface. -/
theorem Instant.takes_surface {s : Surface} {t : Option Instant} (h : Takes peekSurface text s)
    (scalar : s ≠ .sequence ∧ s ≠ .map) (ht : ofSurface s = .ok t) :
    Takes (readValue room) text t := by
  intro w rest hw hr
  simp only [readValue, h.whole scalar room w rest hw hr, bind, Except.bind, ht]
  rfl

theorem Instant.takes {t : Option Instant} (hv : IsDate v t) (ht : Written v text) :
    Takes (readValue room) text t := by
  cases hv with
  | null =>
    cases ht
    exact takes_surface peeks_null (by decide) rfl
  | @millis _ n t hv low high hmillis =>
    obtain ⟨l, rfl, hl⟩ := hv
    cases ht with
    | number l =>
      refine takes_surface (peeks_integer hl low (by omega)) (by simp) ?_
      have hmax : n ≤ Int64.maxValue.toInt := by
        rw [show Int64.maxValue.toInt = 2 ^ 63 - 1 from rfl]
        omega
      simp only [ofSurface, if_pos hmax, hmillis]
  | @text _ s t hv hread =>
    subst hv
    cases ht with
    | text h =>
      refine takes_surface (peeks_text h) (by simp) ?_
      simp only [ofSurface, hread]

theorem Term.lawful : Lawful slots where
  names := by decide
  get_set := by simp [slots]
  apart := by simp [slots]
  ext := by
    rintro ⟨_, _⟩ ⟨_, _⟩
    simp [slots]
  null := by simp [slots]

theorem Term.described (room : Nat) : Describes room schema slots where
  lawful := lawful
  fields := .cons (.of rfl fun _ _ _ hv ht => takes_text hv ht) <|
    .cons (.of rfl fun _ _ _ hv ht => takes_boolean hv ht) .nil
  blank := by simp [slots]

theorem TermMap.takes {m : TermMap} (hv : Means v m) (ht : Written v text) :
    Takes (read (room + 3)) text m := by
  obtain ⟨pairs, hv, rfl⟩ := hv
  exact (takes_map hv ht fun _ _ _ hv ht => (Term.described _).takes_record hv ht).map ofList

theorem Request.lawful : Lawful slots where
  names := by decide
  get_set := by simp [slots]
  apart := by simp [slots]
  ext := by
    rintro ⟨_, _, _, _, _, _⟩ ⟨_, _, _, _, _, _⟩
    simp [slots]
  null := by simp [slots]

theorem Request.described (room : Nat) : Describes (room + 3) schema slots where
  lawful := lawful
  fields := .cons (.of rfl fun _ _ _ hv ht => takes_boolean hv ht) <|
    .cons (.of rfl fun _ _ _ hv ht => PageSize.takes hv ht) <|
    .cons (.of rfl fun _ _ _ hv ht => takes_boolean hv ht) <|
    .cons (.of rfl fun _ _ _ hv ht =>
      takes_optional hv ht TermMap.not_means_null fun _ hm => TermMap.takes hm ht) <|
    .cons (.of rfl fun _ _ _ hv ht => Instant.takes hv ht) <|
    .cons (.of rfl fun _ _ _ hv ht => Instant.takes hv ht) .nil
  blank := by simp [slots, schema, default]

theorem Route.lawful : Lawful slots where
  names := by decide
  get_set := by simp [slots]
  apart := by simp [slots]
  ext := by
    rintro ⟨_, _⟩ ⟨_, _⟩
    simp [slots]
  null := by simp [slots]

theorem Route.described (room : Nat) : Describes room schema slots where
  lawful := lawful
  fields := .cons (.of rfl fun _ _ _ hv ht => takes_part hv ht) <|
    .cons (.of rfl fun _ _ _ hv ht => takes_part hv ht) .nil
  blank := by simp [slots, schema]

theorem Event.lawful : Lawful slots where
  names := by decide
  get_set := by simp [slots]
  apart := by simp [slots]
  ext := by
    rintro ⟨_, _, _⟩ ⟨_, _, _⟩
    simp [slots]
  null := by simp [slots]

theorem Event.described (room : Nat) : Describes room schema slots where
  lawful := lawful
  fields := .cons (.of rfl fun _ _ _ hv ht => takes_text hv ht) <|
    .cons (.of rfl fun _ _ _ hv ht => takes_part hv ht) <|
    .cons (.of rfl fun _ _ _ hv ht => takes_part hv ht) .nil
  blank := by simp [slots, schema]

theorem Results.lawful : Lawful slots where
  names := by decide
  get_set := by simp [slots]
  apart := by simp [slots]
  ext := by
    rintro ⟨_, _⟩ ⟨_, _⟩
    simp [slots]
  null := by simp [slots]

theorem Results.described (room : Nat) : Describes (room + 3) schema slots where
  lawful := lawful
  fields := .cons (.of rfl fun _ _ _ hv ht => takes_natural64 hv ht) <|
    .cons (.of rfl fun _ _ _ hv ht => takes_sequence hv ht fun _ _ _ hv ht =>
      (Event.described _).takes_record hv ht) .nil
  blank := by simp [slots, schema]

theorem Outcome.lawful : Lawful slots where
  names := by decide
  get_set := by simp [slots]
  apart := by simp [slots]
  ext := by
    rintro ⟨_, _⟩ ⟨_, _⟩
    simp [slots]
  null := by simp [slots]

theorem Outcome.described (room : Nat) : Describes (room + 4) schema slots where
  lawful := lawful
  fields := .cons (.of rfl fun _ _ _ hv ht => (Request.described _).takes_record hv ht) <|
    .cons (.of rfl fun _ _ _ hv ht => (Results.described _).takes_record hv ht) .nil
  blank := by simp [slots]

/-- Reading an object takes heed of its members, and of nothing else about its text. -/
theorem decodes_objects :
    DecodesObjects Term.slots Term.ofText ∧
    DecodesObjects Request.slots Request.ofText ∧
    DecodesObjects Route.slots Route.ofText ∧
    DecodesObjects Event.slots Event.ofText ∧
    DecodesObjects Results.slots Results.ofText ∧
    DecodesObjects Outcome.slots Outcome.ofText := by
  refine ⟨?_, ?_, ?_, ?_, ?_, ?_⟩
  · exact (Term.described _).decodes
  · exact (Request.described _).decodes
  · exact (Route.described _).decodes
  · exact (Event.described _).decodes
  · exact (Results.described _).decodes
  · exact (Outcome.described _).decodes

/-- Known members in another order, one with an escape in its name, behind an unknown one. -/
example : Term.ofText
    "\x7b\"no\": [1e9, \x7b\"\":null\x7d], \"inverse\" :true,\"val\\u0075e\":\"x\"\x7d" =
      .ok ⟨"x", true⟩ := by
  decide +kernel

end StandingQuery
