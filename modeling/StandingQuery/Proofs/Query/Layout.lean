import StandingQuery.Proofs.Json.Extent
import StandingQuery.Proofs.Json.Form
import StandingQuery.Proofs.Query.Decoding
import StandingQuery.Proofs.Query.ReadBack
import StandingQuery.Query.Printer

/-! A record may be written as an object or as an array, and so may every record in it, each as it
likes; all of these texts are read as the same value. An array that is too short or too long is read
as no value at all, and nothing is read from a text that has one in the place of a record. -/

namespace StandingQuery

open Json

/-! ## Layouts -/

namespace Json.Form

/-- An object without what is needless. -/
def brief : Form := .object fun _ => true

/-- An object with all parts. -/
def full : Form := .object fun _ => false

theorem print_full (parts : List Part) :
    full.print parts = printObject (parts.map fun p => (p.name, p.text)) := by
  simp [full, print]

end Json.Form

/-- The form of a request, and those of its terms by field. -/
structure Request.Layout where
  record : Form
  terms : String → Form

/-- The form of the results, and those of their events by position. -/
structure Results.Layout where
  record : Form
  events : Nat → Form

structure Outcome.Layout where
  record : Form
  request : Request.Layout
  results : Results.Layout

namespace Term

def parts (t : Term) : List Part :=
  [⟨"value", printText t.value, false⟩, ⟨"inverse", printBoolean t.inverse, false⟩]

def jsonIn (f : Form) (t : Term) : List Char := f.print t.parts

def textIn (f : Form) (t : Term) : String := String.ofList (t.jsonIn f)

end Term

def TermMap.jsonIn (forms : String → Form) (m : TermMap) : List Char :=
  printObject (m.entries.map fun e => (e.1, e.2.jsonIn (forms e.1)))

namespace Request

def parts (l : Layout) (q : Request) : List Part := [
  ⟨"incrementalResults", printBoolean q.incremental, false⟩,
  ⟨"maxResults", Text.decimal q.pageSize.value.toNat, false⟩,
  ⟨"summarize", printBoolean q.summarize, false⟩,
  ⟨"searchTerms", printOrNull (TermMap.jsonIn l.terms) q.terms, q.terms.isNone⟩,
  ⟨"startDate", printOrNull Instant.json q.start, q.start.isNone⟩,
  ⟨"endDate", printOrNull Instant.json q.stop, q.stop.isNone⟩]

def jsonIn (l : Layout) (q : Request) : List Char := l.record.print (q.parts l)

def textIn (l : Layout) (q : Request) : String := String.ofList (q.jsonIn l)

/-- As a request is printed. -/
def Layout.compact : Layout := ⟨.brief, fun _ => .brief⟩

end Request

namespace Route

def parts (r : Route) : List Part := [
  ⟨"componentId", printOrNull printText r.componentId, r.componentId.isNone⟩,
  ⟨"flowFileUuid", printOrNull printText r.flowFileUuid, r.flowFileUuid.isNone⟩]

def jsonIn (f : Form) (r : Route) : List Char := f.print r.parts

def textIn (f : Form) (r : Route) : String := String.ofList (r.jsonIn f)

end Route

namespace Event

def parts (e : Event) : List Part := [
  ⟨"id", printText e.id, false⟩,
  ⟨"eventType", printOrNull printText e.type, e.type.isNone⟩,
  ⟨"componentName", printOrNull printText e.component, e.component.isNone⟩]

def jsonIn (f : Form) (e : Event) : List Char := f.print e.parts

def textIn (f : Form) (e : Event) : String := String.ofList (e.jsonIn f)

end Event

namespace Results

def parts (l : Layout) (r : Results) : List Part := [
  ⟨"totalCount", Text.decimal r.total.toNat, false⟩,
  ⟨"provenanceEvents", printArray (r.events.mapIdx fun i e => e.jsonIn (l.events i)),
    r.events.isEmpty⟩]

def jsonIn (l : Layout) (r : Results) : List Char := l.record.print (r.parts l)

def textIn (l : Layout) (r : Results) : String := String.ofList (r.jsonIn l)

/-- As results are printed: an empty list of events is said to be empty. -/
def Layout.compact : Layout := ⟨.full, fun _ => .brief⟩

end Results

namespace Outcome

def parts (l : Layout) (o : Outcome) : List Part :=
  [⟨"request", o.request.jsonIn l.request, false⟩, ⟨"results", o.results.jsonIn l.results, false⟩]

def jsonIn (l : Layout) (o : Outcome) : List Char := l.record.print (o.parts l)

def textIn (l : Layout) (o : Outcome) : String := String.ofList (o.jsonIn l)

def Layout.compact : Layout := ⟨.full, .compact, .compact⟩

end Outcome

/-! ## The printed text is one of them -/

theorem Term.jsonIn_brief (t : Term) : t.jsonIn .brief = t.json := rfl

theorem TermMap.jsonIn_brief (m : TermMap) : m.jsonIn (fun _ => .brief) = m.json := rfl

theorem Request.jsonIn_compact (q : Request) : q.jsonIn .compact = q.json := by
  rw [json]
  cases hm : q.terms <;> cases hs : q.start <;> cases he : q.stop <;>
    simp only [jsonIn, parts, Layout.compact, hm, hs, he] <;> rfl

theorem Route.jsonIn_full (r : Route) : r.jsonIn .full = r.json := by
  rw [jsonIn, Form.print_full]
  rfl

theorem Event.jsonIn_brief (e : Event) : e.jsonIn .brief = e.json := by
  cases ht : e.type <;> cases hc : e.component <;>
    simp only [jsonIn, parts, json, ht, hc] <;> rfl

theorem Results.jsonIn_compact (r : Results) : r.jsonIn .compact = r.json := by
  have hevents : r.events.mapIdx (fun _ e => e.jsonIn .brief) = r.events.map Event.json := by
    simp only [Event.jsonIn_brief]
    exact List.ext_getElem (by simp) (by simp)
  rw [jsonIn, Layout.compact, Form.print_full, parts, hevents]
  rfl

theorem Outcome.jsonIn_compact (o : Outcome) : o.jsonIn .compact = o.json := by
  simp only [jsonIn, parts, Layout.compact, Request.jsonIn_compact, Results.jsonIn_compact]
  rfl

/-! ## What a text conveys -/

theorem Instant.conveys (t : Option Instant) : Conveys IsDate (printOrNull json t) t := by
  cases t with
  | none => exact ⟨_, .null, .null⟩
  | some t =>
    obtain ⟨v, rfl, ht⟩ := conveys_text (String.ofList t.print)
    refine ⟨_, .text rfl ?_, json_eq_printText t ▸ ht⟩
    rw [String.toList_ofList, read_print]

theorem Term.conveys (f : Form) (t : Term) : Conveys (MeansRecord slots) (t.jsonIn f) t :=
  conveys_record (.cons (.of_text (conveys_text _)) <|
    .cons (.of_text (conveys_boolean _)) .nil) lawful.names f

/-- Any terms, in any order and under any names. -/
theorem conveys_terms (forms : String → Form) (pairs : List (String × Term)) :
    Conveys (MeansMap (MeansRecord Term.slots))
      (printObject (pairs.map fun e => (e.1, e.2.jsonIn (forms e.1)))) pairs :=
  conveys_map (List.forall₂_map_left_iff.2 (List.forall₂_same.2 fun e _ => ⟨rfl, e.2.conveys _⟩))

theorem TermMap.conveys (forms : String → Form) (m : TermMap) :
    Conveys Means (m.jsonIn forms) m := by
  obtain ⟨v, hv, ht⟩ := conveys_terms forms m.entries
  exact ⟨v, ⟨m.entries, hv, ofList_entries m⟩, ht⟩

theorem none_of_isNone {α : Type} {o : Option α} (h : o.isNone = true) : some none = some o := by
  rw [Option.isNone_iff_eq_none.1 h]

theorem Request.conveys (l : Layout) (q : Request) :
    Conveys (MeansRecord slots) (q.jsonIn l) q :=
  conveys_record (
    .cons (.of_text (conveys_boolean _)) <|
    .cons (.of_text (conveys_natural _)) <|
    .cons (.of_text (conveys_boolean _)) <|
    .cons ⟨rfl, conveys_orNull fun m _ => m.conveys l.terms, none_of_isNone⟩ <|
    .cons ⟨rfl, Instant.conveys _, none_of_isNone⟩ <|
    .cons ⟨rfl, Instant.conveys _, none_of_isNone⟩ .nil) lawful.names l.record

theorem Route.conveys (f : Form) (r : Route) : Conveys (MeansRecord slots) (r.jsonIn f) r :=
  conveys_record (
    .cons ⟨rfl, conveys_orNull fun s _ => conveys_text s, none_of_isNone⟩ <|
    .cons ⟨rfl, conveys_orNull fun s _ => conveys_text s, none_of_isNone⟩ .nil) lawful.names f

theorem Event.conveys (f : Form) (e : Event) : Conveys (MeansRecord slots) (e.jsonIn f) e :=
  conveys_record (
    .cons (.of_text (conveys_text _)) <|
    .cons ⟨rfl, conveys_orNull fun s _ => conveys_text s, none_of_isNone⟩ <|
    .cons ⟨rfl, conveys_orNull fun s _ => conveys_text s, none_of_isNone⟩ .nil) lawful.names f

theorem forall₂_mapIdx {α β : Type} {R : β → α → Prop} {f : Nat → α → β} (h : ∀ i a, R (f i a) a)
    (as : List α) : List.Forall₂ R (as.mapIdx f) as := by
  induction as generalizing f with
  | nil => exact .nil
  | cons a as ih =>
    rw [List.mapIdx_cons]
    exact .cons (h 0 a) (ih fun i => h (i + 1))

theorem Results.conveys (l : Layout) (r : Results) :
    Conveys (MeansRecord slots) (r.jsonIn l) r := by
  have events : List.Forall₂ (Conveys (MeansRecord Event.slots))
      (r.events.mapIdx fun i e => e.jsonIn (l.events i)) r.events :=
    forall₂_mapIdx (fun i e => e.conveys (l.events i)) r.events
  exact conveys_record (
    .cons (.of_text (conveys_natural _)) <|
    .cons ⟨rfl, conveys_list events, fun h => congrArg some (List.isEmpty_iff.1 h).symm⟩ .nil)
    lawful.names l.record

theorem Outcome.conveys (l : Layout) (o : Outcome) : Conveys (MeansRecord slots) (o.jsonIn l) o :=
  conveys_record (.cons (.of_text (o.request.conveys _)) <|
    .cons (.of_text (o.results.conveys _)) .nil) lawful.names l.record

/-! ## What is read of a record, and of what nothing is -/

/-- Makes no demand on what stands within a record. -/
def Unasked (_ : String) (_ : Value) : Prop := True

/-- Of the records within a value, each that is an array has the right number of elements. -/
def Term.Counted : Value → Prop := Json.Counted slots Unasked

def Request.Counted : Value → Prop :=
  Json.Counted slots fun name v => name = "searchTerms" →
    ∀ terms, v = .object terms → ∀ t ∈ terms, Term.Counted t.2

def Route.Counted : Value → Prop := Json.Counted slots Unasked

def Event.Counted : Value → Prop := Json.Counted slots Unasked

def Results.Counted : Value → Prop :=
  Json.Counted slots fun name v => name = "provenanceEvents" →
    ∀ events, v = .array events → ∀ e ∈ events, Event.Counted e

def Outcome.Counted : Value → Prop :=
  Json.Counted slots fun name v =>
    (name = "request" → Request.Counted v) ∧ (name = "results" → Results.Counted v)

theorem Instant.stops (room : Nat) : Stops (readValue room) fun _ => True := by
  intro v text w rest t r ht hw hr hread
  obtain ⟨⟨s, r₁⟩, hwhole, hread⟩ := ok_of_bind hread
  obtain ⟨⟨s', r₂⟩, hpeek, hwhole⟩ := ok_of_bind hwhole
  simp only at hread
  split at hread
  case h_2 => cases hread
  case h_1 t' hdate =>
    cases hread
    cases peeked ht hw hr hpeek with
    | array _ | object _ =>
      obtain ⟨_, -, hwhole⟩ := ok_of_bind hwhole
      cases hwhole
      cases hdate
    | single hsequence hmap =>
      cases s' with
      | sequence => exact absurd rfl hsequence
      | map => exact absurd rfl hmap
      | null | boolean _ | number _ | text _ =>
        cases hwhole
        exact ⟨rfl, trivial⟩

theorem PageSize.stops : Stops PageSize.read fun _ => True :=
  stops_positive32.map fun n : { n : UInt32 // n ≠ 0 } => (⟨n.1, n.2⟩ : PageSize)

/-- A value that may be null, and of which nothing else is asked. -/
theorem stops_part : Stops (readOptional readText) fun _ => True := stops_text.optional trivial

theorem Term.stops (room : Nat) : Stops (schema.read room) Counted := by
  refine stops_record (described 0).suits ?_ room
  simp only [schema, List.forall_mem_cons]
  refine ⟨?_, ?_, List.forall_mem_nil _⟩
  · exact stops_field (fun _ => stops_text) fun _ _ => trivial
  · exact stops_field (fun _ => stops_boolean) fun _ _ => trivial

theorem TermMap.stops (room : Nat) :
    Stops (read room) fun v => ∀ terms, v = .object terms → ∀ t ∈ terms, Term.Counted t.2 :=
  (stops_map Term.stops room).map ofList

theorem Request.stops (room : Nat) : Stops (schema.read room) Counted := by
  refine stops_record (described 0).suits ?_ room
  simp only [schema, List.forall_mem_cons]
  refine ⟨?_, ?_, ?_, ?_, ?_, ?_, List.forall_mem_nil _⟩
  · exact stops_field (fun _ => stops_boolean) fun _ _ h => absurd h (by decide)
  · exact stops_field (fun _ => PageSize.stops) fun _ _ h => absurd h (by decide)
  · exact stops_field (fun _ => stops_boolean) fun _ _ h => absurd h (by decide)
  · exact stops_field (fun room => (TermMap.stops room).optional (by simp)) fun _ h _ => h
  · exact stops_field Instant.stops fun _ _ h => absurd h (by decide)
  · exact stops_field Instant.stops fun _ _ h => absurd h (by decide)

theorem Route.stops (room : Nat) : Stops (schema.read room) Counted := by
  refine stops_record (described 0).suits ?_ room
  simp only [schema, List.forall_mem_cons]
  refine ⟨?_, ?_, List.forall_mem_nil _⟩
  · exact stops_field (fun _ => stops_part) fun _ _ => trivial
  · exact stops_field (fun _ => stops_part) fun _ _ => trivial

theorem Event.stops (room : Nat) : Stops (schema.read room) Counted := by
  refine stops_record (described 0).suits ?_ room
  simp only [schema, List.forall_mem_cons]
  refine ⟨?_, ?_, ?_, List.forall_mem_nil _⟩
  · exact stops_field (fun _ => stops_text) fun _ _ => trivial
  · exact stops_field (fun _ => stops_part) fun _ _ => trivial
  · exact stops_field (fun _ => stops_part) fun _ _ => trivial

theorem Results.stops (room : Nat) : Stops (schema.read room) Counted := by
  refine stops_record (described 0).suits ?_ room
  simp only [schema, List.forall_mem_cons]
  refine ⟨?_, ?_, List.forall_mem_nil _⟩
  · exact stops_field (fun _ => stops_natural64) fun _ _ h => absurd h (by decide)
  · exact stops_field (stops_sequence Event.stops) fun _ h _ => h

theorem Outcome.stops (room : Nat) : Stops (schema.read room) Counted := by
  refine stops_record (described 0).suits ?_ room
  simp only [schema, List.forall_mem_cons]
  refine ⟨?_, ?_, List.forall_mem_nil _⟩
  · exact stops_field Request.stops fun _ h => ⟨fun _ => h, fun hn => absurd hn (by decide)⟩
  · exact stops_field Results.stops fun _ h => ⟨fun hn => absurd hn (by decide), fun _ => h⟩

/-- A record is read from every one of its texts, the printed one among them; and nothing is read
from the text of a value in which a record is an array of the wrong length. -/
structure ReadsForms {σ ι : Type} (ofText : String → Except Failure σ) (toText : σ → String)
    (textIn : ι → σ → String) (compact : ι) (Counted : Value → Prop) : Prop where
  compact : ∀ a, textIn compact a = toText a
  read : ∀ l a, ofText (textIn l a) = .ok a
  counted : ∀ {v t w u a}, Written v t → Blanks w → Blanks u →
    ofText (String.ofList (w ++ (t ++ u))) = .ok a → Counted v

theorem Json.Conveys.readAll {σ : Type} {schema : Schema σ} {slots : List (Slot σ)}
    (d : Describes 127 schema slots) {text : List Char} {a : σ}
    (h : Conveys (MeansRecord slots) text a) :
    Json.readAll schema.read (String.ofList text) = .ok a := by
  obtain ⟨v, hv, ht⟩ := h
  have hread := (d.takes_record hv ht).readAll Blanks.nil Blanks.nil
  rwa [List.nil_append, List.append_nil] at hread

theorem ReadsForms.of {σ ι : Type} {schema : Schema σ} {slots : List (Slot σ)}
    {jsonIn : ι → σ → List Char} {json : σ → List Char} {compact : ι} {Counted : Value → Prop}
    (described : Describes 127 schema slots) (printed : ∀ a, jsonIn compact a = json a)
    (conveys : ∀ l a, Conveys (MeansRecord slots) (jsonIn l a) a)
    (stops : Stops (schema.read roomAtTop) Counted) :
    ReadsForms (readAll schema.read) (fun a => String.ofList (json a))
      (fun l a => String.ofList (jsonIn l a)) compact Counted where
  compact a := congrArg String.ofList (printed a)
  read l a := (conveys l a).readAll described
  counted ht hw hu h := stops.readAll ht hw hu h

/-- Objects and arrays may be mixed at will, and only arrays of the right lengths are read. -/
theorem reads_forms :
    ReadsForms Term.ofText Term.toText Term.textIn .brief Term.Counted ∧
    ReadsForms Request.ofText Request.toText Request.textIn .compact Request.Counted ∧
    ReadsForms Route.ofText Route.toText Route.textIn .full Route.Counted ∧
    ReadsForms Event.ofText Event.toText Event.textIn .brief Event.Counted ∧
    ReadsForms Results.ofText Results.toText Results.textIn .compact Results.Counted ∧
    ReadsForms Outcome.ofText Outcome.toText Outcome.textIn .compact Outcome.Counted := by
  refine ⟨?term, ?request, ?route, ?event, ?results, ?outcome⟩
  case term =>
    exact .of (Term.described _) Term.jsonIn_brief (fun f t => t.conveys f) (Term.stops _)
  case request =>
    exact .of (Request.described _) Request.jsonIn_compact (fun l q => q.conveys l)
      (Request.stops _)
  case route =>
    exact .of (Route.described _) Route.jsonIn_full (fun f r => r.conveys f) (Route.stops _)
  case event =>
    exact .of (Event.described _) Event.jsonIn_brief (fun f e => e.conveys f) (Event.stops _)
  case results =>
    exact .of (Results.described _) Results.jsonIn_compact (fun l r => r.conveys l)
      (Results.stops _)
  case outcome =>
    exact .of (Outcome.described _) Outcome.jsonIn_compact (fun l o => o.conveys l)
      (Outcome.stops _)

/-- An array within an array, and one that has lost its last element. -/
example : Results.ofText "[7,[\x7b\"id\":\"e\"\x7d,[\"f\",null,\"c\"]]]" =
      .ok ⟨7, [⟨"e", none, none⟩, ⟨"f", none, some "c"⟩]⟩ ∧
    (Term.ofText "[\"x\"]").toOption = none := by
  decide +kernel

end StandingQuery
