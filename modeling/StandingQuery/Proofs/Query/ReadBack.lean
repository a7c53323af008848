import StandingQuery.Proofs.Instant
import StandingQuery.Proofs.Json.Record
import StandingQuery.Query.Printer
import StandingQuery.Query.Reader

/-! What is written of a request, a route or an outcome reads back as the same value. The records
follow from their parts, field by field; what is particular to them is the date, which is written
as a string and read by rules of its own, and the map of terms, whose keys come in order. -/

namespace StandingQuery

open Json

variable {room : Nat}

/-! ## Dates -/

/-- Needs no escape. -/
def Plain (s : List Char) : Prop := ∀ c ∈ s, printChar c = [c]

namespace Plain

theorem nil : Plain [] := fun _ hc => absurd hc List.not_mem_nil

theorem cons {c : Char} {s : List Char} (hc : printChar c = [c]) (hs : Plain s) :
    Plain (c :: s) :=
  List.forall_mem_cons.2 ⟨hc, hs⟩

theorem append {s t : List Char} (hs : Plain s) (ht : Plain t) : Plain (s ++ t) :=
  List.forall_mem_append.2 ⟨hs, ht⟩

theorem flatMap_printChar {s : List Char} (h : Plain s) : s.flatMap printChar = s := by
  rw [List.flatMap_congr h, List.flatMap_singleton']

theorem decimalIn (width n : Nat) : Plain (Text.decimalIn width n) := by
  intro c hc
  have hdigit := Text.isDigit_of_mem_decimalIn hc
  unfold printChar
  split
  case h_8 =>
    have hlow : 48 ≤ c.toNat := (Char.isDigit_iff_toNat.1 hdigit).1
    rw [if_neg (by omega)]
  all_goals cases hdigit

theorem printYear (y : Int) : Plain (Instant.printYear y) := by
  unfold Instant.printYear
  split
  case isTrue => exact decimalIn _ _
  case isFalse =>
    refine cons ?_ (decimalIn _ _)
    split <;> rfl

theorem printFraction (n : Nat) : Plain (Instant.printFraction n) := by
  unfold Instant.printFraction
  split
  case isTrue => exact nil
  split
  case isTrue => exact cons rfl (decimalIn _ _)
  split
  case isTrue => exact cons rfl (decimalIn _ _)
  case isFalse => exact cons rfl (decimalIn _ _)

theorem printDate (d : Date) : Plain (Instant.printDate d) :=
  ((printYear _).append (cons rfl (decimalIn _ _))).append (cons rfl (decimalIn _ _))

theorem printClock (hour minute second : Nat) : Plain (Instant.printClock hour minute second) :=
  ((decimalIn _ _).append (cons rfl (decimalIn _ _))).append (cons rfl (decimalIn _ _))

theorem print (t : Instant) : Plain t.print :=
  (((printDate _).append (cons rfl (printClock _ _ _))).append (printFraction _)).append
    (cons rfl nil)

end Plain

theorem Instant.json_eq_printText (t : Instant) : t.json = printText (String.ofList t.print) := by
  rw [printText, String.toList_ofList, (Plain.print t).flatMap_printChar]
  rfl

/-- A date is judged by its surface. -/
theorem Instant.readValue_surface {text : List Char} {v : Surface} (h : Reads peekSurface text v)
    (scalar : v ≠ .sequence ∧ v ≠ .map) {rest : List Char} (hr : AtBreak rest) :
    Instant.readValue room (text ++ rest) =
      match ofSurface v with
      | .ok t => .ok (t, rest)
      | .error fault => .error (.misfit (.timestamp fault)) := by
  have hwhole : wholeSurface room (text ++ rest) = .ok (v, rest) := by
    simp only [wholeSurface, h rest hr, bind, Except.bind]
    cases v with
    | sequence => exact absurd rfl scalar.1
    | map => exact absurd rfl scalar.2
    | null | boolean _ | number _ | text _ => rfl
  simp only [readValue, hwhole, bind, Except.bind]
  rfl

theorem Instant.reads (room : Nat) (t : Instant) :
    Reads (Instant.readValue room) t.json (some t) := by
  intro rest hr
  have hread : ofSurface (.text (String.ofList t.print)) = .ok (some t) := by
    simp only [ofSurface, String.toList_ofList, read_print]
  rw [json_eq_printText, readValue_surface (peekSurface_printText _) (by simp) hr, hread]

/-! ## Terms -/

theorem Term.reads (t : Term) : Reads (Term.schema.read (room + 2)) t.json t := by
  have h : Fills (room + 1) Term.schema.fields
      [("value", printText t.value), ("inverse", printBoolean t.inverse)] Term.schema.blank t :=
    .of (reads_text t.value) <| .of (reads_boolean t.inverse) .done
  exact h.reads (by simp [Term.schema, Field.of])

namespace TermMap

theorem insertEntry_last {k : String} {t : Term} {es : List (String × Term)}
    (h : ∀ e ∈ es, e.1 < k) : insertEntry k t es = es ++ [(k, t)] := by
  induction es with
  | nil => rfl
  | cons e es ih =>
    have he := h e List.mem_cons_self
    rw [insertEntry, if_neg (String.lt_asymm he), if_pos he,
      ih fun d hd => h d (List.mem_cons_of_mem _ hd)]
    rfl

theorem entries_foldl_insert (pairs : List (String × Term)) (m : TermMap)
    (h : (m.entries ++ pairs).Pairwise (·.1 < ·.1)) :
    (pairs.foldl (fun m (k, t) => m.insert k t) m).entries = m.entries ++ pairs := by
  induction pairs generalizing m with
  | nil => rw [List.append_nil]; rfl
  | cons p pairs ih =>
    have hlast : (m.insert p.1 p.2).entries = m.entries ++ [p] :=
      insertEntry_last fun e he => (List.pairwise_append.1 h).2.2 e he p List.mem_cons_self
    have hnext : (m.insert p.1 p.2).entries ++ pairs = m.entries ++ p :: pairs := by
      rw [hlast, List.append_assoc]
      rfl
    rw [List.foldl_cons, ih _ (hnext ▸ h), hnext]

theorem ofList_entries (m : TermMap) : ofList m.entries = m := by
  have h := entries_foldl_insert m.entries empty (by simpa [empty] using m.ascending)
  obtain ⟨entries, ascending⟩ := m
  rw [mk.injEq]
  exact h

theorem reads (m : TermMap) : Reads (TermMap.read (room + 3)) m.json m := by
  have hentries : Reads (readMap (room + 3) Term.schema.read) m.json m.entries :=
    reads_map fun p _ => p.2.reads
  have h := hentries.map ofList
  rw [ofList_entries] at h
  exact h

end TermMap

/-! ## Requests and routes -/

theorem PageSize.reads (n : PageSize) : Reads PageSize.read (Text.decimal n.value.toNat) n :=
  Reads.map (fun k : { k : UInt32 // k ≠ 0 } => (⟨k.1, k.2⟩ : PageSize))
    (reads_positive32 ⟨n.value, n.positive⟩)

theorem Request.reads (q : Request) : Reads (Request.schema.read (room + 4)) q.json q := by
  have h : Fills (room + 3) Request.schema.fields
      (("incrementalResults", printBoolean q.incremental) ::
        ("maxResults", Text.decimal q.pageSize.value.toNat) ::
        ("summarize", printBoolean q.summarize) ::
        (memberIf "searchTerms" q.terms TermMap.json ++
          (memberIf "startDate" q.start Instant.json ++
            (memberIf "endDate" q.stop Instant.json ++ [])))) Request.schema.blank q :=
    .of (reads_boolean q.incremental) <| .of q.pageSize.reads <| .of (reads_boolean q.summarize) <|
      .ofOption (fun m => m.reads.optional (opens_printObject _)) rfl <|
      .ofOption (Instant.reads _) rfl <| .ofOption (Instant.reads _) rfl .done
  have hreads := h.reads (by simp [Request.schema, Field.of])
  simpa [Request.json] using hreads

/-- A part of a route is null where there is none. -/
theorem Route.part_reads (s : Option String) :
    Reads (readOptional readText) ((s.map printText).getD printNull) s := by
  cases s with
  | none => exact reads_null
  | some s => exact (reads_text s).optional (opens_printText s)

theorem Route.reads (r : Route) : Reads (Route.schema.read (room + 2)) r.json r := by
  have h : Fills (room + 1) Route.schema.fields
      [("componentId", (r.componentId.map printText).getD printNull),
        ("flowFileUuid", (r.flowFileUuid.map printText).getD printNull)] Route.schema.blank r :=
    .of (part_reads r.componentId) <| .of (part_reads r.flowFileUuid) .done
  exact h.reads (by simp [Route.schema, Field.of])

/-! ## Outcomes -/

theorem Event.reads (e : Event) : Reads (Event.schema.read (room + 2)) e.json e := by
  have hpart (s : String) : Reads (readOptional readText) (printText s) (some s) :=
    (reads_text s).optional (opens_printText s)
  have h : Fills (room + 1) Event.schema.fields
      (("id", printText e.id) :: (memberIf "eventType" e.type printText ++
        (memberIf "componentName" e.component printText ++ []))) Event.schema.blank e :=
    .of (reads_text e.id) <| .ofOption hpart rfl <| .ofOption hpart rfl .done
  have hreads := h.reads (by simp [Event.schema, Field.of])
  simpa [Event.json] using hreads

theorem Results.reads (r : Results) : Reads (Results.schema.read (room + 4)) r.json r := by
  have hevents : Reads (readSequence (room + 3) Event.schema.read)
      (printArray (r.events.map Event.json)) r.events :=
    reads_sequence (fun e _ => opens_printObject _) fun e _ => e.reads
  have h : Fills (room + 3) Results.schema.fields
      [("totalCount", Text.decimal r.total.toNat),
        ("provenanceEvents", printArray (r.events.map Event.json))] Results.schema.blank r :=
    .of (reads_natural64 r.total) <| .of hevents .done
  exact h.reads (by simp [Results.schema, Field.of])

theorem Outcome.reads (o : Outcome) : Reads (Outcome.schema.read (room + 5)) o.json o := by
  have h : Fills (room + 4) Outcome.schema.fields
      [("request", o.request.json), ("results", o.results.json)] Outcome.schema.blank o :=
    .of o.request.reads <| .of o.results.reads .done
  exact h.reads (by simp [Outcome.schema, Field.of])

/-! ## Whole texts -/

/-- Whatever is written of a model is read, and as the value it was written from. -/
theorem ofText_toText :
    (∀ t : Term, Term.ofText t.toText = .ok t) ∧
    (∀ q : Request, Request.ofText q.toText = .ok q) ∧
    (∀ r : Route, Route.ofText r.toText = .ok r) ∧
    (∀ e : Event, Event.ofText e.toText = .ok e) ∧
    (∀ r : Results, Results.ofText r.toText = .ok r) ∧
    (∀ o : Outcome, Outcome.ofText o.toText = .ok o) := by
  refine ⟨?_, ?_, ?_, ?_, ?_, ?_⟩
  · exact fun t => t.reads.readAll
  · exact fun q => q.reads.readAll
  · exact fun r => r.reads.readAll
  · exact fun e => e.reads.readAll
  · exact fun r => r.reads.readAll
  · exact fun o => o.reads.readAll

end StandingQuery
