import StandingQuery.CommandLine.Run
import StandingQuery.Proofs.Session.Answering

/-! What a simulation prints: a line for each query that is run, and the status line of the last
one. -/

namespace StandingQuery.CommandLine

def Simulation.route (s : Simulation) : Route := ⟨s.componentId, s.flowFileUuid⟩

/-- The queries that are run: the one that the route leads to, the default one when that is cleared,
and the latest of these again when it is refreshed. -/
def Simulation.runs (s : Simulation) : List Request :=
  let first := s.route.initialRequest :: if s.clear then [.default] else []
  first ++ if s.refresh then first.getLast?.toList else []

/-- After the activation a script goes on as the switches say. -/
theorem Simulation.plays (s : Simulation) :
    ∃ as qs p, s.script = .activate listingName :: as ∧ s.runs = s.route.initialRequest :: qs ∧
      Session.Plays listingName (some s.route.initialRequest) as qs p ∧
      s.runs.getLast? = some (.effective p) := by
  unfold script runs
  cases s.clear <;> cases s.refresh
  · exact ⟨_, _, _, rfl, rfl, .nil _, rfl⟩
  · exact ⟨_, _, _, rfl, rfl, .refresh (.nil _), rfl⟩
  · exact ⟨_, _, _, rfl, rfl, .clear (.nil _), rfl⟩
  · exact ⟨_, _, _, rfl, rfl, .clear (.refresh (.nil _)), rfl⟩

theorem filterMap_queryLine (notes : List Session.Note) :
    notes.filterMap queryLine =
      (notes.filterMap Session.Note.query?).map fun q => "resubmit: " ++ q.toText := by
  have line (n : Session.Note) : queryLine n = n.query?.map fun q => "resubmit: " ++ q.toText := by
    cases n <;> rfl
  simp only [List.map_filterMap, ← line]

/-- A simulation prints the queries in the order in which they are run, and then what the last of
them has returned; it never fails. -/
theorem simulate_prints (settings : Settings) (s : Simulation) :
    ∃ last, s.runs.getLast? = some last ∧
      simulate settings s = .done (lines (
        s.runs.map (fun q => "resubmit: " ++ q.toText) ++
          [(Outcome.mk last ⟨s.total, []⟩).statusLine settings.limit])) := by
  obtain ⟨as, qs, p, script, runs, plays, last⟩ := s.plays
  obtain ⟨t, activates, alone, ran⟩ := Session.leads_activate s.total s.route listingName
  have activate := activates.play alone.rest (by decide)
  obtain ⟨weight, states⟩ : ∃ weight, s.states = t :: t.states weight as := by
    refine ⟨Session.Hosts.idle.weight + Session.actionsWeight s.script, ?_⟩
    change (Session.start (some s.total) none (some s.route) .idle).states _ s.script = _
    rw [script, Session.states, activate]
  obtain ⟨later, alone⟩ := plays.states alone weight
  refine ⟨_, last, ?_⟩
  have run : s.states.flatMap Session.queries = s.runs := by
    rw [states, List.flatMap_cons, ran, later, runs]
    rfl
  have outcome : s.states.getLast?.bind (·.outcome) = some ⟨.effective p, ⟨s.total, []⟩⟩ := by
    rw [states, List.getLast?_cons, ← List.getLastD_eq_getLast?]
    exact alone.outcome
  simp only [simulate, filterMap_queryLine, outcome]
  rw [← run, List.map_flatMap]
  rfl

/-- The term of the route goes away with the request that is cleared, and the default request is run
once more when it is refreshed. -/
example : simulate .default ⟨some "a", some "", 3, true, true⟩ = .done (
    "resubmit: \x7b\"incrementalResults\":false,\"maxResults\":1000,\"summarize\":true," ++
      "\"searchTerms\":\x7b\"ProcessorID\":\x7b\"value\":\"a\",\"inverse\":false\x7d\x7d\x7d\n" ++
    "resubmit: \x7b\"incrementalResults\":false,\"maxResults\":1000,\"summarize\":true\x7d\n" ++
    "resubmit: \x7b\"incrementalResults\":false,\"maxResults\":1000,\"summarize\":true\x7d\n" ++
    "Showing the most recent events.\n") := by
  decide +kernel

end StandingQuery.CommandLine
