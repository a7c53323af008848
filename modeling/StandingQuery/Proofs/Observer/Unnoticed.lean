import StandingQuery.Proofs.Observer.Bench.Step
import StandingQuery.Proofs.Observer.Session.Step
import StandingQuery.Proofs.Session.Resubmission

/-! Nobody notices observers. They may come and go at any time, from outside or while others react,
on a bench as in a session: every state that is reached with them is one that is reached without
them too, apart from what is theirs. -/

namespace StandingQuery

/-- Those with an extra name only listen: they have no rules. Then a script leads to the same states
with them and without them, as far as everybody else is concerned. -/
theorem observers_go_unnoticed (extra : String → Bool) :
    (∀ {α : Type} (s : Bench.Subject α) (script : List (Bench.Action α)), s.channel = .empty →
      (∀ a ∈ script, a.isPassive extra = true) →
      Bench.recorder.Mirrors (Bench.Action.without extra) (Bench.Agrees extra)
        ([], Bench.start s) ([], Bench.start s) script) ∧
    ∀ (answer : Option UInt64) (persisted : Option Request) (route : Option Route)
      (hosts : Session.Hosts) (script : List Session.Action), hosts.isPassive extra = true →
      (∀ a ∈ script, a.isPassive extra = true) →
      Session.recorder.Mirrors (Session.Action.without extra) (Session.Agrees extra)
        ([], Session.start answer persisted route hosts)
        ([], Session.start answer persisted route (hosts.without extra)) script := by
  constructor
  · intro α s script empty passive
    exact Bench.mirrors extra empty passive
  · intro answer persisted route hosts script passiveHosts passive
    exact Session.mirrors extra answer persisted route passiveHosts passive

def isSpy (name : String) : Bool := name == "spy"

/-- A listener brings an observer in, puts another value into the cell, and sends the observer
away. -/
def observedBench : List (Bench.Action Nat) :=
  [.subscribe 0 "spy" [],
    .subscribe 0 "first" [⟨fun _ v => v == 1, 1,
      [.subscribe 0 "spy" [], .emit 0 2, .release .drop "spy"]⟩],
    .emit 0 1, .subscribeFirst 0 "spy" (· == 3) [], .emit 0 3]

example : observedBench.filterMap (Bench.Action.without isSpy) =
    [.subscribe 0 "first" [⟨fun _ v => v == 1, 1, [.emit 0 2]⟩], .emit 0 1, .emit 0 3] := rfl

/-- A watcher of the request sends an observer away while he hears of a change. -/
def observedSession : List Session.Action :=
  [.watch "spy" [], .activate "events",
    .watch "first" [⟨fun _ q => q == some Session.plainQuery, 1,
      [.command (.save Session.freshQuery), .unwatch "spy"]⟩],
    .command (.save Session.plainQuery), .command .clear]

/-- With the third query an observer of the outcomes comes in. -/
def observingHosts : Session.Hosts :=
  ⟨[⟨fun before _ => before == 2, 1, [.watchResults "spy" [], .navigate none]⟩], [], []⟩

/-- The observers do hear what the others hear, and nothing else comes of it. -/
theorem observers_go_unnoticed_in_reactions :
    Bench.recorder.Mirrors (Bench.Action.without isSpy) (Bench.Agrees isSpy)
      ([], Bench.start (.cell (.holding 0))) ([], Bench.start (.cell (.holding 0)))
      observedBench ∧
    (∃ b, Bench.recorder.Reached ([], Bench.start (.cell (.holding 0))) observedBench b ∧
      b.2.agenda = [] ∧ (b.2.notes ++ b.1).reverse.filter (fun n => !n.isShown isSpy) =
        [.heard "spy" 0 (some 0), .heard "spy" 1 (some 1), .heard "spy" 1 (some 1),
          .released .drop "spy" true, .asked "spy" 2 false, .asked "spy" 3 true,
          .heard "spy" 3 (some 3)]) ∧
    Session.recorder.Mirrors (Session.Action.without isSpy) (Session.Agrees isSpy)
      ([], Session.start (some 7) none none observingHosts)
      ([], Session.start (some 7) none none (observingHosts.without isSpy)) observedSession ∧
    ∃ s, Session.recorder.Reached ([], Session.start (some 7) none none observingHosts)
        observedSession s ∧
      s.2.agenda = [] ∧ (s.2.notes ++ s.1).reverse.filter (fun n => !n.isShown isSpy) =
        [.watched "spy" none true, .watched "spy" (some Session.plainQuery) true,
          .completed "spy" ⟨.default, ⟨7, []⟩⟩ true] := by
  have unnoticed := observers_go_unnoticed isSpy
  have bench := unnoticed.1 (.cell (.holding 0)) observedBench rfl (by decide)
  have session := unnoticed.2 (some 7) none none observingHosts observedSession (by decide)
    (by decide)
  have begun : Bench.recorder.Reached ([], Bench.start (.cell (.holding 0))) [] _ := .start
  have spied := (begun.input (.subscribe 0 "spy" []) rfl).steps 10 []
  have heard := (spied.input observedBench[1] rfl).steps 10 []
  have put := (heard.input (.emit 0 1) rfl).steps 20 []
  have late := (put.input observedBench[3] rfl).steps 10 []
  have again := (late.input (.emit 0 3) rfl).steps 20 []
  have opened :
      Session.recorder.Reached ([], Session.start (some 7) none none observingHosts) [] _ :=
    .start
  have watched := (opened.input (.watch "spy" []) rfl).steps 10 []
  have activated := (watched.input (.activate "events") rfl).steps 20 []
  have joined := (activated.input observedSession[2] rfl).steps 10 []
  have saved := (joined.input (.command (.save Session.plainQuery)) rfl).steps 60 []
  have cleared := (saved.input (.command .clear) rfl).steps 60 []
  refine ⟨bench, ⟨_, again, ?_, ?_⟩, session, ⟨_, cleared, ?_, ?_⟩⟩
  all_goals decide +kernel

end StandingQuery
