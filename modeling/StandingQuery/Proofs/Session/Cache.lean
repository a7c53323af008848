import StandingQuery.Proofs.Session.Sound

/-! What a listing keeps is what it runs: the two agree whenever it hands a request over. While it
follows the persisted request, the last of what it has still to hear is the present one; so what it
keeps catches up as soon as nothing is left. That needs no care about when it was activated: a
listing that comes in during a delivery keeps the present request first and hears older ones then,
but the present one is still among those in line. -/

namespace StandingQuery.Session

open View

/-- What a listing that keeps a request now will keep when it has heard all that waits for it. -/
def settled (waiting : List (Option Request)) (kept : Option Request) : Option Request :=
  (waiting.map fun q => some (.effective q)).getLastD kept

structure View.Cached (v : View) : Prop where
  /-- What is handed over is what is kept. -/
  handover : ∀ t, v.agenda.head? = some t → ∀ g q, t.handover? = some (g, q) →
    ∀ k, g.listing? = some k → v.cache k = some q
  /-- The last value in line is the present one. -/
  line : v.request.channel.pending.getLastD v.request.value = v.request.value
  settled : ∀ k id, v.following k = some id →
    settled (v.request.channel.waiting id) (v.cache k) = some (.effective v.request.value)

/-- No listing is about to hand anything over. -/
theorem handover_of_still {ts : List Task} (still : Still ts) {cache : Nat → Option Request} :
    ∀ t, ts.head? = some t → ∀ g q, t.handover? = some (g, q) →
      ∀ k, g.listing? = some k → cache k = some q := by
  intro t ht g q hand k hk
  exact absurd (hk.symm.trans (still t (List.mem_of_head? ht) g q hand)) (Option.some_ne_none _)

theorem handover_of_head {g : Giver} {q : Request} {k : Nat} {ts : List Task}
    {cache : Nat → Option Request} (hg : g.listing? = some k) (kept : cache k = some q) :
    ∀ t, (.command g (.resubmit q) :: ts : List Task).head? = some t →
      ∀ g' q', t.handover? = some (g', q') → ∀ j, g'.listing? = some j → cache j = some q' := by
  intro t ht g' q' hand j hj
  cases ht
  cases hand
  rw [hg] at hj
  cases hj
  exact kept

theorem View.Change.line {v v' : View} {t : Task} {o : Option Occurrence} (change : Change v t o v')
    (h : v.request.channel.pending.getLastD v.request.value = v.request.value) :
    v'.request.channel.pending.getLastD v'.request.value = v'.request.value := by
  have advance {turn : Turn (Option Request) Follower} {c : Channel (Option Request) Follower}
      (turned : Channel.Advances v.request.channel turn c) :
      c.pending.getLastD v.request.value = v.request.value := by
    cases turned with
    | passed _ _ | heard _ _ _ | taken _ _ _ _ | refused _ _ _ _ | finished _ _ => exact h
    | @begun q qs _ pending =>
      rw [pending, List.getLastD_cons] at h
      cases qs with
      | nil => rfl
      | cons q' qs => exact h
  cases change with
  | emitted q _ _ => exact List.getLastD_concat
  | ended turned | passed turned _ _ _ | reached turned _ => exact advance turned
  | aside _ _ _ | began | activated _ | refreshed _ _ | watched _ _ _ | unwatched _ _ _ _
  | released _ _ _ _ => exact h

theorem settled_append (waiting : List (Option Request)) (q : Option Request)
    (kept : Option Request) : settled (waiting ++ [q]) kept = some (.effective q) := by
  rw [settled, List.map_append]
  exact List.getLastD_concat

theorem settled_cons (q : Option Request) (waiting : List (Option Request))
    (kept : Option Request) :
    settled (q :: waiting) kept = settled waiting (some (.effective q)) :=
  List.getLastD_cons

theorem settled_effective (waiting : List (Option Request)) (q : Option Request) :
    settled waiting (some (.effective q)) = some (.effective (waiting.getLastD q)) :=
  List.getLastD_map (f := fun q => some (Request.effective q))

/-- A request can take the place of none only while something waits. -/
theorem settled_refreshed {waiting : List (Option Request)} {kept : Option Request} {q p : Request}
    (cached : kept = some q ∨ kept = none) (h : settled waiting kept = some p) :
    settled waiting (some q) = some p := by
  rcases cached with rfl | rfl
  · exact h
  · cases waiting with
    | nil => cases h
    | cons q' waiting =>
      rw [settled_cons] at h ⊢
      exact h

theorem View.Change.kept_handed {v v' : View} {t : Task} {o : Option Occurrence}
    (change : Change v t o v') (still : Still v.agenda) :
    ∀ t, v'.agenda.head? = some t → ∀ g q, t.handover? = some (g, q) →
      ∀ k, g.listing? = some k → v'.cache k = some q := by
  cases change with
  | aside _ quiet _ => exact handover_of_still (quiet.still.append still)
  | emitted _ _ _ =>
    dsimp only
    split
    · exact handover_of_still still
    · exact handover_of_still (.cons rfl still)
  | ended _ | unwatched _ _ _ _ | released _ _ _ _ => exact handover_of_still still
  | passed _ _ _ quiet | watched _ _ quiet =>
    exact handover_of_still (quiet.still.append (.cons rfl still))
  | reached _ _ | began | refreshed _ _ => exact handover_of_head rfl (Function.update_self ..)
  | activated quiet =>
    exact handover_of_still (quiet.still.append (.cons rfl (.cons rfl still)))

theorem View.Change.settled {v v' : View} {t : Task} {o : Option Occurrence}
    (change : Change v t o v') (sound : Sound { v with agenda := t :: v.agenda })
    (line : v.request.channel.pending.getLastD v.request.value = v.request.value) {k id : Nat}
    (h : ∀ id, v.following k = some id →
      settled (v.request.channel.waiting id) (v.cache k) = some (.effective v.request.value))
    (held : v'.following k = some id) :
    settled (v'.request.channel.waiting id) (v'.cache k) =
      some (.effective v'.request.value) := by
  cases change with
  | aside _ _ _ | activated _ | watched _ _ _ | unwatched _ _ _ _ => exact h id held
  | emitted q _ _ =>
    exact (congrArg (Session.settled · _) (Channel.waiting_emit ..)).trans (settled_append ..)
  | ended turned =>
    dsimp only
    rw [sound.owned.waiting_elsewhere turned held (by simp)]
    exact h id held
  | passed turned _ elsewhere _ =>
    dsimp only
    rw [sound.owned.waiting_elsewhere turned held fun e q => elsewhere e q k]
    exact h id held
  | @reached e q c j turned target =>
    have before := h id held
    dsimp only
    by_cases hk : k = j
    · subst hk
      have called := sound.owned.held_of_called turned target
      obtain rfl : id = e.id := Option.some.inj (held.symm.trans called)
      rw [sound.owned.waiting_called turned called, settled_cons] at before
      rw [Function.update_self]
      exact before
    · have elsewhere : ∀ e' q', Turn.called e q = .called e' q' → e'.target ≠ .listing k := by
        intro e' q' he hk'
        cases he
        exact hk (Follower.listing.inj (hk'.symm.trans target))
      rw [Function.update_of_ne hk, sound.owned.waiting_elsewhere turned held elsewhere]
      exact before
  | @began j =>
    dsimp only at held ⊢
    by_cases hk : k = j
    · subst hk
      obtain rfl : id = v.request.channel.nextId := by simpa using held.symm
      have waiting : (v.request.subscribe .every (.listing k)).channel.waiting
          v.request.channel.nextId = v.request.channel.pending :=
        sound.owned.channel.waiting_nextId
      -- It keeps the present request, and the last of those in line is the present one too.
      rw [waiting, Function.update_self, settled_effective]
      exact congrArg (fun q => some (Request.effective q)) line
    · rw [Function.update_of_ne hk] at held ⊢
      exact h id held
  | @refreshed name j q known cached =>
    have before := h id held
    dsimp only
    by_cases hk : k = j
    · subst hk
      rw [Function.update_self]
      exact settled_refreshed cached before
    · rw [Function.update_of_ne hk]
      exact before
  | @released _ j _ _ _ _ _ _ _ =>
    dsimp only at held
    by_cases hk : k = j
    · subst hk
      simp at held
    · rw [Function.update_of_ne hk] at held
      exact h id held

theorem View.Change.cached {v v' : View} {t : Task} {o : Option Occurrence}
    (change : Change v t o v') (sound : Sound { v with agenda := t :: v.agenda })
    (h : Cached { v with agenda := t :: v.agenda }) : Cached v' where
  handover := change.kept_handed sound.still
  line := change.line h.line
  settled := fun k _ held => change.settled sound h.line (h.settled k) held

/-! ## At every moment -/

theorem cached_start (answer : Option UInt64) (persisted : Option Request) (route : Option Route)
    (hosts : Hosts) : (start answer persisted route hosts).view.Cached where
  handover := handover_of_still quiet_nil.still
  line := rfl
  settled := by simp [view, following?, start]

theorem View.Cached.take {s : Session} (h : s.view.Cached) (a : Action) :
    (machine.take s a).view.Cached where
  handover := handover_of_still (quiet_single (quiet_act a)).still
  line := h.line
  settled := h.settled

theorem View.Cached.step {s s' : Session} (h : s.view.Cached) (sound : s.view.Sound)
    (taken : s.step = some s') : s'.view.Cached := by
  obtain ⟨t, ts, hagenda, change, _⟩ := sound.step taken
  have before := view_next hagenda
  exact change.cached (before.symm ▸ sound) (before.symm ▸ h)

/-- What a listing hands over, it keeps. -/
theorem View.Cached.currentRequest {s : Session} (h : s.view.Cached) (sound : s.view.Sound)
    {g : Giver} {q : Request} {k : Nat} (handed : s.occurrence? = some (.handed g q))
    (hg : g.listing? = some k) : s.currentRequest k = some q := by
  obtain ⟨t, ht, _⟩ := Option.bind_eq_some_iff.1 handed
  obtain ⟨ts, hts⟩ := List.head?_eq_some_iff.1 ht
  have taken : s.step = some (perform { s with agenda := ts } t) := by
    rw [Session.step, hts]
  obtain ⟨t', ts', hts', change, _⟩ := sound.step taken
  obtain ⟨rfl, rfl⟩ := List.cons.inj (hts.symm.trans hts')
  rw [handed] at change
  exact h.handover t ht g q change.handover k hg

/-- With nothing under way, a listing keeps what is to be run for the present request. -/
theorem View.Cached.currentRequest_of_rest {s : Session} (h : s.view.Cached) (sound : s.view.Sound)
    (rest : s.agenda = []) {k : Nat} (active : (s.following? k).isSome) :
    s.currentRequest k = some (.effective s.request.value) := by
  obtain ⟨id, held⟩ := Option.isSome_iff_exists.1 active
  have idle : s.request.channel.delivering = false :=
    sound.planned.idle (by rw [show s.view.agenda = [] from rest]; rfl)
  have settled := h.settled k id held
  rw [sound.owned.channel.waiting_idle idle] at settled
  exact settled

end StandingQuery.Session
