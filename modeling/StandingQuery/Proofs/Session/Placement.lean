import StandingQuery.Proofs.Session.Refresh

/-! A listing gets its name only when it has begun to follow the persisted request. So one that has
yet to has no name to be torn down by, and cannot be dropped for one that takes its name. -/

namespace StandingQuery.Session

open View

/-- The listings that are to follow the requests have no name and are not to be released, and each
is put under its name only afterwards. -/
structure Unplaced (names : Named Nat) (orphan : Nat → Bool) (ts : List Task) : Prop where
  nowhere : ∀ k ∈ ts.filterMap Task.follower?, k ∉ names.map (·.2) ∧ orphan k = false
  ordered : ts.Pairwise fun t u => ∀ k, t.ready? = some k → u.follower? ≠ some k

namespace Unplaced

variable {names : Named Nat} {orphan : Nat → Bool} {t : Task} {ts new : List Task}

theorem tail (h : Unplaced names orphan (t :: ts)) : Unplaced names orphan ts where
  nowhere := fun k hk => h.nowhere k (followers_rest t ts hk)
  ordered := (List.pairwise_cons.1 h.ordered).2

/-- A task that neither has a listing follow the requests nor names one. -/
theorem cons (h : Unplaced names orphan ts) (follower : t.follower? = none)
    (ready : t.ready? = none) : Unplaced names orphan (t :: ts) where
  nowhere := by
    intro k hk
    rw [List.filterMap_cons_none follower] at hk
    exact h.nowhere k hk
  ordered := by
    refine List.pairwise_cons.2 ⟨fun u _ k hk => ?_, h.ordered⟩
    rw [ready] at hk
    cases hk

theorem add (h : Unplaced names orphan ts) (quiet : Quiet new) :
    Unplaced names orphan (new ++ ts) := by
  induction new with
  | nil => exact h
  | cons t new ih =>
    obtain ⟨ht, hnew⟩ := List.forall_mem_cons.1 quiet
    exact (ih hnew).cons ht.follower ht.ready

/-- Whoever is put under a name follows the requests by then. -/
theorem filed {v : View} {kept : Nat → Prop} (h : Unplaced v.names v.orphan (t :: ts))
    (filed : v.Filed t names orphan kept) : Unplaced names orphan ts where
  nowhere := by
    intro k hk
    obtain ⟨rest, sub, hnames, horphan⟩ := filed.names
    obtain ⟨out, stays⟩ := h.tail.nowhere k hk
    obtain ⟨u, hu, hk⟩ := List.mem_filterMap.1 hk
    constructor
    · rw [hnames, List.mem_append, Option.mem_toList]
      rintro (old | now)
      · exact out ((sub.map _).subset old)
      · exact (List.pairwise_cons.1 h.ordered).1 u hu k now hk
    · by_contra ends
      rcases horphan k (by simpa using ends) with orphan | ⟨name, named, _⟩
      · rw [stays] at orphan
        cases orphan
      · exact out (List.mem_map.2 ⟨(name, k), named, rfl⟩)
  ordered := h.tail.ordered

/-- A listing that is activated is a new one. -/
theorem activate {count : Nat} (h : Unplaced names orphan ts) (name : String)
    (known : ∀ k ∈ ts.filterMap Task.follower?, k < count)
    (fresh : count ∉ names.map (·.2) ∧ orphan count = false) :
    Unplaced names orphan (.follow count :: .ready name count :: ts) where
  nowhere := by
    intro k hk
    rcases List.mem_cons.1 hk with rfl | hk
    · exact fresh
    · exact h.nowhere k hk
  ordered := by
    refine List.pairwise_cons.2 ⟨?_, List.pairwise_cons.2 ⟨?_, h.ordered⟩⟩
    · intro u _ k hk
      cases hk
    · intro u hu k hk later
      cases hk
      exact Nat.lt_irrefl _ (known _ (List.mem_filterMap.2 ⟨u, hu, later⟩))

end Unplaced

theorem View.Change.unplaced {v v' : View} {t : Task} {o : Option Occurrence}
    (change : Change v t o v') (sound : Sound { v with agenda := t :: v.agenda })
    {promised : List Nat} (placed : Placed v.names v.orphan v.count promised)
    (h : Unplaced v.names v.orphan (t :: v.agenda)) : Unplaced v'.names v'.orphan v'.agenda := by
  cases change with
  | aside _ quiet filed => exact (h.filed filed).add quiet
  | emitted _ _ _ =>
    show Unplaced v.names v.orphan (_ ++ v.agenda)
    split
    · exact h.tail
    · exact h.tail.cons rfl rfl
  | ended _ => exact h.tail
  | passed _ _ _ quiet => exact h.add quiet
  | reached _ _ => exact h.cons rfl rfl
  | began => exact h.tail.cons rfl rfl
  | @activated name new quiet =>
    have known : ∀ k ∈ v.agenda.filterMap Task.follower?, k < v.count := by
      intro k hk
      exact (sound.planned.ahead k (followers_rest _ _ hk)).1
    have unnamed : v.count ∉ v.names.map (·.2) := fun hk =>
      Nat.lt_irrefl _ (placed.listed _ (List.mem_append_left _ hk))
    have stays : v.orphan v.count = false := by
      by_contra ends
      exact Nat.lt_irrefl _ (placed.orphans v.count (by simpa using ends)).1
    exact (h.tail.activate name known ⟨unnamed, stays⟩).add quiet
  | refreshed _ _ => exact (h.tail.cons rfl rfl).cons rfl rfl
  | watched _ _ quiet => exact (h.tail.cons rfl rfl).add quiet
  | unwatched _ _ _ filed | released _ _ _ filed => exact h.filed filed

theorem unplaced_of_run {answer : Option UInt64} {persisted : Option Request}
    {route : Option Route} {hosts : Hosts} {past : List Session} {s : Session}
    (run : machine.Run (start answer persisted route hosts) past s) :
    Unplaced s.names s.isOrphan s.agenda ∧ ∀ m ∈ past, Unplaced m.names m.isOrphan m.agenda := by
  have both := run.invariant
    (P := fun s => s.Consistent ∧ Unplaced s.names s.isOrphan s.agenda)
    ⟨consistent_start .., fun _ hk => absurd hk List.not_mem_nil, .nil⟩ ?_ ?_
  · exact ⟨both.1.2, fun m hm => (both.2 m hm).2⟩
  · rintro s a rest ⟨consistent, unplaced⟩
    have nothing : Unplaced s.names s.isOrphan [] := (show s.agenda = [] from rest) ▸ unplaced
    exact ⟨consistent.take rest a, nothing.cons rfl rfl⟩
  · rintro s s' ⟨consistent, unplaced⟩ taken
    obtain ⟨t, ts, hagenda, change, _⟩ := consistent.sound.step taken
    refine ⟨consistent.step taken, ?_⟩
    exact change.unplaced ((view_next hagenda).symm ▸ consistent.sound) consistent.placed
      (hagenda ▸ unplaced)

end StandingQuery.Session
