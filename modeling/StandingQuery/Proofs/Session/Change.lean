import StandingQuery.Proofs.Channel.Registry
import StandingQuery.Proofs.Session.View

/-! What a step of a session can do. There are eleven things, each with what it comes to, if that is
of interest to the listings; all that is said about them follows from this list. -/

namespace StandingQuery.Session

/-- What a moment of a session is about. -/
inductive Occurrence where
  /-- The persisted request becomes another one. -/
  | emitted (q : Option Request)
  /-- A listing is activated. -/
  | activated (k : Nat)
  /-- A listing begins to follow the persisted request, which is `q` then. -/
  | began (k : Nat) (q : Option Request)
  /-- A request is handed over to be run. -/
  | handed (g : Giver) (q : Request)
  /-- A listing is asked to run its request again, which is `q`. -/
  | refreshed (k : Nat) (q : Request)
deriving DecidableEq

/-- The listing of that name and the request it runs. -/
def refreshed? (s : Session) (name : String) : Option Occurrence :=
  (s.names.get? name).bind fun k =>
    (s.listings[k]?).map fun l => .refreshed k (l.cache.getD .default)

theorem refreshed?_bind (s : Session) (name : String) {α : Type} {f : Occurrence → Option α}
    (h : ∀ k q, f (.refreshed k q) = none) : (s.refreshed? name).bind f = none := by
  refine Option.bind_eq_none_iff.2 fun o ho => ?_
  obtain ⟨k, _, hk⟩ := Option.bind_eq_some_iff.1 ho
  obtain ⟨l, _, rfl⟩ := Option.map_eq_some_iff.1 hk
  exact h k _

/-- What it comes to, to perform a task. -/
def comesTo (s : Session) : Task → Option Occurrence
  | .command _ (.save q) =>
    if s.request.value = some q then none else some (.emitted (some q))
  | .command _ .clear => if s.request.value = none then none else some (.emitted none)
  | .command g (.resubmit q) => some (.handed g q)
  | .follow k => some (.began k s.request.value)
  | .act (.activate _) => some (.activated s.listings.length)
  | .act (.refresh name) => s.refreshed? name
  | _ => none

/-- What the next step comes to. -/
def occurrence? (s : Session) : Option Occurrence := s.agenda.head?.bind s.comesTo

/-- What the moments left behind came to, in order. -/
def history (past : List Session) : List Occurrence := past.filterMap occurrence?

theorem history_append (past : List Session) (s : Session) :
    history (past ++ [s]) = history past ++ s.occurrence?.toList := by
  rw [history, List.filterMap_append]
  cases h : s.occurrence? <;> simp [history, h]

namespace View

/-- What the books on listings and watchers can become with a task. A listing becomes an orphan only
with the loss of its name. -/
structure Filed (v : View) (t : Task) (names : Named Nat) (orphan : Nat → Bool)
    (kept : Nat → Prop) :
    Prop where
  names : ∃ rest : Named Nat, rest.Sublist v.names ∧
    names.map (·.2) = rest.map (·.2) ++ t.ready?.toList ∧
    ∀ j, orphan j = true →
      v.orphan j = true ∨ ∃ name, (name, j) ∈ v.names ∧ rest = v.names.erase name
  kept : ∀ id, kept id → v.kept id ∨ t.kept? = some id

/-- Does not let a listing follow the persisted request, and is no turn of its delivery. -/
structure Inert (t : Task) : Prop where
  follower : t.follower? = none
  delivers : t.deliversRequest = false

/-- All that a task can do, once it has been taken off the agenda. -/
inductive Change (v : View) : Task → Option Occurrence → View → Prop where
  | aside {t : Task} {new : List Task} {names : Named Nat} {orphan : Nat → Bool} {kept : Nat → Prop}
      (inert : Inert t) (quiet : Quiet new) (filed : v.Filed t names orphan kept) :
      Change v t (t.handover?.map fun p => .handed p.1 p.2)
        { v with names, orphan, kept, agenda := new ++ v.agenda }
  /-- The persisted request becomes `q`. -/
  | emitted {t : Task} (q : Option Request) (quiet : t.Quiet) (other : t.handover? = none) :
      Change v t (some (.emitted q))
        { v with
          request := v.request.put q
          agenda := (if v.request.channel.delivering then [] else [.deliver .request]) ++ v.agenda }
  /-- The delivery of requests is over. -/
  | ended {c : Channel (Option Request) Follower}
      (turned : Channel.Advances v.request.channel .finished c) :
      Change v (.deliver .request) none { v with request := ⟨v.request.value, c⟩ }
  /-- A turn that goes to no listing. -/
  | passed {turn : Turn (Option Request) Follower} {c : Channel (Option Request) Follower}
      {new : List Task} (turned : Channel.Advances v.request.channel turn c)
      (goesOn : turn ≠ .finished) (elsewhere : ∀ e q k, turn = .called e q → e.target ≠ .listing k)
      (quiet : Quiet new) :
      Change v (.deliver .request) none
        { v with
          request := ⟨v.request.value, c⟩, agenda := new ++ .deliver .request :: v.agenda }
  /-- A turn in which a listing hears of a request. -/
  | reached {e : Entry (Option Request) Follower} {q : Option Request}
      {c : Channel (Option Request) Follower} {k : Nat}
      (turned : Channel.Advances v.request.channel (.called e q) c)
      (target : e.target = .listing k) :
      Change v (.deliver .request) none
        { v with
          request := ⟨v.request.value, c⟩
          cache := Function.update v.cache k (some (.effective q))
          agenda := .command (.follower k) (.resubmit (.effective q)) ::
            .deliver .request :: v.agenda }
  | began {k : Nat} : Change v (.follow k) (some (.began k v.request.value))
      { v with
        request := v.request.subscribe .every (.listing k)
        following := Function.update v.following k (some v.request.channel.nextId)
        cache := Function.update v.cache k (some (.effective v.request.value))
        agenda := .command (.follower k) (.resubmit (.effective v.request.value)) :: v.agenda }
  | activated {name : String} {new : List Task} (quiet : Quiet new) :
      Change v (.act (.activate name)) (some (.activated v.count))
        { v with
          count := v.count + 1
          agenda := new ++ .follow v.count :: .ready name v.count :: v.agenda }
  | refreshed {name : String} {k : Nat} {q : Request} (known : k < v.count)
      (cached : v.cache k = some q ∨ v.cache k = none) :
      Change v (.act (.refresh name)) (some (.refreshed k q))
        { v with
          cache := Function.update v.cache k (some q)
          agenda := .command (.method k) (.resubmit q) :: .leave k :: v.agenda }
  /-- A watcher begins to follow the persisted request. -/
  | watched {t : Task} {i : Nat} {name : String} {new : List Task} (task : t.Quiet)
      (other : t.handover? = none) (quiet : Quiet new) :
      Change v t none
        { v with
          request := v.request.subscribe .every (.watcher i)
          agenda := new ++ .keep name (.request v.request.channel.nextId) :: v.agenda }
  /-- The subscription of a watcher ends. -/
  | unwatched {t : Task} {id : Nat} {kept : Nat → Prop} (inert : Inert t)
      (other : t.handover? = none) (known : v.kept id)
      (filed : v.Filed t v.names v.orphan kept) :
      Change v t none { v with request := v.request.detach id, kept }
  /-- A listing that follows the persisted request is released. -/
  | released {t : Task} {k id : Nat} {names : Named Nat} {orphan : Nat → Bool} (inert : Inert t)
      (other : t.handover? = none) (held : v.following k = some id)
      (filed : v.Filed t names orphan v.kept) :
      Change v t none
        { v with
          request := v.request.detach id
          following := Function.update v.following k none
          names, orphan }

theorem Filed.same {v : View} {t : Task} (h : t.ready? = none) :
    v.Filed t v.names v.orphan v.kept where
  names := ⟨v.names, .refl _, by simp [h], fun _ hj => .inl hj⟩
  kept := fun _ hid => .inl hid

theorem Filed.keeping {v : View} {t : Task} {kept : Nat → Prop} (h : t.ready? = none)
    (hkept : ∀ id, kept id → v.kept id ∨ t.kept? = some id) :
    v.Filed t v.names v.orphan kept where
  names := ⟨v.names, .refl _, by simp [h], fun _ hj => .inl hj⟩
  kept := hkept

/-- No task is added. -/
theorem Change.booked {v : View} {t : Task} {names : Named Nat} {orphan : Nat → Bool}
    {kept : Nat → Prop} (inert : Inert t) (other : t.handover? = none)
    (filed : v.Filed t names orphan kept) : Change v t none { v with names, orphan, kept } := by
  have change := Change.aside inert quiet_nil filed
  rw [other] at change
  exact change

/-- Only a task that hands a request over comes to that. -/
theorem Change.handover {v v' : View} {t : Task} {g : Giver} {q : Request}
    (change : Change v t (some (.handed g q)) v') : t.handover? = some (g, q) := by
  generalize ho : some (Occurrence.handed g q) = o at change
  cases change with
  | aside _ _ _ =>
    obtain ⟨p, hp, h⟩ := Option.map_eq_some_iff.1 ho.symm
    cases h
    exact hp
  | emitted _ _ _ | ended _ | passed _ _ _ _ | reached _ _ | began | activated _ | refreshed _ _
  | watched _ _ _ | unwatched _ _ _ _ | released _ _ _ _ => cases ho

end View

open View

/-! ## Each task is one of these things -/

theorem Task.Quiet.inert {t : Task} (h : t.Quiet) : Inert t := ⟨h.follower, h.delivers⟩

/-- A task that only adds quiet ones, and neither keeps nor names anything. -/
theorem Adds.change {s s' : Session} (h : Adds s s') {t : Task} (inert : Inert t)
    (ready : t.ready? = none) :
    Change s.view t (t.handover?.map fun p => .handed p.1 p.2) s'.view := by
  obtain ⟨new, quiet, hview⟩ := h
  rw [hview]
  exact .aside inert quiet (.same ready)

/-- Nothing that is seen changes. -/
theorem change_nothing {s : Session} {v' : View} (h : v' = s.view) {t : Task} (inert : Inert t)
    (ready : t.ready? = none) (other : t.handover? = none) : Change s.view t none v' := by
  rw [h]
  exact .booked inert other (.same ready)

theorem persist_change (s : Session) {t : Task} (quiet : t.Quiet) (other : t.handover? = none)
    (q : Option Request) :
    Change s.view t (if s.request.value = q then none else some (.emitted q))
      (s.persist q).view := by
  unfold persist
  split
  · exact change_nothing rfl quiet.inert quiet.ready other
  · exact .emitted q quiet other

theorem view_takeRequest {s : Session} {v : View} (h : s.view = v) {k : Nat} (known : k < v.count)
    (q : Option Request) : (s.takeRequest k q).view =
      { v with
        cache := Function.update v.cache k (some (.effective q))
        agenda := .command (.follower k) (.resubmit (.effective q)) :: v.agenda } := by
  subst h
  have cached := view_setCache (List.getElem?_eq_getElem known)
    (f := ({ · with cache := some (.effective q) })) rfl rfl
  exact congrArg
    (fun v : View =>
      { v with agenda := .command (.follower k) (.resubmit (.effective q)) :: s.agenda }) cached

theorem deliverRequest_change {s : Session}
    (known : ∀ p ∈ s.request.channel.turns, ∀ k, p.1.target = .listing k → k < s.listings.length) :
    Change s.view (.deliver .request) none s.deliverRequest.view := by
  have turned := s.request.channel.advances
  unfold deliverRequest Cell.advance
  dsimp only
  generalize s.request.channel.advance.1 = turn at turned
  generalize s.request.channel.advance.2 = c at turned
  cases turn with
  | finished => exact .ended turned
  | moved => exact .passed turned (by simp) (by simp) quiet_nil
  | refused e q => exact .passed turned (by simp) (by simp) quiet_nil
  | called e q =>
    cases target : e.target with
    | listing k =>
      simp only [target]
      rw [view_takeRequest (s := plan { s with request := ⟨s.request.value, c⟩ } _) rfl
        (known _ turned.mem_turns k target)]
      exact .reached turned target
    | watcher i =>
      simp only [target]
      obtain ⟨new, quiet, hview⟩ :=
        adds_hearRequest (plan { s with request := ⟨s.request.value, c⟩ } [.deliver .request]) i q
      rw [hview]
      refine .passed turned (by simp) (fun e' q' k h => ?_) quiet
      cases h
      simp [target]

theorem follow_change {s : Session} {k : Nat} (known : k < s.listings.length) :
    Change s.view (.follow k) (some (.began k s.request.value)) (s.follow k).view := by
  have subscribed := view_setRequest
    (s := { s with request := s.request.subscribe .every (.listing k) })
    (f := ({ · with request := some s.request.channel.nextId }))
    (List.getElem?_eq_getElem known) rfl rfl
  unfold follow
  dsimp only
  rw [view_takeRequest subscribed known]
  exact .began

/-- A known route is taken before the listing follows the persisted request. -/
theorem activate_change (s : Session) (name : String) :
    Change s.view (.act (.activate name)) (some (.activated s.listings.length))
      (s.activate name).view := by
  unfold activate
  dsimp only
  split
  · next r _ =>
    obtain ⟨new, quiet, hview⟩ := adds_takeRoute
      ((s.plan [.follow s.listings.length, .ready name s.listings.length]).addListing
        (.following none)) s.listings.length r
    rw [view_addListing] at hview
    rw [hview]
    exact .activated quiet
  · rw [view_addListing]
    exact .activated quiet_nil

theorem refresh_change {s : Session} {name : String} {k : Nat} {l : Listing}
    (listed : s.listings[k]? = some l) :
    Change s.view (.act (.refresh name)) (some (.refreshed k (l.cache.getD .default)))
      (s.refresh k l).view := by
  have known : k < s.listings.length := (List.getElem?_eq_some_iff.1 listed).1
  have cache := currentRequest_eq listed
  unfold refresh
  split
  · next q hq =>
    rw [hq] at cache ⊢
    have same : Function.update s.currentRequest k (some q) = s.currentRequest := by
      rw [← cache, Function.update_eq_self]
    have refreshed : Change s.view (.act (.refresh name)) (some (.refreshed k q))
        { s.view with
          cache := Function.update s.currentRequest k (some q)
          agenda := .command (.method k) (.resubmit q) :: .leave k :: s.agenda } :=
      .refreshed known (.inl cache)
    rw [same] at refreshed
    rw [view_method]
    exact refreshed
  · next hq =>
    have seeded := view_setCache (s := s.diagnose .unseeded) listed
      (f := ({ · with cache := some .default })) rfl rfl
    rw [hq] at cache ⊢
    rw [view_method, seeded]
    exact .refreshed known (.inr cache)

/-- Whoever is released loses his subscription to the persisted request, if he has one. -/
theorem release_change {s s₁ : Session} {k : Nat} {names : Named Nat} {orphan : Nat → Bool}
    (hview : s₁.view = { s.view with names, orphan }) {t : Task} (inert : Inert t)
    (other : t.handover? = none) (filed : s.view.Filed t names orphan s.view.kept) :
    Change s.view t none (s₁.release k).view := by
  have following : s₁.following? = s.following? := congrArg View.following hview
  have request : s₁.request = s.request := congrArg View.request hview
  rw [view_release, hview, following, request]
  cases held : s.following? k with
  | some id => exact .released inert other held filed
  | none => exact .booked inert other filed

theorem ready_change (s : Session) (name : String) (k : Nat) :
    Change s.view (.ready name k) none (s.ready name k).view := by
  have filed (orphan : Nat → Bool)
      (h : ∀ j, orphan j = true → s.isOrphan j = true ∨ s.names.get? name = some j) :
      s.view.Filed (.ready name k) (s.names.put name k) orphan s.view.kept := {
    names := by
      refine ⟨s.names.erase name, List.filter_sublist, List.map_append, fun j hj => ?_⟩
      exact (h j hj).imp id fun older => ⟨name, Named.mem_of_get? older, rfl⟩
    kept := fun _ hid => .inl hid }
  have put : view { s.diagnose .activated with names := s.names.put name k } =
      { s.view with names := s.names.put name k } := rfl
  have aside {s' : Session} {orphan : Nat → Bool}
      (hview : s'.view = { s.view with names := s.names.put name k, orphan })
      (h : ∀ j, orphan j = true → s.isOrphan j = true ∨ s.names.get? name = some j) :
      Change s.view (.ready name k) none s'.view := by
    rw [hview]
    exact .booked ⟨rfl, rfl⟩ rfl (filed orphan h)
  unfold ready
  dsimp only
  split
  · next older hold =>
    unfold abandon
    split
    · exact aside rfl fun _ hj => .inl hj
    · next l hl =>
      split
      · exact release_change put ⟨rfl, rfl⟩ rfl (filed s.isOrphan fun _ hj => .inl hj)
      · refine aside (view_setOrphan hl rfl rfl) fun j hj => ?_
        by_cases hold' : j = older
        · exact .inr (hold' ▸ hold)
        · exact .inl ((Function.update_of_ne hold' ..).symm.trans hj)
  · exact aside rfl fun _ hj => .inl hj

theorem leave_change (s : Session) (k : Nat) : Change s.view (.leave k) none (s.leave k).view := by
  have same := view_setUses s k (· - 1)
  have nothing := change_nothing same (quiet_leave k).inert rfl rfl
  unfold leave
  dsimp only
  split
  · exact nothing
  · split
    · exact release_change same ⟨rfl, rfl⟩ rfl (.same rfl)
    · exact nothing

theorem tearDown_change (s : Session) (name : String) (k : Nat) (l : Listing) :
    Change s.view (.act (.tearDown name)) none (s.tearDown name k l).view := by
  unfold tearDown
  split
  · have filed : s.view.Filed (.act (.tearDown name)) (s.names.erase name) s.isOrphan
        s.view.kept := {
      names := ⟨_, List.filter_sublist, (List.append_nil _).symm, fun _ hj => .inl hj⟩
      kept := fun _ hid => .inl hid }
    have erased : view { s with names := s.names.erase name } =
        { s.view with names := s.names.erase name } := rfl
    exact release_change erased (quiet_act _).inert rfl filed
  · exact change_nothing rfl ⟨rfl, rfl⟩ rfl rfl

theorem watch_change (s : Session) (name : String) (rules : List (Rule (Option Request) Action)) :
    Change s.view (.act (.watch name rules)) none (s.watch name rules).view := by
  unfold watch
  dsimp only
  obtain ⟨new, quiet, hview⟩ := adds_hearRequest
    ((({ s with request := s.request.subscribe .every (.watcher s.listeners.length) } : Session)
      |>.addListener name rules).plan [.keep name (.request s.request.channel.nextId)])
    s.listeners.length s.request.value
  rw [hview]
  exact .watched (quiet_act _) rfl quiet

theorem unwatch_change {s s₁ : Session} {kept : Nat → Prop} (hview : s₁.view = { s.view with kept })
    {t : Task} (inert : Inert t) (other : t.handover? = none)
    (filed : s.view.Filed t s.view.names s.view.orphan kept) {w : Watch}
    (known : ∀ id, w = .request id → s.view.kept id) :
    Change s.view t none (s₁.unwatch w).view := by
  cases w with
  | request id =>
    have same : (unwatch s₁ (.request id)).view =
        { s₁.view with request := s₁.request.detach id } := rfl
    rw [same, hview, show s₁.request = s.request from congrArg View.request hview]
    exact .unwatched inert other (known id rfl) filed
  | route id | outcomes id =>
    have booked : Change s.view t none s₁.view := by
      rw [hview]
      exact .booked inert other filed
    exact booked

theorem keep_change (s : Session) (name : String) (w : Watch) :
    Change s.view (.keep name w) none (s.keep name w).view := by
  have put : view { s with watches := s.watches.put name w } =
      { s.view with
        kept := fun id => IsKept { s with watches := s.watches.put name w } (.request id) } := rfl
  have filed : s.view.Filed (.keep name w) s.view.names s.view.orphan
      fun id => IsKept { s with watches := s.watches.put name w } (.request id) := by
    refine .keeping rfl fun id ⟨name', hid⟩ => ?_
    rcases Named.mem_of_mem_put hid with hid | hid
    · exact .inl ⟨name', hid⟩
    · cases hid
      exact .inr rfl
  unfold keep
  dsimp only
  split
  · next older hold =>
    refine unwatch_change put ⟨rfl, rfl⟩ rfl filed fun id hid => ?_
    exact ⟨name, Named.mem_of_get? (hid ▸ hold)⟩
  · rw [put]
    exact .booked ⟨rfl, rfl⟩ rfl filed

/-! ## All tasks -/

theorem act_change (s : Session) (a : Action) :
    Change s.view (.act a) (s.comesTo (.act a)) (s.act a).view := by
  have found {name : String} {f : Nat → Listing → Session}
      (h : ∀ k l, Adds s (f k l)) : Adds s (s.withListing name f) := by
    obtain ⟨k, l, _, _, hw⟩ | ⟨_, hw⟩ := s.withListing_cases name f <;> rw [hw]
    · exact h k l
    · exact adds_note s _
  have adds {s' : Session} (h : Adds s s') : Change s.view (.act a) none s'.view :=
    h.change (quiet_act a).inert rfl
  cases a with
  | activate name => exact activate_change s name
  | tearDown name =>
    rw [act]
    obtain ⟨k, l, _, _, hw⟩ | ⟨_, hw⟩ := s.withListing_cases name (s.tearDown name) <;> rw [hw]
    · exact tearDown_change s name k l
    · exact adds (adds_note s _)
  | refresh name =>
    rw [act]
    obtain ⟨k, l, hk, hl, hw⟩ | ⟨missing, hw⟩ := s.withListing_cases name s.refresh <;> rw [hw]
    · have : s.comesTo (.act (.refresh name)) = some (.refreshed k (l.cache.getD .default)) := by
        simp [comesTo, refreshed?, hk, hl]
      rw [this]
      exact refresh_change hl
    · have : s.comesTo (.act (.refresh name)) = none := by
        rw [comesTo, refreshed?, Option.bind_eq_none_iff]
        exact fun k hk => by rw [missing k hk, Option.map_none]
      rw [this]
      exact adds (adds_note s _)
  | clearBy name =>
    exact adds (found fun k _ => (adds_note s _).trans (adds_method _ k (by simp)))
  | openSearchBy name => exact adds (found fun k _ => adds_method s k (by simp))
  | openEventBy name e => exact adds (found fun k _ => adds_method s k (by simp))
  | message name => exact adds (found fun _ _ => adds_note s _)
  | current name => exact adds (found fun _ _ => adds_note s _)
  | navigate r => exact adds (adds_navigate s r)
  | command c => exact adds (adds_plan s (quiet_single (quiet_outside c)))
  | record o => exact adds (adds_record s o)
  | watch name rules => exact watch_change s name rules
  | watchRoute name rules => exact adds (adds_watchRoute s name rules)
  | watchResults name rules =>
    exact adds ⟨[.keep name (.outcomes _)], quiet_single (quiet_keep name (by simp)), rfl⟩
  | unwatch name =>
    rw [act]
    split
    · next w hw =>
      have erased : view { s with watches := s.watches.erase name } =
          { s.view with
            kept := fun id =>
              IsKept { s with watches := s.watches.erase name } (.request id) } := rfl
      refine unwatch_change erased (quiet_act _).inert rfl ?_ fun id hid => ?_
      · exact .keeping rfl fun id ⟨name', hid⟩ => .inl ⟨name', Named.mem_of_mem_erase hid⟩
      · exact ⟨name, Named.mem_of_get? (hid ▸ hw)⟩
    · exact adds (adds_note s _)

theorem perform_change {s : Session} {t : Task}
    (follows : ∀ k, t.follower? = some k → k < s.listings.length)
    (known : ∀ p ∈ s.request.channel.turns, ∀ k, p.1.target = .listing k → k < s.listings.length) :
    Change s.view t (s.comesTo t) (s.perform t).view := by
  cases t with
  | act a => exact act_change s a
  | command g c =>
    cases c with
    | save q => exact persist_change s (quiet_command g (by simp)) rfl (some q)
    | clear => exact persist_change s (quiet_command g (by simp)) rfl none
    | resubmit q => exact (adds_resubmit s q).change ⟨rfl, rfl⟩ rfl
    | openSearch =>
      exact ((adds_note s _).trans (adds_hear ..)).change ⟨rfl, rfl⟩ rfl
    | openEvent id =>
      exact ((adds_note s _).trans (adds_hear ..)).change ⟨rfl, rfl⟩ rfl
  | react i before rule v => exact (adds_react ..).change (quiet_react ..).inert rfl
  | deliver l =>
    cases l with
    | route => exact (adds_deliverRoute s).change ⟨rfl, rfl⟩ rfl
    | request => exact deliverRequest_change known
    | outcomes => exact (adds_deliverOutcome s).change ⟨rfl, rfl⟩ rfl
  | follow k => exact follow_change (follows k rfl)
  | ready name k => exact ready_change s name k
  | keep name w => exact keep_change s name w
  | leave k => exact leave_change s k

/-- A step takes the first task off the agenda and performs it. -/
theorem step_change {s s' : Session} (taken : s.step = some s')
    (follows : ∀ k ∈ s.agenda.filterMap Task.follower?, k < s.listings.length)
    (known : ∀ p ∈ s.request.channel.turns, ∀ k, p.1.target = .listing k → k < s.listings.length) :
    ∃ t ts, s.agenda = t :: ts ∧ Change { s.view with agenda := ts } t s.occurrence? s'.view := by
  unfold step at taken
  split at taken
  · cases taken
  · next t ts hagenda =>
    cases taken
    have comes : s.occurrence? = comesTo { s with agenda := ts } t := by
      simp only [occurrence?, hagenda]
      rfl
    refine ⟨t, ts, hagenda, ?_⟩
    rw [comes]
    refine perform_change (s := { s with agenda := ts }) (fun k hk => follows k ?_) known
    rw [hagenda, List.mem_filterMap]
    exact ⟨t, List.mem_cons_self, hk⟩

end StandingQuery.Session
