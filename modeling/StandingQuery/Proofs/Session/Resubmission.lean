import StandingQuery.Proofs.Channel.Journal
import StandingQuery.Proofs.Channel.Waiting
import StandingQuery.Proofs.Session.Posts

/-! Each listing runs what was persisted when it began to follow the persisted request, and then
every request that is persisted from then on, once each and in order. What it has handed over, what
it is handing over and what it has still to hear always make up the whole of that. -/

namespace StandingQuery.Session

open Channel (toldTo toldTo_eq_nil)

/-! ## The history of a session -/

def Occurrence.emitted? : Occurrence → Option (Option Request)
  | .emitted q => some q
  | _ => none

def Occurrence.handed? (g : Giver) : Occurrence → Option Request
  | .handed g' q => if g' = g then some q else none
  | _ => none

def Occurrence.handover? : Occurrence → Option (Giver × Request)
  | .handed g q => some (g, q)
  | _ => none

def Occurrence.refreshed? (k : Nat) : Occurrence → Option Request
  | .refreshed j q => if j = k then some q else none
  | _ => none

/-- The values of the persisted request, after the first one. -/
def emissions (h : List Occurrence) : List (Option Request) := h.filterMap (·.emitted?)

/-- The requests that were handed over by `g`. -/
def handed (g : Giver) (h : List Occurrence) : List Request := h.filterMap (·.handed? g)

/-- The requests that the listing was asked to run again. -/
def refreshes (k : Nat) (h : List Occurrence) : List Request := h.filterMap (·.refreshed? k)

/-- What the listing is to run: what to run for the request that is persisted when it begins to
follow it, and for all that are persisted afterwards. -/
def due (k : Nat) : List Occurrence → List Request
  | [] => []
  | .began j q :: h => if j = k then (q :: emissions h).map .effective else due k h
  | _ :: h => due k h

theorem handed_append (g : Giver) (h h' : List Occurrence) :
    handed g (h ++ h') = handed g h ++ handed g h' :=
  List.filterMap_append

theorem emissions_append (h h' : List Occurrence) :
    emissions (h ++ h') = emissions h ++ emissions h' :=
  List.filterMap_append

theorem refreshes_append (k : Nat) (h h' : List Occurrence) :
    refreshes k (h ++ h') = refreshes k h ++ refreshes k h' :=
  List.filterMap_append

/-- Once something is due, every emission adds to it. -/
theorem due_append {k : Nat} {h : List Occurrence} (begun : due k h ≠ []) (h' : List Occurrence) :
    due k (h ++ h') = due k h ++ (emissions h').map .effective := by
  induction h with
  | nil => exact absurd rfl begun
  | cons o h ih =>
    cases o with
    | began j q =>
      by_cases hj : j = k
      · simp [due, hj, emissions_append]
      · simp only [due, hj, if_false, List.cons_append] at begun ⊢
        exact ih begun
    | emitted _ | activated _ | handed _ _ | refreshed _ _ => exact ih begun

/-- Before that, only the beginning counts. -/
theorem due_append_of_nil {k : Nat} {h : List Occurrence} (ahead : due k h = [])
    (h' : List Occurrence) : due k (h ++ h') = due k h' := by
  induction h with
  | nil => rfl
  | cons o h ih =>
    cases o with
    | began j q =>
      by_cases hj : j = k
      · simp [due, hj] at ahead
      · simp only [due, hj, if_false, List.cons_append] at ahead ⊢
        exact ih ahead
    | emitted _ | activated _ | handed _ _ | refreshed _ _ => exact ih ahead

theorem due_of_not_began {k : Nat} {o : Option Occurrence} (h : ∀ q, o ≠ some (.began k q)) :
    due k o.toList = [] := by
  cases o with
  | none => rfl
  | some o =>
    cases o with
    | began j q =>
      have hj : j ≠ k := fun hj => h q (by rw [hj])
      simp [due, hj]
    | emitted _ | activated _ | handed _ _ | refreshed _ _ => rfl

/-! ## What is being handed over -/

/-- The request that the next step runs, and who asks for that. -/
def handing? (s : Session) : Option (Giver × Request) := s.agenda.head?.bind Task.handover?

theorem comesTo_handover? (s : Session) (t : Task) :
    (s.comesTo t).bind Occurrence.handover? = t.handover? := by
  cases t with
  | act a =>
    cases a with
    | refresh name => exact s.refreshed?_bind name fun _ _ => rfl
    | _ => rfl
  | command g c =>
    cases c with
    | save q =>
      simp only [comesTo]
      split <;> rfl
    | clear =>
      simp only [comesTo]
      split <;> rfl
    | resubmit _ | openSearch | openEvent _ => rfl
  | react _ _ _ _ | deliver _ | follow _ | ready _ _ | keep _ _ | leave _ => rfl

theorem handover?_occurrence? (s : Session) :
    s.occurrence?.bind Occurrence.handover? = s.handing? := by
  rw [occurrence?, handing?, Option.bind_assoc]
  exact Option.bind_congr fun t _ => s.comesTo_handover? t

/-- The request that `g` hands over next. -/
def underWay (g : Giver) (ts : List Task) : List Request :=
  match ts.head?.bind Task.handover? with
  | some (g', q) => if g' = g then [q] else []
  | none => []

theorem underWay_cons {g : Giver} {t : Task} {ts : List Task} (h : t.handover? = none) :
    underWay g (t :: ts) = [] := by
  simp [underWay, h]

/-- Nothing is, where only others hand over. -/
theorem underWay_of_still {g : Giver} {k : Nat} (hg : g.listing? = some k) {ts : List Task}
    (still : Still ts) : underWay g ts = [] := by
  unfold underWay
  split
  · next g' q h =>
    obtain ⟨t, ht, hand⟩ := Option.bind_eq_some_iff.1 h
    have := still t (List.mem_of_head? ht) g' q hand
    rw [if_neg]
    rintro rfl
    rw [hg] at this
    cases this
  · rfl

open View

/-- What has been handed over by the next moment is what has been and what is being. -/
theorem View.Change.hands_over {v v' : View} {t : Task} {o : Option Occurrence}
    (change : Change v t o v') (g : Giver) : handed g o.toList = underWay g (t :: v.agenda) := by
  cases change with
  | aside _ _ _ =>
    cases h : t.handover? with
    | none => rw [underWay_cons h]; rfl
    | some p =>
      by_cases hg : p.1 = g <;> simp [Session.handed, Occurrence.handed?, underWay, h, hg]
  | emitted _ _ other | watched _ other _ | unwatched _ other _ _ | released _ other _ _ =>
    rw [underWay_cons other]
    rfl
  | ended _ | passed _ _ _ _ | reached _ _ | began | activated _ | refreshed _ _ => rfl

/-- A method hands over a request just when it has been asked for. -/
theorem View.Change.underWay_method {v v' : View} {t : Task} {o : Option Occurrence}
    (change : Change v t o v') (still : Still v.agenda) (k : Nat) :
    underWay (.method k) v'.agenda = refreshes k o.toList := by
  have idle {ts : List Task} (still : Still ts) : underWay (.method k) ts = [] :=
    underWay_of_still rfl still
  cases change with
  | aside _ quiet _ =>
    rw [idle (quiet.still.append still)]
    cases t.handover? <;> rfl
  | emitted q _ _ =>
    split
    · exact idle still
    · exact idle (.cons rfl still)
  | ended _ | unwatched _ _ _ _ | released _ _ _ _ => exact idle still
  | passed _ _ _ quiet => exact idle (quiet.still.append (.cons rfl still))
  | reached _ _ | began => simp [underWay, Task.handover?, refreshes, Occurrence.refreshed?]
  | activated quiet => exact idle (quiet.still.append (.cons rfl (.cons rfl still)))
  | @refreshed _ j q _ _ =>
    by_cases hj : j = k <;> simp [underWay, Task.handover?, refreshes, Occurrence.refreshed?, hj]
  | watched _ _ quiet => exact idle (quiet.still.append (.cons rfl still))

/-- A listing hands over no request unless it follows them. -/
theorem View.Change.following_of_underWay {v v' : View} {t : Task} {o : Option Occurrence}
    (change : Change v t o v') (sound : Sound { v with agenda := t :: v.agenda }) {k : Nat}
    (under : underWay (.follower k) v'.agenda ≠ []) : (v'.following k).isSome := by
  have still : Still v.agenda := sound.still
  have idle {ts : List Task} (still : Still ts) : underWay (.follower k) ts = [] :=
    underWay_of_still rfl still
  cases change with
  | aside _ quiet _ => exact absurd (idle (quiet.still.append still)) under
  | emitted _ _ _ =>
    refine absurd (idle ?_) under
    split
    · exact still
    · exact .cons rfl still
  | ended _ | unwatched _ _ _ _ | released _ _ _ _ => exact absurd (idle still) under
  | passed _ _ _ quiet | watched _ _ quiet =>
    exact absurd (idle (quiet.still.append (.cons rfl still))) under
  | activated quiet =>
    exact absurd (idle (quiet.still.append (.cons rfl (.cons rfl still)))) under
  | refreshed _ _ => exact absurd rfl under
  | @reached e q c j turned target =>
    by_cases hj : j = k
    · show (v.following k).isSome
      rw [← hj, sound.owned.held_of_called turned target]
      rfl
    · simp [underWay, Task.handover?, hj] at under
  | @began j =>
    by_cases hj : j = k
    · show (Function.update v.following j _ k).isSome
      rw [← hj, Function.update_self]
      rfl
    · simp [underWay, Task.handover?, hj] at under

/-! ## Where a listing stands -/

/-- What can be said of a listing. -/
inductive Phase (k : Nat) (h : List Occurrence) (v : View) : Prop where
  /-- It does not follow the persisted request yet. When it begins to, nothing will be under
  delivery. -/
  | ahead (nothing : due k h = []) (silent : handed (.follower k) h = [])
      (idle : underWay (.follower k) v.agenda = []) (free : v.following k = none)
      (clean : k < v.count → ∃ before after, v.agenda = before ++ .follow k :: after ∧
        after.countP Task.deliversRequest = 0)
  /-- It follows the persisted request. -/
  | along {id : Nat} (begun : due k h ≠ []) (held : v.following k = some id)
      (exact : handed (.follower k) h ++ underWay (.follower k) v.agenda ++
        (v.request.channel.waiting id).map .effective = due k h)
  /-- It has been released. -/
  | gone (begun : due k h ≠ []) (idle : underWay (.follower k) v.agenda = [])
      (free : v.following k = none) (known : k < v.count)
      (done : k ∉ v.agenda.filterMap Task.follower?) (part : handed (.follower k) h <+: due k h)

namespace Phase

variable {k : Nat} {h : List Occurrence} {v v' : View} {t : Task} {o : Option Occurrence}

/-- Nothing happens that concerns the listing, but for what is emitted. -/
theorem frame (new : List Task) (phase : Phase k h { v with agenda := t :: v.agenda })
    (change : Change v t o v') (begins : ∀ q, o ≠ some (.began k q))
    (agenda : v'.agenda = new ++ v.agenda) (head : t.follower? ≠ some k)
    (others : k ∉ new.filterMap Task.follower?)
    (idle : underWay (.follower k) v'.agenda = []) (following : v'.following k = v.following k)
    (waiting : ∀ id, v.following k = some id →
      v'.request.channel.waiting id = v.request.channel.waiting id ++ emissions o.toList)
    (count : k < v'.count ↔ k < v.count) : Phase k (h ++ o.toList) v' := by
  have hands := change.hands_over (.follower k)
  cases phase with
  | ahead nothing silent idle' free clean =>
    refine .ahead ?_ ?_ idle (following.trans free) fun known => ?_
    · rw [due_append_of_nil nothing, due_of_not_began begins]
    · rw [handed_append, silent, hands, idle']
      rfl
    · obtain ⟨before, after, hagenda, hafter⟩ := clean (count.1 known)
      cases before with
      | nil =>
        cases hagenda
        exact absurd rfl head
      | cons t before =>
        have rest : v.agenda = before ++ .follow k :: after := (List.cons.inj hagenda).2
        exact ⟨new ++ before, after, by rw [agenda, rest, List.append_assoc], hafter⟩
  | @along id begun held exact' =>
    refine .along (by simp [due_append begun, begun]) (following.trans held) ?_
    rw [handed_append, hands, idle, waiting id held, List.append_nil, due_append begun,
      List.map_append, ← List.append_assoc]
    exact congrArg (· ++ _) exact'
  | gone begun idle' free known done part =>
    refine .gone (by simp [due_append begun, begun]) idle (following.trans free)
      (count.2 known) ?_ ?_
    · rw [agenda, List.filterMap_append, List.mem_append, not_or]
      refine ⟨others, fun hk => done ?_⟩
      obtain ⟨u, hu, hk⟩ := List.mem_filterMap.1 hk
      exact List.mem_filterMap.2 ⟨u, List.mem_cons_of_mem _ hu, hk⟩
    · rw [handed_append, hands, idle', List.append_nil, due_append begun]
      exact part.trans (List.prefix_append _ _)

/-- A listing that is activated while nothing is under delivery will find it so when it begins to
follow the requests. -/
theorem activated {name : String} {new : List Task}
    (phase : Phase v.count h { v with agenda := .act (.activate name) :: v.agenda })
    (sound : Sound { v with agenda := .act (.activate name) :: v.agenda })
    (quiet : Quiet new) (clean : v.request.channel.delivering = false) :
    Phase v.count (h ++ [.activated v.count])
      { v with
        count := v.count + 1
        agenda := new ++ .follow v.count :: .ready name v.count :: v.agenda } := by
  cases phase with
  | ahead nothing silent _ free _ =>
    have idle : underWay (.follower v.count)
        (new ++ .follow v.count :: .ready name v.count :: v.agenda) = [] :=
      underWay_of_still rfl (quiet.still.append (.cons rfl (.cons rfl sound.still)))
    refine .ahead (due_append_of_nil nothing _) ?_ idle free fun _ => ⟨new, _, rfl, ?_⟩
    · rw [handed_append, silent]
      rfl
    · have delivery := sound.planned.delivery
      rw [clean] at delivery
      exact delivery
  | along _ held _ => exact absurd (sound.owned.listed _ _ held) (Nat.lt_irrefl _)
  | gone _ _ _ known _ _ => exact absurd known (Nat.lt_irrefl _)

/-- When it begins to, it has nothing to hear but the present request. -/
theorem began (phase : Phase k h { v with agenda := .follow k :: v.agenda })
    (sound : Sound { v with agenda := .follow k :: v.agenda }) :
    Phase k (h ++ [.began k v.request.value])
      { v with
        request := v.request.subscribe .every (.listing k)
        following := Function.update v.following k (some v.request.channel.nextId)
        cache := Function.update v.cache k (some (.effective v.request.value))
        agenda :=
          .command (.follower k) (.resubmit (.effective v.request.value)) :: v.agenda } := by
  obtain ⟨known, new⟩ := sound.planned.ahead k List.mem_cons_self
  cases phase with
  | ahead nothing silent _ free clean =>
    obtain ⟨before, after, hagenda, hafter⟩ := clean known
    have rest : v.agenda.countP Task.deliversRequest = 0 := by
      cases before with
      | nil =>
        rw [(List.cons.inj hagenda).2]
        exact hafter
      | cons t before =>
        have again : k ∈ v.agenda.filterMap Task.follower? := by
          rw [(List.cons.inj hagenda).2]
          exact List.mem_filterMap.2 ⟨.follow k, by simp, rfl⟩
        exact absurd again (List.nodup_cons.1 sound.planned.once).1
    have undelivered : v.request.channel.delivering = false := sound.planned.idle rest
    have waiting : (v.request.subscribe .every (.listing k)).channel.waiting
        v.request.channel.nextId = [] :=
      sound.owned.channel.waiting_idle undelivered _
    have due' : due k (h ++ [.began k v.request.value]) = [.effective v.request.value] := by
      rw [due_append_of_nil nothing]
      simp [due, emissions]
    refine .along (by simp [due']) (Function.update_self ..) ?_
    rw [handed_append, silent, waiting, due']
    simp [underWay, Task.handover?, handed, Occurrence.handed?]
  | along _ held _ => exact absurd (new.symm.trans held) (Option.some_ne_none _).symm
  | gone _ _ _ _ done _ => exact absurd List.mem_cons_self done

/-- A request that it hears of is the first of those it had to hear, and is handed over. -/
theorem reached {e : Entry (Option Request) Follower} {q : Option Request}
    {c : Channel (Option Request) Follower}
    (phase : Phase k h { v with agenda := .deliver .request :: v.agenda })
    (sound : Sound { v with agenda := .deliver .request :: v.agenda })
    (turned : Channel.Advances v.request.channel (.called e q) c) (target : e.target = .listing k) :
    Phase k (h ++ [])
      { v with
        request := ⟨v.request.value, c⟩
        cache := Function.update v.cache k (some (.effective q))
        agenda := .command (.follower k) (.resubmit (.effective q)) ::
          .deliver .request :: v.agenda } := by
  have called := sound.owned.held_of_called turned target
  rw [List.append_nil]
  cases phase with
  | ahead _ _ _ free _ | gone _ _ free _ _ _ =>
    exact absurd (free.symm.trans called) (Option.some_ne_none _).symm
  | @along id begun held exact' =>
    obtain rfl : id = e.id := Option.some.inj (held.symm.trans called)
    refine .along begun called ?_
    rw [← exact', sound.owned.waiting_called turned called]
    simp [underWay, Task.handover?]

/-- What is left when it is released is never handed over. -/
theorem released {id : Nat} {names : Named Nat} {orphan : Nat → Bool}
    (phase : Phase k h { v with agenda := t :: v.agenda })
    (sound : Sound { v with agenda := t :: v.agenda }) (other : t.handover? = none)
    (held : v.following k = some id) :
    Phase k (h ++ [])
      { v with
        request := v.request.detach id
        following := Function.update v.following k none
        names, orphan } := by
  rw [List.append_nil]
  cases phase with
  | ahead _ _ _ free _ | gone _ _ free _ _ _ =>
    exact absurd (free.symm.trans held) (Option.some_ne_none _).symm
  | along begun held' exact' =>
    rw [underWay_cons other, List.append_nil] at exact'
    have idle : underWay (.follower k) v.agenda = [] := underWay_of_still rfl sound.still
    have done : k ∉ v.agenda.filterMap Task.follower? := fun hk => by
      obtain ⟨u, hu, hk⟩ := List.mem_filterMap.1 hk
      have ahead := sound.planned.ahead k
        (List.mem_filterMap.2 ⟨u, List.mem_cons_of_mem _ hu, hk⟩)
      exact absurd (ahead.2.symm.trans held) (Option.some_ne_none _).symm
    exact .gone begun idle (Function.update_self ..) (sound.owned.listed k _ held) done
      (exact' ▸ List.prefix_append _ _)

theorem step (phase : Phase k h { v with agenda := t :: v.agenda })
    (sound : Sound { v with agenda := t :: v.agenda }) (change : Change v t o v')
    (clean : o = some (.activated k) → v.request.channel.delivering = false) :
    Phase k (h ++ o.toList) v' := by
  have still : Still v.agenda := sound.still
  have idle {ts : List Task} (still : Still ts) : underWay (.follower k) ts = [] :=
    underWay_of_still rfl still
  have same (c : Channel (Option Request) Follower) (id : Nat) :
      c.waiting id = c.waiting id ++ emissions none.toList :=
    (List.append_nil _).symm
  cases change with
  | @aside _ new _ _ _ inert quiet filed =>
    have emits : emissions (t.handover?.map fun p => Occurrence.handed p.1 p.2).toList = [] := by
      cases t.handover? <;> rfl
    refine phase.frame new (.aside inert quiet filed) ?_ rfl ?_ ?_
      (idle (quiet.still.append still)) rfl
      (fun id _ => ?_) Iff.rfl
    · cases t.handover? <;> simp
    · simp [inert.follower]
    · simp [quiet.followers]
    · rw [emits, List.append_nil]
  | emitted q quiet other =>
    refine phase.frame _ (.emitted q quiet other) (by simp) rfl (by simp [quiet.follower]) ?_ ?_ rfl
      (fun id _ => Channel.waiting_emit ..) Iff.rfl
    · split <;> simp [Task.follower?]
    · split
      · exact idle still
      · exact idle (.cons rfl still)
  | @ended c turned =>
    refine phase.frame [] (.ended turned) (by simp) rfl (by simp [Task.follower?])
      (by simp) (idle still) rfl (fun id held => ?_) Iff.rfl
    rw [sound.owned.waiting_elsewhere turned held (by simp)]
    exact same _ _
  | @passed turn c new turned goesOn elsewhere quiet =>
    refine phase.frame (new ++ [.deliver .request]) (.passed turned goesOn elsewhere quiet)
      (by simp) (by simp) (by simp [Task.follower?]) ?_
      (idle (quiet.still.append (.cons rfl still))) rfl (fun id held => ?_) Iff.rfl
    · simp [quiet.followers, Task.follower?]
    · rw [sound.owned.waiting_elsewhere turned held fun e q => elsewhere e q k]
      exact same _ _
  | @reached e q c j turned target =>
    have held := sound.owned.held_of_called turned target
    by_cases hj : j = k
    · subst hj
      exact phase.reached sound turned target
    · refine phase.frame [_, .deliver .request] (.reached turned target) (by simp) rfl
        (by simp [Task.follower?]) (by simp [Task.follower?]) ?_ rfl (fun id held => ?_) Iff.rfl
      · simp [underWay, Task.handover?, hj]
      · rw [sound.owned.waiting_elsewhere turned held fun e' q' called hk => ?_]
        · exact same _ _
        · cases called
          exact hj (Follower.listing.inj (target.symm.trans hk))
  | @began j =>
    by_cases hj : j = k
    · subst hj
      exact phase.began sound
    · refine phase.frame [_] .began (by simp [hj]) rfl (by simp [Task.follower?, hj])
        (by simp [Task.follower?]) ?_ (Function.update_of_ne (Ne.symm hj) ..)
        (fun id _ => same _ _) Iff.rfl
      simp [underWay, Task.handover?, hj]
  | @activated name new quiet =>
    by_cases hk : k = v.count
    · subst hk
      exact phase.activated sound quiet (clean rfl)
    · refine phase.frame (new ++ [.follow v.count, .ready name v.count]) (.activated quiet)
        (by simp) (by simp) (by simp [Task.follower?]) ?_
        (idle (quiet.still.append (.cons rfl (.cons rfl still)))) rfl (fun id _ => same _ _) ?_
      · simp [quiet.followers, Task.follower?, hk]
      · exact ⟨fun h => Nat.lt_of_le_of_ne (Nat.le_of_lt_succ h) hk, Nat.lt_succ_of_lt⟩
  | @refreshed name j q known cached =>
    exact phase.frame [_, .leave j] (.refreshed known cached) (by simp) rfl
      (by simp [Task.follower?]) (by simp [Task.follower?]) (by simp [underWay, Task.handover?])
      rfl (fun id _ => same _ _) Iff.rfl
  | @watched _ i name new task other quiet =>
    refine phase.frame (new ++ [.keep name (.request v.request.channel.nextId)])
      (.watched task other quiet) (by simp) (by simp) (by simp [task.follower]) ?_
      (idle (quiet.still.append (.cons rfl still))) rfl (fun id _ => same _ _) Iff.rfl
    simp [quiet.followers, Task.follower?]
  | unwatched inert other known filed =>
    exact phase.frame [] (.unwatched inert other known filed) (by simp) rfl
      (by simp [inert.follower]) (by simp) (idle still) rfl (fun id _ => same _ _) Iff.rfl
  | @released _ j id names orphan inert other held filed =>
    by_cases hj : j = k
    · subst hj
      exact phase.released sound other held
    · exact phase.frame [] (.released inert other held filed) (by simp) rfl
        (by simp [inert.follower]) (by simp) (idle still) (Function.update_of_ne (Ne.symm hj) ..)
        (fun id _ => same _ _) Iff.rfl

theorem prefix_due (phase : Phase k h v) : handed (.follower k) h <+: due k h := by
  cases phase with
  | ahead _ silent _ _ _ =>
    rw [silent]
    exact List.nil_prefix
  | along _ _ exact' =>
    rw [← exact', List.append_assoc]
    exact List.prefix_append _ _
  | gone _ _ _ _ _ part => exact part

/-- While it follows the requests and none is under delivery, nothing is left to hear. -/
theorem complete (phase : Phase k h v) (sound : Sound v) (active : (v.following k).isSome)
    (undelivered : v.request.channel.delivering = false) :
    handed (.follower k) h ++ underWay (.follower k) v.agenda = due k h := by
  cases phase with
  | ahead _ _ _ free _ | gone _ _ free _ _ _ =>
    rw [free] at active
    cases active
  | along _ _ exact' =>
    rw [sound.owned.channel.waiting_idle undelivered, List.map_nil, List.append_nil] at exact'
    exact exact'

end Phase

/-! ## What is true at every moment -/

/-- What a listing has had run. -/
structure ResubmitsInOrder (k : Nat) (persisted : Option Request) (past : List Session)
    (s : Session) : Prop where
  /-- The emissions are the changes of the persisted request. -/
  value : s.request.value = (emissions (history past)).getLastD persisted
  inOrder : handed (.follower k) (history past) <+: due k (history past)
  /-- Nothing is left out while the listing is active and no request is under delivery; the present
  moment counts, which may be the one of the last of them. -/
  complete : (s.following? k).isSome → s.request.channel.delivering = false →
    handed (.follower k) (history (past ++ [s])) = due k (history past)
  /-- All else that it has run, it has been asked for. -/
  refreshed : handed (.method k) (history (past ++ [s])) = refreshes k (history past)
  /-- The executor is run with each request as it is handed over, and with nothing else. -/
  received : ∀ m ∈ past, toldTo (.listener executor) m.answers =
    (m.occurrence?.bind Occurrence.handover?).toList.map (some ·.2)
  /-- What the executor and all others are run with is what is noted. -/
  noted : ∀ m ∈ past, List.Forall₂ (Announces s.crew) m.callNotes m.answers

/-- The persisted request is the last one that was emitted. -/
theorem View.Change.value {v v' : View} {t : Task} {o : Option Occurrence}
    (change : Change v t o v') :
    v'.request.value = (emissions o.toList).getLastD v.request.value := by
  cases change with
  | aside _ _ _ => cases t.handover? <;> rfl
  | emitted _ _ _ | ended _ | passed _ _ _ _ | reached _ _ | began | activated _ | refreshed _ _
  | watched _ _ _ | unwatched _ _ _ _ | released _ _ _ _ => rfl

theorem View.Sound.handed_occurrence {s : Session} (sound : s.view.Sound) (g : Giver) :
    handed g s.occurrence?.toList = underWay g s.agenda := by
  cases hagenda : s.agenda with
  | nil => simp [occurrence?, hagenda, underWay, handed]
  | cons t ts =>
    have taken : s.step = some (perform { s with agenda := ts } t) := by
      rw [Session.step, hagenda]
    obtain ⟨t', ts', hagenda', change, _⟩ := sound.step taken
    obtain ⟨rfl, rfl⟩ := List.cons.inj (hagenda.symm.trans hagenda')
    exact change.hands_over g

/-- The state of a run, for one listing. -/
structure Follows (k : Nat) (persisted : Option Request) (past : List Session) (s : Session) :
    Prop where
  sound : s.view.Sound
  phase : Phase k (history past) s.view
  value : s.request.value = (emissions (history past)).getLastD persisted
  refreshed : handed (.method k) (history past) ++ underWay (.method k) s.agenda =
    refreshes k (history past)

theorem follows_start (answer : Option UInt64) (persisted : Option Request) (route : Option Route)
    (hosts : Hosts) (k : Nat) : Follows k persisted [] (start answer persisted route hosts) where
  sound := sound_start answer persisted route hosts
  phase := .ahead rfl rfl rfl rfl fun known => absurd known (Nat.not_lt_zero k)
  value := rfl
  refreshed := rfl

variable {k : Nat} {persisted : Option Request} {past : List Session} {s s' : Session}

theorem Follows.take (h : Follows k persisted past s) (rest : s.agenda = []) (a : Action) :
    Follows k persisted past (machine.take s a) where
  sound := h.sound.take rest a
  phase := by
    have idle (ts : List Task) (hts : ts = []) : underWay (.follower k) ts = [] := hts ▸ rfl
    cases h.phase with
    | ahead nothing silent _ free clean =>
      refine .ahead nothing silent rfl free fun known => ?_
      obtain ⟨before, after, hagenda, _⟩ := clean known
      rw [show s.view.agenda = [] from rest] at hagenda
      simp at hagenda
    | along begun held exact' =>
      rw [idle s.view.agenda rest] at exact'
      exact .along begun held exact'
    | gone begun _ free known _ part => exact .gone begun rfl free known List.not_mem_nil part
  value := h.value
  refreshed := by
    have refreshed := h.refreshed
    rw [rest] at refreshed
    exact refreshed

theorem Follows.step (h : Follows k persisted past s) (taken : s.step = some s')
    (clean : s.occurrence? = some (.activated k) → s.request.channel.delivering = false) :
    Follows k persisted (past ++ [s]) s' := by
  obtain ⟨t, ts, hagenda, change, sound⟩ := h.sound.step taken
  have before := view_next hagenda
  have still : Still ts := by
    have := h.sound.still
    rwa [show s.view.agenda = t :: ts from hagenda] at this
  refine ⟨sound, ?_, ?_, ?_⟩
  · rw [history_append]
    exact (before.symm ▸ h.phase).step (before.symm ▸ h.sound) change clean
  · rw [history_append, emissions_append, Channel.getLastD_append, ← h.value]
    exact change.value
  · rw [history_append, handed_append, refreshes_append, ← h.refreshed, hagenda,
      change.hands_over]
    exact congrArg (_ ++ ·) (change.underWay_method still k)

theorem follows_of_run {answer : Option UInt64} {route : Option Route} {hosts : Hosts}
    (run : machine.Run (start answer persisted route hosts) past s)
    (clean : ∀ m ∈ past, m.occurrence? = some (.activated k) →
      m.request.channel.delivering = false) : Follows k persisted past s := by
  induction run with
  | start => exact follows_start ..
  | input a _ rest ih => exact (ih clean).take rest a
  | @step past s s' _ taken ih =>
    have earlier := ih fun m hm => clean m (List.mem_append_left _ hm)
    exact earlier.step taken (clean s (by simp))

/-- What is handed over is what the executor is run with. -/
theorem Manned.received (manned : s.Manned) (taken : s.step = some s') :
    toldTo (.listener executor) s.answers =
      (s.occurrence?.bind Occurrence.handover?).toList.map (some ·.2) := by
  rw [(manned.effect taken).1, handover?_occurrence?, handing?]
  cases head : s.agenda.head?.bind Task.handover? with
  | none =>
    refine toldTo_eq_nil fun (_, v) told role => ?_
    obtain rfl : _ = Role.listener executor := role
    obtain ⟨g, q, command, _⟩ := manned.executor_spec (Option.mem_toList.1 told)
    rw [command] at head
    cases head
  | some p =>
    obtain ⟨t, command, hands⟩ := Option.bind_eq_some_iff.1 head
    obtain rfl : t = .command p.1 (.resubmit p.2) := by
      cases t with
      | command g c =>
        cases c with
        | resubmit q =>
          cases hands
          rfl
        | save | clear | openSearch | openEvent => cases hands
      | act | react | deliver | follow | ready | keep | leave => cases hands
    rw [tells?, command]
    rfl

/-- Whatever happens in a session, a listing that is activated while no request is under delivery
has the present request run when it begins to follow the requests, and each that is persisted
afterwards, once and in order. -/
theorem resubmits_in_order {answer : Option UInt64} {route : Option Route} {hosts : Hosts}
    (run : machine.Run (start answer persisted route hosts) past s)
    (clean : ∀ m ∈ past, m.occurrence? = some (.activated k) →
      m.request.channel.delivering = false) : ResubmitsInOrder k persisted past s := by
  have h := follows_of_run run clean
  exact {
    value := h.value
    inOrder := h.phase.prefix_due
    complete := fun active undelivered => by
      rw [history_append, handed_append, h.sound.handed_occurrence]
      exact h.phase.complete h.sound active undelivered
    refreshed := by
      rw [history_append, handed_append, h.sound.handed_occurrence]
      exact h.refreshed
    received := fun m hm =>
      let ⟨_, taken⟩ := run.step_of_mem m hm
      ((manned_of_run run).2 m hm).received taken
    noted := announced_of_run run }

def plainQuery : Request := { Request.default with summarize := false }

def freshQuery : Request := { Request.default with incremental := true }

/-- Persists two requests when the first query is run. -/
def onFirstQuery : Rule (Option Request) Action :=
  ⟨fun _ _ => true, 1, [.command (.save plainQuery), .command (.save freshQuery)]⟩

/-- Whoever runs the queries persists two requests while the listing begins to follow them: both are
run after the first one, and a refresh runs the last of them again. -/
theorem resubmits_in_order_reentrant : ∃ (past : List Session) (s : Session),
    machine.Run (start none none none ⟨[onFirstQuery], [], []⟩) past s ∧
    (∀ m ∈ past, m.occurrence? = some (.activated 0) → m.request.channel.delivering = false) ∧
    handed (.follower 0) (history past) = [.default, plainQuery, freshQuery] ∧
    handed (.method 0) (history past) = [freshQuery] ∧
    ResubmitsInOrder 0 none past s := by
  have begun : machine.Run (start none none none ⟨[onFirstQuery], [], []⟩) [] _ := .start
  have activated := (begun.input (.activate "events") rfl).steps 40
  have refreshed := (activated.input (.refresh "events") rfl).steps 10
  refine ⟨_, _, refreshed, ?clean, ?_, ?_, resubmits_in_order refreshed ?clean⟩
  all_goals decide +kernel

end StandingQuery.Session
