import StandingQuery.Proofs.Query.Narrowing
import StandingQuery.Proofs.Session.Guided
import StandingQuery.Proofs.Session.Resubmission

/-! A listing takes one route. It is shown the route that is known when it is activated and then
those that are set, in order, until one is present; that one it saves a request for, as the very
next thing, and it is shown no other. What it has been shown and what it has still to be shown
always make up the whole of the routes since its activation. -/

namespace StandingQuery.Session

/-! ## The history of the route -/

def Guidance.navigated? : Guidance → Option (Option Route)
  | .navigated r => some r
  | _ => none

def Guidance.offered? (k : Nat) : Guidance → Option (Option Route)
  | .started j r | .reached j r => if j = k then some r else none
  | _ => none

/-- The routes that were set. -/
def navigations (h : List Guidance) : List (Option Route) := h.filterMap (·.navigated?)

/-- The routes that a listing was shown: the one known when it was activated, and those that reached
it. -/
def offers (k : Nat) (h : List Guidance) : List (Option Route) := h.filterMap (·.offered? k)

/-- The routes that there were for a listing: the one known when it was activated, and all that were
set afterwards. -/
def prospects (k : Nat) : List Guidance → List (Option Route)
  | [] => []
  | .started j r :: h => if j = k then r :: navigations h else prospects k h
  | _ :: h => prospects k h

/-- The request that a listing saves next because of a route. -/
def nextSave? (k : Nat) (ts : List Task) : Option Request :=
  (ts.head?.bind Task.saving?).bind fun (j, q) => if j = k then some q else none

/-- The requests that a listing has saved because of a route. -/
def saves (k : Nat) (past : List Session) : List Request :=
  past.filterMap fun m => nextSave? k m.agenda

theorem navigations_append (h h' : List Guidance) :
    navigations (h ++ h') = navigations h ++ navigations h' :=
  List.filterMap_append

theorem offers_append (k : Nat) (h h' : List Guidance) :
    offers k (h ++ h') = offers k h ++ offers k h' :=
  List.filterMap_append

theorem saves_append (k : Nat) (past past' : List Session) :
    saves k (past ++ past') = saves k past ++ saves k past' :=
  List.filterMap_append

theorem saves_singleton (k : Nat) (s : Session) : saves k [s] = (nextSave? k s.agenda).toList := by
  cases h : nextSave? k s.agenda <;> simp [saves, h]

/-- Once a listing has been activated, every route that is set is one more for it. -/
theorem prospects_append {k : Nat} {h : List Guidance} (begun : prospects k h ≠ [])
    (h' : List Guidance) : prospects k (h ++ h') = prospects k h ++ navigations h' := by
  induction h with
  | nil => exact absurd rfl begun
  | cons o h ih =>
    cases o with
    | started j r =>
      by_cases hj : j = k
      · simp [prospects, hj, navigations_append]
      · simp only [prospects, hj, if_false, List.cons_append] at begun ⊢
        exact ih begun
    | navigated _ | reached _ _ | released _ => exact ih begun

theorem prospects_append_idle {k : Nat} {h : List Guidance} (begun : prospects k h ≠ [])
    {o : Guidance} (idle : o.navigated? = none) : prospects k (h ++ [o]) = prospects k h := by
  rw [prospects_append begun]
  simp [navigations, idle]

theorem prospects_append_of_nil {k : Nat} {h : List Guidance} (ahead : prospects k h = [])
    (h' : List Guidance) : prospects k (h ++ h') = prospects k h' := by
  induction h with
  | nil => rfl
  | cons o h ih =>
    cases o with
    | started j r =>
      by_cases hj : j = k
      · simp [prospects, hj] at ahead
      · simp only [prospects, hj, if_false, List.cons_append] at ahead ⊢
        exact ih ahead
    | navigated _ | reached _ _ | released _ => exact ih ahead

theorem prospects_of_elsewhere {k : Nat} {o : Option Guidance} (h : offers k o.toList = []) :
    prospects k o.toList = [] := by
  cases o with
  | none => rfl
  | some o =>
    cases o with
    | started j r =>
      by_cases hj : j = k
      · simp [offers, Guidance.offered?, hj] at h
      · simp [prospects, hj]
    | navigated _ | reached _ _ | released _ => rfl

/-! ## What a listing saves -/

open Guide

theorem nextSave?_eq_none {ts : List Task} (h : Unsaving ts) (k : Nat) : nextSave? k ts = none := by
  cases ts with
  | nil => rfl
  | cons t ts =>
    have : t.saving? = none := h t List.mem_cons_self
    simp [nextSave?, this]

theorem nextSave?_savings {j k : Nat} (r : Option Route) {ts : List Task} (h : Unsaving ts) :
    nextSave? k (savings j r ++ ts) = if j = k then r.map Route.initialRequest else none := by
  cases r with
  | none => simpa [savings] using nextSave?_eq_none h k
  | some r => by_cases hj : j = k <;> simp [savings, nextSave?, Task.saving?, hj]

/-- A listing that is shown a present route saves a request for it next. -/
theorem Guide.Move.saves {g g' : Guide} {t : Task} {o : Option Guidance} (move : Move g t o g')
    (waits : Waits g.route.channel g.guided g.count) (unsaving : Unsaving g.agenda) (k : Nat) :
    (nextSave? k g'.agenda).toList =
      ((offers k o.toList).filterMap id).map Route.initialRequest := by
  have quiet {ts : List Task} (h : Unsaving ts) : (nextSave? k ts).toList = [] := by
    rw [nextSave?_eq_none h]
    rfl
  cases move with
  | aside _ aloof _ => exact quiet (unsaving_append aloof.unsaving unsaving)
  | navigated r =>
    refine quiet ?_
    split
    · exact unsaving
    · exact unsaving_cons rfl unsaving
  | ended _ | unwatched _ _ _ => exact quiet unsaving
  | passed _ _ _ aloof | watched _ aloof =>
    exact quiet (unsaving_append aloof.unsaving (unsaving_cons rfl unsaving))
  | @refused _ r _ j turned target =>
    obtain ⟨_, _, absent, _⟩ := waits.refused turned target
    by_cases hk : j = k <;> simp [nextSave?, Task.saving?, offers, Guidance.offered?, hk, absent]
  | @taken _ r _ j _ _ =>
    rw [nextSave?_savings r (unsaving_cons rfl unsaving)]
    by_cases hk : j = k <;> cases r <;> simp [offers, Guidance.offered?, hk]
  | @known name r _ =>
    rw [nextSave?_savings (some r) (unsaving_cons rfl (unsaving_cons rfl unsaving))]
    by_cases hk : g.count = k <;> simp [offers, Guidance.offered?, hk]
  | unknown _ =>
    by_cases hk : g.count = k <;> simp [nextSave?, Task.saving?, offers, Guidance.offered?, hk]
  | released _ _ =>
    rw [agenda_release]
    exact quiet unsaving

/-! ## Where a listing stands -/

/-- After its end a listing is shown nothing. -/
def Silent (k : Nat) (h : List Guidance) : Prop :=
  ∀ before after, h = before ++ .released k :: after → offers k after = []

section
variable {k : Nat} {h : List Guidance} {o : Option Guidance}

theorem silent_of_kept (kept : .released k ∉ h) : Silent k h := by
  rintro before after rfl
  simp at kept

theorem Silent.append (silent : Silent k h) (elsewhere : offers k o.toList = []) :
    Silent k (h ++ o.toList) := by
  intro before after parts
  cases o with
  | none => exact silent before after (by simpa using parts)
  | some o =>
    rcases List.eq_nil_or_concat after with rfl | ⟨after, x, rfl⟩
    · rfl
    · rw [List.concat_eq_append] at parts ⊢
      have shape : h ++ [o] = (before ++ .released k :: after) ++ [x] := by simpa using parts
      obtain ⟨hh, hx⟩ := List.append_inj' shape rfl
      cases hx
      rw [offers_append, silent before after hh]
      exact elsewhere

end

/-- What can be said of a listing, by the channel of the routes, its subscription there and how many
listings there are. -/
inductive Stage (k : Nat) (h : List Guidance) (c : Channel (Option Route) Follower)
    (own : Option Nat) (count : Nat) : Prop where
  /-- It has not been activated. -/
  | ahead (unknown : ¬ k < count) (nothing : prospects k h = []) (unseen : offers k h = [])
      (kept : .released k ∉ h)
  | waiting {id : Nat} (held : own = some id) (active : c.isActive id = true)
      (begun : prospects k h ≠ []) (kept : .released k ∉ h) (absent : ∀ r ∈ offers k h, r = none)
      (exact : offers k h ++ c.waiting id = prospects k h)
  /-- It has taken a route or come to its end. -/
  | closed (known : k < count) (ended : ∀ id, own = some id → c.isActive id = false)
      (begun : prospects k h ≠ []) (part : offers k h <+: prospects k h)
      (absent : ∀ r ∈ (offers k h).dropLast, r = none) (silent : Silent k h)
      (reason : (∃ r, (offers k h).getLast? = some (some r)) ∨ .released k ∈ h)

namespace Stage

variable {k : Nat} {h : List Guidance} {c c' : Channel (Option Route) Follower}
  {own own' : Option Nat} {count count' : Nat} {o : Option Guidance}

/-- Nothing happens that concerns the listing, but for the routes that are set. -/
theorem frame (stage : Stage k h c own count) (elsewhere : offers k o.toList = [])
    (stays : o ≠ some (.released k)) (same : own' = own) (known : k < count' ↔ k < count)
    (alone : ∀ id, own = some id → c'.isActive id = c.isActive id ∧
      (c.isActive id = true → c'.waiting id = c.waiting id ++ navigations o.toList)) :
    Stage k (h ++ o.toList) c' own' count' := by
  have unseen : offers k (h ++ o.toList) = offers k h := by
    rw [offers_append, elsewhere, List.append_nil]
  have goesOn (kept : .released k ∉ h) : .released k ∉ h ++ o.toList := by
    rw [List.mem_append, Option.mem_toList]
    rintro (there | now)
    · exact kept there
    · exact stays now
  subst same
  cases stage with
  | ahead unknown nothing none kept =>
    refine .ahead (fun hk => unknown (known.1 hk)) ?_ (unseen.trans none) (goesOn kept)
    rw [prospects_append_of_nil nothing, prospects_of_elsewhere elsewhere]
  | @waiting id held active begun kept absent exact' =>
    obtain ⟨stays, later⟩ := alone id held
    refine .waiting held (stays.trans active) ?_ (goesOn kept) (unseen ▸ absent) ?_
    · simp [prospects_append begun, begun]
    · rw [unseen, later active, prospects_append begun, ← exact', List.append_assoc]
  | closed there ended begun part absent silent reason =>
    refine .closed (known.2 there) ?_ ?_ ?_ (unseen ▸ absent) (silent.append elsewhere) ?_
    · intro id held
      exact (alone id held).1.trans (ended id held)
    · simp [prospects_append begun, begun]
    · rw [unseen, prospects_append begun]
      exact part.trans (List.prefix_append _ _)
    · rw [unseen]
      exact reason.imp_right fun there => List.mem_append_left _ there

/-- A listing that waits has not been shown a present route. -/
theorem refused (stage : Stage k h c own count) {id : Nat} (held : own = some id)
    (listed : k < count) (active : c.isActive id = true) (stays : c'.isActive id = true)
    (given : c.waiting id = none :: c'.waiting id) :
    Stage k (h ++ [.reached k none]) c' own count := by
  have offer : offers k [.reached k none] = [none] := by simp [offers, Guidance.offered?]
  cases stage with
  | ahead unknown _ _ _ => exact absurd listed unknown
  | @waiting id' held' _ begun kept absent exact' =>
    obtain rfl : id = id' := Option.some.inj (held.symm.trans held')
    have same : prospects k (h ++ [.reached k none]) = prospects k h :=
      prospects_append_idle begun rfl
    refine .waiting held stays (same ▸ begun) (by simp [kept]) ?_ ?_
    · intro r hr
      rw [offers_append, offer, List.mem_append, List.mem_singleton] at hr
      exact hr.elim (absent r) fun none => none
    · rw [offers_append, offer, same, ← exact', given, List.append_assoc]
      rfl
  | closed _ ended _ _ _ _ _ => exact absurd ((ended id held).symm.trans active) (by simp)

/-- The first present route is the last one it is shown. -/
theorem taken (stage : Stage k h c own count) {id : Nat} (held : own = some id)
    (listed : k < count) (active : c.isActive id = true) (ends : c'.isActive id = false)
    {r : Route} (given : c.waiting id = some r :: c'.waiting id) :
    Stage k (h ++ [.reached k (some r)]) c' own count := by
  have offer : offers k [.reached k (some r)] = [some r] := by simp [offers, Guidance.offered?]
  cases stage with
  | ahead unknown _ _ _ => exact absurd listed unknown
  | @waiting id' held' _ begun kept absent exact' =>
    obtain rfl : id = id' := Option.some.inj (held.symm.trans held')
    have same : prospects k (h ++ [.reached k (some r)]) = prospects k h :=
      prospects_append_idle begun rfl
    refine .closed listed ?_ (same ▸ begun) ?_ ?_ (silent_of_kept (by simp [kept])) (.inl ⟨r, ?_⟩)
    · intro id' held'
      obtain rfl : id = id' := Option.some.inj (held.symm.trans held')
      exact ends
    · rw [offers_append, offer, same, ← exact', given]
      exact ⟨c'.waiting id, by simp⟩
    · rw [offers_append, offer, List.dropLast_concat]
      exact absent
    · rw [offers_append, offer, List.getLast?_concat]
  | closed _ ended _ _ _ _ _ => exact absurd ((ended id held).symm.trans active) (by simp)

/-- A listing that is activated is shown the route that is known. -/
theorem started (stage : Stage k h c own count) (new : ¬ k < count)
    (listed : ∀ id, own = some id → k < count) (r : Option Route) :
    prospects k (h ++ [.started k r]) = [r] ∧ offers k (h ++ [.started k r]) = [r] ∧
      .released k ∉ h ++ [.started k r] := by
  cases stage with
  | ahead _ nothing unseen kept =>
    refine ⟨?_, ?_, by simp [kept]⟩
    · rw [prospects_append_of_nil nothing]
      simp [prospects, navigations]
    · rw [offers_append, unseen]
      simp [offers, Guidance.offered?]
  | waiting held _ _ _ _ _ => exact absurd (listed _ held) new
  | closed known _ _ _ _ _ _ => exact absurd known new

theorem known (stage : Stage k h c own count) (new : ¬ k < count)
    (listed : ∀ id, own = some id → k < count) (r : Route) :
    Stage k (h ++ [.started k (some r)]) c none (k + 1) := by
  obtain ⟨begun, shown, kept⟩ := stage.started new listed (some r)
  exact .closed (Nat.lt_succ_self _) (by simp) (by simp [begun]) (by simp [begun, shown])
    (by simp [shown]) (silent_of_kept kept) (.inl ⟨r, by simp [shown]⟩)

/-- Where no route is under delivery, the ones to be shown to it are those to come. -/
theorem unknown (stage : Stage k h c own count) (new : ¬ k < count)
    (listed : ∀ id, own = some id → k < count) (channel : c.WellFormed)
    (undelivered : c.delivering = false) :
    Stage k (h ++ [.started k none]) (c.subscribe (.first Option.isSome) (.listing k))
      (some c.nextId) (k + 1) := by
  obtain ⟨begun, shown, kept⟩ := stage.started new listed none
  refine .waiting rfl ?_ (by simp [begun]) kept (by simp [shown]) ?_
  · simp [Channel.isActive_subscribe channel]
  · rw [shown, begun, Channel.waiting_subscribe, channel.waiting_idle undelivered]
    rfl

theorem released (stage : Stage k h c own count) (known : k < count) :
    Stage k (h ++ [.released k]) c' none count := by
  have unseen : offers k (h ++ [.released k]) = offers k h := by
    rw [offers_append]
    exact List.append_nil _
  have ends : Silent k h → Silent k (h ++ [.released k]) := fun silent =>
    silent.append (o := some (.released k)) rfl
  cases stage with
  | ahead unknown _ _ _ => exact absurd known unknown
  | waiting held active begun kept absent exact' =>
    have same : prospects k (h ++ [.released k]) = prospects k h := prospects_append_idle begun rfl
    refine .closed known (by simp) (same ▸ begun) ?_ ?_ (ends (silent_of_kept kept))
      (.inr (by simp))
    · rw [unseen, same, ← exact']
      exact List.prefix_append _ _
    · rw [unseen]
      exact fun r hr => absent r (List.dropLast_subset _ hr)
  | closed _ _ begun part absent silent _ =>
    have same : prospects k (h ++ [.released k]) = prospects k h := prospects_append_idle begun rfl
    exact .closed known (by simp) (same ▸ begun) (by rwa [unseen, same]) (unseen.symm ▸ absent)
      (ends silent) (.inr (by simp))

/-- A turn that does not go to the listing. -/
theorem passed {guided : Nat → Option Nat} (stage : Stage k h c (guided k) count)
    (waits : Waits c guided count) {t : Turn (Option Route) Follower}
    (turned : Channel.Advances c t c')
    (other : ∀ e r, t = .called e r ∨ t = .refused e r → e.target ≠ .listing k)
    (elsewhere : offers k o.toList = []) (idle : navigations o.toList = [])
    (stays : o ≠ some (.released k)) : Stage k (h ++ o.toList) c' (guided k) count := by
  refine stage.frame elsewhere stays rfl Iff.rfl fun id held => ?_
  obtain ⟨active, waiting⟩ := waits.elsewhere turned held other
  refine ⟨active, fun there => ?_⟩
  rw [waiting there, idle, List.append_nil]

theorem step {g g' : Guide} {t : Task} (stage : Stage k h g.route.channel (g.guided k) g.count)
    (move : Move g t o g') (sound : Guide.Sound { g with agenda := t :: g.agenda })
    (clean : ∀ r, o = some (.started k r) → g.route.channel.delivering = false) :
    Stage k (h ++ o.toList) g'.route.channel (g'.guided k) g'.count := by
  have waits : Waits g.route.channel g.guided g.count := sound.waits
  have listed (id : Nat) (held : g.guided k = some id) : k < g.count := waits.listed k id held
  have same (c : Channel (Option Route) Follower) (id : Nat) :
      c.isActive id = true → c.waiting id = c.waiting id ++ navigations [] :=
    fun _ => (List.append_nil _).symm
  have unseen {j : Nat} {r : Option Route} (hj : j ≠ k) :
      offers k (some (Guidance.reached j r)).toList = [] ∧
        offers k (some (Guidance.started j r)).toList = [] := by
    simp [offers, Guidance.offered?, hj]
  have more (hk : k ≠ g.count) : k < g.count + 1 ↔ k < g.count :=
    ⟨fun there => Nat.lt_of_le_of_ne (Nat.le_of_lt_succ there) hk, Nat.lt_succ_of_lt⟩
  -- A new subscription is not the one of the listing.
  have newcomer (mode : Mode (Option Route)) (f : Follower) {id : Nat}
      (held : g.guided k = some id) :
      (g.route.channel.subscribe mode f).isActive id = g.route.channel.isActive id := by
    have made := Nat.ne_of_lt (waits.made k id held)
    simp [Channel.isActive_subscribe waits.channel, made]
  have leaver {id' : Nat} (apart : ∀ id, g.guided k = some id → id ≠ id') {id : Nat}
      (held : g.guided k = some id) :
      (g.route.channel.detach id').isActive id = g.route.channel.isActive id := by
    simp [apart id held]
  cases move with
  | aside _ _ _ => exact stage.frame rfl (by simp) rfl Iff.rfl fun id _ => ⟨rfl, same _ id⟩
  | navigated r =>
    exact stage.frame rfl (by simp) rfl Iff.rfl fun id _ =>
      ⟨rfl, fun _ => Channel.waiting_emit ..⟩
  | ended turned => exact stage.passed (o := none) waits turned (by simp) rfl rfl (by simp)
  | passed turned _ elsewhere _ =>
    exact stage.passed (o := none) waits turned (fun e r => elsewhere e r k) rfl rfl (by simp)
  | @refused e r c j turned target =>
    obtain ⟨held, active, absent, stays⟩ := waits.refused turned target
    by_cases hk : j = k
    · subst hk absent
      exact stage.refused held (listed _ held) active stays
        (waits.waiting_given turned (.inr rfl) active)
    · exact stage.passed (o := some _) waits turned (by simp [target, hk]) (unseen hk).1 rfl
        (by simp)
  | @taken e r c j turned target =>
    obtain ⟨held, active, present, ends⟩ := waits.called turned target
    by_cases hk : j = k
    · obtain ⟨r, rfl⟩ := Option.isSome_iff_exists.1 present
      subst hk
      exact stage.taken held (listed _ held) active ends
        (waits.waiting_given turned (.inl rfl) active)
    · exact stage.passed (o := some _) waits turned (by simp [target, hk]) (unseen hk).1 rfl
        (by simp)
  | @known name r _ =>
    by_cases hk : k = g.count
    · subst hk
      show Stage _ _ _ (Function.update g.guided g.count none g.count) _
      rw [Function.update_self]
      exact stage.known (Nat.lt_irrefl _) listed r
    · exact stage.frame (unseen (Ne.symm hk)).2 (by simp) (Function.update_of_ne hk ..) (more hk)
        fun id _ => ⟨rfl, same _ id⟩
  | @unknown name _ =>
    by_cases hk : k = g.count
    · subst hk
      show Stage _ _ _ (Function.update g.guided g.count _ g.count) _
      rw [Function.update_self]
      exact stage.unknown (Nat.lt_irrefl _) listed waits.channel (clean none rfl)
    · exact stage.frame (unseen (Ne.symm hk)).2 (by simp) (Function.update_of_ne hk ..) (more hk)
        fun id held => ⟨newcomer _ _ held, same _ id⟩
  | watched _ _ =>
    exact stage.frame rfl (by simp) rfl Iff.rfl fun id held => ⟨newcomer _ _ held, same _ id⟩
  | @unwatched _ id' _ _ known _ =>
    have apart (id : Nat) (held : g.guided k = some id) : id ≠ id' := by
      rintro rfl
      exact (sound.apart id (.inl known)).2 k held
    exact stage.frame rfl (by simp) rfl Iff.rfl fun id held => ⟨leaver apart held, same _ id⟩
  | @released _ j _ known =>
    by_cases hj : j = k
    · subst hj
      rw [guided_release, count_release]
      exact stage.released known
    · unfold Guide.release
      split
      · next id' held' =>
        have apart (id : Nat) (held : g.guided k = some id) : id ≠ id' := by
          rintro rfl
          exact hj (waits.injective j k id held' held)
        exact stage.frame rfl (by simpa using hj) (Function.update_of_ne (Ne.symm hj) ..) Iff.rfl
          fun id held => ⟨leaver apart held, same _ id⟩
      · exact stage.frame rfl (by simpa using hj) rfl Iff.rfl fun id _ => ⟨rfl, same _ id⟩

theorem prefix_prospects (stage : Stage k h c own count) : offers k h <+: prospects k h := by
  cases stage with
  | ahead _ _ unseen _ =>
    rw [unseen]
    exact List.nil_prefix
  | waiting _ _ _ _ _ exact' => exact ⟨_, exact'⟩
  | closed _ _ _ part _ _ _ => exact part

theorem absent_before (stage : Stage k h c own count) : ∀ r ∈ (offers k h).dropLast, r = none := by
  intro r hr
  cases stage with
  | ahead _ _ unseen _ => simp [unseen] at hr
  | waiting _ _ _ _ absent _ => exact absent r (List.dropLast_subset _ hr)
  | closed _ _ _ _ absent _ _ => exact absent r hr

theorem silent (stage : Stage k h c own count) : Silent k h := by
  cases stage with
  | ahead _ _ _ kept | waiting _ _ _ kept _ _ => exact silent_of_kept kept
  | closed _ _ _ _ _ silent _ => exact silent

/-- A listing that has found no route and has not come to its end has been shown every one. -/
theorem complete (stage : Stage k h c own count) (channel : c.WellFormed)
    (absent : ∀ r ∈ offers k h, r = none) (kept : .released k ∉ h)
    (undelivered : c.delivering = false) : offers k h = prospects k h := by
  cases stage with
  | ahead _ nothing unseen _ => rw [unseen, nothing]
  | waiting _ _ _ _ _ exact' =>
    rwa [channel.waiting_idle undelivered, List.append_nil] at exact'
  | closed _ _ _ _ _ _ reason =>
    rcases reason with ⟨r, last⟩ | ended
    · exact absurd (absent _ (List.mem_of_getLast? last)) (by simp)
    · exact absurd ended kept

/-- A listing that has found a route is not subscribed to it any more. -/
theorem consumed (stage : Stage k h c own count) {r : Route} (present : some r ∈ offers k h) :
    ∀ id, own = some id → c.isActive id = false := by
  cases stage with
  | ahead _ _ unseen _ => simp [unseen] at present
  | waiting _ _ _ _ absent _ => exact absurd (absent _ present) (by simp)
  | closed _ ended _ _ _ _ _ => exact ended

end Stage

section
variable {l : List (Option Route)} (h : ∀ r ∈ l.dropLast, r = none)
include h

/-- Where only the last may be present, those that are present are one at most. -/
theorem filterMap_of_dropLast : l.filterMap id = (l.findSome? id).toList := by
  rcases List.eq_nil_or_concat l with rfl | ⟨before, r, rfl⟩
  · rfl
  · rw [List.concat_eq_append, List.dropLast_concat] at h
    have nothing : before.filterMap id = [] := List.filterMap_eq_nil_iff.2 h
    have nowhere : before.findSome? id = none := List.findSome?_eq_none_iff.2 h
    rw [List.concat_eq_append, List.filterMap_append, nothing, List.findSome?_append, nowhere]
    cases r <;> rfl

theorem getLast?_of_dropLast {r : Route} (present : some r ∈ l) : l.getLast? = some (some r) := by
  rcases List.eq_nil_or_concat l with rfl | ⟨before, x, rfl⟩
  · cases present
  · rw [List.concat_eq_append, List.dropLast_concat] at h
    rw [List.concat_eq_append, List.mem_append, List.mem_singleton] at present
    rw [List.concat_eq_append, List.getLast?_concat]
    rcases present with there | last
    · cases h _ there
    · rw [last]

theorem findSome?_of_dropLast {r : Route} (present : some r ∈ l) : l.findSome? id = some r := by
  have one : r ∈ l.filterMap id := List.mem_filterMap.2 ⟨some r, present, rfl⟩
  rwa [filterMap_of_dropLast h, Option.mem_toList] at one

end

/-! ## Over a run -/

/-- The state of a run, for one listing. -/
structure Takes (k : Nat) (past : List Session) (s : Session) : Prop where
  sound : s.guide.Sound
  stage : Stage k (course past) s.route.channel (s.guided? k) s.listings.length
  saved : saves k (past ++ [s]) =
    ((offers k (course past)).filterMap id).map Route.initialRequest

theorem takes_start (answer : Option UInt64) (persisted : Option Request) (route : Option Route)
    (hosts : Hosts) (k : Nat) : Takes k [] (start answer persisted route hosts) where
  sound := guided_start ..
  stage := .ahead (Nat.not_lt_zero k) rfl rfl List.not_mem_nil
  saved := rfl

section
variable {k : Nat} {past : List Session} {s s' : Session}

theorem Takes.take (h : Takes k past s) (rest : s.agenda = []) (a : Action) :
    Takes k past (machine.take s a) where
  sound := h.sound.take a
  stage := h.stage
  saved := by
    have nothing : saves k [machine.take s a] = saves k [s] := by
      rw [saves_singleton, saves_singleton, rest]
      rfl
    rw [saves_append, nothing, ← saves_append]
    exact h.saved

theorem Takes.step (h : Takes k past s) (taken : s.step = some s')
    (clean : ∀ r, s.guidance? = some (.started k r) → s.route.channel.delivering = false) :
    Takes k (past ++ [s]) s' := by
  obtain ⟨t, ts, hagenda, move, unsaving, sound⟩ := h.sound.step taken
  refine ⟨sound, ?_, ?_⟩
  · rw [course_append]
    exact Stage.step h.stage move ((guide_next hagenda).symm ▸ h.sound) clean
  · rw [saves_append, h.saved, course_append, offers_append, List.filterMap_append, List.map_append,
      saves_singleton]
    exact congrArg (_ ++ ·) (move.saves h.sound.waits unsaving k)

theorem takes_of_run {answer : Option UInt64} {persisted : Option Request} {route : Option Route}
    {hosts : Hosts} (run : machine.Run (start answer persisted route hosts) past s)
    (clean : ∀ m ∈ past, ∀ r, m.guidance? = some (.started k r) →
      m.route.channel.delivering = false) : Takes k past s := by
  induction run with
  | start => exact takes_start ..
  | input a _ rest ih => exact (ih clean).take rest a
  | @step past s s' _ taken ih =>
    have earlier := ih fun m hm => clean m (List.mem_append_left _ hm)
    exact earlier.step taken (clean s (by simp))

end

end StandingQuery.Session
