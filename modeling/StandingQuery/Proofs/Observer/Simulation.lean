import StandingQuery.Proofs.Run

/-! One machine run by two scripts, of which the second one leaves some inputs out. When each step
of the first run is one of the second run or changes nothing that matters there, the two pass
through the same states, as far as these are compared; and when there are only so many steps of the
second kind in a row, the first run comes to rest wherever the second one does. -/

namespace StandingQuery.Machine

variable {σ ι : Type} {M : Machine σ ι}

/-- The machine with all that it has told about earlier inputs, the latest first. What it tells
about the present one is in its state. -/
def telling {ν : Type} (M : Machine σ ι) (told : σ → List ν) : Machine (List ν × σ) ι where
  step s := (M.step s.2).map (s.1, ·)
  AtRest s := M.AtRest s.2
  take s i := (told s.2 ++ s.1, M.take s.2 i)

/-- Some state on the way through a script, of which the inputs so far have been taken. -/
inductive Reached (M : Machine σ ι) (s₀ : σ) : List ι → σ → Prop where
  | start : Reached M s₀ [] s₀
  | input {script : List ι} {s : σ} (i : ι) : Reached M s₀ script s → M.AtRest s →
      Reached M s₀ (script ++ [i]) (M.take s i)
  | step {script : List ι} {s s' : σ} : Reached M s₀ script s → M.step s = some s' →
      Reached M s₀ script s'

theorem Reached.steps {s₀ s : σ} {script : List ι} (h : M.Reached s₀ script s) (n : Nat)
    (past : List σ) : M.Reached s₀ script (M.steps n past s).2 := by
  induction n generalizing past s with
  | zero => exact h
  | succ n ih =>
    rw [Machine.steps]
    split
    · next s' taken => exact ih (h.step taken) _
    · exact h

/-- The states that `script` leads to and those that it leads to without some inputs correspond. -/
structure Mirrors (M : Machine σ ι) (without : ι → Option ι) (Agree : σ → σ → Prop) (s₀ t₀ : σ)
    (script : List ι) : Prop where
  /-- Whatever is reached with these inputs is reached without them. -/
  forth : ∀ s, M.Reached s₀ script s →
    ∃ t, M.Reached t₀ (script.filterMap without) t ∧ Agree s t ∧ (M.AtRest s → M.AtRest t)
  /-- Whatever is reached without them is reached with some of them, perhaps not yet the last. -/
  back : ∀ t, M.Reached t₀ (script.filterMap without) t → ∃ earlier s, earlier <+: script ∧
    earlier.filterMap without = script.filterMap without ∧ M.Reached s₀ earlier s ∧ Agree s t
  /-- They do not keep the machine from coming to rest. -/
  settled : ∀ t, M.Reached t₀ (script.filterMap without) t → M.AtRest t →
    ∃ s, M.Reached s₀ script s ∧ M.AtRest s ∧ Agree s t

/-- What relates a run to the run without some inputs. -/
structure Shadows (M : Machine σ ι) (without : ι → Option ι) (Allowed : ι → Prop)
    (R : σ → σ → Prop) (burden : σ → Nat) : Prop where
  rest : ∀ s, M.AtRest s ↔ M.step s = none
  /-- A step is a step there, or takes off some of the burden. -/
  step : ∀ s t s', R s t → M.step s = some s' →
    (∃ t', M.step t = some t' ∧ R s' t') ∨ R s' t ∧ burden s' < burden s
  halt : ∀ s t, R s t → M.AtRest s → M.AtRest t
  same : ∀ i j s t, Allowed i → without i = some j → R s t → M.AtRest s →
    R (M.take s i) (M.take t j)
  extra : ∀ i s t, Allowed i → without i = none → R s t → M.AtRest s → R (M.take s i) t

namespace Shadows

variable {without : ι → Option ι} {Allowed : ι → Prop} {R : σ → σ → Prop} {burden : σ → Nat}
  {s₀ t₀ s t : σ} {script : List ι}

theorem forth (h : M.Shadows without Allowed R burden) (start : R s₀ t₀)
    (reached : M.Reached s₀ script s) (allowed : ∀ i ∈ script, Allowed i) :
    ∃ t, M.Reached t₀ (script.filterMap without) t ∧ R s t := by
  induction reached with
  | start => exact ⟨t₀, .start, start⟩
  | @input script s i _ rest ih =>
    obtain ⟨t, reached, hR⟩ := ih fun i hi => allowed i (List.mem_append_left _ hi)
    have hi : Allowed i := allowed i (by simp)
    rw [List.filterMap_append]
    cases hw : without i with
    | none =>
      refine ⟨t, ?_, h.extra i s t hi hw hR rest⟩
      simpa [hw] using reached
    | some j =>
      refine ⟨M.take t j, ?_, h.same i j s t hi hw hR rest⟩
      simpa [hw] using reached.input j (h.halt s t hR rest)
  | @step script s s' _ taken ih =>
    obtain ⟨t, reached, hR⟩ := ih allowed
    rcases h.step s t s' hR taken with ⟨t', taken', hR'⟩ | ⟨hR', _⟩
    · exact ⟨t', reached.step taken', hR'⟩
    · exact ⟨t, reached, hR'⟩

/-- A step there is made here, after some steps that change nothing there. -/
theorem catchUp (h : M.Shadows without Allowed R burden) (hR : R s t)
    (reached : M.Reached s₀ script s) {t' : σ} (taken : M.step t = some t') :
    ∃ s', M.Reached s₀ script s' ∧ R s' t' := by
  induction hn : burden s using Nat.strongRecOn generalizing s with
  | ind n ih =>
    subst hn
    cases ahead : M.step s with
    | none =>
      have rest := (h.rest t).1 (h.halt s t hR ((h.rest s).2 ahead))
      rw [rest] at taken
      cases taken
    | some s' =>
      rcases h.step s t s' hR ahead with ⟨u, taken', hR'⟩ | ⟨hR', less⟩
      · rw [taken] at taken'
        cases taken'
        exact ⟨s', reached.step ahead, hR'⟩
      · exact ih _ less hR' (reached.step ahead) rfl

/-- Where the one without is at rest, so is this one before long. -/
theorem settle (h : M.Shadows without Allowed R burden) (hR : R s t) (rest : M.AtRest t)
    (reached : M.Reached s₀ script s) : ∃ s', M.Reached s₀ script s' ∧ M.AtRest s' ∧ R s' t := by
  induction hn : burden s using Nat.strongRecOn generalizing s with
  | ind n ih =>
    subst hn
    cases ahead : M.step s with
    | none => exact ⟨s, reached, (h.rest s).2 ahead, hR⟩
    | some s' =>
      rcases h.step s t s' hR ahead with ⟨t', taken, _⟩ | ⟨hR', less⟩
      · rw [(h.rest t).1 rest] at taken
        cases taken
      · exact ih _ less hR' (reached.step ahead) rfl

/-- Inputs that are left out there are taken here while nothing happens there. -/
theorem passOver (h : M.Shadows without Allowed R burden) {extras : List ι}
    (allowed : ∀ i ∈ extras, Allowed i) (out : extras.filterMap without = []) (hR : R s t)
    (rest : M.AtRest t) (reached : M.Reached s₀ script s) :
    ∃ s', M.Reached s₀ (script ++ extras) s' ∧ M.AtRest s' ∧ R s' t := by
  induction extras generalizing script s with
  | nil =>
    rw [List.append_nil]
    exact h.settle hR rest reached
  | cons i extras ih =>
    obtain ⟨s', reached, still, hR⟩ := h.settle hR rest reached
    have none : without i = none := List.filterMap_eq_nil_iff.1 out i List.mem_cons_self
    have later := ih (fun i hi => allowed i (List.mem_cons_of_mem _ hi))
      (by rwa [List.filterMap_cons_none none] at out)
      (h.extra i s' t (allowed i List.mem_cons_self) none hR still) (reached.input i still)
    rwa [List.append_assoc] at later

theorem back (h : M.Shadows without Allowed R burden) (start : R s₀ t₀)
    (allowed : ∀ i ∈ script, Allowed i) {bare : List ι} (reached : M.Reached t₀ bare t)
    (part : bare <+: script.filterMap without) :
    ∃ earlier s, earlier <+: script ∧ earlier.filterMap without = bare ∧
      M.Reached s₀ earlier s ∧ R s t := by
  induction reached with
  | start => exact ⟨[], s₀, ⟨_, rfl⟩, rfl, .start, start⟩
  | @step bare t t' _ taken ih =>
    obtain ⟨earlier, s, hpre, hbare, reached, hR⟩ := ih part
    obtain ⟨s', reached', hR'⟩ := h.catchUp hR reached taken
    exact ⟨earlier, s', hpre, hbare, reached', hR'⟩
  | @input bare t j _ rest ih =>
    obtain ⟨earlier, s, ⟨later, rfl⟩, rfl, reached, hR⟩ := ih ((List.prefix_append _ _).trans part)
    -- the next input that is not left out is the one that was taken there
    rw [List.filterMap_append, List.prefix_append_right_inj] at part
    obtain ⟨tail, htail⟩ := part
    obtain ⟨extras, i, after, rfl, hextras, hi, _⟩ := List.filterMap_eq_cons_iff.1 htail.symm
    have out : extras.filterMap without = [] := List.filterMap_eq_nil_iff.2 hextras
    have allowedLater : ∀ x ∈ extras ++ i :: after, Allowed x := fun x hx =>
      allowed x (List.mem_append_right _ hx)
    obtain ⟨s', reached', still, hR'⟩ := h.passOver
      (fun x hx => allowedLater x (List.mem_append_left _ hx)) out hR rest reached
    refine ⟨earlier ++ extras ++ [i], M.take s' i, ⟨after, by simp⟩, ?_, reached'.input i still, ?_⟩
    · simp [out, hi]
    · exact h.same i j s' t (allowedLater i (by simp)) hi hR' still

theorem mirrors (h : M.Shadows without Allowed R burden) {Agree : σ → σ → Prop}
    (agree : ∀ s t, R s t → Agree s t) (start : R s₀ t₀) (allowed : ∀ i ∈ script, Allowed i) :
    M.Mirrors without Agree s₀ t₀ script where
  forth := by
    intro s reached
    obtain ⟨t, reached', hR⟩ := h.forth start reached allowed
    exact ⟨t, reached', agree s t hR, h.halt s t hR⟩
  back := by
    intro t reached
    obtain ⟨earlier, s, hpre, hbare, reached', hR⟩ :=
      h.back start allowed reached (List.prefix_refl _)
    exact ⟨earlier, s, hpre, hbare, reached', agree s t hR⟩
  settled := by
    intro t reached rest
    obtain ⟨earlier, s, ⟨later, rfl⟩, hbare, reached', hR⟩ :=
      h.back start allowed reached (List.prefix_refl _)
    have out : later.filterMap without = [] := by simpa using hbare
    obtain ⟨s', reached'', still, hR'⟩ := h.passOver
      (fun i hi => allowed i (List.mem_append_right _ hi)) out hR rest reached'
    exact ⟨s', reached'', still, agree s' t hR'⟩

end Shadows
end StandingQuery.Machine
