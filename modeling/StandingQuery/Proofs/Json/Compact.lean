import StandingQuery.Proofs.Json.Meaning
import StandingQuery.Proofs.Json.Printed

/-! The compact form is one of the texts of the grammar: what is printed of a value is written for
that value. So a printed text conveys whatever its value means, part by part. -/

namespace StandingQuery.Json

variable {α σ : Type} {means : Value → α → Prop} {text : List Char}

/-- The text is written for a value that means `a`. -/
def Conveys (means : Value → α → Prop) (text : List Char) (a : α) : Prop :=
  ∃ v, means v a ∧ Written v text

theorem exists_between {β γ : Type} {P : α → β → Prop} {Q : α → γ → Prop} {bs : List β}
    {cs : List γ} (h : List.Forall₂ (fun b c => ∃ a, Q a c ∧ P a b) bs cs) :
    ∃ as, List.Forall₂ Q as cs ∧ List.Forall₂ P as bs := by
  induction h with
  | nil => exact ⟨[], .nil, .nil⟩
  | cons h _ ih =>
    obtain ⟨a, hc, hb⟩ := h
    obtain ⟨as, hcs, hbs⟩ := ih
    exact ⟨a :: as, .cons hc hcs, .cons hb hbs⟩

/-! ## Single values -/

theorem conveys_text (s : String) : Conveys Value.IsText (printText s) s :=
  ⟨_, rfl, .text (spells_printed s.toList)⟩

theorem conveys_boolean (b : Bool) : Conveys Value.IsBoolean (printBoolean b) b :=
  ⟨_, rfl, .boolean b⟩

theorem conveys_natural (n : Nat) : Conveys Value.IsInteger (Text.decimal n) (n : Int) := by
  rw [← NumberLiteral.print_natCast]
  exact ⟨_, ⟨_, rfl, NumberLiteral.isInteger_ofInt _⟩, .number _⟩

/-- A value or null. -/
def printOrNull (print : α → List Char) (o : Option α) : List Char := (o.map print).getD printNull

theorem conveys_orNull {print : α → List Char} {o : Option α}
    (h : ∀ a ∈ o, Conveys means (print a) a) : Conveys (OrNull means) (printOrNull print o) o := by
  cases o with
  | none => exact ⟨_, .null, .null⟩
  | some a =>
    obtain ⟨v, hv, ht⟩ := h a rfl
    exact ⟨v, .value hv, ht⟩

/-! ## Arrays and objects -/

/-- Without blanks around it. -/
def Element.bare (v : Value) (t : List Char) : Element := ⟨[], v, t, []⟩

@[simp] theorem Element.print_bare (v : Value) (t : List Char) : (bare v t).print = t := by
  simp [bare, print]

theorem Element.Padded.bare (v : Value) (t : List Char) : (Element.bare v t).Padded :=
  ⟨nofun, nofun⟩

theorem written_printArray {vs : List Value} {ts : List (List Char)}
    (h : List.Forall₂ Written vs ts) : Written (.array vs) (printArray ts) := by
  obtain ⟨es, rfl, rfl, padded, values⟩ : ∃ es : List Element, es.map Element.value = vs ∧
      es.map Element.print = ts ∧ (∀ e ∈ es, e.Padded) ∧ ∀ e ∈ es, Written e.value e.text := by
    induction h with
    | nil => exact ⟨[], rfl, rfl, nofun, nofun⟩
    | @cons v t vs ts h _ ih =>
      obtain ⟨es, rfl, rfl, padded, values⟩ := ih
      exact ⟨.bare v t :: es, rfl, by simp, List.forall_mem_cons.2 ⟨.bare v t, padded⟩,
        List.forall_mem_cons.2 ⟨h, values⟩⟩
  exact .array Blanks.nil padded values

/-- Without blanks in it. -/
def WrittenMember.bare (k : String) (v : Value) (t : List Char) : WrittenMember :=
  ⟨[], some k, k.toList.flatMap printChar, [], .bare v t⟩

theorem WrittenMember.print_bare (k : String) (v : Value) (t : List Char) :
    (bare k v t).print = printText k ++ ':' :: t := by
  simp [bare, print, printText]

theorem WrittenMember.Padded.bare (k : String) (v : Value) (t : List Char) :
    (WrittenMember.bare k v t).Padded :=
  ⟨nofun, spells_printed _, nofun, .bare v t⟩

/-- The member is printed under its name. -/
def PrintedMember (m : String × Value) (p : String × List Char) : Prop :=
  m.1 = p.1 ∧ Written m.2 p.2

theorem written_printObject {ms : Members} {ps : List (String × List Char)}
    (h : List.Forall₂ PrintedMember ms ps) : Written (.object ms.keyed) (printObject ps) := by
  obtain ⟨ws, hkeyed, hprint, padded, values⟩ : ∃ ws : List WrittenMember,
      ws.map (fun w => (w.name, w.element.value)) = ms.keyed ∧
      ws.map WrittenMember.print = ps.map (fun p => printText p.1 ++ ':' :: p.2) ∧
      (∀ w ∈ ws, w.Padded) ∧ ∀ w ∈ ws, Written w.element.value w.element.text := by
    induction h with
    | nil => exact ⟨[], rfl, rfl, nofun, nofun⟩
    | @cons m p ms ps h _ ih =>
      obtain ⟨ws, hkeyed, hprint, padded, values⟩ := ih
      obtain ⟨k, v⟩ := m
      obtain ⟨_, t⟩ := p
      obtain ⟨rfl, ht⟩ := h
      refine ⟨.bare k v t :: ws, congrArg _ hkeyed, ?_,
        List.forall_mem_cons.2 ⟨.bare k v t, padded⟩, List.forall_mem_cons.2 ⟨ht, values⟩⟩
      rw [List.map_cons, List.map_cons, hprint, WrittenMember.print_bare]
  have htext : printObject ps =
      '\x7b' :: ([] ++ commaSeparated (ws.map WrittenMember.print)) ++ ['\x7d'] := by
    rw [hprint]
    rfl
  rw [← hkeyed, htext]
  exact .object Blanks.nil padded values

theorem conveys_list {as : List α} {ts : List (List Char)}
    (h : List.Forall₂ (Conveys means) ts as) : Conveys (MeansList means) (printArray ts) as := by
  obtain ⟨vs, hmeans, hwritten⟩ := exists_between h
  exact ⟨_, .array hmeans, written_printArray hwritten⟩

theorem conveys_map {pairs : List (String × α)} {ps : List (String × List Char)}
    (h : List.Forall₂ (fun p q => p.1 = q.1 ∧ Conveys means p.2 q.2) ps pairs) :
    Conveys (MeansMap means) (printObject ps) pairs := by
  have members : List.Forall₂ (fun p q => ∃ m : String × Value,
      (m.1 = q.1 ∧ means m.2 q.2) ∧ PrintedMember m p) ps pairs := by
    refine h.imp fun p q ⟨hname, v, hv, ht⟩ => ⟨(q.1, v), ⟨rfl, hv⟩, hname.symm, ht⟩
  obtain ⟨ms, hmeans, hprinted⟩ := exists_between members
  exact ⟨_, .object hmeans, written_printObject hprinted⟩

end StandingQuery.Json
