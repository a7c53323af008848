import StandingQuery.Proofs.Text.Digit
import StandingQuery.Session.Step

/-! What can be read off a status line: whether the events were selected, whether all of them are
shown, and if not, both numbers. It tells nothing else. There are four forms of it, and no two of
them can be the same text, since a number starts with a digit where another form goes on with a
letter; a number ends where the words after it begin. -/

namespace StandingQuery

open Text (decimal NoDigitNext)

/-! ## Numbers among words -/

theorem Text.toList_toString (n : UInt64) : (toString n).toList = decimal n.toNat :=
  String.toList_ofList

/-- A number and the words after it can be told apart. -/
theorem Text.decimal_append_inj {m n : Nat} {s t : List Char} (hs : NoDigitNext s)
    (ht : NoDigitNext t) (h : decimal m ++ s = decimal n ++ t) : m = n ∧ s = t := by
  have hspan := congrArg (·.span Char.isDigit) h
  simp only [span_isDigit (fun _ => isDigit_of_mem_decimal) hs,
    span_isDigit (fun _ => isDigit_of_mem_decimal) ht, Prod.mk.injEq] at hspan
  obtain ⟨hdigits, hrest⟩ := hspan
  have hvalue := congrArg decimalValue hdigits
  rw [decimalValue_decimal, decimalValue_decimal] at hvalue
  exact ⟨hvalue, hrest⟩

/-- Words that start with a letter are no number. -/
theorem Text.decimal_append_ne (n : Nat) (s : List Char) {t : List Char} (ht : NoDigitNext t) :
    decimal n ++ s ≠ t := by
  rintro rfl
  have hne : decimal n ≠ [] := Nat.toDigits_ne_nil
  obtain ⟨c, ds, hd⟩ := List.exists_cons_of_ne_nil hne
  have hdigit : c.isDigit = true := isDigit_of_mem_decimal (hd ▸ List.mem_cons_self)
  have hother : c.isDigit = false := ht c (by rw [hd]; rfl)
  exact Bool.false_ne_true (hother.symm.trans hdigit)

/-! ## The four forms -/

/-- What a status line tells. The numbers are the limit and the total. -/
inductive Status where
  | recent
  | recentOf (limit total : UInt64)
  | selected
  | selectedOf (limit total : UInt64)

namespace Status

/-- The two numbers, and the words after them. -/
def amounts (limit total : UInt64) (after : List Char) : List Char :=
  decimal limit.toNat ++ (" of ".toList ++ (decimal total.toNat ++ after))

/-- What stands behind the first word. -/
def words : Status → List Char
  | recent => "the most recent events.".toList
  | recentOf limit total => "the most recent ".toList ++
      amounts limit total " events, please refine the search.".toList
  | selected => "the events that match the specified query.".toList
  | selectedOf limit total =>
      amounts limit total " events that match the specified query, please refine the search.".toList

theorem amounts_ne (limit total : UInt64) (after : List Char) {t : List Char} (ht : NoDigitNext t) :
    amounts limit total after ≠ t :=
  Text.decimal_append_ne _ _ ht

theorem amounts_inj {limit total cap sum : UInt64} {after : List Char} (hafter : NoDigitNext after)
    (h : amounts limit total after = amounts cap sum after) : limit = cap ∧ total = sum := by
  have between (s : List Char) : NoDigitNext (" of ".toList ++ s) := by simp [NoDigitNext]
  obtain ⟨hlimit, hrest⟩ := Text.decimal_append_inj (between _) (between _) h
  obtain ⟨htotal, -⟩ := Text.decimal_append_inj hafter hafter (List.append_cancel_left hrest)
  exact ⟨UInt64.toNat_inj.1 hlimit, UInt64.toNat_inj.1 htotal⟩

/-- Only one form starts with a number. -/
theorem noDigitNext_words {s : Status} (h : ∀ limit total, s ≠ selectedOf limit total) :
    NoDigitNext s.words := by
  cases s with
  | recent | recentOf _ _ | selected =>
    unfold words
    simp [NoDigitNext]
  | selectedOf limit total => exact absurd rfl (h limit total)

theorem recentOf_ne (limit total : UInt64) : (recentOf limit total).words ≠ recent.words := by
  intro h
  have hrest :
      amounts limit total " events, please refine the search.".toList = "events.".toList := by
    unfold words at h
    simpa using h
  exact amounts_ne _ _ _ (by simp [NoDigitNext]) hrest

/-- A line that holds a number is no line of another form: where the number stands, the others go on
with a letter. -/
theorem words_inj {a b : Status} (h : a.words = b.words) : a = b := by
  cases a <;> cases b
  case recent.recent | selected.selected => rfl
  case recentOf.recentOf =>
    obtain ⟨rfl, rfl⟩ := amounts_inj (by simp [NoDigitNext]) (List.append_cancel_left h)
    rfl
  case selectedOf.selectedOf =>
    obtain ⟨rfl, rfl⟩ := amounts_inj (by simp [NoDigitNext]) h
    rfl
  case recent.recentOf => exact absurd h.symm (recentOf_ne _ _)
  case recentOf.recent => exact absurd h (recentOf_ne _ _)
  case selectedOf.recent | selectedOf.recentOf | selectedOf.selected =>
    exact absurd h (amounts_ne _ _ _ (noDigitNext_words nofun))
  case recent.selectedOf | recentOf.selectedOf | selected.selectedOf =>
    exact absurd h.symm (amounts_ne _ _ _ (noDigitNext_words nofun))
  -- what the events are called comes first in these
  case recent.selected | recentOf.selected | selected.recent | selected.recentOf =>
    unfold words at h
    simp at h

end Status

namespace Outcome

def status (o : Outcome) (limit : UInt64) : Status :=
  let total := o.results.total
  if o.request.isScoped then
    if limit ≤ total then .selectedOf limit total else .selected
  else if limit ≤ total then .recentOf limit total else .recent

theorem toList_statusLine (o : Outcome) (limit : UInt64) :
    (o.statusLine limit).toList = "Showing ".toList ++ (o.status limit).words := by
  unfold statusLine status
  cases o.request.isScoped <;> by_cases capped : limit ≤ o.results.total
  all_goals
    simp only [capped, decide_true, decide_false, String.toList_append, Text.toList_toString,
      List.append_assoc]
    rfl

theorem statusLine_eq_iff_status (o p : Outcome) (limit cap : UInt64) :
    o.statusLine limit = p.statusLine cap ↔ o.status limit = p.status cap := by
  rw [← String.toList_inj, toList_statusLine, toList_statusLine]
  constructor
  · intro h
    exact Status.words_inj (List.append_cancel_left h)
  · intro h
    rw [h]

theorem status_eq_iff (o p : Outcome) (limit cap : UInt64) :
    o.status limit = p.status cap ↔ o.request.isScoped = p.request.isScoped ∧
      (limit ≤ o.results.total ↔ cap ≤ p.results.total) ∧
      ((¬ limit ≤ o.results.total ∧ ¬ cap ≤ p.results.total) ∨
        (limit = cap ∧ o.results.total = p.results.total)) := by
  unfold status
  cases o.request.isScoped <;> cases p.request.isScoped <;>
    by_cases capped : limit ≤ o.results.total <;> by_cases capped' : cap ≤ p.results.total <;>
    simp [capped, capped']

end Outcome

/-- Holds at least one term, or has a date at one end. -/
def Request.HasScope (q : Request) : Prop :=
  (∃ m, q.terms = some m ∧ m.entries ≠ []) ∨ (∃ t, q.start = some t) ∨ ∃ t, q.stop = some t

theorem Request.isScoped_iff (q : Request) : q.isScoped = true ↔ q.HasScope := by
  rw [isScoped, HasScope, or_comm, or_assoc]
  cases q.terms <;> simp [TermMap.isEmpty, Option.isSome_iff_exists, or_assoc]

/-- **The status line tells scope and cap, and both numbers where it is capped.** Of the request it
tells the scope alone. What is shown of a session is the line with the limit 1000. -/
theorem Outcome.statusLine_eq_iff (o p : Outcome) (limit cap : UInt64) :
    (o.statusLine limit = p.statusLine cap ↔
      (o.request.HasScope ↔ p.request.HasScope) ∧
      (limit ≤ o.results.total ↔ cap ≤ p.results.total) ∧
      ((¬ limit ≤ o.results.total ∧ ¬ cap ≤ p.results.total) ∨
        (limit = cap ∧ o.results.total = p.results.total))) ∧
    ∀ (s : Session) (name : String), s.act (.message name) =
      s.withListing name fun _ _ => s.note (.message (s.outcome.map (·.statusLine 1000))) := by
  constructor
  · rw [statusLine_eq_iff_status, status_eq_iff, ← Request.isScoped_iff, ← Request.isScoped_iff,
      Bool.eq_iff_iff]
  · intro s name
    rfl

end StandingQuery
