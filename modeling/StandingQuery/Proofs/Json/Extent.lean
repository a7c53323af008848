import StandingQuery.Proofs.Json.Telling

/-! Whatever a reader makes of a written value, it stops behind it. That holds also where the value
is not what the reader asks for, so it tells how the parts of arrays and objects are met one after
another, and what must be true of a value from which anything is read. -/

namespace StandingQuery.Json

variable {α β : Type} {v : Value} {text w rest r : List Char} {P Q : Value → Prop}

theorem ok_of_bind {ε : Type} {x : Except ε α} {f : α → Except ε β} {b : β} (h : x >>= f = .ok b) :
    ∃ a, x = .ok a ∧ f a = .ok b := by
  cases x with
  | error e => cases h
  | ok a => exact ⟨a, rfl, h⟩

/-- Something is read from a written value only if `P` holds of it, and nothing behind it is. -/
def Stops (read : Reader α) (P : Value → Prop) : Prop :=
  ∀ ⦃v text w rest a r⦄, Written v text → Blanks w → Ends rest →
    read (w ++ (text ++ rest)) = .ok (a, r) → r = rest ∧ P v

theorem Stops.imp {read : Reader α} (h : Stops read P) (hPQ : ∀ v, P v → Q v) : Stops read Q := by
  intro v text w rest a r ht hw hr hread
  obtain ⟨hrest, hv⟩ := h ht hw hr hread
  exact ⟨hrest, hPQ v hv⟩

/-! ## Strings

A surrogate may lack its partner, and then there is no string to read; a pair takes two escapes. -/

theorem lowSurrogate_ok {s : List Char} {n : Nat} (h : lowSurrogate s = .ok (n, r)) :
    ∃ s', s = '\\' :: 'u' :: s' ∧ codeUnit s' = .ok (n, r) := by
  unfold lowSurrogate at h
  split at h
  case h_3 s' =>
    obtain ⟨⟨n', r'⟩, hunit, h⟩ := ok_of_bind h
    simp only at h
    split at h
    · cases h
      exact ⟨s', rfl, hunit⟩
    · cases h
  all_goals cases h

theorem lowSurrogate_escaped {t : List Char} (h : Escaped t) {n : Nat}
    (hread : lowSurrogate (t ++ '"' :: rest) = .ok (n, r)) :
    ∃ t', Escaped t' ∧ r = t' ++ '"' :: rest := by
  obtain ⟨s, hs, hunit⟩ := lowSurrogate_ok hread
  cases h with
  | nil => cases hs
  | plain hc _ => exact absurd (List.cons.inj hs).1 hc.2.1
  | short hc _ => exact absurd (List.cons.inj (List.cons.inj hs).2).1 (shortEscape_of_mem hc).2
  | @unit m quad t hq h =>
    simp only [List.cons_append, List.append_assoc, List.cons.injEq, true_and] at hs
    rw [← hs, codeUnit_quad hq] at hunit
    obtain ⟨-, rfl⟩ := Prod.mk.inj (Except.ok.inj hunit)
    exact ⟨t, h, rfl⟩

theorem numberedChar_escaped {n : Nat} {quad t : List Char} (hq : Quad n quad) (h : Escaped t)
    {c : Char} (hread : numberedChar (quad ++ (t ++ '"' :: rest)) = .ok (c, r)) :
    ∃ t', Escaped t' ∧ r = t' ++ '"' :: rest := by
  simp only [numberedChar, codeUnit_quad hq, bind, Except.bind] at hread
  split at hread
  · cases hread
  split at hread
  · obtain ⟨⟨low, r'⟩, hlow, hread⟩ := ok_of_bind hread
    obtain ⟨-, rfl⟩ := Prod.mk.inj (Except.ok.inj hread)
    exact lowSurrogate_escaped h hlow
  · obtain ⟨-, rfl⟩ := Prod.mk.inj (Except.ok.inj hread)
    exact ⟨t, h, rfl⟩

/-- A backslash and what it takes leave a text of the same kind. -/
theorem escapedChar_escaped {s : List Char} (h : Escaped ('\\' :: s)) {c : Char}
    (hread : escapedChar (s ++ '"' :: rest) = .ok (c, r)) :
    ∃ t, Escaped t ∧ r = t ++ '"' :: rest := by
  cases h with
  | plain hc _ => exact absurd rfl hc.2.1
  | @short letter d t hc h =>
    rw [List.cons_append, escapedChar_short hc] at hread
    obtain ⟨-, rfl⟩ := Prod.mk.inj (Except.ok.inj hread)
    exact ⟨t, h, rfl⟩
  | @unit n quad t hq h =>
    rw [List.cons_append, List.append_assoc] at hread
    exact numberedChar_escaped hq h hread

theorem readChars_escaped {t : List Char} (h : Escaped t) {fuel : Nat} {cs : List Char}
    (hread : readChars fuel (t ++ '"' :: rest) = .ok (cs, r)) : r = rest := by
  induction fuel generalizing t cs with
  | zero => cases hread
  | succ fuel ih =>
    have escape {s cs : List Char} (h : Escaped ('\\' :: s))
        (hread : readChars (fuel + 1) ('\\' :: (s ++ '"' :: rest)) = .ok (cs, r)) : r = rest := by
      obtain ⟨⟨c, r₁⟩, hchar, hread⟩ := ok_of_bind hread
      obtain ⟨⟨cs', r₂⟩, hchars, hread⟩ := ok_of_bind hread
      obtain ⟨-, rfl⟩ := Prod.mk.inj (Except.ok.inj hread)
      obtain ⟨t, h, rfl⟩ := escapedChar_escaped h hchar
      exact ih h hchars
    cases h with
    | nil => exact (Prod.mk.inj (Except.ok.inj hread)).2.symm
    | @plain c t hc h =>
      rw [List.cons_append, readChars_plain hc] at hread
      cases hchars : readChars fuel (t ++ '"' :: rest) with
      | error e =>
        rw [hchars] at hread
        cases hread
      | ok p =>
        rw [hchars] at hread
        obtain ⟨-, rfl⟩ := Prod.mk.inj (Except.ok.inj hread)
        exact ih h hchars
    | short hc h => exact escape (.short hc h) hread
    | unit hq h => exact escape (.unit hq h) hread

theorem textTail_escaped {t : List Char} (h : Escaped t) {s : String}
    (hread : textTail (t ++ '"' :: rest) = .ok (s, r)) : r = rest := by
  obtain ⟨⟨cs, r'⟩, hchars, hread⟩ := ok_of_bind hread
  obtain ⟨-, rfl⟩ := Prod.mk.inj (Except.ok.inj hread)
  exact readChars_escaped h hchars

/-! ## Single values -/

/-- What can be seen of a written value: an array or object is still to be read. -/
inductive Peeked (v : Value) (text rest : List Char) : Surface → List Char → Prop
  | array {vs : List Value} (h : v = .array vs) : Peeked v text rest .sequence (text ++ rest)
  | object {ms : List (Option String × Value)} (h : v = .object ms) :
      Peeked v text rest .map (text ++ rest)
  | single {s : Surface} (hsequence : s ≠ .sequence) (hmap : s ≠ .map) : Peeked v text rest s rest

theorem peeked (ht : Written v text) (hw : Blanks w) (hr : Ends rest) {s : Surface}
    (h : peekSurface (w ++ (text ++ rest)) = .ok (s, r)) : Peeked v text rest s r := by
  have hpeek := peekSurface_blanks hw (text ++ rest)
  cases ht with
  | null =>
    cases (peeks_null w rest hw hr).symm.trans h
    exact .single (by simp) (by simp)
  | boolean b =>
    cases (peeks_boolean b w rest hw hr).symm.trans h
    exact .single (by simp) (by simp)
  | number l =>
    obtain ⟨c, t, hl, hc⟩ := print_eq_cons l
    rw [hpeek, hl, List.cons_append, peekSurface_numeric hc, ← List.cons_append, ← hl] at h
    obtain ⟨⟨n, r'⟩, htoken, h⟩ := ok_of_bind h
    rw [numberToken, Numeral.scan_literal _ l hr] at htoken
    obtain ⟨_, ⟨⟩, htoken⟩ := ok_of_bind htoken
    obtain ⟨_, -, htoken⟩ := ok_of_bind htoken
    cases htoken
    cases h
    exact .single (by simp) (by simp)
  | text hs =>
    rw [hpeek, List.cons_append, List.cons_append, List.append_assoc] at h
    obtain ⟨⟨t, r'⟩, htail, h⟩ := ok_of_bind (x := textTail _) h
    cases textTail_escaped hs.escaped htail
    cases h
    exact .single (by simp) (by simp)
  | array _ _ _ =>
    rw [hpeek] at h
    cases h
    exact .array rfl
  | object _ _ _ =>
    rw [hpeek] at h
    cases h
    exact .object rfl

/-- Nothing is made of an array or object. -/
theorem stops_scalar {accept : Surface → Except Misfit α}
    (single : ∀ s a, accept s = .ok a → s ≠ .sequence ∧ s ≠ .map) :
    Stops (readScalar accept) fun _ => True := by
  intro v text w rest a r ht hw hr h
  obtain ⟨⟨s, r'⟩, hpeek, h⟩ := ok_of_bind h
  simp only at h
  split at h
  case h_2 => cases h
  case h_1 b haccept =>
    obtain ⟨hsequence, hmap⟩ := single s b haccept
    cases h
    cases peeked ht hw hr hpeek with
    | array _ => exact absurd rfl hsequence
    | object _ => exact absurd rfl hmap
    | single _ _ => exact ⟨rfl, trivial⟩

theorem stops_boolean : Stops readBoolean fun _ => True :=
  stops_scalar fun s b h => by constructor <;> rintro rfl <;> cases h

theorem stops_text : Stops readText fun _ => True :=
  stops_scalar fun s t h => by constructor <;> rintro rfl <;> cases h

theorem stops_natural64 : Stops readNatural64 fun _ => True :=
  stops_scalar fun s n h => by constructor <;> rintro rfl <;> cases h

theorem stops_positive32 : Stops readPositive32 fun _ => True :=
  stops_scalar fun s n h => by constructor <;> rintro rfl <;> cases h

theorem Stops.map {read : Reader α} (g : α → β) (h : Stops read P) :
    Stops (fun s => do let (a, r) ← read s; return (g a, r)) P := by
  intro v text w rest b r ht hw hr hread
  obtain ⟨⟨a, r'⟩, hread, hb⟩ := ok_of_bind hread
  cases hb
  exact h ht hw hr hread

theorem Stops.optional {read : Reader α} (h : Stops read P) (hnull : P .null) :
    Stops (readOptional read) P := by
  intro v text w rest o r ht hw hr hread
  by_cases hv : v = .null
  · subst hv
    cases ht
    rw [readOptional, hw.skipBlanks] at hread
    cases hread
    exact ⟨rfl, hnull⟩
  · rw [readOptional, hw.skipBlanks, ht.starts.skipBlanks] at hread
    split at hread
    case h_1 t he =>
      obtain ⟨c, u, htext, -⟩ := ht.starts
      rw [htext, List.cons_append, List.cons.injEq] at he
      exact absurd (he.1 ▸ htext) (ht.ne_null hv u)
    case h_2 =>
      obtain ⟨⟨a, r'⟩, hread, ho⟩ := ok_of_bind hread
      cases ho
      exact h ht .nil hr hread

/-! ## Arrays -/

theorem readElements_extent {item : Reader α} (h : Stops item P) {es : List Element}
    (written : ∀ e ∈ es, e.Padded ∧ Written e.value e.text) {first : Bool} {fuel : Nat}
    {as : List α}
    (hread : readElements item fuel first (separated first (es.map Element.print) ++ ']' :: rest) =
      .ok (as, r)) : r = rest ∧ ∀ e ∈ es, P e.value := by
  induction es generalizing first fuel as with
  | nil =>
    cases fuel with
    | zero => cases hread
    | succ fuel =>
      cases hread
      exact ⟨rfl, nofun⟩
  | cons e es ih =>
    obtain ⟨⟨he, ht⟩, written⟩ := List.forall_mem_cons.1 written
    cases fuel with
    | zero => cases hread
    | succ fuel =>
      rw [List.map_cons, readElements, nextElement_print first he ht.starts] at hread
      obtain ⟨_, ⟨⟩, hread⟩ := ok_of_bind hread
      obtain ⟨⟨a, r₁⟩, hitem, hread⟩ := ok_of_bind hread
      obtain ⟨⟨as', r₂⟩, helements, hread⟩ := ok_of_bind hread
      cases hread
      have hends := (ends_separated (.inl rfl) (es.map Element.print) rest).blanks he.2
      obtain ⟨rfl, hvalue⟩ := h ht .nil hends hitem
      rw [readElements_blanks he.2] at helements
      obtain ⟨hrest, hvalues⟩ := ih written helements
      exact ⟨hrest, List.forall_mem_cons.2 ⟨hvalue, hvalues⟩⟩

/-- All elements of an array are as their reader wants them. -/
theorem stops_sequence {item : Nat → Reader α} (h : ∀ room, Stops (item room) P) (room : Nat) :
    Stops (readSequence room item) fun v => ∀ vs, v = .array vs → ∀ u ∈ vs, P u := by
  intro v text w rest as r ht hw hr hread
  obtain ⟨⟨s, r'⟩, hpeek, hread⟩ := ok_of_bind hread
  cases peeked ht hw hr hpeek with
  | object _ => cases hread
  | single hsequence _ =>
    cases s with
    | sequence => exact absurd rfl hsequence
    | null | boolean _ | number _ | text _ | map => cases hread
  | array hv =>
    subst hv
    cases ht with
    | @array b es hb padded values =>
      rw [bracketed_append] at hread
      obtain ⟨room', -, hread⟩ := ok_of_bind (x := enter room) hread
      rw [readElements_blanks hb] at hread
      obtain ⟨hrest, hvalues⟩ :=
        readElements_extent (h room') (fun e he => ⟨padded e he, values e he⟩) hread
      refine ⟨hrest, ?_⟩
      intro vs hvs u hu
      cases hvs
      obtain ⟨e, he, rfl⟩ := List.mem_map.1 hu
      exact hvalues e he

/-! ## Maps -/

theorem key_extent {m : WrittenMember} (hm : m.Padded) {k : String}
    (h : textTail (m.key ++ '"' :: rest) = .ok (k, r)) :
    r = rest ∧ ∀ n, m.name = some n → k = n := by
  obtain ⟨-, hkey, -⟩ := hm
  refine ⟨textTail_escaped hkey.escaped h, ?_⟩
  intro n hn
  rw [hn] at hkey
  rw [textTail_spells hkey] at h
  exact (Prod.mk.inj (Except.ok.inj h)).1.symm

/-- The value of a member is met behind its key, and whatever follows it behind that. -/
theorem Stops.member {read : Reader α} (h : Stops read P) {m : WrittenMember} (hm : m.Padded)
    (ht : Written m.element.value m.element.text) (hr : Ends rest) {a : α}
    (hread : read (m.element.print ++ rest) = .ok (a, r)) :
    r = m.element.after ++ rest ∧ P m.element.value := by
  obtain ⟨-, -, -, hbefore, hafter⟩ := hm
  rw [Element.print, List.append_assoc, List.append_assoc] at hread
  exact h ht hbefore (hr.blanks hafter) hread

theorem readMembers_extent {item : Reader α} (h : Stops item P) {ws : List WrittenMember}
    (written : ∀ m ∈ ws, m.Padded ∧ Written m.element.value m.element.text) {first : Bool}
    {fuel : Nat} {as : List (String × α)}
    (hread : readMembers item fuel first
      (separated first (ws.map WrittenMember.print) ++ '\x7d' :: rest) = .ok (as, r)) :
    r = rest ∧ ∀ m ∈ ws, P m.element.value := by
  induction ws generalizing first fuel as with
  | nil =>
    cases fuel with
    | zero => cases hread
    | succ fuel =>
      cases hread
      exact ⟨rfl, nofun⟩
  | cons m ws ih =>
    obtain ⟨⟨hm, ht⟩, written⟩ := List.forall_mem_cons.1 written
    have hends := ends_separated (.inr rfl) (ws.map WrittenMember.print) rest
    cases fuel with
    | zero => cases hread
    | succ fuel =>
      rw [List.map_cons, readMembers, nextMember_padded first hm] at hread
      obtain ⟨_, ⟨⟩, hread⟩ := ok_of_bind hread
      obtain ⟨⟨k, r₁⟩, htail, hread⟩ := ok_of_bind hread
      obtain ⟨rfl, -⟩ := key_extent hm htail
      simp only [colon_blanks hm.2.2.1] at hread
      obtain ⟨_, ⟨⟩, hread⟩ := ok_of_bind hread
      obtain ⟨⟨a, r₂⟩, hitem, hread⟩ := ok_of_bind hread
      obtain ⟨⟨as', r₃⟩, hmembers, hread⟩ := ok_of_bind hread
      cases hread
      obtain ⟨rfl, hvalue⟩ := h.member hm ht hends hitem
      rw [readMembers_blanks hm.2.2.2.2] at hmembers
      obtain ⟨hrest, hvalues⟩ := ih written hmembers
      exact ⟨hrest, List.forall_mem_cons.2 ⟨hvalue, hvalues⟩⟩

/-- All values in a map are as their reader wants them. -/
theorem stops_map {item : Nat → Reader α} (h : ∀ room, Stops (item room) P) (room : Nat) :
    Stops (readMap room item) fun v => ∀ ms, v = .object ms → ∀ m ∈ ms, P m.2 := by
  intro v text w rest as r ht hw hr hread
  obtain ⟨⟨s, r'⟩, hpeek, hread⟩ := ok_of_bind hread
  cases peeked ht hw hr hpeek with
  | array _ => cases hread
  | single _ hmap =>
    cases s with
    | map => exact absurd rfl hmap
    | null | boolean _ | number _ | text _ | sequence => cases hread
  | object hv =>
    subst hv
    cases ht with
    | @object b ws hb padded values =>
      rw [bracketed_append] at hread
      obtain ⟨room', -, hread⟩ := ok_of_bind (x := enter room) hread
      rw [readMembers_blanks hb] at hread
      obtain ⟨hrest, hvalues⟩ :=
        readMembers_extent (h room') (fun m hm => ⟨padded m hm, values m hm⟩) hread
      refine ⟨hrest, ?_⟩
      intro ms hms m hm
      cases hms
      obtain ⟨m', hm', rfl⟩ := List.mem_map.1 hm
      exact hvalues m' hm'

/-! ## Records -/

variable {σ : Type} {room : Nat} {schema : Schema σ} {slots : List (Slot σ)}
  {inner : String → Value → Prop}

/-- A record that is written as an array has at least the elements that are required and at most one
for each slot. `inner` holds of what is written for the slots, in either form. -/
def Counted (slots : List (Slot σ)) (inner : String → Value → Prop) : Value → Prop
  | .array vs => vs.length ≤ slots.length ∧ (∀ s ∈ slots.drop vs.length, s.absent ≠ none) ∧
      ∀ p ∈ slots.zip vs, inner p.1.name p.2
  | .object members => ∀ m ∈ members, ∀ s ∈ slots, m.1 = some s.name → inner s.name m.2
  | .null | .boolean _ | .number _ | .text _ => True

/-- An array may end where no field that is left is required. -/
theorem absent_of_optional {fs : List (Field σ)} {left : List (Slot σ)}
    (suits : List.Forall₂ Suits fs left) (h : fs.findIdx? Field.required = none) :
    ∀ s ∈ left, s.absent ≠ none := by
  rw [List.findIdx?_eq_none_iff] at h
  induction suits with
  | nil => nofun
  | @cons f s fs left hf _ ih =>
    obtain ⟨hoptional, h⟩ := List.forall_mem_cons.1 h
    refine List.forall_mem_cons.2 ⟨fun hs => ?_, ih h⟩
    rw [hf.required, hs] at hoptional
    cases hoptional

theorem closeSequence_extent {es : List Element}
    (written : ∀ e ∈ es, e.Padded ∧ Written e.value e.text) {first : Bool}
    (h : closeSequence (separated first (es.map Element.print) ++ ']' :: rest) = .ok r) :
    es = [] ∧ r = rest := by
  cases es with
  | nil =>
    cases h
    exact ⟨rfl, rfl⟩
  | cons e es =>
    obtain ⟨he, ht⟩ := written e List.mem_cons_self
    rw [List.map_cons, separated] at h
    cases first with
    | false =>
      have hcomma (s : List Char) : skipBlanks (',' :: s) = ',' :: s := rfl
      simp only [Bool.false_eq_true, if_false, List.cons_append, closeSequence, hcomma] at h
      split at h <;> cases h
    | true =>
      obtain ⟨c, t, htext, hblank, hcomma, hbracket, -⟩ := ht.starts
      have hskip (s : List Char) : skipBlanks (e.print ++ s) = c :: (t ++ (e.after ++ s)) := by
        rw [Element.print, List.append_assoc, he.1.skipBlanks, List.append_assoc, htext]
        exact skipBlanks_cons hblank _
      simp only [if_true, List.append_assoc, closeSequence, hskip] at h
      split at h
      case h_1 hs => cases hs
      case h_2 hs => exact absurd (List.cons.inj hs).1 hbracket
      case h_3 hs => exact absurd (List.cons.inj hs).1 hcomma
      case h_4 => cases h

theorem readPositional_extent {es : List Element}
    (written : ∀ e ∈ es, e.Padded ∧ Written e.value e.text) {fs : List (Field σ)}
    {left : List (Slot σ)} (suits : List.Forall₂ Suits fs left)
    (stops : ∀ f ∈ fs, Stops (f.read room) (inner f.name)) {i : Nat} {a b : σ}
    (hread : readPositional schema room fs i a
      (separated (i == 0) (es.map Element.print) ++ ']' :: rest) = .ok (b, r)) :
    r = rest ∧ Counted left inner (.array (es.map Element.value)) := by
  induction suits generalizing es i a with
  | nil =>
    obtain ⟨r', hclose, hread⟩ := ok_of_bind hread
    obtain ⟨rfl, rfl⟩ := closeSequence_extent written hclose
    cases hread
    exact ⟨rfl, Nat.zero_le _, nofun, nofun⟩
  | @cons f s fs left hf suits ih =>
    obtain ⟨hstops, stops⟩ := List.forall_mem_cons.1 stops
    cases es with
    | nil =>
      obtain ⟨_, ⟨⟩, hread⟩ := ok_of_bind hread
      simp only at hread
      split at hread
      · cases hread
      case h_2 hoptional =>
        cases hread
        exact ⟨rfl, Nat.zero_le _, absent_of_optional (.cons hf suits) hoptional, by simp⟩
    | cons e es =>
      obtain ⟨⟨he, ht⟩, written⟩ := List.forall_mem_cons.1 written
      rw [List.map_cons, readPositional, nextElement_print _ he ht.starts] at hread
      obtain ⟨_, ⟨⟩, hread⟩ := ok_of_bind hread
      obtain ⟨⟨change, r₁⟩, hvalue, hread⟩ := ok_of_bind hread
      have hends := (ends_separated (.inl rfl) (es.map Element.print) rest).blanks he.2
      obtain ⟨rfl, hinner⟩ := hstops (w := []) ht .nil hends hvalue
      simp only [readPositional_blanks he.2] at hread
      obtain ⟨hrest, hlen, habsent, hzip⟩ := ih written stops (i := i + 1) hread
      exact ⟨hrest, Nat.succ_le_succ hlen, habsent,
        List.forall_mem_cons.2 ⟨hf.name ▸ hinner, hzip⟩⟩

/-- One member: what follows it is read with what has been told by then. -/
theorem readNamed_member (stops : ∀ f ∈ schema.fields, Stops (f.read room) (inner f.name))
    {m : WrittenMember} (hm : m.Padded) (ht : Written m.element.value m.element.text)
    {ps : List (List Char)} (hends : Ends (separated false ps ++ rest)) {first : Bool} {fuel : Nat}
    {seen : List String} {a b : σ}
    (hread : readNamed schema room (fuel + 1) first seen a
      (separated first (m.print :: ps) ++ rest) = .ok (b, r)) :
    (∀ f ∈ schema.fields, m.name = some f.name → inner f.name m.element.value) ∧
      ∃ seen' a', readNamed schema room fuel false seen' a' (separated false ps ++ rest) =
        .ok (b, r) := by
  rw [readNamed, nextMember_padded first hm] at hread
  obtain ⟨_, ⟨⟩, hread⟩ := ok_of_bind hread
  obtain ⟨⟨k, r₁⟩, htail, hread⟩ := ok_of_bind hread
  obtain ⟨rfl, hname⟩ := key_extent hm htail
  simp only [colon_blanks hm.2.2.1] at hread
  split at hread
  case h_1 f hfind =>
    have hf := List.mem_of_find?_eq_some hfind
    have hk : f.name = k := by simpa using List.find?_some hfind
    split at hread
    · cases hread
    obtain ⟨_, ⟨⟩, hread⟩ := ok_of_bind hread
    obtain ⟨⟨change, r₂⟩, hvalue, hread⟩ := ok_of_bind hread
    obtain ⟨rfl, hinner⟩ := Stops.member (stops f hf) hm ht hends hvalue
    simp only [readNamed_blanks hm.2.2.2.2] at hread
    refine ⟨fun g hg hn => ?_, _, _, hread⟩
    rw [← hname g.name hn, ← hk]
    exact hinner
  case h_2 hfind =>
    obtain ⟨_, ⟨⟩, hread⟩ := ok_of_bind hread
    obtain ⟨r₂, hskip, hread⟩ := ok_of_bind hread
    have hskipped := skipValue_written ht hm.2.2.2.1 (hends.blanks hm.2.2.2.2)
    rw [Element.print, List.append_assoc, List.append_assoc, hskipped] at hskip
    cases hskip
    rw [readNamed_blanks hm.2.2.2.2] at hread
    refine ⟨fun g hg hn => ?_, _, _, hread⟩
    exact absurd (beq_iff_eq.2 (hname g.name hn).symm) (List.find?_eq_none.1 hfind g hg)

theorem readNamed_extent (stops : ∀ f ∈ schema.fields, Stops (f.read room) (inner f.name))
    {ws : List WrittenMember}
    (written : ∀ m ∈ ws, m.Padded ∧ Written m.element.value m.element.text) {first : Bool}
    {fuel : Nat} {seen : List String} {a b : σ}
    (hread : readNamed schema room fuel first seen a
      (separated first (ws.map WrittenMember.print) ++ '\x7d' :: rest) = .ok (b, r)) :
    r = rest ∧ ∀ m ∈ ws, ∀ f ∈ schema.fields, m.name = some f.name →
      inner f.name m.element.value := by
  induction ws generalizing first fuel seen a with
  | nil =>
    cases fuel with
    | zero => cases hread
    | succ fuel =>
      obtain ⟨_, ⟨⟩, hread⟩ := ok_of_bind hread
      simp only at hread
      split at hread
      · cases hread
      · cases hread
        exact ⟨rfl, nofun⟩
  | cons m ws ih =>
    obtain ⟨⟨hm, ht⟩, written⟩ := List.forall_mem_cons.1 written
    have hends := ends_separated (.inr rfl) (ws.map WrittenMember.print) rest
    cases fuel with
    | zero => cases hread
    | succ fuel =>
      obtain ⟨hmember, _, _, hread⟩ := readNamed_member stops hm ht hends hread
      obtain ⟨hrest, hmembers⟩ := ih written hread
      exact ⟨hrest, List.forall_mem_cons.2 ⟨hmember, hmembers⟩⟩

/-- A record from which anything is read has the right number of elements, and so have those in it
as far as its fields see to that. -/
theorem stops_record (suits : List.Forall₂ Suits schema.fields slots)
    (stops : ∀ f ∈ schema.fields, ∀ room, Stops (f.read room) (inner f.name)) (room : Nat) :
    Stops (schema.read room) (Counted slots inner) := by
  intro v text w rest a r ht hw hr hread
  obtain ⟨⟨s, r'⟩, hpeek, hread⟩ := ok_of_bind hread
  cases peeked ht hw hr hpeek with
  | single hsequence hmap =>
    cases s with
    | map => exact absurd rfl hmap
    | sequence => exact absurd rfl hsequence
    | null | boolean _ | number _ | text _ => cases hread
  | array hv =>
    subst hv
    cases ht with
    | @array b es hb padded values =>
      rw [bracketed_append] at hread
      obtain ⟨room', -, hread⟩ := ok_of_bind (x := enter room) hread
      rw [readPositional_blanks hb] at hread
      exact readPositional_extent (fun e he => ⟨padded e he, values e he⟩) suits
        (fun f hf => stops f hf room') (i := 0) hread
  | object hv =>
    subst hv
    cases ht with
    | @object b ws hb padded values =>
      rw [bracketed_append] at hread
      obtain ⟨room', -, hread⟩ := ok_of_bind (x := enter room) hread
      rw [readNamed_blanks hb] at hread
      obtain ⟨hrest, hmembers⟩ := readNamed_extent (fun f hf => stops f hf room')
        (fun m hm => ⟨padded m hm, values m hm⟩) hread
      refine ⟨hrest, ?_⟩
      intro m hm s hs hn
      obtain ⟨m', hm', rfl⟩ := List.mem_map.1 hm
      obtain ⟨f, hf, hname⟩ := List.mem_map.1 (Suits.names suits ▸ List.mem_map_of_mem hs)
      exact hname ▸ hmembers m' hm' f hf (hname ▸ hn)

theorem stops_field {β : Type} {name : String} {required : Bool} {read : Nat → Reader β}
    {set : β → σ → σ} (h : ∀ room, Stops (read room) P) (hPQ : ∀ v, P v → Q v) (room : Nat) :
    Stops ((Field.of name required read set).read room) Q :=
  ((h room).map set).imp hPQ

/-- Of a whole text only that can be read which `P` holds of. -/
theorem Stops.readAll {read : Nat → Reader α} (h : Stops (read roomAtTop) P)
    (ht : Written v text) {u : List Char} (hw : Blanks w) (hu : Blanks u) {a : α}
    (hread : Json.readAll read (String.ofList (w ++ (text ++ u))) = .ok a) : P v := by
  have hends : Ends u := List.append_nil u ▸ Ends.nil.blanks hu
  rw [Json.readAll, String.toList_ofList] at hread
  obtain ⟨⟨a', r⟩, hvalue, -⟩ := ok_of_bind hread
  exact (h ht hw hends hvalue).2

end StandingQuery.Json
