import StandingQuery.Proofs.Json.Meaning
import StandingQuery.Proofs.Json.Skip

/-! Readers for single values, arrays and maps make of every written value what it means. Blanks
before the value are passed over, and the text behind it is left. -/

namespace StandingQuery.Json

variable {α β : Type} {read : Reader α} {text : List Char} {a : α} {v : Value}

/-! ## Single values -/

theorem takes_boolean {b : Bool} (hv : v.IsBoolean b) (ht : Written v text) :
    Takes readBoolean text b := by
  subst hv
  cases ht with
  | boolean b => exact (peeks_boolean b).accept rfl

theorem takes_text {s : String} (hv : v.IsText s) (ht : Written v text) :
    Takes readText text s := by
  subst hv
  cases ht with
  | text h => exact (peeks_text h).accept rfl

theorem takes_natural64 {n : UInt64} (hv : v.IsInteger n.toNat) (ht : Written v text) :
    Takes readNatural64 text n := by
  obtain ⟨l, rfl, hl⟩ := hv
  cases ht with
  | number l => exact takes_integer64 hl

theorem takes_positive32 {n : { n : UInt32 // n ≠ 0 }} (hv : v.IsInteger n.1.toNat)
    (ht : Written v text) : Takes readPositive32 text n := by
  obtain ⟨l, rfl, hl⟩ := hv
  cases ht with
  | number l => exact takes_integer32 hl

/-- Only null starts with its first letter. -/
theorem Written.ne_null (ht : Written v text) (hv : v ≠ .null) (r : List Char) :
    text ≠ 'n' :: r := by
  intro he
  cases ht with
  | null => exact hv rfl
  | boolean b => cases b <;> cases he
  | number l =>
    obtain ⟨c, s, hl, hc⟩ := print_eq_cons l
    rw [hl, List.cons.injEq] at he
    rw [he.1] at hc
    exact absurd hc (by decide)
  | text _ => cases he
  | array _ _ _ => cases he
  | object _ _ _ => cases he

/-- Null is nothing, and any other value is what it is without null. -/
theorem takes_optional {means : Value → α → Prop} {o : Option α} (hv : OrNull means v o)
    (ht : Written v text) (nonnull : ∀ a, ¬ means .null a)
    (taken : ∀ a, means v a → Takes read text a) : Takes (readOptional read) text o := by
  intro w rest hw hr
  cases hv with
  | null =>
    cases ht
    rw [readOptional, hw.skipBlanks]
    rfl
  | @value v a hv =>
    have hstart : skipBlanks (w ++ (text ++ rest)) = text ++ rest := by
      rw [hw.skipBlanks, ht.starts.skipBlanks]
    have hne : v ≠ .null := by
      rintro rfl
      exact nonnull a hv
    have hread := taken a hv [] rest .nil hr
    rw [List.nil_append] at hread
    rw [readOptional, hstart]
    split
    case h_1 r he =>
      obtain ⟨c, t, htext, -⟩ := ht.starts
      rw [htext, List.cons_append, List.cons.injEq] at he
      exact absurd (he.1 ▸ htext) (ht.ne_null hne t)
    case h_2 =>
      rw [hread]
      rfl

/-! ## Arrays -/

theorem Element.print_ne_nil {e : Element} (h : Starts e.text) : e.print ≠ [] := by
  obtain ⟨c, r, ht, -⟩ := h
  simp [Element.print, ht]

/-- The next element is found, behind a comma unless it is the first. -/
theorem nextElement_print (first : Bool) {e : Element} (he : e.Padded) (hs : Starts e.text)
    (ps : List (List Char)) (s : List Char) :
    nextElement first (separated first (e.print :: ps) ++ s) =
      .ok (some (e.text ++ (e.after ++ (separated false ps ++ s)))) := by
  obtain ⟨hfirst, hcomma⟩ := nextElement_element he hs (separated false ps ++ s)
  cases first with
  | true =>
    rw [← hfirst]
    simp [separated]
  | false =>
    rw [← hcomma]
    simp [separated]

theorem nextElement_blanks {w : List Char} (hw : Blanks w) (first : Bool) (s : List Char) :
    nextElement first (w ++ s) = nextElement first s := by
  simp only [nextElement, hw.skipBlanks]

theorem closeSequence_blanks {w : List Char} (hw : Blanks w) (s : List Char) :
    closeSequence (w ++ s) = closeSequence s := by
  simp only [closeSequence, hw.skipBlanks]

theorem readElements_blanks {item : Reader α} {w : List Char} (hw : Blanks w) (fuel : Nat)
    (first : Bool) (s : List Char) :
    readElements item fuel first (w ++ s) = readElements item fuel first s := by
  cases fuel with
  | zero => rfl
  | succ fuel => simp only [readElements, nextElement_blanks hw, closeSequence_blanks hw]

/-- Elements that stand for `as`, each of which the reader takes. -/
theorem readElements_taken {item : Reader α} {es : List Element} {as : List α}
    (h : List.Forall₂ (fun e a => e.Padded ∧ Starts e.text ∧ Takes item e.text a) es as)
    (first : Bool) {fuel : Nat} (hfuel : es.length < fuel) (rest : List Char) :
    readElements item fuel first (separated first (es.map Element.print) ++ ']' :: rest) =
      .ok (as, rest) := by
  induction h generalizing first fuel with
  | nil =>
    obtain ⟨fuel, rfl⟩ := Nat.exists_eq_add_one.2 (Nat.zero_lt_of_lt hfuel)
    rfl
  | @cons e a es as h _ ih =>
    obtain ⟨fuel, rfl⟩ := Nat.exists_eq_add_one.2 (Nat.zero_lt_of_lt hfuel)
    obtain ⟨he, hs, htake⟩ := h
    have hends := ends_separated (.inl rfl) (es.map Element.print) rest
    have hitem := htake [] _ .nil (hends.blanks he.2)
    rw [List.nil_append] at hitem
    rw [List.map_cons, readElements, nextElement_print first he hs]
    simp only [bind, Except.bind, hitem, readElements_blanks he.2,
      ih false (Nat.lt_of_succ_lt_succ hfuel)]
    rfl

/-- At least one character belongs to each part. -/
theorem length_lt_fuel {ps : List (List Char)} (s : List Char) (h : ∀ p ∈ ps, p ≠ []) :
    ps.length < (separated true ps ++ s).length + 1 := by
  have := length_le_length_separated true h
  rw [List.length_append]
  omega

/-- An array or object behind its opening bracket, with the blanks of an empty one. -/
theorem bracketed_append (opening closing : Char) (w : List Char) (ps : List (List Char))
    (rest : List Char) : opening :: (w ++ commaSeparated ps) ++ [closing] ++ rest =
      opening :: (w ++ (separated true ps ++ closing :: rest)) := by
  simp [commaSeparated_eq]

theorem takes_sequence {means : Value → α → Prop} {item : Nat → Reader α} {room : Nat} {as : List α}
    (hv : MeansList means v as) (ht : Written v text)
    (taken : ∀ v a t, means v a → Written v t → Takes (item (room + 1)) t a) :
    Takes (readSequence (room + 2) item) text as := by
  obtain ⟨hmeans⟩ := hv
  cases ht with
  | @array b es hb padded values =>
    intro w rest hw hr
    have parts :
        List.Forall₂ (fun e a => e.Padded ∧ Starts e.text ∧ Takes (item (room + 1)) e.text a)
        es as := by
      have known := (List.forall₂_and_left _ _).2
        ⟨fun e he => And.intro (padded e he) (values e he), List.forall₂_map_left_iff.1 hmeans⟩
      exact known.imp fun e a ⟨⟨hp, ht⟩, hm⟩ => ⟨hp, ht.starts, taken _ _ _ hm ht⟩
    have printed : ∀ p ∈ es.map Element.print, p ≠ [] :=
      List.forall_mem_map.2 fun e he => Element.print_ne_nil (values e he).starts
    have hfuel := length_lt_fuel (']' :: rest) printed
    rw [List.length_map] at hfuel
    rw [bracketed_append, readSequence, peekSurface_blanks hw]
    show (do readElements (item (← enter (room + 2))) _ true _) = _
    rw [enter_add_two]
    show readElements _ _ _ _ = _
    rw [readElements_blanks hb]
    exact readElements_taken parts true (by rw [List.length_append]; omega) rest

/-! ## Maps -/

theorem nextMember_blanks {w : List Char} (hw : Blanks w) (first : Bool) (s : List Char) :
    nextMember first (w ++ s) = nextMember first s := by
  simp only [nextMember, hw.skipBlanks]

theorem members_ne_nil (ws : List WrittenMember) : ∀ p ∈ ws.map WrittenMember.print, p ≠ [] :=
  List.forall_mem_map.2 fun m _ => by simp [WrittenMember.print]

theorem nextMember_padded (first : Bool) {m : WrittenMember} (hm : m.Padded)
    (ps : List (List Char)) (s : List Char) :
    nextMember first (separated first (m.print :: ps) ++ s) =
      .ok (.key (m.key ++ '"' :: (m.beforeColon ++ ':' ::
        (m.element.print ++ (separated false ps ++ s))))) := by
  obtain ⟨hfirst, hcomma⟩ := nextMember_member hm (separated false ps ++ s)
  cases first with
  | true =>
    rw [← hfirst]
    simp [separated]
  | false =>
    rw [← hcomma]
    simp [separated]

/-- The next key is found, and behind it its value. -/
theorem nextMember_print (first : Bool) {m : WrittenMember} {k : String} (hm : m.Padded)
    (hk : m.name = some k) (ps : List (List Char)) (s : List Char) :
    ∃ t u, nextMember first (separated first (m.print :: ps) ++ s) = .ok (.key t) ∧
      textTail t = .ok (k, u) ∧ colon u = .ok (m.element.print ++ (separated false ps ++ s)) := by
  have next := nextMember_padded first hm ps s
  obtain ⟨-, hkey, hcolon, -⟩ := hm
  rw [hk] at hkey
  exact ⟨_, _, next, textTail_spells hkey _, colon_blanks hcolon _⟩

theorem readMembers_blanks {item : Reader α} {w : List Char} (hw : Blanks w) (fuel : Nat)
    (first : Bool) (s : List Char) :
    readMembers item fuel first (w ++ s) = readMembers item fuel first s := by
  cases fuel with
  | zero => rfl
  | succ fuel => simp only [readMembers, nextMember_blanks hw]

theorem Takes.element {e : Element} (h : Takes read e.text a) (he : e.Padded) {rest : List Char}
    (hr : Ends rest) : read (e.print ++ rest) = .ok (a, e.after ++ rest) := by
  rw [Element.print, List.append_assoc, List.append_assoc]
  exact h _ _ he.1 (hr.blanks he.2)

theorem Declines.element {el : Element} {e : Failure} (h : Declines read el.text e)
    (he : el.Padded) {rest : List Char} (hr : Ends rest) : read (el.print ++ rest) = .error e := by
  rw [Element.print, List.append_assoc, List.append_assoc]
  exact h _ _ he.1 (hr.blanks he.2)

/-- A member of that name and value is written here. -/
structure WrittenMember.Shows (m : WrittenMember) (n : String × Value) : Prop where
  padded : m.Padded
  named : m.name = some n.1
  written : Written n.2 m.element.text

/-- An object is written as its members are, one after another. -/
theorem Written.members {ms : Members} (h : Written (.object ms.keyed) text) :
    ∃ b ws, Blanks b ∧ List.Forall₂ WrittenMember.Shows ws ms ∧
      text = '\x7b' :: (b ++ commaSeparated (ws.map WrittenMember.print)) ++ ['\x7d'] := by
  generalize hkeyed : ms.keyed = members at h
  cases h with
  | @object b ws hb padded values =>
    have same : List.Forall₂ (fun (w : WrittenMember) (m : String × Value) =>
        (w.name, w.element.value) = (some m.1, m.2)) ws ms := by
      refine List.forall₂_map_left_iff.1 (List.forall₂_map_right_iff (R := Eq).1 ?_)
      rw [List.forall₂_eq_eq_eq]
      exact hkeyed.symm
    have known := (List.forall₂_and_left _ _).2
      ⟨fun w hw => And.intro (padded w hw) (values w hw), same⟩
    refine ⟨b, ws, hb, known.imp fun w m ⟨⟨hp, ht⟩, he⟩ => ?_, rfl⟩
    obtain ⟨hname, hvalue⟩ := Prod.mk.inj he
    exact ⟨hp, hname, hvalue ▸ ht⟩

theorem readMembers_taken {item : Reader α} {ws : List WrittenMember} {ms : Members}
    {pairs : List (String × α)} (shown : List.Forall₂ WrittenMember.Shows ws ms)
    (taken : List.Forall₂ (fun m p => m.1 = p.1 ∧ ∀ t, Written m.2 t → Takes item t p.2) ms pairs)
    (first : Bool) {fuel : Nat} (hfuel : ws.length < fuel) (rest : List Char) :
    readMembers item fuel first (separated first (ws.map WrittenMember.print) ++ '\x7d' :: rest) =
      .ok (pairs, rest) := by
  induction shown generalizing pairs first fuel with
  | nil =>
    cases taken
    obtain ⟨fuel, rfl⟩ := Nat.exists_eq_add_one.2 (Nat.zero_lt_of_lt hfuel)
    rfl
  | @cons w m ws ms h _ ih =>
    obtain _ | ⟨⟨hname, htake⟩, taken⟩ := taken
    obtain ⟨fuel, rfl⟩ := Nat.exists_eq_add_one.2 (Nat.zero_lt_of_lt hfuel)
    have hends := ends_separated (.inr rfl) (ws.map WrittenMember.print) rest
    have hitem := (htake _ h.written).element h.padded.2.2.2 hends
    obtain ⟨t, u, hkey, htail, hcolon⟩ := nextMember_print first h.padded h.named
      (ws.map WrittenMember.print) ('\x7d' :: rest)
    rw [List.map_cons, readMembers, hkey]
    simp only [bind, Except.bind, htail, hcolon, hitem, readMembers_blanks h.padded.2.2.2.2,
      ih taken false (Nat.lt_of_succ_lt_succ hfuel), hname]
    rfl

theorem takes_map {means : Value → α → Prop} {item : Nat → Reader α} {room : Nat}
    {pairs : List (String × α)} (hv : MeansMap means v pairs) (ht : Written v text)
    (taken : ∀ v a t, means v a → Written v t → Takes (item (room + 1)) t a) :
    Takes (readMap (room + 2) item) text pairs := by
  obtain ⟨hmeans⟩ := hv
  obtain ⟨b, ws, hb, shown, rfl⟩ := ht.members
  intro w rest hw hr
  have hfuel := length_lt_fuel ('\x7d' :: rest) (members_ne_nil ws)
  rw [List.length_map] at hfuel
  rw [bracketed_append, readMap, peekSurface_blanks hw]
  show (do readMembers (item (← enter (room + 2))) _ true _) = _
  rw [enter_add_two]
  show readMembers _ _ _ _ = _
  rw [readMembers_blanks hb]
  refine readMembers_taken shown (hmeans.imp fun m p ⟨hname, hm⟩ => ⟨hname, fun t ht => ?_⟩) true
    (by rw [List.length_append]; omega) rest
  exact taken _ _ _ hm ht

end StandingQuery.Json
