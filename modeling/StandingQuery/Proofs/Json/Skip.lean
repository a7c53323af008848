import StandingQuery.Proofs.Json.Lexeme
import StandingQuery.Proofs.Json.Record

/-! A value that nobody asked for is passed over, however deep it is nested and whatever stands in
it, if it is well formed. The stages that the walk takes for it are counted against its length, so
the walk never runs out of them. -/

namespace StandingQuery.Json

/-! ## Where a value begins -/

/-- The first character is that of a value. -/
def Starts (t : List Char) : Prop :=
  ∃ c r, t = c :: r ∧ isBlank c = false ∧ c ≠ ',' ∧ c ≠ ']' ∧ c ≠ '\x7d'

theorem Written.starts {v : Value} {t : List Char} (h : Written v t) : Starts t := by
  cases h with
  | null => exact ⟨_, _, rfl, by decide⟩
  | boolean b => cases b <;> exact ⟨_, _, rfl, by decide⟩
  | number l =>
    obtain ⟨c, r, hl, hc⟩ := print_eq_cons l
    obtain ⟨hblank, hother⟩ := numeric_spec hc
    simp only [List.mem_cons, not_or] at hother
    exact ⟨c, r, hl, hblank, by simp [hother]⟩
  | text _ => exact ⟨_, _, rfl, by decide⟩
  | array _ _ _ => exact ⟨_, _, rfl, by decide⟩
  | object _ _ _ => exact ⟨_, _, rfl, by decide⟩

theorem Starts.skipBlanks {t : List Char} (h : Starts t) (s : List Char) :
    skipBlanks (t ++ s) = t ++ s := by
  obtain ⟨c, r, rfl, hc, -⟩ := h
  exact skipBlanks_cons hc _

/-! ## Behind a bracket or a comma -/

theorem nextElement_first {s r : List Char} {c : Char} (h : skipBlanks s = c :: r) (hc : c ≠ ']') :
    nextElement true s = .ok (some (c :: r)) := by
  simp only [nextElement, h, if_true]

theorem nextElement_comma {s r : List Char} {c : Char} (h : skipBlanks s = c :: r) (hc : c ≠ ']') :
    nextElement false (',' :: s) = .ok (some (c :: r)) := by
  have hcomma : skipBlanks (',' :: s) = ',' :: s := rfl
  simp [nextElement, hcomma, h, hc]

theorem nextElement_element {e : Element} (he : e.Padded) (hs : Starts e.text) (s : List Char) :
    nextElement true (e.print ++ s) = .ok (some (e.text ++ (e.after ++ s))) ∧
      nextElement false (',' :: (e.print ++ s)) = .ok (some (e.text ++ (e.after ++ s))) := by
  have hskip : skipBlanks (e.print ++ s) = e.text ++ (e.after ++ s) := by
    rw [Element.print, List.append_assoc, he.1.skipBlanks, List.append_assoc, hs.skipBlanks]
  obtain ⟨c, r, ht, -, -, hc, -⟩ := hs
  rw [ht, List.cons_append] at hskip ⊢
  exact ⟨nextElement_first hskip hc, nextElement_comma hskip hc⟩

theorem nextMember_member {m : WrittenMember} (hm : m.Padded) (s : List Char) :
    nextMember true (m.print ++ s) =
        .ok (.key (m.key ++ '"' :: (m.beforeColon ++ ':' :: (m.element.print ++ s)))) ∧
      nextMember false (',' :: (m.print ++ s)) =
        .ok (.key (m.key ++ '"' :: (m.beforeColon ++ ':' :: (m.element.print ++ s)))) := by
  have hskip : skipBlanks (m.print ++ s) =
      '"' :: (m.key ++ '"' :: (m.beforeColon ++ ':' :: (m.element.print ++ s))) := by
    rw [WrittenMember.print, List.append_assoc, hm.1.skipBlanks]
    simp [skipBlanks_cons (c := '"') rfl]
  have hcomma : skipBlanks (',' :: (m.print ++ s)) = ',' :: (m.print ++ s) := rfl
  constructor
  · rw [nextMember, hskip]
    rfl
  · simp [nextMember, hcomma, hskip]

theorem colon_blanks {w : List Char} (hw : Blanks w) (s : List Char) :
    colon (w ++ ':' :: s) = .ok s := by
  have hskip : skipBlanks (w ++ ':' :: s) = ':' :: s := hw.skipBlanks _
  rw [colon, hskip]
  rfl

/-- Behind a part, the text goes on with a comma or the bracket that ends it all. -/
theorem ends_separated {c : Char} (hc : c = ']' ∨ c = '\x7d') (ps : List (List Char))
    (rest : List Char) : Ends (separated false ps ++ c :: rest) := by
  cases ps with
  | nil => exact .cons (.inr hc) _
  | cons p ps => exact .cons (.inl rfl) _

/-! ## Stages -/

namespace Walk

variable {fuel : Nat} {frame : Frame} {frames : List Frame} {w s rest : List Char}

theorem run_value_blanks (hw : Blanks w) (frames : List Frame) (s : List Char) :
    run .lenient fuel ⟨.value, frames, w ++ s⟩ = run .lenient fuel ⟨.value, frames, s⟩ := by
  cases fuel with
  | zero => rfl
  | succ fuel => simp only [run, value, hw.skipBlanks]

theorem run_next_blanks (hw : Blanks w) (frame : Frame) (frames : List Frame) (s : List Char) :
    run .lenient fuel ⟨.next, frame :: frames, w ++ s⟩ =
      run .lenient fuel ⟨.next, frame :: frames, s⟩ := by
  cases fuel with
  | zero => rfl
  | succ fuel => simp only [run, next, hw.skipBlanks]

theorem run_first_blanks (hw : Blanks w) (frame : Frame) (frames : List Frame) (s : List Char) :
    run .lenient fuel ⟨.first, frame :: frames, w ++ s⟩ =
      run .lenient fuel ⟨.first, frame :: frames, s⟩ := by
  cases fuel with
  | zero => rfl
  | succ fuel =>
    cases frame <;> simp only [run, first, nextElement, closeSequence, nextMember, hw.skipBlanks]

/-- The bracket that ends a frame. -/
def closing : Frame → Char
  | .sequence => ']'
  | .map => '\x7d'

theorem closing_eq (frame : Frame) : closing frame = ']' ∨ closing frame = '\x7d' := by
  cases frame with
  | sequence => exact .inl rfl
  | map => exact .inr rfl

theorem run_next_closing :
    run .lenient (fuel + 1) ⟨.next, frame :: frames, closing frame :: rest⟩ =
      run .lenient fuel ⟨.next, frames, rest⟩ := by
  cases frame <;> rfl

theorem run_first_closing :
    run .lenient (fuel + 1) ⟨.first, frame :: frames, closing frame :: rest⟩ =
      run .lenient fuel ⟨.next, frames, rest⟩ := by
  cases frame <;> rfl

/-! ## Values and parts -/

/-- The value is passed over in so many stages that two of them take a character at least. -/
def Passes (t : List Char) : Prop :=
  ∃ k ≤ 2 * t.length, ∀ fuel frames rest, Ends rest →
    run .lenient (fuel + k) ⟨.value, frames, t ++ rest⟩ = run .lenient fuel ⟨.next, frames, rest⟩

/-- So is an element or a member, behind a comma or as the first of its frame. -/
def PassesPart (frame : Frame) (p : List Char) : Prop :=
  ∃ k ≤ 2 * p.length + 1, ∀ fuel frames rest, Ends rest →
    run .lenient (fuel + k) ⟨.next, frame :: frames, ',' :: (p ++ rest)⟩ =
        run .lenient fuel ⟨.next, frame :: frames, rest⟩ ∧
      run .lenient (fuel + k) ⟨.first, frame :: frames, p ++ rest⟩ =
        run .lenient fuel ⟨.next, frame :: frames, rest⟩

theorem Passes.scalar {t : List Char} (hlen : 0 < t.length)
    (h : ∀ frames rest, Ends rest →
      value .lenient frames (t ++ rest) = .ok ⟨.next, frames, rest⟩) : Passes t := by
  refine ⟨1, by omega, fun fuel frames rest hr => ?_⟩
  simp only [run, h frames rest hr, bind, Except.bind]

theorem PassesPart.element {e : Element} (he : e.Padded) (hs : Starts e.text)
    (h : Passes e.text) : PassesPart .sequence e.print := by
  obtain ⟨k, hk, hvalue⟩ := h
  refine ⟨k + 1, ?_, fun fuel frames rest hr => ?_⟩
  · rw [Element.print, List.length_append, List.length_append]
    omega
  have value_of :
      run .lenient (fuel + k) ⟨.value, .sequence :: frames, e.text ++ (e.after ++ rest)⟩ =
      run .lenient fuel ⟨.next, .sequence :: frames, rest⟩ := by
    rw [hvalue fuel _ _ (hr.blanks he.2), run_next_blanks he.2]
  constructor
  · have hstep :
        run .lenient (fuel + k + 1) ⟨.next, .sequence :: frames, ',' :: (e.print ++ rest)⟩ =
        run .lenient (fuel + k) ⟨.value, .sequence :: frames, e.print ++ rest⟩ := rfl
    rw [← Nat.add_assoc, hstep, Element.print, List.append_assoc, run_value_blanks he.1,
      List.append_assoc, value_of]
  · have hstep : first .lenient .sequence frames (e.print ++ rest) =
        .ok ⟨.value, .sequence :: frames, e.text ++ (e.after ++ rest)⟩ := by
      simp only [first, (nextElement_element he hs rest).1, bind, Except.bind]
      rfl
    rw [← Nat.add_assoc]
    simp only [run, hstep, bind, Except.bind, value_of]

theorem PassesPart.member {m : WrittenMember} (hm : m.Padded) (h : Passes m.element.text) :
    PassesPart .map m.print := by
  obtain ⟨k, hk, hvalue⟩ := h
  obtain ⟨hbefore, hkey, hcolon, he⟩ := hm
  refine ⟨k + 1, ?_, fun fuel frames rest hr => ?_⟩
  · simp only [WrittenMember.print, Element.print, List.length_append, List.length_cons]
    omega
  have value_of : run .lenient (fuel + k) ⟨.value, .map :: frames, m.element.print ++ rest⟩ =
      run .lenient fuel ⟨.next, .map :: frames, rest⟩ := by
    rw [Element.print, List.append_assoc, run_value_blanks he.1, List.append_assoc,
      hvalue fuel _ _ (hr.blanks he.2), run_next_blanks he.2]
  have key_of : Care.lenient.key
      (m.key ++ '"' :: (m.beforeColon ++ ':' :: (m.element.print ++ rest))) =
        .ok (m.element.print ++ rest) := by
    simp only [Care.key, Care.text, skipText_escaped hkey.escaped, bind, Except.bind]
    exact colon_blanks hcolon _
  have hskip : skipBlanks (m.print ++ rest) =
      '"' :: (m.key ++ '"' :: (m.beforeColon ++ ':' :: (m.element.print ++ rest))) := by
    rw [WrittenMember.print, List.append_assoc, hbefore.skipBlanks]
    simp [skipBlanks_cons (c := '"') rfl]
  constructor
  · have hstep : next .lenient .map frames (',' :: (m.print ++ rest)) =
        .ok ⟨.value, .map :: frames, m.element.print ++ rest⟩ := by
      show (do return ⟨.value, .map :: frames,
        ← Care.lenient.key (← Care.lenient.keyAfterComma (m.print ++ rest))⟩ :
            Except Failure Walk) = _
      simp only [Care.keyAfterComma, hskip, key_of, bind, Except.bind]
      rfl
    rw [← Nat.add_assoc]
    simp only [run, hstep, bind, Except.bind, value_of]
  · have hstep : first .lenient .map frames (m.print ++ rest) =
        .ok ⟨.value, .map :: frames, m.element.print ++ rest⟩ := by
      simp only [first, (nextMember_member ⟨hbefore, hkey, hcolon, he⟩ rest).1, key_of, bind,
        Except.bind]
      rfl
    rw [← Nat.add_assoc]
    simp only [run, hstep, bind, Except.bind, value_of]

/-- What is left of a frame: each further part behind a comma, and the bracket. -/
theorem run_separated {ps : List (List Char)} (h : ∀ p ∈ ps, PassesPart frame p) :
    ∃ k ≤ 2 * (separated false ps).length + 1, ∀ fuel frames rest,
      run .lenient (fuel + k)
          ⟨.next, frame :: frames, separated false ps ++ closing frame :: rest⟩ =
        run .lenient fuel ⟨.next, frames, rest⟩ := by
  induction ps with
  | nil => exact ⟨1, Nat.le_refl 1, fun fuel frames rest => run_next_closing⟩
  | cons p ps ih =>
    obtain ⟨i, hi, hpart⟩ := h p List.mem_cons_self
    obtain ⟨j, hj, hrest⟩ := ih fun q hq => h q (List.mem_cons_of_mem _ hq)
    refine ⟨j + i, ?_, fun fuel frames rest => ?_⟩
    · simp only [separated, Bool.false_eq_true, if_false, List.length_append, List.length_cons]
      omega
    have hends : Ends (separated false ps ++ closing frame :: rest) :=
      ends_separated (closing_eq frame) ps rest
    have htext : separated false (p :: ps) ++ closing frame :: rest =
        ',' :: (p ++ (separated false ps ++ closing frame :: rest)) := by
      simp [separated]
    rw [htext, ← Nat.add_assoc, (hpart _ _ _ hends).1, hrest]

/-- A whole array or object, behind its opening bracket. -/
theorem run_bracketed (hw : Blanks w) {ps : List (List Char)}
    (h : ∀ p ∈ ps, PassesPart frame p) :
    ∃ k ≤ 2 * (w ++ commaSeparated ps).length + 2, ∀ fuel frames rest,
      run .lenient (fuel + k)
          ⟨.first, frame :: frames, w ++ (commaSeparated ps ++ closing frame :: rest)⟩ =
        run .lenient fuel ⟨.next, frames, rest⟩ := by
  cases ps with
  | nil =>
    refine ⟨1, by omega, fun fuel frames rest => ?_⟩
    rw [run_first_blanks hw]
    exact run_first_closing
  | cons p ps =>
    obtain ⟨i, hi, hpart⟩ := h p List.mem_cons_self
    obtain ⟨j, hj, hrest⟩ := run_separated fun q hq => h q (List.mem_cons_of_mem _ hq)
    have htext : commaSeparated (p :: ps) = p ++ separated false ps := by
      simp [commaSeparated_eq, separated]
    refine ⟨j + i, ?_, fun fuel frames rest => ?_⟩
    · rw [htext, List.length_append, List.length_append]
      omega
    have hends : Ends (separated false ps ++ closing frame :: rest) :=
      ends_separated (closing_eq frame) ps rest
    rw [run_first_blanks hw, htext, List.append_assoc, ← Nat.add_assoc, (hpart _ _ _ hends).2,
      hrest]

theorem passes_bracketed (frame : Frame) (hw : Blanks w) {ps : List (List Char)}
    (h : ∀ p ∈ ps, PassesPart frame p) {opening : Char} (hvalue : ∀ frames s,
      value .lenient frames (opening :: s) = .ok ⟨.first, frame :: frames, s⟩) :
    Passes (opening :: (w ++ commaSeparated ps) ++ [closing frame]) := by
  obtain ⟨k, hk, hrun⟩ := run_bracketed hw h
  refine ⟨k + 1, ?_, fun fuel frames rest _ => ?_⟩
  · simp only [List.cons_append, List.length_cons, List.length_append, List.length_nil] at hk ⊢
    omega
  have htext : opening :: (w ++ commaSeparated ps) ++ [closing frame] ++ rest =
      opening :: (w ++ (commaSeparated ps ++ closing frame :: rest)) := by
    simp
  rw [htext, ← Nat.add_assoc]
  simp only [run, hvalue, bind, Except.bind, hrun]

theorem value_number (l : NumberLiteral) (frames : List Frame) (hr : Ends rest) :
    value .lenient frames (l.print ++ rest) = .ok ⟨.next, frames, rest⟩ := by
  have hscan := Numeral.scan_literal (.malformed .badNumber) l hr
  obtain ⟨c, r, hl, hc⟩ := print_eq_cons l
  obtain ⟨hblank, hother⟩ := numeric_spec hc
  rw [hl, List.cons_append] at hscan ⊢
  rw [value, skipBlanks_cons hblank]
  split
  case h_8 he =>
    cases he
    rw [if_pos hc]
    simp only [Care.numeral, hscan, bind, Except.bind]
    rfl
  all_goals
    rename_i he
    cases he
    try exact absurd hother (by decide)

theorem passes {v : Value} {t : List Char} (h : Written v t) : Passes t := by
  induction h with
  | null => exact .scalar (Nat.zero_lt_succ _) fun _ _ _ => rfl
  | boolean b => cases b <;> exact .scalar (Nat.zero_lt_succ _) fun _ _ _ => rfl
  | number l =>
    obtain ⟨c, r, hl, -⟩ := print_eq_cons l
    exact .scalar (by rw [hl]; exact Nat.zero_lt_succ _) fun frames _ hr => value_number l frames hr
  | @text content t ht =>
    refine .scalar (Nat.zero_lt_succ _) fun frames rest _ => ?_
    have htext : '"' :: t ++ ['"'] ++ rest = '"' :: (t ++ '"' :: rest) := by simp
    rw [htext]
    show (do return ⟨.next, frames, ← skipText (t ++ '"' :: rest)⟩ : Except Failure Walk) = _
    rw [skipText_escaped ht.escaped]
    rfl
  | @array w es hw padded values ih =>
    refine passes_bracketed .sequence hw (fun p hp => ?_) fun _ _ => rfl
    obtain ⟨e, he, rfl⟩ := List.mem_map.1 hp
    exact .element (padded e he) (values e he).starts (ih e he)
  | @object w ms hw padded values ih =>
    refine passes_bracketed .map hw (fun p hp => ?_) fun _ _ => rfl
    obtain ⟨m, hm, rfl⟩ := List.mem_map.1 hp
    exact .member (padded m hm) (ih m hm)

end Walk

/-- A well-formed value is passed over. -/
theorem skipValue_written {v : Value} {t : List Char} (h : Written v t) {w rest : List Char}
    (hw : Blanks w) (hr : Ends rest) : skipValue .lenient (w ++ (t ++ rest)) = .ok rest := by
  obtain ⟨k, hk, hrun⟩ := Walk.passes h
  have hlen : (w ++ (t ++ rest)).length = w.length + (t.length + rest.length) := by simp
  obtain ⟨fuel, hfuel⟩ : ∃ fuel, 2 * (w ++ (t ++ rest)).length + 2 = fuel + 1 + k :=
    ⟨2 * (w ++ (t ++ rest)).length + 1 - k, by omega⟩
  rw [skipValue, hfuel, Walk.run_value_blanks hw, hrun _ _ _ hr]
  rfl

end StandingQuery.Json
