import StandingQuery.Json.Record
import StandingQuery.Proofs.Json.Value

/-! Arrays, maps and records read back as they were written, if their parts do. A record is written
with its fields in order, some of those that are not required left out; such a text is described by
`Fills`, in step with the fields, and the reader is followed along it. -/

namespace StandingQuery.Json

variable {α β σ : Type} {room : Nat} {rest : List Char}

@[simp] theorem enter_add_two (room : Nat) : enter (room + 2) = .ok (room + 1) := by
  simp [enter]

/-! ## Parts with commas between them -/

/-- What is left of an array or object: each further part has a comma before it, unless it is the
first. -/
def separated (first : Bool) : List (List Char) → List Char
  | [] => []
  | p :: ps => (if first then p else ',' :: p) ++ separated false ps

theorem commaSeparated_eq (ps : List (List Char)) : commaSeparated ps = separated true ps := by
  induction ps with
  | nil => rfl
  | cons p ps ih =>
    cases ps with
    | nil => simp [commaSeparated, separated]
    | cons q qs => simp [commaSeparated, ih, separated]

theorem atBreak_separated {s : List Char} (h : AtBreak s) (ps : List (List Char)) :
    AtBreak (separated false ps ++ s) := by
  cases ps with
  | nil => exact h
  | cons p ps => exact atBreak_comma _

theorem length_le_length_separated (first : Bool) {ps : List (List Char)}
    (h : ∀ p ∈ ps, p ≠ []) : ps.length ≤ (separated first ps).length := by
  induction ps generalizing first with
  | nil => exact Nat.zero_le _
  | cons p ps ih =>
    have hps := ih false fun q hq => h q (List.mem_cons_of_mem _ hq)
    have hp : 0 < (if first then p else ',' :: p).length := by
      split
      · exact List.length_pos_iff.2 (h p List.mem_cons_self)
      · exact Nat.zero_lt_succ _
    rw [separated, List.length_append, List.length_cons]
    omega

theorem nextElement_separated (first : Bool) {p : List Char} (h : Opens p)
    (ps : List (List Char)) (s : List Char) :
    nextElement first (separated first (p :: ps) ++ s) =
      .ok (some (p ++ (separated false ps ++ s))) := by
  obtain ⟨c, r, rfl, rfl | rfl | rfl⟩ := h <;> cases first <;>
  · simp only [separated, List.append_assoc]
    rfl

theorem nextMember_separated (first : Bool) (t : List Char) (ps : List (List Char))
    (s : List Char) :
    nextMember first (separated first (('"' :: t) :: ps) ++ s) =
      .ok (.key (t ++ (separated false ps ++ s))) := by
  cases first <;>
  · simp only [separated, List.append_assoc]
    rfl

/-! ## Arrays -/

theorem readElements_separated {item : Reader α} {print : α → List Char} {xs : List α}
    (hopen : ∀ x ∈ xs, Opens (print x)) (hread : ∀ x ∈ xs, Reads item (print x) x)
    (first : Bool) {fuel : Nat} (hfuel : xs.length < fuel) :
    readElements item fuel first (separated first (xs.map print) ++ ']' :: rest) =
      .ok (xs, rest) := by
  induction xs generalizing first fuel with
  | nil =>
    obtain ⟨fuel, rfl⟩ := Nat.exists_eq_add_one.2 (Nat.zero_lt_of_lt hfuel)
    rfl
  | cons x xs ih =>
    obtain ⟨fuel, rfl⟩ := Nat.exists_eq_add_one.2 (Nat.zero_lt_of_lt hfuel)
    have hx := hread x List.mem_cons_self _
      (atBreak_separated (atBreak_bracket rest) (xs.map print))
    have hxs := ih (fun y hy => hopen y (List.mem_cons_of_mem _ hy))
      (fun y hy => hread y (List.mem_cons_of_mem _ hy)) false (Nat.lt_of_succ_lt_succ hfuel)
    rw [List.map_cons, readElements, nextElement_separated first (hopen x List.mem_cons_self)]
    simp only [bind, Except.bind, hx, hxs]
    rfl

theorem reads_sequence {item : Nat → Reader α} {print : α → List Char} {xs : List α}
    (hopen : ∀ x ∈ xs, Opens (print x)) (hread : ∀ x ∈ xs, Reads (item (room + 1)) (print x) x) :
    Reads (readSequence (room + 2) item) (printArray (xs.map print)) xs := by
  intro rest _
  have hopens : ∀ p ∈ xs.map print, p ≠ [] := List.forall_mem_map.2 fun x hx => (hopen x hx).ne_nil
  have hlen := length_le_length_separated true hopens
  rw [List.length_map] at hlen
  have hfuel : xs.length < (separated true (xs.map print) ++ ']' :: rest).length + 1 := by
    rw [List.length_append]
    omega
  have htext : printArray (xs.map print) ++ rest =
      '[' :: (separated true (xs.map print) ++ ']' :: rest) := by
    simp [printArray, commaSeparated_eq]
  rw [htext]
  show (do readElements (item (← enter (room + 2))) _ true _) = _
  rw [enter_add_two]
  exact readElements_separated hopen hread true hfuel

/-! ## Members -/

def printMember (m : String × List Char) : List Char := printText m.1 ++ ':' :: m.2

theorem printObject_append (ms : List (String × List Char)) (rest : List Char) :
    printObject ms ++ rest = '\x7b' :: (separated true (ms.map printMember) ++ '\x7d' :: rest) := by
  have h : printObject ms =
      '\x7b' :: commaSeparated (ms.map printMember) ++ ['\x7d'] := rfl
  simp [h, commaSeparated_eq]

theorem length_le_length_members (ms : List (String × List Char)) (rest : List Char) :
    ms.length < (separated true (ms.map printMember) ++ '\x7d' :: rest).length + 1 := by
  have h : ∀ p ∈ ms.map printMember, p ≠ [] :=
    List.forall_mem_map.2 fun m _ => ((opens_printText m.1).append _).ne_nil
  have := length_le_length_separated true h
  rw [List.length_map] at this
  rw [List.length_append]
  omega

/-- A key is found, and behind the colon stands its value. -/
theorem nextMember_printMember (first : Bool) (k : String) (text : List Char)
    (ps : List (List Char)) (s : List Char) :
    ∃ t, nextMember first (separated first (printMember (k, text) :: ps) ++ s) = .ok (.key t) ∧
      textTail t = .ok (k, ':' :: (text ++ (separated false ps ++ s))) := by
  refine ⟨_, nextMember_separated first _ ps s, ?_⟩
  have h := textTail_printed k (':' :: (text ++ (separated false ps ++ s)))
  simpa using h

theorem readMembers_separated {item : Reader α} {print : α → List Char} {ms : List (String × α)}
    (hread : ∀ m ∈ ms, Reads item (print m.2) m.2) (first : Bool) {fuel : Nat}
    (hfuel : ms.length < fuel) :
    readMembers item fuel first
      (separated first (ms.map fun m => printMember (m.1, print m.2)) ++ '\x7d' :: rest) =
        .ok (ms, rest) := by
  induction ms generalizing first fuel with
  | nil =>
    obtain ⟨fuel, rfl⟩ := Nat.exists_eq_add_one.2 (Nat.zero_lt_of_lt hfuel)
    rfl
  | cons m ms ih =>
    obtain ⟨fuel, rfl⟩ := Nat.exists_eq_add_one.2 (Nat.zero_lt_of_lt hfuel)
    have hm := hread m List.mem_cons_self _
      (atBreak_separated (atBreak_brace rest) (ms.map fun m => printMember (m.1, print m.2)))
    have hms := ih (fun n hn => hread n (List.mem_cons_of_mem _ hn)) false
      (Nat.lt_of_succ_lt_succ hfuel)
    obtain ⟨t, hkey, htail⟩ := nextMember_printMember first m.1 (print m.2)
      (ms.map fun m => printMember (m.1, print m.2)) ('\x7d' :: rest)
    rw [List.map_cons, readMembers, hkey]
    simp only [bind, Except.bind, htail]
    show Except.bind (item _) _ = _
    rw [hm]
    show Except.bind (readMembers item _ false _) _ = _
    rw [hms]
    rfl

theorem reads_map {item : Nat → Reader α} {print : α → List Char} {ms : List (String × α)}
    (hread : ∀ m ∈ ms, Reads (item (room + 1)) (print m.2) m.2) :
    Reads (readMap (room + 2) item) (printObject (ms.map fun (k, a) => (k, print a))) ms := by
  intro rest _
  have hfuel := length_le_length_members (ms.map fun m => (m.1, print m.2)) rest
  rw [List.length_map, List.map_map] at hfuel
  rw [printObject_append, List.map_map]
  show (do readMembers (item (← enter (room + 2))) _ true _) = _
  rw [enter_add_two]
  exact readMembers_separated hread true hfuel

/-! ## Records -/

/-- The members, in the order of the fields, change the record `a` into `b`. A field without a
member is not required. -/
inductive Fills (room : Nat) : List (Field σ) → List (String × List Char) → σ → σ → Prop
  | done {a : σ} : Fills room [] [] a a
  | member {f : Field σ} {fs : List (Field σ)} {text : List Char} {ms : List (String × List Char)}
      {change : σ → σ} {a b : σ} (read : Reads (f.read room) text change)
      (others : Fills room fs ms (change a) b) : Fills room (f :: fs) ((f.name, text) :: ms) a b
  | absent {f : Field σ} {fs : List (Field σ)} {ms : List (String × List Char)} {a b : σ}
      (optional : f.required = false) (others : Fills room fs ms a b) :
      Fills room (f :: fs) ms a b

namespace Fills

variable {fs : List (Field σ)} {ms : List (String × List Char)} {a b : σ} {name : String}

/-- A value that is always written. -/
theorem of {required : Bool} {read : Nat → Reader β} {set : β → σ → σ} {text : List Char} {v : β}
    (hread : Reads (read room) text v) (h : Fills room fs ms (set v a) b) :
    Fills room (.of name required read set :: fs) ((name, text) :: ms) a b :=
  .member (hread.map set) h

/-- A value that is left out if there is none, as the record has none to begin with. -/
theorem ofOption {read : Nat → Reader (Option β)} {set : Option β → σ → σ} {value : Option β}
    {print : β → List Char} (hread : ∀ v, Reads (read room) (print v) (some v))
    (hnone : set none a = a) (h : Fills room fs ms (set value a) b) :
    Fills room (.of name false read set :: fs) (memberIf name value print ++ ms) a b := by
  cases value with
  | none => exact .absent rfl (hnone ▸ h)
  | some v => exact .of (hread v) h

end Fills

variable {schema : Schema σ}

theorem readNamed_close {seen : List String} (h : schema.firstMissing seen = none) (fuel : Nat)
    (first : Bool) (a : σ) :
    readNamed schema room (fuel + 1) first seen a ('\x7d' :: rest) = .ok (a, rest) := by
  have hclose : nextMember first ('\x7d' :: rest) = .ok (.close rest) := rfl
  rw [readNamed, hclose]
  simp only [bind, Except.bind, h]
  rfl

/-- One member takes the reader one step on. -/
theorem readNamed_printMember {f : Field σ} {text : List Char} {change : σ → σ}
    {seen : List String} (hfind : schema.fields.find? (·.name == f.name) = some f)
    (hseen : f.name ∉ seen) (hread : Reads (f.read room) text change) (fuel : Nat) (first : Bool)
    (a : σ) (ps : List (List Char)) :
    readNamed schema room (fuel + 1) first seen a
        (separated first (printMember (f.name, text) :: ps) ++ '\x7d' :: rest) =
      readNamed schema room fuel false (f.name :: seen) (change a)
        (separated false ps ++ '\x7d' :: rest) := by
  obtain ⟨t, hkey, htail⟩ := nextMember_printMember first f.name text ps ('\x7d' :: rest)
  have hvalue := hread _ (atBreak_separated (atBreak_brace rest) ps)
  have hnew : seen.contains f.name = false := by simpa using hseen
  rw [readNamed, hkey]
  simp only [bind, Except.bind, htail, hfind, hnew]
  show Except.bind (f.read room _) _ = _
  rw [hvalue]
  rfl

theorem readNamed_separated {fs : List (Field σ)} {ms : List (String × List Char)} {a b : σ}
    (h : Fills room fs ms a b) (hnames : (fs.map Field.name).Nodup)
    (hfind : ∀ f ∈ fs, schema.fields.find? (·.name == f.name) = some f) {seen : List String}
    (hseen : ∀ f ∈ fs, f.name ∉ seen)
    (hall : ∀ f ∈ schema.fields, f.required = true → f ∈ fs ∨ f.name ∈ seen)
    (first : Bool) {fuel : Nat} (hfuel : ms.length < fuel) :
    readNamed schema room fuel first seen a
      (separated first (ms.map printMember) ++ '\x7d' :: rest) = .ok (b, rest) := by
  induction h generalizing seen first fuel with
  | @done a =>
    obtain ⟨fuel, rfl⟩ := Nat.exists_eq_add_one.2 (Nat.zero_lt_of_lt hfuel)
    have hmissing : schema.firstMissing seen = none := by
      refine List.find?_eq_none.2 fun f hf => ?_
      simpa using fun hr => (hall f hf hr).resolve_left (by simp)
    exact readNamed_close hmissing fuel first a
  | @member f fs text ms change a b hread _ ih =>
    obtain ⟨fuel, rfl⟩ := Nat.exists_eq_add_one.2 (Nat.zero_lt_of_lt hfuel)
    obtain ⟨hname, hnames⟩ := List.nodup_cons.1 hnames
    rw [List.map_cons, readNamed_printMember (hfind f List.mem_cons_self)
      (hseen f List.mem_cons_self) hread]
    refine ih hnames (fun g hg => hfind g (List.mem_cons_of_mem _ hg)) (fun g hg hs => ?_)
      (fun g hg hr => ?_) false (Nat.lt_of_succ_lt_succ hfuel)
    · rcases List.mem_cons.1 hs with hs | hs
      · exact hname (hs ▸ List.mem_map_of_mem hg)
      · exact hseen g (List.mem_cons_of_mem _ hg) hs
    · rcases hall g hg hr with hg | hg
      · rcases List.mem_cons.1 hg with rfl | hg
        · exact .inr List.mem_cons_self
        · exact .inl hg
      · exact .inr (List.mem_cons_of_mem _ hg)
  | @absent f fs ms a b hoptional _ ih =>
    refine ih (List.nodup_cons.1 hnames).2 (fun g hg => hfind g (List.mem_cons_of_mem _ hg))
      (fun g hg => hseen g (List.mem_cons_of_mem _ hg)) (fun g hg hr => ?_) first hfuel
    rcases hall g hg hr with hg | hg
    · rcases List.mem_cons.1 hg with rfl | hg
      · rw [hoptional] at hr
        cases hr
      · exact .inl hg
    · exact .inr hg

theorem find?_name {fs : List (Field σ)} (h : (fs.map Field.name).Nodup) {f : Field σ}
    (hf : f ∈ fs) : fs.find? (·.name == f.name) = some f := by
  induction fs with
  | nil => cases hf
  | cons g gs ih =>
    obtain ⟨hg, hgs⟩ := List.nodup_cons.1 h
    rcases List.mem_cons.1 hf with rfl | hf
    · simp
    · have hne : (g.name == f.name) = false := by
        rw [beq_eq_false_iff_ne]
        exact fun he => hg (he ▸ List.mem_map_of_mem hf)
      rw [List.find?_cons, hne]
      exact ih hgs hf

theorem Fills.reads {ms : List (String × List Char)} {b : σ}
    (h : Fills (room + 1) schema.fields ms schema.blank b)
    (hnames : (schema.fields.map Field.name).Nodup) :
    Reads (schema.read (room + 2)) (printObject ms) b := by
  intro rest _
  rw [printObject_append]
  show (do readNamed schema (← enter (room + 2)) _ true [] schema.blank _) = _
  rw [enter_add_two]
  exact readNamed_separated h hnames (fun f hf => find?_name hnames hf) (by simp)
    (fun f hf _ => .inl hf) true (length_le_length_members ms rest)

/-! ## Whole texts -/

theorem Reads.readAll {read : Nat → Reader α} {text : List Char} {a : α}
    (h : Reads (read roomAtTop) text a) : readAll read (String.ofList text) = .ok a := by
  have := h [] atBreak_nil
  rw [List.append_nil] at this
  rw [Json.readAll, String.toList_ofList, this]
  rfl

end StandingQuery.Json
