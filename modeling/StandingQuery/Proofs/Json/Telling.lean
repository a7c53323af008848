import StandingQuery.Proofs.Json.Taking

/-! A record is read from an object as its members tell it. They may come in any order and among any
unknown ones, so the reader is followed along them with what has been told so far: which fields have
been seen, and a record that differs from the blank one in just these. -/

namespace StandingQuery.Json

variable {σ : Type} {room : Nat} {schema : Schema σ} {slots : List (Slot σ)} {ms : Members}
  {seen : List String} {a b : σ}

/-- The field reads what is said of the slot, and puts it there. -/
structure Realizes (room : Nat) (f : Field σ) (s : Slot σ) : Prop where
  name : f.name = s.name
  required : f.required = s.absent.isNone
  takes : ∀ v c t, s.Means v c → Written v t → Takes (f.read room) t (s.set c)

theorem Realizes.of {β : Type} {name : String} {required : Bool} {read : Nat → Reader β}
    {means : Value → β → Prop} {get : σ → β} {set : β → σ → σ} {absent : Option β}
    (hrequired : required = absent.isNone)
    (takes : ∀ v c t, means v c → Written v t → Takes (read room) t c) :
    Realizes room (.of name required read set) ⟨name, β, means, get, set, absent⟩ :=
  ⟨rfl, hrequired, fun v c t hm ht => (takes v c t hm ht).map set⟩

/-- The field has the name of the slot, and is required where the slot is. -/
structure Suits (f : Field σ) (s : Slot σ) : Prop where
  name : f.name = s.name
  required : f.required = s.absent.isNone

theorem Suits.names {fs : List (Field σ)} (suits : List.Forall₂ Suits fs slots) :
    fs.map Field.name = slots.map Slot.name :=
  map_eq_map_of_forall₂ suits fun _ _ h => h.name

/-- The slots are those that the schema reads, in the same order. -/
structure Describes (room : Nat) (schema : Schema σ) (slots : List (Slot σ)) : Prop where
  lawful : Lawful slots
  fields : List.Forall₂ (Realizes room) schema.fields slots
  blank : ∀ s ∈ slots, ∀ c, s.absent = some c → s.get schema.blank = c

/-! ## What has been told -/

/-- `b` is `a` with the members told to it. -/
structure Told (slots : List (Slot σ)) (ms : Members) (a b : σ) : Prop where
  said : ∀ s ∈ slots, ∀ v, (s.name, v) ∈ ms → s.Means v (s.get b)
  kept : ∀ s ∈ slots, s.name ∉ ms.names → s.get b = s.get a

namespace Told

theorem nil (a : σ) : Told slots [] a a :=
  ⟨fun _ _ _ hv => absurd hv List.not_mem_nil, fun _ _ _ => rfl⟩

theorem unknown {k : String} {v : Value} (hk : ∀ s ∈ slots, s.name ≠ k) (h : Told slots ms a b) :
    Told slots ((k, v) :: ms) a b := by
  constructor
  · intro s hs u hu
    rcases List.mem_cons.1 hu with he | hu
    · exact absurd (Prod.mk.inj he).1 (hk s hs)
    · exact h.said s hs u hu
  · intro s hs hn
    exact h.kept s hs fun hm => hn (List.mem_cons_of_mem _ hm)

theorem known (lawful : Lawful slots) {s : Slot σ} (hs : s ∈ slots) {v : Value} {c : s.Content}
    (hc : s.Means v c) (hnew : s.name ∉ ms.names) (h : Told slots ms (s.set c a) b) :
    Told slots ((s.name, v) :: ms) a b := by
  have hset : s.get b = c := by rw [h.kept s hs hnew, lawful.get_set s hs]
  constructor
  · intro t ht u hu
    rcases List.mem_cons.1 hu with he | hu
    · obtain ⟨hname, rfl⟩ := Prod.mk.inj he
      obtain rfl := lawful.eq_of_name ht hs hname
      rwa [hset]
    · exact h.said t ht u hu
  · intro t ht hn
    have hne : t.name ≠ s.name := fun he => hn (he ▸ List.mem_cons_self)
    rw [h.kept t ht fun hm => hn (List.mem_cons_of_mem _ hm), lawful.get_set_ne ht hs hne]

/-- What was not told is as it is in the blank record. -/
theorem given (d : Describes room schema slots) (h : Told slots ms schema.blank b)
    (complete : ∀ s ∈ slots, s.absent = none → s.name ∈ ms.names) : Given slots ms b := by
  refine ⟨h.said, fun s hs hn => ?_⟩
  cases habsent : s.absent with
  | none => exact absurd (complete s hs habsent) hn
  | some c => rw [h.kept s hs hn, d.blank s hs c habsent]

end Told

/-! ## The field of a name -/

namespace Describes

variable (d : Describes room schema slots)
include d

theorem suits : List.Forall₂ Suits schema.fields slots :=
  d.fields.imp fun _ _ h => ⟨h.name, h.required⟩

theorem names : schema.fields.map Field.name = slots.map Slot.name := Suits.names d.suits

theorem exists_field {s : Slot σ} (hs : s ∈ slots) : ∃ f ∈ schema.fields, Realizes room f s := by
  obtain ⟨i, hi, rfl⟩ := List.getElem_of_mem hs
  have hlen := d.fields.length_eq
  exact ⟨schema.fields[i], List.getElem_mem _, d.fields.get (by omega) hi⟩

theorem find_known {s : Slot σ} (hs : s ∈ slots) :
    ∃ f, schema.fields.find? (·.name == s.name) = some f ∧ Realizes room f s := by
  obtain ⟨f, hf, h⟩ := d.exists_field hs
  have hnodup : (schema.fields.map Field.name).Nodup := d.names ▸ d.lawful.names
  exact ⟨f, h.name ▸ find?_name hnodup hf, h⟩

theorem find_unknown {k : String} (hk : ∀ s ∈ slots, s.name ≠ k) :
    schema.fields.find? (·.name == k) = none := by
  refine List.find?_eq_none.2 fun f hf he => ?_
  have hmem : f.name ∈ slots.map Slot.name := d.names ▸ List.mem_map_of_mem hf
  obtain ⟨s, hs, hname⟩ := List.mem_map.1 hmem
  exact hk s hs (hname.trans (beq_iff_eq.1 he))

/-- Nothing is missing if all that is required has been seen. -/
theorem firstMissing_none (h : ∀ s ∈ slots, s.absent = none → s.name ∈ seen) :
    schema.firstMissing seen = none := by
  have hfields := d.fields
  clear d
  unfold Schema.firstMissing
  generalize schema.fields = fields at hfields
  induction hfields with
  | nil => rfl
  | @cons f s fields slots hf _ ih =>
    have hs : (f.required && !seen.contains f.name) = false := by
      rw [hf.required, hf.name]
      cases habsent : s.absent with
      | some _ => rfl
      | none => simpa using h s List.mem_cons_self habsent
    rw [List.find?_cons, hs]
    exact ih fun t ht => h t (List.mem_cons_of_mem _ ht)

/-- The first field that is required and has not been seen is missing. -/
theorem firstMissing_some {earlier later : List (Slot σ)} {s : Slot σ}
    (hsplit : slots = earlier ++ s :: later) (hs : s.absent = none) (hunseen : s.name ∉ seen)
    (hearlier : ∀ t ∈ earlier, t.absent = none → t.name ∈ seen) :
    ∃ f, schema.firstMissing seen = some f ∧ f.name = s.name := by
  have hfields := hsplit ▸ d.fields
  clear d hsplit
  unfold Schema.firstMissing
  generalize schema.fields = fields at hfields
  induction earlier generalizing fields with
  | nil =>
    obtain _ | @⟨f, _, fields, _, hf, _⟩ := hfields
    have hfirst : (f.required && !seen.contains f.name) = true := by
      rw [hf.required, hf.name, hs]
      simpa using hunseen
    refine ⟨f, ?_, hf.name⟩
    rw [List.find?_cons, hfirst]
  | cons t earlier ih =>
    obtain _ | @⟨f, _, fields, _, hf, hfields⟩ := hfields
    have hseen : (f.required && !seen.contains f.name) = false := by
      rw [hf.required, hf.name]
      cases habsent : t.absent with
      | some _ => rfl
      | none => simpa using hearlier t List.mem_cons_self habsent
    rw [List.find?_cons, hseen]
    exact ih (fun u hu => hearlier u (List.mem_cons_of_mem _ hu)) fields hfields

end Describes

/-! ## One member -/

theorem readNamed_blanks {w : List Char} (hw : Blanks w) (fuel : Nat) (first : Bool)
    (s : List Char) :
    readNamed schema room fuel first seen a (w ++ s) =
      readNamed schema room fuel first seen a s := by
  cases fuel with
  | zero => rfl
  | succ fuel => simp only [readNamed, nextMember_blanks hw]

section
variable {w : WrittenMember} {k : String} {v : Value} {rest : List Char}

theorem readNamed_known (d : Describes room schema slots) {s : Slot σ} (hs : s ∈ slots)
    {c : s.Content} (hc : s.Means v c) (hw : w.Shows (s.name, v)) (hnew : s.name ∉ seen)
    (fuel : Nat) (first : Bool) (ps : List (List Char)) :
    readNamed schema room (fuel + 1) first seen a
        (separated first (w.print :: ps) ++ '\x7d' :: rest) =
      readNamed schema room fuel false (s.name :: seen) (s.set c a)
        (separated false ps ++ '\x7d' :: rest) := by
  obtain ⟨f, hfind, hf⟩ := d.find_known hs
  obtain ⟨t, u, hkey, htail, hcolon⟩ :=
    nextMember_print first hw.padded hw.named ps ('\x7d' :: rest)
  have hread := (hf.takes v c _ hc hw.written).element hw.padded.2.2.2
    (ends_separated (.inr rfl) ps rest)
  have hunseen : seen.contains s.name = false := by simpa using hnew
  rw [readNamed, hkey]
  simp only [bind, Except.bind, htail, hfind, hunseen, Bool.false_eq_true, if_false, hcolon, hread]
  exact readNamed_blanks hw.padded.2.2.2.2 _ _ _

theorem readNamed_unknown (d : Describes room schema slots) (hk : ∀ s ∈ slots, s.name ≠ k)
    (hw : w.Shows (k, v)) (fuel : Nat) (first : Bool) (ps : List (List Char)) :
    readNamed schema room (fuel + 1) first seen a
        (separated first (w.print :: ps) ++ '\x7d' :: rest) =
      readNamed schema room fuel false seen a (separated false ps ++ '\x7d' :: rest) := by
  obtain ⟨t, u, hkey, htail, hcolon⟩ :=
    nextMember_print first hw.padded hw.named ps ('\x7d' :: rest)
  obtain ⟨hbefore, hafter⟩ := hw.padded.2.2.2
  have hskip := skipValue_written hw.written hbefore
    ((ends_separated (.inr rfl) ps rest).blanks hafter)
  rw [← List.append_assoc w.element.text, ← List.append_assoc w.element.before] at hskip
  rw [readNamed, hkey]
  simp only [bind, Except.bind, htail, d.find_unknown hk, hcolon]
  show Except.bind (skipValue .lenient (w.element.print ++ _)) _ = _
  rw [Element.print, hskip]
  exact readNamed_blanks hafter _ _ _

theorem readNamed_repeated (d : Describes room schema slots) {s : Slot σ} (hs : s ∈ slots)
    (hw : w.Shows (s.name, v)) (hold : s.name ∈ seen) (fuel : Nat) (first : Bool)
    (ps : List (List Char)) :
    readNamed schema room (fuel + 1) first seen a
        (separated first (w.print :: ps) ++ '\x7d' :: rest) =
      .error (.misfit (.repeated s.name)) := by
  obtain ⟨f, hfind, -⟩ := d.find_known hs
  obtain ⟨t, u, hkey, htail, -⟩ := nextMember_print first hw.padded hw.named ps ('\x7d' :: rest)
  have hseen : seen.contains s.name = true := by simpa using hold
  rw [readNamed, hkey]
  simp only [bind, Except.bind, htail, hfind, hseen, if_true]

theorem readNamed_missing {f : Field σ} (h : schema.firstMissing seen = some f) (fuel : Nat)
    (first : Bool) :
    readNamed schema room (fuel + 1) first seen a ('\x7d' :: rest) =
      .error (.misfit (.missing f.name)) := by
  have hclose : nextMember first ('\x7d' :: rest) = .ok (.close rest) := rfl
  rw [readNamed, hclose]
  simp only [bind, Except.bind, h]

end

/-! ## The members of an object -/

/-- The reader goes along members that name no part twice, and no part that has been seen. -/
theorem readNamed_told (d : Describes room schema slots) {ws : List WrittenMember}
    (shown : List.Forall₂ WrittenMember.Shows ws ms) (valid : Valid slots ms)
    (once : Once slots ms.names) (seen : List String)
    (new : ∀ s ∈ slots, s.name ∈ ms.names → s.name ∉ seen) (a : σ) :
    ∃ seen' b, Told slots ms a b ∧
      (∀ s ∈ slots, s.name ∈ seen' ↔ s.name ∈ ms.names ∨ s.name ∈ seen) ∧
      ∀ fuel first ps rest,
        readNamed schema room (fuel + ws.length) first seen a
            (separated first (ws.map WrittenMember.print ++ ps) ++ '\x7d' :: rest) =
          readNamed schema room fuel (first && ws.isEmpty) seen' b
            (separated (first && ws.isEmpty) ps ++ '\x7d' :: rest) := by
  induction shown generalizing seen a with
  | nil => exact ⟨seen, a, .nil a, by simp [Members.names], by simp⟩
  | @cons w m ws ms hw _ ih =>
    obtain ⟨k, v⟩ := m
    have hvalid : Valid slots ms := fun s hs u hu => valid s hs u (List.mem_cons_of_mem _ hu)
    have honce : Once slots (Members.names ms) := fun s hs =>
      Nat.le_trans List.count_le_count_cons (once s hs)
    by_cases hknown : ∃ s ∈ slots, s.name = k
    · obtain ⟨s, hs, rfl⟩ := hknown
      obtain ⟨c, hc⟩ := valid s hs v List.mem_cons_self
      have hlater : s.name ∉ Members.names ms := by
        have h := once s hs
        rw [Members.names, List.map_cons, List.count_cons_self] at h
        exact List.count_eq_zero.1 (Nat.le_zero.1 (Nat.le_of_succ_le_succ h))
      have hnew : ∀ t ∈ slots, t.name ∈ Members.names ms → t.name ∉ s.name :: seen := by
        intro t ht hn hm
        rcases List.mem_cons.1 hm with he | hm
        · exact hlater (he ▸ hn)
        · exact new t ht (List.mem_cons_of_mem _ hn) hm
      obtain ⟨seen', b, told, hseen, hread⟩ := ih hvalid honce (s.name :: seen) hnew (s.set c a)
      refine ⟨seen', b, told.known d.lawful hs hc hlater, fun t ht => ?_,
        fun fuel first ps rest => ?_⟩
      · rw [hseen t ht]
        simp only [Members.names, List.map_cons, List.mem_cons]
        tauto
      · rw [List.length_cons, ← Nat.add_assoc, List.map_cons, List.cons_append,
          readNamed_known d hs hc hw (new s hs List.mem_cons_self), hread]
        simp
    · have hunknown : ∀ s ∈ slots, s.name ≠ k := fun s hs he => hknown ⟨s, hs, he⟩
      obtain ⟨seen', b, told, hseen, hread⟩ :=
        ih hvalid honce seen (fun t ht hn => new t ht (List.mem_cons_of_mem _ hn)) a
      refine ⟨seen', b, told.unknown hunknown, fun t ht => ?_, fun fuel first ps rest => ?_⟩
      · rw [hseen t ht]
        simp [Members.names, hunknown t ht]
      · rw [List.length_cons, ← Nat.add_assoc, List.map_cons, List.cons_append,
          readNamed_unknown d hunknown hw, hread]
        simp

/-! ## Objects -/

/-- The reader fails with `e` wherever the text stands. -/
def Refuses {α : Type} (read : Reader α) (text : List Char) (e : Failure) : Prop :=
  ∀ w rest, Blanks w → read (w ++ (text ++ rest)) = .error e

/-- Behind the opening brace, there are enough steps for all members and the end. -/
theorem read_object (schema : Schema σ) (room : Nat) {b w : List Char} (hb : Blanks b)
    (hw : Blanks w) (ws : List WrittenMember) (rest : List Char) :
    ∃ fuel, schema.read (room + 2) (w ++
        ('\x7b' :: (b ++ commaSeparated (ws.map WrittenMember.print)) ++ ['\x7d'] ++ rest)) =
      readNamed schema (room + 1) (fuel + 1 + ws.length) true [] schema.blank
        (separated true (ws.map WrittenMember.print) ++ '\x7d' :: rest) := by
  have hlen := length_lt_fuel ('\x7d' :: rest) (members_ne_nil ws)
  rw [List.length_map] at hlen
  generalize htext : separated true (ws.map WrittenMember.print) ++ '\x7d' :: rest = text at hlen ⊢
  have hfuel : (b ++ text).length + 1 = (b ++ text).length - ws.length + 1 + ws.length := by
    rw [List.length_append]
    omega
  refine ⟨(b ++ text).length - ws.length, ?_⟩
  rw [bracketed_append, htext, Schema.read, peekSurface_blanks hw, ← hfuel]
  show (do readNamed schema (← enter (room + 2)) _ true [] schema.blank _) = _
  rw [enter_add_two]
  exact readNamed_blanks hb _ _ _

variable {text : List Char}

/-- If nothing required is missing, the record is what the members say. -/
theorem Describes.takes_object (d : Describes (room + 1) schema slots)
    (ht : Written (.object ms.keyed) text) (valid : Valid slots ms) (once : Once slots ms.names)
    (complete : ∀ s ∈ slots, s.absent = none → s.name ∈ ms.names) :
    ∃ a, Given slots ms a ∧ Takes (schema.read (room + 2)) text a := by
  obtain ⟨b, ws, hb, shown, rfl⟩ := ht.members
  obtain ⟨seen, a, told, hseen, along⟩ :=
    readNamed_told d shown valid once [] (by simp) schema.blank
  refine ⟨a, told.given d complete, fun w rest hw _ => ?_⟩
  have hmissing : schema.firstMissing seen = none :=
    d.firstMissing_none fun s hs habsent => (hseen s hs).2 (.inl (complete s hs habsent))
  obtain ⟨fuel, hread⟩ := read_object schema room hb hw ws rest
  have halong := along (fuel + 1) true [] rest
  rw [List.append_nil] at halong
  rw [hread, halong]
  exact readNamed_close hmissing fuel _ a

theorem Takes.unique {α : Type} {read : Reader α} {a b : α} (ha : Takes read text a)
    (hb : Takes read text b) : a = b := by
  have h := (ha [] [] .nil .nil).symm.trans (hb [] [] .nil .nil)
  exact (Prod.mk.inj (Except.ok.inj h)).1

/-- A written value has one meaning for a slot. -/
theorem Describes.means_unique (d : Describes room schema slots) {s : Slot σ} (hs : s ∈ slots)
    {v : Value} {c c' : s.Content} (hc : s.Means v c) (hc' : s.Means v c') (ht : Written v text) :
    c = c' := by
  obtain ⟨f, -, hf⟩ := d.exists_field hs
  have hset : s.set c = s.set c' := (hf.takes v c text hc ht).unique (hf.takes v c' text hc' ht)
  rw [← d.lawful.get_set s hs c schema.blank, hset, d.lawful.get_set s hs]

/-- The members of a written object give one record at most. -/
theorem Describes.given_unique (d : Describes room schema slots)
    (ht : Written (.object ms.keyed) text) (ha : Given slots ms a) (hb : Given slots ms b) :
    a = b := by
  obtain ⟨w, ws, -, shown, -⟩ := ht.members
  refine d.lawful.ext a b fun s hs => ?_
  by_cases hn : s.name ∈ ms.names
  · obtain ⟨m, hm, hname⟩ := List.mem_map.1 hn
    obtain ⟨v, rfl⟩ : ∃ v, m = (s.name, v) := ⟨m.2, Prod.ext hname rfl⟩
    obtain ⟨i, hi, he⟩ := List.getElem_of_mem hm
    have hi' : i < ws.length := shown.length_eq ▸ hi
    have hw : ws[i].Shows (s.name, v) := he ▸ shown.get hi' hi
    exact d.means_unique hs (ha.said s hs v hm) (hb.said s hs v hm) hw.written
  · exact Option.some.inj ((ha.left s hs hn).symm.trans (hb.left s hs hn))

/-- If something required is missing, the first such part is named. -/
theorem Describes.refuses_missing (d : Describes (room + 1) schema slots)
    (ht : Written (.object ms.keyed) text) (valid : Valid slots ms) (once : Once slots ms.names)
    {earlier later : List (Slot σ)} {s : Slot σ} (hsplit : slots = earlier ++ s :: later)
    (hs : s.absent = none) (hmissing : s.name ∉ ms.names)
    (hearlier : ∀ t ∈ earlier, t.absent = none → t.name ∈ ms.names) :
    Refuses (schema.read (room + 2)) text (.misfit (.missing s.name)) := by
  obtain ⟨b, ws, hb, shown, rfl⟩ := ht.members
  obtain ⟨seen, a, -, hseen, along⟩ :=
    readNamed_told d shown valid once [] (by simp) schema.blank
  intro w rest hw
  have hmem : s ∈ slots := by simp [hsplit]
  have hunseen : s.name ∉ seen := by simp [hseen s hmem, hmissing]
  obtain ⟨f, hfirst, hname⟩ := d.firstMissing_some hsplit hs hunseen fun t ht habsent =>
    (hseen t (by simp [hsplit, ht])).2 (.inl (hearlier t ht habsent))
  obtain ⟨fuel, hread⟩ := read_object schema room hb hw ws rest
  have halong := along (fuel + 1) true [] rest
  rw [List.append_nil] at halong
  rw [hread, halong, ← hname]
  exact readNamed_missing hfirst fuel _

/-- Members that are in order are read, up to the next one. -/
theorem Describes.read_front (d : Describes (room + 1) schema slots) {front back : Members}
    {m : String × Value} (ht : Written (.object (Members.keyed (front ++ m :: back))) text)
    (valid : Valid slots front) (once : Once slots front.names) :
    ∃ (w : WrittenMember) (ps : List (List Char)) (seen : List String) (a : σ), w.Shows m ∧
      (∀ s ∈ slots, s.name ∈ seen ↔ s.name ∈ front.names) ∧
      ∀ b rest, Blanks b → ∃ fuel first, schema.read (room + 2) (b ++ (text ++ rest)) =
        readNamed schema (room + 1) (fuel + 1) first seen a
          (separated first (w.print :: ps) ++ '\x7d' :: rest) := by
  obtain ⟨b, ws, hb, shown, rfl⟩ := ht.members
  have hfront := List.forall₂_take_append _ _ _ shown
  have hback := List.forall₂_drop_append _ _ _ shown
  have hws := List.take_append_drop front.length ws
  generalize ws.take front.length = fronts at hfront hws
  generalize ws.drop front.length = backs at hback hws
  obtain _ | @⟨w, _, backs, _, hw, -⟩ := hback
  obtain ⟨seen, a, -, hseen, along⟩ :=
    readNamed_told d hfront valid once [] (by simp) schema.blank
  refine ⟨w, backs.map WrittenMember.print, seen, a, hw, fun s hs => by simp [hseen s hs],
    fun w' rest hw' => ?_⟩
  obtain ⟨fuel, hread⟩ := read_object schema room hb hw' ws rest
  have hfuel : fuel + 1 + ws.length = fuel + 1 + backs.length + 1 + fronts.length := by
    rw [← hws, List.length_append, List.length_cons]
    omega
  have hprints : ws.map WrittenMember.print =
      fronts.map WrittenMember.print ++ w.print :: backs.map WrittenMember.print := by
    rw [← hws, List.map_append, List.map_cons]
  exact ⟨_, _, by rw [hread, hfuel, hprints, along]⟩

/-- If parts are named twice, the one that comes first a second time is named. -/
theorem Describes.refuses_repeated (d : Describes (room + 1) schema slots)
    (ht : Written (.object ms.keyed) text) (valid : Valid slots ms) {s : Slot σ} (hs : s ∈ slots)
    {before after : List String} (hsplit : ms.names = before ++ s.name :: after)
    (once : Once slots before) (hold : s.name ∈ before) :
    Refuses (schema.read (room + 2)) text (.misfit (.repeated s.name)) := by
  obtain ⟨front, m, back, rfl, rfl, hm, rfl⟩ : ∃ front m back, ms = front ++ m :: back ∧
      Members.names front = before ∧ m.1 = s.name ∧ Members.names back = after := by
    obtain ⟨front, tail, rfl, hfront, htail⟩ := List.map_eq_append_iff.1 hsplit
    obtain ⟨m, back, rfl, hm, hback⟩ := List.map_eq_cons_iff.1 htail
    exact ⟨front, m, back, rfl, hfront, hm, hback⟩
  obtain ⟨v, rfl⟩ : ∃ v, m = (s.name, v) := ⟨m.2, Prod.ext hm rfl⟩
  have hvalid : Valid slots front := fun t ht v hv => valid t ht v (List.mem_append_left _ hv)
  obtain ⟨w, ps, seen, a, hw, hseen, hfront⟩ := d.read_front ht hvalid once
  intro b rest hb
  obtain ⟨fuel, first, hread⟩ := hfront b rest hb
  rw [hread]
  exact readNamed_repeated d hs hw ((hseen s hs).2 hold) _ _ _

/-- If a part has a value that nothing is made of, that is the failure, whatever comes after it. -/
theorem Describes.refuses_value (d : Describes (room + 1) schema slots) {front back : Members}
    {s : Slot σ} (hs : s ∈ slots) {v : Value}
    (ht : Written (.object (Members.keyed (front ++ (s.name, v) :: back))) text)
    (valid : Valid slots front) (once : Once slots front.names) (new : s.name ∉ front.names)
    {e : Failure} (declines : ∀ f ∈ schema.fields, f.name = s.name → ∀ t, Written v t →
      Declines (f.read (room + 1)) t e) : Refuses (schema.read (room + 2)) text e := by
  obtain ⟨w, ps, seen, a, hw, hseen, hfront⟩ := d.read_front ht valid once
  intro b rest hb
  obtain ⟨fuel, first, hread⟩ := hfront b rest hb
  obtain ⟨f, hfind, hf⟩ := d.find_known hs
  have hdecline := (declines f (List.mem_of_find?_eq_some hfind) hf.name _ hw.written).element
    hw.padded.2.2.2 (ends_separated (.inr rfl) ps rest)
  obtain ⟨t, u, hkey, htail, hcolon⟩ :=
    nextMember_print first hw.padded hw.named ps ('\x7d' :: rest)
  have hunseen : seen.contains s.name = false := by simp [hseen s hs, new]
  rw [hread, readNamed, hkey]
  simp only [bind, Except.bind, htail, hfind, hunseen, Bool.false_eq_true, if_false, hcolon,
    hdecline]

/-! ## Records within a value -/

theorem readPositional_blanks {w : List Char} (hw : Blanks w) (fs : List (Field σ)) (index : Nat)
    (a : σ) (s : List Char) :
    readPositional schema room fs index a (w ++ s) = readPositional schema room fs index a s := by
  cases fs with
  | nil => simp only [readPositional, closeSequence_blanks hw]
  | cons f fs => simp only [readPositional, nextElement_blanks hw, closeSequence_blanks hw]

theorem findIdx_required {fs : List (Field σ)} {left : List (Slot σ)}
    (fields : List.Forall₂ (Realizes room) fs left) (h : ∀ s ∈ left, s.absent ≠ none) :
    fs.findIdx? Field.required = none := by
  induction fields with
  | nil => rfl
  | @cons f s fs left hf _ ih =>
    have hoptional : f.required = false := by
      rw [hf.required]
      exact Option.isNone_eq_false_iff.2 (Option.isSome_iff_ne_none.2 (h s List.mem_cons_self))
    rw [List.findIdx?_cons, hoptional, ih fun t ht => h t (List.mem_cons_of_mem _ ht)]
    rfl

/-- `b` agrees with `a` but for the slots that are left, which are as if nobody told them. -/
structure Partly (slots left : List (Slot σ)) (a b : σ) : Prop where
  told : ∀ s ∈ slots, s ∉ left → s.get b = s.get a
  untold : ∀ s ∈ left, ∀ c, s.absent = some c → s.get b = c

namespace Partly

variable {a b : σ} {left : List (Slot σ)} {s : Slot σ}

/-- Nobody need tell what is left. -/
theorem eq (h : Partly slots left a b) (lawful : Lawful slots)
    (absent : ∀ s ∈ left, s.absent = some (s.get a)) : b = a := by
  refine lawful.ext b a fun s hs => ?_
  by_cases hl : s ∈ left
  · exact h.untold s hl _ (absent s hl)
  · exact h.told s hs hl

/-- The first slot that is left is told. -/
theorem set (h : Partly slots (s :: left) a b) (lawful : Lawful slots)
    (distinct : ((s :: left).map Slot.name).Nodup) (among : ∀ t ∈ s :: left, t ∈ slots) :
    Partly slots left a (s.set (s.get a) b) := by
  have hs : s ∈ slots := among s List.mem_cons_self
  refine ⟨fun t ht hl => ?_, fun t hl c hc => ?_⟩
  · by_cases he : t.name = s.name
    · obtain rfl := lawful.eq_of_name ht hs he
      exact lawful.get_set t ht _ _
    · rw [lawful.get_set_ne ht hs he]
      exact h.told t ht fun hm => (List.mem_cons.1 hm).elim (fun hts => he (hts ▸ rfl)) hl
  · have hne : t.name ≠ s.name := fun he =>
      (List.nodup_cons.1 distinct).1 (he ▸ List.mem_map_of_mem hl)
    rw [lawful.get_set_ne (among t (List.mem_cons_of_mem _ hl)) hs hne]
    exact h.untold t (List.mem_cons_of_mem _ hl) c hc

end Partly

/-- What is left of an array tells the slots that are left, and so makes `b` into `a`. -/
theorem readPositional_listed (lawful : Lawful slots) {es : List Element}
    (written : ∀ e ∈ es, e.Padded ∧ Written e.value e.text) {fs : List (Field σ)}
    {left : List (Slot σ)} (fields : List.Forall₂ (Realizes room) fs left)
    (listed : Listed a left (es.map Element.value)) (distinct : (left.map Slot.name).Nodup)
    (among : ∀ s ∈ left, s ∈ slots) (partly : Partly slots left a b) (index : Nat)
    (rest : List Char) :
    readPositional schema room fs index b
      (separated (index == 0) (es.map Element.print) ++ ']' :: rest) = .ok (a, rest) := by
  induction es generalizing fs left b index with
  | nil =>
    have habsent : ∀ s ∈ left, s.absent = some (s.get a) := by
      unfold Listed at listed
      exact listed
    obtain rfl : b = a := partly.eq lawful habsent
    have hrequired := findIdx_required fields fun s hs =>
      Option.ne_none_iff_exists'.2 ⟨_, habsent s hs⟩
    cases fields with
    | nil => rfl
    | cons _ _ =>
      simp only [List.map_nil, separated, List.nil_append, readPositional, hrequired]
      rfl
  | cons e es ih =>
    obtain _ | @⟨f, s, fs, left, hf, fields⟩ := fields
    · exact absurd listed id
    obtain ⟨hs, listed⟩ := listed
    obtain ⟨⟨hbefore, hafter⟩, ht⟩ := written e List.mem_cons_self
    have htake := hf.takes _ _ _ hs ht [] _ .nil
      ((ends_separated (.inl rfl) (es.map Element.print) rest).blanks hafter)
    rw [List.nil_append] at htake
    have hrest := ih (fun e he => written e (List.mem_cons_of_mem _ he)) fields listed
      (List.nodup_cons.1 distinct).2 (fun t ht => among t (List.mem_cons_of_mem _ ht))
      (partly.set lawful distinct among) (index + 1)
    rw [List.map_cons, readPositional, nextElement_print _ ⟨hbefore, hafter⟩ ht.starts]
    simp only [bind, Except.bind, htake, readPositional_blanks hafter]
    exact hrest

/-- A value that means a record, in either form, is read as that record. -/
theorem Describes.takes_record (d : Describes (room + 1) schema slots) {v : Value}
    (hv : MeansRecord slots v a) (ht : Written v text) : Takes (schema.read (room + 2)) text a := by
  cases hv with
  | object once h =>
    obtain ⟨b, hb, htake⟩ := d.takes_object ht h.valid once h.complete
    rwa [d.given_unique ht h hb]
  | @array vs _ h =>
    cases ht with
    | @array b es hb padded values =>
      intro w rest hw hr
      rw [bracketed_append, Schema.read, peekSurface_blanks hw]
      show (do readPositional schema (← enter (room + 2)) schema.fields 0 schema.blank _) = _
      rw [enter_add_two]
      show readPositional _ _ _ _ _ _ = _
      rw [readPositional_blanks hb]
      exact readPositional_listed d.lawful (fun e he => ⟨padded e he, values e he⟩) d.fields h
        d.lawful.names (fun s hs => hs) ⟨fun s hs hn => absurd hs hn, d.blank⟩ 0 rest

/-! ## Whole texts -/

theorem Takes.readAll {read : Nat → Reader σ} (h : Takes (read roomAtTop) text a) {w u : List Char}
    (hw : Blanks w) (hu : Blanks u) :
    Json.readAll read (String.ofList (w ++ (text ++ u))) = .ok a := by
  have hends : Ends u := List.append_nil u ▸ Ends.nil.blanks hu
  rw [Json.readAll, String.toList_ofList, h w u hw hends]
  simp only [bind, Except.bind, hu.skipBlanks_self]
  rfl

theorem Refuses.readAll {read : Nat → Reader σ} {e : Failure} (h : Refuses (read roomAtTop) text e)
    {w : List Char} (hw : Blanks w) (u : List Char) :
    Json.readAll read (String.ofList (w ++ (text ++ u))) = .error e := by
  rw [Json.readAll, String.toList_ofList, h w u hw]
  rfl

/-- What becomes of an object in which every member that is known has a valid value. -/
structure DecodesObjects (slots : List (Slot σ)) (ofText : String → Except Failure σ) : Prop where
  /-- The one record that the members give. -/
  complete : ∀ {ms text}, ObjectText ms text → Valid slots ms → Once slots ms.names →
    (∀ s ∈ slots, s.absent = none → s.name ∈ ms.names) →
    ∃ a, ofText text = .ok a ∧ ∀ b, Given slots ms b ↔ b = a
  /-- A null that means something is as good as nothing. -/
  null : ∀ {before after : Members} {text text' : String} {s : Slot σ} {c : s.Content}, s ∈ slots →
    s.Means .null c → s.name ∉ Members.names (before ++ after) →
    ObjectText (before ++ after) text → ObjectText (before ++ (s.name, .null) :: after) text' →
    Valid slots (before ++ after) → Once slots (Members.names (before ++ after)) →
    (∀ s ∈ slots, s.absent = none → s.name ∈ Members.names (before ++ after)) →
    ofText text' = ofText text
  /-- The name that is the first to occur again. -/
  repeated : ∀ {ms text}, ObjectText ms text → Valid slots ms → ¬ Once slots ms.names →
    ∃ before after, ∃ s ∈ slots, ms.names = before ++ s.name :: after ∧ Once slots before ∧
      s.name ∈ before ∧ ofText text = .error (.misfit (.repeated s.name))
  /-- The first of the slots that has to be told and is not. -/
  missing : ∀ {ms text}, ObjectText ms text → Valid slots ms → Once slots ms.names →
    (¬ ∀ s ∈ slots, s.absent = none → s.name ∈ ms.names) →
    ∃ earlier s later, slots = earlier ++ s :: later ∧ s.absent = none ∧ s.name ∉ ms.names ∧
      (∀ t ∈ earlier, t.absent = none → t.name ∈ ms.names) ∧
      ofText text = .error (.misfit (.missing s.name))

theorem Describes.decodes (d : Describes 127 schema slots) :
    DecodesObjects slots (Json.readAll schema.read) := by
  have complete {ms : Members} {text : String} (ht : ObjectText ms text) (valid : Valid slots ms)
      (once : Once slots ms.names)
      (complete : ∀ s ∈ slots, s.absent = none → s.name ∈ ms.names) :
      ∃ a, Json.readAll schema.read text = .ok a ∧ ∀ b, Given slots ms b ↔ b = a := by
    obtain ⟨hw, ht, hu⟩ := ht
    obtain ⟨a, ha, htake⟩ := d.takes_object ht valid once complete
    refine ⟨a, htake.readAll hw hu, fun b => ⟨fun hb => d.given_unique ht hb ha, ?_⟩⟩
    rintro rfl
    exact ha
  refine ⟨complete, ?_, ?_, ?_⟩
  · intro before after text text' s c hs hc hn ht ht' valid once required
    obtain ⟨a, hread, ha⟩ := complete ht valid once required
    have hgiven : Given slots (before ++ (s.name, .null) :: after) a :=
      (given_null d.lawful hs hc hn a).2 ((ha a).2 rfl)
    obtain ⟨a', hread', ha'⟩ := complete ht' hgiven.valid (once.insert hn .null) hgiven.complete
    rw [hread, hread', (ha' a).1 hgiven]
  · intro ms text ht valid once
    obtain ⟨hw, ht, hu⟩ := ht
    obtain ⟨before, after, s, hs, hsplit, hbefore, hold⟩ := exists_repeated once
    exact ⟨before, after, s, hs, hsplit, hbefore, hold,
      (d.refuses_repeated ht valid hs hsplit hbefore hold).readAll hw _⟩
  · intro ms text ht valid once incomplete
    obtain ⟨hw, ht, hu⟩ := ht
    obtain ⟨earlier, s, later, hsplit, habsent, hn, hearlier⟩ := exists_missing incomplete
    exact ⟨earlier, s, later, hsplit, habsent, hn, hearlier,
      (d.refuses_missing ht valid once hsplit habsent hn hearlier).readAll hw _⟩

end StandingQuery.Json
