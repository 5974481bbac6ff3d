import ChainArchive.Proofs.Json.Skipping
import Mathlib.Data.List.DropRight

/-!
# Readers follow the grammar

A reader that answers has taken one value off the text. What it makes of that
value is said for each reader: of a string its text, of an array what the
elements are made into. Of a record, a draft shows the values of some fields, and
each of them is the only one that the record has for that field.
-/

namespace ChainArchive.Json
set_option autoImplicit false

variable {α δ ρ : Type} {place : Place} {text rest : Bytes}

/-- What the reader of this place takes is one value, and its answer is what the value means. -/
def Sound (place : Place) (item : Bytes → Scan α) (means : α → Value → Prop) : Prop :=
  ∀ ⦃text : Bytes⦄ ⦃answer : α⦄ ⦃rest : Bytes⦄, item text = .ok (answer, rest) →
    ∃ value, Stands place value text rest ∧ means answer value

/-- Which value it was does not matter. -/
theorem Sound.forget {item : Bytes → Scan α} {means : α → Value → Prop} (h : Sound place item means) :
    Sound place item fun _ _ => True := by
  intro text answer rest read
  obtain ⟨value, stands, -⟩ := h read
  exact ⟨value, stands, trivial⟩

theorem skipSpace_idem (text : Bytes) : skipSpace (skipSpace text) = skipSpace text := List.dropWhile_idempotent ..

theorem Stands.of_skipped {value : Value} (h : Stands place value (skipSpace text) rest) : Stands place value text rest :=
  h.of_skipSpace (skipSpace_idem text).symm

/-! ## Scalars -/

theorem readWord_sound {letters : Bytes} {answer : Unit} (h : readWord letters text = .ok (answer, rest)) :
    text = letters ++ rest := by
  fun_induction readWord letters text with
  | case1 =>
    cases h
    rfl
  | case2 => cases h
  | case3 letters byte text ih => rw [ih h, List.cons_append]
  | case4 => cases h

theorem readText_sound {expected value : String} (h : readText expected text = .ok (value, rest)) :
    Stands place (.string (Bytes.ofText value)) text rest := by
  unfold readText at h
  split at h
  · next body quote => exact .string quote (readTextString_eq_ok_iff.1 h).ofText
  · cases h

theorem readNatBelow_sound (bound : Nat) (expected : String) :
    Sound place (readNatBelow bound expected) fun _ value => ∃ literal, value = .number literal := by
  intro text answer rest h
  simp only [readNatBelow] at h
  split at h
  · split at h
    · obtain ⟨⟨number, after⟩, read, h⟩ := bind_eq_ok.1 h
      obtain ⟨literal, whole, numeral⟩ := readNumber_sound read
      have ends : after = rest := by
        cases number with
        | floating => cases h
        | integer value =>
          simp only at h
          split at h
          · cases h
            rfl
          · cases h
      exact ⟨.number literal, .number numeral (ends ▸ whole), literal, rfl⟩
    · cases h
  · cases h

/-! ## Arrays -/

/-- The end of the array, or the place where the next element begins. -/
theorem nextElement_sound {first : Bool} {turn : Turn} (h : nextElement first text = .ok turn) :
    (∃ rest, turn = .closed rest ∧ skipSpace text = 93 :: rest) ∨
      ∃ item begins, turn = .element item ∧ Next first text begins ∧ skipSpace begins = skipSpace item := by
  unfold nextElement at h
  split at h
  · cases h
  · next rest closed =>
    cases h
    exact .inl ⟨rest, rfl, closed⟩
  · next byte tail _ here =>
    right
    split at h
    · next isFirst =>
      cases h
      exact ⟨byte :: tail, text, rfl, Next.first isFirst text, by rw [← here, skipSpace_idem]⟩
    · next later =>
      split at h
      · cases h
      · next comma =>
        obtain rfl : byte = 44 := by simpa using comma
        split at h
        · cases h
        · cases h
        · cases h
          exact ⟨_, tail, rfl, Next.comma later here, (skipSpace_idem tail).symm⟩

/-- The elements that are read, behind those already taken. -/
theorem readElements_sound {item : Bytes → Scan α} {means : α → Value → Prop} {places : Nat → Place}
    (sound : ∀ i, Sound (places i) item means) {fuel : Nat} {first : Bool} {taken answers : List α}
    (h : readElements item fuel first taken text = .ok (answers, rest)) :
    ∃ more values, answers = taken.reverse ++ more ∧ Elements places first values text rest ∧
      List.Forall₂ means more values := by
  induction fuel generalizing places first taken text with
  | zero => cases h
  | succ fuel ih =>
    rw [readElements] at h
    cases turn : nextElement first text with
    | error fault =>
      rw [turn] at h
      cases h
    | ok turn' =>
      rw [turn] at h
      rcases nextElement_sound turn with ⟨after, rfl, closed⟩ | ⟨element, begins, rfl, next, same⟩
      · cases h
        exact ⟨[], [], (List.append_nil _).symm, .close closed, .nil⟩
      · cases read : item element with
        | error fault =>
          simp only [read] at h
          cases h
        | ok read' =>
          obtain ⟨answer, after⟩ := read'
          simp only [read] at h
          obtain ⟨value, stands, meant⟩ := sound 0 read
          obtain ⟨more, values, rfl, elements, all⟩ := ih (fun i => sound (i + 1)) h
          refine ⟨answer :: more, value :: values, ?_, .cons next (stands.of_skipSpace same) elements, .cons meant all⟩
          rw [List.reverse_cons, List.append_assoc, List.singleton_append]

theorem readArray_sound {item : Bytes → Scan α} {means : α → Value → Prop}
    (sound : ∀ i, Sound (place.element i) item means) (expected : String) :
    Sound place (readArray item expected) fun answers value =>
      ∃ values, value = .array values ∧ List.Forall₂ means answers values := by
  intro text answers rest h
  unfold readArray at h
  split at h
  · next body bracket =>
    obtain ⟨more, values, rfl, elements, all⟩ := readElements_sound sound h
    exact ⟨.array values, .array bracket elements, values, rfl, all⟩
  · cases h

theorem readBytes_sound : Sound .octets readBytes fun _ _ => True := by
  have octet (i : Nat) : Sound (Place.octets.element i) readOctet fun _ _ => True := by
    intro text answer rest h
    obtain ⟨⟨value, after⟩, read, made⟩ := map_eq_ok.1 h
    cases made
    exact (readNatBelow_sound 256 "u8").forget read
  have array : Sound .octets (readArray readOctet "a byte array") fun _ _ => True :=
    (readArray_sound octet _).forget
  intro text answer rest h
  unfold readBytes at h
  split at h
  · next body quote => exact ⟨.string answer, .string quote (readByteString_eq_ok_iff.1 h), trivial⟩
  · obtain ⟨value, stands, -⟩ := array h
    exact ⟨value, stands.of_skipped, trivial⟩

/-- A document is one value. -/
theorem readDocument_sound {item : Bytes → Scan α} {means : α → Value → Prop} (sound : Sound place item means)
    {answer : α} (h : readDocument item text = .ok answer) : ∃ value, Document place value text ∧ means answer value := by
  obtain ⟨⟨answer', rest⟩, read, h⟩ := bind_eq_ok.1 h
  obtain ⟨value, stands, meant⟩ := sound read
  simp only at h
  split at h
  · next ended =>
    cases h
    exact ⟨value, ⟨rest, stands, List.isEmpty_iff.1 ended⟩, meant⟩
  · cases h

/-! ## Fields -/

/-- The field is read by the grammar of its place, and the draft then shows its value; what the draft shows of other fields
stays. What is shown of a field is known by the field's name, and some names are not looked at. -/
structure Field.Shows (names : List String) (view : String → δ → Option Value) (place : Place) (field : Field δ) :
    Prop where
  reads : ∀ {draft draft' : δ} {text rest : Bytes}, field.read draft text = .ok (draft', rest) →
    ∃ value, Stands place value text rest ∧
      ∀ name ∈ names, view name draft' = if name = field.name then some value else view name draft
  fresh : field.name ∈ names → ∀ draft, field.isSet draft = false → view field.name draft = none

/-- The end of the object, or the place where the next key begins. -/
theorem nextEntry_sound {first : Bool} {entry : Entry} (h : nextEntry first text = .ok entry) :
    (∃ rest, entry = .closed rest ∧ skipSpace text = 125 :: rest) ∨
      ∃ key begins, entry = .key key ∧ Next first text begins ∧ skipSpace begins = 34 :: key := by
  unfold nextEntry at h
  split at h
  · cases h
  · next rest closed =>
    cases h
    exact .inl ⟨rest, rfl, closed⟩
  · next byte tail _ here =>
    right
    split at h
    · next isFirst =>
      split at h
      · next quote =>
        obtain rfl : byte = 34 := eq_of_beq quote
        cases h
        exact ⟨tail, text, rfl, Next.first isFirst text, here⟩
      · cases h
    · next later =>
      split at h
      · cases h
      · next comma =>
        obtain rfl : byte = 44 := by simpa using comma
        split at h
        · cases h
        · next key quote =>
          cases h
          exact ⟨key, tail, rfl, Next.comma later here, quote⟩
        · cases h

theorem afterColon_sound (h : afterColon text = .ok rest) : skipSpace text = 58 :: rest := by
  unfold afterColon at h
  split at h
  · cases h
  · next colon =>
    cases h
    exact colon
  · cases h

section Objects

variable {names bytes : List String} {view : String → δ → Option Value} {fields : List (Field δ)} {draft last : δ}

theorem Place.entry_ofText (names bytes : List String) (key : String) :
    (record names bytes).entry (Bytes.ofText key) = field bytes key := by
  have same : Bytes.ofText key ∈ bytes.map Bytes.ofText ↔ key ∈ bytes :=
    List.mem_map_of_injective fun _ _ => ofText_inj.1
  simp only [entry, field, same]

/-- An entry that is read shows if its name is looked at. -/
theorem readEntry_sound (shows : ∀ field ∈ fields, field.Shows names view (.field bytes field.name))
    (known : ∀ name ∈ names ++ bytes, ∃ field ∈ fields, field.name = name)
    (h : readEntry fields draft text = .ok (last, rest)) :
    ∃ key behind field value, Literal .json (Bytes.ofText key) text behind ∧ skipSpace behind = 58 :: field ∧
      Stands (.field bytes key) value field rest ∧
      ∀ name ∈ names, (view name last).toList = (view name draft).toList ++ if key = name then [value] else [] := by
  obtain ⟨⟨key, behind⟩, read, h⟩ := bind_eq_ok.1 h
  have literal : Literal .json (Bytes.ofText key) text behind := (readTextString_eq_ok_iff.1 read).ofText
  simp only at h
  cases found : fields.find? (·.name == key) with
  | none =>
    simp only [found] at h
    obtain ⟨text', colon, h⟩ := bind_eq_ok.1 h
    obtain ⟨after, skipped, made⟩ := bind_eq_ok.1 h
    cases made
    obtain ⟨value, stands⟩ := skipValue_sound skipped
    -- nobody asks for this field
    have unknown : key ∉ names ++ bytes := fun asked => by
      obtain ⟨field, member, same⟩ := known key asked
      exact List.find?_eq_none.1 found field member (beq_iff_eq.2 same)
    obtain ⟨unseen, noBytes⟩ := not_or.1 (mt List.mem_append.2 unknown)
    have place : Place.field bytes key = .json := if_neg noBytes
    refine ⟨key, behind, text', value, literal, afterColon_sound colon, place ▸ stands, fun name shown => ?_⟩
    have other : key ≠ name := by
      rintro rfl
      exact unseen shown
    rw [if_neg other, List.append_nil]
  | some field =>
    have member := List.mem_of_find?_eq_some found
    have same : field.name = key := by simpa using List.find?_some found
    simp only [found] at h
    split at h
    · cases h
    · next unset =>
      obtain ⟨text', colon, read'⟩ := bind_eq_ok.1 h
      obtain ⟨value, stands, shown⟩ := (shows field member).reads read'
      refine ⟨key, behind, text', value, literal, afterColon_sound colon, same ▸ stands, fun name looked => ?_⟩
      rw [shown name looked, same]
      by_cases own : name = key
      · subst own
        have none := (shows field member).fresh (same ▸ looked) draft (eq_false_of_ne_true unset)
        rw [same] at none
        rw [if_pos rfl, if_pos rfl, none]
        rfl
      · rw [if_neg own, if_neg (Ne.symm own), List.append_nil]

/-- Of an object, the draft in the end shows the values that it showed before and those of the entries. -/
theorem readEntries_sound (shows : ∀ field ∈ fields, field.Shows names view (.field bytes field.name))
    (known : ∀ name ∈ names ++ bytes, ∃ field ∈ fields, field.name = name) {fuel : Nat} {first : Bool}
    (h : readEntries fields fuel first draft text = .ok (last, rest)) :
    ∃ entries, Entries (Place.record (fields.map (·.name)) bytes).entry first entries text rest ∧
      ∀ name ∈ names, (view name last).toList =
        (view name draft).toList ++ (Value.object entries).fields (fields.map (·.name)) name := by
  induction fuel generalizing first draft text with
  | zero => cases h
  | succ fuel ih =>
    rw [readEntries] at h
    cases entry : nextEntry first text with
    | error fault =>
      rw [entry] at h
      cases h
    | ok entry' =>
      rw [entry] at h
      rcases nextEntry_sound entry with ⟨after, rfl, closed⟩ | ⟨key, begins, rfl, next, quote⟩
      · cases h
        exact ⟨[], .close closed, fun name _ => (List.append_nil _).symm⟩
      · cases read : readEntry fields draft key with
        | error fault =>
          simp only [read] at h
          cases h
        | ok read' =>
          obtain ⟨draft', after⟩ := read'
          simp only [read] at h
          obtain ⟨name, behind, field, value, literal, colon, stands, shown⟩ := readEntry_sound shows known read
          obtain ⟨entries, more, shownMore⟩ := ih h
          rw [← Place.entry_ofText (fields.map (·.name))] at stands
          refine ⟨_, .cons next quote literal colon stands more, fun other looked => ?_⟩
          rw [shownMore other looked, shown other looked, List.append_assoc]
          congr 1
          simp only [Value.fields, List.filter_cons, beq_iff_eq, ofText_inj]
          split_ifs <;> rfl

/-- Of an array, likewise; each field is read once. -/
theorem readPositional_sound (shows : ∀ field ∈ fields, field.Shows names view (.field bytes field.name))
    (apart : (fields.map (·.name)).Nodup)
    (unset : ∀ field ∈ fields, field.name ∈ names → view field.name draft = none) {title : String} {total present : Nat}
    {after : Bytes} (h : readPositional title total fields present draft text = .ok (last, after))
    (closed : closePositional after = .ok rest) :
    ∃ values, Elements (Place.record (fields.map (·.name)) bytes).element (present == 0) values text rest ∧
      ∀ name ∈ names, (view name last).toList =
        (view name draft).toList ++ (Value.array values).fields (fields.map (·.name)) name := by
  induction fields generalizing present draft text with
  | nil =>
    cases h
    refine ⟨[], .close ?_, fun name _ => (List.append_nil _).symm⟩
    unfold closePositional at closed
    split at closed
    · cases closed
    · next bracket =>
      cases closed
      exact bracket
    · cases closed
  | cons field fields ih =>
    obtain ⟨own, others⟩ := List.forall_mem_cons.1 shows
    obtain ⟨noOther, apart⟩ := List.nodup_cons.1 apart
    obtain ⟨unsetOwn, unsetOthers⟩ := List.forall_mem_cons.1 unset
    rw [readPositional] at h
    cases element : nextElement (present == 0) text with
    | error fault =>
      rw [element] at h
      cases h
    | ok turn =>
      rw [element] at h
      rcases nextElement_sound element with ⟨rest, rfl, -⟩ | ⟨item, begins, rfl, next, same⟩
      · cases h
      · cases read : field.read draft item with
        | error fault =>
          simp only [read] at h
          cases h
        | ok read' =>
          obtain ⟨draft', after'⟩ := read'
          simp only [read] at h
          obtain ⟨value, stands, shown⟩ := own.reads read
          have still : ∀ field' ∈ fields, field'.name ∈ names → view field'.name draft' = none := by
            intro field' member looked
            have other : field'.name ≠ field.name := fun same => noOther (List.mem_map.2 ⟨field', member, same⟩)
            rw [shown _ looked, if_neg other, unsetOthers field' member looked]
          obtain ⟨values, more, shownMore⟩ := ih others apart still h
          refine ⟨value :: values, .cons next (stands.of_skipSpace same) more, fun name looked => ?_⟩
          rw [shownMore name looked, shown name looked]
          simp only [Value.fields, List.map_cons, List.zip_cons_cons, List.filter_cons, beq_iff_eq]
          by_cases isOwn : name = field.name
          · subst isOwn
            rw [if_pos rfl, if_pos rfl, unsetOwn looked]
            rfl
          · rw [if_neg isOwn, if_neg (Ne.symm isOwn)]

end Objects

/-! ## Records -/

/-- A record as it is read: its draft shows just what the record says about the fields that are looked at. -/
theorem readRecord_sound {shape : Shape δ ρ} {names bytes : List String} {view : String → δ → Option Value}
    (shows : ∀ field ∈ shape.fields, field.Shows names view (.field bytes field.name))
    (apart : (shape.fields.map (·.name)).Nodup)
    (known : ∀ name ∈ names ++ bytes, ∃ field ∈ shape.fields, field.name = name)
    (empty : ∀ name ∈ names, view name shape.empty = none) :
    Sound (.record (shape.fields.map (·.name)) bytes) shape.readRecord fun record value =>
      ∃ draft, shape.finish draft = .ok record ∧
        ∀ name ∈ names, value.fields (shape.fields.map (·.name)) name = (view name draft).toList := by
  have concluded {draft : δ} {record : ρ} (h : shape.conclude draft = .ok record) : shape.finish draft = .ok record := by
    unfold Shape.conclude at h
    cases finished : shape.finish draft with
    | error name =>
      rw [finished] at h
      cases h
    | ok record' =>
      rw [finished] at h
      cases h
      rfl
  have fromEmpty {draft : δ} {values : String → List Value}
      (h : ∀ name ∈ names, (view name draft).toList = (view name shape.empty).toList ++ values name) :
      ∀ name ∈ names, values name = (view name draft).toList := by
    intro name looked
    rw [h name looked, empty name looked]
    rfl
  intro text record rest h
  unfold Shape.readRecord at h
  split at h
  · next body brace =>
    obtain ⟨⟨draft, after⟩, read, h⟩ := bind_eq_ok.1 h
    obtain ⟨record', made, h⟩ := bind_eq_ok.1 h
    cases h
    obtain ⟨entries, stands, shown⟩ := readEntries_sound shows known read
    exact ⟨.object entries, .object brace stands, draft, concluded made, fromEmpty shown⟩
  · next body bracket =>
    obtain ⟨⟨draft, after⟩, read, h⟩ := bind_eq_ok.1 h
    obtain ⟨record', made, h⟩ := bind_eq_ok.1 h
    obtain ⟨after', closed, h⟩ := bind_eq_ok.1 h
    cases h
    obtain ⟨values, stands, shown⟩ :=
      readPositional_sound shows apart (fun field _ looked => empty field.name looked) read closed
    exact ⟨.array values, .array bracket stands, draft, concluded made, fromEmpty shown⟩
  · cases h

end ChainArchive.Json
