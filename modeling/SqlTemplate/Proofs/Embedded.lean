import SqlTemplate.Proofs.Atoms

/-!
# JSON texts within JSON values

An object may stand for the value of a text that it holds. Such a text is shorter than the text
around it, so that any bound on how deep they are nested will do if it is no less than the length
of the whole (`parseWithin_of_length_le`), and reading a text is reading it as it is written and
then all the texts in it (`parse?_eq_bind`). A value stands for itself unless such an object is
in it (`settled?_eq_self_iff`), and such an object is read as the text in it (`parse?_carrier`).
-/

namespace SqlTemplate.Json

/-! ### The strings of a value -/

mutual

/-- The strings of a value, the names of fields included. -/
def strings : Json → List String
  | string s => [s]
  | array items => itemStrings items
  | object fields => fieldStrings fields
  | _ => []

def itemStrings : List Json → List String
  | [] => []
  | item :: items => strings item ++ itemStrings items

def fieldStrings : List (String × Json) → List String
  | [] => []
  | (name, value) :: fields => name :: strings value ++ fieldStrings fields

end

theorem stringTail?_length {cs body rest : List Char} (read : stringTail? cs = some (body, rest)) :
    body.length < cs.length := by
  fun_induction stringTail? cs generalizing body rest with
  | case1 => cases read
  | case2 cs =>
    cases read
    exact Nat.zero_lt_succ _
  | case3 => cases read
  | case4 cs c after found shorter ih =>
    obtain ⟨⟨b, r⟩, more, same⟩ := Option.map_eq_some_iff.mp read
    cases same
    have := ih more
    simp only [List.length_cons]
    omega
  | case5 => cases read
  | case6 c cs _ _ _ ih =>
    obtain ⟨⟨b, r⟩, more, same⟩ := Option.map_eq_some_iff.mp read
    cases same
    have := ih more
    simp only [List.length_cons]
    omega

theorem Numeral.strings_value? {numeral : Numeral} {value : Json}
    (found : numeral.value? = some value) : value.strings = [] := by
  unfold Numeral.value? at found
  dsimp only at found
  split_ifs at found
  · cases found
    rfl
  · cases found
    rfl
  · cases found
    rfl
  · obtain ⟨x, _, rfl⟩ := Option.map_eq_some_iff.mp found
    rfl

theorem atom?_strings {cs rest : List Char} {value : Json} (read : atom? cs = some (value, rest)) :
    ∀ s ∈ value.strings, s.length < cs.length := by
  unfold atom? at read
  split at read
  · obtain ⟨⟨body, r⟩, found, same⟩ := Option.map_eq_some_iff.mp read
    cases same
    have shorter := stringTail?_length found
    intro s member
    obtain rfl := List.mem_singleton.mp member
    rw [String.length_ofList, List.length_cons]
    omega
  split at read
  · next found =>
    cases read
    obtain ⟨⟨word, v⟩, member, matched⟩ := List.exists_of_findSome?_eq_some found
    obtain ⟨_, _, same⟩ := Option.map_eq_some_iff.mp matched
    cases same
    have none : ∀ entry ∈ words, entry.2.strings = [] := by
      simp [words, strings]
    simp [none _ member]
  · obtain ⟨⟨numeral, r⟩, _, read⟩ := Option.bind_eq_some_iff.mp read
    obtain ⟨v, found, same⟩ := Option.bind_eq_some_iff.mp read
    cases same
    simp [Numeral.strings_value? found]

theorem name?_length {cs : List Char} {name : String} {rest : Rest cs}
    (read : name? cs = some (name, rest)) : name.length < cs.length := by
  unfold name? at read
  split at read
  · next text front =>
    split at read
    · next body r found =>
      cases read
      have inText := stringTail?_length found
      have := skipSpace_shorter front
      rw [String.length_ofList]
      omega
    · cases read
  · cases read

mutual

/-- Every string of a value is shorter than the text of the value. -/
theorem value?_strings {depth : Nat} {cs : List Char} {value : Json} {rest : Rest cs}
    (read : value? depth cs = some (value, rest)) : ∀ s ∈ value.strings, s.length < cs.length := by
  rw [value?] at read
  split at read
  · next inner front =>
    have within := skipSpace_shorter front
    split at read
    · cases read
    split at read
    · cases read
      simp [strings, itemStrings]
    · obtain ⟨⟨items, after⟩, isItems, same⟩ := Option.bind_eq_some_iff.mp read
      cases same
      intro s member
      exact Nat.lt_trans (items?_strings isItems s member) within
  · next inner front =>
    have within := skipSpace_shorter front
    split at read
    · cases read
    split at read
    · cases read
      simp [strings, fieldStrings]
    · obtain ⟨⟨fields, after⟩, isFields, same⟩ := Option.bind_eq_some_iff.mp read
      cases same
      intro s member
      exact Nat.lt_trans (fields?_strings isFields s member) within
  · cases read
  · next c text _ _ front =>
    split at read
    · next found =>
      cases read
      have := skipSpace_shorter front
      intro s member
      have := atom?_strings found s member
      rw [List.length_cons] at this
      omega
    · cases read
termination_by (cs.length, 0)

theorem items?_strings {depth : Nat} {cs : List Char} {items : List Json} {rest : Rest cs}
    (read : items? depth cs = some (items, rest)) :
    ∀ s ∈ itemStrings items, s.length < cs.length := by
  rw [items?] at read
  obtain ⟨⟨item, after⟩, isItem, read⟩ := Option.bind_eq_some_iff.mp read
  have first := value?_strings isItem
  dsimp only at read
  split at read
  · next more front =>
    have within := Nat.lt_trans (skipSpace_shorter front) after.2
    obtain ⟨⟨items, last⟩, isItems, same⟩ := Option.bind_eq_some_iff.mp read
    cases same
    intro s member
    obtain member | member := List.mem_append.mp member
    · exact first s member
    · exact Nat.lt_trans (items?_strings isItems s member) within
  · cases read
    simpa [itemStrings] using first
  · cases read
termination_by (cs.length, 1)

theorem fields?_strings {depth : Nat} {cs : List Char} {fields : List (String × Json)}
    {rest : Rest cs} (read : fields? depth cs = some (fields, rest)) :
    ∀ s ∈ fieldStrings fields, s.length < cs.length := by
  rw [fields?] at read
  obtain ⟨⟨name, colon⟩, isName, read⟩ := Option.bind_eq_some_iff.mp read
  have named := name?_length isName
  dsimp only at read
  split at read
  · next text front =>
    have behind := Nat.lt_trans (skipSpace_shorter front) colon.2
    obtain ⟨⟨value, after⟩, isValue, read⟩ := Option.bind_eq_some_iff.mp read
    have first : ∀ s ∈ name :: value.strings, s.length < cs.length := by
      intro s member
      obtain rfl | member := List.mem_cons.mp member
      · exact named
      · exact Nat.lt_trans (value?_strings isValue s member) behind
    dsimp only at read
    split at read
    · next more front =>
      have within := Nat.lt_trans (Nat.lt_trans (skipSpace_shorter front) after.2) behind
      obtain ⟨⟨fields, last⟩, isFields, same⟩ := Option.bind_eq_some_iff.mp read
      cases same
      intro s member
      obtain member | member := List.mem_append.mp member
      · exact first s member
      · exact Nat.lt_trans (fields?_strings isFields s member) within
    · cases read
      simpa [fieldStrings] using first
    · cases read
  · cases read
termination_by (cs.length, 1)

end

theorem written?_strings {text : String} {value : Json} (written : written? text = some value) :
    ∀ s ∈ value.strings, s.length < text.length := by
  unfold written? at written
  obtain ⟨⟨value, rest⟩, isValue, written⟩ := Option.bind_eq_some_iff.mp written
  obtain ⟨_, _, same⟩ := Option.bind_eq_some_iff.mp written
  cases same
  simpa only [String.length_toList] using value?_strings isValue

/-! ### Texts in texts, at any depth -/

theorem mem_fieldStrings_of_onlyText? {fields : List (String × Json)} {text : String}
    (only : onlyText? fields = some text) : text ∈ fieldStrings fields := by
  unfold onlyText? at only
  split at only
  · cases only
    simp [fieldStrings, strings]
  · cases only

section Readers

variable {read read' : String → Option Json}

mutual

/-- Two readers of texts that agree on the strings of a value make the same of it. -/
theorem settleWith_congr {value : Json} (agree : ∀ s ∈ value.strings, read s = read' s) :
    settleWith read value = settleWith read' value := by
  match value with
  | array items => rw [settleWith, settleWith, settleItems_congr agree]
  | object fields =>
    rw [settleWith, settleWith, settleFields_congr agree]
    split_ifs
    · refine Option.bind_congr fun text only => ?_
      exact agree text (mem_fieldStrings_of_onlyText? only)
    · rfl
  | null | bool _ | integer _ | number _ | string _ => rfl

theorem settleItems_congr {items : List Json} (agree : ∀ s ∈ itemStrings items, read s = read' s) :
    settleItems read items = settleItems read' items := by
  match items with
  | [] => rfl
  | item :: items =>
    have first : settleWith read item = settleWith read' item :=
      settleWith_congr fun s member => agree s (List.mem_append_left _ member)
    have others : settleItems read items = settleItems read' items :=
      settleItems_congr fun s member => agree s (List.mem_append_right _ member)
    rw [settleItems, settleItems, first, others]

theorem settleFields_congr {fields : List (String × Json)}
    (agree : ∀ s ∈ fieldStrings fields, read s = read' s) :
    settleFields read fields = settleFields read' fields := by
  match fields with
  | [] => rfl
  | (name, value) :: fields =>
    have first : settleWith read value = settleWith read' value :=
      settleWith_congr fun s member =>
        agree s (List.mem_append_left _ (List.mem_cons_of_mem _ member))
    have others : settleFields read fields = settleFields read' fields :=
      settleFields_congr fun s member => agree s (List.mem_append_right _ member)
    rw [settleFields, settleFields, first, others]

end

end Readers

theorem parseWithin_succ {levels : Nat} {text : String} (enough : text.length ≤ levels) :
    parseWithin (levels + 1) text = parseWithin levels text := by
  induction levels generalizing text with
  | zero =>
    rw [parseWithin, parseWithin]
    refine Option.bind_congr fun value written => settleWith_congr fun s member => ?_
    have := written?_strings written s member
    omega
  | succ levels ih =>
    rw [parseWithin, parseWithin]
    refine Option.bind_congr fun value written => settleWith_congr fun s member => ih ?_
    have := written?_strings written s member
    omega

/-- Every bound will do that is no less than the length of the text. -/
theorem parseWithin_of_length_le {levels : Nat} {text : String} (enough : text.length ≤ levels) :
    parseWithin levels text = parse? text := by
  induction levels, enough using Nat.le_induction with
  | base => rfl
  | succ levels enough ih => rw [parseWithin_succ enough, ih]

/-- The value that a value stands for, wherever it is written. -/
def settled? (value : Json) : Option Json := settleWith parse? value

theorem settle?_eq {text : String} {value : Json} (written : written? text = some value) :
    settle? text value = settled? value := by
  refine settleWith_congr fun s member => parseWithin_of_length_le ?_
  exact (written?_strings written s member).le

/-- A text is read as it is written, and then the texts in it. -/
theorem parse?_eq_bind (text : String) : parse? text = (written? text).bind settled? := by
  rw [← parseWithin_of_length_le (Nat.le_succ _), parseWithin]
  exact Option.bind_congr fun value written => settle?_eq written

/-! ### Fields in the order of their names -/

/-- The names of fields. -/
abbrev names (fields : List (String × Json)) : List String := fields.map Prod.fst

theorem mem_names_insertField {name entry : String} {value : Json}
    {fields : List (String × Json)} :
    entry ∈ names (insertField name value fields) ↔ entry = name ∨ entry ∈ names fields := by
  fun_induction insertField name value fields with
  | case1 => simp
  | case2 => simp
  | case3 first old fields _ same =>
    obtain rfl : name = first := by simpa using same
    simp
  | case4 first old fields _ _ ih =>
    simp only [names, List.map_cons, List.mem_cons] at ih ⊢
    rw [ih, or_left_comm]

/-- What stands behind all others is set behind them. -/
theorem insertField_of_forall_lt {name : String} {value : Json} {fields : List (String × Json)}
    (last : ∀ entry ∈ names fields, entry < name) :
    insertField name value fields = fields ++ [(name, value)] := by
  fun_induction insertField name value fields with
  | case1 => rfl
  | case2 first old fields before =>
    exact absurd before (String.lt_asymm (last first (by simp)))
  | case3 first old fields _ same =>
    obtain rfl : name = first := by simpa using same
    exact absurd (last name (by simp)) (String.lt_irrefl name)
  | case4 first old fields _ _ ih =>
    rw [ih fun entry member => last entry (List.mem_cons_of_mem _ member), List.cons_append]

/-- Fields set one by one among fields in order. -/
def insertFields (sorted fields : List (String × Json)) : List (String × Json) :=
  fields.foldl (fun sorted (name, value) => insertField name value sorted) sorted

theorem mem_names_insertFields {entry : String} {sorted fields : List (String × Json)} :
    entry ∈ names (insertFields sorted fields) ↔ entry ∈ names sorted ∨ entry ∈ names fields := by
  induction fields generalizing sorted with
  | nil => simp [insertFields]
  | cons field fields ih =>
    calc entry ∈ names (insertFields (insertField field.1 field.2 sorted) fields)
      _ ↔ entry ∈ names (insertField field.1 field.2 sorted) ∨ entry ∈ names fields := ih
      _ ↔ entry ∈ names sorted ∨ entry ∈ names (field :: fields) := by
        simp only [mem_names_insertField, List.map_cons, List.mem_cons, or_assoc, or_left_comm]

theorem insertFields_of_ordered {sorted fields : List (String × Json)}
    (ordered : (names (sorted ++ fields)).Pairwise (· < ·)) :
    insertFields sorted fields = sorted ++ fields := by
  induction fields generalizing sorted with
  | nil => simp [insertFields]
  | cons field fields ih =>
    have last : ∀ entry ∈ names sorted, entry < field.1 := by
      rw [names, List.map_append, List.pairwise_append] at ordered
      exact fun entry member => ordered.2.2 entry member field.1 (by simp)
    rw [← List.singleton_append, ← List.append_assoc] at ordered ⊢
    rw [← ih ordered, ← insertField_of_forall_lt last]
    rfl

theorem ofFields_of_ordered {fields : List (String × Json)}
    (ordered : (names fields).Pairwise (· < ·)) : ofFields fields = object fields :=
  congrArg object (insertFields_of_ordered ordered)

theorem names_settleFields {read : String → Option Json} {fields settled : List (String × Json)}
    (isSettled : settleFields read fields = some settled) : names settled = names fields := by
  induction fields generalizing settled with
  | nil =>
    cases isSettled
    rfl
  | cons field fields ih =>
    obtain ⟨value, _, isSettled⟩ := Option.bind_eq_some_iff.mp isSettled
    obtain ⟨others, isOthers, same⟩ := Option.bind_eq_some_iff.mp isSettled
    cases same
    exact congrArg (field.1 :: ·) (ih isOthers)

/-! ### Texts that stand for other texts -/

theorem names_of_onlyText? {fields : List (String × Json)} {inner : String}
    (embedded : embeds fields) (only : onlyText? fields = some inner) :
    names fields = [embeddedName] := by
  unfold onlyText? at only
  split at only
  · simpa [embeds] using embedded
  · cases only

/-- No text stands for an object that stands for a text: the text in the object would be read in
its place. -/
theorem parse?_ne_embedded {fields : List (String × Json)} {inner text : String}
    (embedded : embeds fields) (only : onlyText? fields = some inner) :
    parse? text ≠ some (object fields) := by
  induction size : text.length using Nat.strong_induction_on generalizing text with
  | _ size ih =>
  subst size
  rw [parse?_eq_bind]
  intro read
  obtain ⟨value, written, stands⟩ := Option.bind_eq_some_iff.mp read
  match value with
  | object writtenFields =>
    rw [settled?, settleWith] at stands
    split at stands
    · -- The text in it is shorter, and stands for the same.
      obtain ⟨next, isNext, read⟩ := Option.bind_eq_some_iff.mp stands
      have shorter := written?_strings written next (mem_fieldStrings_of_onlyText? isNext)
      exact ih next.length shorter rfl read
    · next plain =>
      -- The first name in it is another, and it stays among the names.
      obtain ⟨settled, isSettled, same⟩ := Option.map_eq_some_iff.mp stands
      have kept : ∀ name, name ∈ names writtenFields ↔ name = embeddedName := by
        intro name
        rw [← List.mem_singleton, ← names_of_onlyText? embedded only, ← Json.object.inj same,
          ← names_settleFields isSettled]
        exact (mem_names_insertFields.trans (or_iff_right List.not_mem_nil)).symm
      cases writtenFields with
      | nil => exact List.not_mem_nil ((kept embeddedName).mpr rfl)
      | cons field fields =>
        exact plain (beq_iff_eq.mpr ((kept field.1).mp List.mem_cons_self))
  | array items =>
    obtain ⟨_, _, same⟩ := Option.map_eq_some_iff.mp stands
    cases same
  | null | bool _ | integer _ | number _ | string _ => cases stands

/-! ### Values that stand for themselves -/

/-- A value that another is, or that is in it at some depth. -/
inductive Within (part : Json) : Json → Prop where
  | self : Within part part
  | item {item : Json} {items : List Json} (member : item ∈ items) (within : Within part item) :
    Within part (array items)
  | field {field : String × Json} {fields : List (String × Json)} (member : field ∈ fields)
    (within : Within part field.2) : Within part (object fields)

/-- The fields of every object in a value stand in the order of their names, with one field of
each name. -/
def Ordered (value : Json) : Prop :=
  ∀ fields, (object fields).Within value → (names fields).Pairwise (· < ·)

/-- Some object in a value begins as one does that stands for a text. -/
def Embedding (value : Json) : Prop := ∃ fields, (object fields).Within value ∧ embeds fields

theorem ordered_array {items : List Json} :
    (array items).Ordered ↔ ∀ item ∈ items, item.Ordered := by
  constructor
  · exact fun ordered item member fields within => ordered fields (.item member within)
  · intro each fields within
    cases within with
    | item member within => exact each _ member fields within

theorem ordered_object {fields : List (String × Json)} :
    (object fields).Ordered ↔
      (names fields).Pairwise (· < ·) ∧ ∀ field ∈ fields, field.2.Ordered := by
  constructor
  · intro ordered
    exact ⟨ordered fields .self, fun field member inner within =>
      ordered inner (.field member within)⟩
  · rintro ⟨ordered, each⟩ inner within
    cases within with
    | self => exact ordered
    | field member within => exact each _ member inner within

theorem embedding_array {items : List Json} :
    (array items).Embedding ↔ ∃ item ∈ items, item.Embedding := by
  constructor
  · rintro ⟨fields, within, embedded⟩
    cases within with
    | item member within => exact ⟨_, member, fields, within, embedded⟩
  · rintro ⟨item, member, fields, within, embedded⟩
    exact ⟨fields, .item member within, embedded⟩

theorem embedding_object {fields : List (String × Json)} :
    (object fields).Embedding ↔ embeds fields ∨ ∃ field ∈ fields, field.2.Embedding := by
  constructor
  · rintro ⟨inner, within, embedded⟩
    cases within with
    | self => exact .inl embedded
    | field member within => exact .inr ⟨_, member, inner, within, embedded⟩
  · rintro (embedded | ⟨field, member, inner, within, embedded⟩)
    · exact ⟨fields, .self, embedded⟩
    · exact ⟨inner, .field member within, embedded⟩

theorem settleItems_eq_self_iff {read : String → Option Json} {items : List Json} :
    settleItems read items = some items ↔ ∀ item ∈ items, settleWith read item = some item := by
  induction items with
  | nil => simp [settleItems]
  | cons item items ih =>
    rw [List.forall_mem_cons, ← ih]
    simp [settleItems, Option.bind_eq_some_iff]

theorem settleFields_eq_self_iff {read : String → Option Json} {fields : List (String × Json)} :
    settleFields read fields = some fields ↔
      ∀ field ∈ fields, settleWith read field.2 = some field.2 := by
  induction fields with
  | nil => simp [settleFields]
  | cons field fields ih =>
    obtain ⟨name, value⟩ := field
    rw [List.forall_mem_cons, ← ih]
    simp [settleFields, Option.bind_eq_some_iff]

/-- No object is in a value that holds no others. -/
theorem not_within_atom {value : Json} {fields : List (String × Json)}
    (noItems : ∀ items, value ≠ array items) (noFields : ∀ fields, value ≠ object fields) :
    ¬ (object fields).Within value := by
  intro within
  cases within with
  | self => exact noFields fields rfl
  | item => exact noItems _ rfl
  | field => exact noFields _ rfl

theorem ordered_atom {value : Json} (noItems : ∀ items, value ≠ array items)
    (noFields : ∀ fields, value ≠ object fields) : value.Ordered :=
  fun _ within => (not_within_atom noItems noFields within).elim

theorem not_embedding_atom {value : Json} (noItems : ∀ items, value ≠ array items)
    (noFields : ∀ fields, value ≠ object fields) : ¬ value.Embedding :=
  fun ⟨_, within, _⟩ => not_within_atom noItems noFields within

theorem settled?_array_eq_self_iff {items : List Json} :
    settled? (array items) = some (array items) ↔ ∀ item ∈ items, settled? item = some item := by
  unfold settled?
  rw [settleWith, ← settleItems_eq_self_iff, Option.map_eq_some_iff]
  simp

theorem settled?_object_eq_self_iff {fields : List (String × Json)}
    (ordered : (names fields).Pairwise (· < ·)) :
    settled? (object fields) = some (object fields) ↔
      ¬ embeds fields ∧ ∀ field ∈ fields, settled? field.2 = some field.2 := by
  unfold settled?
  rw [settleWith]
  split
  · next embedded =>
    refine iff_of_false (fun stands => ?_) fun plain => plain.1 embedded
    obtain ⟨inner, only, read⟩ := Option.bind_eq_some_iff.mp stands
    exact parse?_ne_embedded embedded only read
  · next plain =>
    rw [and_iff_right plain, ← settleFields_eq_self_iff, Option.map_eq_some_iff]
    constructor
    · rintro ⟨settled, isSettled, same⟩
      -- The names are as before, and so in order still.
      rw [← names_settleFields isSettled] at ordered
      rw [ofFields_of_ordered ordered] at same
      rw [isSettled, Json.object.inj same]
    · intro isSettled
      exact ⟨fields, isSettled, ofFields_of_ordered ordered⟩

/-- Values stand for themselves just if no text is embedded in them. -/
theorem settled?_eq_self_iff {value : Json} (ordered : value.Ordered) :
    settled? value = some value ↔ ¬ value.Embedding := by
  match value with
  | array items =>
    have each : ∀ item ∈ items, settled? item = some item ↔ ¬ item.Embedding :=
      fun item member => settled?_eq_self_iff (ordered_array.mp ordered item member)
    rw [embedding_array, settled?_array_eq_self_iff, forall₂_congr each]
    simp only [not_exists, not_and]
  | object fields =>
    have each : ∀ field ∈ fields, settled? field.2 = some field.2 ↔ ¬ field.2.Embedding :=
      fun field member => settled?_eq_self_iff ((ordered_object.mp ordered).2 field member)
    rw [embedding_object, settled?_object_eq_self_iff (ordered fields .self), forall₂_congr each]
    simp only [not_or, not_exists, not_and]
  | null | bool _ | integer _ | number _ | string _ =>
    exact iff_of_true rfl (not_embedding_atom nofun nofun)
termination_by sizeOf value
decreasing_by
  · have := List.sizeOf_lt_of_mem member
    simp only [array.sizeOf_spec]
    omega
  · have := List.sizeOf_lt_of_mem member
    have : sizeOf field = 1 + sizeOf field.1 + sizeOf field.2 := rfl
    simp only [object.sizeOf_spec]
    omega

/-! ### An object for a text, as it is written -/

/-- Fields and what is left of the text, without the proof that something was read. -/
def readFields? (depth : Nat) (cs : List Char) : Option (List (String × Json) × List Char) :=
  (fields? depth cs).map fun (fields, rest) => (fields, rest.1)

theorem read?_object {depth : Nat} {cs inner rest : List Char} {fields : List (String × Json)}
    (front : skipSpace cs = '\x7b' :: inner) (opens : ∀ rest, skipSpace inner ≠ '\x7d' :: rest)
    (read : readFields? depth inner = some (fields, rest)) :
    read? (depth + 1) cs = some (object fields, rest) := by
  obtain ⟨⟨fields', rest', shorter⟩, isFields, same⟩ := Option.map_eq_some_iff.mp read
  cases same
  unfold read?
  rw [value?]
  split
  · next isFront => simp [front] at isFront
  · next inner' isFront =>
    obtain rfl : inner = inner' := by simpa [front] using isFront
    simp only [Nat.add_one_ne_zero, if_false, Nat.add_one_sub_one, isFields]
    rfl
  · next isFront => simp [front] at isFront
  · next noBrace isFront =>
    rw [front] at isFront
    cases isFront
    exact (noBrace rfl).elim

theorem name?_of_stringTail? {cs text body rest : List Char} (front : skipSpace cs = '"' :: text)
    (read : stringTail? text = some (body, rest)) :
    ∃ shorter, name? cs = some (String.ofList body, ⟨rest, shorter⟩) := by
  unfold name?
  split
  · next text' isFront =>
    obtain rfl : text = text' := by simpa [front] using isFront
    split
    · next isTail =>
      cases read.symm.trans isTail
      exact ⟨Nat.lt_trans (stringTail?_shorter read) (skipSpace_shorter front), rfl⟩
    · next isNone => simp [read] at isNone
  · next noQuote => exact (noQuote text front).elim

theorem readFields?_last {depth : Nat} {cs name colon text body after rest : List Char}
    {value : Json} (front : skipSpace cs = '"' :: name)
    (named : stringTail? name = some (body, colon)) (isColon : skipSpace colon = ':' :: text)
    (last : read? depth text = some (value, after)) (closed : skipSpace after = '\x7d' :: rest) :
    readFields? depth cs = some ([(String.ofList body, value)], rest) := by
  obtain ⟨shorter, isName⟩ := name?_of_stringTail? front named
  obtain ⟨shorter', isValue⟩ := value?_of_read? last
  unfold readFields?
  rw [fields?, isName]
  simp only [Option.bind_eq_bind, Option.bind_some]
  split
  · next text' isColon' =>
    obtain rfl : text = text' := by simpa [isColon] using isColon'
    simp only [isValue, Option.bind_some]
    split
    · next isComma => simp [closed] at isComma
    · next rest' isClosed =>
      obtain rfl : rest = rest' := by simpa [closed] using isClosed
      rfl
    · next noClose => exact (noClose rest closed).elim
  · next noColon => exact (noColon text isColon).elim

theorem read?_string {depth : Nat} {cs text body rest : List Char}
    (front : skipSpace cs = '"' :: text) (read : stringTail? text = some (body, rest)) :
    read? depth cs = some (string (String.ofList body), rest) := by
  rw [read?_eq_atom? front (by decide) (by decide), atom?, read]
  rfl

/-- The object that stands for a text, as it is written. -/
def carrier (text : String) : String :=
  "\x7b\"" ++ embeddedName ++ "\":\"" ++ text ++ "\"\x7d"

theorem written?_carrier {text : String} (plain : ∀ c ∈ text.toList, Plain c) :
    written? (carrier text) = some (object [(embeddedName, string text)]) := by
  let field := '"' :: (text.toList ++ '"' :: ['\x7d'])
  let inner := '"' :: (embeddedName.toList ++ '"' :: ':' :: field)
  have isText : read? 126 field = some (string text, ['\x7d']) := by
    simpa using read?_string rfl (stringTail?_of_plain plain ['\x7d'])
  have isField : readFields? 126 inner = some ([(embeddedName, string text)], []) := by
    have plainName : ∀ c ∈ embeddedName.toList, Plain c := by simp [embeddedName, Plain]
    have name := stringTail?_of_plain plainName (':' :: field)
    simpa using readFields?_last rfl name rfl isText rfl
  have isObject : read? maxDepth ('\x7b' :: inner) =
      some (object [(embeddedName, string text)], []) :=
    read?_object rfl (fun _ => by simp [inner, skipSpace, isSpace]) isField
  have layout : (carrier text).toList = '\x7b' :: inner := by
    simp [carrier, inner, field]
  rw [written?_eq_bind, layout, isObject]
  rfl

/-- What stands in place of a text is read as the text. -/
theorem parse?_carrier {text : String} (plain : ∀ c ∈ text.toList, Plain c) :
    parse? (carrier text) = parse? text := by
  rw [parse?_eq_bind, written?_carrier plain]
  rfl

end SqlTemplate.Json
