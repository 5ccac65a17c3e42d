import SqlTemplate.Proofs.Embedded
import SqlTemplate.Scalar

/-!
# Two ways from JSON to scalars

A JSON value becomes a scalar by its kind (`ofJson`), and a text is read by the first kind of
scalar that takes it (`parse?`). The order of the kinds makes no difference (`read?_eq`). What
the two do with objects and arrays is the same unless a text is embedded in one: only the second
looks for such texts (`deserialize?_eq_ofJson_iff`). No way loses anything but integers that do
not fit.
-/

namespace SqlTemplate.Scalar

/-- The integers of sixty-four bits with a sign. -/
def InRange (n : Int) : Prop := Int64.minValue.toInt ≤ n ∧ n ≤ Int64.maxValue.toInt

theorem int64?_of_inRange {n : Int} (inRange : InRange n) : int64? n = some (Int64.ofInt n) := by
  unfold int64?
  rw [if_pos]
  simpa only [InRange, Bool.and_eq_true, decide_eq_true_eq] using inRange

theorem toInt_ofInt_of_inRange {n : Int} (inRange : InRange n) : (Int64.ofInt n).toInt = n := by
  have low : Int64.minValue.toInt = -9223372036854775808 := rfl
  have high : Int64.maxValue.toInt = 9223372036854775807 := rfl
  obtain ⟨above, below⟩ := inRange
  exact Int64.toInt_ofInt_of_le (by omega) (by omega)

theorem toJson_ofJson {value : Json} (inRange : ∀ n, value = .integer n → InRange n) :
    (ofJson value).toJson = value := by
  cases value with
  | integer n =>
    have fits := inRange n rfl
    rw [ofJson, int64?_of_inRange fits]
    exact congrArg Json.integer (toInt_ofInt_of_inRange fits)
  | _ => rfl

/-- The first kind of scalar that takes a value is the kind of the value. -/
theorem read?_eq (value : Json) : read? value = some (ofJson value) := by
  cases value with
  | integer n =>
    unfold read? kinds ofJson
    cases fits : int64? n with
    | some _ => simp [fits]
    | none => simp [fits]
  | _ => rfl

/-- The scalar of a JSON value by the first kind that takes it. In arrays and objects, what is
embedded is read. -/
def deserialize? (value : Json) : Option Scalar := do
  match ← read? value with
  | json value => return json (← value.settled?)
  | other => return other

theorem ofJson_integer_ne_json (n : Int) (held : Json) : ofJson (.integer n) ≠ json held := by
  unfold ofJson
  dsimp only
  split
  · nofun
  · nofun

/-- What is bound as JSON is bound as it is. -/
theorem eq_of_ofJson_eq_json {value held : Json} (isJson : ofJson value = json held) :
    value = held := by
  cases value with
  | array items => exact json.inj isJson
  | object fields => exact json.inj isJson
  | integer n => exact (ofJson_integer_ne_json n held isJson).elim
  | _ => cases isJson

theorem parse?_eq_bind (text : String) :
    parse? text = (Json.written? text).bind deserialize? := by
  refine Option.bind_congr fun value written => ?_
  unfold deserialize?
  rw [read?_eq]
  cases kind : ofJson value with
  | json held =>
    obtain rfl := eq_of_ofJson_eq_json kind
    simp [Json.settle?_eq written]
  | _ => rfl

theorem deserialize?_of_json {value : Json} (kind : ofJson value = json value) :
    deserialize? value = value.settled?.map json := by
  unfold deserialize?
  rw [read?_eq, kind]
  cases isSettled : value.settled? <;> simp [isSettled]

theorem deserialize?_of_ne_json {value : Json} (kind : ofJson value ≠ json value) :
    deserialize? value = some (ofJson value) := by
  unfold deserialize?
  rw [read?_eq]
  cases isKind : ofJson value with
  | json held =>
    obtain rfl := eq_of_ofJson_eq_json isKind
    exact absurd isKind kind
  | _ => rfl

/-- What stands in place of a text is bound as JSON, whatever the value of the text is. -/
theorem parse?_carrier {text : String} (plain : ∀ c ∈ text.toList, Json.Plain c) :
    parse? (Json.carrier text) = (Json.parse? text).map json := by
  rw [parse?_eq_bind, Json.written?_carrier plain, Option.bind_some, deserialize?_of_json rfl]
  rfl

/-! ### Both ways -/

/-- Values become the same scalar in both ways just if no text is embedded in them, and a scalar
becomes the value again unless that is an integer out of range. -/
theorem deserialize?_eq_ofJson_iff {value : Json} (ordered : value.Ordered) :
    (deserialize? value = some (ofJson value) ↔ ¬ value.Embedding) ∧
      ((∀ n, value = .integer n → InRange n) → (ofJson value).toJson = value) := by
  refine ⟨?_, toJson_ofJson⟩
  by_cases kind : ofJson value = json value
  · rw [deserialize?_of_json kind, kind, ← Json.settled?_eq_self_iff ordered,
      Option.map_eq_some_iff]
    simp
  · refine iff_of_true (deserialize?_of_ne_json kind) (Json.not_embedding_atom ?_ ?_)
    · rintro items rfl
      exact kind rfl
    · rintro fields rfl
      exact kind rfl

/-- An object in an object, with an item of each end of the range. -/
def nested : Json :=
  .object [("a", .array [.integer Int64.minValue.toInt, .integer Int64.maxValue.toInt, .null]),
    ("b", .object [("c", .string "it's")])]

theorem nested_deserialized :
    nested.Ordered ∧ deserialize? nested = some (json nested) ∧
      (ofJson nested).toJson = nested := by
  have ordered : nested.Ordered := by
    refine Json.ordered_object.mpr ⟨by decide, ?_⟩
    simp [Json.ordered_object, Json.ordered_array, Json.ordered_atom]
  have plain : ¬ nested.Embedding := by
    simp [nested, Json.embedding_object, Json.embedding_array, Json.not_embedding_atom,
      Json.embeds, Json.embeddedName]
  have inRange : ∀ n, nested = .integer n → InRange n := by
    intro n same
    cases same
  obtain ⟨same, back⟩ := deserialize?_eq_ofJson_iff ordered
  exact ⟨ordered, same.mpr plain, back inRange⟩

/-- A value that a text is embedded in: a number, which is not bound as one. -/
def embeddedOne : Json := .object [(Json.embeddedName, .string "1")]

theorem deserialize?_embeddedOne :
    embeddedOne.Ordered ∧ ofJson embeddedOne = json embeddedOne ∧
      deserialize? embeddedOne = some (json (.integer 1)) ∧
      deserialize? embeddedOne ≠ some (ofJson embeddedOne) ∧
      (Json.parse? (Json.carrier "1")).map ofJson = some (int 1) ∧
      parse? (Json.carrier "1") = some (json (.integer 1)) := by
  have one : Json.parse? "1" = some (.integer 1) := by
    have digit : Json.read? Json.maxDepth "1".toList = Json.atom? "1".toList :=
      Json.read?_eq_atom? rfl (by decide) (by decide)
    have written : Json.written? "1" = some (.integer 1) := by
      rw [Json.written?_eq_bind, digit]
      rfl
    exact Json.parse?_of_written? written fun _ => rfl
  have plain : ∀ c ∈ "1".toList, Json.Plain c := by simp [Json.Plain]
  have read : deserialize? embeddedOne = some (json (.integer 1)) := by
    rw [deserialize?_of_json rfl]
    exact congrArg (Option.map json) one
  refine ⟨?_, rfl, read, ?_, ?_, ?_⟩
  · simp [embeddedOne, Json.ordered_object, Json.ordered_atom]
  · rw [read]
    intro same
    cases same
  · rw [Json.parse?_carrier plain, one]
    rfl
  · rw [parse?_carrier plain, one]
    rfl

end SqlTemplate.Scalar
