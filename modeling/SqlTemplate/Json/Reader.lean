import SqlTemplate.Json
import SqlTemplate.Text

/-!
# Reading JSON

A number without fraction and exponent is an integer if it lies between `-2 ^ 63` and
`2 ^ 64 - 1` and is not a negative zero. Every other number is a double, made of the digits
that fit a significand of sixty-four bits. A value may be nested a hundred and twenty-seven
levels deep. An object whose first field has a certain name stands for the value of the text in
that field.
-/

namespace SqlTemplate.Json

structure Numeral where
  negative : Bool
  whole : List Char
  fraction : Option (List Char)
  exponent : Option Int
deriving Repr, DecidableEq

def digits? (cs : List Char) : Option (List Char × List Char) :=
  match cs.takeWhile Char.isDigit with
  | [] => none
  | run => some (run, cs.dropWhile Char.isDigit)

def valueOfDigits (run : List Char) : Nat := run.foldl (fun n c => 10 * n + (c.toNat - 48)) 0

def minus : List Char → Bool × List Char
  | '-' :: cs => (true, cs)
  | cs => (false, cs)

def fraction? : List Char → Option (Option (List Char) × List Char)
  | '.' :: cs => (digits? cs).map fun (run, rest) => (some run, rest)
  | cs => some (none, cs)

def exponent? : List Char → Option (Option Int × List Char)
  | [] => some (none, [])
  | c :: cs =>
    if c == 'e' || c == 'E' then
      let (negative, unsigned) :=
        match cs with
        | '+' :: more => (false, more)
        | cs => minus cs
      (digits? unsigned).map fun (run, rest) =>
        let power : Int := valueOfDigits run
        (some (if negative then -power else power), rest)
    else some (none, c :: cs)

/-- The number at the front of a text, and the rest. No other digit follows a leading zero. -/
def numeral? (cs : List Char) : Option (Numeral × List Char) := do
  let (negative, unsigned) := minus cs
  let (whole, rest) ← digits? unsigned
  guard (whole.head? != some '0' || whole.length == 1)
  let (fraction, rest) ← fraction? rest
  let (exponent, rest) ← exponent? rest
  return ({ negative, whole, fraction, exponent }, rest)

theorem digits?_shorter {cs run rest : List Char} (h : digits? cs = some (run, rest)) :
    rest.length < cs.length := by
  have whole := congrArg List.length (List.takeWhile_append_dropWhile (p := Char.isDigit) (l := cs))
  unfold digits? at h
  split at h
  · simp at h
  · next nonempty =>
    simp only [Option.some.injEq, Prod.mk.injEq] at h
    have := List.length_pos_iff.mpr nonempty
    simp only [List.length_append, h.2] at whole
    omega

theorem minus_length_le (cs : List Char) : (minus cs).2.length ≤ cs.length := by
  unfold minus; split <;> simp

theorem fraction?_length_le {cs rest : List Char} {run : Option (List Char)}
    (h : fraction? cs = some (run, rest)) : rest.length ≤ cs.length := by
  unfold fraction? at h
  split at h
  · obtain ⟨⟨r, after⟩, read, same⟩ := Option.map_eq_some_iff.mp h
    simp at same
    have := digits?_shorter read
    simp [← same.2]; omega
  · simp at h; simp [h]

theorem exponent?_length_le {cs rest : List Char} {power : Option Int}
    (h : exponent? cs = some (power, rest)) : rest.length ≤ cs.length := by
  unfold exponent? at h
  split at h
  · simp at h; simp [h]
  · next c cs =>
    split at h
    · dsimp only at h
      obtain ⟨⟨r, after⟩, read, same⟩ := Option.map_eq_some_iff.mp h
      simp at same
      have shorter := digits?_shorter read
      rw [same.2] at shorter
      have : (minus cs).2.length ≤ cs.length := minus_length_le cs
      split at shorter <;> simp_all <;> omega
    · simp at h; simp [← h.2]

theorem numeral?_shorter {cs rest : List Char} {n : Numeral} (h : numeral? cs = some (n, rest)) :
    rest.length < cs.length := by
  obtain ⟨⟨_, _⟩, whole, h⟩ := Option.bind_eq_some_iff.mp h
  obtain ⟨-, -, h⟩ := Option.bind_eq_some_iff.mp h
  obtain ⟨⟨_, _⟩, fraction, h⟩ := Option.bind_eq_some_iff.mp h
  obtain ⟨⟨_, _⟩, exponent, same⟩ := Option.bind_eq_some_iff.mp h
  have := minus_length_le cs
  have : _ < (minus cs).2.length := digits?_shorter whole
  have := fraction?_length_le fraction
  have := exponent?_length_le exponent
  obtain ⟨-, rfl⟩ : _ ∧ _ = rest := by simpa using same
  omega

def significandLimit : Nat := UInt64.size - 1

/-- Appends digits to a significand while it stays within the limit. The digits left over
are counted. -/
def extend : (significand : Nat) → List Char → Nat × Nat
  | significand, [] => (significand, 0)
  | significand, c :: cs =>
    let next := 10 * significand + (c.toNat - 48)
    if next ≤ significandLimit then extend next cs else (significand, cs.length + 1)

def powerOfTen (n : Nat) : Float := Float.ofScientific 1 false n

/-- A significand times a power of ten, if it is finite. -/
def scale? (significand : Nat) (power : Int) : Option Float :=
  let base := Float.ofNat significand
  match power with
  | .ofNat n =>
    if significand == 0 then some 0
    else if n ≤ 308 then
      let x := base * powerOfTen n
      if x.isInf then none else some x
    else none
  | .negSucc n =>
    if n < 308 then some (base / powerOfTen (n + 1))
    else if n < 616 then some (base / powerOfTen 308 / powerOfTen (n + 1 - 308))
    else some 0

def Numeral.double? (n : Numeral) : Option Float :=
  let (whole, dropped) := extend 0 n.whole
  let fraction := n.fraction.getD []
  let (significand, ignored) := extend whole fraction
  let shift : Int := dropped - (fraction.length - ignored : Nat)
  (scale? significand (shift + n.exponent.getD 0)).map fun x => if n.negative then -x else x

def Numeral.value? (n : Numeral) : Option Json :=
  let magnitude := valueOfDigits n.whole
  if n.fraction.isNone && n.exponent.isNone && magnitude ≤ significandLimit then
    if !n.negative then some (integer magnitude)
    else if 0 < magnitude && Int64.minValue.toInt ≤ -magnitude then some (integer (-magnitude))
    else some (number (-Float.ofNat magnitude))
  else n.double?.map number

/-- What is left of a text once something in front was read. -/
abbrev Rest (cs : List Char) := { rest : List Char // rest.length < cs.length }

def isSpace (c : Char) : Bool := c == ' ' || c == '\t' || c == '\n' || c == '\r'

def skipSpace (cs : List Char) : List Char := cs.dropWhile isSpace

theorem skipSpace_shorter {cs rest : List Char} {c : Char} (h : skipSpace cs = c :: rest) :
    rest.length < cs.length := by
  have := (List.dropWhile_suffix (l := cs) isSpace).length_le
  rw [skipSpace] at h
  rw [h] at this
  exact this

/-! ### Strings -/

def hexDigit? (c : Char) : Option Nat :=
  let n := c.toNat
  if c.isDigit then some (n - 48)
  else if 'a' ≤ c && c ≤ 'f' then some (n - 87)
  else if 'A' ≤ c && c ≤ 'F' then some (n - 55)
  else none

def unit? (cs : List Char) : Option Nat :=
  let digits := cs.take 4
  if digits.length == 4 then digits.foldlM (fun n c => (hexDigit? c).map (16 * n + ·)) 0 else none

def character? (code : Nat) : Option Char :=
  if h : code.isValidChar then some (Char.ofNatAux code h) else none

/-- The character that two halves of a surrogate pair stand for. -/
def pair? (high low : Nat) : Option Char :=
  if 0xD800 ≤ high && high < 0xDC00 && 0xDC00 ≤ low && low < 0xE000 then
    character? (0x10000 + (high - 0xD800) * 0x400 + (low - 0xDC00))
  else none

def escaped? : List Char → Option (Char × List Char)
  | '"' :: cs => some ('"', cs)
  | '\\' :: cs => some ('\\', cs)
  | '/' :: cs => some ('/', cs)
  | 'b' :: cs => some ('\x08', cs)
  | 'f' :: cs => some ('\x0c', cs)
  | 'n' :: cs => some ('\n', cs)
  | 'r' :: cs => some ('\r', cs)
  | 't' :: cs => some ('\t', cs)
  | 'u' :: cs => do
    let code ← unit? cs
    match character? code with
    | some c => some (c, cs.drop 4)
    | none =>
      guard ((cs.drop 4).take 2 == ['\\', 'u'])
      let low ← unit? (cs.drop 6)
      (pair? code low).map (·, cs.drop 10)
  | _ => none

theorem escaped?_shorter {cs rest : List Char} {c : Char} (h : escaped? cs = some (c, rest)) :
    rest.length < cs.length := by
  unfold escaped? at h
  split at h
  case h_9 =>
    obtain ⟨code, _, h⟩ := Option.bind_eq_some_iff.mp h
    split at h
    · cases h
      simp only [List.length_drop, List.length_cons]
      omega
    · obtain ⟨_, _, h⟩ := Option.bind_eq_some_iff.mp h
      obtain ⟨low, _, h⟩ := Option.bind_eq_some_iff.mp h
      obtain ⟨_, _, h⟩ := Option.map_eq_some_iff.mp h
      cases h
      simp only [List.length_drop, List.length_cons]
      omega
  case h_10 => cases h
  all_goals
    cases h
    exact Nat.lt_succ_self _

def stringTail? : List Char → Option (List Char × List Char)
  | [] => none
  | '"' :: cs => some ([], cs)
  | '\\' :: cs =>
    match h : escaped? cs with
    | none => none
    | some (c, rest) =>
      have := escaped?_shorter h
      (stringTail? rest).map (Prod.map (c :: ·) id)
  | c :: cs => if c.toNat < 0x20 then none else (stringTail? cs).map (Prod.map (c :: ·) id)
termination_by cs => cs.length

theorem stringTail?_shorter {cs body rest : List Char} (h : stringTail? cs = some (body, rest)) :
    rest.length < cs.length := by
  fun_induction stringTail? cs generalizing body rest with
  | case1 => simp at h
  | case2 cs => simp at h; simp [h]
  | case3 => simp at h
  | case4 cs c after found shorter ih =>
    obtain ⟨⟨b, r⟩, read, same⟩ := Option.map_eq_some_iff.mp h
    simp at same
    have := ih read
    simp [← same.2]; omega
  | case5 => simp at h
  | case6 c cs _ _ _ ih =>
    obtain ⟨⟨b, r⟩, read, same⟩ := Option.map_eq_some_iff.mp h
    simp at same
    have := ih read
    simp [← same.2]; omega

/-! ### Values -/

def words : List (String × Json) := [("null", null), ("true", bool true), ("false", bool false)]

def atom? (cs : List Char) : Option (Json × List Char) :=
  match cs with
  | '"' :: cs => (stringTail? cs).map fun (body, rest) => (string (String.ofList body), rest)
  | cs =>
    match words.findSome? fun (word, value) => (Text.behind? word.toList cs).map (value, ·) with
    | some found => some found
    | none => do
      let (numeral, rest) ← numeral? cs
      return (← numeral.value?, rest)

theorem atom?_shorter {cs rest : List Char} {value : Json} (h : atom? cs = some (value, rest)) :
    rest.length < cs.length := by
  unfold atom? at h
  split at h
  · obtain ⟨⟨body, r⟩, read, same⟩ := Option.map_eq_some_iff.mp h
    simp at same
    have := stringTail?_shorter read
    simp [← same.2]; omega
  split at h
  · next found =>
    obtain ⟨⟨word, v⟩, member, matched⟩ := List.exists_of_findSome?_eq_some found
    obtain ⟨r, front, same⟩ := Option.map_eq_some_iff.mp matched
    have split := Text.behind?_eq_some_iff.mp front
    have nonempty : word.toList ≠ [] := by
      simp only [words, List.mem_cons, List.not_mem_nil, or_false, Prod.mk.injEq] at member
      rcases member with ⟨rfl, _⟩ | ⟨rfl, _⟩ | ⟨rfl, _⟩ <;> decide
    have := congrArg List.length split
    have := List.length_pos_iff.mpr nonempty
    simp only [Option.some.injEq] at h
    simp_all
  · obtain ⟨⟨n, r⟩, read, h⟩ := Option.bind_eq_some_iff.mp h
    obtain ⟨_, _, h⟩ := Option.bind_eq_some_iff.mp h
    cases h
    exact numeral?_shorter read

def name? (cs : List Char) : Option (String × Rest cs) :=
  match h : skipSpace cs with
  | '"' :: text =>
    match h' : stringTail? text with
    | some (body, rest) =>
      some (String.ofList body,
        ⟨rest, Nat.lt_trans (stringTail?_shorter h') (skipSpace_shorter h)⟩)
    | none => none
  | _ => none

mutual

/-- The value at the front of a text, with at most so many levels of brackets. -/
def value? (depth : Nat) (cs : List Char) : Option (Json × Rest cs) :=
  match h : skipSpace cs with
  | '[' :: inner => do
    have within := skipSpace_shorter h
    if depth = 0 then none else
    match h' : skipSpace inner with
    | ']' :: rest => some (array [], ⟨rest, Nat.lt_trans (skipSpace_shorter h') within⟩)
    | _ =>
      let (items, rest) ← items? (depth - 1) inner
      some (array items, ⟨rest.1, Nat.lt_trans rest.2 within⟩)
  | '\x7b' :: inner => do
    have within := skipSpace_shorter h
    if depth = 0 then none else
    match h' : skipSpace inner with
    | '\x7d' :: rest => some (object [], ⟨rest, Nat.lt_trans (skipSpace_shorter h') within⟩)
    | _ =>
      let (fields, rest) ← fields? (depth - 1) inner
      some (object fields, ⟨rest.1, Nat.lt_trans rest.2 within⟩)
  | [] => none
  | c :: text =>
    match h' : atom? (c :: text) with
    | some (value, rest) =>
      some (value, ⟨rest, Nat.lt_of_lt_of_le (atom?_shorter h') (skipSpace_shorter h)⟩)
    | none => none
termination_by (cs.length, 0)

def items? (depth : Nat) (cs : List Char) : Option (List Json × Rest cs) := do
  let (item, after) ← value? depth cs
  match h : skipSpace after.1 with
  | ',' :: more => do
    have within := Nat.lt_trans (skipSpace_shorter h) after.2
    let (items, rest) ← items? depth more
    some (item :: items, ⟨rest.1, Nat.lt_trans rest.2 within⟩)
  | ']' :: rest => some ([item], ⟨rest, Nat.lt_trans (skipSpace_shorter h) after.2⟩)
  | _ => none
termination_by (cs.length, 1)

def fields? (depth : Nat) (cs : List Char) : Option (List (String × Json) × Rest cs) := do
  let (name, colon) ← name? cs
  match h : skipSpace colon.1 with
  | ':' :: text => do
    have behind := Nat.lt_trans (skipSpace_shorter h) colon.2
    let (value, after) ← value? depth text
    match h' : skipSpace after.1 with
    | ',' :: more => do
      have within := Nat.lt_trans (Nat.lt_trans (skipSpace_shorter h') after.2) behind
      let (fields, rest) ← fields? depth more
      some ((name, value) :: fields, ⟨rest.1, Nat.lt_trans rest.2 within⟩)
    | '\x7d' :: rest =>
      have within := Nat.lt_trans (Nat.lt_trans (skipSpace_shorter h') after.2) behind
      some ([(name, value)], ⟨rest, within⟩)
    | _ => none
  | _ => none
termination_by (cs.length, 1)

end

def maxDepth : Nat := 127

def written? (text : String) : Option Json := do
  let (value, rest) ← value? maxDepth text.toList
  guard (skipSpace rest.1).isEmpty
  return value

/-- The name of a field with a text in place of the object around it. -/
def embeddedName : String := "$serde_json::private::RawValue"

def embeds (fields : List (String × Json)) : Bool := fields.head?.any (·.1 == embeddedName)

def onlyText? : List (String × Json) → Option String
  | [(_, string text)] => some text
  | _ => none

mutual

/-- A value as it is written, with all that stands for something else replaced by way of
`read?`. -/
def settleWith (read? : String → Option Json) : Json → Option Json
  | array items => (settleItems read? items).map array
  | object fields =>
    if embeds fields then (onlyText? fields).bind read?
    else (settleFields read? fields).map ofFields
  | value => some value

def settleItems (read? : String → Option Json) : List Json → Option (List Json)
  | [] => some []
  | item :: items => do
    let settled ← settleWith read? item
    return settled :: (← settleItems read? items)

def settleFields (read? : String → Option Json) :
    List (String × Json) → Option (List (String × Json))
  | [] => some []
  | (name, value) :: fields => do
    let settled ← settleWith read? value
    return (name, settled) :: (← settleFields read? fields)

end

def parseWithin (levels : Nat) (text : String) : Option Json := do
  let value ← written? text
  match levels with
  | 0 => settleWith (fun _ => none) value
  | levels + 1 => settleWith (parseWithin levels) value

/-- The value that a text stands for. A text in another is shorter than the other, so there
are no more levels than characters. -/
def parse? (text : String) : Option Json := parseWithin text.length text

def settle? (text : String) (value : Json) : Option Json :=
  settleWith (parseWithin text.length) value

end SqlTemplate.Json
