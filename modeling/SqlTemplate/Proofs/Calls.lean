import SqlTemplate.Proofs.Additions

/-!
# The calls of a run

A run makes calls, and answering them makes further calls. They are listed level by level
(`Invocation.below`), in the order in which they are made. A call is one level deeper than the
one that makes it, starts with the number that the run has come to, and is made only where the
depth is below its limit (`Invocation.Within.step`). So the levels come to an end
(`nested_calls`), whatever the parameters hold: a reference may well lead back to itself.
-/

namespace SqlTemplate

/-- A call, as a run makes it. -/
structure Invocation where
  callee : Callee
  params : Params
  options : Options
  /-- How many arguments the run has written by then. -/
  emitted : Nat

namespace Draft
variable {draft : Draft} {scope : Scope} {before : Nat} {additions : List Addition}

/-- The call that an addition makes. Before the draft was begun, the run had so many
arguments. -/
def invocation? (scope : Scope) (before : Nat) (draft : Draft) : Addition → Option Invocation
  | .answer _ callee params => scope.caller?.map fun _ =>
    ⟨callee, params, scope.options.nested draft.index, before + draft.arguments.length⟩
  | .text _ | .list _ | .missing _ => none

/-- The calls that are made to add one thing after the other. -/
def invocations (scope : Scope) (before : Nat) (draft : Draft) : List Addition → List Invocation
  | [] => []
  | addition :: more => (draft.invocation? scope before addition).toList ++
      invocations scope before (draft.put scope addition) more

/-- A call is made with the number and the arguments that the draft has come to, and its answer
is what the draft goes on with. -/
theorem exists_of_mem_invocations {call : Invocation}
    (member : call ∈ draft.invocations scope before additions) :
    ∃ ask part rest, scope.caller? = some ask ∧
      call.options = scope.options.nested (draft.extend part).index ∧
      call.emitted = before + (draft.extend part).arguments.length ∧
      draft.putAll scope additions =
        ((draft.extend part).extend (ask call.callee call.params call.options).part).extend rest := by
  induction additions generalizing draft with
  | nil => cases member
  | cons addition more ih =>
    have whole : draft.putAll scope (addition :: more) =
        (draft.extend (addition.part scope draft.index)).putAll scope more := by
      rw [← put_eq_extend]
      rfl
    rcases List.mem_append.mp member with first | later
    · cases addition with
      | answer name callee params =>
        obtain ⟨ask, asks, rfl⟩ := Option.map_eq_some_iff.mp (Option.mem_toList.mp first)
        obtain ⟨rest, grown⟩ := putAll_grows scope
          (draft.extend ((Addition.answer name callee params).part scope draft.index)) more
        refine ⟨ask, {}, rest, asks, ?_, ?_, ?_⟩
        · rw [extend_empty]
        · rw [extend_empty]
        · rw [whole, grown, extend_empty, Addition.part_answer asks]
      | text text => cases first
      | list values => cases first
      | missing name => cases first
    · rw [put_eq_extend] at later
      obtain ⟨ask, part, rest, asks, options, emitted, grown⟩ := ih later
      have both := extend_extend draft (addition.part scope draft.index) part
      rw [both] at options emitted grown
      exact ⟨ask, _, rest, asks, options, emitted, whole.trans grown⟩

/-- What is added depends on the answers to these calls, and on no others. -/
theorem putAll_congr {ask other : Caller} (asks : scope.caller? = some ask) (before : Nat)
    (agree : ∀ call ∈ draft.invocations scope before additions,
      other call.callee call.params call.options = ask call.callee call.params call.options) :
    draft.putAll { scope with caller? := some other } additions = draft.putAll scope additions := by
  induction additions generalizing draft with
  | nil => rfl
  | cons addition more ih =>
    have first : draft.put { scope with caller? := some other } addition = draft.put scope addition := by
      cases addition with
      | answer name callee params =>
        have same := agree ⟨callee, params, scope.options.nested draft.index,
          before + draft.arguments.length⟩ (by simp [invocations, invocation?, asks])
        rw [put_eq_extend, put_eq_extend, Addition.part_answer rfl, Addition.part_answer asks, same]
      | text text => rfl
      | list values => rfl
      | missing name => rfl
    have rest : ∀ call ∈ (draft.put scope addition).invocations scope before more,
        other call.callee call.params call.options = ask call.callee call.params call.options :=
      fun call member => agree call (List.mem_append_right _ member)
    calc draft.putAll { scope with caller? := some other } (addition :: more)
      _ = (draft.put scope addition).putAll { scope with caller? := some other } more := by
          rw [← first]
          rfl
      _ = draft.putAll scope (addition :: more) := ih rest

end Draft

namespace Invocation

/-- What answers a call. -/
def answer (call : Invocation) : Expansion :=
  call.callee.answer call.options.room call.params call.options

/-- The calls that are made to answer a call. -/
def calls (call : Invocation) : List Invocation :=
  match call.callee with
  | .pieces body set =>
    (Draft.start call.options.index).invocations
      (.withRoom set call.params call.options call.options.room) call.emitted
      (body.flatMap (·.additions set call.params))
  | .constant _ | .probe => []

/-- The calls so many levels below a call. -/
def below (run : Invocation) : Nat → List Invocation
  | 0 => [run]
  | depth + 1 => (run.below depth).flatMap calls

/-! ### One call and the calls that it makes -/

theorem room_nested (options : Options) (index : UInt32) :
    (options.nested index).room = options.room - 1 :=
  (Nat.sub_sub ..).symm

theorem caller?_room (options : Options) :
    Callee.caller? options.room =
      if options.depth < options.maxDepth then some (Callee.answer (options.room - 1)) else none := by
  split
  · next shallow =>
    have some : options.room = options.room - 1 + 1 := by
      unfold Options.room
      omega
    rw [some]
    rfl
  · next deep =>
    have none : options.room = 0 := Nat.sub_eq_zero_of_le (Nat.le_of_not_lt deep)
    rw [none]
    rfl

/-- A scope answers calls as the run does, and only below the limit of depth. -/
theorem exists_of_caller? {set : QuerySet} {params : Params} {options : Options} {ask : Caller}
    (asks : (Scope.withRoom set params options options.room).caller? = some ask) :
    options.depth < options.maxDepth ∧ ∀ (call : Invocation) (index : UInt32),
      call.options = options.nested index → ask call.callee call.params call.options = call.answer := by
  have asks : Callee.caller? options.room = some ask := asks
  rw [caller?_room] at asks
  split at asks
  · next shallow =>
    cases asks
    refine ⟨shallow, ?_⟩
    intro call index isNested
    rw [answer, isNested, room_nested]
  · cases asks

/-- A call is made only below the limit of depth. It starts with the number that is left by
the arguments before its own. -/
theorem exists_of_mem_calls {outer inner : Invocation} (member : inner ∈ outer.calls) :
    outer.options.depth < outer.options.maxDepth ∧ ∃ before after,
      inner.options = outer.options.nested (advance (max outer.options.index 1) before.length) ∧
      inner.emitted = outer.emitted + before.length ∧
      outer.answer.part.arguments = before ++ inner.answer.part.arguments ++ after := by
  obtain ⟨callee, params, options, emitted⟩ := outer
  cases callee with
  | constant expansion => cases member
  | probe => cases member
  | pieces body set =>
    obtain ⟨ask, part, rest, asks, isNested, count, whole⟩ := Draft.exists_of_mem_invocations member
    obtain ⟨shallow, answers⟩ := exists_of_caller? asks
    refine ⟨shallow, part.arguments, rest.arguments, isNested, ?_, ?_⟩
    · simpa [Draft.extend, Draft.start] using count
    · have answered : answer ⟨.pieces body set, params, options, emitted⟩ = Draft.finish _ :=
        Callee.answer_eq_putAll ..
      rw [answered, whole, Draft.part_finish, answers inner _ isNested]
      rfl

/-- A call is answered from the answers to its own calls. These may come from anywhere, if
only they are the right ones. -/
theorem answer_eq {call : Invocation} {ask : Caller} (agree : ∀ inner ∈ call.calls,
      ask inner.callee inner.params inner.options = inner.answer) :
    call.answer = call.callee.answerWith
      (if call.options.depth < call.options.maxDepth then some ask else none)
      call.params call.options := by
  obtain ⟨callee, params, options, emitted⟩ := call
  cases callee with
  | constant expansion =>
    rw [answer, Callee.answer_eq]
    rfl
  | probe =>
    rw [answer, Callee.answer_eq]
    rfl
  | pieces body set =>
    cases asks : (Scope.withRoom set params options options.room).caller? with
    | none =>
      have asks : Callee.caller? options.room = none := asks
      have deep : ¬ options.depth < options.maxDepth := by
        intro shallow
        rw [caller?_room, if_pos shallow] at asks
        cases asks
      rw [if_neg deep, answer, Callee.answer_eq, asks]
    | some other =>
      obtain ⟨shallow, answers⟩ := exists_of_caller? asks
      have same : (Draft.start options.index).putAll
            { Scope.withRoom set params options options.room with caller? := some ask }
            (body.flatMap (·.additions set params)) =
          (Draft.start options.index).putAll (.withRoom set params options options.room)
            (body.flatMap (·.additions set params)) := by
        refine Draft.putAll_congr asks emitted ?_
        intro inner member
        obtain ⟨_, _, _, _, isNested, _⟩ := Draft.exists_of_mem_invocations member
        rw [answers inner _ isNested]
        exact agree inner member
      have answered : answer ⟨.pieces body set, params, options, emitted⟩ = Draft.finish _ :=
        Callee.answer_eq_putAll ..
      rw [if_pos shallow, answered, ← same]
      exact congrArg Draft.finish (Draft.ofPieces_eq_putAll _ body).symm

/-! ### All calls of a run -/

/-- A call so many levels below another: its options, and the arguments of the run before and
after its own. -/
structure Within (run call : Invocation) (levels : Nat) (before after : List Scalar) : Prop where
  depth : call.options.depth = run.options.depth + levels
  maxDepth : call.options.maxDepth = run.options.maxDepth
  first : max call.options.index 1 = advance (max run.options.index 1) before.length
  emitted : call.emitted = run.emitted + before.length
  arguments : run.answer.part.arguments = before ++ call.answer.part.arguments ++ after
  nested : 0 < levels → call.options.depth ≤ call.options.maxDepth ∧
    call.options.execute = false ∧ 0 < call.options.index.toNat

theorem Within.refl (run : Invocation) : run.Within run 0 [] [] where
  depth := rfl
  maxDepth := rfl
  first := (advance_zero _).symm
  emitted := rfl
  arguments := by simp
  nested below := absurd below (Nat.lt_irrefl 0)

/-- What a call makes lies one level below it. -/
theorem Within.step {run outer inner : Invocation} {levels : Nat} {before after : List Scalar}
    (within : run.Within outer levels before after) (member : inner ∈ outer.calls) :
    ∃ before after, run.Within inner (levels + 1) before after := by
  obtain ⟨shallow, more, less, options, emitted, arguments⟩ := exists_of_mem_calls member
  have positive : 0 < inner.options.index.toNat := by
    rw [options]
    exact advance_pos (max_one_pos _) _
  have depth : inner.options.depth = outer.options.depth + 1 := by
    rw [options]
    rfl
  have maxDepth : inner.options.maxDepth = outer.options.maxDepth := by
    rw [options]
    rfl
  have index : inner.options.index = advance (max outer.options.index 1) more.length := by
    rw [options]
    rfl
  refine ⟨before ++ more, less ++ after, ?_⟩
  constructor
  · rw [depth, within.depth, Nat.add_assoc]
  · rw [maxDepth, within.maxDepth]
  · rw [max_one_eq positive, index, within.first, advance_advance, List.length_append]
  · rw [emitted, within.emitted, List.length_append, Nat.add_assoc]
  · simp [within.arguments, arguments]
  · intro _
    refine ⟨?_, by rw [options]; rfl, positive⟩
    rw [depth, maxDepth]
    exact shallow

theorem Within.of_below {run call : Invocation} {levels : Nat} (member : call ∈ run.below levels) :
    ∃ before after, run.Within call levels before after := by
  induction levels generalizing call with
  | zero =>
    obtain rfl := List.mem_singleton.mp member
    exact ⟨[], [], .refl call⟩
  | succ levels ih =>
    obtain ⟨outer, isBelow, member⟩ := List.mem_flatMap.mp member
    obtain ⟨before, after, within⟩ := ih isBelow
    exact within.step member

/-- Beyond the limit of depth there are no calls. -/
theorem below_eq_nil {run : Invocation} {levels : Nat} (some : 0 < levels)
    (deep : run.options.maxDepth < run.options.depth + levels) : run.below levels = [] := by
  refine List.eq_nil_iff_forall_not_mem.mpr ?_
  intro call member
  obtain ⟨before, after, within⟩ := Within.of_below member
  have shallow := (within.nested some).1
  rw [within.depth, within.maxDepth] at shallow
  omega

end Invocation

/-- A run that is not itself nested makes calls level by level. A call on a level has that level
for its depth, which is within the limit of the run, is never executed, and begins with the
number that the arguments of the run before its own lead to. Beyond the limit there are no
levels, and every call is answered from the answers to the calls that it makes on the level
below, whichever caller gives them. -/
theorem nested_calls {pieces : List Piece} {set : QuerySet} {params : Params} {options : Options}
    (outermost : options.depth = 0) {run : Invocation}
    (isRun : run = ⟨.pieces pieces set, params, options, 0⟩) :
    (run.answer = evaluate pieces set params options ∧
      ∀ name query, set.get? name = some query → query.pieces = pieces →
        run.answer = set.expand name params options) ∧
    (∀ level, 1 ≤ level → ∀ call ∈ run.below level,
      call.options.depth = level ∧ level ≤ options.maxDepth ∧
      call.options.maxDepth = options.maxDepth ∧ call.options.execute = false ∧
      call.options.index.toNat = min (max options.index.toNat 1 + call.emitted) lastIndex ∧
      ∃ before after, before.length = call.emitted ∧
        run.answer.part.arguments = before ++ call.answer.part.arguments ++ after) ∧
    (∀ level, options.maxDepth < level → run.below level = []) ∧
    ∀ level, ∀ call ∈ run.below level, ∀ ask : Caller,
      (∀ inner ∈ call.calls, ask inner.callee inner.params inner.options = inner.answer) →
      call.answer = call.callee.answerWith
        (if call.options.depth < call.options.maxDepth then some ask else none)
        call.params call.options := by
  refine ⟨⟨?_, ?_⟩, ?_, ?_, fun level call _ ask agree => Invocation.answer_eq agree⟩
  · rw [isRun]
    rfl
  · rintro name query found rfl
    rw [isRun, QuerySet.expand, found]
    rfl
  · intro level below call member
    obtain ⟨before, after, within⟩ := Invocation.Within.of_below member
    obtain ⟨shallow, quiet, positive⟩ := within.nested below
    obtain ⟨depth, maxDepth, first, emitted, arguments, _⟩ := within
    subst isRun
    rw [outermost, Nat.zero_add] at depth
    rw [max_one_eq positive] at first
    rw [Nat.zero_add] at emitted
    rw [depth, maxDepth] at shallow
    refine ⟨depth, shallow, maxDepth, quiet, ?_, before, after, emitted.symm, arguments⟩
    rw [first, toNat_advance, toNat_max_one, emitted]
  · intro level deep
    subst isRun
    exact Invocation.below_eq_nil (Nat.zero_lt_of_lt deep) (by rwa [outermost, Nat.zero_add])

/-- The expansion of a reference that leads back to itself, with an argument each time. -/
def loopingRun : Invocation where
  callee := .pieces [.parameter "again"] .empty
  params := ⟨
    [ ("key", .scalar (.int 7))
    , ("again", .query ⟨"looping", .pieces
        [.literal "(", .parameter "key", .literal " ", .parameter "again", .literal ")"] .empty⟩) ]⟩
  options := { index := 4, maxDepth := 2 }
  emitted := 0

/-- The reference is called twice, and would be called a third time. -/
theorem looping_calls :
    loopingRun.answer.part.statement = "($4 ($5 <recursive looping>))" ∧
      (loopingRun.below 2).map (·.options) =
        [{ index := 5, maxDepth := 2, execute := false, depth := 2 }] ∧
      (∀ call ∈ loopingRun.below 2,
        call.options.index.toNat = min (max 4 1 + call.emitted) lastIndex) ∧
      loopingRun.below 3 = [] := by
  have isRun : loopingRun =
      ⟨.pieces [.parameter "again"] .empty, loopingRun.params, loopingRun.options, 0⟩ := rfl
  have outermost : loopingRun.options.depth = 0 := rfl
  obtain ⟨_, onLevel, ends, _⟩ := nested_calls outermost isRun
  refine ⟨by rfl, by rfl, ?_, ends 3 (by decide)⟩
  intro call member
  obtain ⟨_, _, _, _, index, _⟩ := onLevel 2 (by decide) call member
  exact index

end SqlTemplate
