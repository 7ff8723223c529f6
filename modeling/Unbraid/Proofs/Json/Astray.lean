import Unbraid.Proofs.Json.Capitals

/-!
# What follows an object that was cut

A reader inside an object that goes on with a capital T can only be inside a string
(`State.step_capitalT`). It then takes letters for text until a quote ends the string, and no value
follows a string with a letter. So bytes that lead astray in this way never complete a value, and
they leave no number open (`run?_astray`).
-/

namespace Unbraid.Json

def isLetter (byte : UInt8) : Bool :=
  (0x41 ≤ byte && byte ≤ 0x5A) || (0x61 ≤ byte && byte ≤ 0x7A)

def isText (byte : UInt8) : Bool := byte ≠ 0x22 && byte ≠ 0x5C && 0x20 ≤ byte

/-- Text up to a quote, and after the quote a letter, as far as there are bytes. -/
inductive Astray : Bytes → Prop where
  | text {text : Bytes} (plain : ∀ byte ∈ text, isText byte = true) : Astray text
  | quote {text : Bytes} (plain : ∀ byte ∈ text, isText byte = true) : Astray (text ++ [0x22])
  | letter {text : Bytes} {letter : UInt8} (rest : Bytes)
      (plain : ∀ byte ∈ text, isText byte = true) (after : isLetter letter = true) :
      Astray (text ++ 0x22 :: letter :: rest)

theorem Astray.of_begins {bytes part : Bytes} (astray : Astray bytes) (begins : part <+: bytes) :
    Astray part := by
  have within : ∀ {text : Bytes}, (∀ byte ∈ text, isText byte = true) → part <+: text →
      Astray part :=
    fun plain begins => .text fun byte present => plain byte (begins.mem present)
  cases astray with
  | text plain => exact within plain begins
  | quote plain =>
    rcases List.prefix_concat_iff.1 begins with rfl | before
    · exact .quote plain
    · exact within plain before
  | letter rest plain after =>
    rcases List.prefix_or_prefix_of_prefix begins (List.prefix_append _ _) with
      before | ⟨behind, rfl⟩
    · exact within plain before
    · rw [List.prefix_append_right_inj] at begins
      rcases List.prefix_cons_iff.1 begins with rfl | ⟨more, rfl, later⟩
      · rw [List.append_nil]
        exact .text plain
      · rcases List.prefix_cons_iff.1 later with rfl | ⟨more, rfl, -⟩
        · exact .quote plain
        · exact .letter more plain after

namespace State

/-- Inside an object, or after its end. The letters that a word still needs are not capitals. -/
structure InObject (state : State) : Prop where
  nested : state.opened ≠ [] ∨ state.place = .after
  letters : ∀ word rest, state.place = .word word rest → capitalT ∉ rest

theorem InObject.of_stepAfter {opened : List Bracket} {byte : UInt8} {next : State}
    {marks : List Mark} (moved : stepAfter opened byte = some (next, marks)) : next.InObject := by
  refine ⟨?_, Lowercase.of_stepAfter moved⟩
  unfold stepAfter at moved
  repeat' split at moved
  all_goals cases moved
  · exact .inr rfl
  · exact .inr rfl
  · exact .inl (List.cons_ne_nil _ _)
  · exact .inl (List.cons_ne_nil _ _)
  · exact .inr rfl

theorem InObject.of_startValue {opened : List Bracket} {byte : UInt8} {next : State}
    {marks : List Mark} (inside : opened ≠ [])
    (moved : startValue opened byte = some (next, marks)) : next.InObject := by
  refine ⟨.inl ?_, Lowercase.of_startValue moved⟩
  unfold startValue at moved
  repeat' split at moved
  all_goals cases moved
  all_goals simp [inside]

theorem InObject.of_stepString {opened : List Bracket} {role : Role} {part : StringPart}
    {byte : UInt8} {next : State} {marks : List Mark} (inside : opened ≠ [])
    (moved : stepString opened role part byte = some (next, marks)) : next.InObject := by
  refine ⟨.inl ?_, Lowercase.of_stepString moved⟩
  cases part with
  | plain =>
    simp only [stepString] at moved
    repeat' split at moved
    all_goals cases moved
    all_goals exact inside
  | escape =>
    simp only [stepString] at moved
    split at moved
    · cases moved
      exact inside
    · obtain ⟨meant, -, equal⟩ := Option.map_eq_some_iff.1 moved
      cases equal
      exact inside
  | hex seen =>
    simp only [stepString] at moved
    split at moved
    · cases moved
      exact inside
    · obtain ⟨unit, -, equal⟩ := Option.map_eq_some_iff.1 moved
      cases equal
      exact inside

theorem InObject.step {state next : State} {byte : UInt8} {marks : List Mark}
    (inside : state.InObject) (moved : state.step byte = some (next, marks)) : next.InObject := by
  obtain ⟨nested, letters⟩ := inside
  have lower : next.Lowercase := Lowercase.step letters moved
  obtain ⟨place, opened⟩ := state
  have inner : place ≠ .after → opened ≠ [] := nested.resolve_right
  cases step_cases moved with
  | blank => exact ⟨nested, lower⟩
  | value awaits starts =>
    have other : place ≠ .after := by
      rintro rfl
      rcases awaits with none | none
      all_goals cases none
    exact .of_startValue (inner other) starts
  | key awaits =>
    have other : place ≠ .after := by
      rintro rfl
      rcases awaits with none | none
      all_goals cases none
    exact ⟨.inl (inner other), lower⟩
  | colon => exact ⟨.inl (inner (by decide)), lower⟩
  | after _ goes => exact .of_stepAfter goes
  | letter => exact ⟨.inl (inner Place.noConfusion), lower⟩
  | lastLetter => exact ⟨.inr rfl, lower⟩
  | number => exact ⟨.inl (inner Place.noConfusion), lower⟩
  | numberEnd _ _ goes => exact .of_stepAfter goes
  | string goes => exact .of_stepString (inner Place.noConfusion) goes

theorem InObject.run? {state last : State} {bytes : Bytes} (inside : state.InObject)
    (read : state.run? bytes = some last) : last.InObject := by
  induction bytes generalizing state with
  | nil =>
    obtain rfl := Option.some.inj read
    exact inside
  | cons byte rest ih =>
    rw [run?_cons] at read
    obtain ⟨⟨next, marks⟩, moved, later⟩ := Option.bind_eq_some_iff.1 read
    exact ih (inside.step moved) later

/-! ## In a string -/

section

variable {opened : List Bracket} {role : Role}

theorem unit?_of_mem {digits : Bytes} (present : capitalT ∈ digits) : unit? digits = none := by
  have stops : ∀ (digits : Bytes) (start : Nat), capitalT ∈ digits →
      digits.foldlM (fun n digit => (Bytes.hexValue? digit).map (n * 16 + ·)) start = none := by
    intro digits
    induction digits with
    | nil => intro start none; cases none
    | cons digit rest ih =>
      intro start present
      rw [List.foldlM_cons]
      rcases List.mem_cons.1 present with rfl | later
      · rfl
      · cases (Bytes.hexValue? digit).map (start * 16 + ·) with
        | none => rfl
        | some next => exact ih next later
  exact stops digits 0 present

/-- Four hexadecimal digits with a capital T among them never come. -/
theorem run?_hex {seen bytes : Bytes}
    (capital : capitalT ∈ seen ∨ bytes.head? = some capitalT) :
    (State.mk (.string role (.hex seen)) opened).run? bytes = none ∨
      (bytes = [] ∨ seen.length + bytes.length < 4) ∧ ∃ seen',
        (State.mk (.string role (.hex seen)) opened).run? bytes =
          some ⟨.string role (.hex seen'), opened⟩ := by
  induction bytes generalizing seen with
  | nil => exact .inr ⟨.inl rfl, seen, rfl⟩
  | cons byte rest ih =>
    have within : capitalT ∈ seen ++ [byte] := by
      rcases capital with before | now
      · exact List.mem_append_left _ before
      · exact List.mem_append_right _ (List.mem_singleton.2 (Option.some.inj now).symm)
    rw [run?_cons]
    by_cases short : seen.length < 3
    · have moved : (State.mk (.string role (.hex seen)) opened).step byte =
          some (⟨.string role (.hex (seen ++ [byte])), opened⟩, []) := if_pos short
      rw [moved, Option.bind_some]
      rcases ih (.inl within) with none | ⟨few, seen', read⟩
      · exact .inl none
      · refine .inr ⟨.inr ?_, seen', read⟩
        simp only [List.length_append, List.length_singleton] at few
        rcases few with rfl | few
        · exact Nat.succ_lt_succ short
        · rw [List.length_cons]
          omega
    · have moved : (State.mk (.string role (.hex seen)) opened).step byte = none := by
        simp only [State.step, stepString, if_neg short, unit?_of_mem within, Option.map_none]
      rw [moved, Option.bind_none]
      exact .inl rfl

theorem step_text {byte : UInt8} (plain : isText byte = true) :
    (State.mk (.string role .plain) opened).step byte =
      some (⟨.string role .plain, opened⟩, [.textByte byte]) := by
  simp only [isText, Bool.and_eq_true, decide_eq_true_eq] at plain
  obtain ⟨⟨quote, backslash⟩, control⟩ := plain
  have control : ¬ byte < 0x20 := UInt8.not_lt.2 control
  simp only [State.step, stepString, if_neg quote, if_neg backslash, if_neg control]

theorem run?_text {text : Bytes} (plain : ∀ byte ∈ text, isText byte = true) :
    (State.mk (.string role .plain) opened).run? text = some ⟨.string role .plain, opened⟩ := by
  induction text with
  | nil => rfl
  | cons byte rest ih =>
    rw [run?_cons, step_text (plain byte List.mem_cons_self), Option.bind_some]
    exact ih fun next later => plain next (List.mem_cons_of_mem _ later)

theorem run?_quote (inside : opened ≠ []) :
    ∃ last, (State.mk (.string role .plain) opened).run? [0x22] = some last ∧ last.ending = .cut ∧
      ∀ letter, isLetter letter = true → last.step letter = none := by
  have apart : ∀ {letter : UInt8} (other : UInt8), isLetter letter = true →
      isLetter other = false → letter ≠ other := by
    rintro letter other yes no rfl
    rw [yes] at no
    cases no
  have blank : ∀ letter, isLetter letter = true → ¬ isBlank letter = true := by
    intro letter yes blank
    simp only [isBlank, Bool.or_eq_true, decide_eq_true_eq] at blank
    rcases blank with ((rfl | rfl) | rfl) | rfl
    all_goals cases yes
  cases role with
  | key =>
    refine ⟨⟨.colon, opened⟩, rfl, rfl, fun letter yes => ?_⟩
    rw [State.step]
    simp only [if_neg (blank letter yes), if_neg (apart 0x3A yes rfl)]
  | value =>
    refine ⟨⟨.after, opened⟩, rfl, if_neg inside, fun letter yes => ?_⟩
    rw [State.step]
    cases opened with
    | nil => exact absurd rfl inside
    | cons bracket outer =>
      have closing : letter ≠ bracket.closing := by
        cases bracket with
        | list => exact apart 0x5D yes rfl
        | object => exact apart 0x7D yes rfl
      simp only [stepAfter, if_neg (blank letter yes), if_neg (apart 0x2C yes rfl),
        if_neg closing]

theorem run?_quote_letter {letter : UInt8} (inside : opened ≠ []) (after : isLetter letter = true)
    {text : Bytes} (plain : ∀ byte ∈ text, isText byte = true) (rest : Bytes) :
    (State.mk (.string role .plain) opened).run? (text ++ 0x22 :: letter :: rest) = none := by
  obtain ⟨last, read, -, stops⟩ := run?_quote inside
  rw [run?_append, run?_text plain, Option.bind_some, ← List.singleton_append, run?_append, read,
    Option.bind_some, run?_cons, stops letter after, Option.bind_none]

/-- Inside a string, bytes that go astray do not complete a value, and they leave no number open. -/
theorem run?_astray_of_plain {bytes : Bytes} (inside : opened ≠ []) (astray : Astray bytes) :
    (State.mk (.string role .plain) opened).run? bytes = none ∨
      ∃ last, (State.mk (.string role .plain) opened).run? bytes = some last ∧
        last.ending = .cut := by
  cases astray with
  | text plain => exact .inr ⟨_, run?_text plain, rfl⟩
  | quote plain =>
    obtain ⟨last, read, cut, -⟩ := run?_quote inside
    refine .inr ⟨last, ?_, cut⟩
    rw [run?_append, run?_text plain, Option.bind_some, read]
  | letter rest plain after => exact .inl (run?_quote_letter inside after plain rest)

end

/-! ## After a body -/

theorem InObject.opened_ne_nil {state : State} (inside : state.InObject) {role : Role}
    {part : StringPart} (string : state.place = .string role part) : state.opened ≠ [] := by
  refine inside.nested.resolve_right fun after => ?_
  rw [string] at after
  cases after

/-- Bytes that begin with a capital T and go astray do not complete a value, and they leave no
number open. Inside an object the capital T can only be text of a string. The next quote ends that
string, and the letter behind it is an error. -/
theorem run?_astray {state : State} (inside : state.InObject) {bytes : Bytes}
    (astray : Astray (capitalT :: bytes)) :
    state.run? (capitalT :: bytes) = none ∨
      ∃ last, state.run? (capitalT :: bytes) = some last ∧ last.ending = .cut := by
  rcases step_capitalT inside.letters with none | ⟨role, plain⟩ | ⟨role, seen, hex⟩
  · left
    rw [run?_cons, none, Option.bind_none]
  · have nested := inside.opened_ne_nil plain
    obtain ⟨place, opened⟩ := state
    obtain rfl : place = _ := plain
    exact run?_astray_of_plain nested astray
  -- After a backslash and a u the capital T is taken for a digit at first.
  · obtain ⟨place, opened⟩ := state
    obtain rfl : place = _ := hex
    have capital : (capitalT :: bytes).head? = some capitalT := rfl
    rcases run?_hex (.inr capital) with none | ⟨-, seen', read⟩
    · exact .inl none
    · exact .inr ⟨_, read, rfl⟩

theorem run?_astray_letter {state : State} (inside : state.InObject) {text : Bytes} {letter : UInt8}
    (long : 3 ≤ text.length) (plain : ∀ byte ∈ capitalT :: text, isText byte = true)
    (after : isLetter letter = true) (rest : Bytes) :
    state.run? (capitalT :: text ++ 0x22 :: letter :: rest) = none := by
  rcases step_capitalT inside.letters with none | ⟨role, string⟩ | ⟨role, seen, hex⟩
  · rw [List.cons_append, run?_cons, none, Option.bind_none]
  · have nested := inside.opened_ne_nil string
    obtain ⟨place, opened⟩ := state
    obtain rfl : place = _ := string
    exact run?_quote_letter nested after plain rest
  · obtain ⟨place, opened⟩ := state
    obtain rfl : place = _ := hex
    have capital : (capitalT :: text ++ 0x22 :: letter :: rest).head? = some capitalT := rfl
    rcases run?_hex (.inr capital) with none | ⟨few, -⟩
    · exact none
    · simp only [List.cons_append, List.length_cons, List.length_append, reduceCtorEq,
        false_or] at few
      omega

/-! ## Objects -/

theorem inObject_of_brace {bytes : Bytes} {state : State}
    (read : start.run? (0x7B :: bytes) = some state) : state.InObject := by
  have moved : start.step 0x7B = some (⟨.firstKey, [.object]⟩, [.opened .object]) := rfl
  rw [run?_cons, moved, Option.bind_some] at read
  have opened : (State.mk .firstKey [.object]).InObject :=
    ⟨.inl (List.cons_ne_nil _ _), fun _ _ none => by cases none⟩
  exact opened.run? read

theorem isBlank_of_run? {bytes : Bytes} {last : State}
    (read : (State.mk .after []).run? bytes = some last) : ∀ byte ∈ bytes, isBlank byte = true := by
  induction bytes with
  | nil => intro byte none; cases none
  | cons first rest ih =>
    rw [run?_cons] at read
    obtain ⟨⟨next, marks⟩, moved, later⟩ := Option.bind_eq_some_iff.1 read
    have blank : isBlank first = true := by
      by_contra other
      have stuck : (State.mk .after []).step first = none := if_neg other
      rw [stuck] at moved
      cases moved
    have stays : (State.mk .after []).step first = some (⟨.after, []⟩, []) := if_pos blank
    rw [stays] at moved
    cases moved
    intro byte present
    rcases List.mem_cons.1 present with rfl | further
    · exact blank
    · exact ih later byte further

theorem ending_ne_whole {bytes more : Bytes} {state last : State}
    (read : start.run? (0x7B :: bytes) = some state) (goes : state.run? more = some last)
    (closes : more.getLast? = some 0x7D) : state.ending ≠ .whole := by
  intro whole
  have inside := inObject_of_brace read
  rcases whole_cases whole with rfl | ⟨part, rfl, -⟩
  · have blank := isBlank_of_run? goes 0x7D (List.mem_of_getLast? closes)
    exact absurd blank (by decide)
  · rcases inside.nested with nested | after
    · exact nested rfl
    · cases after

end State

end Unbraid.Json
