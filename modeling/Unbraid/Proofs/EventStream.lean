import Mathlib.Data.List.Forall2
import Unbraid.EventStream
import Unbraid.Proofs.Json.Strings
import Unbraid.Proofs.Json.Writing

/-!
# Event streams read back

A browser takes an event stream apart into lines, fields and messages (`read`). From the encoding of
some items it reads one message for each of them, whatever line ends, colons and blanks their texts
hold (`read_encode`): the lines of a text go out as a field each, so that nothing in it is taken for
a field of its own or for the end of a message.
-/

namespace Unbraid.EventStream

/-! ## The reader -/

/-- The lines of a stream, the first of which has begun already. A carriage return with a line feed
after it, or either of them alone, ends a line. What comes after the last line end is no line. -/
def lines (front : List Char) : List Char → List (List Char)
  | [] => []
  | '\r' :: '\n' :: rest => front :: lines [] rest
  | char :: rest =>
    if char = '\n' ∨ char = '\r' then front :: lines [] rest else lines (front ++ [char]) rest

/-- The name and the value of a field: what stands before the first colon of a line, and what stands
after it, less one space. -/
def field (line : List Char) : List Char × List Char :=
  let value := (line.dropWhile (· ≠ ':')).drop 1
  (line.takeWhile (· ≠ ':'), if value.head? = some ' ' then value.tail else value)

/-- What the lines since the last blank line have said. -/
structure Pending where
  name : List Char
  data : List Char

namespace Pending

/-- Takes a line. Comments and the fields that belong to no message say nothing. -/
def take (pending : Pending) (line : List Char) : Pending :=
  match field line with
  | (name, value) =>
    if name = ['e', 'v', 'e', 'n', 't'] then { pending with name := value }
    else if name = ['d', 'a', 't', 'a'] then
      { pending with data := pending.data ++ value ++ ['\n'] }
    else pending

/-- The message that a blank line dispatches. Without data there is none; the line feed after the
last line of the data is not part of it. -/
def message? (pending : Pending) : Option Message :=
  if pending.data = [] then none
  else some ⟨if pending.name = [] then none else some (String.ofList pending.name),
    String.ofList pending.data.dropLast⟩

def dispatch (pending : Pending) : List (List Char) → List Message
  | [] => []
  | line :: rest =>
    if line = [] then pending.message?.toList ++ dispatch ⟨[], []⟩ rest
    else dispatch (pending.take line) rest

end Pending

/-- The messages that a browser reads from a stream. A byte order mark at the beginning is left out.
-/
def read (stream : String) : List Message :=
  let chars := stream.toList
  Pending.dispatch ⟨[], []⟩
    (lines [] (if chars.head? = some '\uFEFF' then chars.tail else chars))

/-! ## Line ends -/

def asLineFeed (char : Char) : Char := if char = '\r' then '\n' else char

/-- A text in which each line end, of one character or of two, is one line feed. -/
def lineEndsAsOne : List Char → List Char
  | '\r' :: '\n' :: rest => '\n' :: lineEndsAsOne rest
  | char :: rest => asLineFeed char :: lineEndsAsOne rest
  | [] => []

theorem map_joinLineEnds (chars : List Char) :
    (joinLineEnds chars).map asLineFeed = lineEndsAsOne chars := by
  induction chars using joinLineEnds.induct with
  | case1 rest ih => rw [joinLineEnds, lineEndsAsOne, List.map_cons, ih]; rfl
  | case2 char rest apart ih =>
    rw [joinLineEnds, lineEndsAsOne, List.map_cons, ih]
    · exact apart
    · exact apart
  | case3 => rfl

theorem lines_lineEnd {char : Char} {rest : List Char} (front : List Char)
    (ends : char = '\n' ∨ char = '\r' ∧ rest.head? ≠ some '\n') :
    lines front (char :: rest) = front :: lines [] rest := by
  have apart : ∀ behind, char = '\r' → rest = '\n' :: behind → False := by
    rintro behind rfl rfl
    rcases ends with impossible | ⟨-, alone⟩
    · cases impossible
    · exact alone rfl
  rw [lines]
  · exact if_pos (ends.imp_right And.left)
  · exact apart

def Unbroken (text : List Char) : Prop := ∀ char ∈ text, ¬ (char = '\n' ∨ char = '\r')

instance (text : List Char) : Decidable (Unbroken text) :=
  List.decidableBAll (fun char => ¬ (char = '\n' ∨ char = '\r')) text

theorem lines_text {text : List Char} (unbroken : Unbroken text) (front rest : List Char) :
    lines front (text ++ rest) = lines (front ++ text) rest := by
  induction text generalizing front with
  | nil => rw [List.append_nil, List.nil_append]
  | cons char text ih =>
    have here := unbroken char List.mem_cons_self
    rw [List.cons_append, lines, if_neg here,
      ih (fun other later => unbroken other (List.mem_cons_of_mem _ later)), List.append_assoc,
      List.singleton_append]
    rintro behind rfl
    exact absurd (.inr rfl) here

/-! ## The fields of a message -/

namespace Pending

theorem dispatch_line {line : List Char} (further : line ≠ []) (pending : Pending)
    (rest : List (List Char)) :
    pending.dispatch (line :: rest) = (pending.take line).dispatch rest := if_neg further

theorem take_data (name before front : List Char) :
    (Pending.mk name before).take (dataField ++ front) = ⟨name, before ++ front ++ ['\n']⟩ := by
  rfl

theorem take_event (name before front : List Char) :
    (Pending.mk name before).take ("event: ".toList ++ front) = ⟨front, before⟩ := by
  rfl

end Pending

/-- Line after line, the data are read as they were written, with a line feed for each of their
line ends and one behind. -/
theorem dispatch_fielded (name before front data rest : List Char) :
    Pending.dispatch ⟨name, before⟩ (lines (dataField ++ front) (fielded data ++ '\n' :: rest)) =
      Pending.dispatch ⟨name, before ++ (front ++ data.map asLineFeed) ++ ['\n']⟩
        (lines [] rest) := by
  have further : ∀ front, dataField ++ front ≠ [] := fun _ none => by cases none
  -- By induction on the data that are left, with the line that has begun and the lines before it.
  induction data generalizing before front with
  | nil =>
    rw [fielded, List.nil_append, lines_lineEnd _ (.inl rfl), Pending.dispatch_line (further front),
      Pending.take_data, List.map_nil, List.append_nil]
  | cons char data ih =>
    rw [fielded, List.map_cons]
    split
    · next ends =>
      have feed : asLineFeed char = '\n' := by
        rcases ends with rfl | rfl <;> rfl
      -- A carriage return is never taken for half of a line end: a field follows, no line feed.
      have alone : char = '\n' ∨ char = '\r' ∧
          (dataField ++ (fielded data ++ '\n' :: rest)).head? ≠ some '\n' :=
        ends.imp_right fun same => ⟨same, show some 'd' ≠ some '\n' by decide⟩
      rw [List.cons_append, List.cons_append, List.append_assoc, lines_lineEnd _ alone,
        Pending.dispatch_line (further front), Pending.take_data, lines_text (by decide),
        List.nil_append, ← List.append_nil dataField, ih, feed]
      simp only [List.append_assoc, List.nil_append, List.singleton_append]
    · next inner =>
      have same : asLineFeed char = char := if_neg fun same => inner (.inr same)
      have unbroken : Unbroken [char] := List.forall_mem_singleton.2 inner
      have step := lines_text unbroken (dataField ++ front) (fielded data ++ '\n' :: rest)
      rw [List.cons_append, ← List.singleton_append, step, List.append_assoc dataField, ih, same]
      simp only [List.append_assoc, List.singleton_append]

/-- A message that has data, and a name without line ends if it has one. -/
structure Legible (message : Message) : Prop where
  data : message.data ≠ ""
  named : ∀ name, message.name = some name → name ≠ "" ∧ Unbroken name.toList

/-- The message as it is read: a line feed for each of its line ends. -/
def Message.received (message : Message) : Message :=
  { message with data := String.ofList (message.data.toList.map asLineFeed) }

theorem dispatch_data (name data rest : List Char) :
    Pending.dispatch ⟨name, []⟩
        (lines [] (dataField ++ (fielded data ++ '\n' :: '\n' :: rest))) =
      ⟨if name = [] then none else some (String.ofList name),
        String.ofList (data.map asLineFeed)⟩ :: Pending.dispatch ⟨[], []⟩ (lines [] rest) := by
  rw [lines_text (by decide), List.nil_append, ← List.append_nil dataField, dispatch_fielded,
    lines_lineEnd _ (.inl rfl), Pending.dispatch, if_pos rfl, List.nil_append, List.nil_append,
    Pending.message?, if_neg (List.append_ne_nil_of_right_ne_nil _ (List.cons_ne_nil _ _)),
    List.dropLast_concat]
  rfl

theorem dispatch_message {message : Message} (legible : Legible message) (rest : List Char) :
    Pending.dispatch ⟨[], []⟩ (lines [] (message.chars ++ rest)) =
      message.received :: Pending.dispatch ⟨[], []⟩ (lines [] rest) := by
  obtain ⟨name, data⟩ := message
  obtain ⟨filled, named⟩ := legible
  rw [Message.chars, if_neg filled]
  cases name with
  | none =>
    have shape : [] ++ (dataField ++ fielded data.toList ++ ['\n']) ++ ['\n'] ++ rest =
        dataField ++ (fielded data.toList ++ '\n' :: '\n' :: rest) := by simp
    rw [shape, dispatch_data, if_pos rfl]
    rfl
  | some name =>
    obtain ⟨further, unbroken⟩ := named name rfl
    have shape : "event: ".toList ++ name.toList ++ ['\n'] ++
          (dataField ++ fielded data.toList ++ ['\n']) ++ ['\n'] ++ rest =
        ("event: ".toList ++ name.toList) ++
          '\n' :: (dataField ++ (fielded data.toList ++ '\n' :: '\n' :: rest)) := by simp
    have unbroken : Unbroken ("event: ".toList ++ name.toList) :=
      List.forall_mem_append.2 ⟨(by decide : Unbroken "event: ".toList), unbroken⟩
    have kept : name.toList ≠ [] := fun none => further (String.toList_eq_nil_iff.1 none)
    rw [shape, lines_text unbroken, List.nil_append, lines_lineEnd _ (.inl rfl),
      Pending.dispatch_line (fun none => by cases none), Pending.take_event, dispatch_data,
      if_neg kept, String.ofList_toList]
    rfl

/-! ## The items of a relay -/

/-- The message says what the item says. -/
inductive Conveys : Item → Message → Prop where
  | tool (payload : Json.Value) : Conveys (.ok (.tool payload)) ⟨some "tool", payload.text⟩
  | delta (text : String) :
      Conveys (.ok (.delta text)) ⟨none, String.ofList (lineEndsAsOne text.toList)⟩
  | complete {text data : String}
      (reads : Json.decode (Bytes.ofText data) = .complete (.object [("text", .string text)])) :
      Conveys (.ok (.complete text)) ⟨some "content-complete", data⟩
  | error (fault : Fault) :
      Conveys (.error fault) ⟨some "error", String.ofList (fault.text.toList.map asLineFeed)⟩

theorem received_of_text (name : Option String) (value : Json.Value) :
    (Message.mk name value.text).received = ⟨name, value.text⟩ := by
  have kept : value.chars.map asLineFeed = value.chars := by
    have same : ∀ char ∈ value.chars, asLineFeed char = id char := by
      refine fun char present => if_neg ?_
      rintro rfl
      exact absurd (value.printed_chars _ present) (by decide)
    rw [List.map_congr_left same, List.map_id]
  rw [Message.received, Json.Value.text, String.toList_ofList, kept]

theorem conveys_ofItem (item : Item) : Conveys item (Message.ofItem item).received := by
  cases item with
  | error fault => exact .error fault
  | ok event =>
    cases event with
    | tool payload =>
      rw [Message.ofItem, received_of_text]
      exact .tool payload
    | delta text =>
      rw [Message.ofItem, Message.received, String.toList_ofList, map_joinLineEnds]
      exact .delta text
    | complete text =>
      rw [Message.ofItem, received_of_text]
      exact .complete (Json.decode_text_of_string "text" text)

theorem joinLineEnds_ne_nil {chars : List Char} (further : chars ≠ []) :
    joinLineEnds chars ≠ [] := by
  unfold joinLineEnds
  split
  · exact List.cons_ne_nil _ _
  · exact List.cons_ne_nil _ _
  · exact further

theorem legible_ofItem {item : Item} (filled : ∀ text, item = .ok (.delta text) → text ≠ "") :
    Legible (Message.ofItem item) := by
  have legible : ∀ {name data : String}, name ∈ ["tool", "content-complete", "error"] →
      data ≠ "" → Legible ⟨some name, data⟩ := by
    intro name data known filled
    refine ⟨filled, fun other same => ?_⟩
    obtain rfl := Option.some.inj same
    exact (by decide : ∀ name ∈ ["tool", "content-complete", "error"],
      name ≠ "" ∧ Unbroken name.toList) _ known
  cases item with
  | error fault =>
    refine legible (by decide) fun empty => ?_
    have length := congrArg String.length empty
    rw [Fault.text, String.length_append, String.length_append] at length
    exact absurd length (by simp)
  | ok event =>
    cases event with
    | tool payload => exact legible (by decide) payload.text_ne_empty
    | delta text =>
      refine ⟨fun empty => ?_, nofun⟩
      have further : text.toList ≠ [] := fun none =>
        filled text rfl (String.toList_eq_nil_iff.1 none)
      exact joinLineEnds_ne_nil further (String.ofList_eq_empty_iff.1 empty)
    | complete text => exact legible (by decide) (Json.Value.text_ne_empty _)

theorem dispatch_items {items : List Item}
    (filled : ∀ text, .ok (.delta text) ∈ items → text ≠ "") :
    Pending.dispatch ⟨[], []⟩
        (lines [] (items.flatMap fun item => (Message.ofItem item).chars)) =
      items.map fun item => (Message.ofItem item).received := by
  induction items with
  | nil => rfl
  | cons item rest ih =>
    have legible : Legible (Message.ofItem item) :=
      legible_ofItem fun text same => filled text (same ▸ List.mem_cons_self)
    rw [List.flatMap_cons, dispatch_message legible, List.map_cons,
      ih fun text later => filled text (List.mem_cons_of_mem _ later)]

/-- No message begins with a byte order mark. -/
theorem exists_chars_cons (message : Message) :
    ∃ first rest, message.chars = first :: rest ∧ first ≠ '\uFEFF' := by
  unfold Message.chars
  cases message.name with
  | some name => exact ⟨'e', _, rfl, by decide⟩
  | none =>
    by_cases empty : message.data = ""
    · rw [if_pos empty]
      exact ⟨'\n', _, rfl, by decide⟩
    · rw [if_neg empty]
      exact ⟨'d', _, rfl, by decide⟩

/-- From the stream of some items a browser reads one message for each of them, in their order,
which conveys the item whatever line ends, colons and blanks its text holds. Only a piece without
text would be lost, since a browser drops a message without data; a session hands none over. -/
theorem read_encode {items : List Item}
    (filled : ∀ text, .ok (.delta text) ∈ items → text ≠ "") :
    List.Forall₂ Conveys items (read (encode items)) := by
  have unmarked : (items.flatMap fun item => (Message.ofItem item).chars).head? ≠
      some '\uFEFF' := by
    cases items with
    | nil => nofun
    | cons item rest =>
      obtain ⟨first, more, chars, other⟩ := exists_chars_cons (Message.ofItem item)
      rw [List.flatMap_cons, chars, List.cons_append, List.head?_cons]
      exact fun same => other (Option.some.inj same)
  have messages : read (encode items) = items.map fun item => (Message.ofItem item).received := by
    simp only [read, encode, String.toList_ofList, if_neg unmarked, dispatch_items filled]
  rw [messages, List.forall₂_map_right_iff, List.forall₂_same]
  exact fun item _ => conveys_ofItem item

/-- A text with line ends of every kind, with what looks like a field in it, and blanks around. -/
theorem read_encode_of_line_ends :
    let items : List Item :=
      [.ok (.tool (.object [("a", .string "\n")])), .ok (.delta " a\r\r\n\ndata: b\r"),
        .ok (.complete "a\r\n"), .error ⟨.agent, "gone\rby\n"⟩]
    List.Forall₂ Conveys items (read (encode items)) ∧
      read (encode items) =
        [⟨some "tool", "\x7b\"a\":\"\\n\"\x7d"⟩, ⟨none, " a\n\n\ndata: b\n"⟩,
          ⟨some "content-complete", "\x7b\"text\":\"a\\r\\n\"\x7d"⟩,
          ⟨some "error", "upstream: gone\nby\n"⟩] := by
  refine ⟨read_encode fun text present => ?_, by decide +kernel⟩
  simp only [List.mem_cons, List.not_mem_nil, Except.ok.injEq, Event.delta.injEq, reduceCtorEq,
    false_or, or_false] at present
  rw [present]
  decide

end Unbraid.EventStream
