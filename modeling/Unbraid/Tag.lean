import Unbraid.Bytes
import Unbraid.Fault

/-!
# Tags

The two tags that introduce the messages of an answer, and where they occur in a buffer. Tags have
one length, so at most one of them starts at a position. `occurrences` goes through the buffer once;
the next tag is looked for where the last one ends, so no two of them overlap.
-/

namespace Unbraid

/-- The kind of message that a tag introduces. -/
inductive TagKind where
  /-- A tool that the agent calls. -/
  | tool
  /-- An event of the language model. -/
  | model
  deriving DecidableEq, Repr

/-- A tag in a buffer: the position of its first byte, and its kind. -/
structure Hit where
  offset : Nat
  kind : TagKind
  deriving DecidableEq, Repr

/-- Why two texts cannot serve as tags. -/
inductive TagFault where
  | empty
  | same (tag : String)
  | lengths (tool model : String)
  deriving DecidableEq, Repr

def TagFault.message : TagFault → String
  | empty => "tag literals must not be empty"
  | same tag => "tool_tag and model_tag must differ, both are '" ++ tag ++ "'"
  | lengths tool model =>
    "tag literals must have the same byte length: '" ++ tool ++ "' is "
      ++ toString tool.utf8ByteSize ++ ", '" ++ model ++ "' is " ++ toString model.utf8ByteSize

/-- Unusable tags are a matter of the settings. -/
def TagFault.fault (cause : TagFault) : Fault := ⟨.config, cause.message⟩

/-- The tags of an answer. -/
structure TagPair where
  tool : Bytes
  model : Bytes
  tool_ne_nil : tool ≠ []
  tool_ne_model : tool ≠ model
  length_eq : model.length = tool.length

namespace TagPair

def ofTexts (tool model : String) : Except TagFault TagPair :=
  let toolBytes := Bytes.ofText tool
  let modelBytes := Bytes.ofText model
  if empty : toolBytes = [] ∨ modelBytes = [] then .error .empty
  else if same : toolBytes = modelBytes then .error (.same tool)
  else if lengths : modelBytes.length = toolBytes.length then
    .ok ⟨toolBytes, modelBytes, fun h => empty (.inl h), same, lengths⟩
  else .error (.lengths tool model)

/-- The tags used where the settings name none. -/
def standard : TagPair where
  tool := [0x54, 0x6F, 0x6F, 0x6C, 0x20, 0x3A]
  model := [0x54, 0x6F, 0x6C, 0x79, 0x20, 0x3A]
  tool_ne_nil := by decide
  tool_ne_model := by decide
  length_eq := rfl

def length (tags : TagPair) : Nat := tags.tool.length

def bytes (tags : TagPair) : TagKind → Bytes
  | .tool => tags.tool
  | .model => tags.model

theorem length_pos (tags : TagPair) : 0 < tags.length :=
  List.length_pos_iff.2 tags.tool_ne_nil

def startOf? (tags : TagPair) (bytes : Bytes) : Option TagKind :=
  if tags.tool.isPrefixOf bytes then some .tool
  else if tags.model.isPrefixOf bytes then some .model
  else none

def kindAt? (tags : TagPair) (buffer : Bytes) (position : Nat) : Option TagKind :=
  tags.startOf? (buffer.drop position)

/-- The first tag in some bytes, which stand at a position. -/
def search (tags : TagPair) (position : Nat) : Bytes → Option Hit
  | [] => none
  | byte :: rest =>
    match tags.startOf? (byte :: rest) with
    | some kind => some ⟨position, kind⟩
    | none => tags.search (position + 1) rest

/-- The first tag that starts at a position or later. -/
def findFrom (tags : TagPair) (buffer : Bytes) (start : Nat) : Option Hit :=
  tags.search start (buffer.drop start)

/-- The first tag after the one at an offset, with which it does not overlap. -/
def findNext (tags : TagPair) (buffer : Bytes) (offset : Nat) : Option Hit :=
  tags.findFrom buffer (offset + tags.length)

theorem length_le_of_startOf? {tags : TagPair} {bytes : Bytes} {kind : TagKind}
    (starts : tags.startOf? bytes = some kind) : tags.length ≤ bytes.length := by
  unfold startOf? at starts
  split at starts
  · next tool => exact (List.isPrefixOf_iff_prefix.1 tool).length_le
  · split at starts
    · next model =>
      have := (List.isPrefixOf_iff_prefix.1 model).length_le
      rw [tags.length_eq] at this
      exact this
    · simp at starts

theorem bounds_of_search {tags : TagPair} {bytes : Bytes} {position : Nat} {hit : Hit}
    (found : tags.search position bytes = some hit) :
    position ≤ hit.offset ∧ hit.offset + tags.length ≤ position + bytes.length := by
  induction bytes generalizing position with
  | nil => simp [search] at found
  | cons byte rest ih =>
    unfold search at found
    split at found
    · next kind starts =>
      have := length_le_of_startOf? starts
      obtain rfl : _ = hit := by simpa using found
      exact ⟨Nat.le_refl _, by simpa using this⟩
    · have := ih found
      simp only [List.length_cons]
      omega

/-- A tag that is found starts no earlier than the search and ends inside the buffer. -/
theorem bounds_of_findFrom {tags : TagPair} {buffer : Bytes} {start : Nat} {hit : Hit}
    (found : tags.findFrom buffer start = some hit) :
    start ≤ hit.offset ∧ hit.offset + tags.length ≤ buffer.length := by
  have bounds := bounds_of_search found
  have := tags.length_pos
  simp only [List.length_drop] at bounds
  omega

/-- The tags in some bytes, which stand at a position, but for those that start in the first few.
The bytes of a tag that is found are skipped in turn. -/
def scan (tags : TagPair) : (skipped position : Nat) → Bytes → List Hit
  | _, _, [] => []
  | skipped + 1, position, _ :: rest => tags.scan skipped (position + 1) rest
  | 0, position, byte :: rest =>
    match tags.startOf? (byte :: rest) with
    | none => tags.scan 0 (position + 1) rest
    | some kind => ⟨position, kind⟩ :: tags.scan (tags.length - 1) (position + 1) rest

/-- The tags from a position on, each found after the end of the one before. -/
def occurrences (tags : TagPair) (buffer : Bytes) (start : Nat) : List Hit :=
  tags.scan 0 start (buffer.drop start)

theorem scan_eq_scan_drop (tags : TagPair) (skipped position : Nat) (bytes : Bytes) :
    tags.scan skipped position bytes = tags.scan 0 (position + skipped) (bytes.drop skipped) := by
  induction skipped generalizing position bytes with
  | zero => simp
  | succ skipped ih =>
    cases bytes with
    | nil => simp [scan]
    | cons byte rest =>
      rw [scan, List.drop_succ_cons, ih, Nat.add_right_comm, Nat.add_assoc]

theorem scan_eq_search (tags : TagPair) (position : Nat) (bytes : Bytes) :
    tags.scan 0 position bytes =
      match tags.search position bytes with
      | none => []
      | some hit =>
        hit :: tags.scan 0 (hit.offset + tags.length)
          (bytes.drop (hit.offset + tags.length - position)) := by
  induction bytes generalizing position with
  | nil => simp [scan, search]
  | cons byte rest ih =>
    cases starts : tags.startOf? (byte :: rest) with
    | some kind =>
      obtain ⟨length, long⟩ : ∃ length, tags.length = length + 1 :=
        ⟨tags.length - 1, by have := tags.length_pos; omega⟩
      simp [scan, search, starts, long, scan_eq_scan_drop tags length, Nat.add_left_comm,
        Nat.add_comm]
    | none =>
      simp only [scan, search, starts]
      rw [ih]
      cases found : tags.search (position + 1) rest with
      | none => rfl
      | some hit =>
        have after := (bounds_of_search found).1
        have shift : hit.offset + tags.length - position =
            hit.offset + tags.length - (position + 1) + 1 := by omega
        simp [shift]

/-- The first tag is the one that a search finds; the others are those after its end. -/
theorem occurrences_eq (tags : TagPair) (buffer : Bytes) (start : Nat) :
    tags.occurrences buffer start =
      match tags.findFrom buffer start with
      | none => []
      | some hit => hit :: tags.occurrences buffer (hit.offset + tags.length) := by
  rw [occurrences, scan_eq_search, ← findFrom]
  cases found : tags.findFrom buffer start with
  | none => rfl
  | some hit =>
    have := (bounds_of_findFrom found).1
    have reached : start + (hit.offset + tags.length - start) = hit.offset + tags.length := by
      omega
    simp [occurrences, List.drop_drop, reached]

end TagPair

end Unbraid
