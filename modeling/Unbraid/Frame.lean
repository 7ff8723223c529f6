import Unbraid.Json.Decode
import Unbraid.Tag.Lexer

/-!
# Frames

Where a message ends. The body of a message runs from the end of its tag to the next tag. A tag is
plain text, so its bytes may also stand inside a JSON string of the body: at such a tag the body so
far is only the beginning of a value. That tag is passed over, unless the body can then no longer
become a value; in that case the body was cut short at the first such tag.
-/

namespace Unbraid

/-- A message in the buffer: its tag, and its body with the range of it. -/
structure Frame where
  kind : TagKind
  tagOffset : Nat
  start : Nat
  stop : Nat
  /-- A tag follows. Without one the body runs to the end of the buffer and may still grow. -/
  complete : Bool
  body : Bytes
  deriving DecidableEq, Repr

namespace Frame

/-- What the tags after a message say about its end. -/
inductive Boundary where
  /-- The body ends at this offset. -/
  | ends (offset : Nat)
  /-- No tag ends the body; the offset of the first tag that was passed over, if any was. -/
  | runsOn (passed : Option Nat)
  deriving DecidableEq, Repr

/-- Looks for the end of a body among the tags that follow. The bytes are those of the buffer from
the start of the body on. A tag at which the body is a whole value ends it; one at which the body is
only the beginning of a value is passed over, since it may be text of that value; and where the body
can be no value any more, the first tag that was passed over was no text after all. -/
def boundary (bytes : Bytes) (start : Nat) (passed : Option Nat) : List Hit → Boundary
  | [] => .runsOn passed
  | next :: rest =>
    match Json.probe (bytes.take (next.offset - start)) with
    | .complete => .ends next.offset
    | .malformed => .ends (passed.getD next.offset)
    | .incomplete => boundary bytes start (passed.or (some next.offset)) rest

def closed (hit : Hit) (start stop : Nat) (bytes : Bytes) : Frame :=
  ⟨hit.kind, hit.offset, start, stop, true, bytes.take (stop - start)⟩

def growing (hit : Hit) (start : Nat) (bytes : Bytes) : Frame :=
  ⟨hit.kind, hit.offset, start, start + bytes.length, false, bytes⟩

/-- The message of a tag, given the bytes after the tag and the tags that follow. If tags were
passed over and no later one ends the body, the bytes that the lexer has settled decide whether it
can still become a value. The last bytes of the buffer are left out of that, as they may be the
beginning of one more tag. -/
def ofTag (lexer : Lexer) (hit : Hit) (bytes : Bytes) (following : List Hit) : Frame :=
  let start := hit.offset + lexer.tags.length
  match boundary bytes start none following with
  | .ends stop => closed hit start stop bytes
  | .runsOn none => growing hit start bytes
  | .runsOn (some passed) =>
    if Json.probe (bytes.take (lexer.position - start)) = .malformed then
      closed hit start passed bytes
    else growing hit start bytes

/-- The message that a recorded tag introduces. -/
def extract (buffer : Bytes) (lexer : Lexer) (hit : Hit) : Frame :=
  ofTag lexer hit (buffer.drop (hit.offset + lexer.tags.length)) (lexer.hitsAfter hit.offset)

/-- The messages in the bytes of a buffer from an offset on, of the tags that are recorded there. A
tag inside the body of a message introduces none. -/
def allFrom (lexer : Lexer) (bytes : Bytes) (offset : Nat) : List Hit → List Frame
  | [] => []
  | hit :: rest =>
    if hit.offset < offset then allFrom lexer bytes offset rest
    else
      let start := hit.offset + lexer.tags.length
      let frame := ofTag lexer hit (bytes.drop (start - offset))
        (rest.dropWhile fun later => later.offset < start)
      frame :: allFrom lexer (bytes.drop (frame.stop - offset)) frame.stop rest

end Frame

end Unbraid
