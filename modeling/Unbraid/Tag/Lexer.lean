import Unbraid.Tag

/-!
# The lexer

The tags of a buffer that grows at its end and is consumed from its beginning. The lexer remembers
the tags it has seen and how far it has looked, so that it looks at every byte once.
-/

namespace Unbraid

/-- The tags recorded so far, by their offsets in the present buffer. Every tag of the chain that
starts before the position is among them, so the search goes on there when more bytes have come. -/
structure Lexer where
  tags : TagPair
  hits : List Hit
  /-- Every tag that starts before this position is recorded. -/
  position : Nat

namespace Lexer

def fresh (tags : TagPair) : Lexer := ⟨tags, [], 0⟩

/-- Records the tags in the bytes that were added to the buffer. The last bytes may be the beginning
of a tag, so the position stays before them, unless a tag ends later. -/
def advance (lexer : Lexer) (buffer : Bytes) : Lexer :=
  let found := lexer.tags.occurrences buffer lexer.position
  let reached := match found.getLast? with
    | some last => last.offset + lexer.tags.length
    | none => lexer.position
  { lexer with
    hits := lexer.hits ++ found
    position := max reached (buffer.length - (lexer.tags.length - 1)) }

def firstHit? (lexer : Lexer) : Option Hit := lexer.hits.head?

/-- The first recorded tag at an offset or later. -/
def hitFrom? (lexer : Lexer) (offset : Nat) : Option Hit :=
  lexer.hits.find? fun hit => offset ≤ hit.offset

/-- The recorded tags that follow the one at an offset. -/
def hitsAfter (lexer : Lexer) (offset : Nat) : List Hit :=
  lexer.hits.filter fun hit => offset + lexer.tags.length ≤ hit.offset

/-- How many bytes at the beginning of the buffer hold no part of a tag. -/
def preamble (lexer : Lexer) : Nat :=
  match lexer.firstHit? with
  | some hit => hit.offset
  | none => lexer.position

/-- The lexer after that many bytes are removed from the beginning of the buffer. -/
def consume (lexer : Lexer) (count : Nat) : Lexer :=
  { lexer with
    hits := (lexer.hits.dropWhile fun hit => hit.offset < count).map fun hit =>
      { hit with offset := hit.offset - count }
    position := lexer.position - count }

def reset (lexer : Lexer) : Lexer := fresh lexer.tags

end Lexer

end Unbraid
