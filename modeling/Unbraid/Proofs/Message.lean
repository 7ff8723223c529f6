import Unbraid.Frame

namespace Unbraid

/-- A message apart from where it stands in a stream: the kind of its tag, and its body. -/
structure Message where
  kind : TagKind
  body : Bytes
  deriving DecidableEq, Repr

namespace Message

def wire (tags : TagPair) (message : Message) : Bytes :=
  tags.bytes message.kind ++ message.body

def ofKind (kind : TagKind) (messages : List Message) : List Message :=
  messages.filter (·.kind = kind)

/-- Messages in the order of a pass: the tool notices, and then the model's events. -/
def byKind (messages : List Message) : List Message :=
  ofKind .tool messages ++ ofKind .model messages

variable (kind : TagKind) (messages more : List Message)

theorem ofKind_append : ofKind kind (messages ++ more) = ofKind kind messages ++ ofKind kind more :=
  List.filter_append ..

theorem ofKind_cons (message : Message) :
    ofKind kind (message :: messages) =
      if message.kind = kind then message :: ofKind kind messages else ofKind kind messages := by
  by_cases same : message.kind = kind
  · rw [if_pos same, ofKind, List.filter_cons_of_pos (by simpa using same), ofKind]
  · rw [if_neg same, ofKind, List.filter_cons_of_neg (by simpa using same), ofKind]

theorem ofKind_byKind : ofKind kind (byKind messages) = ofKind kind messages := by
  have other : ∀ another : TagKind, another ≠ kind →
      ofKind kind (ofKind another messages) = [] := by
    intro another differ
    refine List.filter_eq_nil_iff.2 fun message present => ?_
    have known : message.kind = another := of_decide_eq_true (List.mem_filter.1 present).2
    rw [known]
    simpa using differ
  have same : ofKind kind (ofKind kind messages) = ofKind kind messages := by
    refine List.filter_eq_self.2 fun message present => (List.mem_filter.1 present).2
  rw [byKind, ofKind_append]
  cases kind with
  | tool => rw [same, other .model (by decide), List.append_nil]
  | model => rw [same, other .tool (by decide), List.nil_append]

end Message

def Frame.message (frame : Frame) : Message := ⟨frame.kind, frame.body⟩

end Unbraid
