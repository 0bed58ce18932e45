import ToolChanger.Json.Raw
import ToolChanger.Json.Token

namespace ToolChanger.Json

/-- An array or object that is still open, its contents so far in reverse. -/
inductive Frame where
  | array (items : List Raw)
  | object (members : List (Option String × Raw))
  | member (members : List (Option String × Raw)) (name : Option String)

/-- What may come next. -/
inductive Expecting where
  /-- a value; in an array just opened also its end -/
  | value (orEnd : Bool)
  /-- a name; in an object just opened also its end -/
  | name (orEnd : Bool)
  | colon
  /-- a comma or the end of what is open -/
  | separator
  /-- nothing: the text's value is complete -/
  | finish (result : Raw)

structure State where
  frames : List Frame
  expecting : Expecting

def complete (value : Raw) : List Frame → Option State
  | [] => some ⟨[], .finish value⟩
  | .array items :: rest => some ⟨.array (value :: items) :: rest, .separator⟩
  | .member members name :: rest => some ⟨.object ((name, value) :: members) :: rest, .separator⟩
  | .object _ :: _ => none

def step (state : State) (token : Token) : Option State :=
  match state.expecting, token, state.frames with
  | .value _, .null, frames => complete (.literal (some .null)) frames
  | .value _, .bool b, frames => complete (.literal (some (.bool b))) frames
  | .value _, .number n, frames => complete (.literal (n.map .number)) frames
  | .value _, .string s, frames => complete (.literal (s.map .string)) frames
  | .value _, .openArray, frames => some ⟨.array [] :: frames, .value true⟩
  | .value _, .openObject, frames => some ⟨.object [] :: frames, .name true⟩
  | .value true, .closeArray, .array items :: rest => complete (.array items.reverse) rest
  | .name _, .string name, .object members :: rest => some ⟨.member members name :: rest, .colon⟩
  | .name true, .closeObject, .object members :: rest => complete (.object members.reverse) rest
  | .colon, .colon, frames => some ⟨frames, .value false⟩
  | .separator, .comma, .array items :: rest => some ⟨.array items :: rest, .value false⟩
  | .separator, .comma, .object members :: rest => some ⟨.object members :: rest, .name false⟩
  | .separator, .closeArray, .array items :: rest => complete (.array items.reverse) rest
  | .separator, .closeObject, .object members :: rest => complete (.object members.reverse) rest
  | _, _, _ => none

def run (state : State) : List Token → Option State
  | [] => some state
  | token :: rest => (step state token).bind (run · rest)

def ofTokens? (tokens : List Token) : Option Raw :=
  match run ⟨[], .value false⟩ tokens with
  | some ⟨_, .finish result⟩ => some result
  | _ => none

def parsePart? (selection : Selection) (text : String) : Option Json := do
  (← ofTokens? (← tokens text.toList)).read? selection depthLimit

def parse? (text : String) : Option Json := parsePart? .whole text

end ToolChanger.Json
