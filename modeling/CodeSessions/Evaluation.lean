import CodeSessions.Text.Utf8
import CodeSessions.Value

/-!
# Evaluations — what running a piece of code does

An `Interpreter` is a function from a piece of code and the bindings it starts from to an
`Evaluation`: the effects on the environment and the output, one at a time and in order, and the
fault that ended it, if one did.  The effects before a fault stand.

- `Evaluation.bindings` are the bindings it leaves behind,
- `Evaluation.transcript` is the output it wrote.
-/

namespace CodeSessions

/-! ## Transcripts -/

/-- The bytes written during one evaluation. -/
structure Transcript where
  bytes : ByteArray := .empty

namespace Transcript

def empty : Transcript := {}

def isEmpty (t : Transcript) : Bool :=
  t.bytes.isEmpty

def write (t : Transcript) (bytes : ByteArray) : Transcript :=
  ⟨t.bytes ++ bytes⟩

/-- The written text; bytes that are part of no character are shown as U+FFFD. -/
def text (t : Transcript) : String :=
  Utf8.text t.bytes

end Transcript

/-! ## Effects -/

/-- What an interpreter can do while it holds an environment and a transcript. -/
inductive Effect
  | bind (name : String) (value : Value)
  /-- Puts other bindings in the place of all that there are. -/
  | replace (env : Bindings)
  | write (bytes : ByteArray)

namespace Effect

def onBindings (env : Bindings) : Effect → Bindings
  | bind name value => env.set name value
  | replace env => env
  | write _ => env

def onTranscript (t : Transcript) : Effect → Transcript
  | bind _ _ | replace _ => t
  | write bytes => t.write bytes

end Effect

/-! ## Evaluations -/

structure Evaluation where
  effects : List Effect
  /-- The message of the fault that ended the evaluation. -/
  fault : Option String

namespace Evaluation

def bindings (e : Evaluation) (env : Bindings) : Bindings :=
  e.effects.foldl Effect.onBindings env

def transcript (e : Evaluation) : Transcript :=
  e.effects.foldl Effect.onTranscript .empty

/-- The text it wrote, or the message of its fault. -/
def outcome (e : Evaluation) : Except String String :=
  match e.fault with
  | none => .ok e.transcript.text
  | some message => .error message

end Evaluation

/-- Runs a piece of code on the bindings of an environment. -/
abbrev Interpreter := String → Bindings → Evaluation

end CodeSessions
