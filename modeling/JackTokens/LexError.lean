import JackTokens.Diagnostic
import JackTokens.ReadBuffer
import JackTokens.VisibleChar

namespace JackTokens

/-- Why a text forms no token at some place. -/
inductive LexFault where
  | unterminatedString
  | unterminatedComment
  | unrecognized (c : Char)
  | outOfRange (digits : String)
deriving DecidableEq

namespace LexFault

def message : LexFault → String
  | unterminatedString => "unterminated string constant"
  | unterminatedComment => "unterminated block comment"
  | unrecognized c => "unrecognized character '" ++ shownChar c ++ "'"
  | outOfRange digits => "integer constant " ++ digits ++ " is out of range"

/-- The length in bytes of the text at fault. -/
def length : LexFault → Nat
  | unterminatedString => 1
  | unterminatedComment => 1
  | unrecognized c => c.utf8Size
  | outOfRange digits => digits.utf8ByteSize

end LexFault

/-- Why a tokenizer stops before the end of its input. -/
inductive LexError where
  | unreadable (cause : ReadError)
  | malformed (position : Position) (fault : LexFault)
deriving DecidableEq

namespace LexError

def message : LexError → String
  | unreadable cause => "failed to read input: " ++ cause.message
  | malformed position fault => fault.message ++ " at " ++ position.text

def isLexical : LexError → Bool
  | unreadable _ => false
  | malformed _ _ => true

def position? : LexError → Option Position
  | unreadable _ => none
  | malformed position _ => some position

def fault? : LexError → Option LexFault
  | unreadable _ => none
  | malformed _ fault => some fault

def diagnostic : LexError → Diagnostic
  | unreadable cause => .error (unreadable cause).message
  | malformed position fault =>
    { Diagnostic.error fault.message with span? := some ⟨position, fault.length⟩ }

end LexError

/-- What is kept of an error. That of an input cannot be given twice: its kind and its message
stand for it. -/
inductive Failure where
  | unreadable (kind : DeviceError.Kind) (message : String)
  | malformed (position : Position) (fault : LexFault)
deriving DecidableEq

namespace Failure

def record : LexError → Failure
  | .unreadable cause => unreadable cause.kind cause.message
  | .malformed position fault => malformed position fault

def toError : Failure → LexError
  | unreadable kind message => .unreadable (.device ⟨kind, message⟩)
  | malformed position fault => .malformed position fault

@[simp] theorem record_toError (failure : Failure) : record failure.toError = failure := by
  cases failure with
  | unreadable => rfl
  | malformed => rfl

end Failure

end JackTokens
