import Mathlib.Data.List.Infix

/-! # Exceptions and their classification

What a job can throw: an `Exception` of the program, with a text of the
enumeration `ExceptionCode` and a level, or any other error, of which only the
message is ever looked at (and may be missing). `errorHandler` is the one place
where the second kind is turned into the first. -/
namespace BlockchainTask.Common.Exception

inductive ExceptionLevel where
  | Normal
  | Fatal
  deriving DecidableEq, Repr

namespace ExceptionCode

def ERR000 : String := "Internal server error"
def ERR001 : String := "API not found"
def ERR002 : String := "Validation error"
def ERR100 : String := "Not found network"
def ERR101 : String := "Invalid chainId"
def ERR200 : String := "Not found protocol"
def ERR700 : String := "Interacted address must be contract address"
def ERR701 : String := "Not found interaction"
def ERR800 : String := "Not found abi"
def ERR900 : String := "Not found Input token"
def ERR901 : String := "Not found output token"
def ERR902 : String := "Not match chain id of input token and output token"
def ERR903 : String := "Comparing incomparable trades"
def ERR1000 : String := "Not found scheduler"
def ERR1001 : String := "Unknown exception"
def ERR1002 : String := "missing response"
def ERR1003 : String := "ETIMEDOUT"
def ERR1004 : String := "could not detect network"
def ERR1005 : String := "Expected rpc error"
def ERR1006 : String := "Validation error"
def ERR1007 : String := "missing revert data in call exception"
def ERR1008 : String := "Too many connections"
def ERR1009 : String := "Too Many Requests"
def ERR1010 : String := "processing response error"
/-- One of the unused codes: its text is empty. -/
def ERR004 : String := ""

/-- Every key with its text, in the order of the enumeration. -/
def entries : List (String × String) :=
  [("ERR000", ERR000), ("ERR001", ERR001), ("ERR002", ERR002), ("ERR003", ""), ("ERR004", ""),
   ("ERR005", ""), ("ERR006", ""), ("ERR007", ""), ("ERR008", ""), ("ERR009", ""),
   ("ERR100", ERR100), ("ERR101", ERR101), ("ERR102", ""), ("ERR103", ""), ("ERR104", ""),
   ("ERR105", ""), ("ERR106", ""), ("ERR107", ""), ("ERR108", ""), ("ERR109", ""),
   ("ERR200", ERR200), ("ERR201", ""), ("ERR202", ""), ("ERR203", ""), ("ERR204", ""),
   ("ERR205", ""), ("ERR206", ""), ("ERR207", ""), ("ERR208", ""), ("ERR209", ""),
   ("ERR300", ""), ("ERR301", ""), ("ERR302", ""), ("ERR303", ""), ("ERR304", ""),
   ("ERR305", ""), ("ERR306", ""), ("ERR307", ""), ("ERR308", ""), ("ERR309", ""),
   ("ERR400", ""), ("ERR401", ""), ("ERR402", ""), ("ERR403", ""), ("ERR404", ""),
   ("ERR405", ""), ("ERR406", ""), ("ERR407", ""), ("ERR408", ""), ("ERR409", ""),
   ("ERR500", ""), ("ERR501", ""), ("ERR502", ""), ("ERR503", ""), ("ERR504", ""),
   ("ERR505", ""), ("ERR506", ""), ("ERR507", ""), ("ERR508", ""), ("ERR509", ""),
   ("ERR600", ""), ("ERR601", ""), ("ERR602", ""), ("ERR603", ""), ("ERR604", ""),
   ("ERR605", ""), ("ERR606", ""), ("ERR607", ""), ("ERR608", ""), ("ERR609", ""),
   ("ERR700", ERR700), ("ERR701", ERR701), ("ERR702", ""), ("ERR703", ""), ("ERR704", ""),
   ("ERR705", ""), ("ERR706", ""), ("ERR707", ""), ("ERR708", ""), ("ERR709", ""),
   ("ERR800", ERR800), ("ERR801", ""), ("ERR802", ""), ("ERR803", ""), ("ERR804", ""),
   ("ERR805", ""), ("ERR806", ""), ("ERR807", ""), ("ERR808", ""), ("ERR809", ""),
   ("ERR900", ERR900), ("ERR901", ERR901), ("ERR902", ERR902), ("ERR903", ERR903),
   ("ERR904", ""), ("ERR905", ""), ("ERR906", ""), ("ERR907", ""), ("ERR908", ""),
   ("ERR909", ""), ("ERR1000", ERR1000), ("ERR1001", ERR1001), ("ERR1002", ERR1002),
   ("ERR1003", ERR1003), ("ERR1004", ERR1004), ("ERR1005", ERR1005), ("ERR1006", ERR1006),
   ("ERR1007", ERR1007), ("ERR1008", ERR1008), ("ERR1009", ERR1009), ("ERR1010", ERR1010)]

end ExceptionCode

/-- The first key with the text. -/
def getExceptionCode (enumValue : String) : Option String :=
  (ExceptionCode.entries.find? fun x => x.2 == enumValue).map Prod.fst

inductive Thrown where
  | error (message : Option String)
  | exception (message : String) (level : ExceptionLevel) (data : Option Thrown)

namespace Thrown

def message : Thrown → Option String
  | .error m => m
  | .exception m _ _ => some m

def code : Thrown → Option String
  | .error _ => none
  | .exception m _ _ => getExceptionCode m

/-- `e instanceof Exception`. -/
def isException : Thrown → Bool
  | .error _ => false
  | .exception .. => true

/-- `e.message?.match(pattern)`, for a pattern without special characters. -/
def matchesCode (e : Thrown) (pattern : String) : Bool :=
  match e.message with
  | some m => decide (pattern.toList <:+: m.toList)
  | none => false

end Thrown

open ExceptionCode in
/-- What `errorHandler(e)` throws. It never returns, and its tests are tried in
this order. The third one throws the empty text of another code. -/
def errorHandler (e : Thrown) : Thrown :=
  if e.matchesCode ERR1002 then .exception ERR1002 .Normal (some e)
  else if e.matchesCode ERR1003 then .exception ERR1003 .Normal (some e)
  else if e.matchesCode ERR1004 then .exception ERR004 .Normal (some e)
  else if e.matchesCode ERR1005 then .exception ERR1005 .Normal (some e)
  else if e.matchesCode ERR1009 then .exception ERR1009 .Normal (some e)
  else if e.matchesCode ERR1010 then .exception ERR1010 .Normal (some e)
  else if e.matchesCode ERR1008 then .exception ERR1008 .Fatal (some e)
  else if e.matchesCode ERR1007 then .exception ERR1007 .Fatal (some e)
  else .exception ERR1001 .Fatal (some e)

/-- Whatever the error, the handler throws an exception that carries it. -/
theorem errorHandler_exception (e : Thrown) :
    ∃ m l, errorHandler e = .exception m l (some e) := by
  unfold errorHandler
  repeat' split
  all_goals exact ⟨_, _, rfl⟩

/-- `new Error(message)`. -/
def rawError (message : String) : Thrown := .error (some message)

/-- An error that is no `Exception`: what the database driver throws. -/
structure RawError where
  message : Option String

def RawError.thrown (e : RawError) : Thrown := .error e.message

/-- A read of a property of `undefined` or `null`. -/
def typeError : Thrown := rawError "Cannot read properties of undefined"

end BlockchainTask.Common.Exception
